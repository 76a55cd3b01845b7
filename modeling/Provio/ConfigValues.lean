import Provio.ConfigStops
/-!
# ConfigValues — what the line of a text-valued key stores

The value of `KEY=VALUE` should be the text up to the first `*`, and a blank one be reported.  The parser stores that
text exactly when it is not empty, has no further `=` (and no NUL) and ends within the buffer, and when the pieces of
an overlong line do no harm (`storesValue_iff`).
-/
namespace Provio

def Key.blank : Key → CStr
  | .baseUri         => cstr "Blank base URI!\n"
  | .provPrefix      => cstr "Blank PREFIX!\n"
  | .statFilePath    => cstr "Blank stat file path!\n"
  | .newGraphPath    => cstr "Blank provenance file path!\n"
  | .legacyGraphPath => cstr "Blank provenance file path!\n"
  | .format          => cstr "Blank provenace format!\n"
  | .provLevel       => cstr "Blank provenace level!\n"
  | _                => []

def valueLine (k : Key) (value : CStr) : CStr := k.text ++ equals :: (value ++ [newline])

def unmarked (value : CStr) : CStr := value.takeWhile (· ≠ star)

def Ended (file : CStr) : Prop := file = [] ∨ file.getLast? = some newline

/-- Among well-formed lines, none of them a later one of the key, the line stores its value or reports it blank. -/
def StoresValue (k : Key) (value : CStr) : Prop :=
  ∀ file_path before after, WellFormed before → Ended before → WellFormed after → lastValue after k.text = none →
    ∃ r p, readConfig file_path (some (before ++ (valueLine k value ++ after))) = .ok (r, p) ∧
      if unmarked value = [] then k.blank ∈ p.stdout else p.config.get k = .text (some (unmarked value))

/-- The pieces of the line past the first, up to an irregular one. -/
def overrun (k : Key) (value : CStr) : List CStr := readable (piecesOf ((valueLine k value).drop 509))

/-- The text before the mark is not empty, has no `=` and ends within the buffer; what is past the buffer holds no value
of marks and gives the key no other value. -/
structure Storable (k : Key) (value : CStr) : Prop where
  not_blank : unmarked value ≠ []
  not_cut   : ∀ c ∈ unmarked value, c ≠ equals ∧ c ≠ 0
  fits      : k.text.length + 1 + (unmarked value).length ≤ 509
  no_marks  : ∀ p ∈ overrun k value, lineOf p ≠ .marks
  not_reset : ∀ v, lastMeant k (overrun k value) = some v → v = .text (some (unmarked value))

/-! ## A key's text -/

theorem Key.text_ne (k : Key) : k.text ≠ [] := by cases k <;> decide

theorem Key.text_run (k : Key) : ∀ c ∈ k.text, c ≠ 0 ∧ CFG_DELIMS c = false := by cases k <;> decide

theorem Key.text_head (k : Key) : k.text.head? ≠ some star := by cases k <;> decide

theorem Key.newline_not_mem_text (k : Key) : newline ∉ k.text := fun h => absurd (k.text_run newline h).2 (by decide)

theorem Key.read_text {k : Key} (hk : k.isText) (val : CStr) : k.read val = some (.text (some val)) := by
  cases k <;> first | rfl | cases hk

theorem default_ne {k : Key} (hk : k.isText) {s : CStr} (hs : s ≠ []) :
    (startParse []).config.get k ≠ .text (some s) := by
  intro h
  cases k <;> simp [Key.isText, startParse, initConfig, ParsedConfig.get] at hk h
  exact hs h

/-! ## The pieces of a file around a line -/

theorem piecesOf_append {before : CStr} (h : Ended before) (after : CStr) :
    piecesOf (before ++ after) = piecesOf before ++ piecesOf after := by
  rw [piecesOf_eq_flatMap, piecesOf_eq_flatMap before, piecesOf_eq_flatMap after, ← List.flatMap_append]
  exact congrArg (·.flatMap piecesOf) (Lines.lines_append newline after before h)

theorem valueLine_eq (k : Key) (value : CStr) : valueLine k value = (k.text ++ equals :: value) ++ [newline] := by
  simp [valueLine]

theorem valueLine_isLine (k : Key) {value : CStr} (hnl : newline ∉ value) : Lines.IsLine newline (valueLine k value) := by
  refine ⟨by simp [valueLine], ?_⟩
  rw [valueLine_eq, List.dropLast_concat, List.mem_append, List.mem_cons]
  rintro (h | h | h)
  · exact k.newline_not_mem_text h
  · exact absurd h (by decide)
  · exact hnl h

theorem piecesOf_valueLine (k : Key) {value : CStr} (hnl : newline ∉ value) :
    piecesOf (valueLine k value) = (valueLine k value).take 509 :: piecesOf ((valueLine k value).drop 509) :=
  Lines.pieces_of_piece newline (by decide) (valueLine_isLine k hnl).1
    (Lines.piece_of_isLine newline 509 (valueLine_isLine k hnl))

/-- **A storable value is what the first piece gives the key.** -/
theorem Storable.lineOf_first {k : Key} {value : CStr} (h : Storable k value) (hnl : newline ∉ value) :
    lineOf ((valueLine k value).take 509) = .setting k.text (unmarked value) := by
  have hsplit : valueLine k value
      = (k.text ++ equals :: unmarked value) ++ (value.dropWhile (· ≠ star) ++ [newline]) := by
    have hvalue : unmarked value ++ value.dropWhile (· ≠ star) = value := List.takeWhile_append_dropWhile
    rw [List.append_assoc, List.cons_append, ← List.append_assoc (unmarked value), hvalue]
    rfl
  have hlen : (k.text ++ equals :: unmarked value).length ≤ 509 := by
    have := h.fits
    simp only [List.length_append, List.length_cons]
    omega
  have htake : (valueLine k value).take 509 = k.text ++ equals :: (unmarked value ++
      (value.dropWhile (· ≠ star) ++ [newline]).take (509 - (k.text ++ equals :: unmarked value).length)) := by
    rw [hsplit, List.take_append, List.take_of_length_le hlen]
    simp
  have hmem : ∀ c ∈ unmarked value, c ∈ value := fun c hc => (List.takeWhile_subset _) hc
  rw [htake]
  refine lineOf_setting k.text_ne h.not_blank k.text_head k.text_run (fun c hc => ⟨(h.not_cut c hc).2, ?_, ?_⟩) ?_
  · have hne : c ≠ newline := fun e => hnl (e ▸ hmem c hc)
    simp [CFG_DELIMS, (h.not_cut c hc).1, hne]
  · simpa using List.mem_takeWhile_imp hc
  · -- what follows the text begins with the mark or with the newline
    intro d hd
    rw [List.head?_take] at hd
    split at hd
    · cases hd
    · cases hv : value.dropWhile (· ≠ star) with
      | nil =>
        rw [hv] at hd
        obtain rfl := Option.some.inj hd
        exact .inr (.inl rfl)
      | cons e t =>
        rw [hv] at hd
        obtain rfl := Option.some.inj hd
        have := List.head_dropWhile_not (p := fun c => decide (c ≠ star)) (l := value) (by rw [hv]; simp)
        simp only [hv, List.head_cons] at this
        right; right
        simpa using this

/-! ## What a piece can give a key -/

theorem lineOf_bounds {p key val : CStr} (h : lineOf p = .setting key val) :
    key.length + 1 + val.length ≤ p.length ∧ ∀ c ∈ val, c ≠ equals ∧ c ≠ 0 := by
  obtain ⟨-, rest, val_in, r, r', hk, hv, hm⟩ := lineOf_eq_setting.1 h
  obtain ⟨a1, b1, e1, hb1⟩ := Lines.token_stretch hk
  obtain ⟨a2, b2, e2, -⟩ := Lines.token_stretch hv
  obtain ⟨a3, b3, e3, -⟩ := Lines.token_stretch hm
  have hrest : rest ≠ [] := by
    rintro rfl
    cases hv
  have hin : ∀ c ∈ val_in, c ∈ p.takeWhile (· ≠ 0) := by
    intro c hc
    rw [e1, e2]
    simp [hc]
  have hval : ∀ c ∈ val, c ∈ val_in := by
    intro c hc
    rw [e3]
    simp [hc]
  refine ⟨?_, fun c hc => ⟨?_, ?_⟩⟩
  · have h0 : (p.takeWhile (· ≠ 0)).length ≤ p.length := (List.takeWhile_sublist _).length_le
    have h1 := congrArg List.length e1
    have h2 := congrArg List.length e2
    have h3 := congrArg List.length e3
    simp only [List.length_append] at h1 h2 h3
    have := hb1 hrest
    omega
  · rintro rfl
    exact absurd ((Lines.token_run hv).2 equals (hval _ hc)) (by decide)
  · simpa using List.mem_takeWhile_imp (hin c (hval c hc))

theorem lineOf_of_meant {k : Key} (hk : k.isText) {p val : CStr} (h : meant k p = some (.text (some val))) :
    lineOf p = .setting k.text val := by
  unfold meant at h
  cases hl : lineOf p with
  | setting key v =>
    simp only [hl] at h
    by_cases hkey : key = k.text
    · rw [if_pos hkey, k.read_text hk] at h
      obtain rfl : v = val := by simpa using h
      rw [hkey]
    · rw [if_neg hkey] at h; cases h
  | _ => simp [hl] at h

theorem mem_of_lastMeant {k : Key} {ls : List CStr} {v : Value} (h : lastMeant k ls = some v) :
    ∃ l ∈ ls, meant k l = some v :=
  List.mem_filterMap.1 (List.mem_of_getLast? h)

/-- **A value that the line stores is storable**, on a file of that line alone. -/
theorem storable_of_stored {k : Key} (hk : k.isText) {value : CStr} (hnl : newline ∉ value) (h : StoresValue k value) :
    Storable k value := by
  obtain ⟨r, p, hread, hstored⟩ := h [] [] [] (by exact nofun) (.inl rfl) (by exact nofun) rfl
  rw [List.nil_append, List.append_nil, readConfig_eq, piecesOf_valueLine k hnl] at hread
  generalize hps : (valueLine k value).take 509 :: piecesOf ((valueLine k value).drop 509) = ps at hread
  obtain ⟨r', hrun, hread⟩ := bind_eq_ok.1 hread
  obtain ⟨hm, rfl⟩ := runPieces_eq_ok.1 hrun
  obtain ⟨-, rfl⟩ := Prod.mk.inj (Except.ok.inj hread)
  have hne : unmarked value ≠ [] := by
    intro e
    rw [if_pos e] at hstored
    cases hstored
  rw [if_neg hne, get_foldl] at hstored
  -- a field of that default is set by a piece
  obtain ⟨v, hlast⟩ : ∃ v, lastMeant k (readable ps) = some v := by
    cases hl : lastMeant k (readable ps) with
    | some v => exact ⟨v, rfl⟩
    | none =>
      rw [hl] at hstored
      exact absurd hstored (default_ne hk hne)
  rw [hlast] at hstored
  obtain rfl : v = .text (some (unmarked value)) := hstored
  obtain ⟨q, hq, hmeant⟩ := mem_of_lastMeant hlast
  have hbounds := lineOf_bounds (lineOf_of_meant hk hmeant)
  have hqlen : q.length ≤ 509 := by
    have hq' := mem_readable hq
    rw [← hps, ← piecesOf_valueLine k hnl] at hq'
    exact Lines.length_le_of_mem_pieces newline 509 hq'
  -- the first piece is not where the parse ends
  have hfirst : readable ps = (valueLine k value).take 509 :: overrun k value := by
    rw [← hps, overrun, readable, List.takeWhile_cons]
    split
    · rfl
    · rename_i hirr
      rw [← hps, readable, List.takeWhile_cons, if_neg hirr] at hq
      cases hq
  rw [hfirst] at hlast hm
  refine ⟨hne, hbounds.2, by omega, fun l hl => hm l (List.mem_cons_of_mem _ hl), fun v hv => ?_⟩
  rw [← List.singleton_append, lastMeant_append, hv] at hlast
  exact Option.some.inj hlast

theorem lastMeant_of_no_line {file : CStr} (h : WellFormed file) {k : Key} (hk : lastValue file k.text = none) :
    ∀ l ∈ piecesOf file, meant k l = none := by
  have hm := lastMeant_wellFormed h k
  rw [hk, Option.map_none, Option.map_eq_none_iff, lastMeant_eq_none] at hm
  rwa [piecesOf_of_short (fun l hl => (h l hl).short)]

/-- The lines after an overlong line are reached or not; in either case they do the key no harm. -/
theorem readable_overrun {rest after : List CStr} {k : Key} (hafter : Regular after)
    (hk : ∀ l ∈ after, meant k l = none) (hmarks : ∀ p ∈ readable rest, lineOf p ≠ .marks) :
    (∀ p ∈ readable (rest ++ after), lineOf p ≠ .marks) ∧
    lastMeant k (readable (rest ++ after)) = lastMeant k (readable rest) := by
  unfold readable at *
  rw [List.takeWhile_append]
  split
  · rename_i hall
    have hrest : rest.takeWhile (fun l => lineOf l ≠ .irregular) = rest :=
      (List.takeWhile_sublist _).eq_of_length hall
    rw [hrest] at hmarks
    have hsub : ∀ p ∈ after.takeWhile (fun l => lineOf l ≠ .irregular), p ∈ after := List.takeWhile_subset _
    refine ⟨fun p hp => ?_, ?_⟩
    · rcases List.mem_append.1 hp with hp | hp
      · exact hmarks p hp
      · exact (hafter p (hsub p hp)).2
    · rw [lastMeant_append, lastMeant_eq_none.2 (fun p hp => hk p (hsub p hp)), Option.none_or, hrest]
  · exact ⟨hmarks, rfl⟩

theorem stored_of_storable {k : Key} (hk : k.isText) {value : CStr} (hnl : newline ∉ value) (h : Storable k value) :
    StoresValue k value := by
  intro file_path before after hbefore hended hafter hlast
  have hline : Ended (valueLine k value) := .inr (by rw [valueLine_eq, List.getLast?_concat])
  have hafterReg := hafter.regular
  obtain ⟨hmarks, hkept⟩ := readable_overrun hafterReg (lastMeant_of_no_line hafter hlast) h.no_marks
  have hfirst := h.lineOf_first hnl
  have hreg : Regular (piecesOf before ++ [(valueLine k value).take 509]) := hbefore.regular.append (regular_setting hfirst)
  have hread : readable (piecesOf (before ++ (valueLine k value ++ after)))
      = (piecesOf before ++ [(valueLine k value).take 509])
        ++ readable (piecesOf ((valueLine k value).drop 509) ++ piecesOf after) := by
    rw [piecesOf_append hended, piecesOf_append hline, piecesOf_valueLine k hnl, List.cons_append,
      ← List.singleton_append, ← List.append_assoc]
    exact readable_append (fun p hp => (hreg p hp).1) _
  rw [readConfig_eq, runPieces_eq, hread]
  have hno : ¬ ∃ l ∈ (piecesOf before ++ [(valueLine k value).take 509])
      ++ readable (piecesOf ((valueLine k value).drop 509) ++ piecesOf after), lineOf l = .marks := by
    rintro ⟨l, hl, e⟩
    rcases List.mem_append.1 hl with hl | hl
    · exact (hreg l hl).2 e
    · exact hmarks l hl e
  rw [if_neg hno, ok_bind]
  refine ⟨_, _, rfl, ?_⟩
  rw [if_neg h.not_blank, get_foldl, lastMeant_append, hkept]
  have hset : meant k ((valueLine k value).take 509) = some (.text (some (unmarked value))) := by
    rw [meant, hfirst]
    simp [k.read_text hk]
  cases ho : lastMeant k (readable (piecesOf ((valueLine k value).drop 509))) with
  | some v => simp [h.not_reset v ho]
  | none => simp [lastMeant, hset]

/-- **When the line of a text-valued key stores the text before its mark**, whatever well-formed lines stand around
it. -/
theorem storesValue_iff (k : Key) (hk : k.isText) (value : CStr) (hnl : newline ∉ value) :
    StoresValue k value ↔ Storable k value :=
  ⟨storable_of_stored hk hnl, stored_of_storable hk hnl⟩

/-- The inline comment of a short line is dropped. -/
theorem storesValue_inline_comment : StoresValue .format (cstr "rdf*inline") :=
  (storesValue_iff .format rfl (cstr "rdf*inline") (by decide)).2
    ⟨by decide, by decide, by decide, by decide, fun v h => absurd h (by
      rw [show overrun .format (cstr "rdf*inline") = [] by decide]; nofun)⟩

/-- A value with an `=` of its own is cut there. -/
theorem value_cut_at_equals : ¬ StoresValue .newGraphPath (cstr "/graph?run=1") :=
  fun h => ((storable_of_stored rfl (by decide) h).not_cut equals (by decide)).1 rfl

end Provio
