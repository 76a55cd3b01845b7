import Provio.Settings
/-!
# ConfigFile — what a well-formed configuration file sets

A line of a well-formed file is a comment or `KEY=VALUE` in plain text, short enough for the parser's buffer.  Such a
file is read to its end, and every field holds what the last line of its key says (`readConfig_wellFormed`).
-/
namespace Provio

/-- Printable ASCII, neither `=` nor `*`. -/
def Plain (c : UInt8) : Prop := 32 ≤ c ∧ c ≤ 126 ∧ c ≠ equals ∧ c ≠ star

instance : DecidablePred Plain := fun c => inferInstanceAs (Decidable (32 ≤ c ∧ c ≤ 126 ∧ c ≠ equals ∧ c ≠ star))

def linesOf (file : CStr) : List CStr := Lines.lines newline file

def content (l : CStr) : CStr := if l.getLast? = some newline then l.dropLast else l

def isComment (l : CStr) : Bool := l.head? = some star

/-- The line is `key=val` in plain text. -/
structure IsSetting (l key val : CStr) : Prop where
  text      : content l = key ++ equals :: val
  key_ne    : key ≠ []
  val_ne    : val ≠ []
  key_plain : ∀ c ∈ key, Plain c
  val_plain : ∀ c ∈ val, Plain c
  short     : (content l).length ≤ 508

def WellFormedLine (l : CStr) : Prop := (isComment l ∧ (content l).length ≤ 508) ∨ ∃ key val, IsSetting l key val

def WellFormed (file : CStr) : Prop := ∀ l ∈ linesOf file, WellFormedLine l

/-- The key and the value of a line that is no comment, cut at its first `=`. -/
def settingOf (l : CStr) : Option (CStr × CStr) :=
  if isComment l then none
  else some ((content l).takeWhile (· ≠ equals), ((content l).dropWhile (· ≠ equals)).drop 1)

def lastValue (file key : CStr) : Option CStr :=
  ((((linesOf file).filterMap settingOf).filter (fun s => s.1 = key)).getLast?).map (·.2)

/-! ## A well-formed line is one piece -/

theorem content_cases (l : CStr) : l = content l ∨ l = content l ++ [newline] := by
  unfold content
  split
  · rename_i h
    have hne : l ≠ [] := by rintro rfl; cases h
    rw [List.getLast?_eq_some_getLast hne] at h
    right
    conv => lhs; rw [← List.dropLast_append_getLast hne, Option.some.inj h]
  · exact .inl rfl

theorem length_le_of_short {l : CStr} (h : (content l).length ≤ 508) : l.length ≤ 509 := by
  rcases content_cases l with e | e
  · rw [← e] at h; omega
  · have := congrArg List.length e
    simp only [List.length_append, List.length_singleton] at this
    omega

theorem WellFormedLine.short {l : CStr} (h : WellFormedLine l) : l.length ≤ 509 := by
  rcases h with ⟨-, h⟩ | ⟨key, val, h⟩
  · exact length_le_of_short h
  · exact length_le_of_short h.short

theorem piecesOf_eq_flatMap (file : CStr) : piecesOf file = (linesOf file).flatMap piecesOf :=
  Lines.pieces_eq_flatMap newline (by decide) file

theorem piecesOf_short {l : CStr} (hl : Lines.IsLine newline l) (h : l.length ≤ 509) : piecesOf l = [l] :=
  Lines.pieces_of_fits newline (by decide) hl h

theorem isLine_of_mem_linesOf {file l : CStr} (h : l ∈ linesOf file) : Lines.IsLine newline l :=
  Lines.isLine_of_mem_lines newline file l h

theorem piecesOf_of_short {file : CStr} (h : ∀ l ∈ linesOf file, l.length ≤ 509) : piecesOf file = linesOf file := by
  rw [piecesOf_eq_flatMap]
  have key : ∀ ls : List CStr, (∀ l ∈ ls, piecesOf l = [l]) → ls.flatMap piecesOf = ls := by
    intro ls hls
    induction ls with
    | nil => rfl
    | cons l ls ih =>
      rw [List.flatMap_cons, hls l List.mem_cons_self, ih (fun m hm => hls m (List.mem_cons_of_mem l hm))]
      rfl
  exact key _ (fun l hl => piecesOf_short (isLine_of_mem_linesOf hl) (h l hl))

/-! ## What the parser finds on it -/

theorem Plain.ne_zero {c : UInt8} (h : Plain c) : c ≠ 0 := by
  rintro rfl
  exact absurd h.1 (by decide)

theorem Plain.not_delim {c : UInt8} (h : Plain c) : CFG_DELIMS c = false := by
  have hnl : c ≠ newline := by
    rintro rfl
    exact absurd h.1 (by decide)
  simp [CFG_DELIMS, h.2.2.1, hnl]

theorem lineOf_comment {l : CStr} (h : isComment l) : lineOf l = .comment := by
  cases l with
  | nil => cases h
  | cons c l =>
    obtain rfl : c = star := by simpa [isComment] using h
    simp [lineOf, show star ≠ 0 by decide]

/-- Where a value ends: at a NUL, a delimiter or a mark. -/
def EndsValue (t : CStr) : Prop := ∀ d ∈ t.head?, d = 0 ∨ CFG_DELIMS d = true ∨ d = star

/-- **A key, the first `=` and a value without delimiters are parsed as they stand**, whatever follows the value. -/
theorem lineOf_setting {key val t : CStr} (hkey : key ≠ []) (hval : val ≠ []) (hstar : key.head? ≠ some star)
    (hk : ∀ c ∈ key, c ≠ 0 ∧ CFG_DELIMS c = false) (hv : ∀ c ∈ val, c ≠ 0 ∧ CFG_DELIMS c = false ∧ c ≠ star)
    (ht : EndsValue t) : lineOf (key ++ equals :: (val ++ t)) = .setting key val := by
  have hnul : (key ++ equals :: (val ++ t)).takeWhile (· ≠ 0) = key ++ equals :: (val ++ t.takeWhile (· ≠ 0)) := by
    rw [List.takeWhile_append_of_pos (by simpa using fun c hc => (hk c hc).1), List.takeWhile_cons_of_pos (by decide),
      List.takeWhile_append_of_pos (by simpa using fun c hc => (hv c hc).1)]
  have hhead : (key ++ equals :: (val ++ t.takeWhile (· ≠ 0))).head? ≠ some star := by
    rwa [List.head?_append_of_ne_nil _ hkey]
  have hkeyTok : Lines.token CFG_DELIMS (key ++ equals :: (val ++ t.takeWhile (· ≠ 0)))
      = some (key, val ++ t.takeWhile (· ≠ 0)) :=
    Lines.token_of_ended_run CFG_DELIMS hkey (fun c hc => (hk c hc).2) _ (by rintro d ⟨⟩; rfl)
  have hvalTok := Lines.token_of_run CFG_DELIMS hval (fun c hc => (hv c hc).2.1) (t.takeWhile (· ≠ 0))
  have hmark : Lines.token (· = star) (val ++ (t.takeWhile (· ≠ 0)).takeWhile (!CFG_DELIMS ·))
      = some (val, ((t.takeWhile (· ≠ 0)).takeWhile (!CFG_DELIMS ·)).drop 1) :=
    Lines.token_of_ended_run _ hval (fun c hc => by simpa using (hv c hc).2.2) _ (by
      intro d hd
      cases t with
      | nil => cases hd
      | cons e t =>
        rcases ht e rfl with rfl | he | rfl
        · cases hd
        · by_cases h0 : e = 0
          · simp [h0] at hd
          · simp [h0, he] at hd
        · obtain rfl : star = d := by simpa [show star ≠ 0 by decide, show CFG_DELIMS star = false by decide] using hd
          rfl)
  rw [lineOf_eq_setting, hnul]
  exact ⟨hhead, _, _, _, _, hkeyTok, hvalTok, hmark⟩

theorem IsSetting.lineOf {l key val : CStr} (h : IsSetting l key val) : lineOf l = .setting key val := by
  have hl : ∃ tl : CStr, (tl = [] ∨ tl = [newline]) ∧ l = key ++ equals :: (val ++ tl) := by
    rcases content_cases l with e | e
    · exact ⟨[], .inl rfl, by rw [e, h.text]; simp⟩
    · exact ⟨[newline], .inr rfl, by rw [e, h.text]; simp⟩
  obtain ⟨tl, htl, rfl⟩ := hl
  have hstar : key.head? ≠ some star := fun e => (h.key_plain star (List.mem_of_head? e)).2.2.2 rfl
  refine lineOf_setting h.key_ne h.val_ne hstar (fun c hc => ⟨(h.key_plain c hc).ne_zero, (h.key_plain c hc).not_delim⟩)
    (fun c hc => ⟨(h.val_plain c hc).ne_zero, (h.val_plain c hc).not_delim, (h.val_plain c hc).2.2.2⟩) ?_
  rcases htl with rfl | rfl
  · exact nofun
  · rintro d ⟨⟩
    exact .inr (.inl rfl)

theorem IsSetting.not_comment {l key val : CStr} (h : IsSetting l key val) : isComment l = false := by
  have hl := h.lineOf
  cases hc : isComment l with
  | false => rfl
  | true => rw [lineOf_comment hc] at hl; cases hl

theorem IsSetting.settingOf {l key val : CStr} (h : IsSetting l key val) : settingOf l = some (key, val) := by
  have hk : ∀ c ∈ key, decide (c ≠ equals) = true := fun c hc => by simpa using (h.key_plain c hc).2.2.1
  unfold Provio.settingOf
  rw [if_neg (by simp [h.not_comment]), h.text, List.takeWhile_append_of_pos hk, List.dropWhile_append_of_pos hk]
  simp

theorem toInt8_pos : ∀ b : BitVec 8, 32#8 ≤ b → b ≤ 126#8 → 0 < (UInt8.ofBitVec b).toInt8 := by decide

theorem Key.read_plain (k : Key) {val : CStr} (hne : val ≠ []) (h : ∀ c ∈ val, Plain c) : (k.read val).isSome := by
  obtain ⟨c, t, rfl⟩ := List.exists_cons_of_ne_nil hne
  have hc := h c List.mem_cons_self
  cases k <;> try rfl
  have hpos : 0 < c.toInt8 := toInt8_pos c.toBitVec hc.1 hc.2.1
  simp [Key.read, hpos]

theorem meant_wellFormed (k : Key) {l : CStr} (h : WellFormedLine l) :
    (meant k l).map some = ((settingOf l).filter (fun s => s.1 = k.text)).map (fun s => k.read s.2) := by
  rcases h with ⟨hc, -⟩ | ⟨key, val, h⟩
  · simp [meant, lineOf_comment hc, settingOf, hc]
  · rw [meant, h.lineOf, h.settingOf]
    by_cases hk : key = k.text
    · obtain ⟨v, hv⟩ := Option.isSome_iff_exists.1 (k.read_plain h.val_ne h.val_plain)
      simp [hk, hv]
    · simp [hk]

theorem lastMeant_wellFormed {file : CStr} (h : WellFormed file) (k : Key) :
    (lastMeant k (linesOf file)).map some = (lastValue file k.text).map k.read := by
  have key : ∀ ls : List CStr, (∀ l ∈ ls, WellFormedLine l) → (ls.filterMap (meant k)).map some
      = ((ls.filterMap settingOf).filter (fun s => s.1 = k.text)).map (fun s => k.read s.2) := by
    intro ls hls
    induction ls with
    | nil => rfl
    | cons l ls ih =>
      have hl := meant_wellFormed k (hls l List.mem_cons_self)
      have ih := ih (fun m hm => hls m (List.mem_cons_of_mem l hm))
      rw [List.filterMap_cons, List.filterMap_cons]
      cases hm : meant k l with
      | none =>
        cases hs : settingOf l with
        | none => simpa using ih
        | some s =>
          rw [hm, hs, Option.filter_some] at hl
          by_cases hk : s.1 = k.text
          · simp [hk] at hl
          · simpa [hk] using ih
      | some v =>
        cases hs : settingOf l with
        | none => simp [hm, hs] at hl
        | some s =>
          rw [hm, hs, Option.filter_some] at hl
          by_cases hk : s.1 = k.text
          · have hv : k.read s.2 = some v := by simpa [hk, eq_comm] using hl
            simpa [hk, hv] using ih
          · simp [hk] at hl
  rw [lastMeant, lastValue, ← List.getLast?_map, key _ h, List.getLast?_map, Option.map_map]
  rfl

theorem WellFormed.regular {file : CStr} (h : WellFormed file) : Regular (piecesOf file) := by
  rw [piecesOf_of_short (fun l hl => (h l hl).short)]
  intro l hl
  rcases h l hl with ⟨hc, -⟩ | ⟨key, val, hs⟩
  · rw [lineOf_comment hc]; decide
  · rw [hs.lineOf]; exact ⟨nofun, nofun⟩

/-- **A well-formed file is read to its end**, each of its lines applied. -/
theorem readConfig_of_wellFormed {file : CStr} (h : WellFormed file) (file_path : CStr) :
    readConfig file_path (some file)
      = .ok (0, ⟨(linesOf file).foldl assignPiece (startParse file_path).config, []⟩) := by
  rw [readConfig_eq, h.regular.runPieces, piecesOf_of_short (fun l hl => (h l hl).short)]
  rfl

/-- **A well-formed file sets what the last line of each key says, and nothing else**: `read_config` returns 0, the
field of a key that has a line holds that value, every other field its default, and two files that agree on the last
lines of the keys give one result. -/
theorem readConfig_wellFormed (file_path file : CStr) (h : WellFormed file) :
    (∃ c, readConfig file_path (some file) = .ok (0, ⟨c, []⟩) ∧
      ∀ k : Key, match lastValue file k.text with
        | some val => k.read val = some (c.get k)
        | none     => c.get k = (startParse file_path).config.get k) ∧
    ∀ file', WellFormed file' → (∀ k : Key, lastValue file' k.text = lastValue file k.text) →
      readConfig file_path (some file') = readConfig file_path (some file) := by
  have hget : ∀ {file : CStr}, WellFormed file → ∀ k : Key,
      match lastValue file k.text with
      | some val => k.read val = some (((linesOf file).foldl assignPiece (startParse file_path).config).get k)
      | none => ((linesOf file).foldl assignPiece (startParse file_path).config).get k
          = (startParse file_path).config.get k := by
    intro file h k
    have hk := lastMeant_wellFormed h k
    rw [get_foldl]
    cases hv : lastValue file k.text with
    | none =>
      rw [hv, Option.map_none, Option.map_eq_none_iff] at hk
      simp [hk]
    | some val =>
      rw [hv] at hk
      obtain ⟨v, hm, hr⟩ := Option.map_eq_some_iff.1 hk
      simp [hm, ← hr]
  refine ⟨⟨_, readConfig_of_wellFormed h file_path, hget h⟩, fun file' h' hsame => ?_⟩
  rw [readConfig_of_wellFormed h, readConfig_of_wellFormed h']
  have heq : (linesOf file').foldl assignPiece (startParse file_path).config
      = (linesOf file).foldl assignPiece (startParse file_path).config := by
    refine ParsedConfig.ext_get (fun k => ?_)
    have h1 := hget h k
    have h2 := hget h' k
    rw [hsame k] at h2
    cases hv : lastValue file k.text with
    | none => simp only [hv] at h1 h2; rw [h1, h2]
    | some val => simp only [hv] at h1 h2; exact Option.some.inj (h2.symm.trans h1)
  rw [heq]

theorem wellFormedLine_of {l : CStr} (key val : CStr) (h : content l = key ++ equals :: val ∧ key ≠ [] ∧ val ≠ [] ∧
    (∀ c ∈ key, Plain c) ∧ (∀ c ∈ val, Plain c) ∧ (content l).length ≤ 508) : WellFormedLine l :=
  .inr ⟨key, val, h.1, h.2.1, h.2.2.1, h.2.2.2.1, h.2.2.2.2.1, h.2.2.2.2.2⟩

def formatFile : CStr := cstr "*graph\nFORMAT=csv\nFORMAT=rdf\n"

theorem formatFile_wellFormed : WellFormed formatFile := by
  rw [WellFormed, show linesOf formatFile = [cstr "*graph\n", cstr "FORMAT=csv\n", cstr "FORMAT=rdf\n"] by decide]
  intro l hl
  simp only [List.mem_cons, List.not_mem_nil, or_false] at hl
  rcases hl with rfl | rfl | rfl
  · exact .inl ⟨rfl, by decide⟩
  · exact wellFormedLine_of (cstr "FORMAT") (cstr "csv") (by decide)
  · exact wellFormedLine_of (cstr "FORMAT") (cstr "rdf") (by decide)

/-- The last of the two formats is the one set. -/
theorem readConfig_formatFile : ∃ c, readConfig (cstr "/p.cfg") (some formatFile) = .ok (0, ⟨c, []⟩) ∧
    c.get .format = .text (some (cstr "rdf")) := by
  obtain ⟨⟨c, hc, hget⟩, -⟩ := readConfig_wellFormed (cstr "/p.cfg") formatFile formatFile_wellFormed
  have h := hget .format
  rw [show lastValue formatFile (Key.text .format) = some (cstr "rdf") by decide] at h
  exact ⟨c, hc, (Option.some.inj h).symm⟩

end Provio
