import Provio.ConfigValues
/-!
# ConfigComments — comment lines and the buffer

A comment is recognised piece by piece, so a comment line longer than the buffer is parsed as settings from its 510th
byte on.  Comments of a kind make no difference, wherever they are put in, taken out or changed, exactly when each of
them is neutral piece by piece (`comments_ignored_iff`); one that fits the buffer always is (`neutral_of_short`).
-/
namespace Provio

def SameButComments (s t : CStr) : Prop :=
  (linesOf s).filter (fun l => !isComment l) = (linesOf t).filter (fun l => !isComment l)

def commentsOf (file : CStr) : List CStr := (linesOf file).filter isComment

/-- Each piece lets the parse go on and says nothing about any key. -/
def Neutral (l : CStr) : Prop :=
  ∀ p ∈ piecesOf l, lineOf p ≠ .irregular ∧ lineOf p ≠ .marks ∧ ∀ k, meant k p = none

theorem neutral_of_short {l : CStr} (hl : Lines.IsLine newline l) (hc : isComment l) (h : l.length ≤ 509) : Neutral l := by
  intro p hp
  rw [piecesOf_short hl h] at hp
  rw [List.mem_singleton.1 hp]
  refine ⟨?_, ?_, fun k => ?_⟩
  · rw [lineOf_comment hc]; nofun
  · rw [lineOf_comment hc]; nofun
  · rw [meant, lineOf_comment hc]

theorem Neutral.regular {l : CStr} (h : Neutral l) : Regular (piecesOf l) := fun p hp => ⟨(h p hp).1, (h p hp).2.1⟩

theorem runPieces_congr {b b' : List CStr} (h : ∀ c, runPieces c b = runPieces c b') :
    ∀ (a : List CStr) (c : ParsedConfig), runPieces c (a ++ b) = runPieces c (a ++ b')
  | [], c => h c
  | l :: a, c => by
    rw [List.cons_append, List.cons_append, runPieces, runPieces]
    cases lineOf l with
    | comment => exact runPieces_congr h a c
    | irregular => rfl
    | marks => rfl
    | setting key val => exact runPieces_congr h a _

theorem Neutral.runPieces {l : CStr} (h : Neutral l) (b : List CStr) (c : ParsedConfig) :
    runPieces c (piecesOf l ++ b) = runPieces c b := by
  have hsame : (piecesOf l).foldl assignPiece c = c := by
    refine ParsedConfig.ext_get (fun k => ?_)
    rw [get_foldl, lastMeant_eq_none.2 (fun p hp => (h p hp).2.2 k)]
    rfl
  rw [h.regular.runPieces_append, hsame]

/-- **Neutral comments drop out of a run.** -/
theorem runPieces_noncomments : ∀ (ls : List CStr), (∀ l ∈ ls, isComment l → Neutral l) → ∀ c : ParsedConfig,
    runPieces c (ls.flatMap piecesOf) = runPieces c ((ls.filter (fun l => !isComment l)).flatMap piecesOf)
  | [], _, _ => rfl
  | l :: ls, h, c => by
    have ih := runPieces_noncomments ls (fun m hm => h m (List.mem_cons_of_mem l hm))
    rw [List.flatMap_cons]
    cases hc : isComment l with
    | true =>
      rw [(h l List.mem_cons_self hc).runPieces, ih, List.filter_cons_of_neg (by simp [hc])]
    | false =>
      rw [List.filter_cons_of_pos (by simp [hc]), List.flatMap_cons]
      exact runPieces_congr ih _ c

theorem readConfig_noncomments (path file : CStr) (h : ∀ l ∈ commentsOf file, Neutral l) :
    readConfig path (some file)
      = runPieces (startParse path).config (((linesOf file).filter (fun l => !isComment l)).flatMap piecesOf)
        >>= fun r => .ok (r.1, ⟨r.2, []⟩) := by
  have h' : ∀ l ∈ linesOf file, isComment l → Neutral l := fun l hl hc => h l (List.mem_filter.2 ⟨hl, hc⟩)
  rw [readConfig_eq, piecesOf_eq_flatMap, runPieces_noncomments _ h']

/-! ## A comment that is not neutral makes a difference somewhere -/

theorem Key.two_values (k : Key) : k.read (cstr "T") ≠ k.read (cstr "1") := by cases k <;> decide

theorem Key.exists_read_ne (k : Key) (v : Value) : ∃ val, (val = cstr "T" ∨ val = cstr "1") ∧ k.read val ≠ some v := by
  by_cases h : k.read (cstr "T") = some v
  · exact ⟨cstr "1", .inr rfl, fun e => k.two_values (h.trans e.symm)⟩
  · exact ⟨cstr "T", .inl rfl, h⟩

theorem lineOf_valueLine (k : Key) {val : CStr} (h : val = cstr "T" ∨ val = cstr "1") :
    piecesOf (valueLine k val) = [valueLine k val] ∧ lineOf (valueLine k val) = .setting k.text val ∧
      isComment (valueLine k val) = false ∧ newline ∉ val := by
  rcases h with rfl | rfl <;> cases k <;> decide

theorem readConfig_inj {path file : CStr} {r : Int × ParsedConfig}
    (h : readConfig path (some file) = .ok (r.1, ⟨r.2, []⟩)) : runPieces (startParse path).config (piecesOf file) = .ok r := by
  rw [readConfig_eq] at h
  cases hr : runPieces (startParse path).config (piecesOf file) with
  | error f => rw [hr] at h; cases h
  | ok r' =>
    rw [hr, ok_bind] at h
    have h' := Except.ok.inj h
    simp only [Prod.mk.injEq, Parse.mk.injEq] at h'
    exact congrArg Except.ok (Prod.ext h'.1 h'.2.1)

/-- Comments of a kind make no difference to `read_config`. -/
def Ignored (S : CStr → Prop) : Prop :=
  ∀ path s t, SameButComments s t → (∀ l ∈ commentsOf s ++ commentsOf t, S l) →
    readConfig path (some s) = readConfig path (some t)

section Ignored

variable {S : CStr → Prop} {l : CStr}

/-- **An ignored comment can follow any ended lines.** -/
theorem Ignored.after (h : Ignored S) (hl : Lines.IsLine newline l) (hc : isComment l) (hS : S l) {before : CStr}
    (hended : Ended before) (hbefore : ∀ m ∈ linesOf before, isComment m = false) (path : CStr) :
    readConfig path (some (before ++ l)) = readConfig path (some before) := by
  have hlines : linesOf (before ++ l) = linesOf before ++ [l] := by
    rw [linesOf, Lines.lines_append newline l _ hended, Lines.lines_of_isLine newline hl]
    rfl
  have hnone : commentsOf before = [] := by
    rw [commentsOf, List.filter_eq_nil_iff]
    exact fun m hm e => absurd e (by simp [hbefore m hm])
  have hone : commentsOf (before ++ l) = [l] := by
    rw [commentsOf, hlines, List.filter_append, ← commentsOf, hnone, List.filter_cons_of_pos hc]
    rfl
  refine h path _ _ ?_ ?_
  · rw [SameButComments, hlines, List.filter_append, List.filter_cons_of_neg (by simp [hc])]
    exact List.append_nil _
  · rw [hone, hnone]
    intro m hm
    rwa [List.mem_singleton.1 hm]

theorem Ignored.regular (h : Ignored S) (hl : Lines.IsLine newline l) (hc : isComment l) (hS : S l) :
    Regular (piecesOf l) :=
  regular_of_runPieces (readConfig_inj (r := (0, _)) (h.after hl hc hS (.inl rfl) (by exact nofun) []))

theorem Ignored.silent (h : Ignored S) (hl : Lines.IsLine newline l) (hc : isComment l) (hS : S l) (k : Key) :
    lastMeant k (piecesOf l) = none := by
  cases hv : lastMeant k (piecesOf l) with
  | none => rfl
  | some v =>
    exfalso
    obtain ⟨val, hval, hne⟩ := k.exists_read_ne v
    obtain ⟨hpieces, hline, hcomment, hnl⟩ := lineOf_valueLine k hval
    have hended : Ended (valueLine k val) := .inr (by rw [valueLine_eq, List.getLast?_concat])
    have hvl : linesOf (valueLine k val) = [valueLine k val] :=
      Lines.lines_of_isLine newline (valueLine_isLine k hnl)
    have hregVal := regular_setting hline
    have hregBoth := hregVal.append (h.regular hl hc hS)
    have heq := h.after hl hc hS hended (by rw [hvl]; simpa using hcomment) []
    rw [readConfig_eq, readConfig_eq, piecesOf_append hended, hpieces, hregBoth.runPieces, hregVal.runPieces, ok_bind,
      ok_bind] at heq
    have hget := congrArg (fun r : Int × Parse => r.2.config.get k) (Except.ok.inj heq)
    have hplain : val ≠ [] ∧ ∀ c ∈ val, Plain c := by rcases hval with rfl | rfl <;> decide
    obtain ⟨w, hw⟩ := Option.isSome_iff_exists.1 (k.read_plain hplain.1 hplain.2)
    have hmeant : lastMeant k [valueLine k val] = some w := by simp [lastMeant, meant, hline, hw]
    simp only [get_foldl, lastMeant_append, hv, hmeant, Option.some_or, Option.getD_some] at hget
    exact hne (by rw [hw, hget])

theorem Ignored.neutral (h : Ignored S) (hl : Lines.IsLine newline l) (hc : isComment l) (hS : S l) : Neutral l :=
  fun p hp => ⟨(h.regular hl hc hS p hp).1, (h.regular hl hc hS p hp).2,
    fun k => lastMeant_eq_none.1 (h.silent hl hc hS k) p hp⟩

end Ignored

/-- **When comments make no difference**: comments of a kind can be put in, taken out and changed anywhere in any file
exactly when each of them is neutral. -/
theorem comments_ignored_iff (S : CStr → Prop) :
    Ignored S ↔ ∀ l, Lines.IsLine newline l → isComment l → S l → Neutral l := by
  constructor
  · exact fun h l hl hc hS => h.neutral hl hc hS
  · intro h path s t hsame hS
    have hneutral : ∀ file, (∀ l ∈ commentsOf file, S l) → ∀ l ∈ commentsOf file, Neutral l := by
      intro file hfile l hl
      obtain ⟨hmem, hc⟩ := List.mem_filter.1 hl
      exact h l (isLine_of_mem_linesOf hmem) hc (hfile l hl)
    rw [readConfig_noncomments path s (hneutral s (fun l hl => hS l (List.mem_append_left _ hl))),
      readConfig_noncomments path t (hneutral t (fun l hl => hS l (List.mem_append_right _ hl))), hsame]

/-- A comment whose 510th byte starts a setting. -/
def longComment : CStr := star :: List.replicate 508 120 ++ cstr "ENABLE_BDB=T\n"

/-- The long comment switches a flag on, which the empty file leaves off. -/
theorem long_comment_sets : SameButComments longComment [] ∧
    readConfig (cstr "/p.cfg") (some longComment) ≠ readConfig (cstr "/p.cfg") (some []) := by
  have hnl : newline ∉ star :: List.replicate 508 120 ++ cstr "ENABLE_BDB=T" := by
    rw [List.mem_append, List.mem_cons, List.mem_replicate]
    decide
  have hline : Lines.IsLine newline longComment := by
    have e : longComment = (star :: List.replicate 508 120 ++ cstr "ENABLE_BDB=T") ++ [newline] := by
      rw [List.append_assoc]; rfl
    rw [e]
    exact ⟨fun h => absurd (List.append_eq_nil_iff.1 h).2 (by decide), by rwa [List.dropLast_concat]⟩
  have hfirst : (star :: List.replicate 508 120 : CStr).length = 509 := by
    rw [List.length_cons, List.length_replicate]
  have hpieces : piecesOf longComment = [star :: List.replicate 508 120, cstr "ENABLE_BDB=T\n"] := by
    have hpiece : Lines.piece newline (CFG_LINE_LEN_MAX - 1) longComment
        = (star :: List.replicate 508 120, cstr "ENABLE_BDB=T\n") := by
      rw [Lines.piece_of_isLine newline _ hline]
      exact congrArg₂ Prod.mk (List.take_left' hfirst) (List.drop_left' hfirst)
    rw [piecesOf, Lines.pieces_of_piece newline (by decide) hline.1 hpiece]
    exact congrArg _ (show piecesOf (cstr "ENABLE_BDB=T\n") = [cstr "ENABLE_BDB=T\n"] by decide)
  constructor
  · rw [SameButComments, show linesOf longComment = [longComment] from Lines.lines_of_isLine newline hline]
    rfl
  · rw [readConfig_eq, readConfig_eq, hpieces, runPieces, lineOf_comment rfl]
    decide

end Provio
