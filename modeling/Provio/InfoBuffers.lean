import Provio.Blocks
import Provio.InfoStr
/-!
# InfoBuffers — the buffers that decoding the connector string fills

`H5VL_provenance_str_to_info` copies the text between the braces into a block of its own and gives what is left from the
last `}` to `provenance_file_setup`, which has 100 bytes, four pointers and two times 64 bytes for it.  The copy ends
one byte past its block whatever the text (`not_handsOver`); the setup stays inside its buffers exactly on texts that
fit them (`setup_stays_inside_iff`).
-/
namespace Provio

open Blocks (Heap Ptr Stray)

/-! ## The text between the braces -/

/-- What `H5VLconnector_str_to_info` is handed: nothing for `{}`, else a copy of the text between the braces. -/
def underVolInfoStr (h : Heap UInt8) (under_vol_info_start under_vol_info_end : CStr) :
    Except Stray (Heap UInt8 × Ptr) :=
  let between := under_vol_info_start.length - under_vol_info_end.length
  if between = 1 then .ok (h, none)
  else
    let (h, under_vol_info_str) := h.malloc between
    do
    let h ← h.write under_vol_info_str 0 ((under_vol_info_start.drop 1).take (between - 1))
    let h ← h.write under_vol_info_str between [0]
    pure (h, under_vol_info_str)

/-- The connector is handed exactly this text, read and written inside the block. -/
def HandsOver (str text : CStr) : Prop :=
  ∃ under_vol_info_start under_vol_info_end, strchr openBrace str = some under_vol_info_start ∧
    strrchr closeBrace str = some under_vol_info_end ∧
    ∀ h, ∃ h' p, underVolInfoStr h under_vol_info_start under_vol_info_end = .ok (h', p) ∧ h'.string 0 p = .ok text

/-- A connector string up to its `}`, and the rest of it. -/
def connectorString (under_vol under_info rest : CStr) : CStr :=
  cstr "under_vol=" ++ under_vol ++ cstr ";under_info=" ++ openBrace :: (under_info ++ closeBrace :: rest)

/-- **The terminator of a copied text is put one byte past its block.** -/
theorem underVolInfoStr_outside (h : Heap UInt8) {a b : CStr} (hab : b.length + 1 < a.length) :
    underVolInfoStr h a b = .error .outside := by
  have hbetween : ¬ a.length - b.length = 1 := by omega
  have hlen : ((a.drop 1).take (a.length - b.length - 1)).length = a.length - b.length - 1 := by
    rw [List.length_take, List.length_drop]
    omega
  obtain ⟨h', hw, hcells, -⟩ := Blocks.write_eq (Blocks.cells_malloc h (a.length - b.length)) 0
    ((a.drop 1).take (a.length - b.length - 1)) (by rw [hlen, List.length_replicate]; omega)
  have hsize : (List.take 0 (List.replicate (a.length - b.length) none)
      ++ ((a.drop 1).take (a.length - b.length - 1)).map some
      ++ List.drop (0 + ((a.drop 1).take (a.length - b.length - 1)).length)
        (List.replicate (a.length - b.length) (none : Option UInt8))).length = a.length - b.length := by
    simp only [List.length_append, List.length_take, List.length_map, List.length_drop, List.length_replicate]
    omega
  rw [underVolInfoStr, if_neg hbetween]
  dsimp only
  rw [hw, ok_bind, Blocks.write_outside hcells (by rw [hsize]; simp)]
  rfl

/-- **Before that the block holds the text and one byte never set**, so no string of the text could be read from it. -/
theorem under_info_unset (h : Heap UInt8) {text b : CStr} (c : UInt8) :
    ∃ h', (h.malloc (text.length + 1)).1.write (h.malloc (text.length + 1)).2 0
        (((c :: (text ++ b)).drop 1).take text.length) = .ok h' ∧
      h'.string 0 (h.malloc (text.length + 1)).2 ≠ .ok text := by
  have htake : ((c :: (text ++ b)).drop 1).take text.length = text := by simp
  rw [htake]
  obtain ⟨h', hw, hcells, -⟩ := Blocks.write_eq (Blocks.cells_malloc h (text.length + 1)) 0 text (by simp)
  refine ⟨h', hw, ?_⟩
  rw [Blocks.string_of_cells 0 hcells]
  have hcell : List.take 0 (List.replicate (text.length + 1) none) ++ text.map some
      ++ List.drop (0 + text.length) (List.replicate (text.length + 1) (none : Option UInt8)) = text.map some ++ [none] := by
    simp
  rw [hcell]
  exact Blocks.upTo_unset 0 [] text

theorem strToInfo_outside {Id U : Type} (vol : Vol Id U) (uninit : BitVec 32) {str a b : CStr}
    (ha : strchr openBrace str = some a) (hb : strrchr closeBrace str = some b) (h : Heap UInt8)
    (hout : underVolInfoStr h a b = .error .outside) (hlt : b.length < a.length) :
    strToInfo vol uninit str = .error .bounds := by
  have hne : b.length + 1 ≠ a.length := by
    intro e
    have hone : a.length - b.length = 1 := by omega
    rw [underVolInfoStr, if_pos hone] at hout
    cases hout
  have hassert : cAssert (decide (b.length < a.length)) = .ok () := by simp [hlt]
  rw [strToInfo, ha, hb]
  dsimp only
  rw [hassert, ok_bind, if_pos hne]

/-- **The first `{` is no later than the one before the underlying info.** -/
theorem strchr_connectorString (n u rest : CStr) :
    ∃ a, strchr openBrace (connectorString n u rest) = some a ∧ u.length + rest.length + 2 ≤ a.length := by
  have hsplit : ∀ p s : CStr, ∃ a, strchr openBrace (p ++ openBrace :: s) = some a ∧ s.length + 1 ≤ a.length := by
    intro p s
    by_cases hp : openBrace ∈ p
    · obtain ⟨x, y, rfl, hx⟩ := List.eq_append_cons_of_mem hp
      refine ⟨openBrace :: (y ++ openBrace :: s), ?_, ?_⟩
      · rw [List.append_assoc, List.cons_append, strchr_append hx]
      · simp only [List.length_cons, List.length_append]
        omega
    · exact ⟨openBrace :: s, strchr_append hp s, by simp⟩
  obtain ⟨a, ha, hlen⟩ := hsplit (cstr "under_vol=" ++ n ++ cstr ";under_info=") (u ++ closeBrace :: rest)
  refine ⟨a, ha, ?_⟩
  simp only [List.length_append, List.length_cons] at hlen
  omega

theorem strrchr_connectorString (n u : CStr) {rest : CStr} (hrest : closeBrace ∉ rest) :
    strrchr closeBrace (connectorString n u rest) = some (closeBrace :: rest) := by
  have h := strrchr_append hrest (cstr "under_vol=" ++ n ++ cstr ";under_info=" ++ openBrace :: u)
  rwa [List.append_assoc, List.cons_append] at h

/-- **No text but the empty one is handed over whole.** -/
theorem not_handsOver_of_lt {str text a b : CStr} (ha : strchr openBrace str = some a)
    (hb : strrchr closeBrace str = some b) (hab : b.length + 1 < a.length) : ¬ HandsOver str text := by
  rintro ⟨a', b', ha', hb', h⟩
  obtain rfl := Option.some.inj (ha.symm.trans ha')
  obtain rfl := Option.some.inj (hb.symm.trans hb')
  obtain ⟨h', p, hrun, -⟩ := h ⟨[]⟩
  rw [underVolInfoStr_outside _ hab] at hrun
  cases hrun

/-- **A non-empty underlying info is never handed over**, whatever stands before and after it. -/
theorem not_handsOver (under_vol under_info rest : CStr) (hinfo : under_info ≠ []) (hrest : closeBrace ∉ rest) :
    ¬ HandsOver (connectorString under_vol under_info rest) under_info := by
  obtain ⟨a, ha, hlen⟩ := strchr_connectorString under_vol under_info rest
  have hpos := List.length_pos_iff.2 hinfo
  apply not_handsOver_of_lt ha (strrchr_connectorString under_vol under_info hrest)
  rw [List.length_cons]
  omega

/-- A pass-through connector under another one. -/
theorem not_handsOver_nested : ¬ HandsOver (connectorString (cstr "707") (cstr "under_vol=0;under_info=\x7b\x7d")
    (cstr ";path=/t;level=2;format=")) (cstr "under_vol=0;under_info=\x7b\x7d") :=
  not_handsOver (cstr "707") (cstr "under_vol=0;under_info=\x7b\x7d") (cstr ";path=/t;level=2;format=") (by decide)
    (by decide)

/-- One byte between the braces is enough. -/
theorem handsOver_fails : ¬ ∀ under_vol under_info rest, under_info ≠ [] → closeBrace ∉ rest →
    HandsOver (connectorString under_vol under_info rest) under_info := by
  intro h
  have hx := h (cstr "0") (cstr "x") (cstr ";path=/t;level=2;format=") (by decide) (by decide)
  obtain ⟨a, ha, hlen⟩ := strchr_connectorString (cstr "0") (cstr "x") (cstr ";path=/t;level=2;format=")
  refine not_handsOver_of_lt ha (strrchr_connectorString (cstr "0") (cstr "x") (by decide)) ?_ hx
  simp only [List.length_cons] at hlen ⊢
  simp only [show (cstr "x").length = 1 from rfl] at hlen
  omega

/-! ## The path, the level and the format -/

/-- The call of `provenance_file_setup`: from the last `}` on. -/
def setupCall (str : CStr) : Except Fault (CStr × BitVec 32 × CStr) :=
  match strrchr closeBrace str with
  | none                    => .error .null
  | some under_vol_info_end => provenanceFileSetup under_vol_info_end

def semicolonPieces (t : CStr) : List CStr := (t.splitOnP (· = semicolon)).filter (!·.isEmpty)

/-- A text that the setup's buffers hold: 99 bytes, four pieces, and 63 bytes for each word read out of them. -/
structure SetupFits (t : CStr) : Prop where
  short  : t.length ≤ 99
  four   : (semicolonPieces t).length = 4
  path   : ∀ piece ∈ (semicolonPieces t)[1]?, ∀ word ∈ scanString (cstr "path=") piece, word.length ≤ 63
  format : ∀ piece ∈ (semicolonPieces t)[3]?, ∀ word ∈ scanString (cstr "format=") piece, word.length ≤ 63

theorem scanInto_eq_ok (lit s : CStr) :
    (∃ word, scanInto lit s = .ok word) ↔ ∀ word ∈ scanString lit s, word.length ≤ 63 := by
  unfold scanInto
  cases scanString lit s with
  | none => simp
  | some word =>
    simp only [Option.mem_def, Option.some.injEq, forall_eq']
    constructor
    · rintro ⟨w, h⟩
      split at h
      · omega
      · cases h
    · intro h
      exact ⟨word, if_pos (by omega)⟩

theorem tokAt_eq_ok (l : List CStr) (i : Nat) {s : CStr} : tokAt l i = .ok s ↔ l[i]? = some s := by
  unfold tokAt
  cases l[i]? <;> simp [strcpy]

/-- **The setup runs through exactly on the texts its buffers hold.** -/
theorem provenanceFileSetup_iff (t : CStr) : (∃ r, provenanceFileSetup t = .ok r) ↔ SetupFits t := by
  have htoks : Lines.tokens (· = semicolon) t = semicolonPieces t := Lines.tokens_eq_splitOnP semicolon t
  constructor
  · rintro ⟨r, h⟩
    obtain ⟨tmp, hprint, h⟩ := bind_eq_ok.1 h
    unfold sprintf at hprint
    split at hprint
    · rename_i hshort
      obtain rfl := Except.ok.inj hprint
      rw [htoks] at h
      dsimp only at h
      split at h
      · cases h
      · rename_i hfour
        obtain ⟨t1, h1, h⟩ := bind_eq_ok.1 h
        obtain ⟨p, hp, h⟩ := bind_eq_ok.1 h
        obtain ⟨t2, h2, h⟩ := bind_eq_ok.1 h
        obtain ⟨t3, h3, h⟩ := bind_eq_ok.1 h
        obtain ⟨f, hf, -⟩ := bind_eq_ok.1 h
        rw [tokAt_eq_ok] at h1 h3
        have hlt := (List.getElem?_eq_some_iff.1 h3).1
        refine ⟨by omega, by omega, fun piece hpiece => ?_, fun piece hpiece => ?_⟩
        · rw [Option.mem_def, h1, Option.some.injEq] at hpiece
          exact hpiece ▸ (scanInto_eq_ok _ _).1 ⟨p, hp⟩
        · rw [Option.mem_def, h3, Option.some.injEq] at hpiece
          exact hpiece ▸ (scanInto_eq_ok _ _).1 ⟨f, hf⟩
    · cases hprint
  · rintro ⟨hshort, hfour, hpath, hformat⟩
    have hat : ∀ i < 4, ∃ s, (semicolonPieces t)[i]? = some s := fun i hi => ⟨_, List.getElem?_eq_getElem (by omega)⟩
    obtain ⟨t1, h1⟩ := hat 1 (by omega)
    obtain ⟨t2, h2⟩ := hat 2 (by omega)
    obtain ⟨t3, h3⟩ := hat 3 (by omega)
    obtain ⟨p, hp⟩ := (scanInto_eq_ok (cstr "path=") t1).2 (hpath t1 h1)
    obtain ⟨f, hf⟩ := (scanInto_eq_ok (cstr "format=") t3).2 (hformat t3 h3)
    have hprint : sprintf 100 t = .ok t := if_pos (by omega)
    refine ⟨(p, (scanNumber strtol (cstr "level=") t2).getD 0, f), ?_⟩
    rw [provenanceFileSetup, hprint, ok_bind, htoks]
    dsimp only
    rw [if_neg (by omega), (tokAt_eq_ok _ 1).2 h1, ok_bind, hp, ok_bind, (tokAt_eq_ok _ 2).2 h2, ok_bind,
      (tokAt_eq_ok _ 3).2 h3, ok_bind, hf]
    rfl

theorem setupCall_of_strToInfo {Id U : Type} {vol : Vol Id U} {uninit : BitVec 32} {str : CStr}
    {info : ProvenanceInfo Id U} (h : strToInfo vol uninit str = .ok info) :
    ∃ path format, setupCall str = .ok (path, info.prov_level, format) ∧ info.prov_file_path = some path ∧
      info.prov_line_format = some format := by
  unfold strToInfo at h
  unfold setupCall
  split at h
  · rename_i a b ha hb
    rw [hb]
    obtain ⟨-, -, h⟩ := bind_eq_ok.1 h
    split at h
    · cases h
    · obtain ⟨r, hr, h⟩ := bind_eq_ok.1 h
      obtain rfl := Except.ok.inj h
      exact ⟨r.1, r.2.2, hr, rfl, rfl⟩
  · cases h
  · cases h

/-- **On every connector string the setup stays inside its buffers exactly when the text from the last `}` on fits
them.** -/
theorem setup_stays_inside_iff (under_vol under_info rest : CStr) :
    ∃ t, strrchr closeBrace (connectorString under_vol under_info rest) = some t ∧
      ((∃ r, setupCall (connectorString under_vol under_info rest) = .ok r) ↔ SetupFits t) := by
  have hmem : ∀ s : CStr, closeBrace ∈ s → ∃ t, strrchr closeBrace s = some t := by
    intro s hs
    induction s with
    | nil => cases hs
    | cons d s ih =>
      rw [strrchr]
      by_cases hs' : closeBrace ∈ s
      · obtain ⟨t, ht⟩ := ih hs'
        exact ⟨t, by rw [ht]⟩
      · rw [strrchr_none hs']
        exact ⟨d :: s, if_pos ((List.mem_cons.1 hs).resolve_right hs').symm⟩
  obtain ⟨t, ht⟩ := hmem (connectorString under_vol under_info rest) (by simp [connectorString])
  refine ⟨t, ht, ?_⟩
  rw [setupCall, ht]
  exact provenanceFileSetup_iff t

/-- The path in the project's own notes. -/
theorem setup_overruns : ¬ ∀ under_vol under_info rest,
    ∃ r, setupCall (connectorString under_vol under_info rest) = .ok r := by
  intro h
  obtain ⟨r, hr⟩ := h (cstr "0") [] (cstr
    ";path=/global/cscratch1/sd/rzhan/vol-provenance-archive/vol-provenance/my_trace.log;level=2;format=")
  rw [setupCall, strrchr_connectorString _ _ (by decide)] at hr
  have hfits := (provenanceFileSetup_iff _).1 ⟨r, hr⟩
  exact absurd hfits.short (by decide)

end Provio
