import Provio.ConfigValues
import Provio.InfoStr
/-!
# ConfigText — a configuration written out and read back

A configuration is written as one line for each key that has a value, in any order of the keys.  `read_config` gives it
back from that text (`readConfig_print`), if its strings are plain and short and its numbers are C's.  Every configuration
that a well-formed file gives is such a one (`writable_of_wellFormed`).
-/
namespace Provio

/-- A value as it is written; a text that is NULL has no line. -/
def Value.print : Value → Option CStr
  | .text s   => s
  | .flag b   => some (if b then cstr "T" else cstr "F")
  | .number n => some (decimalInt n)
  | .level n  => some (decimalInt (BitVec.ofNat 32 n).toInt)

def ParsedConfig.line (c : ParsedConfig) (k : Key) : Option CStr := (c.get k).print.map (valueLine k)

def ParsedConfig.print (c : ParsedConfig) (keys : List Key) : CStr := (keys.filterMap c.line).flatten

/-- Plain, not empty, and with its key on one line. -/
structure PlainText (k : Key) (s : CStr) : Prop where
  ne    : s ≠ []
  plain : ∀ ch ∈ s, Plain ch
  short : k.text.length + 1 + s.length ≤ 508

/-- What a key may hold to be written: only the statistics file must have a path. -/
def Key.Holds (k : Key) : Value → Prop
  | .text (some s) => PlainText k s
  | .text none     => k ≠ .statFilePath
  | .flag _        => True
  | .number n      => -2 ^ 31 ≤ n ∧ n < 2 ^ 31
  | .level n       => n < 2 ^ 32

def ParsedConfig.Writable (c : ParsedConfig) : Prop := ∀ k : Key, k.Holds (c.get k)

/-! ## Numbers -/

theorem plain_decimal {n : Nat} {c : UInt8} (h : c ∈ decimal n) : Plain c := by
  have hd := mem_decimal h
  simp only [isDigit, Bool.and_eq_true, decide_eq_true_eq, UInt8.le_iff_toNat_le] at hd
  obtain ⟨hlo, hhi⟩ : 48 ≤ c.toNat ∧ c.toNat ≤ 57 := hd
  refine ⟨UInt8.le_iff_toNat_le.2 (le_trans (by decide) hlo), UInt8.le_iff_toNat_le.2 (hhi.trans (by decide)), ?_, ?_⟩
  · rintro rfl
    exact absurd hhi (by decide)
  · rintro rfl
    exact absurd hlo (by decide)

theorem plain_decimalInt {n : Int} {c : UInt8} (h : c ∈ decimalInt n) : Plain c := by
  cases n with
  | ofNat n => exact plain_decimal h
  | negSucc n =>
    rcases List.mem_append.1 h with h | h
    · rw [show cstr "-" = [45] from rfl, List.mem_singleton] at h
      subst h
      decide
    · exact plain_decimal h

theorem decimalInt_ne_nil (n : Int) : decimalInt n ≠ [] := by
  cases n with
  | ofNat n => exact decimal_ne_nil n
  | negSucc n => simp [decimalInt, show cstr "-" = [45] from rfl]

theorem atoi_decimalInt (v : BitVec 32) : atoi (decimalInt v.toInt) = v.toInt := by
  rw [atoi, (strtol_decimalInt v).2, BitVec.ofInt_toInt]

theorem enumOf_level {n : Nat} (h : n < 2 ^ 32) : enumOf (atoi (decimalInt (BitVec.ofNat 32 n).toInt)) = n := by
  rw [atoi_decimalInt, enumOf, BitVec.toInt_eq_toNat_cond, BitVec.toNat_ofNat, Nat.mod_eq_of_lt h]
  split <;> omega

/-! ## A line says what it was written from -/

section

variable {c : ParsedConfig} {k : Key} {val : CStr}

theorem Key.text_plain (k : Key) : ∀ ch ∈ k.text, Plain ch := by cases k <;> decide

theorem plain_number (k : Key) (v : BitVec 32) : PlainText k (decimalInt v.toInt) := by
  refine ⟨decimalInt_ne_nil _, fun ch h => plain_decimalInt h, ?_⟩
  have hlen := length_decimalInt v
  have hkey : k.text.length ≤ 19 := by cases k <;> decide
  omega

theorem plain_flag (k : Key) (b : Bool) : PlainText k (if b then cstr "T" else cstr "F") := by
  have hkey : k.text.length ≤ 19 := by cases k <;> decide
  cases b with
  | true => exact ⟨by decide, by decide, by simp [cstr]; omega⟩
  | false => exact ⟨by decide, by decide, by simp [cstr]; omega⟩

theorem ParsedConfig.get_number (c : ParsedConfig) {n : Int} (h : c.get k = .number n) : k = .numOfApis := by
  cases k <;> cases h
  rfl

theorem ParsedConfig.get_level (c : ParsedConfig) {n : Nat} (h : c.get k = .level n) : k = .provLevel := by
  cases k <;> cases h
  rfl

theorem Key.Holds.number {n : Int} (h : k.Holds (.number n)) : ∃ v : BitVec 32, n = v.toInt :=
  ⟨BitVec.ofInt 32 n, (BitVec.toInt_ofInt_eq_self (by decide) h.1 h.2).symm⟩

theorem Key.Holds.plain {v : Value} (h : k.Holds v) (hval : v.print = some val) : PlainText k val := by
  cases v with
  | text s =>
    obtain rfl : s = some val := hval
    exact h
  | flag b =>
    cases hval
    exact plain_flag k b
  | number n =>
    obtain ⟨v, rfl⟩ := h.number
    cases hval
    exact plain_number k v
  | level n =>
    cases hval
    exact plain_number k _

theorem ParsedConfig.Writable.read_print (h : c.Writable) (hval : (c.get k).print = some val) :
    k.read val = some (c.get k) := by
  have hk := h k
  have hplain := hk.plain hval
  cases hget : c.get k with
  | text s =>
    rw [hget] at hval
    obtain rfl : s = some val := hval
    exact Key.read_text (by cases k <;> first | rfl | cases hget) val
  | flag b =>
    rw [hget] at hval
    cases hval
    have hflag : flagOf (if b then cstr "T" else cstr "F") = b := by cases b <;> decide
    cases k <;> cases hget <;> exact congrArg (fun b => some (Value.flag b)) hflag
  | number n =>
    rw [hget] at hval hk
    obtain ⟨v, rfl⟩ := hk.number
    obtain rfl := c.get_number hget
    cases hval
    obtain ⟨w, hw⟩ := Option.isSome_iff_exists.1 (Key.numOfApis.read_plain hplain.ne hplain.plain)
    rw [hw]
    unfold Key.read at hw
    dsimp only at hw
    split at hw
    · rw [← hw, atoi_decimalInt]
    · cases hw
  | level n =>
    rw [hget] at hval hk
    obtain rfl := c.get_level hget
    cases hval
    exact congrArg some (congrArg Value.level (enumOf_level hk))

theorem ParsedConfig.Writable.line (h : c.Writable) {l : CStr} (hl : c.line k = some l) :
    ∃ val, l = valueLine k val ∧ newline ∉ val ∧ IsSetting l k.text val ∧ k.read val = some (c.get k) := by
  obtain ⟨val, hval, rfl⟩ := Option.map_eq_some_iff.1 hl
  have hplain := (h k).plain hval
  have hcontent : content (valueLine k val) = k.text ++ equals :: val := by
    rw [content, valueLine_eq, List.getLast?_concat, if_pos rfl, List.dropLast_concat]
  refine ⟨val, rfl, fun hmem => absurd (hplain.plain newline hmem).1 (by decide), ⟨hcontent, k.text_ne, hplain.ne,
    k.text_plain, hplain.plain, ?_⟩, h.read_print hval⟩
  have := hplain.short
  simp only [hcontent, List.length_append, List.length_cons]
  omega

theorem ParsedConfig.Writable.meant (h : c.Writable) {l : CStr} {k' : Key} (hl : c.line k' = some l) :
    Provio.meant k l = if k' = k then some (c.get k) else none := by
  obtain ⟨val, -, -, hset, hread⟩ := h.line hl
  rw [Provio.meant, hset.lineOf]
  dsimp only
  by_cases hk : k' = k
  · subst hk
    rw [if_pos rfl, if_pos rfl, hread]
  · rw [if_neg fun he => hk (Key.text_inj he), if_neg hk]

/-! ## The file -/

theorem linesOf_flatten : ∀ (ls : List CStr), (∀ l ∈ ls, ∃ b, newline ∉ b ∧ l = b ++ [newline]) → linesOf ls.flatten = ls
  | [], _ => rfl
  | l :: ls, h => by
    obtain ⟨b, hb, rfl⟩ := h l List.mem_cons_self
    have ih := linesOf_flatten ls fun m hm => h m (List.mem_cons_of_mem _ hm)
    rw [List.flatten_cons, List.append_assoc]
    exact (Lines.lines_line_append newline ls.flatten b hb).trans (congrArg _ ih)

theorem ParsedConfig.Writable.linesOf_print (h : c.Writable) (keys : List Key) :
    linesOf (c.print keys) = keys.filterMap c.line := by
  refine linesOf_flatten _ fun l hl => ?_
  obtain ⟨k, -, hk⟩ := List.mem_filterMap.1 hl
  obtain ⟨val, rfl, hnl, -, -⟩ := h.line hk
  refine ⟨k.text ++ equals :: val, fun hmem => ?_, valueLine_eq k val⟩
  rcases List.mem_append.1 hmem with hmem | hmem
  · exact k.newline_not_mem_text hmem
  · rcases List.mem_cons.1 hmem with hmem | hmem
    · exact absurd hmem (by decide)
    · exact hnl hmem

theorem ParsedConfig.Writable.wellFormed (h : c.Writable) (keys : List Key) : WellFormed (c.print keys) := by
  intro l hl
  rw [h.linesOf_print] at hl
  obtain ⟨k, -, hk⟩ := List.mem_filterMap.1 hl
  obtain ⟨val, -, -, hset, -⟩ := h.line hk
  exact .inr ⟨k.text, val, hset⟩

theorem ParsedConfig.Writable.lastMeant_print (h : c.Writable) {keys : List Key} (hk : k ∈ keys) {l : CStr}
    (hl : c.line k = some l) : lastMeant k (keys.filterMap c.line) = some (c.get k) := by
  have hall : ∀ v ∈ (keys.filterMap c.line).filterMap (Provio.meant k), v = c.get k := by
    intro v hv
    obtain ⟨l', hl', hm⟩ := List.mem_filterMap.1 hv
    obtain ⟨k', -, hk'⟩ := List.mem_filterMap.1 hl'
    rw [h.meant hk'] at hm
    split at hm
    · exact (Option.some.inj hm).symm
    · cases hm
  have hmem : c.get k ∈ (keys.filterMap c.line).filterMap (Provio.meant k) :=
    List.mem_filterMap.2 ⟨l, List.mem_filterMap.2 ⟨k, hk, hl⟩, by rw [h.meant hl, if_pos rfl]⟩
  rw [lastMeant, List.getLast?_eq_some_getLast (List.ne_nil_of_mem hmem)]
  exact congrArg some (hall _ (List.getLast_mem _))

theorem ParsedConfig.Writable.get_of_no_line (h : c.Writable) (hl : c.line k = none) (file_path : CStr) :
    c.get k = (startParse file_path).config.get k := by
  have hnone : (c.get k).print = none := Option.map_eq_none_iff.1 hl
  cases k with
  | statFilePath =>
    have hstat := h .statFilePath
    rw [show c.get .statFilePath = .text none from congrArg Value.text hnone] at hstat
    exact absurd rfl hstat
  | baseUri | provPrefix | newGraphPath | legacyGraphPath | format => exact congrArg Value.text hnone
  | _ => cases hnone

/-- **A configuration is read back from the lines it is written as**, in any order of its keys. -/
theorem readConfig_print (h : c.Writable) {keys : List Key} (hall : ∀ k, k ∈ keys) (file_path : CStr) :
    readConfig file_path (some (c.print keys)) = .ok (0, ⟨c, []⟩) := by
  rw [readConfig_of_wellFormed (h.wellFormed keys), h.linesOf_print]
  have hget : (keys.filterMap c.line).foldl assignPiece (startParse file_path).config = c := by
    refine ParsedConfig.ext_get fun k => ?_
    rw [get_foldl]
    cases hl : c.line k with
    | some l => rw [h.lastMeant_print (hall k) hl, Option.getD_some]
    | none =>
      have hnone : lastMeant k (keys.filterMap c.line) = none := by
        rw [lastMeant_eq_none]
        intro l' hl'
        obtain ⟨k', -, hk'⟩ := List.mem_filterMap.1 hl'
        rw [h.meant hk', if_neg]
        rintro rfl
        rw [hl] at hk'
        cases hk'
      rw [hnone, Option.getD_none, h.get_of_no_line hl file_path]
  rw [hget]

/-! ## Every configuration that a well-formed file gives -/

theorem meant_holds {l : CStr} (hl : WellFormedLine l) {v : Value} (hv : Provio.meant k l = some v) : k.Holds v := by
  rcases hl with ⟨hc, -⟩ | ⟨key, val, hset⟩
  · rw [Provio.meant, lineOf_comment hc] at hv
    cases hv
  · rw [Provio.meant, hset.lineOf] at hv
    dsimp only at hv
    split at hv
    · subst key
      have htext : PlainText k val := by
        refine ⟨hset.val_ne, hset.val_plain, ?_⟩
        have := hset.short
        simp only [hset.text, List.length_append, List.length_cons] at this
        omega
      cases k with
      | baseUri | provPrefix | statFilePath | newGraphPath | legacyGraphPath | format =>
        cases hv
        exact htext
      | provLevel =>
        cases hv
        show enumOf _ < 2 ^ 32
        unfold enumOf
        omega
      | numOfApis =>
        unfold Key.read at hv
        dsimp only at hv
        split at hv
        · cases hv
          exact ⟨BitVec.le_toInt _, BitVec.toInt_lt⟩
        · cases hv
      | _ =>
        cases hv
        trivial
    · cases hv

theorem default_holds {file_path : CStr} (hpath : PlainText .statFilePath file_path) (k : Key) :
    k.Holds ((startParse file_path).config.get k) := by
  cases k with
  | statFilePath => exact hpath
  | baseUri | provPrefix | newGraphPath | legacyGraphPath | format => exact nofun
  | numOfApis =>
    show -2 ^ 31 ≤ INITIAL_CAPACITY ∧ INITIAL_CAPACITY < 2 ^ 31
    decide
  | provLevel => exact Nat.two_pow_pos 32
  | _ => trivial

/-- **A well-formed file gives a configuration that can be written.** -/
theorem writable_of_wellFormed {file file_path : CStr} (hfile : WellFormed file)
    (hpath : PlainText .statFilePath file_path) {r : Int} {p : Parse}
    (hr : readConfig file_path (some file) = .ok (r, p)) : p.config.Writable := by
  rw [readConfig_of_wellFormed hfile] at hr
  cases hr
  intro k
  show k.Holds (((linesOf file).foldl assignPiece (startParse file_path).config).get k)
  rw [get_foldl]
  cases hlast : lastMeant k (linesOf file) with
  | none => exact default_holds hpath k
  | some v =>
    obtain ⟨l, hl, hm⟩ := List.mem_filterMap.1 (List.mem_of_getLast? hlast)
    exact meant_holds (hfile l hl) hm

end

/-- **A configuration that is written is read back as it was**, in any order of its keys and from any path; and every
configuration that a well-formed file gives is one that can be written. -/
theorem readConfig_round_trip {keys : List Key} (hall : ∀ k, k ∈ keys) :
    (∀ c : ParsedConfig, c.Writable → ∀ path, readConfig path (some (c.print keys)) = .ok (0, ⟨c, []⟩)) ∧
    ∀ path file, PlainText .statFilePath path → WellFormed file → ∀ r p, readConfig path (some file) = .ok (r, p) →
      p.config.Writable :=
  ⟨fun _ h path => readConfig_print h hall path, fun _ _ hpath hfile _ _ hr => writable_of_wellFormed hfile hpath hr⟩

/-- What a file of a comment and two formats gives, written in the order in which the keys are compared. -/
theorem readConfig_round_trip_format : ∃ p, readConfig (cstr "/p.cfg") (some formatFile) = .ok (0, p) ∧
    readConfig (cstr "/q.cfg") (some (p.config.print Key.all)) = .ok (0, ⟨p.config, []⟩) := by
  have hall : ∀ k, k ∈ Key.all := by
    intro k
    cases k <;> decide
  obtain ⟨hprint, hread⟩ := readConfig_round_trip hall
  have hr := readConfig_of_wellFormed formatFile_wellFormed (cstr "/p.cfg")
  have hpath : PlainText .statFilePath (cstr "/p.cfg") := ⟨by decide, by decide, by decide⟩
  exact ⟨_, hr, hprint _ (hread _ _ hpath formatFile_wellFormed _ _ hr) _⟩

end Provio
