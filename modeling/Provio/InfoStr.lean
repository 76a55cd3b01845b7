import Provio.Config
/-!
# InfoStr — the connector info as a string, and back

`H5VL_provenance_info_to_str` prints the info with `sprintf` into a buffer it has sized; `H5VL_provenance_str_to_info`
finds the underlying info between the first `{` and the last `}`, cuts the rest at `;` and reads the pieces with
`sscanf`.  What HDF5 does with the underlying connector is a parameter (`Vol`).  Decoding the encoded string rebuilds
the info (`str_to_info_info_to_str`).
-/
namespace Provio

/-- The HDF5 calls on the underlying connector: an `H5VL_class_value_t` is an `int`. -/
structure Vol (Id U : Type) where
  H5VLget_value                   : Id → BitVec 32
  H5VLregister_connector_by_value : BitVec 32 → Id
  H5VLconnector_info_to_str       : Option U → Id → Option CStr
  H5VLconnector_str_to_info       : CStr → Id → Option U

/-- `H5VL_provenance_info_t`. -/
structure ProvenanceInfo (Id U : Type) where
  under_vol_id     : Id
  under_vol_info   : Option U
  prov_file_path   : Option CStr
  prov_level       : BitVec 32
  prov_line_format : Option CStr

def semicolon : UInt8 := 59

def openBrace : UInt8 := 123

def closeBrace : UInt8 := 125

/-! ## The C library -/

def sprintf (size : Nat) (text : CStr) : Except Fault CStr :=
  if text.length + 1 ≤ size then .ok text else .error .bounds

/-- What is left of a string after the literal of a format, when it starts with it. -/
def afterLiteral (lit s : CStr) : Option CStr := if lit.isPrefixOf s then some (s.drop lit.length) else none

/-- `%s` after a literal; `none` assigns nothing. -/
def scanString (lit s : CStr) : Option CStr :=
  match afterLiteral lit s with
  | none   => none
  | some s =>
    let word := (s.dropWhile isSpace).takeWhile (!isSpace ·)
    if word = [] then none else some word

/-- `strtoul(s, NULL, 10)`, saturating. -/
def strtoul (s : CStr) : Int :=
  if 2 ^ 64 ≤ digitsVal (digitsOf s) then 2 ^ 64 - 1
  else if isNegative s then -(digitsVal (digitsOf s) : Int) else digitsVal (digitsOf s)

/-- `%d` and `%u` after a literal, by what reads the number. -/
def scanNumber (strto : CStr → Int) (lit s : CStr) : Option (BitVec 32) :=
  match afterLiteral lit s with
  | none   => none
  | some s => if digitsOf s = [] then none else some (BitVec.ofInt 32 (strto s))

/-- The string from the first `c` on. -/
def strchr (c : UInt8) (s : CStr) : Option CStr :=
  match s.dropWhile (· ≠ c) with
  | []     => none
  | d :: t => some (d :: t)

/-- The string from the last `c` on. -/
def strrchr (c : UInt8) : CStr → Option CStr
  | []     => none
  | d :: s =>
    match strrchr c s with
    | some t => some t
    | none   => if d = c then some (d :: s) else none

/-! ## The two callbacks -/

section Callbacks

variable {Id U : Type}

def underString (vol : Vol Id U) (info : ProvenanceInfo Id U) : CStr :=
  (vol.H5VLconnector_info_to_str info.under_vol_info info.under_vol_id).getD []

def lengthOf (s : Option CStr) : Nat := (s.getD []).length

def infoToStr (vol : Vol Id U) (info : ProvenanceInfo Id U) : Except Fault CStr := do
  let under_value := vol.H5VLget_value info.under_vol_id
  let size := 64 + (underString vol info).length + lengthOf info.prov_file_path + lengthOf info.prov_line_format
  let path ← strcpy info.prov_file_path
  let format ← strcpy info.prov_line_format
  sprintf size (cstr "under_vol=" ++ decimal under_value.toNat ++ cstr ";under_info=\x7b" ++ underString vol info
    ++ cstr "\x7d;path=" ++ path ++ cstr ";level=" ++ decimalInt info.prov_level.toInt ++ cstr ";format=" ++ format)

/-- A `sscanf` of `toklist[i]`. -/
def tokAt (toklist : List CStr) (i : Nat) : Except Fault CStr := strcpy toklist[i]?

/-- `%s` into 64 zeroed bytes. -/
def scanInto (lit s : CStr) : Except Fault CStr :=
  match scanString lit s with
  | none      => .ok []
  | some word => if word.length + 1 ≤ 64 then .ok word else .error .bounds

/-- The path, the level and the format, from what `calloc` gave: empty strings and a zero level. -/
def provenanceFileSetup (str_in : CStr) : Except Fault (CStr × BitVec 32 × CStr) := do
  -- `tmp_str` holds 100 bytes, `toklist` four pointers
  let tmp_str ← sprintf 100 str_in
  let toklist := Lines.tokens (· = semicolon) tmp_str
  if 4 < toklist.length then .error .bounds
  else do
    let tok1 ← tokAt toklist 1
    let file_path ← scanInto (cstr "path=") tok1
    let tok2 ← tokAt toklist 2
    let level := (scanNumber strtol (cstr "level=") tok2).getD 0
    let tok3 ← tokAt toklist 3
    let format ← scanInto (cstr "format=") tok3
    pure (file_path, level, format)

/-- `uninit` is what `under_vol_value` holds when `sscanf` assigns it nothing. -/
def strToInfo (vol : Vol Id U) (uninit : BitVec 32) (str : CStr) : Except Fault (ProvenanceInfo Id U) := do
  let under_vol_value := (scanNumber strtoul (cstr "under_vol=") str).getD uninit
  let under_vol_id := vol.H5VLregister_connector_by_value under_vol_value
  match strchr openBrace str, strrchr closeBrace str with
  | some under_vol_info_start, some under_vol_info_end => do
    cAssert (under_vol_info_end.length < under_vol_info_start.length)
    -- a string between the braces is copied, and its terminator put one byte past the copy
    if under_vol_info_end.length + 1 ≠ under_vol_info_start.length then .error .bounds
    else do
      let (path, level, format) ← provenanceFileSetup under_vol_info_end
      pure { under_vol_id := under_vol_id, under_vol_info := none, prov_file_path := some path, prov_level := level
             prov_line_format := some format }
  | none, some _ => .error .null
  | _, none => .error .assert

/-- Text that the scanning keeps in one piece. -/
def Scannable (s : CStr) : Prop := ∀ c ∈ s, c ≠ semicolon ∧ c ≠ closeBrace ∧ isSpace c = false

instance (s : CStr) : Decidable (Scannable s) := inferInstanceAs (Decidable (∀ c ∈ s, _))

def encodedRest (path : CStr) (level : BitVec 32) (format : CStr) : CStr :=
  cstr ";path=" ++ path ++ cstr ";level=" ++ decimalInt level.toInt ++ cstr ";format=" ++ format

end Callbacks

/-! ## Numbers, printed and read -/

theorem digit_bounds {d : Char} (h : d.isDigit = true) : 48 ≤ d.toNat ∧ d.toNat ≤ 57 := by
  simp only [Char.isDigit, Bool.and_eq_true, decide_eq_true_eq] at h
  exact ⟨h.1, h.2⟩

theorem toNat_digit {d : Char} (h : d.isDigit = true) : (UInt8.ofNat d.toNat).toNat = d.toNat := by
  have := digit_bounds h
  rw [UInt8.toNat_ofNat']
  exact Nat.mod_eq_of_lt (by omega)

theorem isDigit_of_mem_digits {n : Nat} {d : Char} (h : d ∈ Nat.toDigits 10 n) : d.isDigit = true :=
  Nat.isDigit_of_mem_toDigits (by decide) (by decide) h

theorem mem_decimal {n : Nat} {c : UInt8} (h : c ∈ decimal n) : isDigit c = true := by
  obtain ⟨d, hd, rfl⟩ := List.mem_map.1 h
  have hdigit := isDigit_of_mem_digits hd
  have hb := digit_bounds hdigit
  have ht := toNat_digit hdigit
  simp only [isDigit, Bool.and_eq_true, decide_eq_true_eq, UInt8.le_iff_toNat_le, ht]
  exact hb

theorem decimal_ne_nil (n : Nat) : decimal n ≠ [] := by
  simp [decimal, Nat.toDigits_ne_nil]

theorem digitsVal_decimal (n : Nat) : digitsVal (decimal n) = n := by
  have key : ∀ (l : List Char) (v : Nat), (∀ d ∈ l, d.isDigit = true) →
      (l.map (fun c => UInt8.ofNat c.toNat)).foldl (fun n c => 10 * n + (c.toNat - 48)) v = Nat.ofDigitChars 10 l v := by
    intro l
    induction l with
    | nil => intro v _; simp
    | cons d l ih =>
      intro v h
      rw [List.map_cons, List.foldl_cons, ih _ (fun e he => h e (List.mem_cons_of_mem d he)), Nat.ofDigitChars_cons,
        toNat_digit (h d List.mem_cons_self)]
      rfl
  rw [digitsVal, decimal, key _ 0 (fun d hd => isDigit_of_mem_digits hd), Nat.ofDigitChars_ten_toDigits]

theorem isDigit_bounds {c : UInt8} (h : isDigit c = true) : isSpace c = false ∧ c ≠ 45 ∧ c ≠ 43 := by
  simp only [isDigit, Bool.and_eq_true, decide_eq_true_eq, UInt8.le_iff_toNat_le] at h
  have h1 : 48 ≤ c.toNat := h.1
  refine ⟨?_, ?_, ?_⟩
  · have h32 : c ≠ 32 := by rintro rfl; exact absurd h1 (by decide)
    have h13 : ¬ c ≤ 13 := by
      rw [UInt8.le_iff_toNat_le]
      have : (13 : UInt8).toNat = 13 := rfl
      omega
    simp [isSpace, h32, h13]
  · rintro rfl; exact absurd h1 (by decide)
  · rintro rfl; exact absurd h1 (by decide)

theorem digitsOf_decimal (n : Nat) {t : CStr} (ht : ∀ d ∈ t.head?, isDigit d = false) :
    digitsOf (decimal n ++ t) = decimal n ∧ isNegative (decimal n ++ t) = false := by
  have htake : (decimal n ++ t).takeWhile isDigit = decimal n := by
    rw [List.takeWhile_append_of_pos (fun c hc => mem_decimal hc)]
    cases t with
    | nil => simp
    | cons d t => simp [ht d rfl]
  obtain ⟨c, u, hcu⟩ := List.exists_cons_of_ne_nil (decimal_ne_nil n)
  have hc := isDigit_bounds (mem_decimal (n := n) (c := c) (by rw [hcu]; exact List.mem_cons_self))
  rw [hcu] at htake
  rw [digitsOf, isNegative, hcu]
  simp only [List.cons_append, List.dropWhile_cons, hc.1] at htake ⊢
  simp [hc.2.1, hc.2.2, htake]

theorem digitsOf_minus (n : Nat) : digitsOf (cstr "-" ++ decimal n) = decimal n ∧
    isNegative (cstr "-" ++ decimal n) = true := by
  have htake : (decimal n).takeWhile isDigit = decimal n := by
    rw [List.takeWhile_eq_self_iff]
    exact fun c hc => mem_decimal hc
  have hminus : cstr "-" = [45] := rfl
  rw [digitsOf, isNegative, hminus]
  simp [isSpace, htake]

theorem strtol_decimalInt (v : BitVec 32) : digitsOf (decimalInt v.toInt) ≠ [] ∧ strtol (decimalInt v.toInt) = v.toInt := by
  have hlo := BitVec.le_toInt v
  have hhi := BitVec.toInt_lt (x := v)
  cases hv : v.toInt with
  | ofNat n =>
    obtain ⟨hd, hs⟩ := digitsOf_decimal n (t := []) (by rintro d ⟨⟩)
    rw [List.append_nil] at hd hs
    rw [hv] at hlo hhi
    refine ⟨by rw [decimalInt, hd]; exact decimal_ne_nil n, ?_⟩
    rw [decimalInt, strtol, if_neg (by simp [hs]), hd, digitsVal_decimal]
    simp only [Int.ofNat_eq_natCast] at *
    omega
  | negSucc n =>
    obtain ⟨hd, hs⟩ := digitsOf_minus (n + 1)
    rw [hv] at hlo hhi
    refine ⟨by rw [decimalInt, hd]; exact decimal_ne_nil (n + 1), ?_⟩
    rw [decimalInt, strtol, if_pos hs, hd, digitsVal_decimal]
    simp only [Int.negSucc_eq] at *
    omega

theorem length_decimal (n k : Nat) (hk : 0 < k) (h : n < 10 ^ k) : (decimal n).length ≤ k := by
  rw [decimal, List.length_map]
  exact (Nat.length_toDigits_le_iff (by decide) hk).2 h

theorem length_decimalInt (v : BitVec 32) : (decimalInt v.toInt).length ≤ 11 := by
  have hlo := BitVec.le_toInt v
  have hhi := BitVec.toInt_lt (x := v)
  cases hv : v.toInt with
  | ofNat n =>
    rw [hv] at hhi
    have := length_decimal n 10 (by decide) (by simp only [Int.ofNat_eq_natCast] at hhi; omega)
    rw [decimalInt]
    omega
  | negSucc n =>
    rw [hv] at hlo
    have := length_decimal (n + 1) 10 (by decide) (by simp only [Int.negSucc_eq] at hlo; omega)
    rw [decimalInt, List.length_append]
    simp only [show (cstr "-").length = 1 from rfl]
    omega

/-! ## Reading the pieces -/

theorem afterLiteral_append (lit s : CStr) : afterLiteral lit (lit ++ s) = some s := by
  have h : lit.isPrefixOf (lit ++ s) = true := by simp
  rw [afterLiteral, if_pos h, List.drop_left]

theorem scanNumber_level (v : BitVec 32) (lit : CStr) :
    scanNumber strtol lit (lit ++ decimalInt v.toInt) = some v := by
  obtain ⟨hne, hv⟩ := strtol_decimalInt v
  rw [scanNumber, afterLiteral_append]
  simp only [if_neg hne, hv]
  rw [BitVec.ofInt_toInt]

theorem scanNumber_value (v : BitVec 32) (lit : CStr) {t : CStr} (ht : ∀ d ∈ t.head?, isDigit d = false) :
    scanNumber strtoul lit (lit ++ (decimal v.toNat ++ t)) = some v := by
  obtain ⟨hd, hs⟩ := digitsOf_decimal v.toNat ht
  have hlt := v.isLt
  rw [scanNumber, afterLiteral_append]
  simp only [strtoul, hd, hs, digitsVal_decimal, if_neg (decimal_ne_nil v.toNat)]
  rw [if_neg (by omega), if_neg (by simp)]
  simp

theorem scanInto_append (lit : CStr) {w : CStr} (hw : Scannable w) (hlen : w.length ≤ 63) :
    scanInto lit (lit ++ w) = .ok w := by
  have hspace : ∀ c ∈ w, isSpace c = false := fun c hc => (hw c hc).2.2
  have htake : w.takeWhile (!isSpace ·) = w := by
    rw [List.takeWhile_eq_self_iff]
    exact fun c hc => by simpa using hspace c hc
  rw [scanInto, scanString, afterLiteral_append]
  cases w with
  | nil => rfl
  | cons c w =>
    have hdrop : (c :: w).dropWhile isSpace = c :: w := by simp [hspace c List.mem_cons_self]
    simp only [hdrop, htake]
    rw [if_neg (by simp)]
    exact if_pos (by omega)

theorem strchr_append {c : UInt8} {a : CStr} (h : c ∉ a) (b : CStr) : strchr c (a ++ c :: b) = some (c :: b) := by
  have hdrop : (a ++ c :: b).dropWhile (· ≠ c) = c :: b := by
    rw [List.dropWhile_append_of_pos (fun d hd => by simpa using fun e : d = c => h (e ▸ hd))]
    simp
  rw [strchr, hdrop]

theorem strrchr_none {c : UInt8} : ∀ {b : CStr}, c ∉ b → strrchr c b = none
  | [], _ => rfl
  | d :: b, h => by
    rw [strrchr, strrchr_none (List.not_mem_of_not_mem_cons h)]
    exact if_neg (List.ne_of_not_mem_cons h).symm

theorem strrchr_append {c : UInt8} {b : CStr} (h : c ∉ b) : ∀ a : CStr, strrchr c (a ++ c :: b) = some (c :: b)
  | [] => by
    rw [List.nil_append, strrchr, strrchr_none h]
    exact if_pos rfl
  | d :: a => by rw [List.cons_append, strrchr, strrchr_append h a]

theorem decimal_not_mem {c : UInt8} (h : isDigit c = false) (n : Nat) : c ∉ decimal n :=
  fun hc => by rw [mem_decimal hc] at h; cases h

theorem decimalInt_not_mem {c : UInt8} (h : isDigit c = false) (hc : c ≠ 45) (i : Int) : c ∉ decimalInt i := by
  cases i with
  | ofNat n => exact decimal_not_mem h n
  | negSucc n =>
    rw [decimalInt, List.mem_append]
    rintro (h' | h')
    · exact hc (by simpa [cstr] using h')
    · exact decimal_not_mem h _ h'

theorem closeBrace_not_mem_rest {path format : CStr} (hpath : Scannable path) (hformat : Scannable format)
    (level : BitVec 32) : closeBrace ∉ encodedRest path level format := by
  simp only [encodedRest, List.mem_append, not_or]
  exact ⟨⟨⟨⟨⟨by decide, fun h => (hpath _ h).2.1 rfl⟩, by decide⟩, decimalInt_not_mem (by decide) (by decide) _⟩,
    by decide⟩, fun h => (hformat _ h).2.1 rfl⟩

theorem tokens_rest {path format : CStr} (hpath : Scannable path) (hformat : Scannable format) (level : BitVec 32) :
    Lines.tokens (· = semicolon) (closeBrace :: encodedRest path level format)
      = [[closeBrace], cstr "path=" ++ path, cstr "level=" ++ decimalInt level.toInt, cstr "format=" ++ format] := by
  have hsplit : closeBrace :: encodedRest path level format = [closeBrace] ++ semicolon :: ((cstr "path=" ++ path)
      ++ semicolon :: ((cstr "level=" ++ decimalInt level.toInt) ++ semicolon :: (cstr "format=" ++ format))) := by
    simp only [encodedRest, List.append_assoc]
    rfl
  have hrun : ∀ {lit s : CStr}, semicolon ∉ lit → semicolon ∉ s → ∀ c ∈ lit ++ s, decide (c = semicolon) = false := by
    intro lit s hlit hs c hc
    rw [decide_eq_false_iff_not]
    rintro rfl
    exact (List.mem_append.1 hc).elim hlit hs
  rw [hsplit, Lines.tokens_run_cons _ (by simp) (by decide) (by decide),
    Lines.tokens_run_cons _ (by simp [cstr]) (hrun (by decide) (fun h => (hpath _ h).1 rfl)) (by decide),
    Lines.tokens_run_cons _ (by simp [cstr]) (hrun (by decide) (decimalInt_not_mem (by decide) (by decide) _)) (by decide),
    Lines.tokens_run _ (by simp [cstr]) (hrun (by decide) (fun h => (hformat _ h).1 rfl))]

/-- **The setup reads back the path, the level and the format.** -/
theorem provenanceFileSetup_rest {path format : CStr} (hpath : Scannable path) (hformat : Scannable format)
    (hpathLen : path.length ≤ 63) (hformatLen : format.length ≤ 63) (level : BitVec 32)
    (hlen : (closeBrace :: encodedRest path level format).length ≤ 99) :
    provenanceFileSetup (closeBrace :: encodedRest path level format) = .ok (path, level, format) := by
  have hprint : sprintf 100 (closeBrace :: encodedRest path level format)
      = .ok (closeBrace :: encodedRest path level format) := if_pos (by omega)
  have hp := scanInto_append (cstr "path=") hpath hpathLen
  have hf := scanInto_append (cstr "format=") hformat hformatLen
  have hl := scanNumber_level level (cstr "level=")
  rw [provenanceFileSetup, hprint, ok_bind, tokens_rest hpath hformat]
  simp only [tokAt, strcpy, List.getElem?_cons_succ, List.getElem?_cons_zero, ok_bind, hp, hf, hl, Option.getD_some]
  rfl

section RoundTrip

variable {Id U : Type}

theorem infoToStr_eq (vol : Vol Id U) (info : ProvenanceInfo Id U) {path format : CStr}
    (hpath : info.prov_file_path = some path) (hformat : info.prov_line_format = some format)
    (hunder : underString vol info = []) (hvalue : (vol.H5VLget_value info.under_vol_id).toNat ≤ 65535) :
    infoToStr vol info = .ok ((cstr "under_vol=" ++ (decimal (vol.H5VLget_value info.under_vol_id).toNat
      ++ cstr ";under_info=")) ++ openBrace :: closeBrace :: encodedRest path info.prov_level format) := by
  have hdec := length_decimal (vol.H5VLget_value info.under_vol_id).toNat 5 (by decide) (by omega)
  have hint := length_decimalInt info.prov_level
  have htext : cstr "under_vol=" ++ decimal (vol.H5VLget_value info.under_vol_id).toNat ++ cstr ";under_info=\x7b" ++ []
      ++ cstr "\x7d;path=" ++ path ++ cstr ";level=" ++ decimalInt info.prov_level.toInt ++ cstr ";format=" ++ format
      = (cstr "under_vol=" ++ (decimal (vol.H5VLget_value info.under_vol_id).toNat ++ cstr ";under_info="))
        ++ openBrace :: closeBrace :: encodedRest path info.prov_level format := by
    simp only [encodedRest, List.append_assoc]
    rfl
  unfold infoToStr
  simp only [hpath, hformat, hunder, strcpy, ok_bind, htext]
  refine if_pos ?_
  rw [← htext]
  simp only [List.length_append, lengthOf, Option.getD_some, List.length_nil]
  have hlits : (cstr "under_vol=").length = 10 ∧ (cstr ";under_info=\x7b").length = 13 ∧
      (cstr "\x7d;path=").length = 7 ∧ (cstr ";level=").length = 7 ∧ (cstr ";format=").length = 8 := by decide
  omega

/-- **Decoding the encoded info rebuilds it**: the underlying connector's value, the path, the level and the format,
when the underlying info is the empty string and the texts are scannable and fit the decoder's buffers. -/
theorem str_to_info_info_to_str (vol : Vol Id U)
    (hregister : ∀ id, vol.H5VLget_value (vol.H5VLregister_connector_by_value (vol.H5VLget_value id)) = vol.H5VLget_value id)
    (info : ProvenanceInfo Id U) (path format : CStr) (hpath : info.prov_file_path = some path)
    (hformat : info.prov_line_format = some format) (hunder : underString vol info = [])
    (hscanPath : Scannable path) (hscanFormat : Scannable format) (hpathLen : path.length ≤ 63)
    (hformatLen : format.length ≤ 63)
    (hrest : (closeBrace :: encodedRest path info.prov_level format).length ≤ 99)
    (hvalue : (vol.H5VLget_value info.under_vol_id).toNat ≤ 65535) (uninit : BitVec 32) :
    ∃ str info', infoToStr vol info = .ok str ∧ strToInfo vol uninit str = .ok info' ∧
      vol.H5VLget_value info'.under_vol_id = vol.H5VLget_value info.under_vol_id ∧
      info'.prov_file_path = some path ∧ info'.prov_level = info.prov_level ∧
      info'.prov_line_format = some format := by
  have hstr := infoToStr_eq vol info hpath hformat hunder hvalue
  generalize hv : vol.H5VLget_value info.under_vol_id = v at hstr
  have hbrace : openBrace ∉ cstr "under_vol=" ++ (decimal v.toNat ++ cstr ";under_info=") := by
    simp only [List.mem_append, not_or]
    exact ⟨by decide, decimal_not_mem (by decide) _, by decide⟩
  have hstart := strchr_append hbrace (closeBrace :: encodedRest path info.prov_level format)
  have hend := strrchr_append (closeBrace_not_mem_rest hscanPath hscanFormat info.prov_level)
    ((cstr "under_vol=" ++ (decimal v.toNat ++ cstr ";under_info=")) ++ [openBrace])
  rw [List.append_assoc _ [openBrace], List.singleton_append] at hend
  have hnumber := scanNumber_value v (cstr "under_vol=")
    (t := cstr ";under_info=" ++ openBrace :: closeBrace :: encodedRest path info.prov_level format)
    (by rintro d ⟨⟩; rfl)
  rw [← List.append_assoc (decimal v.toNat), ← List.append_assoc (cstr "under_vol=")] at hnumber
  refine ⟨_, { under_vol_id := vol.H5VLregister_connector_by_value v, under_vol_info := none, prov_file_path := some path
               prov_level := info.prov_level, prov_line_format := some format }, hstr, ?_, ?_, rfl, rfl, rfl⟩
  · rw [strToInfo, hnumber, hstart, hend, Option.getD_some]
    dsimp only
    have hlt : (cAssert (decide ((closeBrace :: encodedRest path info.prov_level format).length
        < (openBrace :: closeBrace :: encodedRest path info.prov_level format).length))) = .ok () := by simp
    rw [hlt, ok_bind, if_neg (by simp),
      provenanceFileSetup_rest hscanPath hscanFormat hpathLen hformatLen info.prov_level hrest, ok_bind]
    rfl
  · rw [← hv]
    exact hregister info.under_vol_id

end RoundTrip

def plainVol : Vol (BitVec 32) Unit := ⟨id, id, fun _ _ => none, fun _ _ => none⟩

/-- An empty format and a negative level come back. -/
theorem str_to_info_negative_level :
    ∃ str info', infoToStr plainVol ⟨2, none, some (cstr "/a=b"), -1, some []⟩ = .ok str ∧
      strToInfo plainVol 0 str = .ok info' ∧ plainVol.H5VLget_value info'.under_vol_id = 2 ∧
      info'.prov_file_path = some (cstr "/a=b") ∧ info'.prov_level = -1 ∧ info'.prov_line_format = some [] :=
  str_to_info_info_to_str plainVol (fun _ => rfl) ⟨2, none, some (cstr "/a=b"), -1, some []⟩ (cstr "/a=b") [] rfl rfl rfl
    (by decide) (by decide) (by decide) (by decide) (by decide) (by decide) 0

end Provio
