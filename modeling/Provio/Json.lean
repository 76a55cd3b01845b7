import Provio.Dict
/-!
# Json — objects of strings as text

The layout of an object whose values are strings, one item a line and four blanks deep, with the escapes JSON has for
quotes, backslashes and control characters.  What is printed is read back (`parse_print`).  Only this layout is read.
-/
namespace JsonObject

open Ordered (Dict)

def quote : Char := Char.ofNat 34

def backslash : Char := Char.ofNat 92

/-- The characters with an escape of one letter. -/
def shorts : List (Char × Char) :=
  [(quote, quote), (backslash, backslash), (Char.ofNat 10, 'n'), (Char.ofNat 13, 'r'), (Char.ofNat 9, 't'),
    (Char.ofNat 8, 'b'), (Char.ofNat 12, 'f')]

def hexDigit (n : Nat) : Char := Char.ofNat (if n < 10 then 48 + n else 87 + n)

def hexValue (c : Char) : Nat := if c.toNat < 58 then c.toNat - 48 else c.toNat - 87

/-! ## Strings -/

def escapeChar (c : Char) : List Char :=
  match shorts.lookup c with
  | some e => [backslash, e]
  | none   =>
    if c.toNat < 32 then [backslash, 'u', '0', '0', hexDigit (c.toNat / 16), hexDigit (c.toNat % 16)] else [c]

def unescape : List Char → Option (Char × List Char)
  | []        => none
  | e :: rest =>
    match (shorts.map Prod.swap).lookup e, rest with
    | some c, rest                    => some (c, rest)
    | none, _ :: _ :: hi :: lo :: rest => some (Char.ofNat (16 * hexValue hi + hexValue lo), rest)
    | none, _                         => none

def unquote : Nat → List Char → Option (List Char × List Char)
  | 0, _             => none
  | _, []            => none
  | n + 1, c :: rest =>
    if c = quote then some ([], rest)
    else if c = backslash then
      match unescape rest with
      | some (c, rest) => (unquote n rest).map (fun r => (c :: r.1, r.2))
      | none           => none
    else (unquote n rest).map (fun r => (c :: r.1, r.2))

theorem hexValue_hexDigit {n : Nat} (h : n < 16) : hexValue (hexDigit n) = n := by
  have hall : ∀ n < 16, hexValue (hexDigit n) = n := by decide
  exact hall n h

theorem lookup_shorts {c e : Char} (h : shorts.lookup c = some e) : (shorts.map Prod.swap).lookup e = some c := by
  have hall : ∀ i ∈ shorts, (shorts.map Prod.swap).lookup i.2 = some i.1 := by decide
  obtain ⟨before, after, hitems, -⟩ := List.lookup_eq_some_iff.1 h
  exact hall (c, e) (by rw [hitems]; simp)

theorem unquote_escapeChar (c : Char) (n : Nat) (t : List Char) :
    unquote (n + 1) (escapeChar c ++ t) = (unquote n t).map (fun r => (c :: r.1, r.2)) := by
  have hbq : backslash ≠ quote := by decide
  unfold escapeChar
  cases hs : shorts.lookup c with
  | some e => simp [unquote, hbq, unescape, lookup_shorts hs]
  | none =>
    dsimp only
    split
    · rename_i hc
      have hu : (shorts.map Prod.swap).lookup 'u' = none := by decide
      have hvalue : Char.ofNat (16 * (c.toNat / 16) + c.toNat % 16) = c := by
        rw [Nat.div_add_mod]
        exact Char.ofNat_toNat c
      simp [unquote, hbq, unescape, hu, hexValue_hexDigit (Nat.mod_lt _ (by decide : 0 < 16)),
        hexValue_hexDigit (by omega : c.toNat / 16 < 16), hvalue]
    · have hq : c ≠ quote := by rintro rfl; cases hs
      have hb : c ≠ backslash := by rintro rfl; cases hs
      simp [unquote, hq, hb]

theorem unquote_escape (t : List Char) : ∀ (s : List Char) (n : Nat), s.length < n →
    unquote n (s.flatMap escapeChar ++ quote :: t) = some (s, t)
  | [], n, h => by
    obtain ⟨n, rfl⟩ := Nat.exists_eq_succ_of_ne_zero (Nat.ne_of_gt h)
    simp [unquote]
  | c :: s, n, h => by
    obtain ⟨n, rfl⟩ := Nat.exists_eq_succ_of_ne_zero (Nat.ne_of_gt (Nat.zero_lt_of_lt h))
    rw [List.flatMap_cons, List.append_assoc, unquote_escapeChar, unquote_escape t s n (by simpa using h)]
    rfl

theorem length_le_escape : ∀ s : List Char, s.length ≤ (s.flatMap escapeChar).length
  | [] => Nat.le_refl _
  | c :: s => by
    have hc : 1 ≤ (escapeChar c).length := by
      unfold escapeChar
      split
      · simp
      · split <;> simp
    have ih := length_le_escape s
    rw [List.flatMap_cons, List.length_append, List.length_cons]
    omega

/-! ## Objects -/

def strip (lit s : List Char) : Option (List Char) := if lit.isPrefixOf s then some (s.drop lit.length) else none

theorem strip_append (lit s : List Char) : strip lit (lit ++ s) = some s := by
  have hpre : lit.isPrefixOf (lit ++ s) = true := List.isPrefixOf_iff_prefix.2 (List.prefix_append lit s)
  rw [strip, if_pos hpre, List.drop_left]

def indent : List Char := [' ', ' ', ' ', ' ', quote]

def colon : List Char := [':', ' ', quote]

def printItem (i : List Char × List Char) : List Char :=
  indent ++ (i.1.flatMap escapeChar ++ quote :: (colon ++ (i.2.flatMap escapeChar ++ [quote])))

def readItem (s : List Char) : Option ((List Char × List Char) × List Char) := do
  let s ← strip indent s
  let (k, s) ← unquote s.length s
  let s ← strip colon s
  let (v, s) ← unquote s.length s
  pure ((k, v), s)

theorem readItem_printItem (i : List Char × List Char) (t : List Char) : readItem (printItem i ++ t) = some (i, t) := by
  have hread : ∀ s t : List Char, unquote (s.flatMap escapeChar ++ quote :: t).length
      (s.flatMap escapeChar ++ quote :: t) = some (s, t) := fun s t => by
    have hlen := length_le_escape s
    exact unquote_escape t s _ (by rw [List.length_append, List.length_cons]; omega)
  have htext : printItem i ++ t = indent ++ (i.1.flatMap escapeChar ++ quote ::
      (colon ++ (i.2.flatMap escapeChar ++ quote :: t))) := by simp [printItem]
  simp only [readItem, htext, strip_append, hread, Option.bind_eq_bind, Option.bind_some]
  rfl

def close : List Char := [Char.ofNat 10, Char.ofNat 125]

def comma : List Char := [',', Char.ofNat 10]

def printItems : List (List Char × List Char) → List Char
  | []            => []
  | [i]           => printItem i ++ close
  | i :: j :: rest => printItem i ++ (comma ++ printItems (j :: rest))

def readItems : Nat → List Char → Option (List (List Char × List Char))
  | 0, _     => none
  | n + 1, s =>
    match readItem s with
    | none        => none
    | some (i, s) =>
      match strip comma s with
      | some s => (readItems n s).map (i :: ·)
      | none   => if s = close then some [i] else none

theorem readItems_printItems : ∀ (items : List (List Char × List Char)) (n : Nat), items ≠ [] → items.length ≤ n →
    readItems n (printItems items) = some items
  | [], _, h, _ => absurd rfl h
  | [i], n, _, hn => by
    obtain ⟨n, rfl⟩ := Nat.exists_eq_succ_of_ne_zero (Nat.ne_of_gt hn)
    rw [printItems, readItems, readItem_printItem]
    rfl
  | i :: j :: rest, n, _, hn => by
    obtain ⟨n, rfl⟩ := Nat.exists_eq_succ_of_ne_zero (Nat.ne_of_gt (Nat.zero_lt_of_lt hn))
    rw [printItems, readItems, readItem_printItem]
    simp only [strip_append]
    rw [readItems_printItems (j :: rest) n (by simp) (by simpa using hn)]
    rfl

def empty : List Char := [Char.ofNat 123, Char.ofNat 125]

def head : List Char := [Char.ofNat 123, Char.ofNat 10]

def print (d : Dict (List Char) (List Char)) : List Char :=
  if d.items = [] then empty else head ++ printItems d.items

def parse (s : List Char) : Option (Dict (List Char) (List Char)) :=
  if s = empty then some Dict.empty
  else match strip head s with
    | none   => none
    | some s =>
      match readItems s.length s with
      | none       => none
      | some items => if h : (items.map Prod.fst).Nodup then some ⟨items, h⟩ else none

theorem length_le_printItems : ∀ items : List (List Char × List Char), items.length ≤ (printItems items).length
  | [] => Nat.le_refl _
  | [i] => by simp [printItems, close]
  | i :: j :: rest => by
    have ih := length_le_printItems (j :: rest)
    have hcomma : comma.length = 2 := rfl
    simp only [printItems, List.length_append, hcomma, List.length_cons] at ih ⊢
    omega

theorem parse_print (d : Dict (List Char) (List Char)) : parse (print d) = some d := by
  unfold print
  by_cases hd : d.items = []
  · rw [if_pos hd]
    exact congrArg some (Dict.ext hd.symm)
  · have hne : head ++ printItems d.items ≠ empty := by simp [head, empty]
    rw [if_neg hd, parse, if_neg hne, strip_append]
    dsimp only
    rw [readItems_printItems d.items _ hd (length_le_printItems d.items)]
    exact dif_pos d.nodup

end JsonObject
