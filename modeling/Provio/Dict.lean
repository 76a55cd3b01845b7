import Mathlib.Data.List.Nodup
/-!
# Dict — dictionaries that keep their keys in the order they came

Each key stands once (`nodup`); setting a key that is there changes its value in place, a new key goes to the end.
Updating by another dictionary sets its items one after the other, so that its values win (`get?_update`), and updating
by the same one again changes nothing (`update_self`).  Dictionaries merged in a row hold, for each key, the value of
the last that has it (`get?_merge`).
-/
namespace Ordered

structure Dict (κ ν : Type) where
  items : List (κ × ν)
  nodup : (items.map Prod.fst).Nodup

namespace Dict

variable {κ ν : Type}

@[ext] theorem ext {d e : Dict κ ν} (h : d.items = e.items) : d = e := by
  cases d; cases e; cases h; rfl

def empty : Dict κ ν := ⟨[], List.nodup_nil⟩

def keys (d : Dict κ ν) : List κ := d.items.map Prod.fst

instance : Membership κ (Dict κ ν) := ⟨fun d k => k ∈ d.keys⟩

theorem mem_def {d : Dict κ ν} {k : κ} : k ∈ d ↔ k ∈ d.items.map Prod.fst := Iff.rfl

variable [DecidableEq κ]

instance (d : Dict κ ν) (k : κ) : Decidable (k ∈ d) := inferInstanceAs (Decidable (k ∈ d.keys))

def get? (d : Dict κ ν) (k : κ) : Option ν := d.items.lookup k

def setItem (k : κ) (v : ν) : List (κ × ν) → List (κ × ν)
  | []        => [(k, v)]
  | i :: rest => if i.1 = k then (k, v) :: rest else i :: setItem k v rest

theorem setItem_keys (k : κ) (v : ν) : ∀ items : List (κ × ν), (setItem k v items).map Prod.fst =
    if k ∈ items.map Prod.fst then items.map Prod.fst else items.map Prod.fst ++ [k]
  | [] => by simp [setItem]
  | i :: rest => by
    by_cases hi : i.1 = k
    · simp [setItem, hi]
    · have ih := setItem_keys k v rest
      simp only [setItem, hi, if_false, List.map_cons, ih, List.mem_cons, Ne.symm hi, false_or]
      split <;> rfl

def set (d : Dict κ ν) (k : κ) (v : ν) : Dict κ ν :=
  ⟨setItem k v d.items, by
    rw [setItem_keys]
    split
    · exact d.nodup
    · rename_i h
      exact d.nodup.append (List.nodup_singleton k) (by simpa using h)⟩

def update (d e : Dict κ ν) : Dict κ ν := e.items.foldl (fun d i => d.set i.1 i.2) d

def merge (ds : List (Dict κ ν)) : Dict κ ν := ds.foldl update empty

/-! ## Keys and values -/

@[simp] theorem get?_empty (k : κ) : (empty : Dict κ ν).get? k = none := rfl

theorem mem_iff_isSome {d : Dict κ ν} {k : κ} : k ∈ d ↔ (d.get? k).isSome = true := by
  simp [get?, mem_def]

theorem mem_iff_exists {d : Dict κ ν} {k : κ} : k ∈ d ↔ ∃ v, d.get? k = some v := by
  rw [mem_iff_isSome, Option.isSome_iff_exists]

theorem get?_eq_none {d : Dict κ ν} {k : κ} : d.get? k = none ↔ k ∉ d := by
  rw [mem_iff_isSome]
  cases d.get? k <;> simp

theorem lookup_of_mem : ∀ {items : List (κ × ν)}, (items.map Prod.fst).Nodup → ∀ {k : κ} {v : ν}, (k, v) ∈ items →
    items.lookup k = some v
  | [], _, _, _, h => by cases h
  | i :: rest, hnd, k, v, h => by
    obtain ⟨hi, hnd⟩ := List.nodup_cons.1 hnd
    rcases List.mem_cons.1 h with rfl | h
    · exact List.lookup_cons_self
    · have hne : k ≠ i.1 := fun he => hi (he ▸ List.mem_map_of_mem h)
      rw [List.lookup_cons, beq_false_of_ne hne]
      exact lookup_of_mem hnd h

theorem get?_eq_some_iff {d : Dict κ ν} {k : κ} {v : ν} : d.get? k = some v ↔ (k, v) ∈ d.items := by
  constructor
  · intro h
    obtain ⟨before, after, hitems, -⟩ := List.lookup_eq_some_iff.1 h
    rw [hitems]
    simp
  · exact lookup_of_mem d.nodup

theorem lookup_setItem (k : κ) (v : ν) (k' : κ) : ∀ items : List (κ × ν),
    (setItem k v items).lookup k' = if k' = k then some v else items.lookup k'
  | [] => by
    by_cases h : k' = k <;> simp [setItem, h]
  | (a, w) :: rest => by
    by_cases hi : a = k
    · subst hi
      by_cases h : k' = a
      · simp [setItem, h]
      · simp [setItem, h, List.lookup_cons, beq_false_of_ne h]
    · by_cases h : k' = a
      · simp [setItem, hi, h]
      · simp [setItem, hi, List.lookup_cons, beq_false_of_ne h, lookup_setItem k v k' rest]

@[simp] theorem get?_set (d : Dict κ ν) (k : κ) (v : ν) (k' : κ) :
    (d.set k v).get? k' = if k' = k then some v else d.get? k' :=
  lookup_setItem k v k' d.items

@[simp] theorem mem_set {d : Dict κ ν} {k k' : κ} {v : ν} : k' ∈ d.set k v ↔ k' = k ∨ k' ∈ d := by
  rw [mem_iff_isSome, mem_iff_isSome, get?_set]
  split <;> simp [*]

theorem set_of_get? {d : Dict κ ν} {k : κ} {v : ν} (h : d.get? k = some v) : d.set k v = d := by
  have hitem : ∀ items : List (κ × ν), items.lookup k = some v → setItem k v items = items := by
    intro items
    induction items with
    | nil => intro h; cases h
    | cons i rest ih =>
      intro h
      unfold setItem
      by_cases hi : i.1 = k
      · subst hi
        rw [List.lookup_cons, beq_self_eq_true] at h
        rw [if_pos rfl, ← Option.some.inj h]
      · rw [List.lookup_cons, beq_false_of_ne (Ne.symm hi)] at h
        rw [if_neg hi, ih h]
  exact ext (hitem d.items h)

/-! ## Updates -/

theorem get?_foldl_set (k : κ) : ∀ (items : List (κ × ν)) (d : Dict κ ν), (items.map Prod.fst).Nodup →
    (items.foldl (fun d i => d.set i.1 i.2) d).get? k = (items.lookup k).or (d.get? k)
  | [], _, _ => rfl
  | i :: rest, d, hnd => by
    obtain ⟨hi, hnd⟩ := List.nodup_cons.1 hnd
    rw [List.foldl_cons, get?_foldl_set k rest _ hnd, get?_set, List.lookup_cons]
    by_cases hk : k = i.1
    · subst hk
      have hrest : rest.lookup i.1 = none := by
        rw [List.lookup_eq_none_iff]
        intro j hj
        exact bne_iff_ne.2 (fun he : i.1 = j.1 => hi (he ▸ List.mem_map_of_mem hj))
      simp [hrest]
    · simp [hk, beq_false_of_ne hk]

@[simp] theorem get?_update (d e : Dict κ ν) (k : κ) : (d.update e).get? k = (e.get? k).or (d.get? k) :=
  get?_foldl_set k e.items d e.nodup

theorem foldl_set_eq_self : ∀ {items : List (κ × ν)} {d : Dict κ ν}, (∀ i ∈ items, d.get? i.1 = some i.2) →
    items.foldl (fun d i => d.set i.1 i.2) d = d
  | [], _, _ => rfl
  | i :: rest, d, h => by
    rw [List.foldl_cons, set_of_get? (h i (List.mem_cons_self ..))]
    exact foldl_set_eq_self (fun j hj => h j (List.mem_cons_of_mem _ hj))

theorem update_self (d e : Dict κ ν) : (d.update e).update e = d.update e :=
  foldl_set_eq_self (fun i hi => by
    rw [get?_update, get?_eq_some_iff.2 (show (i.1, i.2) ∈ e.items from hi)]
    rfl)

theorem get?_foldl_update (k : κ) : ∀ (ds : List (Dict κ ν)) (d : Dict κ ν),
    (ds.foldl update d).get? k = (ds.reverse.findSome? (·.get? k)).or (d.get? k)
  | [], _ => rfl
  | e :: ds, d => by
    have hlast : [e].findSome? (·.get? k) = e.get? k := by cases h : e.get? k <;> simp [h]
    rw [List.foldl_cons, get?_foldl_update k ds, get?_update, List.reverse_cons, List.findSome?_append, hlast,
      Option.or_assoc]

theorem get?_merge (ds : List (Dict κ ν)) (k : κ) : (merge ds).get? k = ds.reverse.findSome? (·.get? k) := by
  rw [merge, get?_foldl_update, get?_empty, Option.or_none]

/-- **If no two of them give one key two values, the merge has the items of all.** -/
theorem get?_merge_iff {ds : List (Dict κ ν)}
    (hagree : ∀ d ∈ ds, ∀ e ∈ ds, ∀ k v w, d.get? k = some v → e.get? k = some w → v = w) {k : κ} {v : ν} :
    (merge ds).get? k = some v ↔ ∃ d ∈ ds, d.get? k = some v := by
  rw [get?_merge]
  constructor
  · intro h
    obtain ⟨d, hd, hk⟩ := List.exists_of_findSome?_eq_some h
    exact ⟨d, List.mem_reverse.1 hd, hk⟩
  · rintro ⟨d, hd, hk⟩
    cases hfind : ds.reverse.findSome? (·.get? k) with
    | none => exact absurd hk (by rw [List.findSome?_eq_none_iff.1 hfind d (List.mem_reverse.2 hd)]; simp)
    | some w =>
      obtain ⟨e, he, hw⟩ := List.exists_of_findSome?_eq_some hfind
      rw [hagree d hd e (List.mem_reverse.1 he) k v w hk hw]

end Dict

end Ordered
