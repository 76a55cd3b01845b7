import Mathlib.Data.List.Count
import Mathlib.Data.List.Perm.Basic
import Mathlib.Logic.Function.Basic
/-!
# Objects — a heap of whole objects and its inventory

A heap gives every object an address of its own and no address twice.  Reading, writing or freeing an address that holds
nothing fails.  An inventory lists what a heap holds (`Inventory`), in any order: whoever can say for each of its entries
who owns it has lost no object, and whoever frees only what is in it frees nothing twice.  An address that was freed stays
empty for good (`Heap.Stale`).
-/
namespace Objects

structure Heap (β : Type) where
  mem  : Nat → Option β
  next : Nat

variable {β : Type}

namespace Heap

def empty : Heap β := ⟨fun _ => none, 0⟩

def alloc (h : Heap β) (b : β) : Nat × Heap β := (h.next, ⟨Function.update h.mem h.next (some b), h.next + 1⟩)

def read (h : Heap β) (a : Nat) : Option β := h.mem a

def write (h : Heap β) (a : Nat) (b : β) : Option (Heap β) :=
  (h.mem a).map fun _ => ⟨Function.update h.mem a (some b), h.next⟩

def free (h : Heap β) (a : Nat) : Option (Heap β) :=
  (h.mem a).map fun _ => ⟨Function.update h.mem a none, h.next⟩

end Heap

/-- What a heap holds, each address once. -/
structure Inventory (h : Heap β) (items : List (Nat × β)) : Prop where
  nodup : (items.map Prod.fst).Nodup
  holds : ∀ a b, h.read a = some b ↔ (a, b) ∈ items
  below : ∀ x ∈ items, x.1 < h.next

namespace Inventory

variable {h : Heap β} {items items' : List (Nat × β)} {a : Nat} {b b' : β}

theorem empty : Inventory (.empty : Heap β) [] := by
  refine ⟨List.nodup_nil, fun a b => ?_, fun x hx => by cases hx⟩
  simp [Heap.read, Heap.empty]

theorem perm (hi : Inventory h items) (hp : items.Perm items') : Inventory h items' :=
  ⟨(hp.map Prod.fst).nodup_iff.1 hi.nodup, fun a b => (hi.holds a b).trans hp.mem_iff,
    fun x hx => hi.below x (hp.mem_iff.2 hx)⟩

theorem read (hi : Inventory h items) (hmem : (a, b) ∈ items) : h.read a = some b := (hi.holds a b).2 hmem

theorem next_notMem (hi : Inventory h items) : h.next ∉ items.map Prod.fst := by
  intro hmem
  obtain ⟨x, hx, heq⟩ := List.mem_map.1 hmem
  exact absurd (hi.below x hx) (by omega)

theorem alloc (hi : Inventory h items) (b : β) : Inventory (h.alloc b).2 (((h.alloc b).1, b) :: items) := by
  refine ⟨List.nodup_cons.2 ⟨hi.next_notMem, hi.nodup⟩, fun a' b' => ?_, fun x hx => ?_⟩
  · show Function.update h.mem h.next (some b) a' = some b' ↔ _
    rw [List.mem_cons, ← hi.holds]
    by_cases ha : a' = h.next
    · subst ha
      have hnone : h.read h.next ≠ some b' := fun hr =>
        hi.next_notMem (List.mem_map.2 ⟨_, (hi.holds _ _).1 hr, rfl⟩)
      simp [Heap.alloc, hnone, eq_comm]
    · simp [Heap.alloc, Heap.read, ha]
  · rcases List.mem_cons.1 hx with rfl | hx
    · exact Nat.lt_succ_self _
    · exact Nat.lt_succ_of_lt (hi.below x hx)

theorem free (hi : Inventory h ((a, b) :: items)) : ∃ h', h.free a = some h' ∧ Inventory h' items := by
  have hread := hi.read (List.mem_cons_self ..)
  refine ⟨⟨Function.update h.mem a none, h.next⟩, by rw [Heap.free, show h.mem a = some b from hread]; rfl,
    (List.nodup_cons.1 hi.nodup).2, fun a' b' => ?_, fun x hx => hi.below x (List.mem_cons_of_mem _ hx)⟩
  show Function.update h.mem a none a' = some b' ↔ _
  by_cases ha : a' = a
  · subst ha
    have hnot : (a', b') ∉ items := fun hmem =>
      (List.nodup_cons.1 hi.nodup).1 (List.mem_map.2 ⟨_, hmem, rfl⟩)
    simp [hnot]
  · rw [Function.update_of_ne ha, show h.mem a' = h.read a' from rfl, hi.holds, List.mem_cons]
    simp [ha]

theorem write (hi : Inventory h ((a, b) :: items)) (b' : β) :
    ∃ h', h.write a b' = some h' ∧ Inventory h' ((a, b') :: items) := by
  have hread := hi.read (List.mem_cons_self ..)
  refine ⟨⟨Function.update h.mem a (some b'), h.next⟩, by rw [Heap.write, show h.mem a = some b from hread]; rfl,
    hi.nodup, fun a' c => ?_, fun x hx => ?_⟩
  · show Function.update h.mem a (some b') a' = some c ↔ _
    by_cases ha : a' = a
    · subst ha
      have hnot : (a', c) ∉ items := fun hmem =>
        (List.nodup_cons.1 hi.nodup).1 (List.mem_map.2 ⟨_, hmem, rfl⟩)
      simp [hnot, eq_comm]
    · rw [Function.update_of_ne ha, show h.mem a' = h.read a' from rfl, hi.holds, List.mem_cons, List.mem_cons]
      simp [ha]
  · rcases List.mem_cons.1 hx with rfl | hx
    · exact hi.below (a, b) (List.mem_cons_self ..)
    · exact hi.below x (List.mem_cons_of_mem _ hx)

theorem writeAt {items₁ items₂ : List (Nat × β)} (hi : Inventory h (items₁ ++ (a, b) :: items₂)) (b' : β) :
    ∃ h', h.write a b' = some h' ∧ Inventory h' (items₁ ++ (a, b') :: items₂) := by
  obtain ⟨h', hw, hi'⟩ := (hi.perm List.perm_middle).write b'
  exact ⟨h', hw, hi'.perm List.perm_middle.symm⟩

theorem freeAt {items₁ items₂ : List (Nat × β)} (hi : Inventory h (items₁ ++ (a, b) :: items₂)) :
    ∃ h', h.free a = some h' ∧ Inventory h' (items₁ ++ items₂) :=
  (hi.perm List.perm_middle).free

end Inventory

/-! ## Stale addresses -/

namespace Heap

/-- Given out before, and holding nothing any more. -/
def Stale (h : Heap β) (a : Nat) : Prop := h.read a = none ∧ a < h.next

variable {h h' : Heap β} {a p : Nat}

theorem Stale.alloc (hs : h.Stale a) (b : β) : (h.alloc b).2.Stale a := by
  refine ⟨?_, Nat.lt_succ_of_lt hs.2⟩
  show Function.update h.mem h.next (some b) a = none
  rw [Function.update_of_ne (Nat.ne_of_lt hs.2)]
  exact hs.1

theorem Stale.free (hs : h.Stale a) (hf : h.free p = some h') : h'.Stale a := by
  obtain ⟨b, -, rfl⟩ := Option.map_eq_some_iff.1 hf
  refine ⟨?_, hs.2⟩
  show Function.update h.mem p none a = none
  by_cases ha : a = p
  · rw [ha, Function.update_self]
  · rw [Function.update_of_ne ha]
    exact hs.1

theorem Stale.not_free (hs : h.Stale a) : h.free a = none := by
  rw [Heap.free, show h.mem a = none from hs.1]
  rfl

theorem stale_of_free {b : β} {items : List (Nat × β)} (hi : Inventory h ((a, b) :: items)) (hf : h.free a = some h') :
    h'.Stale a := by
  obtain ⟨c, -, rfl⟩ := Option.map_eq_some_iff.1 hf
  exact ⟨Function.update_self .., hi.below (a, b) (List.mem_cons_self ..)⟩

end Heap

end Objects
