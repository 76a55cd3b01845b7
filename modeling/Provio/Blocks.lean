import Mathlib.Data.List.Basic
/-!
# Blocks — a heap whose blocks can be outgrown, unset or freed

A heap is its blocks in the order they were allocated; a freed one stays as a hole, so no pointer is ever given twice.
A cell holds `none` until it is written.  Every access says how it strayed (`Stray`): through NULL, into a freed block,
outside the block, or over a cell that was never written.  A terminated string is read cell by cell up to `stop`
(`upTo`).
-/
namespace Blocks

inductive Stray where
  | null
  | freed
  | outside
  | unset
deriving DecidableEq, Repr

/-- NULL, or the start of a block. -/
abbrev Ptr := Option Nat

structure Heap (β : Type) where
  blocks : List (Option (List (Option β)))

variable {β : Type}

def Heap.cells (h : Heap β) : Ptr → Except Stray (List (Option β))
  | none   => .error .null
  | some p =>
    match h.blocks[p]? with
    | some (some cs) => .ok cs
    | _              => .error .freed

def Heap.malloc (h : Heap β) (n : Nat) : Heap β × Ptr :=
  (⟨h.blocks ++ [some (List.replicate n none)]⟩, some h.blocks.length)

/-- `free`, which leaves NULL alone. -/
def Heap.free (h : Heap β) : Ptr → Except Stray (Heap β)
  | none   => .ok h
  | some p =>
    match h.cells (some p) with
    | .error e => .error e
    | .ok _    => .ok ⟨h.blocks.set p none⟩

def Heap.write (h : Heap β) (p : Ptr) (i : Nat) (vs : List β) : Except Stray (Heap β) :=
  match h.cells p with
  | .error e => .error e
  | .ok cs   =>
    if i + vs.length ≤ cs.length then
      .ok ⟨h.blocks.set (p.getD 0) (some (cs.take i ++ vs.map some ++ cs.drop (i + vs.length)))⟩
    else .error .outside

section Strings

variable [DecidableEq β]

def upTo (stop : β) : List (Option β) → Except Stray (List β)
  | []          => .error .outside
  | none :: _   => .error .unset
  | some v :: cs =>
    if v = stop then .ok []
    else match upTo stop cs with
      | .error e => .error e
      | .ok s    => .ok (v :: s)

def Heap.string (stop : β) (h : Heap β) (p : Ptr) : Except Stray (List β) :=
  match h.cells p with
  | .error e => .error e
  | .ok cs   => upTo stop cs

/-- **A string ends at its first `stop`.** -/
theorem upTo_terminated (stop : β) (cs : List (Option β)) : ∀ s : List β,
    upTo stop (s.map some ++ some stop :: cs) = .ok (s.takeWhile (· ≠ stop))
  | [] => by simp [upTo]
  | v :: s => by
    rw [List.map_cons, List.cons_append, upTo]
    by_cases hv : v = stop
    · simp [hv]
    · rw [if_neg hv, upTo_terminated stop cs s]
      simp [hv]

/-- **A string that runs into an unset cell is not the cells before it.** -/
theorem upTo_unset (stop : β) (cs : List (Option β)) : ∀ s : List β, upTo stop (s.map some ++ none :: cs) ≠ .ok s
  | [] => by simp [upTo]
  | v :: s => by
    rw [List.map_cons, List.cons_append, upTo]
    by_cases hv : v = stop
    · simp [hv]
    · rw [if_neg hv]
      have ih := upTo_unset stop cs s
      cases hu : upTo stop (s.map some ++ none :: cs) with
      | error e => simp
      | ok t =>
        rw [hu] at ih
        simpa using ih

end Strings

/-! ## What an operation leaves -/

theorem cells_malloc (h : Heap β) (n : Nat) : (h.malloc n).1.cells (h.malloc n).2 = .ok (List.replicate n none) := by
  simp [Heap.malloc, Heap.cells]

theorem cells_lt {h : Heap β} {p : Nat} {cs : List (Option β)} (hp : h.cells (some p) = .ok cs) :
    p < h.blocks.length ∧ h.blocks[p]? = some (some cs) := by
  simp only [Heap.cells] at hp
  split at hp
  · rename_i cs' hget
    obtain rfl := Except.ok.inj hp
    exact ⟨(List.getElem?_eq_some_iff.1 hget).1, hget⟩
  · cases hp

theorem cells_malloc_of_cells {h : Heap β} {p : Ptr} {cs : List (Option β)} (hp : h.cells p = .ok cs) (n : Nat) :
    (h.malloc n).1.cells p = .ok cs ∧ p ≠ (h.malloc n).2 := by
  cases p with
  | none => cases hp
  | some p =>
    obtain ⟨hlt, hget⟩ := cells_lt hp
    refine ⟨?_, fun e => ?_⟩
    · simp [Heap.malloc, Heap.cells, List.getElem?_append_left hlt, hget]
    · have := Option.some.inj e
      omega

theorem cells_set_ne {h : Heap β} {p : Ptr} {q : Nat} (hpq : p ≠ some q) (b : Option (List (Option β))) :
    (⟨h.blocks.set q b⟩ : Heap β).cells p = h.cells p := by
  cases p with
  | none => rfl
  | some p =>
    have hne : q ≠ p := fun e => hpq (by rw [e])
    simp [Heap.cells, List.getElem?_set_ne hne]

theorem write_eq {h : Heap β} {p : Ptr} {cs : List (Option β)} (hp : h.cells p = .ok cs) (i : Nat) (vs : List β)
    (hfit : i + vs.length ≤ cs.length) :
    ∃ h', h.write p i vs = .ok h' ∧ h'.cells p = .ok (cs.take i ++ vs.map some ++ cs.drop (i + vs.length)) ∧
      ∀ q, q ≠ p → h'.cells q = h.cells q := by
  cases p with
  | none => cases hp
  | some p =>
    obtain ⟨hlt, -⟩ := cells_lt hp
    refine ⟨_, by rw [Heap.write, hp]; exact if_pos hfit, ?_, fun q hq => cells_set_ne hq _⟩
    simp [Heap.cells, hlt]

theorem write_outside {h : Heap β} {p : Ptr} {cs : List (Option β)} (hp : h.cells p = .ok cs) {i : Nat} {vs : List β}
    (hout : cs.length < i + vs.length) : h.write p i vs = .error .outside := by
  rw [Heap.write, hp]
  exact if_neg (by omega)

theorem free_eq {h : Heap β} {p : Ptr} {cs : List (Option β)} (hp : h.cells p = .ok cs) :
    ∃ h', h.free p = .ok h' ∧ h'.cells p = .error .freed ∧ ∀ q, q ≠ p → h'.cells q = h.cells q := by
  cases p with
  | none => cases hp
  | some p =>
    obtain ⟨hlt, -⟩ := cells_lt hp
    refine ⟨_, by rw [Heap.free, hp], ?_, fun q hq => cells_set_ne hq _⟩
    simp [Heap.cells, hlt]

section Strings

variable [DecidableEq β]

theorem string_of_cells (stop : β) {h : Heap β} {p : Ptr} {cs : List (Option β)} (hp : h.cells p = .ok cs) :
    h.string stop p = upTo stop cs := by
  rw [Heap.string, hp]

theorem string_of_error (stop : β) {h : Heap β} {p : Ptr} {e : Stray} (hp : h.cells p = .error e) :
    h.string stop p = .error e := by
  rw [Heap.string, hp]

/-- **A string written into a new block with its terminator is read back.** -/
theorem string_write (stop : β) (h : Heap β) {n : Nat} {s : List β} (hfit : s.length + 1 ≤ n) :
    ∃ h', (h.malloc n).1.write (h.malloc n).2 0 (s ++ [stop]) = .ok h' ∧
      h'.string stop (h.malloc n).2 = .ok (s.takeWhile (· ≠ stop)) ∧ (∃ cs, h'.cells (h.malloc n).2 = .ok cs) ∧
      ∀ q cs, h.cells q = .ok cs → h'.cells q = .ok cs := by
  obtain ⟨h', hw, hcells, hother⟩ := write_eq (cells_malloc h n) 0 (s ++ [stop]) (by simpa using hfit)
  refine ⟨h', hw, ?_, ⟨_, hcells⟩, fun q cs hq => ?_⟩
  · rw [string_of_cells stop hcells]
    simpa using upTo_terminated stop _ s
  · obtain ⟨hq', hne⟩ := cells_malloc_of_cells hq n
    rw [hother q hne, hq']

end Strings

end Blocks
