import Mathlib.Data.List.Basic
/-!
# Outward — computations that call something below them

A layer in the middle of a stack is judged by what it hands down as much as by what it returns.  A `Traced` computation
keeps the calls it made, in order, and what it came to; one that faults has made its calls all the same.  `Meets` is
the condition on the calls, the fault and the result together, and it has an exact rule for every way to build a
computation (`meets_bind`), so that what a caller needs of the layer below can be calculated backwards.
-/
namespace Outward

structure Traced (ι ε α : Type) where
  calls  : List ι
  result : Except ε α

variable {ι ε α β : Type}

namespace Traced

def call (c : ι) : Traced ι ε Unit := ⟨[c], .ok ()⟩

def quiet (r : Except ε α) : Traced ι ε α := ⟨[], r⟩

def stop (e : ε) : Traced ι ε α := quiet (.error e)

def andThen (m : Traced ι ε α) (f : α → Traced ι ε β) : Traced ι ε β :=
  match m.result with
  | .ok a    => ⟨m.calls ++ (f a).calls, (f a).result⟩
  | .error e => ⟨m.calls, .error e⟩

instance : Monad (Traced ι ε) where
  pure a := quiet (.ok a)
  bind   := andThen

/-- **Every call meets `P`, a fault meets `F` and a result meets `Q`.** -/
def Meets (m : Traced ι ε α) (P : ι → Prop) (F : ε → Prop) (Q : α → Prop) : Prop :=
  (∀ c ∈ m.calls, P c) ∧ match m.result with
    | .ok a    => Q a
    | .error e => F e

variable {P : ι → Prop} {F : ε → Prop} {Q : α → Prop}

@[simp] theorem meets_pure (a : α) : (pure a : Traced ι ε α).Meets P F Q ↔ Q a := by
  simp [Meets, Pure.pure, quiet]

@[simp] theorem meets_stop (e : ε) : (stop e : Traced ι ε α).Meets P F Q ↔ F e := by
  simp [Meets, stop, quiet]

@[simp] theorem meets_call (c : ι) {Q : Unit → Prop} : (call c : Traced ι ε Unit).Meets P F Q ↔ P c ∧ Q () := by
  simp [Meets, call]

@[simp] theorem meets_bind (m : Traced ι ε α) (f : α → Traced ι ε β) {Q : β → Prop} :
    (m >>= f).Meets P F Q ↔ m.Meets P F fun a => (f a).Meets P F Q := by
  obtain ⟨calls, result⟩ := m
  cases result with
  | error e => rfl
  | ok a =>
    show (∀ c ∈ calls ++ (f a).calls, P c) ∧ _ ↔ (∀ c ∈ calls, P c) ∧ (∀ c ∈ (f a).calls, P c) ∧ _
    rw [List.forall_mem_append, and_assoc]
    rfl

theorem Meets.mono {m : Traced ι ε α} {Q' : α → Prop} (h : m.Meets P F Q) (hQ : ∀ a, Q a → Q' a) : m.Meets P F Q' := by
  obtain ⟨calls, result⟩ := m
  cases result with
  | error e => exact h
  | ok a => exact ⟨h.1, hQ a h.2⟩

end Traced

end Outward
