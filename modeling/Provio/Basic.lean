import Mathlib.Logic.Function.Basic
/-!
# Basic — C strings and faults

What the C code means where it has no defined result: an operation that stops the process or leaves the language's
rules ends in a `Fault`, and every model function that can do so returns `Except Fault`.
-/
namespace Provio

/-- A C string: its bytes, without the terminator. -/
abbrev CStr := List UInt8

/-- Checked byte by byte of the string, not over all 256 bytes. -/
instance {p : UInt8 → Prop} [DecidablePred p] (s : CStr) : Decidable (∀ c ∈ s, p c) := List.decidableBAll p s

/-- The bytes of an ASCII literal. -/
def cstr (s : String) : CStr := s.toList.map (fun c => UInt8.ofNat c.toNat)

inductive Fault where
  /-- An `assert` failed. -/
  | assert
  /-- A NULL pointer was read through. -/
  | null
  /-- Memory that is not allocated, or not any more, was read. -/
  | freed
  /-- An array was accessed past its end. -/
  | bounds
  /-- A loop was still running when its fuel ran out. -/
  | spin
deriving DecidableEq, Repr

def cAssert (b : Bool) : Except Fault Unit := if b then .ok () else .error .assert

@[simp] theorem cAssert_eq_ok {b : Bool} {u : Unit} : cAssert b = .ok u ↔ b = true := by
  cases b <;> simp [cAssert]

/-- **A bind that succeeded, taken apart.** -/
theorem bind_eq_ok {ε α β : Type} {x : Except ε α} {f : α → Except ε β} {b : β} :
    (x >>= f) = .ok b ↔ ∃ a, x = .ok a ∧ f a = .ok b := by
  cases x with
  | error e => simp [bind, Except.bind]
  | ok a => simp [bind, Except.bind]

@[simp] theorem ok_bind {ε α β : Type} (a : α) (f : α → Except ε β) : (Except.ok a >>= f) = f a := rfl

@[simp] theorem error_bind {ε α β : Type} (e : ε) (f : α → Except ε β) :
    ((Except.error e : Except ε α) >>= f) = .error e := rfl

end Provio
