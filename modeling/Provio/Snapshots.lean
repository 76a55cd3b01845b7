import Mathlib.Data.Finset.Card
/-!
# Snapshots — a growing set that is saved every `p` additions

A state counts the additions and has the last set saved.  After any run what is saved is the set as it was at the last
multiple of `p` (`Saved`), so that fewer than `p` elements, all of them added since, are missing from it.
-/
namespace Snapshots

variable {α : Type} [DecidableEq α]

structure State (α : Type) where
  count : Nat
  held  : Finset α
  saved : Option (Finset α)

/-- A step adds an element and counts it, saving the set at a multiple of `p`, or counts nothing.  Elements may come
uncounted only while the count is zero. -/
inductive Step (p : Nat) (s s' : State α) : Prop where
  | idle (count : s'.count = s.count) (grows : s.held ⊆ s'.held) (same : 0 < s.count → s'.held = s.held)
      (saved : s'.saved = s.saved)
  | add (count : s'.count = s.count + 1) (grows : s.held ⊆ s'.held)
      (one : 0 < s.count → ∃ a, s'.held = insert a s.held)
      (saved : s'.saved = if (s.count + 1) % p = 0 then some s'.held else s.saved)

/-- **What is saved at a state is the set at the last multiple of `p`** among the states `T`. -/
structure Saved (p : Nat) (T : List (State α)) (s : State α) (file : Finset α) : Prop where
  saved  : s.saved = some file
  subset : file ⊆ s.held
  lost   : (s.held \ file).card ≤ s.count % p
  value  : ∀ r ∈ T, r.count = s.count / p * p → r.held = file
  older  : ∀ r ∈ T, r.count ≤ s.count / p * p → r.held ⊆ file
  taken  : ∃ r ∈ T, r.count = s.count / p * p

/-- The invariant of a run that went through the states `T` and is at `s`. -/
structure Kept (p : Nat) (T : List (State α)) (s : State α) : Prop where
  counts : ∀ r ∈ T, r.count ≤ s.count
  grown  : ∀ r ∈ T, r.held ⊆ s.held
  same   : ∀ r ∈ T, 0 < r.count → r.count = s.count → r.held = s.held
  now    : p ≤ s.count → ∃ file, Saved p T s file
  before : ∀ r ∈ T, p ≤ r.count → ∃ file, Saved p T r file

section Saved

variable {p : Nat} {T : List (State α)} {s r : State α} {file : Finset α}

theorem Saved.whole (h : Saved p T s file) (hs : s.count ≤ s.count / p * p) : s.held = file := by
  have hmod : s.count % p = 0 := by
    have := Nat.div_add_mod' s.count p
    omega
  have hlost := h.lost
  rw [hmod, Nat.le_zero, Finset.card_eq_zero, Finset.sdiff_eq_empty_iff_subset] at hlost
  exact hlost.antisymm h.subset

omit [DecidableEq α] in
theorem forall_mem_snoc {P : State α → Prop} : (∀ q ∈ T ++ [r], P q) ↔ (∀ q ∈ T, P q) ∧ P r := by
  rw [List.forall_mem_append, List.forall_mem_singleton]

theorem Saved.extend (h : Saved p T s file) (hr : r.count ≤ s.count / p * p → r.held = file) :
    Saved p (T ++ [r]) s file := by
  obtain ⟨q, hq, hcount⟩ := h.taken
  exact ⟨h.saved, h.subset, h.lost, forall_mem_snoc.2 ⟨h.value, fun hc => hr hc.le⟩,
    forall_mem_snoc.2 ⟨h.older, fun hc => (hr hc).subset⟩, q, List.mem_append_left _ hq, hcount⟩

end Saved

section Kept

variable {p : Nat} {T : List (State α)} {s s' : State α}

theorem kept_start (hs : s.count = 0) (hp : 0 < p) : Kept p [] s :=
  ⟨List.forall_mem_nil _, List.forall_mem_nil _, List.forall_mem_nil _, fun h => absurd h (by omega),
    List.forall_mem_nil _⟩

theorem Kept.idle (h : Kept p T s) (hp : 0 < p) (count : s'.count = s.count) (grows : s.held ⊆ s'.held)
    (same : 0 < s.count → s'.held = s.held) (saved : s'.saved = s.saved) : Kept p (T ++ [s']) s' := by
  have now : p ≤ s'.count → ∃ file, Saved p (T ++ [s']) s' file := fun hle => by
    obtain ⟨file, hfile⟩ := h.now (count ▸ hle)
    have hheld := same (by omega)
    have hnow : Saved p T s' file := by
      obtain ⟨h₁, h₂, h₃, h₄, h₅, h₆⟩ := hfile
      constructor <;> simp only [saved, hheld, count] <;> assumption
    exact ⟨file, hnow.extend fun hc => hnow.whole hc⟩
  refine ⟨?_, ?_, ?_, now, forall_mem_snoc.2 ⟨fun r hr hle => ?_, now⟩⟩
  · exact forall_mem_snoc.2 ⟨fun r hr => (h.counts r hr).trans count.ge, le_rfl⟩
  · exact forall_mem_snoc.2 ⟨fun r hr => (h.grown r hr).trans grows, Finset.Subset.refl _⟩
  · refine forall_mem_snoc.2 ⟨fun r hr hpos hcount => ?_, fun _ _ => rfl⟩
    rw [same (by omega)]
    exact h.same r hr hpos (hcount.trans count)
  · -- a state that lies at a multiple of `p` is then at the count of `s`
    obtain ⟨file, hfile⟩ := h.before r hr hle
    refine ⟨file, hfile.extend fun hc => ?_⟩
    have hrs := h.counts r hr
    have hdiv := Nat.div_mul_le_self r.count p
    rw [same (by omega), ← h.same r hr (by omega) (by omega)]
    exact hfile.whole (by omega)

theorem card_insert_sdiff_le (a : α) (held file : Finset α) :
    (insert a held \ file).card ≤ (held \ file).card + 1 := by
  have hsubset : insert a held \ file ⊆ insert a (held \ file) := fun x hx => by
    rw [Finset.mem_sdiff, Finset.mem_insert] at hx
    rw [Finset.mem_insert, Finset.mem_sdiff]
    exact hx.1.imp_right fun h => ⟨h, hx.2⟩
  exact (Finset.card_le_card hsubset).trans (Finset.card_insert_le _ _)

theorem Kept.saves (h : Kept p T s) (count : s'.count = s.count + 1) (grows : s.held ⊆ s'.held)
    (hdue : (s.count + 1) % p = 0) (saved : s'.saved = some s'.held) : Saved p (T ++ [s']) s' s'.held := by
  have hmul : s'.count / p * p = s'.count := by
    have := Nat.div_add_mod' s'.count p
    rw [count] at this ⊢
    omega
  refine ⟨saved, Finset.Subset.refl _, by simp, ?_, ?_, s', by simp, hmul.symm⟩
  · refine forall_mem_snoc.2 ⟨fun r hr hc => ?_, fun _ => rfl⟩
    have := h.counts r hr
    omega
  · exact forall_mem_snoc.2 ⟨fun r hr _ => (h.grown r hr).trans grows, fun _ => Finset.Subset.refl _⟩

theorem Kept.misses (h : Kept p T s) (hp : 0 < p) (count : s'.count = s.count + 1) (grows : s.held ⊆ s'.held)
    (one : 0 < s.count → ∃ a, s'.held = insert a s.held) (hdue : ¬ (s.count + 1) % p = 0) (saved : s'.saved = s.saved)
    (hle : p ≤ s'.count) : ∃ file, Saved p (T ++ [s']) s' file := by
  have hle' : p ≤ s.count := by
    rcases Nat.lt_or_ge s.count p with hlt | hge
    · have heq : s.count + 1 = p := by omega
      rw [heq] at hdue
      exact absurd (Nat.mod_self p) hdue
    · exact hge
  obtain ⟨file, hfile⟩ := h.now hle'
  obtain ⟨a, ha⟩ := one (by omega)
  have hdiv : s'.count / p = s.count / p := by
    rw [count]
    exact Nat.succ_div_of_not_dvd fun hd => hdue (Nat.mod_eq_zero_of_dvd hd)
  have hmod : s'.count % p = s.count % p + 1 := by
    have h₁ := Nat.div_add_mod' s.count p
    have h₂ := Nat.div_add_mod' s'.count p
    rw [hdiv] at h₂
    omega
  have hnow : Saved p T s' file := by
    obtain ⟨h₁, h₂, h₃, h₄, h₅, h₆⟩ := hfile
    refine ⟨saved.trans h₁, h₂.trans grows, ?_, hdiv ▸ h₄, hdiv ▸ h₅, hdiv ▸ h₆⟩
    rw [hmod, ha]
    exact (card_insert_sdiff_le ..).trans (Nat.succ_le_succ h₃)
  refine ⟨file, hnow.extend fun hc => ?_⟩
  have := Nat.div_mul_le_self s.count p
  rw [hdiv] at hc
  omega

theorem Kept.add (h : Kept p T s) (hp : 0 < p) (count : s'.count = s.count + 1) (grows : s.held ⊆ s'.held)
    (one : 0 < s.count → ∃ a, s'.held = insert a s.held)
    (saved : s'.saved = if (s.count + 1) % p = 0 then some s'.held else s.saved) : Kept p (T ++ [s']) s' := by
  have now : p ≤ s'.count → ∃ file, Saved p (T ++ [s']) s' file := fun hle => by
    split at saved
    · rename_i hdue
      exact ⟨s'.held, h.saves count grows hdue saved⟩
    · rename_i hdue
      exact h.misses hp count grows one hdue saved hle
  refine ⟨?_, ?_, ?_, now, forall_mem_snoc.2 ⟨fun r hr hle => ?_, now⟩⟩
  · exact forall_mem_snoc.2 ⟨fun r hr => (h.counts r hr).trans (by omega), le_rfl⟩
  · exact forall_mem_snoc.2 ⟨fun r hr => (h.grown r hr).trans grows, Finset.Subset.refl _⟩
  · refine forall_mem_snoc.2 ⟨fun r hr _ hcount => ?_, fun _ _ => rfl⟩
    have := h.counts r hr
    omega
  · -- the multiple of `p` at or below a count that was reached lies below this one
    obtain ⟨file, hfile⟩ := h.before r hr hle
    refine ⟨file, hfile.extend fun hc => ?_⟩
    have := h.counts r hr
    have := Nat.div_mul_le_self r.count p
    omega

theorem Kept.step (h : Kept p T s) (hp : 0 < p) (hs : Step p s s') : Kept p (T ++ [s']) s' := by
  cases hs with
  | idle count grows same saved => exact h.idle hp count grows same saved
  | add count grows one saved => exact h.add hp count grows one saved

end Kept

end Snapshots
