import Mathlib.Data.Set.Basic
/-!
# Signs — orders given by a three-way comparison

A comparison is an `Int` read by its sign alone.  `TotalOn` says that on a set the signs are those of a total order; two
elements are then the same to it when it gives 0.  The first of two comparisons that is not 0 (`first`) orders a set
exactly when the second orders every class that the first cannot tell apart (`first_totalOn_iff`).
-/
namespace Signs

variable {α β : Type}

structure TotalOn (cmp : α → α → Int) (S : Set α) : Prop where
  antisymm : ∀ a ∈ S, ∀ b ∈ S, (cmp a b < 0 ↔ 0 < cmp b a)
  trans    : ∀ a ∈ S, ∀ b ∈ S, ∀ c ∈ S, cmp a b ≤ 0 → cmp b c ≤ 0 → cmp a c ≤ 0

variable {cmp : α → α → Int} {S : Set α} {a b c : α}

theorem TotalOn.self (h : TotalOn cmp S) (ha : a ∈ S) : cmp a a = 0 := by
  have := h.antisymm a ha a ha
  omega

theorem TotalOn.zero_comm (h : TotalOn cmp S) (ha : a ∈ S) (hb : b ∈ S) (hab : cmp a b = 0) : cmp b a = 0 := by
  have := h.antisymm a ha b hb
  have := h.antisymm b hb a ha
  omega

theorem TotalOn.zero_trans (h : TotalOn cmp S) (ha : a ∈ S) (hb : b ∈ S) (hc : c ∈ S) (hab : cmp a b = 0)
    (hbc : cmp b c = 0) : cmp a c = 0 := by
  have hac := h.trans a ha b hb c hc (by omega) (by omega)
  have hca := h.trans c hc b hb a ha (h.zero_comm hb hc hbc).le (h.zero_comm ha hb hab).le
  have := h.antisymm a ha c hc
  omega

/-- **What is the same compares the same way.** -/
theorem TotalOn.neg_left (h : TotalOn cmp S) (ha : a ∈ S) (hb : b ∈ S) (hc : c ∈ S) (hab : cmp a b = 0) :
    cmp a c < 0 ↔ cmp b c < 0 := by
  have hswap := h.antisymm
  have hba := h.zero_comm ha hb hab
  constructor
  · intro hac
    by_contra hbc
    have hcb : cmp c b ≤ 0 := by
      have := hswap b hb c hc
      have := hswap c hc b hb
      omega
    have hca := h.trans c hc b hb a ha hcb hba.le
    have := hswap a ha c hc
    omega
  · intro hbc
    by_contra hac
    have hca : cmp c a ≤ 0 := by
      have := hswap a ha c hc
      have := hswap c hc a ha
      omega
    have hcb := h.trans c hc a ha b hb hca hab.le
    have := hswap b hb c hc
    omega

theorem TotalOn.mono {T : Set α} (h : TotalOn cmp S) (hT : T ⊆ S) : TotalOn cmp T :=
  ⟨fun a ha b hb => h.antisymm a (hT ha) b (hT hb),
    fun a ha b hb c hc => h.trans a (hT ha) b (hT hb) c (hT hc)⟩

theorem TotalOn.comap {cmp : β → β → Int} {T : Set β} (h : TotalOn cmp T) (f : α → β) (hf : ∀ a ∈ S, f a ∈ T) :
    TotalOn (fun a b => cmp (f a) (f b)) S :=
  ⟨fun a ha b hb => h.antisymm (f a) (hf a ha) (f b) (hf b hb),
    fun a ha b hb c hc => h.trans (f a) (hf a ha) (f b) (hf b hb) (f c) (hf c hc)⟩

theorem TotalOn.congr {cmp' : α → α → Int} (h : TotalOn cmp S) (heq : ∀ a ∈ S, ∀ b ∈ S, cmp' a b = cmp a b) :
    TotalOn cmp' S := by
  constructor
  · intro a ha b hb
    rw [heq a ha b hb, heq b hb a ha]
    exact h.antisymm a ha b hb
  · intro a ha b hb c hc
    rw [heq a ha b hb, heq b hb c hc, heq a ha c hc]
    exact h.trans a ha b hb c hc

/-! ## One comparison after another -/

def first (c₁ c₂ : α → α → Int) (a b : α) : Int := if c₁ a b ≠ 0 then c₁ a b else c₂ a b

variable {c₁ c₂ c₃ : α → α → Int}

@[simp] theorem first_eq_zero : first c₁ c₂ a b = 0 ↔ c₁ a b = 0 ∧ c₂ a b = 0 := by
  unfold first
  by_cases h : c₁ a b = 0 <;> simp [h]

theorem first_of_ne (h : c₁ a b ≠ 0) : first c₁ c₂ a b = c₁ a b := if_pos h

theorem first_of_zero (h : c₁ a b = 0) : first c₁ c₂ a b = c₂ a b := if_neg (by simp [h])

theorem first_assoc : first (first c₁ c₂) c₃ = first c₁ (first c₂ c₃) := by
  funext a b
  unfold first
  by_cases h : c₁ a b = 0 <;> simp [h]

def classOf (cmp : α → α → Int) (S : Set α) (a : α) : Set α := {b | b ∈ S ∧ cmp a b = 0}

theorem TotalOn.first (h₁ : TotalOn c₁ S) (h₂ : ∀ a ∈ S, TotalOn c₂ (classOf c₁ S a)) : TotalOn (first c₁ c₂) S := by
  constructor
  · intro a ha b hb
    by_cases hab : c₁ a b = 0
    · rw [first_of_zero hab, first_of_zero (h₁.zero_comm ha hb hab)]
      exact (h₂ a ha).antisymm a ⟨ha, h₁.self ha⟩ b ⟨hb, hab⟩
    · have hba : c₁ b a ≠ 0 := fun e => hab (h₁.zero_comm hb ha e)
      rw [first_of_ne hab, first_of_ne hba]
      exact h₁.antisymm a ha b hb
  · intro a ha b hb c hc hab hbc
    by_cases h12 : c₁ a b = 0
    · by_cases h23 : c₁ b c = 0
      · have h13 := h₁.zero_trans ha hb hc h12 h23
        rw [first_of_zero h12] at hab
        rw [first_of_zero h23] at hbc
        rw [first_of_zero h13]
        exact (h₂ a ha).trans a ⟨ha, h₁.self ha⟩ b ⟨hb, h12⟩ c ⟨hc, h13⟩ hab hbc
      · rw [first_of_ne h23] at hbc
        have h13 : c₁ a c < 0 := (h₁.neg_left ha hb hc h12).2 (by omega)
        rw [first_of_ne (by omega)]
        exact h13.le
    · rw [first_of_ne h12] at hab
      have hbc' : c₁ b c ≤ 0 := by
        by_cases h23 : c₁ b c = 0
        · exact h23.le
        · rwa [first_of_ne h23] at hbc
      have h13 : c₁ a c < 0 := by
        by_contra hge
        have hle := h₁.trans a ha b hb c hc hab hbc'
        have hca := h₁.zero_comm ha hc (by omega)
        have hba := h₁.trans b hb c hc a ha hbc' hca.le
        have := h₁.antisymm a ha b hb
        omega
      rw [first_of_ne (by omega)]
      exact h13.le

/-- **The second comparison has to order what the first cannot tell apart, and nothing else.** -/
theorem first_totalOn_iff (h₁ : TotalOn c₁ S) :
    TotalOn (Signs.first c₁ c₂) S ↔ ∀ a ∈ S, TotalOn c₂ (classOf c₁ S a) := by
  constructor
  · intro h a ha
    apply (h.mono (T := classOf c₁ S a) fun b hb => hb.1).congr
    rintro b ⟨hb, hab⟩ c ⟨hc, hac⟩
    exact (first_of_zero (h₁.zero_trans hb ha hc (h₁.zero_comm ha hb hab) hac)).symm
  · exact h₁.first

end Signs
