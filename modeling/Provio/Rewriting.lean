import Mathlib.Data.Set.Lattice
import Mathlib.Logic.Function.Basic
import Mathlib.Logic.Relation
/-!
# Rewriting — agents that read a shared set, empty it and write it back with their own

Each agent reads the set once, may empty it any number of times while it holds what it read, and at last writes what it
read together with its own items over whatever is there.  If no agent reads while another holds (`Serial.step`), nothing
is ever lost (`serial_keeps`).  If one reads while another holds, the two write over each other: at no later time does
the set have the items of both (`overlap_loses`).
-/
namespace Rewriting

inductive Agent (α : Type) where
  | idle
  | holds (L : Set α)
  | done

structure State (ι α : Type) where
  file   : Set α
  agents : ι → Agent α

def State.start {ι α : Type} (F : Set α) : State ι α := ⟨F, fun _ => .idle⟩

section

variable {ι α : Type} [DecidableEq ι]

def State.put (s : State ι α) (F : Set α) (r : ι) (v : Agent α) : State ι α := ⟨F, Function.update s.agents r v⟩

/-- One step of agent `r`. -/
inductive Step (own : ι → Set α) (r : ι) (s : State ι α) : State ι α → Prop where
  | read (hr : s.agents r = .idle) : Step own r s (s.put s.file r (.holds s.file))
  | empty {L : Set α} (hr : s.agents r = .holds L) : Step own r s ⟨∅, s.agents⟩
  | work {L : Set α} (hr : s.agents r = .holds L) : Step own r s s
  | write {L : Set α} (hr : s.agents r = .holds L) : Step own r s (s.put (L ∪ own r) r .done)

def AnyStep (own : ι → Set α) (s s' : State ι α) : Prop := ∃ r, Step own r s s'

def State.Alone (s : State ι α) (r : ι) : Prop := ∀ a, a ≠ r → ∀ L, s.agents a ≠ .holds L

/-- A step that does not read while another agent holds. -/
def SerialStep (own : ι → Set α) (s s' : State ι α) : Prop := ∃ r, Step own r s s' ∧ (s.agents r = .idle → s.Alone r)

variable {own : ι → Set α} {F : Set α} {s s' : State ι α} {r : ι}

theorem put_self (F : Set α) (v : Agent α) : (s.put F r v).agents r = v := Function.update_self ..

theorem put_of_ne {a : ι} (F : Set α) (v : Agent α) (h : a ≠ r) : (s.put F r v).agents a = s.agents a :=
  Function.update_of_ne h ..

theorem update_cases {β : Type} {f : ι → β} {v w : β} {a : ι} (h : Function.update f r v a = w) :
    (a = r ∧ v = w) ∨ (a ≠ r ∧ f a = w) := by
  by_cases ha : a = r
  · subst ha
    rw [Function.update_self] at h
    exact .inl ⟨rfl, h⟩
  · rw [Function.update_of_ne ha] at h
    exact .inr ⟨ha, h⟩

theorem put_cases {F : Set α} {v w : Agent α} {a : ι} (h : (s.put F r v).agents a = w) :
    (a = r ∧ v = w) ∨ (a ≠ r ∧ s.agents a = w) := update_cases h

/-! ## Agents one after the other -/

/-- What was there first, and the items of the agents that are done. -/
def State.sum (own : ι → Set α) (F : Set α) (s : State ι α) : Set α := {x | x ∈ F ∨ ∃ r, s.agents r = .done ∧ x ∈ own r}

/-- At most one agent holds, and it, or else the set, has everything so far. -/
structure Serial (own : ι → Set α) (F : Set α) (s : State ι α) : Prop where
  single : ∀ a b L M, s.agents a = .holds L → s.agents b = .holds M → a = b
  file   : (∀ a L, s.agents a ≠ .holds L) → s.sum own F ⊆ s.file
  held   : ∀ a L, s.agents a = .holds L → s.sum own F ⊆ L

omit [DecidableEq ι] in
theorem serial_start : Serial own F (.start F) := by
  refine ⟨fun a b L M h => ?_, fun _ x hx => ?_, fun a L h => ?_⟩
  · cases h
  · rcases hx with hx | ⟨r, hr, _⟩
    · exact hx
    · cases hr
  · cases h

theorem Serial.step (h : Serial own F s) (hs : SerialStep own s s') : Serial own F s' := by
  obtain ⟨r, hstep, halone⟩ := hs
  cases hstep with
  | read hr =>
    have hnone : ∀ a L, s.agents a ≠ .holds L := by
      intro a L ha
      by_cases har : a = r
      · subst har; rw [hr] at ha; cases ha
      · exact halone hr a har L ha
    have hsum : (s.put s.file r (.holds s.file)).sum own F ⊆ s.file := by
      intro x hx
      refine h.file hnone (hx.imp_right ?_)
      rintro ⟨a, ha, hxa⟩
      rcases put_cases ha with ⟨_, he⟩ | ⟨_, ha⟩
      · cases he
      · exact ⟨a, ha, hxa⟩
    refine ⟨fun a b L M ha hb => ?_, fun _ => hsum, fun a L ha => ?_⟩
    · rcases put_cases ha with ⟨har, _⟩ | ⟨_, ha'⟩
      · rcases put_cases hb with ⟨hbr, _⟩ | ⟨_, hb'⟩
        · exact har.trans hbr.symm
        · exact (hnone b M hb').elim
      · exact (hnone a L ha').elim
    · rcases put_cases ha with ⟨_, he⟩ | ⟨_, ha⟩
      · cases he; exact hsum
      · exact (hnone a L ha).elim
  | empty hr => exact ⟨h.single, fun hnone => absurd hr (hnone r _), h.held⟩
  | work hr => exact h
  | @write L hr =>
    have hnone : ∀ a M, (s.put (L ∪ own r) r .done).agents a ≠ .holds M := by
      intro a M ha
      rcases put_cases ha with ⟨_, he⟩ | ⟨hne, ha⟩
      · cases he
      · exact hne (h.single a r M L ha hr)
    refine ⟨fun a b M _ ha => absurd ha (hnone a M), fun _ x hx => ?_, fun a M ha => absurd ha (hnone a M)⟩
    rcases hx with hx | ⟨a, ha, hxa⟩
    · exact .inl (h.held r L hr (.inl hx))
    · rcases put_cases ha with ⟨rfl, _⟩ | ⟨_, ha⟩
      · exact .inr hxa
      · exact .inl (h.held r L hr (.inr ⟨a, ha, hxa⟩))

theorem Serial.run (h : Serial own F s) (hs : Relation.ReflTransGen (SerialStep own) s s') : Serial own F s' := by
  induction hs with
  | refl => exact h
  | tail _ hstep ih => exact ih.step hstep

/-- **Agents that hold one after the other lose nothing.** -/
theorem serial_keeps (hs : Relation.ReflTransGen (SerialStep own) (.start F) s) (hdone : ∀ r, s.agents r = .done) :
    F ⊆ s.file ∧ ∀ r, own r ⊆ s.file := by
  have hsum := (serial_start.run hs).file fun a L ha => by rw [hdone a] at ha; cases ha
  exact ⟨fun x hx => hsum (.inl hx), fun r x hx => hsum (.inr ⟨r, hdone r, hx⟩)⟩

/-! ## Agents at the same time -/

/-- An item for each agent that no other has. -/
structure Marks (own : ι → Set α) (F : Set α) (mark : ι → α) : Prop where
  mem   : ∀ r, mark r ∈ own r
  only  : ∀ r a, mark r ∈ own a → a = r
  fresh : ∀ r, mark r ∉ F

/-- The mark of an agent that has not written is nowhere. -/
def Unsaved (mark : ι → α) (s : State ι α) : Prop :=
  ∀ r, s.agents r ≠ .done → mark r ∉ s.file ∧ ∀ a L, s.agents a = .holds L → mark r ∉ L

variable {mark : ι → α}

omit [DecidableEq ι] in
theorem unsaved_start (hm : Marks own F mark) : Unsaved mark (.start F : State ι α) :=
  fun r _ => ⟨hm.fresh r, fun a L h => by cases h⟩

theorem Unsaved.step (hm : Marks own F mark) (h : Unsaved mark s) (hs : AnyStep own s s') : Unsaved mark s' := by
  obtain ⟨r, hstep⟩ := hs
  cases hstep with
  | read hr =>
    intro x hx
    have hx' : s.agents x ≠ .done := by
      intro hd
      have hxr : x ≠ r := by
        rintro rfl
        rw [hr] at hd; cases hd
      exact hx ((put_of_ne _ _ hxr).trans hd)
    refine ⟨(h x hx').1, fun a L ha => ?_⟩
    rcases put_cases ha with ⟨_, he⟩ | ⟨_, ha⟩
    · cases he; exact (h x hx').1
    · exact (h x hx').2 a L ha
  | empty hr => exact fun x hx => ⟨fun hmem => hmem, (h x hx).2⟩
  | work hr => exact h
  | @write L hr =>
    intro x hx
    have hxr : x ≠ r := by
      rintro rfl
      exact hx (put_self ..)
    have hx' : s.agents x ≠ .done := by rw [put_of_ne _ _ hxr] at hx; exact hx
    refine ⟨fun hmem => ?_, fun a M ha => ?_⟩
    · rcases hmem with hmem | hmem
      · exact (h x hx').2 r L hr hmem
      · exact hxr (hm.only x r hmem).symm
    · rcases put_cases ha with ⟨_, he⟩ | ⟨_, ha⟩
      · cases he
      · exact (h x hx').2 a M ha

theorem Unsaved.run (hm : Marks own F mark) (h : Unsaved mark s) (hs : Relation.ReflTransGen (AnyStep own) s s') :
    Unsaved mark s' := by
  induction hs with
  | refl => exact h
  | tail _ hstep ih => exact ih.step hm hstep

/-- Two agents that never meet in the set again. -/
structure Apart (mark : ι → α) (a b : ι) (s : State ι α) : Prop where
  left_begun  : s.agents a ≠ .idle
  right_begun : s.agents b ≠ .idle
  file        : ¬ (mark a ∈ s.file ∧ mark b ∈ s.file)
  held        : ∀ x L, s.agents x = .holds L → ¬ (mark a ∈ L ∧ mark b ∈ L)
  left        : ∀ L, s.agents a = .holds L → mark b ∉ L
  right       : ∀ L, s.agents b = .holds L → mark a ∉ L

theorem Unsaved.apart (h : Unsaved mark s) {a b : ι} {L : Set α} (ha : s.agents a = .holds L) (hb : s.agents b = .idle) :
    Apart mark a b (s.put s.file b (.holds s.file)) := by
  have hab : a ≠ b := by
    rintro rfl
    rw [ha] at hb; cases hb
  have hua := h a (by rw [ha]; nofun)
  have hub := h b (by rw [hb]; nofun)
  refine ⟨?_, ?_, fun hf => hua.1 hf.1, fun x M hx => ?_, fun M hM => ?_, fun M hM => ?_⟩
  · rw [put_of_ne _ _ hab, ha]; nofun
  · rw [put_self]; nofun
  · rcases put_cases hx with ⟨_, he⟩ | ⟨_, hx⟩
    · cases he; exact fun hf => hua.1 hf.1
    · exact fun hf => hua.2 x M hx hf.1
  · rcases put_cases hM with ⟨he, _⟩ | ⟨_, hM⟩
    · exact absurd he hab
    · exact hub.2 a M hM
  · rcases put_cases hM with ⟨_, he⟩ | ⟨hne, _⟩
    · cases he; exact hua.1
    · exact absurd rfl hne

theorem Apart.step (hm : Marks own F mark) {a b : ι} (hab : a ≠ b) (h : Apart mark a b s) (hs : AnyStep own s s') :
    Apart mark a b s' := by
  obtain ⟨r, hstep⟩ := hs
  cases hstep with
  | read hr =>
    have hra : a ≠ r := by rintro rfl; exact h.left_begun hr
    have hrb : b ≠ r := by rintro rfl; exact h.right_begun hr
    refine ⟨?_, ?_, h.file, fun x L hx => ?_, fun L hL => ?_, fun L hL => ?_⟩
    · rw [put_of_ne _ _ hra]; exact h.left_begun
    · rw [put_of_ne _ _ hrb]; exact h.right_begun
    · rcases put_cases hx with ⟨_, he⟩ | ⟨_, hx⟩
      · cases he; exact h.file
      · exact h.held x L hx
    · rw [put_of_ne _ _ hra] at hL; exact h.left L hL
    · rw [put_of_ne _ _ hrb] at hL; exact h.right L hL
  | empty hr => exact ⟨h.left_begun, h.right_begun, fun hf => hf.1, h.held, h.left, h.right⟩
  | work hr => exact h
  | @write L hr =>
    have hlater : ∀ x M, (s.put (L ∪ own r) r .done).agents x = .holds M → s.agents x = .holds M := by
      intro x M hx
      rcases put_cases hx with ⟨_, he⟩ | ⟨_, hx⟩
      · cases he
      · exact hx
    have hbegun : ∀ x, s.agents x ≠ .idle → (s.put (L ∪ own r) r .done).agents x ≠ .idle := by
      intro x hx he
      rcases put_cases he with ⟨_, he⟩ | ⟨_, he⟩
      · cases he
      · exact hx he
    refine ⟨hbegun a h.left_begun, hbegun b h.right_begun, ?_, fun x M hx => h.held x M (hlater x M hx),
      fun M hM => h.left M (hlater a M hM), fun M hM => h.right M (hlater b M hM)⟩
    -- what is written is what `r` read and its own: its own has at most one of the two marks
    rintro ⟨ha | ha, hb | hb⟩
    · exact h.held r L hr ⟨ha, hb⟩
    · obtain rfl := hm.only b r hb
      exact h.right L hr ha
    · obtain rfl := hm.only a r ha
      exact h.left L hr hb
    · exact hab ((hm.only a r ha).symm.trans (hm.only b r hb))

/-- **Two agents that hold at the same time are never both in the set afterwards.** -/
theorem overlap_loses (hm : Marks own F mark) {s₁ s₂ : State ι α} (hu : Unsaved mark s) {a b : ι} {L : Set α}
    (ha : s.agents a = .holds L) (hb : s.agents b = .idle) (hstep : Step own b s s₁)
    (hs : Relation.ReflTransGen (AnyStep own) s₁ s₂) : ¬ (mark a ∈ s₂.file ∧ mark b ∈ s₂.file) := by
  have hab : a ≠ b := by
    rintro rfl
    rw [ha] at hb; cases hb
  have hapart : Apart mark a b s₁ := by
    cases hstep with
    | read hr => exact hu.apart ha hb
    | empty hr => rw [hb] at hr; cases hr
    | work hr => rw [hb] at hr; cases hr
    | write hr => rw [hb] at hr; cases hr
  have hend : Apart mark a b s₂ := by
    induction hs with
    | refl => exact hapart
    | tail _ hstep ih => exact ih.step hm hab hstep
  exact hend.file

end

end Rewriting
