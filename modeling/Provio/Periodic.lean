import Provio.Calls
import Provio.Metrics
import Provio.Snapshots
/-!
# Periodic — dumping every `_period` insertions

A dump parses into the model what it has just written, so a graph dumped periodically goes through the models of one that
is not (`calls_undumped`), and the file is a snapshot of the model at the last operation count that is a multiple of the
period (`periodical_dumps`).  With `enable_id` the constructor sets no period.
-/
namespace Provio

open Ordered (Dict)
open Snapshots (Step Saved Kept)

namespace PROVIO

variable {env : Env} {self : PROVIO}

def DumpsWell (env : Env) (self : PROVIO) : Prop := ∀ n, self.dumpFails env n = false

theorem dumpsWell_of_path (hdone : ∀ n, env.dumped n = .done) (hserializer : self._serializer = true)
    (hpath : self._serialize_path.isSome = true) : DumpsWell env self := fun n => by
  simp [dumpFails, hserializer, hpath, hdone n]

theorem dumpsWell_of_no_period (h : self._period = none) : DumpsWell env self := fun n => by
  simp [dumpFails, due, h]

/-! ## The model without the dumps -/

/-- The same graph without a period and without files. -/
def undumped (self : PROVIO) : PROVIO := { self with _period := none, disk := .empty }

theorem writeVersion_undumped (env : Env) (self : PROVIO) :
    self.undumped.writeVersion env = (self.writeVersion env).map undumped := by
  have hwrite : (self.undumped._first_write && self.undumped._enable_version) =
    (self._first_write && self._enable_version) := rfl
  rw [writeVersion, writeVersion, hwrite]
  split
  · rw [show self.undumped._version = self._version from rfl]
    cases env.statement self._version (.str (str "ns1:Type")) (env.uri (.str (str "Version"))) <;> rfl
  · rfl

theorem addTriple_dumped (h : DumpsWell env self) {s : PROVIO} {i : Insertion} {t : Triple}
    (hs : self.writeVersion env = some s) (ht : env.triple i = some t) : self.addTriple env i =
      (none, { s with _model := insert t s._model, _op_count := self._op_count + 1,
                      disk := if self.due (self._op_count + 1) then
                          s.disk.set (self._serialize_path.getD []) (insert t s._model)
                        else s.disk }) := by
  obtain ⟨model, write, rfl, -⟩ := writeVersion_eq hs
  have hdump := h (self._op_count + 1)
  unfold addTriple
  simp only [hs, ht]
  rw [show ({ self with _model := insert t model, _first_write := write, _op_count := self._op_count + 1 } : PROVIO).due
    (self._op_count + 1) = self.due (self._op_count + 1) from rfl]
  cases hdue : self.due (self._op_count + 1) with
  | false => rfl
  | true =>
    simp only [dumpFails, hdue, Bool.true_and, Bool.not_eq_false', Bool.and_eq_true, decide_eq_true_eq] at hdump
    obtain ⟨⟨hserializer, hpath⟩, hdone⟩ := hdump
    obtain ⟨path, hpath⟩ := Option.isSome_iff_exists.1 hpath
    simp only [dump, hserializer, hpath, hdone, if_true, Finset.union_self, Option.getD_some]

theorem addTriple_undumped (h : DumpsWell env self) (i : Insertion) :
    self.undumped.addTriple env i = ((self.addTriple env i).1, (self.addTriple env i).2.undumped) := by
  have hw := writeVersion_undumped env self
  obtain ⟨hs, hi⟩ | ⟨s, hs, ht, hi⟩ | ⟨s, t, hs, ht, -⟩ := addTriple_cases env self i
  · rw [hs] at hw
    rw [hi, addTriple_unversioned hw]
  · rw [hs] at hw
    rw [hi, addTriple_refused hw ht]
  · rw [hs] at hw
    rw [addTriple_dumped h hs ht, addTriple_dumped (dumpsWell_of_no_period rfl) hw ht]
    rfl

theorem DumpsWell.of_settings {p q : PROVIO} (h : DumpsWell env p) (hs : SameSettings q p) : DumpsWell env q :=
  fun n => (dumpFails_congr hs env n).trans (h n)

theorem addTriples_undumped : ∀ (is : List Insertion) {self : PROVIO}, DumpsWell env self →
    self.undumped.addTriples env is = ((self.addTriples env is).1, (self.addTriples env is).2.undumped)
  | [], _, _ => rfl
  | i :: is, self, h => by
    have hsettings := addTriple_settings env self i
    rw [addTriples, addTriples, addTriple_undumped h]
    cases hr : self.addTriple env i with
    | mk e s =>
      rw [hr] at hsettings
      cases e with
      | some e => rfl
      | none => exact addTriples_undumped is (h.of_settings hsettings)

theorem insertions_undumped (env : Env) (self : PROVIO) (c : Call) :
    self.undumped.insertions env c = self.insertions env c := by
  cases c <;> rfl

theorem settled_undumped (env : Env) (self : PROVIO) (c : Call) :
    self.undumped.settled env c = (self.settled env c).undumped := by
  cases c with
  | setIdentifier _id =>
    simp only [settled, setIdentifier]
    cases env.strOf _id <;> rfl
  | _ => rfl

theorem DumpsWell.settled (h : DumpsWell env self) (c : Call) : DumpsWell env (self.settled env c) := by
  cases c with
  | setIdentifier _id =>
    unfold PROVIO.settled setIdentifier
    dsimp only
    cases env.strOf _id <;> exact h
  | setSerializationPath path =>
    intro n
    have hn := h n
    rw [dumpFails] at hn
    show (self.due n && !(self._serializer && true && decide (env.dumped n = .done))) = false
    cases hpath : self._serialize_path.isSome with
    | true => rwa [hpath] at hn
    | false =>
      have hdue : self.due n = false := by simpa [hpath] using hn
      rw [hdue, Bool.false_and]
  | _ => exact h

/-- **Dumping leaves no trace in the model.** -/
theorem calls_undumped : ∀ (cs : List Call) {self : PROVIO}, DumpsWell env self →
    self.undumped.calls env cs = (self.calls env cs).undumped
  | [], _, _ => rfl
  | c :: cs, self, h => by
    have hsettled := h.settled c
    have hcall : self.undumped.call env c = (self.call env c).undumped := by
      rw [call_eq, call_eq, insertions_undumped, settled_undumped, addTriples_undumped _ hsettled]
    have hwell : DumpsWell env (self.call env c) := by
      rw [call_eq]
      exact hsettled.of_settings (addTriples_settings ..)
    rw [calls, calls, List.foldl_cons, List.foldl_cons, hcall]
    exact calls_undumped cs hwell

theorem calls_model_eq {p q : PROVIO} (hp : DumpsWell env p) (hq : DumpsWell env q) (h : p.undumped = q.undumped)
    (cs : List Call) : (p.calls env cs)._model = (q.calls env cs)._model :=
  calc (p.calls env cs)._model = (p.undumped.calls env cs)._model := by rw [calls_undumped cs hp]; rfl
    _ = (q.undumped.calls env cs)._model := by rw [h]
    _ = (q.calls env cs)._model := by rw [calls_undumped cs hq]; rfl

/-! ## The file -/

def view (path : Str) (self : PROVIO) : Snapshots.State Triple := ⟨self._op_count, self._model, self.disk.get? path⟩

/-- A graph dumped to `path` every `p` insertions.  The version has its record before an insertion is counted. -/
structure Dumping (env : Env) (p : Nat) (path : Str) (q : PROVIO) : Prop where
  period  : q._period = some p
  path    : q._serialize_path = some path
  well    : DumpsWell env q
  written : 0 < q._op_count → q.Written

section Dumping

variable {p : Nat} {path : Str}

theorem Dumping.due_iff (h : Dumping env p path self) (hp : 0 < p) (n : Nat) : self.due n = true ↔ n % p = 0 := by
  simp [due, h.period, hp.ne']

theorem Dumping.of_settings {q : PROVIO} (h : Dumping env p path self) (hs : SameSettings q self)
    (hwritten : 0 < q._op_count → q.Written) : Dumping env p path q :=
  ⟨hs._period.trans h.period, hs._serialize_path.trans h.path, h.well.of_settings hs, hwritten⟩

theorem Dumping.addTriple (h : Dumping env p path self) (i : Insertion) :
    Dumping env p path (self.addTriple env i).2 := by
  refine h.of_settings (addTriple_settings env self i) ?_
  obtain ⟨-, hi⟩ | ⟨s, hs, -, hi⟩ | ⟨s, t, -, -, hi⟩ := addTriple_cases env self i
  · rw [hi]
    exact h.written
  · obtain ⟨_, _, rfl, hwritten, -⟩ := writeVersion_eq hs
    rw [hi]
    exact fun _ => hwritten
  · exact fun _ => hi.written

theorem Dumping.step (h : Dumping env p path self) (hp : 0 < p) (i : Insertion) :
    Step p (view path self) (view path (self.addTriple env i).2) := by
  have hsame : ∀ {s : PROVIO}, self.writeVersion env = some s → 0 < self._op_count → s = self := fun hs hpos =>
    (Option.some.inj ((writeVersion_of_written (h.written hpos)).symm.trans hs)).symm
  obtain ⟨-, hi⟩ | ⟨s, hs, -, hi⟩ | ⟨s, t, hs, ht, -⟩ := addTriple_cases env self i
  · rw [hi]
    exact .idle rfl (Finset.Subset.refl _) (fun _ => rfl) rfl
  · have hsub := writeVersion_subset hs
    have hsame := @hsame s hs
    obtain ⟨model, write, rfl, -⟩ := writeVersion_eq hs
    rw [hi]
    exact .idle rfl hsub (fun hpos => congrArg _model (hsame hpos)) rfl
  · have hsub := writeVersion_subset hs
    have hsame := @hsame s hs
    rw [addTriple_dumped h.well hs ht]
    obtain ⟨model, write, rfl, -⟩ := writeVersion_eq hs
    refine .add rfl (hsub.trans (Finset.subset_insert ..)) (fun hpos => ⟨t, ?_⟩) ?_
    · exact congrArg (insert t) (congrArg _model (hsame hpos))
    · have hdue := h.due_iff hp (self._op_count + 1)
      simp only [view, h.path, Option.getD_some]
      by_cases hmod : (self._op_count + 1) % p = 0
      · rw [if_pos (hdue.2 hmod), if_pos hmod, Dict.get?_set, if_pos rfl]
      · rw [if_neg (fun hd => hmod (hdue.1 hd)), if_neg hmod]

end Dumping

def attempts (env : Env) : PROVIO → List Insertion → List PROVIO
  | _, []         => []
  | self, i :: is =>
    match self.addTriple env i with
    | (some _, self) => [self]
    | (none, self)   => self :: attempts env self is

def trace (env : Env) : PROVIO → List Call → List PROVIO
  | _, []         => []
  | self, c :: cs => attempts env (self.settled env c) (self.insertions env c) ++ trace env (self.call env c) cs

def Call.keepsPath : Call → Bool
  | .setSerializationPath _ => false
  | _                       => true

section Runs

variable {p : Nat} {path : Str}

theorem attempts_kept (hp : 0 < p) : ∀ (is : List Insertion) {self : PROVIO} {T : List (Snapshots.State Triple)},
    Dumping env p path self → Kept p T (view path self) →
    Dumping env p path (self.addTriples env is).2 ∧
      Kept p (T ++ (attempts env self is).map (view path)) (view path (self.addTriples env is).2)
  | [], self, T, h, hk => ⟨h, by simpa [attempts, addTriples] using hk⟩
  | i :: is, self, T, h, hk => by
    have hd := h.addTriple i
    have hk := hk.step hp (h.step hp i)
    rw [addTriples, attempts]
    cases hr : self.addTriple env i with
    | mk e s =>
      rw [hr] at hd hk
      cases e with
      | some e => exact ⟨hd, hk⟩
      | none =>
        obtain ⟨hd', hk'⟩ := attempts_kept hp is hd hk
        rw [List.append_assoc] at hk'
        exact ⟨hd', hk'⟩

theorem Dumping.settled (h : Dumping env p path self) {c : Call} (hc : c.keepsPath = true) :
    Dumping env p path (self.settled env c) ∧ view path (self.settled env c) = view path self := by
  cases c with
  | setSerializationPath path => cases hc
  | setIdentifier _id =>
    unfold PROVIO.settled setIdentifier
    dsimp only
    cases env.strOf _id with
    | none => exact ⟨h, rfl⟩
    | some id => exact ⟨⟨h.period, h.path, h.well, h.written⟩, rfl⟩
  | _ => exact ⟨h, rfl⟩

/-- **The file is a snapshot in every state of a run.** -/
theorem trace_kept (hp : 0 < p) : ∀ (cs : List Call) {self : PROVIO} {T : List (Snapshots.State Triple)},
    (∀ c ∈ cs, c.keepsPath = true) → Dumping env p path self → Kept p T (view path self) →
    Kept p (T ++ (trace env self cs).map (view path)) (view path (self.calls env cs))
  | [], self, T, _, _, hk => by simpa [trace, calls] using hk
  | c :: cs, self, T, hcs, h, hk => by
    obtain ⟨hc, hcs⟩ := List.forall_mem_cons.1 hcs
    obtain ⟨hd, hview⟩ := h.settled hc
    obtain ⟨hd', hk'⟩ := attempts_kept hp (self.insertions env c) hd (hview ▸ hk)
    rw [← call_eq] at hd' hk'
    have hrun := trace_kept hp cs hcs hd' hk'
    rw [trace, List.map_append, ← List.append_assoc]
    exact hrun

/-- **The file at a state `q` of a run through the states `T`** is the model at the last operation count that is a multiple
of `p`, and lacks at most the `p - 1` newest insertions. -/
structure DumpedAt (p : Nat) (path : Str) (T : List PROVIO) (q : PROVIO) (file : Finset Triple) : Prop where
  saved  : q.disk.get? path = some file
  taken  : ∃ r ∈ T, r._op_count = q._op_count / p * p
  value  : ∀ r ∈ T, r._op_count = q._op_count / p * p → r._model = file
  older  : ∀ r ∈ T, r._op_count ≤ q._op_count / p * p → r._model ⊆ file
  subset : file ⊆ q._model
  lost   : (q._model \ file).card ≤ p - 1

theorem dumpedAt_of_saved (hp : 0 < p) {T : List PROVIO} {q : PROVIO} {file : Finset Triple}
    (h : Saved p (T.map (view path)) (view path q) file) : DumpedAt p path T q file := by
  refine ⟨h.saved, ?_, ?_, ?_, h.subset, h.lost.trans (Nat.le_sub_one_of_lt (Nat.mod_lt _ hp))⟩
  · obtain ⟨_, hr, hcount⟩ := h.taken
    obtain ⟨r, hmem, rfl⟩ := List.mem_map.1 hr
    exact ⟨r, hmem, hcount⟩
  · exact fun r hr => h.value _ (List.mem_map_of_mem hr)
  · exact fun r hr => h.older _ (List.mem_map_of_mem hr)

/-- Without `enable_id`, dumping is transparent and loses fewer than `p` insertions. -/
theorem periodical_dumps (hdone : ∀ n, env.dumped n = .done) {args : Args} {uuid : Str}
    {disk : Dict Str (Finset Triple)} (hp : 1 ≤ p) (hserializer : args.serializer.isSome = true)
    (hperiod : args.periodical = some p) (hid : args.enable_id = false)
    (hinit : PROVIO.init env args uuid disk = .ok self) (path : Str) {cs : List Call}
    (hcs : ∀ c ∈ cs, c.keepsPath = true) :
    (∃ other, PROVIO.init env { args with periodical := none } uuid disk = .ok other ∧
      ((self.setSerializationPath path).calls env cs)._model =
        ((other.setSerializationPath path).calls env cs)._model) ∧
    ∀ q ∈ trace env (self.setSerializationPath path) cs, p ≤ q._op_count →
      ∃ file, DumpedAt p path (trace env (self.setSerializationPath path) cs) q file := by
  obtain ⟨hstorage, hformat, v, model, hv, hm, hself⟩ := init_eq_ok.1 hinit
  have hperiod' : self._period = some p := by
    rw [hself, ← hperiod]
    exact if_neg (by rw [hid]; decide)
  have hserializer' : self._serializer = true := by
    rw [hself]
    exact hserializer
  have hcount : self._op_count = 0 := by rw [hself]
  have hwell : DumpsWell env (self.setSerializationPath path) := dumpsWell_of_path hdone hserializer' rfl
  constructor
  · refine ⟨{ self with _period := none }, init_eq_ok.2 ⟨hstorage, hformat, v, model, hv, hm, ?_⟩, ?_⟩
    · simp only [hself, ite_self]
    · have hother : DumpsWell env ({ self with _period := none }.setSerializationPath path) := dumpsWell_of_no_period rfl
      exact calls_model_eq hwell hother rfl cs
  · intro q hq hle
    have hdumping : Dumping env p path (self.setSerializationPath path) :=
      ⟨hperiod', rfl, hwell, fun h => absurd hcount (Nat.ne_of_gt h)⟩
    obtain ⟨file, hfile⟩ := (trace_kept hp cs hcs hdumping (Snapshots.kept_start hcount hp)).before (view path q)
      (List.mem_map_of_mem hq) hle
    exact ⟨file, dumpedAt_of_saved hp hfile⟩

end Runs

/-- A graph that is dumped every two insertions. -/
def everyTwo (enable_id : Bool) : Args := ⟨none, enable_id, false, none, none, some (str "turtle"), some 2⟩

def twoRecords : List Call :=
  [.newRecord .empty (str "lr") (some (.str (str "Hyperparam"))) (some (.str (str "0.1"))),
    .newRecord .empty (str "bs") (some (.str (str "Hyperparam"))) (some (.other 32))]

theorem periodical_dumps_two : ∃ self, PROVIO.init plain (everyTwo false) [] .empty = .ok self ∧
    ∀ q ∈ trace plain (self.setSerializationPath (str "prov.turtle")) twoRecords, 2 ≤ q._op_count →
      ∃ file, DumpedAt 2 (str "prov.turtle")
        (trace plain (self.setSerializationPath (str "prov.turtle")) twoRecords) q file :=
  ⟨_, rfl, (@periodical_dumps plain _ 2 (fun _ => rfl) (everyTwo false) [] .empty (by decide) rfl rfl rfl rfl
    (str "prov.turtle") twoRecords (by decide)).2⟩

/-- The constructor does not set the period of a graph that has an identifier. -/
theorem periodical_with_id : ∃ self, PROVIO.init plain (everyTwo true) (str "uuid") .empty = .ok self ∧
    ((self.setSerializationPath (str "prov.turtle")).calls plain twoRecords)._op_count = 6 ∧
    ((self.setSerializationPath (str "prov.turtle")).calls plain twoRecords).disk.get? (str "prov.turtle") = none := by
  refine ⟨_, rfl, ?_, ?_⟩
  · decide
  · decide

end PROVIO

end Provio
