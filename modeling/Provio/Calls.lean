import Provio.Provenance
/-!
# Calls — a sequence of method calls on one graph

A call makes its setting, if it makes one, and then a list of insertions of which the first that raises is the last
(`call_eq`).  The caller goes on after an exception.
-/
namespace Provio
namespace PROVIO

/-- A call; `files` is the subclass directory as it is then. -/
inductive Call where
  | addTriple (i : Insertion)
  | newRecord (files : Dir) (field : Str) (type value : Option PyVal)
  | addMetricToVersion (metric value : PyVal) (version : Option PyVal)
  | addMetricToRecord (record_subject : Str) (metric value : PyVal)
  | setSerializationPath (path : Str)
  | setIdentifier (_id : PyVal)

/-- The state a call leaves, whether it raises or not. -/
def call (env : Env) (self : PROVIO) : Call → PROVIO
  | .addTriple i                             => (self.addTriple env i).2
  | .newRecord files field type value        => (self.newRecord env files field type value).2
  | .addMetricToVersion metric value version => (self.addMetricToVersion env metric value version).2
  | .addMetricToRecord subject metric value  => (self.addMetricToRecord env subject metric value).2
  | .setSerializationPath path               => self.setSerializationPath path
  | .setIdentifier _id                       => (self.setIdentifier env _id).2

def calls (env : Env) (self : PROVIO) (cs : List Call) : PROVIO := cs.foldl (call env) self

/-! ## The insertions of a call -/

def insertions (env : Env) (self : PROVIO) : Call → List Insertion
  | .addTriple i                             => [i]
  | .newRecord files field type value        =>
    match recordType env files field type with
    | .ok _type => self.recordTriples env (self.recordName field) _type value
    | .error _  => []
  | .addMetricToVersion metric value version =>
    match self.versionMetric metric, self.metricVersion env version with
    | .ok _metric, .ok _version => metricLinks _metric (env.valueOf value) _version
    | _, _                      => []
  | .addMetricToRecord subject metric value  =>
    match self.recordSubject subject with
    | .ok _record_subject =>
      match env.uri (.str _record_subject), env.uri (.str (str "ns1:Type")) with
      | some s, some p =>
        if env.targets self._model s p then
          metricLinks (self.recordMetric env metric) (env.valueOf value) (.str _record_subject)
        else []
      | _, _           => []
    | .error _            => []
  | .setSerializationPath _                  => []
  | .setIdentifier _                         => []

def settled (env : Env) (self : PROVIO) : Call → PROVIO
  | .setSerializationPath path => self.setSerializationPath path
  | .setIdentifier _id         => (self.setIdentifier env _id).2
  | _                          => self

variable {env : Env} {self : PROVIO}

theorem addTriples_one (env : Env) (self : PROVIO) (i : Insertion) :
    self.addTriples env [i] = self.addTriple env i := by
  rw [addTriples]
  cases self.addTriple env i with
  | mk e r => cases e <;> rfl

theorem call_eq (env : Env) (self : PROVIO) (c : Call) :
    call env self c = ((self.settled env c).addTriples env (self.insertions env c)).2 := by
  cases c with
  | addTriple i => exact congrArg Prod.snd (addTriples_one env self i).symm
  | newRecord files field type value =>
    simp only [call, newRecord, insertions, settled]
    cases recordType env files field type <;> rfl
  | addMetricToVersion metric value version =>
    simp only [call, addMetricToVersion, insertions, settled]
    cases self.versionMetric metric with
    | error e => rfl
    | ok M => cases self.metricVersion env version <;> rfl
  | addMetricToRecord subject metric value =>
    simp only [call, addMetricToRecord, insertions, settled]
    cases self.recordSubject subject with
    | error e => rfl
    | ok r =>
      dsimp only
      cases env.uri (.str r) with
      | none => rfl
      | some s =>
        cases env.uri (.str (str "ns1:Type")) with
        | none => rfl
        | some p =>
          dsimp only
          cases env.targets self._model s p <;> rfl
  | setSerializationPath path => rfl
  | setIdentifier _id => rfl

/-! ## What calls keep -/

theorem addTriple_settings (env : Env) (self : PROVIO) (i : Insertion) :
    SameSettings (self.addTriple env i).2 self := by
  obtain ⟨-, h⟩ | ⟨s, hs, -, h⟩ | ⟨s, t, -, -, h⟩ := addTriple_cases env self i
  · rw [h]
    exact .refl self
  · rw [h]
    exact writeVersion_settings hs
  · exact h.settings

theorem writeVersion_subset {s : PROVIO} (hs : self.writeVersion env = some s) : self._model ⊆ s._model := by
  obtain ⟨model, write, rfl, -, rfl | ⟨t, -, rfl⟩⟩ := writeVersion_eq hs
  · exact Finset.Subset.refl _
  · exact Finset.subset_insert _ _

theorem addTriple_subset (env : Env) (self : PROVIO) (i : Insertion) :
    self._model ⊆ (self.addTriple env i).2._model := by
  obtain ⟨-, h⟩ | ⟨s, hs, -, h⟩ | ⟨s, t, hs, -, h⟩ := addTriple_cases env self i
  · rw [h]
  · rw [h]
    exact writeVersion_subset hs
  · rw [h.model]
    exact (writeVersion_subset hs).trans (Finset.subset_insert _ _)

theorem addTriples_settings (env : Env) : ∀ (is : List Insertion) (self : PROVIO),
    SameSettings (self.addTriples env is).2 self
  | [], self => .refl self
  | i :: is, self => by
    have hi := addTriple_settings env self i
    rw [addTriples]
    cases hr : self.addTriple env i with
    | mk e s =>
      rw [hr] at hi
      cases e with
      | some e => exact hi
      | none => exact (addTriples_settings env is s).trans hi

theorem addTriples_subset (env : Env) : ∀ (is : List Insertion) (self : PROVIO),
    self._model ⊆ (self.addTriples env is).2._model
  | [], _ => Finset.Subset.refl _
  | i :: is, self => by
    have hi := addTriple_subset env self i
    rw [addTriples]
    cases hr : self.addTriple env i with
    | mk e s =>
      rw [hr] at hi
      cases e with
      | some e => exact hi
      | none => exact hi.trans (addTriples_subset env is s)

/-- The records of two states belong to the same version. -/
structure SameVersion (p q : PROVIO) : Prop where
  _version        : p._version = q._version
  _enable_version : p._enable_version = q._enable_version

theorem call_version (env : Env) (self : PROVIO) (c : Call) : SameVersion (call env self c) self := by
  have hsettled : SameVersion (self.settled env c) self := by
    cases c with
    | setIdentifier _id =>
      simp only [settled, setIdentifier]
      cases env.strOf _id <;> exact ⟨rfl, rfl⟩
    | _ => exact ⟨rfl, rfl⟩
  have hsame := addTriples_settings env (self.insertions env c) (self.settled env c)
  rw [call_eq]
  exact ⟨hsame._version.trans hsettled._version, hsame._enable_version.trans hsettled._enable_version⟩

theorem calls_version (env : Env) : ∀ (cs : List Call) (self : PROVIO), SameVersion (self.calls env cs) self
  | [], _ => ⟨rfl, rfl⟩
  | c :: cs, self => by
    have hc := call_version env self c
    have hcs := calls_version env cs (call env self c)
    exact ⟨hcs._version.trans hc._version, hcs._enable_version.trans hc._enable_version⟩

/-- **What insertions that all go through leave.** -/
structure Inserted (env : Env) (p : PROVIO) (is : List Insertion) (q : PROVIO) : Prop where
  settings : SameSettings q p
  subset   : p._model ⊆ q._model
  written  : is ≠ [] → q.Written
  held     : ∀ i ∈ is, ∃ t, env.triple i = some t ∧ t ∈ q._model

theorem addTriples_ok : ∀ {is : List Insertion} {p q : PROVIO}, p.addTriples env is = (none, q) →
    Inserted env p is q
  | [], p, q, h => by
    cases h
    exact ⟨.refl p, Finset.Subset.refl _, fun h => absurd rfl h, fun i hi => absurd hi List.not_mem_nil⟩
  | i :: is, p, q, h => by
    rw [addTriples] at h
    obtain ⟨-, hi⟩ | ⟨s, -, -, hi⟩ | ⟨s, t, -, ht, hi⟩ := addTriple_cases env p i
    · rw [hi] at h
      cases h
    · rw [hi] at h
      cases h
    · have hsubset := addTriple_subset env p i
      cases hr : p.addTriple env i with
      | mk e r =>
        rw [hr] at h hi hsubset
        cases e with
        | some e => cases h
        | none =>
          have ih := addTriples_ok (show r.addTriples env is = (none, q) from h)
          have hmem : t ∈ r._model := hi.model ▸ Finset.mem_insert_self t _
          refine ⟨ih.settings.trans hi.settings, hsubset.trans ih.subset, fun _ => ?_, fun j hj => ?_⟩
          · cases is with
            | nil =>
              cases h
              exact hi.written
            | cons j is => exact ih.written (List.cons_ne_nil j is)
          · cases hj with
            | head => exact ⟨t, ht, ih.subset hmem⟩
            | tail _ hj => exact ih.held j hj

end PROVIO

end Provio
