import Provio.Provenance
/-!
# Metrics — a metric and the three statements that make it

`add_metric_to_version` adds the metric's value and the two links one after the other, and catches what an insertion
raises: a call cut short leaves the statements added by then (`links_model`), and is whole only if those it lacks were
there before (`addMetricToVersion_atomic_iff`).
-/
namespace Provio

/-! ## Statements -/

def predicates : List Str := [str "ns1:Type", str "ns1:hasValue", str "ns1:belongsTo", str "ns1:hasMetrics"]

/-- The library makes URIs of the predicates. -/
def Env.Predicates (env : Env) : Prop := ∀ w ∈ predicates, env.uri (.str w) = some (.uri w)

section Triples

variable {env : Env}

theorem triple_value (x p o : PyVal) :
    env.triple ⟨x, p, o, .str (str "value")⟩ = env.statement x p (env.node (env.valueOf o)) := by
  simp only [Env.triple, if_true]

theorem triple_uri (x p o : PyVal) : env.triple ⟨x, p, o, .str (str "uri")⟩ = env.statement x p (env.uri o) := by
  have hne : PyVal.str (str "uri") ≠ .str (str "value") := by decide
  simp only [Env.triple, hne, if_false]

theorem statement_eq_some {x : PyVal} {p : Str} (hp : env.uri (.str p) = some (.uri p)) {o : Option RDFNode} {t : Triple} :
    env.statement x (.str p) o = some t ↔ ∃ s o', env.uri x = some s ∧ o = some o' ∧ t = ⟨s, .uri p, o'⟩ := by
  unfold Env.statement
  rw [hp]
  cases env.uri x <;> cases o <;> simp [eq_comm]

end Triples

namespace PROVIO

section Links

variable {env : Env} {self s : PROVIO} {M value W : PyVal} {m v w : RDFNode}

def valueTriple (m v : RDFNode) : Triple := ⟨m, .uri (str "ns1:hasValue"), v⟩

def belongsTriple (m w : RDFNode) : Triple := ⟨m, .uri (str "ns1:belongsTo"), w⟩

def metricsTriple (m w : RDFNode) : Triple := ⟨w, .uri (str "ns1:hasMetrics"), m⟩

theorem value_ne_belongs : valueTriple m v ≠ belongsTriple m w := fun h =>
  absurd (congrArg Triple._predicate h) (show RDFNode.uri (str "ns1:hasValue") ≠ .uri (str "ns1:belongsTo") by decide)

theorem value_ne_metrics : valueTriple m v ≠ metricsTriple m w := fun h =>
  absurd (congrArg Triple._predicate h) (show RDFNode.uri (str "ns1:hasValue") ≠ .uri (str "ns1:hasMetrics") by decide)

theorem belongs_ne_metrics {w' : RDFNode} : belongsTriple m w ≠ metricsTriple m w' := fun h =>
  absurd (congrArg Triple._predicate h) (show RDFNode.uri (str "ns1:belongsTo") ≠ .uri (str "ns1:hasMetrics") by decide)

theorem triple_hasValue (hwords : env.Predicates) (hm : env.uri M = some m) (hv : env.node (env.valueOf value) = some v) :
    env.triple ⟨M, .str (str "ns1:hasValue"), value, .str (str "value")⟩ = some (valueTriple m v) := by
  rw [triple_value, statement_eq_some (hwords _ (by decide))]
  exact ⟨m, v, hm, hv, rfl⟩

theorem triple_belongsTo (hwords : env.Predicates) (hm : env.uri M = some m) (hw : env.uri W = some w) :
    env.triple ⟨M, .str (str "ns1:belongsTo"), W, .str (str "uri")⟩ = some (belongsTriple m w) := by
  rw [triple_uri, statement_eq_some (hwords _ (by decide))]
  exact ⟨m, w, hm, hw, rfl⟩

theorem triple_hasMetrics (hwords : env.Predicates) (hm : env.uri M = some m) (hw : env.uri W = some w) :
    env.triple ⟨W, .str (str "ns1:hasMetrics"), M, .str (str "uri")⟩ = some (metricsTriple m w) := by
  rw [triple_uri, statement_eq_some (hwords _ (by decide))]
  exact ⟨w, m, hw, hm, rfl⟩

theorem triple_no_object (hw : env.uri W = none) (x p : PyVal) : env.triple ⟨x, p, W, .str (str "uri")⟩ = none := by
  rw [triple_uri, hw]
  unfold Env.statement
  cases env.uri x <;> cases env.uri p <;> rfl

theorem triple_no_subject (hw : env.uri W = none) (p x : PyVal) : env.triple ⟨W, p, x, .str (str "uri")⟩ = none := by
  simp only [triple_uri, Env.statement, hw]

/-- **What the three insertions leave**, wherever they are cut short. -/
theorem links_model (hwords : env.Predicates) (hs : self.writeVersion env = some s) (hm : env.uri M = some m)
    (hv : env.node (env.valueOf value) = some v) : (self.addTriples env (metricLinks M value W)).2._model =
      match env.uri W with
      | none   => insert (valueTriple m v) s._model
      | some w =>
        if self.dumpFails env (self._op_count + 1) then insert (valueTriple m v) s._model
        else if self.dumpFails env (self._op_count + 2) then
          insert (belongsTriple m w) (insert (valueTriple m v) s._model)
        else insert (metricsTriple m w) (insert (belongsTriple m w) (insert (valueTriple m v) s._model)) := by
  have h₁ := triple_hasValue hwords hm hv
  have a₁ := addTriple_added hs h₁
  rw [metricLinks, addTriples_cons a₁]
  have hc₁ : (self.addTriple env ⟨M, .str (str "ns1:hasValue"), value, .str (str "value")⟩).2._op_count =
    self._op_count + 1 := a₁.count
  generalize self.addTriple env ⟨M, .str (str "ns1:hasValue"), value, .str (str "value")⟩ = r₁ at a₁ hc₁ ⊢
  cases hd₁ : self.dumpFails env (self._op_count + 1) with
  | true =>
    rw [if_pos rfl, a₁.model]
    cases env.uri W <;> rfl
  | false =>
    have hs₁ := @writeVersion_of_written env _ a₁.written
    rw [if_neg (by decide)]
    cases hw : env.uri W with
    | none =>
      rw [addTriples_cons_refused hs₁ (triple_no_object hw _ _)]
      exact a₁.model
    | some w =>
      have a₂ := addTriple_added hs₁ (triple_belongsTo hwords hm hw)
      have hd₂ : r₁.2.dumpFails env (r₁.2._op_count + 1) = self.dumpFails env (self._op_count + 2) := by
        rw [dumpFails_congr a₁.settings, hc₁]
      rw [addTriples_cons a₂, hd₂]
      generalize r₁.2.addTriple env ⟨M, .str (str "ns1:belongsTo"), W, .str (str "uri")⟩ = r₂ at a₂ ⊢
      cases self.dumpFails env (self._op_count + 2) with
      | true =>
        rw [if_pos rfl, a₂.model, a₁.model]
        rfl
      | false =>
        have a₃ := addTriple_added (@writeVersion_of_written env _ a₂.written) (triple_hasMetrics hwords hm hw)
        rw [if_neg (by decide), addTriples_cons a₃]
        have hlast : ∀ b : Bool, (if b = true then r₂.2.addTriple env ⟨W, .str (str "ns1:hasMetrics"), M, .str (str "uri")⟩
            else (r₂.2.addTriple env ⟨W, .str (str "ns1:hasMetrics"), M, .str (str "uri")⟩).2.addTriples env []).2._model =
            insert (metricsTriple m w) r₂.2._model := fun b => by
          cases b <;> exact a₃.model
        rw [hlast, a₂.model, a₁.model]
        rfl

theorem mem_of_writeVersion (hwords : env.Predicates) (hs : self.writeVersion env = some s) {t : Triple}
    (ht : t._predicate ≠ .uri (str "ns1:Type")) : t ∈ s._model ↔ t ∈ self._model := by
  obtain ⟨model, write, rfl, -, rfl | ⟨t', ht', rfl⟩⟩ := writeVersion_eq hs
  · exact Iff.rfl
  · obtain ⟨-, -, -, -, rfl⟩ := (statement_eq_some (hwords (str "ns1:Type") (by decide))).1 ht'
    simp only [Finset.mem_insert]
    refine or_iff_right (fun he => ht ?_)
    rw [he]

/-! ## Atomicity -/

/-- A statement of the metric was added that was not there before. -/
def AddsOne (env : Env) (p q : PROVIO) (M value W : PyVal) : Prop :=
  ∃ i ∈ metricLinks M value W, ∃ t, env.triple i = some t ∧ t ∈ q._model ∧ t ∉ p._model

def Linked (env : Env) (q : PROVIO) (M W : PyVal) : Prop := ∃ t₂ t₃,
  env.triple ⟨M, .str (str "ns1:belongsTo"), W, .str (str "uri")⟩ = some t₂ ∧
  env.triple ⟨W, .str (str "ns1:hasMetrics"), M, .str (str "uri")⟩ = some t₃ ∧ t₂ ∈ q._model ∧ t₃ ∈ q._model

/-- **A call that adds any of the metric's statements leaves both links**, and one that raises changes nothing. -/
structure Atomic (env : Env) (p : PROVIO) (metric value : PyVal) (version : Option PyVal) : Prop where
  raised : (p.addMetricToVersion env metric value version).1.isSome = true →
    (p.addMetricToVersion env metric value version).2 = p
  whole  : ∀ M W, p.versionMetric metric = .ok M → p.metricVersion env version = .ok W →
    AddsOne env p (p.addMetricToVersion env metric value version).2 M (env.valueOf value) W →
    Linked env (p.addMetricToVersion env metric value version).2 M W

def Held (env : Env) (p : PROVIO) (i : Insertion) : Prop := ∃ t, env.triple i = some t ∧ t ∈ p._model

def Starts (env : Env) (p : PROVIO) (M value : PyVal) : Prop :=
  (p.writeVersion env).isSome = true ∧
    (env.triple ⟨M, .str (str "ns1:hasValue"), value, .str (str "value")⟩).isSome = true

/-- **Where the insertions are cut short, the statements before the call make up for it**: after the first, by a dump that
fails or a version that is no node, and after the second, by a dump that fails. -/
def Cushioned (env : Env) (p : PROVIO) (metric value : PyVal) (version : Option PyVal) : Prop :=
  ∀ M W, p.versionMetric metric = .ok M → p.metricVersion env version = .ok W → Starts env p M (env.valueOf value) →
    let l₁ : Insertion := ⟨M, .str (str "ns1:hasValue"), env.valueOf value, .str (str "value")⟩
    let l₂ : Insertion := ⟨M, .str (str "ns1:belongsTo"), W, .str (str "uri")⟩
    let l₃ : Insertion := ⟨W, .str (str "ns1:hasMetrics"), M, .str (str "uri")⟩
    (p.dumpFails env (p._op_count + 1) = true ∨ env.uri W = none → Held env p l₁ ∨ Held env p l₂ ∧ Held env p l₃) ∧
    (p.dumpFails env (p._op_count + 1) = false → env.uri W ≠ none → p.dumpFails env (p._op_count + 2) = true →
      Held env p l₁ ∧ Held env p l₂ ∨ Held env p l₃)

theorem not_addsOne (hwords : env.Predicates) (h : ¬ Starts env self M value) :
    ¬ AddsOne env self (self.addTriples env (metricLinks M value W)).2 M value W := by
  rintro ⟨i, hi, t, ht, hnew, hold⟩
  have hpred : t._predicate ≠ .uri (str "ns1:Type") := by
    have hvalue := hwords (str "ns1:hasValue") (by decide)
    have hbelongs := hwords (str "ns1:belongsTo") (by decide)
    have hmetrics := hwords (str "ns1:hasMetrics") (by decide)
    simp only [metricLinks, List.mem_cons, List.not_mem_nil, or_false] at hi
    rcases hi with rfl | rfl | rfl
    · obtain ⟨-, -, -, -, rfl⟩ := (statement_eq_some hvalue).1 (triple_value .. ▸ ht)
      show RDFNode.uri (str "ns1:hasValue") ≠ .uri (str "ns1:Type")
      decide
    · obtain ⟨-, -, -, -, rfl⟩ := (statement_eq_some hbelongs).1 (triple_uri .. ▸ ht)
      show RDFNode.uri (str "ns1:belongsTo") ≠ .uri (str "ns1:Type")
      decide
    · obtain ⟨-, -, -, -, rfl⟩ := (statement_eq_some hmetrics).1 (triple_uri .. ▸ ht)
      show RDFNode.uri (str "ns1:hasMetrics") ≠ .uri (str "ns1:Type")
      decide
  cases hs : self.writeVersion env with
  | none =>
    simp only [metricLinks, addTriples, addTriple_unversioned hs] at hnew
    exact hold hnew
  | some s =>
    cases hl : env.triple ⟨M, .str (str "ns1:hasValue"), value, .str (str "value")⟩ with
    | some t₁ => exact h ⟨by rw [hs]; rfl, by rw [hl]; rfl⟩
    | none =>
      rw [metricLinks, addTriples_cons_refused hs hl] at hnew
      exact hold ((mem_of_writeVersion hwords hs hpred).1 hnew)

/-- **The three insertions add something only together, exactly when every cut is made up for.** -/
theorem links_atomic (hwords : env.Predicates) (hstart : Starts env self M value) :
    (AddsOne env self (self.addTriples env (metricLinks M value W)).2 M value W →
      Linked env (self.addTriples env (metricLinks M value W)).2 M W) ↔
    let l₁ : Insertion := ⟨M, .str (str "ns1:hasValue"), value, .str (str "value")⟩
    let l₂ : Insertion := ⟨M, .str (str "ns1:belongsTo"), W, .str (str "uri")⟩
    let l₃ : Insertion := ⟨W, .str (str "ns1:hasMetrics"), M, .str (str "uri")⟩
    (self.dumpFails env (self._op_count + 1) = true ∨ env.uri W = none →
      Held env self l₁ ∨ Held env self l₂ ∧ Held env self l₃) ∧
    (self.dumpFails env (self._op_count + 1) = false → env.uri W ≠ none →
      self.dumpFails env (self._op_count + 2) = true → Held env self l₁ ∧ Held env self l₂ ∨ Held env self l₃) := by
  obtain ⟨hs, h₁⟩ := hstart
  obtain ⟨s, hs⟩ := Option.isSome_iff_exists.1 hs
  obtain ⟨t, h₁⟩ := Option.isSome_iff_exists.1 h₁
  obtain ⟨m, v, hm, hv, -⟩ := (statement_eq_some (hwords (str "ns1:hasValue") (by decide))).1 (triple_value .. ▸ h₁)
  have h₁ := triple_hasValue hwords hm hv
  have hmodel := links_model (W := W) hwords hs hm hv
  have hkeep : ∀ t : Triple, t._predicate ≠ .uri (str "ns1:Type") → (t ∈ s._model ↔ t ∈ self._model) :=
    fun t => mem_of_writeVersion hwords hs
  have k₁ : valueTriple m v ∈ s._model ↔ valueTriple m v ∈ self._model :=
    hkeep _ (show RDFNode.uri (str "ns1:hasValue") ≠ .uri (str "ns1:Type") by decide)
  have k₂ : ∀ w, belongsTriple m w ∈ s._model ↔ belongsTriple m w ∈ self._model := fun w =>
    hkeep _ (show RDFNode.uri (str "ns1:belongsTo") ≠ .uri (str "ns1:Type") by decide)
  have k₃ : ∀ w, metricsTriple m w ∈ s._model ↔ metricsTriple m w ∈ self._model := fun w =>
    hkeep _ (show RDFNode.uri (str "ns1:hasMetrics") ≠ .uri (str "ns1:Type") by decide)
  generalize (self.addTriples env (metricLinks M value W)).2 = q at hmodel ⊢
  cases hw : env.uri W with
  | none =>
    rw [hw] at hmodel
    simp [AddsOne, Linked, Held, metricLinks, h₁, triple_no_object hw, triple_no_subject hw, hmodel, k₁]
  | some w =>
    have h₂ := triple_belongsTo hwords hm hw
    have h₃ := triple_hasMetrics hwords hm hw
    rw [hw] at hmodel
    simp only [AddsOne, Linked, Held, metricLinks, List.mem_cons, List.not_mem_nil, or_false, exists_eq_or_imp,
      exists_eq_left, h₁, h₂, h₃, Option.some.injEq, exists_eq_left', hmodel]
    cases self.dumpFails env (self._op_count + 1) <;> cases self.dumpFails env (self._op_count + 2) <;>
      simp [k₁, k₂, k₃, value_ne_belongs, value_ne_metrics, belongs_ne_metrics, value_ne_belongs.symm,
        value_ne_metrics.symm, belongs_ne_metrics.symm]
    case false.true => rw [← not_and_or, ← or_iff_not_imp_left]
    case true.false => exact or_iff_not_imp_left.symm
    case true.true => exact or_iff_not_imp_left.symm

/-- `add_metric_to_version` is atomic exactly where no cut matters. -/
theorem addMetricToVersion_atomic_iff (hwords : env.Predicates) (p : PROVIO) (metric value : PyVal)
    (version : Option PyVal) : Atomic env p metric value version ↔ Cushioned env p metric value version := by
  cases hM : p.versionMetric metric with
  | error e =>
    refine ⟨fun _ M W h => ?_, fun _ => ⟨fun _ => ?_, fun M W h => ?_⟩⟩
    · rw [hM] at h; cases h
    · simp only [addMetricToVersion, hM]
    · rw [hM] at h; cases h
  | ok M =>
    cases hW : p.metricVersion env version with
    | error e =>
      refine ⟨fun _ _ W _ h => ?_, fun _ => ⟨fun _ => ?_, fun _ W _ h => ?_⟩⟩
      · rw [hW] at h; cases h
      · simp only [addMetricToVersion, hM, hW]
      · rw [hW] at h; cases h
    | ok W =>
      have hcall : p.addMetricToVersion env metric value version =
          (none, (p.addTriples env (metricLinks M (env.valueOf value) W)).2) := by
        simp only [addMetricToVersion, hM, hW]
      constructor
      · rintro ⟨-, hwhole⟩ M' W' hM' hW' hstart
        cases hM.symm.trans hM'
        cases hW.symm.trans hW'
        have hwhole := hwhole M W hM hW
        rw [hcall] at hwhole
        exact (links_atomic hwords hstart).1 hwhole
      · intro hc
        refine ⟨fun h => ?_, fun M' W' hM' hW' hadds => ?_⟩
        · rw [hcall] at h
          cases h
        · cases hM.symm.trans hM'
          cases hW.symm.trans hW'
          rw [hcall] at hadds ⊢
          by_cases hstart : Starts env p M (env.valueOf value)
          · exact (links_atomic hwords hstart).2 (hc M W hM hW hstart) hadds
          · exact absurd hadds (not_addsOne hwords hstart)

end Links

/-- The other objects are numbers, every string is accepted, and a dump ends well. -/
def plain : Env where
  text o := some (Nat.toDigits 10 o)
  first_v _ := false
  uri x := match x with
    | .str s => some (.uri s)
    | _      => none
  node x := match x with
    | .str s => some (.literal s)
    | _      => none
  targets model s p := decide (∃ t ∈ model, t._subject = s ∧ t._predicate = p)
  dumped _ := .done
  json := ⟨.str, fun _ => none, fun _ => []⟩

theorem plain_predicates : plain.Predicates := fun _ _ => rfl

/-- A dump at every insertion, and no path to dump to. -/
def unplaced : PROVIO where
  _id := some (str "run")
  _version := .str (str "v1.0")
  _enable_version := true
  _first_write := true
  _period := some 1
  _op_count := 0
  _serializer := true
  _serialize_path := none
  _model := ∅
  disk := .empty

def placed : PROVIO := unplaced.setSerializationPath (str "prov.turtle")

theorem addMetricToVersion_atomic_placed :
    Atomic plain placed (.str (str "acc")) (.str (str "0.9")) none ↔
      Cushioned plain placed (.str (str "acc")) (.str (str "0.9")) none :=
  addMetricToVersion_atomic_iff plain_predicates ..

/-- The dump raises after the value has been added. -/
theorem addMetricToVersion_lone_value : ∃ self,
    PROVIO.init plain ⟨none, false, false, none, none, some (str "turtle"), some 1⟩ [] .empty = .ok self ∧
      (self.setIdentifier plain (.str (str "run"))).2 = unplaced ∧
      ¬ Atomic plain unplaced (.str (str "acc")) (.str (str "0.9")) none := by
  refine ⟨_, rfl, rfl, fun h => ?_⟩
  have hadds : AddsOne plain unplaced (unplaced.addMetricToVersion plain (.str (str "acc")) (.str (str "0.9")) none).2
      (.str (str "acc-run")) (plain.valueOf (.str (str "0.9"))) unplaced._version :=
    ⟨_, List.mem_cons_self .., valueTriple (.uri (str "acc-run")) (.literal (str "0.9")), rfl, by decide, by decide⟩
  obtain ⟨t₂, t₃, h₂, -, hmem, -⟩ := h.whole _ _ rfl rfl hadds
  cases h₂
  exact absurd hmem (by decide)

end PROVIO

end Provio
