import Mathlib.Data.Set.Finite.Basic
import Provio.Calls
import Provio.Metrics
/-!
# MetricNames — the nodes of records, metrics and versions

A record's subject takes the identifier on only if there is one, a metric's always, and only a metric that is a string
has a name for `add_metric_to_version`.  The constructor puts a `v` before every version, `add_metric_to_version` only
before one without.
-/
namespace Provio

/-- The library makes a node of every string, and another of every other. -/
structure Env.AcceptsStrings (env : Env) : Prop where
  uri  : ∀ s, env.uri (.str s) = some (.uri s)
  node : ∀ s, env.node (.str s) = some (.literal s)

/-- What `get_targets` returns is true where there is a target. -/
def Env.FindsRecords (env : Env) : Prop := ∀ model s p o, (⟨s, p, o⟩ : Triple) ∈ model → env.targets model s p = true

open Ordered (Dict)

namespace PROVIO

variable {env : Env}

theorem predicates_of_strings (hstr : env.AcceptsStrings) : env.Predicates := fun w _ => hstr.uri w

/-- A value ends up as a string whatever it is: what cannot be converted is `None`, which can. -/
theorem node_valueOf (hstr : env.AcceptsStrings) (value : PyVal) :
    ∃ s, env.node (env.valueOf (env.valueOf value)) = some (.literal s) := by
  simp only [Env.valueOf]
  cases env.strOf value with
  | none => exact ⟨_, hstr.node (str "None")⟩
  | some s => exact ⟨s, hstr.node s⟩

theorem metricLinks_inj {M value W M' value' W' : PyVal} (h : metricLinks M value W = metricLinks M' value' W') :
    M = M' ∧ W = W' := by
  simp only [metricLinks, List.cons.injEq, Insertion.mk.injEq] at h
  exact ⟨h.1.1, h.2.1.2.2.1⟩

/-! ## Records and metrics -/

/-- **A metric goes to the record that was made, and has one name for the record and for the version.** -/
structure Agrees (env : Env) (p : PROVIO) (field record : Str) (metric value : PyVal) : Prop where
  returns   : (p.addMetricToRecord env field metric value).1 = none
  toRecord  : p.insertions env (.addMetricToRecord field metric value) =
    metricLinks (p.recordMetric env metric) (env.valueOf value) (.str record)
  toVersion : p.insertions env (.addMetricToVersion metric value none) =
    metricLinks (p.recordMetric env metric) (env.valueOf value) p._version
  linked    : Linked env (p.addMetricToRecord env field metric value).2 (p.recordMetric env metric) (.str record)

/-- No dump that fails leaves out a link that the model lacks. -/
def Uncut (env : Env) (p : PROVIO) (M W : PyVal) : Prop :=
  let l₂ : Insertion := ⟨M, .str (str "ns1:belongsTo"), W, .str (str "uri")⟩
  let l₃ : Insertion := ⟨W, .str (str "ns1:hasMetrics"), M, .str (str "uri")⟩
  (p.dumpFails env (p._op_count + 1) = true → Held env p l₂ ∧ Held env p l₃) ∧
    (p.dumpFails env (p._op_count + 1) = false → p.dumpFails env (p._op_count + 2) = true → Held env p l₃)

theorem linked_iff (hwords : env.Predicates) {p : PROVIO} (hp : p.Written) {M value W : PyVal} {m v w : RDFNode}
    (hm : env.uri M = some m) (hv : env.node (env.valueOf value) = some v) (hw : env.uri W = some w) :
    Linked env (p.addTriples env (metricLinks M value W)).2 M W ↔ Uncut env p M W := by
  have hmodel := links_model (W := W) hwords (writeVersion_of_written hp) hm hv
  generalize (p.addTriples env (metricLinks M value W)).2 = q at hmodel ⊢
  rw [hw] at hmodel
  simp only [Linked, Uncut, Held, triple_belongsTo hwords hm hw, triple_hasMetrics hwords hm hw, Option.some.injEq,
    exists_eq_left', hmodel]
  cases p.dumpFails env (p._op_count + 1) <;> cases p.dumpFails env (p._op_count + 2) <;>
    simp [value_ne_belongs.symm, value_ne_metrics.symm, belongs_ne_metrics.symm]

section Records

variable {files : Dir} {self p : PROVIO} {field : Str} {type value : Option PyVal}

theorem newRecord_ok (hstr : env.AcceptsStrings) (h : self.newRecord env files field type value = (none, p)) :
    SameSettings p self ∧ p.Written ∧
      ∃ o, (⟨.uri (self.recordName field), .uri (str "ns1:Type"), o⟩ : Triple) ∈ p._model := by
  unfold newRecord at h
  split at h
  · cases h
  · rename_i _type _
    have hins := addTriples_ok h
    refine ⟨hins.settings, hins.written (by simp [recordTriples]), ?_⟩
    obtain ⟨t, ht, hmem⟩ := hins.held ⟨.str (self.recordName field), .str (str "ns1:Type"), _type, .str (str "value")⟩
      (by simp [recordTriples])
    obtain ⟨s, o, hs, -, rfl⟩ := (statement_eq_some (hstr.uri _)).1 (triple_value .. ▸ ht)
    rw [hstr.uri] at hs
    cases hs
    exact ⟨o, hmem⟩

theorem recordSubject_eq_recordName (self : PROVIO) (field : Str) :
    self.recordSubject field = .ok (self.recordName field) ↔ ∃ id, self._id = some id ∧ id ≠ [] := by
  unfold recordSubject recordName
  cases self._id with
  | none => simp
  | some id =>
    dsimp only
    split
    · rename_i hid
      subst hid
      simp [str]
    · rename_i hid
      exact ⟨fun _ => ⟨id, rfl, hid⟩, fun _ => rfl⟩

theorem versionMetric_eq_recordMetric {metric : PyVal} (hmetric : (env.strOf metric).isSome = true) {id : Str}
    (hid : self._id = some id) :
    self.versionMetric metric = .ok (self.recordMetric env metric) ↔ ∃ m, metric = .str m := by
  obtain ⟨s, hs⟩ := Option.isSome_iff_exists.1 hmetric
  cases metric with
  | str m => simp [versionMetric, recordMetric, Env.strOf, hid]
  | none => simp [versionMetric, recordMetric, hs]
  | other o => simp [versionMetric, recordMetric, hs]

theorem insertions_toVersion (p : PROVIO) (metric value M : PyVal) :
    p.insertions env (.addMetricToVersion metric value none) = metricLinks M (env.valueOf value) p._version ↔
      p.versionMetric metric = .ok M := by
  simp only [insertions, metricVersion]
  cases p.versionMetric metric with
  | error e => simp [metricLinks]
  | ok M' => exact ⟨fun h => congrArg _ (metricLinks_inj h).1, fun h => by rw [Except.ok.inj h]⟩

theorem insertions_toRecord (hstr : env.AcceptsStrings) {p : PROVIO} {record : Str}
    (htargets : env.targets p._model (.uri record) (.uri (str "ns1:Type")) = true) (metric value : PyVal) :
    p.insertions env (.addMetricToRecord field metric value) =
        metricLinks (p.recordMetric env metric) (env.valueOf value) (.str record) ↔ p.recordSubject field = .ok record := by
  simp only [insertions, hstr.uri]
  cases p.recordSubject field with
  | error e => simp [metricLinks]
  | ok r =>
    refine ⟨fun h => ?_, fun h => ?_⟩
    · dsimp only at h
      split at h
      · rw [PyVal.str.inj (metricLinks_inj h).2]
      · cases h
    · cases h
      exact if_pos htargets

/-- Without an identifier the metric call raises, with an empty one it looks for another subject than the record's, and a
metric that is no string has no name for the version. -/
theorem addMetricToRecord_agrees_iff (hstr : env.AcceptsStrings) (hfinds : env.FindsRecords)
    (hnew : self.newRecord env files field type value = (none, p)) {metric : PyVal}
    (hmetric : (env.strOf metric).isSome = true) (v : PyVal) : Agrees env p field (self.recordName field) metric v ↔
      (∃ id, self._id = some id ∧ id ≠ []) ∧ (∃ m, metric = .str m) ∧
        Uncut env p (p.recordMetric env metric) (.str (self.recordName field)) := by
  obtain ⟨hsame, hwritten, o, ho⟩ := newRecord_ok hstr hnew
  have hname : p.recordName field = self.recordName field := by rw [recordName, recordName, hsame._id]
  have hrecord := @insertions_toRecord env field hstr p (self.recordName field) (hfinds _ _ _ _ ho) metric v
  have hsubject := recordSubject_eq_recordName p field
  rw [hname, hsame._id] at hsubject
  have hcall : (p.addMetricToRecord env field metric v).2 =
      (p.addTriples env (p.insertions env (.addMetricToRecord field metric v))).2 :=
    call_eq env p (.addMetricToRecord field metric v)
  have hlinked : p.insertions env (.addMetricToRecord field metric v) =
      metricLinks (p.recordMetric env metric) (env.valueOf v) (.str (self.recordName field)) →
      (Linked env (p.addMetricToRecord env field metric v).2 (p.recordMetric env metric) (.str (self.recordName field)) ↔
        Uncut env p (p.recordMetric env metric) (.str (self.recordName field))) := fun h => by
    obtain ⟨s, hs⟩ := Option.isSome_iff_exists.1 hmetric
    obtain ⟨x, hx⟩ := node_valueOf hstr v
    have hm : env.uri (p.recordMetric env metric) = some (.uri (s ++ str "-" ++ p._id.getD [])) := by
      rw [recordMetric, hs]
      exact hstr.uri _
    rw [hcall, h]
    exact linked_iff (predicates_of_strings hstr) hwritten hm hx (hstr.uri _)
  constructor
  · intro h
    obtain ⟨id, hid, hne⟩ := hsubject.1 (hrecord.1 h.toRecord)
    refine ⟨⟨id, hid, hne⟩, ?_, (hlinked h.toRecord).1 h.linked⟩
    exact (versionMetric_eq_recordMetric hmetric (hsame._id.trans hid)).1 ((insertions_toVersion ..).1 h.toVersion)
  · rintro ⟨⟨id, hid, hne⟩, hstring, huncut⟩
    have hs := hsubject.2 ⟨id, hid, hne⟩
    have hto := hrecord.2 hs
    refine ⟨?_, hto, ?_, (hlinked hto).2 huncut⟩
    · simp only [addMetricToRecord, hs, hstr.uri]
      split <;> rfl
    · exact (insertions_toVersion ..).2 ((versionMetric_eq_recordMetric hmetric (hsame._id.trans hid)).2 hstring)

end Records

theorem plain_strings : plain.AcceptsStrings := ⟨fun _ => rfl, fun _ => rfl⟩

theorem plain_finds : plain.FindsRecords := fun _ _ _ _ h => decide_eq_true ⟨_, h, rfl, rfl⟩

def recorded : PROVIO :=
  (placed.newRecord plain .empty (str "lr") (some (.str (str "Hyperparam"))) none).2

theorem addMetricToRecord_agrees_recorded :
    Agrees plain recorded (str "lr") (placed.recordName (str "lr")) (.str (str "acc")) (.other 1) :=
  have hnew : placed.newRecord plain .empty (str "lr") (some (.str (str "Hyperparam"))) none =
    (none, recorded) := Prod.ext rfl rfl
  (addMetricToRecord_agrees_iff plain_strings plain_finds hnew rfl _).2
    ⟨⟨_, rfl, by decide⟩, ⟨_, rfl⟩, fun h => absurd h (by decide), fun _ h => absurd h (by decide)⟩

/-- A graph that is dumped periodically has no identifier. -/
theorem addMetricToRecord_without_id : ∃ self p,
    PROVIO.init plain ⟨none, false, false, none, none, some (str "turtle"), some 10⟩ [] .empty = .ok self ∧
      (self.setSerializationPath (str "prov.turtle")).newRecord plain .empty (str "lr")
        (some (.str (str "Hyperparam"))) none = (none, p) ∧
      ¬ Agrees plain p (str "lr") (str "lr") (.str (str "acc")) (.str (str "0.9")) := by
  refine ⟨_, _, rfl, rfl, fun h => ?_⟩
  cases h.returns

/-! ## Versions -/

/-- **In the model, a record made now and every metric added now to the version `s` belong to `V`**, and the metric has
the name of the identifier. -/
structure RefersTo (env : Env) (p : PROVIO) (s : Str) (V : RDFNode) : Prop where
  record : ∀ files field type value q, p.newRecord env files field type value = (none, q) →
    belongsTriple (.uri (p.recordName field)) V ∈ q._model
  metric : ∃ id, p._id = some id ∧ ∀ m value, ∃ q,
    p.addMetricToVersion env (.str m) value (some (.str s)) = (none, q) ∧
      belongsTriple (.uri (m ++ str "-" ++ id)) V ∈ q._model ∧ metricsTriple (.uri (m ++ str "-" ++ id)) V ∈ q._model

/-- No dump that is due at one of the next two insertions fails. -/
def DumpsPass (env : Env) (p : PROVIO) : Prop :=
  p.dumpFails env (p._op_count + 1) = false ∧ p.dumpFails env (p._op_count + 2) = false

/-- The names that the constructor and `add_metric_to_version` give to a version. -/
inductive VersionName (env : Env) (s : Str) : PyVal → Prop where
  | init (v : Str) (h : initVersion env true (some (.str s)) = .ok v) : VersionName env s (.str v)
  | metric (p : PROVIO) (x : PyVal) (h : p.metricVersion env (some (.str s)) = .ok x) : VersionName env s x

theorem versionName_eq {s : Str} {x : PyVal} (h : VersionName env s x) :
    x = .str ('v' :: s) ∨ x = .str s ∧ ∃ r, s = 'v' :: r := by
  cases h with
  | init v h =>
    cases h
    exact .inl rfl
  | metric p x h =>
    cases s with
    | nil => cases h
    | cons c r =>
      simp only [metricVersion, Except.ok.injEq] at h
      subst h
      by_cases hc : c = 'v'
      · subst hc
        exact .inr ⟨rfl, r, rfl⟩
      · rw [if_pos hc]
        exact .inl rfl

/-- Versions share a name only if they differ by a leading `v`. -/
theorem versionName_ne {s t : Str} (hne : t ≠ s) (hs : t ≠ 'v' :: s) (ht : s ≠ 'v' :: t) {x y : PyVal}
    (hx : VersionName env s x) (hy : VersionName env t y) : x ≠ y := by
  rintro rfl
  obtain hx | ⟨hx, -⟩ := versionName_eq hx
  · obtain hy | ⟨hy, -⟩ := versionName_eq hy
    · exact hne (List.cons.inj (PyVal.str.inj (hx.symm.trans hy))).2.symm
    · exact hs (PyVal.str.inj (hx.symm.trans hy)).symm
  · obtain hy | ⟨hy, -⟩ := versionName_eq hy
    · exact ht (PyVal.str.inj (hx.symm.trans hy))
    · exact hne (PyVal.str.inj (hx.symm.trans hy)).symm

theorem uri_ne (hstr : env.AcceptsStrings) {s t : Str} {x y : PyVal} (hx : VersionName env s x) (hy : VersionName env t y)
    (hne : x ≠ y) : env.uri x ≠ env.uri y := by
  have hstring : ∀ {u z}, VersionName env u z → ∃ w, z = .str w := fun h => by
    obtain h | ⟨h, -⟩ := versionName_eq h
    · exact ⟨_, h⟩
    · exact ⟨_, h⟩
  obtain ⟨a, rfl⟩ := hstring hx
  obtain ⟨b, rfl⟩ := hstring hy
  rw [hstr.uri, hstr.uri]
  exact fun h => hne (by cases h; rfl)

theorem init_version {args : Args} {uuid : Str} {disk : Dict Str (Finset Triple)} {self : PROVIO}
    (h : PROVIO.init env args uuid disk = .ok self) : self._enable_version = args.enable_version.getD true ∧
      ∃ v, initVersion env (args.enable_version.getD true) args.set_version = .ok v ∧ self._version = .str v := by
  obtain ⟨-, -, v, _, hv, -, rfl⟩ := init_eq_ok.1 h
  exact ⟨rfl, v, hv, rfl⟩

theorem exists_fresh {f : Str → Str} (hf : Function.Injective f) (model : Finset Triple) :
    ∃ m, ∀ t ∈ model, t._subject ≠ .uri (f m) ∧ t._object ≠ .uri (f m) := by
  classical
  have huri : Function.Injective fun m => RDFNode.uri (f m) := fun a b h => hf (RDFNode.uri.inj h)
  obtain ⟨_, ⟨m, rfl⟩, hm⟩ := (Set.infinite_range_of_injective huri).exists_notMem_finset
    (model.image Triple._subject ∪ model.image Triple._object)
  rw [Finset.mem_union, not_or] at hm
  exact ⟨m, fun t ht => ⟨fun h => hm.1 (Finset.mem_image.2 ⟨t, ht, h⟩), fun h => hm.2 (Finset.mem_image.2 ⟨t, ht, h⟩)⟩⟩

theorem recordName_injective (p : PROVIO) : Function.Injective p.recordName := by
  intro a b h
  unfold recordName at h
  split at h
  · split at h
    · exact h
    · simpa using h
  · exact h

section Versions

variable {p : PROVIO} {v : Str}

theorem writeVersion_str (hstr : env.AcceptsStrings) (hv : p._version = .str v) : ∃ s, p.writeVersion env = some s := by
  unfold writeVersion
  split
  · rw [hv]
    simp only [Env.statement, hstr.uri]
    exact ⟨_, rfl⟩
  · exact ⟨p, rfl⟩

theorem metric_model (hstr : env.AcceptsStrings) (hv : p._version = .str v) {id : Str} (hid : p._id = some id) {s W : Str}
    (hW : p.metricVersion env (some (.str s)) = .ok (.str W)) (m : Str) (value : PyVal) : ∃ s' x,
    p.writeVersion env = some s' ∧
    (p.addMetricToVersion env (.str m) value (some (.str s))).1 = none ∧
    (p.addMetricToVersion env (.str m) value (some (.str s))).2._model =
      let n := RDFNode.uri (m ++ str "-" ++ id)
      if p.dumpFails env (p._op_count + 1) then insert (valueTriple n x) s'._model
      else if p.dumpFails env (p._op_count + 2) then insert (belongsTriple n (.uri W)) (insert (valueTriple n x) s'._model)
      else insert (metricsTriple n (.uri W)) (insert (belongsTriple n (.uri W)) (insert (valueTriple n x) s'._model)) := by
  obtain ⟨s', hs'⟩ := writeVersion_str hstr hv
  obtain ⟨x, hx⟩ := node_valueOf hstr value
  have hM : p.versionMetric (.str m) = .ok (.str (m ++ str "-" ++ id)) := by
    simp only [versionMetric, hid]
  have hcall : p.addMetricToVersion env (.str m) value (some (.str s)) =
      (none, (p.addTriples env (metricLinks (.str (m ++ str "-" ++ id)) (env.valueOf value) (.str W))).2) := by
    simp only [addMetricToVersion, hM, hW]
  have hmodel := @links_model env p s' _ _ (.str W) _ _ (predicates_of_strings hstr) hs' (hstr.uri (m ++ str "-" ++ id)) hx
  rw [hstr.uri] at hmodel
  exact ⟨s', .literal x, hs', by rw [hcall], by rw [hcall]; exact hmodel⟩

theorem Added.returns {t : Triple} {model : Finset Triple} {r : Option PyError × PROVIO} (h : Added env p t model r)
    (hpass : p.dumpFails env (p._op_count + 1) = false) : r = (none, r.2) := by
  have hraises := h.raises
  rw [hpass, Option.isSome_eq_false_iff, Option.isNone_iff_eq_none] at hraises
  exact Prod.ext hraises rfl

theorem record_model (hstr : env.AcceptsStrings) (hv : p._version = .str v) (hpass : DumpsPass env p) (files : Dir)
    (field type : Str) : ∃ s' q x, p.writeVersion env = some s' ∧
      p.newRecord env files field (some (.str type)) none = (none, q) ∧
      let n := RDFNode.uri (p.recordName field)
      q._model = if p._enable_version then insert (belongsTriple n (.uri v)) (insert ⟨n, .uri (str "ns1:Type"), x⟩ s'._model)
        else insert ⟨n, .uri (str "ns1:Type"), x⟩ s'._model := by
  obtain ⟨s', hs'⟩ := writeVersion_str hstr hv
  have h₁ : env.triple ⟨.str (p.recordName field), .str (str "ns1:Type"), .str type, .str (str "value")⟩ =
      some ⟨.uri (p.recordName field), .uri (str "ns1:Type"), .literal type⟩ := by
    rw [triple_value, statement_eq_some (hstr.uri _)]
    exact ⟨_, _, hstr.uri _, hstr.node type, rfl⟩
  have a₁ := addTriple_added hs' h₁
  have hcall : p.newRecord env files field (some (.str type)) none =
      p.addTriples env (p.recordTriples env (p.recordName field) (.str type) none) := rfl
  rw [hcall, recordTriples]
  cases p._enable_version with
  | false =>
    refine ⟨s', _, .literal type, hs', (addTriples_one env p _).trans (a₁.returns hpass.1), ?_⟩
    exact a₁.model
  | true =>
    have hcons := addTriples_cons a₁ [⟨.str (p.recordName field), .str (str "ns1:belongsTo"), p._version, .str (str "uri")⟩]
    rw [if_neg (by rw [hpass.1]; decide), addTriples_one, hv] at hcons
    generalize p.addTriple env _ = r₁ at a₁ hcons
    have a₂ := addTriple_added (@writeVersion_of_written env _ a₁.written)
      (triple_belongsTo (predicates_of_strings hstr) (hstr.uri (p.recordName field)) (hstr.uri v))
    have hpass₂ : r₁.2.dumpFails env (r₁.2._op_count + 1) = false := by
      rw [dumpFails_congr a₁.settings, a₁.count]
      exact hpass.2
    have hrun := hcons.trans (a₂.returns hpass₂)
    rw [← hv] at hrun
    refine ⟨s', _, .literal type, hs', hrun, ?_⟩
    rw [hv, a₂.model, a₁.model]
    rfl

/-- The record of the version adds no link of a name that the model does not have. -/
theorem fresh_written (hstr : env.AcceptsStrings) {s' : PROVIO} (hs' : p.writeVersion env = some s') {n : RDFNode}
    (hn : ∀ t ∈ p._model, t._subject ≠ n ∧ t._object ≠ n) (V : RDFNode) :
    belongsTriple n V ∉ s'._model ∧ metricsTriple n V ∉ s'._model := by
  have hkeep : ∀ {t : Triple}, t._predicate ≠ .uri (str "ns1:Type") → t ∈ s'._model → t ∈ p._model := fun ht hmem =>
    (mem_of_writeVersion (predicates_of_strings hstr) hs' ht).1 hmem
  refine ⟨fun hmem => ?_, fun hmem => ?_⟩
  · exact (hn _ (hkeep (show RDFNode.uri (str "ns1:belongsTo") ≠ .uri (str "ns1:Type") by decide) hmem)).1 rfl
  · exact (hn _ (hkeep (show RDFNode.uri (str "ns1:hasMetrics") ≠ .uri (str "ns1:Type") by decide) hmem)).2 rfl

/-- **If every metric has both links, no dump has cut them short**, and they are to the version that was asked for. -/
theorem metric_needs (hstr : env.AcceptsStrings) (hv : p._version = .str v) {id : Str} (hid : p._id = some id) {s W : Str}
    (hW : p.metricVersion env (some (.str s)) = .ok (.str W)) {V : RDFNode}
    (hmetric : ∀ m value, ∃ q, p.addMetricToVersion env (.str m) value (some (.str s)) = (none, q) ∧
      belongsTriple (.uri (m ++ str "-" ++ id)) V ∈ q._model ∧ metricsTriple (.uri (m ++ str "-" ++ id)) V ∈ q._model) :
    DumpsPass env p ∧ V = .uri W := by
  -- a metric that the model does not have yet
  obtain ⟨m, hm⟩ := exists_fresh (show Function.Injective fun m => m ++ str "-" ++ id from
    fun a b h => by simpa using h) p._model
  obtain ⟨q, hq, hbelongs, hmetrics⟩ := hmetric m .none
  obtain ⟨s', x, hs', -, hmodel⟩ := metric_model hstr hv hid hW m .none
  obtain ⟨hold, hold'⟩ := fresh_written hstr hs' hm V
  rw [hq] at hmodel
  have hpass : DumpsPass env p := by
    constructor
    · by_contra hfails
      rw [if_pos (by simpa using hfails)] at hmodel
      rw [hmodel, Finset.mem_insert] at hbelongs
      exact hbelongs.elim (fun h => value_ne_belongs h.symm) hold
    · by_contra hfails
      rw [hmodel] at hmetrics
      split at hmetrics
      · rw [Finset.mem_insert] at hmetrics
        exact hmetrics.elim (fun h => value_ne_metrics h.symm) hold'
      · rw [if_pos (by simpa using hfails), Finset.mem_insert, Finset.mem_insert] at hmetrics
        rcases hmetrics with h | h | h
        · exact belongs_ne_metrics h.symm
        · exact value_ne_metrics h.symm
        · exact hold' h
  refine ⟨hpass, ?_⟩
  rw [hmodel, hpass.1, hpass.2] at hbelongs
  simp only [Bool.false_eq_true, if_false, Finset.mem_insert] at hbelongs
  rcases hbelongs with h | h | h | h
  · exact absurd h belongs_ne_metrics
  · exact congrArg Triple._object h
  · exact absurd h.symm value_ne_belongs
  · exact absurd h hold

/-- **If every record belongs to a version, versions are on**, and it is the one of the instance. -/
theorem record_needs (hstr : env.AcceptsStrings) (hv : p._version = .str v) (hpass : DumpsPass env p) {V : RDFNode}
    (hrecord : ∀ files field type value q, p.newRecord env files field type value = (none, q) →
      belongsTriple (.uri (p.recordName field)) V ∈ q._model) : p._enable_version = true ∧ V = .uri v := by
  -- a record that the model does not have yet
  obtain ⟨field, hfield⟩ := exists_fresh p.recordName_injective p._model
  obtain ⟨s', q, x, hs', hq, hmodel⟩ := record_model hstr hv hpass .empty field []
  have hnone := (fresh_written hstr hs' hfield V).1
  have htype : belongsTriple (.uri (p.recordName field)) V ≠ ⟨.uri (p.recordName field), .uri (str "ns1:Type"), x⟩ :=
    fun h => absurd (congrArg Triple._predicate h) (show RDFNode.uri (str "ns1:belongsTo") ≠ .uri (str "ns1:Type") by decide)
  have hmem := hrecord _ _ _ _ _ hq
  rw [hmodel] at hmem
  cases hen : p._enable_version with
  | false =>
    rw [hen, if_neg (by decide), Finset.mem_insert] at hmem
    exact absurd hmem (not_or.2 ⟨htype, hnone⟩)
  | true =>
    rw [hen, if_pos rfl, Finset.mem_insert, Finset.mem_insert] at hmem
    refine ⟨rfl, ?_⟩
    rcases hmem with h | h | h
    · exact congrArg Triple._object h
    · exact absurd h htype
    · exact absurd h hnone

/-- **When a record and the metrics of a version belong to one node**, and to which. -/
theorem refersTo_iff (hstr : env.AcceptsStrings) (hv : p._version = .str v) {s : Str} (hs : s ≠ []) {V : RDFNode} :
    RefersTo env p s V ↔ V = .uri v ∧ p._enable_version = true ∧
      p.metricVersion env (some (.str s)) = .ok (.str v) ∧ (∃ id, p._id = some id) ∧ DumpsPass env p := by
  obtain ⟨W, hW⟩ : ∃ W, p.metricVersion env (some (.str s)) = .ok (.str W) := by
    cases s with
    | nil => exact absurd rfl hs
    | cons c r => exact ⟨_, rfl⟩
  constructor
  · rintro ⟨hrecord, id, hid, hmetric⟩
    obtain ⟨hpass, hVW⟩ := metric_needs hstr hv hid hW hmetric
    obtain ⟨hen, rfl⟩ := record_needs hstr hv hpass hrecord
    cases hVW
    exact ⟨rfl, hen, hW, ⟨id, hid⟩, hpass⟩
  · rintro ⟨rfl, hen, hmv, ⟨id, hid⟩, hpass⟩
    refine ⟨fun files field type value q hq => ?_, id, hid, fun m value => ?_⟩
    · unfold newRecord at hq
      split at hq
      · cases hq
      · obtain ⟨t, ht, hmem⟩ := (addTriples_ok hq).held
          ⟨.str (p.recordName field), .str (str "ns1:belongsTo"), p._version, .str (str "uri")⟩ (by simp [recordTriples, hen])
        rw [hv, triple_belongsTo (predicates_of_strings hstr) (hstr.uri _) (hstr.uri v)] at ht
        cases ht
        exact hmem
    · obtain ⟨s', x, -, hret, hmodel⟩ := metric_model hstr hv hid hmv m value
      refine ⟨_, Prod.ext hret rfl, ?_⟩
      rw [hmodel]
      simp [hpass.1, hpass.2]

end Versions

theorem metricVersion_eq_init {p : PROVIO} {s : Str} (hs : s ≠ []) :
    p.metricVersion env (some (.str s)) = .ok (.str ('v' :: s)) ↔ ∀ r, s ≠ 'v' :: r := by
  cases s with
  | nil => exact absurd rfl hs
  | cons c r =>
    simp only [metricVersion]
    by_cases hc : c = 'v'
    · subst hc
      simp
    · simp [hc, str]

/-- The constructor puts a `v` before a version that has one, and `add_metric_to_version` does not. -/
theorem version_names_iff (hstr : env.AcceptsStrings) {args : Args} {uuid : Str} {disk : Dict Str (Finset Triple)}
    {self : PROVIO} (hinit : PROVIO.init env args uuid disk = .ok self) {s : Str} (hs : s ≠ [])
    (hset : args.set_version = some (.str s)) :
    (∀ cs V, RefersTo env (self.calls env cs) s V ↔ V = .uri ('v' :: s) ∧ args.enable_version.getD true = true ∧
      (∀ r, s ≠ 'v' :: r) ∧ (∃ id, (self.calls env cs)._id = some id) ∧ DumpsPass env (self.calls env cs)) ∧
    ∀ t, t ≠ [] → t ≠ s → t ≠ 'v' :: s → s ≠ 'v' :: t → ∀ x y, VersionName env s x → VersionName env t y →
      env.uri x ≠ env.uri y := by
  obtain ⟨henable, v, hv, hversion⟩ := init_version hinit
  refine ⟨fun cs V => ?_, fun t _ hne hts hst x y hx hy => uri_ne hstr hx hy (versionName_ne hne hts hst hx hy)⟩
  have hsame := calls_version env cs self
  rw [refersTo_iff hstr (hsame._version.trans hversion) hs, hsame._enable_version.trans henable]
  cases hen : args.enable_version.getD true with
  | false => simp
  | true =>
    rw [hset, hen] at hv
    cases hv
    rw [← metricVersion_eq_init hs]
    rfl

def versioned (s : Str) : Args := ⟨none, true, false, some (.str s), none, none, none⟩

theorem version_names_two : ∃ self, PROVIO.init plain (versioned (str "2.0")) (str "7f") .empty = .ok self ∧
    RefersTo plain self (str "2.0") (.uri (str "v2.0")) ∧
      ∀ t, t ≠ [] → t ≠ str "2.0" → t ≠ 'v' :: str "2.0" → str "2.0" ≠ 'v' :: t → ∀ x y,
        VersionName plain (str "2.0") x → VersionName plain t y → plain.uri x ≠ plain.uri y := by
  obtain ⟨self, hinit, hid, hpass⟩ : ∃ self, PROVIO.init plain (versioned (str "2.0")) (str "7f") .empty = .ok self ∧
      (∃ id, self._id = some id) ∧ DumpsPass plain self := ⟨_, rfl, ⟨_, rfl⟩, rfl, rfl⟩
  obtain ⟨hrefers, hnames⟩ := version_names_iff plain_strings hinit (s := str "2.0") (by decide) rfl
  exact ⟨self, hinit, (hrefers [] _).2 ⟨rfl, rfl, fun r h => absurd (List.cons.inj h).1 (by decide), hid, hpass⟩, hnames⟩

/-- A record of a graph made with `v2` belongs to `vv2`, a metric for `v2` to `v2`. -/
theorem version_names_prefixed : ∃ self q r,
    PROVIO.init plain (versioned (str "v2")) (str "7f") .empty = .ok self ∧
    self.newRecord plain .empty (str "lr") (some (.str (str "Hyperparam"))) none = (none, q) ∧
    q.addMetricToVersion plain (.str (str "acc")) (.str (str "0.9")) (some (.str (str "v2"))) = (none, r) ∧
    belongsTriple (.uri (str "lr-7f")) (.uri (str "vv2")) ∈ r._model ∧
    belongsTriple (.uri (str "acc-7f")) (.uri (str "v2")) ∈ r._model ∧ ¬ ∃ V, RefersTo plain q (str "v2") V := by
  obtain ⟨self, q, r, hinit, hq, hr, hversion, hlr, hacc⟩ : ∃ self q r,
      PROVIO.init plain (versioned (str "v2")) (str "7f") .empty = .ok self ∧
      self.newRecord plain .empty (str "lr") (some (.str (str "Hyperparam"))) none = (none, q) ∧
      q.addMetricToVersion plain (.str (str "acc")) (.str (str "0.9")) (some (.str (str "v2"))) = (none, r) ∧
      q._version = .str (str "vv2") ∧
      belongsTriple (.uri (str "lr-7f")) (.uri (str "vv2")) ∈ r._model ∧
      belongsTriple (.uri (str "acc-7f")) (.uri (str "v2")) ∈ r._model :=
    ⟨_, _, _, rfl, rfl, rfl, rfl, by decide, by decide⟩
  refine ⟨self, q, r, hinit, hq, hr, hlr, hacc, ?_⟩
  rintro ⟨V, h⟩
  obtain ⟨-, -, hmetric, -⟩ := (refersTo_iff plain_strings hversion (by decide)).1 h
  exact absurd (Except.ok.inj hmetric) (by decide)

end PROVIO

end Provio
