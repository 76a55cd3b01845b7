import Mathlib.Data.Finset.Basic
import Provio.Extensible
/-!
# Provenance — the Python class over an RDF model

`PROVIO` keeps its settings, an operation count and a model, which is a set of statements.  Every method adds statements
through `add_triple`, one after the other until one raises, and every `_period` insertions `add_triple` writes the model
to disk and parses it back.  A file is taken as the set of statements that parsing it gives, so a serialized model is
parsed as the same set.  What the interpreter and the libraries answer is in `Env`; a method that raises leaves the state
it had reached.
-/
namespace Provio

open Ordered (Dict)

/-- What a caller hands to a method: `None`, a string, or another object. -/
inductive PyVal where
  | none
  | str (s : Str)
  | other (o : Nat)
deriving DecidableEq

inductive RDFNode where
  | uri (s : Str)
  | literal (s : Str)
deriving DecidableEq

/-- A statement of the model. -/
structure Triple where
  _subject   : RDFNode
  _predicate : RDFNode
  _object    : RDFNode
deriving DecidableEq

/-- How a dump of the model ends: the parser, like the serializer, may raise. -/
inductive Dumped where
  | done
  | serializeFails
  | parseFails
deriving DecidableEq

/-- What the interpreter, the RDF library and the disk answer; `Option` where they may raise. -/
structure Env where
  /-- `str(o)`. -/
  text      : Nat → Option Str
  /-- `o[0] == 'v'`; an object without a first item, or that no `'v'` can be put before, counts as false. -/
  first_v   : Nat → Bool
  uri       : PyVal → Option RDFNode
  node      : PyVal → Option RDFNode
  /-- Whether what `get_targets` returns is true. -/
  targets   : Finset Triple → RDFNode → RDFNode → Bool
  /-- The dump at an operation count. -/
  dumped    : Nat → Dumped
  json      : JsonLib PyVal

structure PROVIO where
  _id             : Option Str
  _version        : PyVal
  _enable_version : Bool
  _first_write    : Bool
  _period         : Option Nat
  _op_count       : Nat
  _serializer     : Bool
  _serialize_path : Option Str
  _model          : Finset Triple
  /-- The files by path, each as the statements that parsing it gives. -/
  disk            : Dict Str (Finset Triple)

def Env.strOf (env : Env) : PyVal → Option Str
  | .none    => some (str "None")
  | .str s   => some s
  | .other o => env.text o

/-- A value that is no string is converted, and is `None` if that raises. -/
def Env.valueOf (env : Env) (x : PyVal) : PyVal :=
  match env.strOf x with
  | some s => .str s
  | none   => .none

def Env.statement (env : Env) (_subject _predicate : PyVal) (_object : Option RDFNode) : Option Triple :=
  match env.uri _subject, env.uri _predicate, _object with
  | some s, some p, some o => some ⟨s, p, o⟩
  | _, _, _                => none

/-- The arguments of an `add_triple`. -/
structure Insertion where
  _subject   : PyVal
  _predicate : PyVal
  _object    : PyVal
  type       : PyVal

def Env.triple (env : Env) (i : Insertion) : Option Triple :=
  env.statement i._subject i._predicate
    (if i.type = .str (str "value") then env.node (env.valueOf i._object) else env.uri i._object)

namespace PROVIO

/-! ## `add_triple` -/

/-- The record of the version, at the first write. -/
def writeVersion (env : Env) (self : PROVIO) : Option PROVIO :=
  if self._first_write && self._enable_version then
    match env.statement self._version (.str (str "ns1:Type")) (env.uri (.str (str "Version"))) with
    | some t => some { self with _model := insert t self._model, _first_write := false }
    | none   => none
  else some self

/-- `self._period and self._op_count % self._period == 0`, at an operation count. -/
def due (self : PROVIO) (_op_count : Nat) : Bool :=
  match self._period with
  | some p => p ≠ 0 && _op_count % p = 0
  | none   => false

/-- Serializes the model and parses the file into it.  Without a serializer or a path one of the two raises; what a
failed serialization leaves on disk is left out. -/
def dump (env : Env) (self : PROVIO) : Option PyError × PROVIO :=
  match self._serializer, self._serialize_path with
  | true, some path =>
    let file := self._model
    match env.dumped self._op_count with
    | .serializeFails => (some .RedlandError, self)
    | .parseFails     => (some .RedlandError, { self with disk := self.disk.set path file })
    | .done           => (none, { self with disk := self.disk.set path file, _model := self._model ∪ file })
  | _, _ => (some .TypeError, self)

/-- With the exception that leaves it. -/
def addTriple (env : Env) (self : PROVIO) (i : Insertion) : Option PyError × PROVIO :=
  match self.writeVersion env with
  | none      => (some .RedlandError, self)
  | some self =>
    match env.triple i with
    | none   => (some .RedlandError, self)
    | some t =>
      let self := { self with _model := insert t self._model, _op_count := self._op_count + 1 }
      if self.due self._op_count then self.dump env else (none, self)

/-- One after the other until one raises. -/
def addTriples (env : Env) : PROVIO → List Insertion → Option PyError × PROVIO
  | self, []      => (none, self)
  | self, i :: is =>
    match self.addTriple env i with
    | (some e, self) => (some e, self)
    | (none, self)   => addTriples env self is

/-! ## Records -/

def recordName (self : PROVIO) (field : Str) : Str :=
  match self._id with
  | some id => if id = [] then field else field ++ str "-" ++ id
  | none    => field

def recordTriples (env : Env) (self : PROVIO) (_field : Str) (_type : PyVal) (value : Option PyVal) : List Insertion :=
  [⟨.str _field, .str (str "ns1:Type"), _type, .str (str "value")⟩] ++
    (if self._enable_version then [⟨.str _field, .str (str "ns1:belongsTo"), self._version, .str (str "uri")⟩] else []) ++
    match value with
    | some value => [⟨.str _field, .str (str "ns1:hasValue"), env.valueOf value, .str (str "value")⟩]
    | none       => []

/-- Without a `type`, the subclass is looked up in the directory as it is then. -/
def recordType (env : Env) (files : Dir) (field : Str) : Option PyVal → Except PyError PyVal
  | some type => .ok type
  | none      => (Extensible.init env.json [] files (some field)).map (fun r => r.1._subclass)

def newRecord (env : Env) (files : Dir) (self : PROVIO) (field : Str) (type value : Option PyVal) :
    Option PyError × PROVIO :=
  match recordType env files field type with
  | .error e  => (some e, self)
  | .ok _type => self.addTriples env (self.recordTriples env (self.recordName field) _type value)

/-! ## Metrics -/

/-- `add_metric_to_version`'s `_metric`.  For a metric that is no string, `++'-'` is a sign before a string, which raises
like a conversion that fails: the handler leaves `None`. -/
def versionMetric (self : PROVIO) : PyVal → Except PyError PyVal
  | .str metric =>
    match self._id with
    | some id => .ok (.str (metric ++ str "-" ++ id))
    | none    => .error .TypeError
  | _           => .ok .none

/-- `add_metric_to_version`'s `_version`. -/
def metricVersion (env : Env) (self : PROVIO) : Option PyVal → Except PyError PyVal
  | none                 => .ok self._version
  | some .none           => .error .TypeError
  | some (.str [])       => .error .IndexError
  | some (.str (c :: s)) => .ok (.str (if c ≠ 'v' then str "v" ++ c :: s else c :: s))
  | some (.other o)      => if env.first_v o then .ok (.other o) else .error .TypeError

/-- The value of a metric and the links between it and what it belongs to. -/
def metricLinks (_metric _value owner : PyVal) : List Insertion :=
  [⟨_metric, .str (str "ns1:hasValue"), _value, .str (str "value")⟩,
    ⟨_metric, .str (str "ns1:belongsTo"), owner, .str (str "uri")⟩,
    ⟨owner, .str (str "ns1:hasMetrics"), _metric, .str (str "uri")⟩]

/-- An exception of the insertions is caught. -/
def addMetricToVersion (env : Env) (self : PROVIO) (metric value : PyVal) (version : Option PyVal) :
    Option PyError × PROVIO :=
  match self.versionMetric metric with
  | .error e    => (some e, self)
  | .ok _metric =>
    match self.metricVersion env version with
    | .error e     => (some e, self)
    | .ok _version => (none, (self.addTriples env (metricLinks _metric (env.valueOf value) _version)).2)

/-- `add_metric_to_record`'s `_record_subject`. -/
def recordSubject (self : PROVIO) (record_subject : Str) : Except PyError Str :=
  match self._id with
  | some id => .ok (record_subject ++ str "-" ++ id)
  | none    => .error .TypeError

/-- `add_metric_to_record`'s `_metric`, once the subject has been built. -/
def recordMetric (env : Env) (self : PROVIO) (metric : PyVal) : PyVal :=
  match env.strOf metric with
  | some metric => .str (metric ++ str "-" ++ self._id.getD [])
  | none        => .none

def addMetricToRecord (env : Env) (self : PROVIO) (record_subject : Str) (metric value : PyVal) :
    Option PyError × PROVIO :=
  match self.recordSubject record_subject with
  | .error e            => (some e, self)
  | .ok _record_subject =>
    match env.uri (.str _record_subject), env.uri (.str (str "ns1:Type")) with
    | some s, some p =>
      if env.targets self._model s p then
        (none, (self.addTriples env
          (metricLinks (self.recordMetric env metric) (env.valueOf value) (.str _record_subject))).2)
      else (none, self)
    | _, _ => (some .RedlandError, self)

/-! ## The constructor and the settings -/

def DEFAULT_VERSION : Str := str "1.0"

def PROV_FORMAT : List Str := [str "turtle", str "xml", str "ntriples"]

/-- The keyword arguments. -/
structure Args where
  enable_version  : Option Bool
  enable_id       : Bool
  storage         : Bool
  set_version     : Option PyVal
  /-- What parsing the file gives. -/
  load_provenance : Option (Except PyError (Finset Triple))
  serializer      : Option Str
  periodical      : Option Nat

/-- `_version` is bound only if `str` succeeds. -/
def initVersion (env : Env) (enable_version : Bool) (set_version : Option PyVal) : Except PyError Str :=
  if enable_version then
    match set_version with
    | some v =>
      match env.strOf v with
      | some _version => .ok (str "v" ++ _version)
      | none          => .error .UnboundLocalError
    | none => .ok (str "v" ++ DEFAULT_VERSION)
  else .ok (str "v" ++ DEFAULT_VERSION)

/-- `uuid` is the one `uuid4` draws.  `bdb` and `virtuoso` are bound nowhere, so that `storage` always raises. -/
def init (env : Env) (args : Args) (uuid : Str) (disk : Dict Str (Finset Triple)) : Except PyError PROVIO := do
  let enable_version := args.enable_version.getD true
  if args.storage then .error .NameError else
  let _version ← initVersion env enable_version args.set_version
  let _model ← args.load_provenance.getD (.ok ∅)
  if args.serializer.any (· ∉ PROV_FORMAT) then .error .Exception else
  .ok { _id := if args.enable_id then some uuid else none
        _version := .str _version
        _enable_version := enable_version
        _first_write := true
        _period := if args.enable_id then none else args.periodical
        _op_count := 0
        _serializer := args.serializer.isSome
        _serialize_path := none
        _model := _model
        disk := disk }

def setSerializationPath (self : PROVIO) (path : Str) : PROVIO := { self with _serialize_path := some path }

def setIdentifier (env : Env) (self : PROVIO) (_id : PyVal) : Option PyError × PROVIO :=
  match env.strOf _id with
  | some _id => (none, { self with _id := some _id })
  | none     => (some .Exception, self)

/-- **What the constructor accepts, and the graph it makes.** -/
theorem init_eq_ok {env : Env} {args : Args} {uuid : Str} {disk : Dict Str (Finset Triple)} {self : PROVIO} :
    PROVIO.init env args uuid disk = .ok self ↔ args.storage = false ∧
      args.serializer.any (· ∉ PROV_FORMAT) = false ∧
      ∃ v model, initVersion env (args.enable_version.getD true) args.set_version = .ok v ∧
        args.load_provenance.getD (.ok ∅) = .ok model ∧
        self = { _id := if args.enable_id then some uuid else none
                 _version := .str v
                 _enable_version := args.enable_version.getD true
                 _first_write := true
                 _period := if args.enable_id then none else args.periodical
                 _op_count := 0
                 _serializer := args.serializer.isSome
                 _serialize_path := none
                 _model := model
                 disk := disk } := by
  unfold PROVIO.init
  dsimp only
  cases args.storage with
  | true => exact ⟨(nomatch ·), fun h => nomatch h.1⟩
  | false =>
    cases initVersion env (args.enable_version.getD true) args.set_version with
    | error e => exact ⟨(nomatch ·), fun ⟨_, _, _, _, h, _⟩ => nomatch h⟩
    | ok v =>
      cases args.load_provenance.getD (.ok ∅) with
      | error e => exact ⟨(nomatch ·), fun ⟨_, _, _, _, _, h, _⟩ => nomatch h⟩
      | ok model =>
        cases args.serializer.any (· ∉ PROV_FORMAT) with
        | true => exact ⟨(nomatch ·), fun h => nomatch h.2.1⟩
        | false =>
          refine ⟨fun h => ⟨rfl, rfl, v, model, rfl, rfl, (Except.ok.inj h).symm⟩, ?_⟩
          rintro ⟨-, -, v', model', hv, hm, rfl⟩
          cases hv
          cases hm
          rfl

/-! ## What an insertion does -/

/-- What no insertion changes. -/
structure SameSettings (p q : PROVIO) : Prop where
  _id             : p._id = q._id
  _version        : p._version = q._version
  _enable_version : p._enable_version = q._enable_version
  _period         : p._period = q._period
  _serializer     : p._serializer = q._serializer
  _serialize_path : p._serialize_path = q._serialize_path

theorem SameSettings.refl (p : PROVIO) : SameSettings p p := ⟨rfl, rfl, rfl, rfl, rfl, rfl⟩

theorem SameSettings.trans {p q r : PROVIO} (h : SameSettings p q) (h' : SameSettings q r) : SameSettings p r :=
  ⟨h.1.trans h'.1, h.2.trans h'.2, h.3.trans h'.3, h.4.trans h'.4, h.5.trans h'.5, h.6.trans h'.6⟩

/-- The version has its record, or is to have none. -/
def Written (self : PROVIO) : Prop := (self._first_write && self._enable_version) = false

theorem writeVersion_of_written {env : Env} {self : PROVIO} (h : self.Written) : self.writeVersion env = some self := by
  rw [writeVersion, if_neg (by rw [h]; decide)]

theorem writeVersion_eq {env : Env} {self s : PROVIO} (h : self.writeVersion env = some s) : ∃ model write,
    s = { self with _model := model, _first_write := write } ∧ s.Written ∧ (model = self._model ∨
      ∃ t, env.statement self._version (.str (str "ns1:Type")) (env.uri (.str (str "Version"))) = some t ∧
        model = insert t self._model) := by
  unfold writeVersion at h
  split at h
  · split at h
    · rename_i t ht
      cases h
      exact ⟨_, false, rfl, Bool.false_and _, .inr ⟨t, ht, rfl⟩⟩
    · cases h
  · rename_i hw
    cases h
    exact ⟨self._model, self._first_write, rfl, Bool.eq_false_iff.2 hw, .inl rfl⟩

theorem writeVersion_settings {env : Env} {self s : PROVIO} (h : self.writeVersion env = some s) :
    SameSettings s self := by
  obtain ⟨model, write, rfl, -⟩ := writeVersion_eq h
  exact ⟨rfl, rfl, rfl, rfl, rfl, rfl⟩

/-- A dump is due at an operation count, and does not end well. -/
def dumpFails (env : Env) (self : PROVIO) (n : Nat) : Bool :=
  self.due n && !(self._serializer && self._serialize_path.isSome && env.dumped n = .done)

theorem dumpFails_congr {p q : PROVIO} (h : SameSettings p q) (env : Env) (n : Nat) :
    p.dumpFails env n = q.dumpFails env n := by
  unfold dumpFails due
  rw [h._period, h._serializer, h._serialize_path]

theorem dump_eq (env : Env) (self : PROVIO) : ∃ e disk,
    self.dump env = (e, { self with disk := disk }) ∧
    e.isSome = !(self._serializer && self._serialize_path.isSome && env.dumped self._op_count = .done) := by
  obtain ⟨_id, _version, _enable_version, _first_write, _period, _op_count, _serializer, _serialize_path, _model, disk⟩ :=
    self
  cases _serializer with
  | false => exact ⟨some .TypeError, disk, rfl, rfl⟩
  | true =>
    cases _serialize_path with
    | none => exact ⟨some .TypeError, disk, rfl, rfl⟩
    | some path =>
      cases hd : env.dumped _op_count with
      | serializeFails => exact ⟨some .RedlandError, disk, by simp only [dump, hd], by simp⟩
      | parseFails => exact ⟨some .RedlandError, disk.set path _model, by simp only [dump, hd], by simp⟩
      | done =>
        exact ⟨none, disk.set path _model, by simp only [dump, hd, Finset.union_self], by simp⟩

/-- **What an `add_triple` whose statement is accepted leaves.** -/
structure Added (env : Env) (p : PROVIO) (t : Triple) (model : Finset Triple) (r : Option PyError × PROVIO) : Prop where
  raises   : r.1.isSome = p.dumpFails env (p._op_count + 1)
  settings : SameSettings r.2 p
  model    : r.2._model = insert t model
  count    : r.2._op_count = p._op_count + 1
  written  : r.2.Written

theorem addTriple_added {env : Env} {self s : PROVIO} {i : Insertion} {t : Triple}
    (hs : self.writeVersion env = some s) (ht : env.triple i = some t) :
    Added env self t s._model (self.addTriple env i) := by
  obtain ⟨model, write, rfl, hwritten, -⟩ := writeVersion_eq hs
  unfold addTriple
  simp only [hs, ht]
  split
  · rename_i hdue
    obtain ⟨e, disk, hdump, he⟩ := dump_eq env
      { self with _model := insert t model, _first_write := write, _op_count := self._op_count + 1 }
    rw [hdump]
    refine ⟨?_, ⟨rfl, rfl, rfl, rfl, rfl, rfl⟩, rfl, rfl, hwritten⟩
    rw [he, dumpFails]
    have hdue' : self.due (self._op_count + 1) = true := hdue
    rw [hdue', Bool.true_and]
  · rename_i hdue
    refine ⟨?_, ⟨rfl, rfl, rfl, rfl, rfl, rfl⟩, rfl, rfl, hwritten⟩
    have hdue' : self.due (self._op_count + 1) = false := Bool.eq_false_iff.2 hdue
    rw [dumpFails, hdue', Bool.false_and]
    rfl

theorem addTriple_refused {env : Env} {self s : PROVIO} {i : Insertion} (hs : self.writeVersion env = some s)
    (ht : env.triple i = none) : self.addTriple env i = (some .RedlandError, s) := by
  simp only [addTriple, hs, ht]

theorem addTriple_unversioned {env : Env} {self : PROVIO} (hs : self.writeVersion env = none) (i : Insertion) :
    self.addTriple env i = (some .RedlandError, self) := by
  simp only [addTriple, hs]

theorem addTriple_cases (env : Env) (self : PROVIO) (i : Insertion) :
    (self.writeVersion env = none ∧ self.addTriple env i = (some .RedlandError, self)) ∨
    (∃ s, self.writeVersion env = some s ∧ env.triple i = none ∧ self.addTriple env i = (some .RedlandError, s)) ∨
    ∃ s t, self.writeVersion env = some s ∧ env.triple i = some t ∧
      Added env self t s._model (self.addTriple env i) := by
  cases hs : self.writeVersion env with
  | none => exact .inl ⟨rfl, addTriple_unversioned hs i⟩
  | some s =>
    cases ht : env.triple i with
    | none => exact .inr (.inl ⟨s, rfl, rfl, addTriple_refused hs ht⟩)
    | some t => exact .inr (.inr ⟨s, t, rfl, rfl, addTriple_added hs ht⟩)

theorem addTriples_cons {env : Env} {self : PROVIO} {i : Insertion} {t : Triple} {model : Finset Triple}
    (h : Added env self t model (self.addTriple env i)) (is : List Insertion) : self.addTriples env (i :: is) =
      if self.dumpFails env (self._op_count + 1) then self.addTriple env i
      else (self.addTriple env i).2.addTriples env is := by
  have hraises := h.raises
  rw [addTriples]
  cases hr : self.addTriple env i with
  | mk e r =>
    rw [hr] at hraises
    cases e with
    | none => rw [← hraises]; rfl
    | some e => rw [← hraises]; rfl

theorem addTriples_cons_refused {env : Env} {self s : PROVIO} {i : Insertion} (hs : self.writeVersion env = some s)
    (ht : env.triple i = none) (is : List Insertion) : self.addTriples env (i :: is) = (some .RedlandError, s) := by
  simp only [addTriples, addTriple_refused hs ht]

end PROVIO

end Provio
