import Provio.Calls
import Provio.Metrics
/-!
# Programs — Python programs that hand their graphs on

A program makes a graph, from a file if it loads one, calls its methods and writes it to disk: every `_period` insertions,
and when it asks for it.  A method adds what a link needs before the link (`recordTriples_backed`,
`metricLinks_backed`), and one that raises leaves off after some insertion, so no graph ever has a link without what it
needs, nor has a file, which is a graph at some insertion.  So it stays over any chain of programs (`programs_whole`).
-/
namespace Provio

open Ordered (Dict)

namespace PROVIO

/-! ## What a link needs -/

def Says (g : Finset Triple) (word : Str) (x : RDFNode) : Prop := ∃ t ∈ g, t._subject = x ∧ t._predicate = .uri word

/-- **What a statement needs beside it.**  A link to an owner: a value, or a type at both ends.  A link to a metric: the
link back, and the metric's value. -/
structure Supported (g : Finset Triple) (t : Triple) : Prop where
  belongsTo  : t._predicate = .uri (str "ns1:belongsTo") →
    Says g (str "ns1:hasValue") t._subject ∨ Says g (str "ns1:Type") t._subject ∧ Says g (str "ns1:Type") t._object
  hasMetrics : t._predicate = .uri (str "ns1:hasMetrics") →
    belongsTriple t._object t._subject ∈ g ∧ Says g (str "ns1:hasValue") t._object

def Whole (g : Finset Triple) : Prop := ∀ t ∈ g, Supported g t

section Graphs

variable {g g' : Finset Triple} {t : Triple} {word : Str} {x : RDFNode}

theorem Says.mono (h : Says g word x) (hsub : g ⊆ g') : Says g' word x :=
  let ⟨t, ht, hx⟩ := h
  ⟨t, hsub ht, hx⟩

theorem Supported.mono (h : Supported g t) (hsub : g ⊆ g') : Supported g' t where
  belongsTo hp := (h.belongsTo hp).imp (·.mono hsub) (fun both => ⟨both.1.mono hsub, both.2.mono hsub⟩)
  hasMetrics hp := ⟨hsub (h.hasMetrics hp).1, (h.hasMetrics hp).2.mono hsub⟩

theorem supported_of_ne {o : RDFNode} (hb : word ≠ str "ns1:belongsTo") (hm : word ≠ str "ns1:hasMetrics") :
    Supported g ⟨x, .uri word, o⟩ :=
  ⟨fun h => absurd (RDFNode.uri.inj h) hb, fun h => absurd (RDFNode.uri.inj h) hm⟩

theorem supported_belongsTo {m w : RDFNode}
    (h : Says g (str "ns1:hasValue") m ∨ Says g (str "ns1:Type") m ∧ Says g (str "ns1:Type") w) :
    Supported g (belongsTriple m w) :=
  ⟨fun _ => h, fun hp => absurd (RDFNode.uri.inj hp) (by decide)⟩

theorem supported_hasMetrics {m w : RDFNode} (h : belongsTriple m w ∈ g) (hv : Says g (str "ns1:hasValue") m) :
    Supported g (metricsTriple m w) :=
  ⟨fun hp => absurd (RDFNode.uri.inj hp) (by decide), fun _ => ⟨h, hv⟩⟩

theorem whole_empty : Whole ∅ := fun t ht => absurd ht (Finset.notMem_empty t)

theorem Whole.insert (h : Whole g) (ht : Supported (insert t g) t) : Whole (insert t g) := by
  intro t' ht'
  rcases Finset.mem_insert.1 ht' with rfl | ht'
  · exact ht
  · exact (h t' ht').mono (Finset.subset_insert _ _)

end Graphs

/-! ## Insertions -/

/-- Each insertion has what its statement needs in the graph, or from the insertions before it. -/
def Backed (env : Env) : Finset Triple → List Insertion → Prop
  | _, []      => True
  | g, i :: is => ∀ t, env.triple i = some t → Supported (insert t g) t ∧ Backed env (insert t g) is

/-- **The graph and every file are whole**, and the version has a type once it has its record. -/
structure AllWhole (env : Env) (p : PROVIO) : Prop where
  model   : Whole p._model
  files   : ∀ path file, p.disk.get? path = some file → Whole file
  version : p._enable_version = true → p._first_write = false →
    ∀ v, env.uri p._version = some v → Says p._model (str "ns1:Type") v

section

variable {env : Env} {self s : PROVIO}

theorem files_set {disk : Dict Str (Finset Triple)} {path : Str} {g : Finset Triple}
    (h : ∀ path file, disk.get? path = some file → Whole file) (hg : Whole g) :
    ∀ path' file, (disk.set path g).get? path' = some file → Whole file := by
  intro path' file hfile
  rw [Dict.get?_set] at hfile
  split at hfile
  · cases hfile
    exact hg
  · exact h path' file hfile

theorem AllWhole.dump (h : AllWhole env self) : AllWhole env (self.dump env).2 := by
  unfold PROVIO.dump
  split
  · dsimp only
    split
    · exact h
    · exact ⟨h.model, files_set h.files h.model, h.version⟩
    · rw [Finset.union_self]
      exact ⟨h.model, files_set h.files h.model, h.version⟩
  · exact h

theorem AllWhole.writeVersion (hwords : env.Predicates) (h : AllWhole env self) (hs : self.writeVersion env = some s) :
    AllWhole env s := by
  unfold PROVIO.writeVersion at hs
  split at hs
  · split at hs
    · rename_i t ht
      cases hs
      obtain ⟨v, o, hv, -, rfl⟩ := (statement_eq_some (hwords (str "ns1:Type") (by decide))).1 ht
      refine ⟨h.model.insert (supported_of_ne (by decide) (by decide)), h.files, fun _ _ v' hv' => ?_⟩
      cases hv.symm.trans hv'
      exact ⟨_, Finset.mem_insert_self _ _, rfl, rfl⟩
    · cases hs
  · cases hs
    exact h

/-- **An `add_triple` whose statement has what it needs**, whether it raises or not. -/
theorem AllWhole.addTriple (hwords : env.Predicates) (h : AllWhole env self) {i : Insertion}
    (hi : ∀ s, self.writeVersion env = some s → Backed env s._model [i]) : AllWhole env (self.addTriple env i).2 := by
  unfold PROVIO.addTriple
  cases hs : self.writeVersion env with
  | none => exact h
  | some s =>
    have hkept := h.writeVersion hwords hs
    cases ht : env.triple i with
    | none => exact hkept
    | some t =>
      have hadded : AllWhole env { s with _model := insert t s._model, _op_count := s._op_count + 1 } :=
        ⟨hkept.model.insert (hi s hs t ht).1, hkept.files, fun he hf v hv =>
          (hkept.version he hf v hv).mono (Finset.subset_insert _ _)⟩
      dsimp only
      split
      · exact hadded.dump
      · exact hadded

theorem AllWhole.addTriples (hwords : env.Predicates) : ∀ (is : List Insertion) {self : PROVIO}, AllWhole env self →
    (∀ s, self.writeVersion env = some s → Backed env s._model is) → AllWhole env (self.addTriples env is).2
  | [], _, h, _ => h
  | i :: is, self, h, hi => by
    have hone := h.addTriple hwords (i := i) (fun s hs t ht => ⟨(hi s hs t ht).1, trivial⟩)
    rw [ PROVIO.addTriples]
    obtain ⟨-, hr⟩ | ⟨s, -, -, hr⟩ | ⟨s, t, hs, ht, hr⟩ := addTriple_cases env self i
    · rw [hr] at hone ⊢
      exact hone
    · rw [hr] at hone ⊢
      exact hone
    · cases hres : self.addTriple env i with
      | mk e r =>
        rw [hres] at hone hr
        cases e with
        | some e => exact hone
        | none =>
          refine AllWhole.addTriples hwords is hone fun s' hs' => ?_
          rw [@writeVersion_of_written env r hr.written] at hs'
          cases hs'
          rw [show r._model = insert t s._model from hr.model]
          exact (hi s hs t ht).2

/-! ## The insertions of the methods -/

/-- **A metric has its value before a link, and the link to its owner before the link back.** -/
theorem metricLinks_backed (hwords : env.Predicates) (M value W : PyVal) (g : Finset Triple) :
    Backed env g (metricLinks M value W) := by
  intro t₁ ht₁
  rw [triple_value, statement_eq_some (hwords _ (by decide))] at ht₁
  obtain ⟨m, v, hm, -, rfl⟩ := ht₁
  refine ⟨supported_of_ne (by decide) (by decide), fun t₂ ht₂ => ?_⟩
  rw [triple_uri, statement_eq_some (hwords _ (by decide))] at ht₂
  obtain ⟨m', w, hm', hw, rfl⟩ := ht₂
  cases hm.symm.trans hm'
  have hvalue : Says (insert (belongsTriple m w) (insert (valueTriple m v) g)) (str "ns1:hasValue") m :=
    ⟨_, Finset.mem_insert_of_mem (Finset.mem_insert_self _ _), rfl, rfl⟩
  refine ⟨supported_belongsTo (.inl hvalue), fun t₃ ht₃ => ?_⟩
  rw [triple_uri, statement_eq_some (hwords _ (by decide))] at ht₃
  obtain ⟨w', m', hw', hm', rfl⟩ := ht₃
  cases hm.symm.trans hm'
  cases hw.symm.trans hw'
  exact ⟨supported_hasMetrics (Finset.mem_insert_of_mem (Finset.mem_insert_self _ _))
    (hvalue.mono (Finset.subset_insert _ _)), trivial⟩

theorem backed_value (hwords : env.Predicates) {word : Str} (hword : word ∈ predicates)
    (hb : word ≠ str "ns1:belongsTo") (hm : word ≠ str "ns1:hasMetrics") {x o : PyVal} {g : Finset Triple}
    {is : List Insertion} (hrest : ∀ s v, env.uri x = some s → Backed env (insert ⟨s, .uri word, v⟩ g) is) :
    Backed env g (⟨x, .str word, o, .str (str "value")⟩ :: is) := by
  intro t ht
  rw [triple_value, statement_eq_some (hwords _ hword)] at ht
  obtain ⟨s, v, hs, -, rfl⟩ := ht
  exact ⟨supported_of_ne hb hm, hrest s v hs⟩

/-- The value, if there is one, comes last. -/
theorem recordTriples_eq (hwords : env.Predicates) (_field : Str) (_type : PyVal) (value : Option PyVal) : ∃ is,
    self.recordTriples env _field _type value =
      ⟨.str _field, .str (str "ns1:Type"), _type, .str (str "value")⟩ :: ((if self._enable_version then
        [⟨.str _field, .str (str "ns1:belongsTo"), self._version, .str (str "uri")⟩] else []) ++ is) ∧
      ∀ g, Backed env g is := by
  unfold recordTriples
  cases value with
  | none => exact ⟨[], rfl, fun _ => trivial⟩
  | some value =>
    exact ⟨_, rfl, fun _ => backed_value hwords (by decide) (by decide) (by decide) (fun _ _ _ => trivial)⟩

/-- **A record has its type before the link to the version**, which has one too. -/
theorem recordTriples_backed (hwords : env.Predicates) {g : Finset Triple}
    (hversion : self._enable_version = true → ∀ v, env.uri self._version = some v → Says g (str "ns1:Type") v)
    (_field : Str) (_type : PyVal) (value : Option PyVal) : Backed env g (self.recordTriples env _field _type value) := by
  obtain ⟨is, his, hvalue⟩ := @recordTriples_eq env self hwords _field _type value
  rw [his]
  refine backed_value hwords (by decide) (by decide) (by decide) (fun r c hr => ?_)
  cases henable : self._enable_version with
  | false => exact hvalue _
  | true =>
    intro t ht
    rw [triple_uri, statement_eq_some (hwords _ (by decide))] at ht
    obtain ⟨r', v, hr', hv, rfl⟩ := ht
    cases hr.symm.trans hr'
    refine ⟨supported_belongsTo (.inr ⟨?_, ?_⟩), hvalue _⟩
    · exact ⟨_, Finset.mem_insert_of_mem (Finset.mem_insert_self _ _), rfl, rfl⟩
    · exact (hversion henable v hv).mono ((Finset.subset_insert _ _).trans (Finset.subset_insert _ _))

/-- The caller adds no link by hand. -/
def Call.Curated (env : Env) : Call → Prop
  | .addTriple i => env.uri i._predicate ≠ some (.uri (str "ns1:belongsTo")) ∧
      env.uri i._predicate ≠ some (.uri (str "ns1:hasMetrics"))
  | _            => True

theorem AllWhole.settled (h : AllWhole env self) (c : Call) : AllWhole env (self.settled env c) := by
  cases c with
  | setSerializationPath path => exact ⟨h.model, h.files, h.version⟩
  | setIdentifier _id =>
    simp only [ PROVIO.settled, setIdentifier]
    cases env.strOf _id with
    | none => exact h
    | some _id => exact ⟨h.model, h.files, h.version⟩
  | _ => exact h

/-- **Every method adds what a link needs before the link.** -/
theorem insertions_backed (hwords : env.Predicates) (h : AllWhole env self) {c : Call} (hc : c.Curated env)
    (hs : self.writeVersion env = some s) : Backed env s._model (self.insertions env c) := by
  cases c with
  | addTriple i =>
    intro t ht
    have hp : env.uri i._predicate = some t._predicate := by
      unfold Env.triple Env.statement at ht
      split at ht
      · rename_i p _ _ hp _
        cases ht
        exact hp
      · cases ht
    exact ⟨⟨fun he => absurd (he ▸ hp) hc.1, fun he => absurd (he ▸ hp) hc.2⟩, trivial⟩
  | newRecord files field type value =>
    simp only [insertions]
    cases recordType env files field type with
    | error e => trivial
    | ok _type =>
      have hsame := writeVersion_settings hs
      refine recordTriples_backed hwords (fun he v hv => ?_) _ _ _
      rw [← hsame._enable_version] at he
      have hwritten : s.Written := (writeVersion_eq hs).elim fun _ h => h.elim fun _ h => h.2.1
      have hfirst : s._first_write = false := by
        unfold Written at hwritten
        rwa [he, Bool.and_true] at hwritten
      rw [← hsame._version] at hv
      exact (h.writeVersion hwords hs).version he hfirst v hv
  | addMetricToVersion metric value version =>
    simp only [insertions]
    split
    · exact metricLinks_backed hwords _ _ _ _
    · trivial
  | addMetricToRecord subject metric value =>
    simp only [insertions]
    split
    · split
      · split
        · exact metricLinks_backed hwords _ _ _ _
        · trivial
      · trivial
    · trivial
  | setSerializationPath path => trivial
  | setIdentifier _id => trivial

theorem AllWhole.call (hwords : env.Predicates) (h : AllWhole env self) {c : Call} (hc : c.Curated env) :
    AllWhole env (self.call env c) := by
  rw [call_eq]
  refine (h.settled c).addTriples hwords _ (fun s hs => ?_)
  cases c with
  | setSerializationPath path => trivial
  | setIdentifier _id => trivial
  | addTriple i => exact insertions_backed hwords h hc hs
  | newRecord files field type value => exact insertions_backed hwords h hc hs
  | addMetricToVersion metric value version => exact insertions_backed hwords h hc hs
  | addMetricToRecord subject metric value => exact insertions_backed hwords h hc hs

end

/-! ## Programs -/

/-- `serialize_prov_to_file`; `fails` where the serializer raises.  What it leaves of the file then is left out. -/
def serializeProvToFile (self : PROVIO) (path : Str) (fails : Bool) : Option PyError × PROVIO :=
  let self := { self with _serialize_path := some path }
  if self._serializer then
    if fails then (some .Exception, self) else (none, { self with disk := self.disk.set path self._model })
  else (none, self)

/-- `set_prefix_and_base_uri`, whose `serializer` is bound nowhere. -/
def setPrefixAndBaseUri (self : PROVIO) : Option PyError × PROVIO :=
  (if self._serializer then some .Exception else none, self)

/-- What a program does with its graph. -/
inductive Act where
  | call (c : Call)
  | serialize (path : Str) (fails : Bool)
  | setPrefix

def act (env : Env) (self : PROVIO) : Act → PROVIO
  | .call c               => self.call env c
  | .serialize path fails => (self.serializeProvToFile path fails).2
  | .setPrefix            => self.setPrefixAndBaseUri.2

def acts (env : Env) (self : PROVIO) (as : List Act) : PROVIO := as.foldl (act env) self

/-- A program, which loads the file `load` if it is to; `parses` where the file is in the format that it is loaded as. -/
structure Program where
  env    : Env
  args   : Args
  uuid   : Str
  load   : Option Str
  parses : Bool
  acts   : List Act

def parsed (disk : Dict Str (Finset Triple)) (parses : Bool) (path : Str) : Except PyError (Finset Triple) :=
  match disk.get? path, parses with
  | some file, true => .ok file
  | _, _            => .error .RedlandError

theorem parsed_eq_ok {disk : Dict Str (Finset Triple)} {parses : Bool} {path : Str} {file : Finset Triple} :
    parsed disk parses path = .ok file ↔ disk.get? path = some file ∧ parses = true := by
  unfold parsed
  cases disk.get? path <;> cases parses <;> simp

def Program.run (disk : Dict Str (Finset Triple)) (p : Program) : Except PyError PROVIO := do
  let self ← PROVIO.init p.env { p.args with load_provenance := p.load.map (parsed disk p.parses) } p.uuid disk
  pure (self.acts p.env p.acts)

/-- One program after the other; what the constructor refuses leaves the disk as it is. -/
def runPrograms : Dict Str (Finset Triple) → List Program → Dict Str (Finset Triple)
  | disk, []      => disk
  | disk, p :: ps =>
    match p.run disk with
    | .ok self => runPrograms self.disk ps
    | .error _ => runPrograms disk ps

/-- The library makes URIs of the predicates, no serialization fails, and the program adds no link by hand. -/
structure Program.Curated (p : Program) : Prop where
  words     : p.env.Predicates
  dumps     : ∀ n, p.env.dumped n ≠ .serializeFails
  serialize : ∀ path, .serialize path true ∉ p.acts
  calls     : ∀ c, .call c ∈ p.acts → c.Curated p.env

section

variable {env : Env} {self : PROVIO} {disk : Dict Str (Finset Triple)}

theorem AllWhole.act (hwords : env.Predicates) (h : AllWhole env self) {a : Act} (ha : ∀ c, a = .call c → c.Curated env) :
    AllWhole env (self.act env a) := by
  cases a with
  | call c => exact h.call hwords (ha c rfl)
  | serialize path fails =>
    unfold PROVIO.act serializeProvToFile
    dsimp only
    split
    · cases fails with
      | true => exact ⟨h.model, h.files, h.version⟩
      | false => exact ⟨h.model, files_set h.files h.model, h.version⟩
    · exact ⟨h.model, h.files, h.version⟩
  | setPrefix => exact h

theorem AllWhole.acts (hwords : env.Predicates) : ∀ (as : List Act) {self : PROVIO}, AllWhole env self →
    (∀ c, .call c ∈ as → c.Curated env) → AllWhole env (self.acts env as)
  | [], _, h, _ => h
  | a :: as, _, h, ha => AllWhole.acts hwords as (h.act hwords (fun c hc => ha c (hc ▸ List.mem_cons_self)))
      (fun c hc => ha c (List.mem_cons_of_mem a hc))

/-- **A program over files that are whole**, up to any of its acts. -/
theorem Program.run_whole {p : Program} (hp : p.Curated) (hdisk : ∀ path file, disk.get? path = some file → Whole file)
    (hr : p.run disk = .ok self) : AllWhole p.env self := by
  obtain ⟨start, hinit, hr⟩ := bind_eq_ok.1 hr
  cases hr
  obtain ⟨-, -, v, model, -, hmodel, rfl⟩ := init_eq_ok.1 hinit
  refine AllWhole.acts hp.words p.acts ⟨?_, hdisk, fun _ hf => absurd (show true = false from hf) (by decide)⟩ hp.calls
  show Whole model
  cases hload : p.load with
  | none =>
    rw [hload] at hmodel
    cases hmodel
    exact whole_empty
  | some path =>
    rw [hload] at hmodel
    exact hdisk path model (parsed_eq_ok.1 hmodel).1

theorem runPrograms_whole : ∀ (ps : List Program) {disk : Dict Str (Finset Triple)}, (∀ p ∈ ps, p.Curated) →
    (∀ path file, disk.get? path = some file → Whole file) →
    ∀ path file, (runPrograms disk ps).get? path = some file → Whole file
  | [], _, _, hdisk => hdisk
  | p :: ps, disk, hps, hdisk => by
    have hrest := fun p' hp' => hps p' (List.mem_cons_of_mem p hp')
    rw [runPrograms]
    cases hr : p.run disk with
    | error e => exact runPrograms_whole ps hrest hdisk
    | ok self => exact runPrograms_whole ps hrest (Program.run_whole (hps p List.mem_cons_self) hdisk hr).files

end

/-! ## What a file keeps -/

/-- **What insertions do to the disk**: the one file that is dumped to has what the graph had, and the others are as they
were. -/
structure Reached (p q : PROVIO) : Prop where
  model : p._model ⊆ q._model
  files : ∀ path, q.disk.get? path = p.disk.get? path ∨
    p._serialize_path = some path ∧ ∃ file, q.disk.get? path = some file ∧ p._model ⊆ file

section

variable {env : Env} {p q r : PROVIO}

theorem Reached.refl (p : PROVIO) : Reached p p := ⟨Finset.Subset.refl _, fun _ => .inl rfl⟩

theorem Reached.trans (h : Reached p q) (hsame : SameSettings q p) (h' : Reached q r) : Reached p r where
  model := h.model.trans h'.model
  files path := by
    obtain he | ⟨hpath, file, hfile, hsub⟩ := h'.files path
    · rw [he]
      exact h.files path
    · exact .inr ⟨hsame._serialize_path ▸ hpath, file, hfile, h.model.trans hsub⟩

theorem dump_reached (env : Env) (p : PROVIO) : Reached p (p.dump env).2 := by
  have hset : ∀ path, p._serialize_path = some path → ∀ path', (p.disk.set path p._model).get? path' = p.disk.get? path' ∨
      p._serialize_path = some path' ∧ ∃ file, (p.disk.set path p._model).get? path' = some file ∧ p._model ⊆ file := by
    intro path hpath path'
    rw [Dict.get?_set]
    split
    · rename_i he
      exact .inr ⟨he ▸ hpath, _, rfl, Finset.Subset.refl _⟩
    · exact .inl rfl
  unfold PROVIO.dump
  split
  · rename_i path _ hpath
    dsimp only
    split
    · exact .refl p
    · exact ⟨Finset.Subset.refl _, hset path hpath⟩
    · exact ⟨Finset.subset_union_left, hset path hpath⟩
  · exact .refl p

theorem addTriple_reached (env : Env) (p : PROVIO) (i : Insertion) : Reached p (p.addTriple env i).2 := by
  unfold PROVIO.addTriple
  cases hs : p.writeVersion env with
  | none => exact .refl p
  | some s =>
    obtain ⟨model, write, rfl, -, hmodel⟩ := writeVersion_eq hs
    have hsub : p._model ⊆ model := by
      obtain rfl | ⟨t, -, rfl⟩ := hmodel
      · exact Finset.Subset.refl _
      · exact Finset.subset_insert _ _
    have hwritten : Reached p { p with _model := model, _first_write := write } := ⟨hsub, fun _ => .inl rfl⟩
    cases env.triple i with
    | none => exact hwritten
    | some t =>
      have hadded : Reached p { p with
          _model := insert t model, _first_write := write, _op_count := p._op_count + 1 } :=
        ⟨hsub.trans (Finset.subset_insert _ _), fun _ => .inl rfl⟩
      dsimp only
      split
      · exact hadded.trans ⟨rfl, rfl, rfl, rfl, rfl, rfl⟩ (dump_reached env _)
      · exact hadded

theorem addTriples_reached (env : Env) : ∀ (is : List Insertion) (p : PROVIO), Reached p (p.addTriples env is).2
  | [], p => .refl p
  | i :: is, p => by
    have hi := addTriple_reached env p i
    have hsame := addTriple_settings env p i
    rw [addTriples]
    cases hr : p.addTriple env i with
    | mk e s =>
      rw [hr] at hi hsame
      cases e with
      | some e => exact hi
      | none => exact hi.trans hsame (addTriples_reached env is s)

def Act.file : Act → Option Str
  | .call (.setSerializationPath path) => some path
  | .serialize path _                  => some path
  | _                                  => none

/-- **A file keeps the statements `g`**, and what may be written to it has them. -/
structure Safe (path : Str) (g : Finset Triple) (p : PROVIO) : Prop where
  file  : ∃ file, p.disk.get? path = some file ∧ g ⊆ file
  model : p._serialize_path = some path → g ⊆ p._model

variable {path : Str} {g : Finset Triple}

theorem Reached.safe (h : Reached p q) (hsame : SameSettings q p) (hp : Safe path g p) : Safe path g q where
  file := by
    obtain he | ⟨hpath, file, hfile, hsub⟩ := h.files path
    · rw [he]
      exact hp.file
    · exact ⟨file, hfile, (hp.model hpath).trans hsub⟩
  model hpath := (hp.model (hsame._serialize_path ▸ hpath)).trans h.model

theorem call_subset (env : Env) (p : PROVIO) (c : Call) : p._model ⊆ (p.call env c)._model := by
  have hsettled : (p.settled env c)._model = p._model := by
    cases c with
    | setIdentifier _id =>
      simp only [settled, setIdentifier]
      cases env.strOf _id <;> rfl
    | _ => rfl
  rw [call_eq, ← hsettled]
  exact addTriples_subset env _ _

theorem Safe.call (h : Safe path g p) {c : Call} (hc : (Act.call c).file = some path → g ⊆ p._model) :
    Safe path g (p.call env c) := by
  have hsettled : Safe path g (p.settled env c) := by
    cases c with
    | setSerializationPath path' => exact ⟨h.file, hc⟩
    | setIdentifier _id =>
      simp only [settled, setIdentifier]
      cases env.strOf _id <;> exact ⟨h.file, h.model⟩
    | _ => exact h
  rw [call_eq]
  exact (addTriples_reached env _ _).safe (addTriples_settings env _ _) hsettled

theorem act_subset (env : Env) (p : PROVIO) (a : Act) : p._model ⊆ (p.act env a)._model := by
  cases a with
  | call c => exact call_subset env p c
  | serialize path fails =>
    unfold act serializeProvToFile
    dsimp only
    cases p._serializer <;> cases fails <;> exact Finset.Subset.refl _
  | setPrefix => exact Finset.Subset.refl _

theorem Safe.act (h : Safe path g p) {a : Act} (ha : a.file = some path → g ⊆ p._model) : Safe path g (p.act env a) := by
  cases a with
  | call c => exact h.call ha
  | serialize path' fails =>
    have hpath : some path' = some path → g ⊆ p._model := ha
    unfold PROVIO.act serializeProvToFile
    dsimp only
    split
    · cases fails with
      | true => exact ⟨h.file, hpath⟩
      | false =>
        refine ⟨?_, hpath⟩
        show ∃ file, (p.disk.set path' p._model).get? path = some file ∧ g ⊆ file
        rw [Dict.get?_set]
        split
        · rename_i he
          exact ⟨_, rfl, hpath (he ▸ rfl)⟩
        · exact h.file
    · exact ⟨h.file, hpath⟩
  | setPrefix => exact h

theorem Safe.acts : ∀ (as : List Act) {p : PROVIO}, Safe path g p →
    (g ⊆ p._model ∨ ∀ a ∈ as, a.file ≠ some path) → Safe path g (p.acts env as)
  | [], _, h, _ => h
  | a :: as, p, h, ha => by
    refine Safe.acts as (h.act (fun he => ?_)) (ha.imp (·.trans (act_subset env p a))
      (fun hne a' ha' => hne a' (List.mem_cons_of_mem a ha')))
    exact ha.resolve_right fun hne => hne a List.mem_cons_self he

/-- A program that writes to the file loads it. -/
def Program.HandsOn (path : Str) (p : Program) : Prop := p.load = some path ∨ ∀ a ∈ p.acts, a.file ≠ some path

theorem Program.run_safe {disk : Dict Str (Finset Triple)} {p : Program} {self : PROVIO} (hp : p.HandsOn path)
    (hfile : ∃ file, disk.get? path = some file ∧ g ⊆ file) (hr : p.run disk = .ok self) : Safe path g self := by
  obtain ⟨start, hinit, hr⟩ := bind_eq_ok.1 hr
  cases hr
  obtain ⟨-, -, v, model, -, hmodel, rfl⟩ := init_eq_ok.1 hinit
  refine Safe.acts p.acts ⟨hfile, fun hpath => absurd (show none = some path from hpath) (Option.some_ne_none _).symm⟩
    (hp.imp_left fun hload => ?_)
  obtain ⟨file, hfile, hsub⟩ := hfile
  rw [hload] at hmodel
  cases hfile.symm.trans (parsed_eq_ok.1 hmodel).1
  exact hsub

theorem runPrograms_keep : ∀ (ps : List Program) {disk : Dict Str (Finset Triple)}, (∀ p ∈ ps, p.HandsOn path) →
    (∃ file, disk.get? path = some file ∧ g ⊆ file) → ∃ file, (runPrograms disk ps).get? path = some file ∧ g ⊆ file
  | [], _, _, h => h
  | p :: ps, disk, hps, h => by
    have hrest := fun p' hp' => hps p' (List.mem_cons_of_mem p hp')
    rw [runPrograms]
    cases hr : p.run disk with
    | error e => exact runPrograms_keep ps hrest h
    | ok self => exact runPrograms_keep ps hrest (Program.run_safe (hps p List.mem_cons_self) h hr).file

/-- **Over any chain of programs the graphs and the files stay whole**, whatever raises, and a file that each program
loads before it writes to it keeps every statement. -/
theorem programs_whole {ps : List Program} {disk : Dict Str (Finset Triple)} (hps : ∀ p ∈ ps, p.Curated)
    (hdisk : ∀ path file, disk.get? path = some file → Whole file) :
    (∀ path file, (runPrograms disk ps).get? path = some file → Whole file) ∧
    (∀ p : Program, p.Curated → ∀ self, p.run (runPrograms disk ps) = .ok self → Whole self._model) ∧
    ∀ path, (∀ p ∈ ps, p.HandsOn path) → ∀ g, disk.get? path = some g →
      ∃ file, (runPrograms disk ps).get? path = some file ∧ g ⊆ file := by
  have hwhole := runPrograms_whole ps hps hdisk
  exact ⟨hwhole, fun p hp self hr => (Program.run_whole hp hwhole hr).model,
    fun path hon g hg => runPrograms_keep ps hon ⟨g, hg, Finset.Subset.refl g⟩⟩

end

def recordProgram : Program where
  env := plain
  args := ⟨none, false, false, none, none, some (str "turtle"), none⟩
  uuid := []
  load := none
  parses := true
  acts := [.call (.newRecord .empty (str "lr") (some (.str (str "Hyperparam"))) (some (.str (str "0.1")))),
    .serialize (str "prov.turtle") false]

/-- A program that adds a metric to what it loads, and dumps at every insertion. -/
def metricProgram : Program where
  env := plain
  args := ⟨none, false, false, none, none, some (str "turtle"), some 1⟩
  uuid := []
  load := some (str "prov.turtle")
  parses := true
  acts := [.call (.setIdentifier (.str (str "run"))), .call (.setSerializationPath (str "prov.turtle")),
    .call (.addMetricToVersion (.str (str "acc")) (.str (str "0.9")) none)]

theorem recordProgram_curated : recordProgram.Curated where
  words := plain_predicates
  dumps := fun _ h => absurd h (show Dumped.done ≠ .serializeFails by decide)
  serialize := fun path h => by simp [recordProgram] at h
  calls := fun c h => by
    simp only [recordProgram, List.mem_cons, Act.call.injEq, List.not_mem_nil, reduceCtorEq, or_false] at h
    rw [h]
    trivial

theorem metricProgram_curated : metricProgram.Curated where
  words := plain_predicates
  dumps := fun _ h => absurd h (show Dumped.done ≠ .serializeFails by decide)
  serialize := fun path h => by simp [metricProgram] at h
  calls := fun c h => by
    simp only [metricProgram, List.mem_cons, Act.call.injEq, List.not_mem_nil, or_false] at h
    obtain rfl | rfl | rfl := h <;> trivial

/-- The program of the metric finds the record, and what it leaves has both. -/
theorem programs_whole_two : ∃ g file, (runPrograms .empty [recordProgram]).get? (str "prov.turtle") = some g ∧
    (runPrograms (runPrograms .empty [recordProgram]) [metricProgram]).get? (str "prov.turtle") = some file ∧
    belongsTriple (.uri (str "lr")) (.uri (str "v1.0")) ∈ g ∧
    metricsTriple (.uri (str "acc-run")) (.uri (str "v1.0")) ∈ file ∧ g ⊆ file ∧ Whole file := by
  have hone := @programs_whole [recordProgram] .empty
    (fun p hp => List.mem_singleton.1 hp ▸ recordProgram_curated) (fun path file h => absurd h (by simp))
  have htwo := @programs_whole [metricProgram] (runPrograms .empty [recordProgram])
    (fun p hp => List.mem_singleton.1 hp ▸ metricProgram_curated) hone.1
  obtain ⟨g, hg, hrecord⟩ := (Option.any_eq_true _ _).1
    (show ((runPrograms .empty [recordProgram]).get? (str "prov.turtle")).any
      (fun g => decide (belongsTriple (.uri (str "lr")) (.uri (str "v1.0")) ∈ g)) = true by decide)
  obtain ⟨file, hfile, hsub⟩ := htwo.2.2 _ (fun p hp => List.mem_singleton.1 hp ▸ .inl rfl) g hg
  have hmetric : ((runPrograms (runPrograms .empty [recordProgram]) [metricProgram]).get? (str "prov.turtle")).any
      (fun g => decide (metricsTriple (.uri (str "acc-run")) (.uri (str "v1.0")) ∈ g)) = true := by decide
  rw [hfile] at hmetric
  exact ⟨g, file, hg, hfile, of_decide_eq_true hrecord, of_decide_eq_true hmetric, hsub, htwo.1 _ file hfile⟩

end PROVIO

end Provio
