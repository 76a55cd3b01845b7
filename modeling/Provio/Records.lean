import Provio.Graph
import Provio.Handles
import Provio.Steps
/-!
# Records — what the records say of the run

A callback that returns has added the record `Callback.entry`, which its arguments decide (`Callback.run_recorded`), so a
run's history is read off its callbacks (`runCallbacks_history`), and the relations in its graph off its records
(`relations_recorded`).  A record is sound if it describes an operation that was done.  The connector records what it was
asked for, done or not, and a file operation as the opening of a datatype: the records of a run are sound exactly when
every recorded operation was done and none is on a file (`records_sound_iff`).
-/
namespace Provio

/-! ## Operations -/

inductive Action where
  | create
  | open
  | read
  | write
  | commit
deriving DecidableEq, Repr

def Action.relation : Action → CStr
  | .create => cstr "prov:wasGeneratedBy"
  | .open   => cstr "provio:wasOpenedBy"
  | .read   => cstr "provio:wasReadBy"
  | .write  => cstr "provio:wasWrittenBy"
  | .commit => cstr "prov:wasCommittedBy"

/-- The HDF5 function an operation is called through. -/
def apiName : DataClass → Action → CStr
  | .file, .create     => cstr "H5Fcreate"
  | .file, .open       => cstr "H5Fopen"
  | .group, .create    => cstr "H5Gcreate2"
  | .group, .open      => cstr "H5Gopen2"
  | .dataset, .create  => cstr "H5Dcreate2"
  | .dataset, .open    => cstr "H5Dopen2"
  | .dataset, .read    => cstr "H5Dread"
  | .dataset, .write   => cstr "H5Dwrite"
  | .attr, .create     => cstr "H5Acreate2"
  | .attr, .open       => cstr "H5Aopen"
  | .attr, .read       => cstr "H5Aread"
  | .attr, .write      => cstr "H5Awrite"
  | .datatype, .open   => cstr "H5Topen2"
  | .datatype, .commit => cstr "H5Tcommit2"
  | _, _               => []

/-- An operation on an object: whether the underlying connector did it, and what the object is called there. -/
structure Operation where
  cls    : DataClass
  action : Action
  done   : Bool
  object : Option CStr
deriving DecidableEq

def Maker.cls : Maker → DataClass
  | .attrCreate => .attr
  | .datasetCreate | .datasetOpen => .dataset
  | .datatypeCommit | .datatypeOpen => .datatype
  | .groupCreate | .groupOpen => .group

def Maker.action : Maker → Action
  | .attrCreate | .datasetCreate | .groupCreate => .create
  | .datasetOpen | .datatypeOpen | .groupOpen => .open
  | .datatypeCommit => .commit

def Xfer.action : Xfer → Action
  | .read  => .read
  | .write => .write

def FileOp.action : FileOp → Action
  | .create => .create
  | .open   => .open

def Callback.operation : Callback → Option Operation
  | .make f _ name m _                     => some ⟨f.cls, f.action, m.under.isSome, name⟩
  | .attrOpen _ name queried m _           => some ⟨.attr, .open, m.under.isSome, name.or queried⟩
  | .attrAccess x _ ret name _             => some ⟨.attr, x.action, ret, name⟩
  | .datasetAccess x _ name _ ret _ _ _    => some ⟨.dataset, x.action, ret, name⟩
  | .fileCall f _ name under _ _           => some ⟨.file, f.action, under.isSome, name⟩
  | _                                      => none

/-- A record is sound for an operation: it was done, on the object and of the class the record says. -/
structure Describes (op : Operation) (e : Entry) : Prop where
  done     : op.done = true
  object   : op.object = some e.data_object
  type     : e.type = op.cls.type
  relation : e.relation = op.action.relation
  io_api   : e.io_api = apiName op.cls op.action

/-! ## The record of a callback -/

def entryOf (cls : DataClass) (action : Action) (n : CStr) : Entry := ⟨n, cls.type, action.relation, apiName cls action⟩

/-- What a callback that returns has recorded. -/
def Callback.entry : Callback → Option Entry
  | .make f _ name _ _                     => name.map (entryOf f.cls f.action)
  | .attrOpen _ name _ _ _                 => name.map (entryOf .attr .open)
  | .attrAccess x _ _ name _               => name.map (entryOf .attr x.action)
  | .datasetAccess x _ name stack _ _ _ _  => some (entryOf .dataset x.action (nameBuffer name stack))
  | .fileCall _ _ name _ _ _               => name.map (entryOf .datatype .open)
  | _                                      => none

def Maker.target : Maker → ObjClass
  | .attrCreate => .attr
  | .datasetCreate | .datasetOpen => .dataset
  | .datatypeCommit | .datatypeOpen => .dtype
  | .groupCreate | .groupOpen => .grp

def Maker.func : Maker → CStr
  | .attrCreate     => cstr "H5VL_provenance_attr_create"
  | .datasetCreate  => cstr "H5VL_provenance_dataset_create"
  | .datasetOpen    => cstr "H5VL_provenance_dataset_open"
  | .datatypeCommit => cstr "H5VL_provenance_datatype_commit"
  | .datatypeOpen   => cstr "H5VL_provenance_datatype_open"
  | .groupCreate    => cstr "H5VL_provenance_group_create"
  | .groupOpen      => cstr "H5VL_provenance_group_open"

theorem Maker.run_eq (f : Maker) :
    f.run = makeObject f.target f.cls.type f.action.relation (apiName f.cls f.action) f.func := by
  cases f <;> rfl

/-- What a callback that returned has recorded: its entry, which it has if it has an operation. -/
structure Callback.Recorded (c : Callback) (s s' : Conn) : Prop where
  records : s'.records = s.records ++ c.entry.toList
  process : Logged s.process s'.process c.entry.toList
  entry   : c.operation.isSome → c.entry.isSome

theorem Callback.Recorded.of_quiet {c : Callback} {s s' : Conn} (h : Quiet s s') (he : c.entry = none)
    (ho : c.operation = none) : c.Recorded s s' := by
  refine ⟨by rw [he, h.records]; simp, ?_, by simp [ho]⟩
  rw [he]
  exact h.process

theorem Callback.run_recorded {s s' : Conn} {app app' : App} {c : Callback} (hr : c.run s app = .ok (s', app')) :
    c.Recorded s s' := by
  cases c with
  | make f o name m t =>
    obtain ⟨⟨s₀, obj⟩, h1, hr⟩ := bind_eq_ok.1 hr
    cases hr
    rw [f.run_eq] at h1
    obtain ⟨s₁, n, p, h2, rfl, hp, rfl⟩ := makeObject_ok h1
    have hq := objWrapUnder_quiet h2
    exact ⟨by simp [entry, entryOf, hq.records], hq.process.trans hp, by simp [entry]⟩
  | attrOpen o name queried m t =>
    obtain ⟨⟨s₀, obj⟩, h1, hr⟩ := bind_eq_ok.1 hr
    cases hr
    obtain ⟨s₁, n, p, h2, rfl, hp, rfl⟩ := attrOpen_ok h1
    have hq := objWrapUnder_quiet h2
    exact ⟨by simp [entry, entryOf, hq.records, DataClass.type, Action.relation, apiName], hq.process.trans hp,
      by simp [entry]⟩
  | attrAccess x o ret name t =>
    cases x with
    | read =>
      obtain ⟨⟨s₀, _⟩, h1, hr⟩ := bind_eq_ok.1 hr
      cases hr
      obtain ⟨n, p, rfl, hp, rfl⟩ := attrAccess_ok h1
      exact ⟨rfl, hp, by simp [entry]⟩
    | write =>
      obtain ⟨⟨s₀, _⟩, h1, hr⟩ := bind_eq_ok.1 hr
      cases hr
      obtain ⟨n, p, rfl, hp, rfl⟩ := attrAccess_ok h1
      exact ⟨rfl, hp, by simp [entry]⟩
  | datasetAccess x o name stack ret npoints elapsed t =>
    cases x with
    | read =>
      obtain ⟨⟨s₀, _⟩, h1, hr⟩ := bind_eq_ok.1 hr
      cases hr
      obtain ⟨_, hp, hrec⟩ := datasetRead_ok h1
      exact ⟨hrec, hp, by simp [entry]⟩
    | write =>
      obtain ⟨⟨s₀, _⟩, h1, hr⟩ := bind_eq_ok.1 hr
      cases hr
      obtain ⟨_, hp, hrec⟩ := datasetWrite_ok h1
      exact ⟨hrec, hp, by simp [entry]⟩
  | fileCall f info name under m t =>
    have key : ∀ func file, Provio.fileCall func s info name under m t = .ok (s', file) →
        (Callback.fileCall f info name under m t).Recorded s s' := by
      intro func file h1
      obtain ⟨s₁, s₂, n, p, _, rfl, hp, rfl, ⟨_, h2⟩ | ⟨_, rfl⟩⟩ := fileCall_ok h1
      · have hq := markFile_quiet h2
        exact ⟨hq.records, hp.trans hq.process, by simp [entry]⟩
      · exact ⟨rfl, hp, by simp [entry]⟩
    cases f with
    | create =>
      obtain ⟨⟨s₀, file⟩, h1, hr⟩ := bind_eq_ok.1 hr
      cases hr
      exact key _ file h1
    | «open» =>
      obtain ⟨⟨s₀, file⟩, h1, hr⟩ := bind_eq_ok.1 hr
      cases hr
      exact key _ file h1
  | fileReopen o ret under =>
    obtain ⟨⟨s₀, file⟩, h1, hr⟩ := bind_eq_ok.1 hr
    cases hr
    exact .of_quiet (fileReopen_quiet h1) rfl rfl
  | fileClose o ret =>
    obtain ⟨⟨s₀, _⟩, h1, hr⟩ := bind_eq_ok.1 hr
    obtain ⟨s₁, h2, h1⟩ := bind_eq_ok.1 h1
    cases h1
    cases hr
    exact .of_quiet (onSuccess_quiet h2) rfl rfl
  | close k cmp o ret =>
    obtain ⟨⟨s₀, _⟩, h1, hr⟩ := bind_eq_ok.1 hr
    rw [closeOf_eq] at h1
    obtain ⟨s₁, h2, h1⟩ := bind_eq_ok.1 h1
    cases h1
    cases hr
    exact .of_quiet (onSuccess_quiet h2) rfl rfl
  | objectOpen o obj_name type m =>
    obtain ⟨⟨s₀, obj⟩, h1, hr⟩ := bind_eq_ok.1 hr
    cases hr
    exact .of_quiet (objWrapUnder_quiet h1) rfl rfl
  | getWrapCtx o =>
    obtain ⟨⟨s₀, a⟩, h1, hr⟩ := bind_eq_ok.1 hr
    cases hr
    exact .of_quiet (onHelper_quiet h1) rfl rfl
  | wrapObject a type m =>
    obtain ⟨⟨s₀, obj⟩, h1, hr⟩ := bind_eq_ok.1 hr
    cases hr
    exact .of_quiet (wrapObject_quiet h1) rfl rfl
  | unwrapObject cmp o under =>
    obtain ⟨⟨s₀, _⟩, h1, hr⟩ := bind_eq_ok.1 hr
    obtain ⟨s₁, h2, h1⟩ := bind_eq_ok.1 h1
    cases h1
    cases hr
    exact .of_quiet (onSuccess_quiet h2) rfl rfl
  | freeWrapCtx a =>
    obtain ⟨s₀, h1, hr⟩ := bind_eq_ok.1 hr
    cases hr
    exact .of_quiet (updHelper_quiet h1) rfl rfl
  | setExtent o ret new_size =>
    obtain ⟨s₀, h1, hr⟩ := bind_eq_ok.1 hr
    cases hr
    exact .of_quiet (onSuccess_quiet h1) rfl rfl
  | refreshBegin specific o =>
    obtain ⟨⟨s₀, hold⟩, h1, hr⟩ := bind_eq_ok.1 hr
    cases hr
    exact .of_quiet (refreshBegin_quiet h1) rfl rfl
  | refreshEnd cmp hold ret extent =>
    obtain ⟨s₀, h1, hr⟩ := bind_eq_ok.1 hr
    cases hr
    exact .of_quiet (updHelper_quiet h1) rfl rfl
  | forward =>
    cases hr
    exact .of_quiet (.refl s) rfl rfl

/-! ## Runs -/

def entries (cs : List Callback) : List (Callback × Entry) := cs.filterMap fun c => c.entry.map (c, ·)

theorem entries_cons (c : Callback) (cs : List Callback) :
    entries (c :: cs) = (c.entry.map (c, ·)).toList ++ entries cs := by
  unfold entries
  cases h : c.entry <;> simp [h]

theorem mem_entries {cs : List Callback} {p : Callback × Entry} : p ∈ entries cs ↔ p.1 ∈ cs ∧ p.1.entry = some p.2 := by
  obtain ⟨c, e⟩ := p
  simp only [entries, List.mem_filterMap, Option.map_eq_some_iff, Prod.mk.injEq]
  constructor
  · rintro ⟨_, hc, _, he, rfl, rfl⟩
    exact ⟨hc, he⟩
  · rintro ⟨hc, he⟩
    exact ⟨c, hc, e, he, rfl, rfl⟩

theorem step_history {w w' : World} {c : Callback} (hr : c.step w = .ok w') :
    w'.history = w.history ++ (c.entry.map (c, ·)).toList ∧ c.Recorded w.conn w'.conn := by
  obtain ⟨⟨s, app⟩, h1, hr⟩ := bind_eq_ok.1 hr
  cases hr
  have hrec := c.run_recorded h1
  refine ⟨?_, hrec⟩
  simp only [hrec.records, List.drop_left]
  cases c.entry <;> rfl

/-- What a run has recorded. -/
structure RunRecorded (cs : List Callback) (w w' : World) : Prop where
  history : w'.history = w.history ++ entries cs
  records : w'.conn.records = w.conn.records ++ (entries cs).map Prod.snd
  process : Logged w.conn.process w'.conn.process ((entries cs).map Prod.snd)
  entry   : ∀ c ∈ cs, c.operation.isSome → c.entry.isSome

/-- **A run's history is the entries of its callbacks, in order**, and its records are their second halves. -/
theorem runCallbacks_history : ∀ (cs : List Callback) {w w' : World}, runCallbacks cs w = .ok w' → RunRecorded cs w w'
  | [], w, w', hr => by
    cases hr
    exact ⟨by simp [entries], by simp [entries], .refl _, by simp⟩
  | c :: cs, w, w', hr => by
    obtain ⟨w₁, h1, hr⟩ := bind_eq_ok.1 hr
    obtain ⟨hhist, hrec⟩ := step_history h1
    have ih := runCallbacks_history cs hr
    have hsnd : (entries (c :: cs)).map Prod.snd = c.entry.toList ++ (entries cs).map Prod.snd := by
      rw [entries_cons]
      cases c.entry <;> rfl
    refine ⟨?_, ?_, ?_, ?_⟩
    · rw [ih.history, hhist, entries_cons, List.append_assoc]
    · rw [ih.records, hrec.records, hsnd, List.append_assoc]
    · rw [hsnd]
      exact hrec.process.trans ih.process
    · intro d hd
      rcases List.mem_cons.1 hd with rfl | hd
      · exact hrec.entry
      · exact ih.entry d hd

/-- **The relations in the graph are those the records say**, apart from the statements it was loaded with; every
record whose class is enabled is there. -/
theorem relations_recorded {inp : SessionInput} {cs : List Callback} {w : World}
    (hr : runCallbacks cs (.start inp) = .ok w) :
    (∀ t ∈ w.conn.process.model_prov, t.predicate ∈ relations → t ∈ loadedGraph inp ∨ ∃ e ∈ w.conn.records, e.Says t) ∧
    (isGraph inp.config → inp.config.enable_api_prov → ∀ e ∈ w.conn.records, tracksType inp.config e.type →
      ∃ t ∈ w.conn.process.model_prov, e.Says t) := by
  have h := runCallbacks_history cs hr
  have hrec : w.conn.records = (entries cs).map Prod.snd := h.records
  rw [hrec]
  exact ⟨h.process.added, h.process.said⟩

/-! ## Soundness -/

/-- The operation, if the callback has one, was done on an object that is no file and whose name is known. -/
def Callback.Recordable (c : Callback) : Prop :=
  ∀ op, c.operation = some op → op.done = true ∧ op.cls ≠ .file ∧ op.object.isSome

/-- **A callback's record is sound exactly when it is `Recordable`.** -/
theorem entry_describes_iff {c : Callback} {e : Entry} (he : c.entry = some e) :
    (∃ op, c.operation = some op ∧ Describes op e) ↔ c.Recordable := by
  have named : ∀ {cls : DataClass} {action : Action} {done : Bool} {object : Option CStr} {n : CStr},
      c.operation = some ⟨cls, action, done, object⟩ → cls ≠ .file → (object.isSome → object = some n) →
      e = entryOf cls action n → ((∃ op, c.operation = some op ∧ Describes op e) ↔ c.Recordable) := by
    intro cls action done object n hop hcls hobj he
    subst he
    unfold Callback.Recordable
    rw [hop]
    constructor
    · rintro ⟨op, hop', hd⟩ op' hop''
      cases hop'
      cases hop''
      exact ⟨hd.done, hcls, by rw [hd.object]; rfl⟩
    · intro hrec
      obtain ⟨hdone, _, hsome⟩ := hrec _ rfl
      exact ⟨_, rfl, hdone, hobj hsome, rfl, rfl, rfl⟩
  cases c with
  | make f o name m t =>
    obtain ⟨n, rfl, rfl⟩ := Option.map_eq_some_iff.1 he
    exact named rfl (by cases f <;> decide) (fun _ => rfl) rfl
  | attrOpen o name queried m t =>
    obtain ⟨n, rfl, rfl⟩ := Option.map_eq_some_iff.1 he
    exact named rfl (by decide) (fun _ => rfl) rfl
  | attrAccess x o ret name t =>
    obtain ⟨n, rfl, rfl⟩ := Option.map_eq_some_iff.1 he
    exact named rfl (by decide) (fun _ => rfl) rfl
  | datasetAccess x o name stack ret npoints elapsed t =>
    cases he
    refine named rfl (by decide) (fun hn => ?_) rfl
    obtain ⟨n, rfl⟩ := Option.isSome_iff_exists.1 hn
    rfl
  | fileCall f info name under m t =>
    obtain ⟨n, rfl, rfl⟩ := Option.map_eq_some_iff.1 he
    constructor
    · rintro ⟨op, hop, hd⟩
      cases hop
      exact absurd hd.type (show DataClass.datatype.type ≠ DataClass.file.type by decide)
    · intro hrec
      exact absurd rfl (hrec _ rfl).2.1
  | _ => cases he

/-- **In every state of every run the records are those of its callbacks, and say every relation of the graph.  Each is
sound exactly when its callback's operation was done, on a named object that is no file; all are when every operation of
the run was so.** -/
theorem records_sound_iff {inp : SessionInput} {cs : List Callback} {w : World}
    (hr : runCallbacks cs (.start inp) = .ok w) : w.conn.records = w.history.map Prod.snd ∧
      (∀ t ∈ w.conn.process.model_prov, t.predicate ∈ relations →
        t ∈ loadedGraph inp ∨ ∃ p ∈ w.history, p.2.Says t) ∧
      (∀ p ∈ w.history, (∃ op, p.1.operation = some op ∧ Describes op p.2) ↔ p.1.Recordable) ∧
      ((∀ p ∈ w.history, ∃ op, p.1.operation = some op ∧ Describes op p.2) ↔ ∀ c ∈ cs, c.Recordable) := by
  have h := runCallbacks_history cs hr
  have hhist : w.history = entries cs := h.history
  have hrec : w.conn.records = w.history.map Prod.snd := by rw [hhist]; exact h.records
  have each : ∀ p ∈ w.history, (∃ op, p.1.operation = some op ∧ Describes op p.2) ↔ p.1.Recordable := by
    rw [hhist]
    exact fun p hp => entry_describes_iff (mem_entries.1 hp).2
  refine ⟨hrec, fun t ht hrel => ?_, each, fun hall c hc => ?_, fun hall p hp => ?_⟩
  · refine ((relations_recorded hr).1 t ht hrel).imp_right ?_
    rintro ⟨e, he, hsays⟩
    rw [hrec] at he
    obtain ⟨p, hp, rfl⟩ := List.mem_map.1 he
    exact ⟨p, hp, hsays⟩
  · cases hop : c.operation with
    | none => intro op hop'; rw [hop] at hop'; cases hop'
    | some op =>
      obtain ⟨e, he⟩ := Option.isSome_iff_exists.1 (h.entry c hc (by rw [hop]; rfl))
      have hmem : (c, e) ∈ w.history := by rw [hhist]; exact mem_entries.2 ⟨hc, he⟩
      exact (each _ hmem).1 (hall _ hmem)
  · refine (each p hp).2 (hall p.1 ?_)
    rw [hhist] at hp
    exact (mem_entries.1 hp).1

/-! ## A run on rank 1 -/

def rankOneInput : SessionInput := { rankZeroInput with MPI_RANK := 1 }

def graphInfo : VolInfo := ⟨some (cstr "prov.ttl"), some (cstr "rdf"), 2⟩

def someTicks : Ticks := ⟨12, cstr "80", 3, 10, 0, 10⟩

def made (under : Option Under) : Made := ⟨under, exactCmp, 0, 0⟩

def noMarking : Marking := ⟨made none, made none, made none⟩

def someShape : DsShape := ⟨4, .simple, [10], 10⟩

def fileUnder : Under := ⟨none, some 1, someShape⟩

def objUnder (token : Token) : Under := ⟨some (1, token), none, someShape⟩

def fileHandle : ProvObj := ⟨some fileUnder, .file, 0⟩

def createFile : Callback := .fileCall .create graphInfo (some (cstr "a.h5")) (some fileUnder) noMarking someTicks

def createDataset (name : CStr) (under : Option Under) : Callback :=
  .make .datasetCreate fileHandle (some name) (made under) someTicks

def createGroup : Callback := .make .groupCreate fileHandle (some (cstr "g")) (made (some (objUnder 5))) someTicks

def groupHandle : ProvObj := ⟨some (objUnder 5), .obj .grp, 1⟩

theorem records_sound_iff_dataset : ∃ w, runCallbacks [createFile, createDataset (cstr "/d") (some (objUnder 7))]
    (.start rankOneInput) = .ok w ∧ ∃ p ∈ w.history, p.2.data_object = cstr "/d" ∧
      ∃ op, p.1.operation = some op ∧ Describes op p.2 := by
  obtain ⟨w, hw⟩ : ∃ w, runCallbacks [createFile, createDataset (cstr "/d") (some (objUnder 7))] (.start rankOneInput) =
    .ok w := ⟨_, rfl⟩
  have hmem : (createDataset (cstr "/d") (some (objUnder 7)), entryOf .dataset .create (cstr "/d")) ∈ w.history := by
    rw [(runCallbacks_history _ hw).history]
    exact List.mem_append_right _ (mem_entries.2 ⟨.tail _ (.head _), rfl⟩)
  refine ⟨w, hw, _, hmem, rfl, ((records_sound_iff hw).2.2.1 _ hmem).2 fun op hop => ?_⟩
  cases hop
  decide

/-- A file is created, then the creation of a dataset fails underneath: the dataset is recorded as generated, in the graph
too, and the file as a datatype that was opened. -/
theorem failed_create_recorded : ∃ w, runCallbacks [createFile, createDataset (cstr "d") none] (.start rankOneInput) = .ok w ∧
    w.history.map Prod.snd =
      [⟨cstr "a.h5", cstr "provio:Datatype", cstr "provio:wasOpenedBy", cstr "H5Topen2"⟩,
        ⟨cstr "d", cstr "provio:Dataset", cstr "prov:wasGeneratedBy", cstr "H5Dcreate2"⟩] ∧
    (∃ t ∈ w.conn.process.model_prov, t.subject = cstr "d" ∧ t.predicate = cstr "prov:wasGeneratedBy") ∧
    ∀ p ∈ w.history, ¬ ∃ op, p.1.operation = some op ∧ Describes op p.2 := by
  obtain ⟨w, hw, hhist⟩ : ∃ w, runCallbacks [createFile, createDataset (cstr "d") none] (.start rankOneInput) = .ok w ∧
    w.history = [(createFile, entryOf .datatype .open (cstr "a.h5")),
      (createDataset (cstr "d") none, entryOf .dataset .create (cstr "d"))] := ⟨_, rfl, rfl⟩
  have hrec : w.conn.records = w.history.map Prod.snd := by
    rw [(runCallbacks_history _ hw).records, (runCallbacks_history _ hw).history]
    rfl
  rw [hhist] at hrec
  refine ⟨w, hw, by rw [hhist]; rfl, (relations_recorded hw).2 rfl rfl (entryOf .dataset .create (cstr "d")) ?_ rfl, ?_⟩
  · rw [hrec]
    exact .tail _ (.head _)
  · rw [hhist]
    intro p hp
    rcases List.mem_cons.1 hp with rfl | hp
    · rintro ⟨op, hop, hd⟩
      cases hop
      exact absurd hd.type (by decide)
    · obtain rfl := List.mem_singleton.1 hp
      rintro ⟨op, hop, hd⟩
      cases hop
      exact absurd hd.done (by decide)

end Provio
