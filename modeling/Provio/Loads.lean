import Provio.Independence
import Provio.Leaks
import Provio.Records
import Provio.Shifts
/-!
# Loads — the connector from `H5VL_provenance_init` to `H5VL_provenance_term`

A process may load and unload the connector any number of times.  Loading calls `provio_init`, the first file that is
created or opened calls `provio_helper_init`, a callback that records calls the user functions, and unloading tears down
what was set up.  So a load that has recorded anything is a session of `provio.c` with the user functions of its
callbacks, except that the connector adds its overhead to the totals itself (`Load.run_cases`), and a run of loads is the
run of their sessions (`runLoads_session`).
-/
namespace Provio

/-! ## Loading and unloading -/

def Conn.init (p : Process) (inp : SessionInput) : Conn := ⟨none, provioInit p inp, inp, []⟩

def SessionOutput.none : SessionOutput := ⟨.none, .none, .none⟩

/-- `prov_helper_teardown`, which tears down what `provio_helper_init` gave; the pointer that it leaves is in `Dangling`. -/
def provHelperTeardown (s : Conn) : Except Fault (Process × SessionOutput) :=
  match s.PROV_HELPER, s.process.helper with
  | some _, some _ => provioHelperTeardown s.process s.input
  | _, _           => .ok (s.process, .none)

def Conn.term (s : Conn) : Except Fault (Process × SessionOutput) := do
  let (p, out) ← provHelperTeardown s
  pure (provioTerm p, out)

/-- What a process meets between loading the connector and unloading it. -/
structure Load where
  input     : SessionInput
  callbacks : List Callback

def Load.run (p : Process) (l : Load) : Except Fault (Process × SessionOutput) := do
  let w ← runCallbacks l.callbacks ⟨.init p l.input, .init, []⟩
  w.conn.term

/-! ## The user functions of a callback -/

/-- What a callback records, in which function and at which times. -/
structure Noted where
  entry : Entry
  func  : CStr
  ticks : Ticks

namespace Noted

def record (n : Noted) : Record :=
  ⟨n.entry.data_object, n.entry.type, n.entry.relation, n.entry.io_api, n.ticks.duration, n.ticks.uuid, n.ticks.write_elapsed⟩

def call (n : Noted) : Call := ⟨n.func, n.ticks.stat_elapsed, n.ticks.malloced⟩

def ops (n : Noted) : List SessionOp := n.record.ops ++ [.funcStat n.call]

end Noted

/-- The function whose time a callback adds to, with its times. -/
def Callback.timed : Callback → Option (CStr × Ticks)
  | .make f _ _ _ t                       => some (f.func, t)
  | .attrOpen _ _ _ _ t                   => some (cstr "H5VL_provenance_attr_open", t)
  | .attrAccess .read _ _ _ t             => some (cstr "H5VL_provenance_attr_read", t)
  | .attrAccess .write _ _ _ t            => some (cstr "H5VL_provenance_attr_write", t)
  | .datasetAccess .read _ _ _ _ _ _ t    => some (cstr "H5VL_provenance_dataset_read", t)
  | .datasetAccess .write _ _ _ _ _ _ t   => some (cstr "H5VL_provenance_dataset_write", t)
  | .fileCall .create _ _ _ _ t           => some (cstr "H5VL_provenance_file_create", t)
  | .fileCall .open _ _ _ _ t             => some (cstr "H5VL_provenance_file_open", t)
  | _                                     => none

def Callback.noted (c : Callback) : Option Noted :=
  match c.entry, c.timed with
  | some e, some (func, t) => some ⟨e, func, t⟩
  | _, _                   => none

namespace Load

def noted (l : Load) : List Noted := l.callbacks.filterMap Callback.noted

def session (l : Load) : Session := ⟨l.input, l.noted.flatMap Noted.ops⟩

def overhead (l : Load) : BitVec 64 := (l.noted.map (·.ticks.overhead)).sum

end Load

theorem runSessionOps_bind : ∀ (ops ops' : List SessionOp) (p : Process),
    runSessionOps p (ops ++ ops') = runSessionOps p ops >>= fun q => runSessionOps q ops'
  | [], _, _ => rfl
  | op :: ops, ops', p => by
    rw [List.cons_append, runSessionOps, runSessionOps]
    cases op.run p with
    | error e => rfl
    | ok q => exact runSessionOps_bind ops ops' q

/-! ## What a step does to the process -/

/-- **A step calls the user functions `ops` and adds an overhead.** -/
structure Served (s s' : Conn) (ops : List SessionOp) (x : BitVec 64) : Prop where
  input   : s'.input = s.input
  helper  : s'.PROV_HELPER.isSome = s.PROV_HELPER.isSome
  process : ∃ p, runSessionOps s.process ops = .ok p ∧ s'.process = addOverhead p x

/-- **A step that sets up the helper first.** -/
structure Started (s s' : Conn) (ops : List SessionOp) (x : BitVec 64) : Prop where
  input   : s'.input = s.input
  helper  : s.PROV_HELPER = none ∧ s'.PROV_HELPER.isSome
  process : ∃ p₀ p, provioHelperInit s.process s.input = .ok p₀ ∧ runSessionOps p₀ ops = .ok p ∧
    s'.process = addOverhead p x

section

variable {s s' s'' : Conn} {ops ops' : List SessionOp} {x y : BitVec 64}

theorem Served.of_eq (hinput : s'.input = s.input) (hhelper : s'.PROV_HELPER.isSome = s.PROV_HELPER.isSome)
    (hprocess : s'.process = s.process) : Served s s' [] 0 :=
  ⟨hinput, hhelper, s.process, rfl, by rw [hprocess, addOverhead_zero]⟩

theorem Served.refl (s : Conn) : Served s s [] 0 := .of_eq rfl rfl rfl

theorem runSessionOps_served {p q r : Process} (hp : runSessionOps p ops = .ok q) (hq : runSessionOps (addOverhead q x) ops' = .ok r) :
    ∃ q', runSessionOps p (ops ++ ops') = .ok q' ∧ r = addOverhead q' x := by
  rw [runSessionOps_addOverhead] at hq
  cases hr : runSessionOps q ops' with
  | error e => rw [hr] at hq; cases hq
  | ok q' =>
    rw [hr] at hq
    cases hq
    exact ⟨q', by rw [runSessionOps_bind, hp]; exact hr, rfl⟩

theorem Served.trans (h : Served s s' ops x) (h' : Served s' s'' ops' y) : Served s s'' (ops ++ ops') (x + y) := by
  obtain ⟨p, hp, hs'⟩ := h.process
  obtain ⟨q, hq, hs''⟩ := h'.process
  rw [hs'] at hq
  obtain ⟨q', hq', rfl⟩ := runSessionOps_served hp hq
  exact ⟨h'.input.trans h.input, h'.helper.trans h.helper, q', hq', by rw [hs'', addOverhead_add]⟩

theorem Started.trans (h : Started s s' ops x) (h' : Served s' s'' ops' y) : Started s s'' (ops ++ ops') (x + y) := by
  obtain ⟨p₀, p, hp₀, hp, hs'⟩ := h.process
  obtain ⟨q, hq, hs''⟩ := h'.process
  rw [hs'] at hq
  obtain ⟨q', hq', rfl⟩ := runSessionOps_served hp hq
  exact ⟨h'.input.trans h.input, ⟨h.helper.1, h'.helper.trans h.helper.2⟩, p₀, q', hp₀, hq',
    by rw [hs'', addOverhead_add]⟩

theorem Served.untimed (h : Served s s' ops 0) (h' : Served s' s'' ops' x) : Served s s'' (ops ++ ops') x := by
  simpa using h.trans h'

theorem Served.before (h : Served s s' [] 0) (h' : Served s' s'' ops x) : Served s s'' ops x := by
  simpa using h.trans h'

theorem Served.after (h : Served s s' ops x) (h' : Served s' s'' [] 0) : Served s s'' ops x := by
  simpa using h.trans h'

theorem Started.then (h : Started s s' [] 0) (h' : Served s' s'' ops x) : Started s s'' ops x := by
  simpa using h.trans h'

/-! ### Steps that leave the process alone -/

theorem onHelper_served {α : Type} {f : ProvHelper → Except Fault (ProvHelper × α)} {a : α}
    (hr : s.onHelper f = .ok (s', a)) : Served s s' [] 0 := by
  obtain ⟨_, _, hh, _, rfl⟩ := onHelper_eq_ok.1 hr
  exact .of_eq rfl (by rw [hh]; rfl) rfl

theorem updHelper_served {f : ProvHelper → Except Fault ProvHelper} (hr : s.updHelper f = .ok s') : Served s s' [] 0 := by
  obtain ⟨_, _, hh, _, rfl⟩ := updHelper_eq_ok.1 hr
  exact .of_eq rfl (by rw [hh]; rfl) rfl

theorem onSuccess_served {ret : Bool} {f : ProvHelper → Except Fault ProvHelper} (hr : s.onSuccess ret f = .ok s') :
    Served s s' [] 0 := by
  rcases onSuccess_eq_ok.1 hr with ⟨_, hr⟩ | ⟨_, rfl⟩
  · exact updHelper_served hr
  · exact .refl _

theorem objWrapUnder_served {m : Made} {upper_o : ProvObj} {name : Option CStr} {type : ObjType} {obj : Option ProvObj}
    (hr : objWrapUnder s m upper_o name type = .ok (s', obj)) : Served s s' [] 0 := by
  unfold objWrapUnder at hr
  split at hr
  · cases hr
    exact .refl s
  · obtain ⟨⟨s₁, w⟩, h1, hr⟩ := bind_eq_ok.1 hr
    cases hr
    exact onHelper_served h1

theorem markAttr_served {group : ProvObj} {name : Option CStr} {m : Made} (hr : markAttr s group name m = .ok s') :
    Served s s' [] 0 := by
  obtain ⟨⟨s₁, attr⟩, h1, hr⟩ := bind_eq_ok.1 hr
  cases attr with
  | none => cases hr
  | some attr =>
    cases hr
    exact objWrapUnder_served h1

theorem markFile_served {info : VolInfo} {name : Option CStr} {file : Option ProvObj} {m : Marking}
    (hr : markFile s info name file m = .ok s') : Served s s' [] 0 := by
  unfold markFile at hr
  cases file with
  | none => cases hr
  | some file =>
    obtain ⟨⟨s₁, group⟩, h1, hr⟩ := bind_eq_ok.1 hr
    obtain ⟨_, _, hr⟩ := bind_eq_ok.1 hr
    cases group with
    | none => cases hr
    | some group =>
      obtain ⟨s₂, h2, hr⟩ := bind_eq_ok.1 hr
      obtain ⟨s₃, h3, hr⟩ := bind_eq_ok.1 hr
      exact (objWrapUnder_served h1).before ((markAttr_served h2).before ((markAttr_served h3).before (updHelper_served hr)))

theorem wrapObject_served {a : Addr} {type : ObjType} {m : Made} {obj : Option ProvObj}
    (hr : wrapObject s a type m = .ok (s', obj)) : Served s s' [] 0 := by
  unfold wrapObject at hr
  split at hr
  · cases hr
    exact .refl s
  · obtain ⟨⟨s₁, fake⟩, h1, hr⟩ := bind_eq_ok.1 hr
    obtain ⟨⟨s₂, w⟩, h2, hr⟩ := bind_eq_ok.1 hr
    obtain ⟨s₃, h3, hr⟩ := bind_eq_ok.1 hr
    cases hr
    exact (onHelper_served h1).before ((objWrapUnder_served h2).before (updHelper_served h3))

theorem fileReopen_served {o : ProvObj} {ret : Bool} {under : Option Under} {file : Option ProvObj}
    (hr : fileReopen s o ret under = .ok (s', file)) : Served s s' [] 0 := by
  unfold fileReopen at hr
  split at hr
  · obtain ⟨⟨s₁, w⟩, h1, hr⟩ := bind_eq_ok.1 hr
    cases hr
    exact onHelper_served h1
  · cases hr
    exact .refl _

theorem refreshBegin_served {specific : Specific} {o : ProvObj} {hold : Hold}
    (hr : refreshBegin s specific o = .ok (s', hold)) : Served s s' [] 0 := by
  unfold refreshBegin at hr
  split at hr
  · cases hr
  · obtain ⟨_, _, hr⟩ := bind_eq_ok.1 hr
    exact onHelper_served hr

/-! ### The user functions -/

theorem fill_served {name : Option CStr} {type relation : CStr} (hr : s.fill name type relation = .ok s') :
    ∃ n, name = some n ∧ Served s s' [.fillDataObject n type, .fillRelation relation] 0 := by
  obtain ⟨n, rfl, rfl⟩ := fill_eq_ok.1 hr
  exact ⟨n, rfl, rfl, rfl, _, rfl, by rw [addOverhead_zero]; rfl⟩

theorem record_served {io_api func : CStr} {t : Ticks} (hr : s.record io_api func t = .ok s') :
    Served s s' [.fillIoApi io_api t.duration, .addProvRecord t.uuid t.write_elapsed,
      .funcStat ⟨func, t.stat_elapsed, t.malloced⟩] t.overhead := by
  obtain ⟨s₁, h1, hr⟩ := bind_eq_ok.1 hr
  obtain ⟨q, h2, hr⟩ := bind_eq_ok.1 hr
  obtain ⟨p, h3, h4⟩ := bind_eq_ok.1 h1
  cases h4
  cases hr
  refine ⟨rfl, rfl, q, ?_, rfl⟩
  rw [runSessionOps, show SessionOp.run s.process (.fillIoApi io_api t.duration) =
    .ok (provFillIoApi s.process io_api t.duration) from rfl, ok_bind, runSessionOps]
  rw [show SessionOp.run (provFillIoApi s.process io_api t.duration) (.addProvRecord t.uuid t.write_elapsed) = .ok p from h3,
    ok_bind, runSessionOps, show SessionOp.run p (.funcStat ⟨func, t.stat_elapsed, t.malloced⟩) = .ok q from h2, ok_bind]
  rfl

theorem fillRecord_served {name : Option CStr} {type relation io_api func : CStr} {t : Ticks}
    (hr : (s.fill name type relation >>= fun s => s.record io_api func t) = .ok s') :
    ∃ n, name = some n ∧ Served s s' (Noted.ops ⟨⟨n, type, relation, io_api⟩, func, t⟩) t.overhead := by
  obtain ⟨s₁, h1, h2⟩ := bind_eq_ok.1 hr
  obtain ⟨n, hn, hfill⟩ := fill_served h1
  exact ⟨n, hn, hfill.untimed (record_served h2)⟩

/-! ### Files -/

theorem ensureHelper_started {info : VolInfo} (hnone : s.PROV_HELPER = none) (hr : s.ensureHelper info = .ok s')
    (hsome : s'.PROV_HELPER.isSome) : Started s s' [] 0 := by
  unfold Conn.ensureHelper at hr
  rw [hnone] at hr
  obtain ⟨⟨p, h⟩, h1, hr⟩ := bind_eq_ok.1 hr
  cases hr
  unfold provHelperInit at h1
  split at h1
  · cases h1
    cases hsome
  · obtain ⟨q, hq, h1⟩ := bind_eq_ok.1 h1
    obtain ⟨_, _, h1⟩ := bind_eq_ok.1 h1
    obtain ⟨_, _, h1⟩ := bind_eq_ok.1 h1
    cases h1
    exact ⟨rfl, ⟨hnone, rfl⟩, p, p, hq, rfl, by rw [addOverhead_zero]⟩

theorem wrapFile_served {info : VolInfo} {name : Option CStr} {under : Option Under} {file : Option ProvObj}
    (hr : wrapFile s info name under = .ok (s', file)) : Served s s' [] 0 ∨ Started s s' [] 0 := by
  unfold wrapFile at hr
  split at hr
  · cases hr
    exact .inl (.refl _)
  · obtain ⟨s₁, h1, hr⟩ := bind_eq_ok.1 hr
    obtain ⟨⟨s₂, w⟩, h2, hr⟩ := bind_eq_ok.1 hr
    cases hr
    have hopen := onHelper_served h2
    cases hh : s.PROV_HELPER with
    | some h =>
      unfold Conn.ensureHelper at h1
      rw [hh] at h1
      cases h1
      exact .inl hopen
    | none =>
      obtain ⟨h, _, hsome, _, _⟩ := onHelper_eq_ok.1 h2
      exact .inr ((ensureHelper_started hh h1 (by rw [hsome]; rfl)).then hopen)

theorem fileCall_served {func : CStr} {info : VolInfo} {name : Option CStr} {under : Option Under} {m : Marking} {t : Ticks}
    {file : Option ProvObj} (hr : fileCall func s info name under m t = .ok (s', file)) : ∃ n, name = some n ∧
      (Served s s' (Noted.ops ⟨entryOf .datatype .open n, func, t⟩) t.overhead ∨
        Started s s' (Noted.ops ⟨entryOf .datatype .open n, func, t⟩) t.overhead) := by
  unfold fileCall at hr
  obtain ⟨⟨s₁, w⟩, h1, hr⟩ := bind_eq_ok.1 hr
  obtain ⟨s₂, h2, hr⟩ := bind_eq_ok.1 hr
  obtain ⟨s₃, h3, hr⟩ := bind_eq_ok.1 hr
  obtain ⟨n, hn, hrec⟩ := fillRecord_served (bind_eq_ok.2 ⟨s₂, h2, h3⟩)
  have hmark : Served s₃ s' [] 0 := by
    split at hr
    · obtain ⟨s₄, h4, hr⟩ := bind_eq_ok.1 hr
      cases hr
      exact markFile_served h4
    · cases hr
      exact .refl _
  have hrest := hrec.after hmark
  exact ⟨n, hn, (wrapFile_served h1).imp (·.before hrest) (·.then hrest)⟩

end

/-! ## Callbacks -/

def Callback.ops (c : Callback) : List SessionOp := c.noted.toList.flatMap Noted.ops

def Callback.overhead (c : Callback) : BitVec 64 := (c.noted.toList.map (·.ticks.overhead)).sum

theorem Callback.ops_noted {c : Callback} {n : Noted} (h : c.noted = some n) : c.ops = n.ops := by
  simp [ops, h]

theorem Callback.overhead_noted {c : Callback} {n : Noted} (h : c.noted = some n) : c.overhead = n.ticks.overhead := by
  simp [overhead, h]

theorem Callback.ops_quiet {c : Callback} (h : c.noted = none) : c.ops = [] := by
  simp [ops, h]

theorem Callback.overhead_quiet {c : Callback} (h : c.noted = none) : c.overhead = 0 := by
  simp [overhead, h]

/-- **A callback calls the user functions for its record**, after setting up the helper if it opens the first file. -/
theorem Callback.run_served {s s' : Conn} {app app' : App} {c : Callback} (hr : c.run s app = .ok (s', app')) :
    Served s s' c.ops c.overhead ∨ c.noted.isSome ∧ Started s s' c.ops c.overhead := by
  have quiet : c.noted = none → Served s s' [] 0 →
      Served s s' c.ops c.overhead ∨ c.noted.isSome ∧ Started s s' c.ops c.overhead := by
    intro hn h
    rw [ops_quiet hn, overhead_quiet hn]
    exact .inl h
  have loud : ∀ (n : Noted), c.noted = some n →
      Served s s' n.ops n.ticks.overhead ∨ Started s s' n.ops n.ticks.overhead →
      Served s s' c.ops c.overhead ∨ c.noted.isSome ∧ Started s s' c.ops c.overhead := by
    intro n hn h
    rw [ops_noted hn, overhead_noted hn, hn]
    exact h.imp_right fun h => ⟨rfl, h⟩
  cases c with
  | make f o name m t =>
    obtain ⟨⟨s₀, obj⟩, h1, hr⟩ := bind_eq_ok.1 hr
    cases hr
    rw [f.run_eq] at h1
    obtain ⟨⟨s₁, w⟩, h2, h1⟩ := bind_eq_ok.1 h1
    obtain ⟨s₂, h3, h1⟩ := bind_eq_ok.1 h1
    obtain ⟨s₃, h4, h1⟩ := bind_eq_ok.1 h1
    cases h1
    obtain ⟨n, rfl, hrec⟩ := fillRecord_served (bind_eq_ok.2 ⟨s₂, h3, h4⟩)
    exact loud ⟨entryOf f.cls f.action n, f.func, t⟩ rfl (.inl ((objWrapUnder_served h2).before hrec))
  | attrOpen o name queried m t =>
    obtain ⟨⟨s₀, obj⟩, h1, hr⟩ := bind_eq_ok.1 hr
    cases hr
    obtain ⟨⟨s₁, w⟩, h2, h1⟩ := bind_eq_ok.1 h1
    generalize (if m.under.isSome && name.isNone then queried else none) = attr_name at h1 h2
    cases attr_name with
    | some attr_name => cases h1
    | none =>
      obtain ⟨s₂, h3, h1⟩ := bind_eq_ok.1 h1
      obtain ⟨s₃, h4, h1⟩ := bind_eq_ok.1 h1
      cases h1
      obtain ⟨n, rfl, hrec⟩ := fillRecord_served (bind_eq_ok.2 ⟨s₂, h3, h4⟩)
      exact loud ⟨entryOf .attr .open n, cstr "H5VL_provenance_attr_open", t⟩ rfl
        (.inl ((objWrapUnder_served h2).before hrec))
  | attrAccess x o ret name t =>
    cases x with
    | read =>
      obtain ⟨⟨s₀, _⟩, h1, hr⟩ := bind_eq_ok.1 hr
      cases hr
      obtain ⟨s₂, h2, h1⟩ := bind_eq_ok.1 h1
      obtain ⟨s₃, h3, h1⟩ := bind_eq_ok.1 h1
      cases h1
      obtain ⟨n, rfl, hrec⟩ := fillRecord_served (bind_eq_ok.2 ⟨s₂, h2, h3⟩)
      exact loud ⟨entryOf .attr .read n, cstr "H5VL_provenance_attr_read", t⟩ rfl (.inl hrec)
    | write =>
      obtain ⟨⟨s₀, _⟩, h1, hr⟩ := bind_eq_ok.1 hr
      cases hr
      obtain ⟨s₂, h2, h1⟩ := bind_eq_ok.1 h1
      obtain ⟨s₃, h3, h1⟩ := bind_eq_ok.1 h1
      cases h1
      obtain ⟨n, rfl, hrec⟩ := fillRecord_served (bind_eq_ok.2 ⟨s₂, h2, h3⟩)
      exact loud ⟨entryOf .attr .write n, cstr "H5VL_provenance_attr_write", t⟩ rfl (.inl hrec)
  | datasetAccess x o name stack ret npoints elapsed t =>
    cases x with
    | read =>
      obtain ⟨⟨s₀, _⟩, h1, hr⟩ := bind_eq_ok.1 hr
      cases hr
      obtain ⟨s₁, h2, h1⟩ := bind_eq_ok.1 h1
      obtain ⟨s₂, h3, h1⟩ := bind_eq_ok.1 h1
      obtain ⟨s₃, h4, h1⟩ := bind_eq_ok.1 h1
      cases h1
      obtain ⟨n, hn, hfill⟩ := fill_served h2
      cases hn
      exact loud ⟨entryOf .dataset .read (nameBuffer name stack), cstr "H5VL_provenance_dataset_read", t⟩ rfl
        (.inl ((hfill.after (onSuccess_served h3)).untimed (record_served h4)))
    | write =>
      obtain ⟨⟨s₀, _⟩, h1, hr⟩ := bind_eq_ok.1 hr
      cases hr
      obtain ⟨s₁, h2, h1⟩ := bind_eq_ok.1 h1
      obtain ⟨s₂, h3, h1⟩ := bind_eq_ok.1 h1
      obtain ⟨s₃, h4, h1⟩ := bind_eq_ok.1 h1
      cases h1
      obtain ⟨n, hn, hrec⟩ := fillRecord_served (bind_eq_ok.2 ⟨s₂, h3, h4⟩)
      cases hn
      exact loud ⟨entryOf .dataset .write (nameBuffer name stack), cstr "H5VL_provenance_dataset_write", t⟩ rfl
        (.inl ((onSuccess_served h2).before hrec))
  | fileCall f info name under m t =>
    cases f with
    | create =>
      obtain ⟨⟨s₀, file⟩, h1, hr⟩ := bind_eq_ok.1 hr
      cases hr
      obtain ⟨n, rfl, h⟩ := fileCall_served h1
      exact loud ⟨entryOf .datatype .open n, _, t⟩ rfl h
    | «open» =>
      obtain ⟨⟨s₀, file⟩, h1, hr⟩ := bind_eq_ok.1 hr
      cases hr
      obtain ⟨n, rfl, h⟩ := fileCall_served h1
      exact loud ⟨entryOf .datatype .open n, _, t⟩ rfl h
  | fileReopen o ret under =>
    obtain ⟨⟨s₀, file⟩, h1, hr⟩ := bind_eq_ok.1 hr
    cases hr
    exact quiet rfl (fileReopen_served h1)
  | fileClose o ret =>
    obtain ⟨⟨s₀, _⟩, h1, hr⟩ := bind_eq_ok.1 hr
    obtain ⟨s₁, h2, h1⟩ := bind_eq_ok.1 h1
    cases h1
    cases hr
    exact quiet rfl (onSuccess_served h2)
  | close k cmp o ret =>
    obtain ⟨⟨s₀, _⟩, h1, hr⟩ := bind_eq_ok.1 hr
    rw [closeOf_eq] at h1
    obtain ⟨s₁, h2, h1⟩ := bind_eq_ok.1 h1
    cases h1
    cases hr
    exact quiet rfl (onSuccess_served h2)
  | objectOpen o obj_name type m =>
    obtain ⟨⟨s₀, obj⟩, h1, hr⟩ := bind_eq_ok.1 hr
    cases hr
    exact quiet rfl (objWrapUnder_served h1)
  | getWrapCtx o =>
    obtain ⟨⟨s₀, a⟩, h1, hr⟩ := bind_eq_ok.1 hr
    cases hr
    exact quiet rfl (onHelper_served h1)
  | wrapObject a type m =>
    obtain ⟨⟨s₀, obj⟩, h1, hr⟩ := bind_eq_ok.1 hr
    cases hr
    exact quiet rfl (wrapObject_served h1)
  | unwrapObject cmp o under =>
    obtain ⟨⟨s₀, _⟩, h1, hr⟩ := bind_eq_ok.1 hr
    obtain ⟨s₁, h2, h1⟩ := bind_eq_ok.1 h1
    cases h1
    cases hr
    exact quiet rfl (onSuccess_served h2)
  | freeWrapCtx a =>
    obtain ⟨s₀, h1, hr⟩ := bind_eq_ok.1 hr
    cases hr
    exact quiet rfl (updHelper_served h1)
  | setExtent o ret new_size =>
    obtain ⟨s₀, h1, hr⟩ := bind_eq_ok.1 hr
    cases hr
    exact quiet rfl (onSuccess_served h1)
  | refreshBegin specific o =>
    obtain ⟨⟨s₀, hold⟩, h1, hr⟩ := bind_eq_ok.1 hr
    cases hr
    exact quiet rfl (refreshBegin_served h1)
  | refreshEnd cmp hold ret extent =>
    obtain ⟨s₀, h1, hr⟩ := bind_eq_ok.1 hr
    cases hr
    exact quiet rfl (updHelper_served h1)
  | forward =>
    cases hr
    exact quiet rfl (.refl s)

/-! ## Loads -/

theorem step_served {w w' : World} {c : Callback} (hr : c.step w = .ok w') :
    Served w.conn w'.conn c.ops c.overhead ∨ c.noted.isSome ∧ Started w.conn w'.conn c.ops c.overhead := by
  obtain ⟨⟨s, app⟩, h1, hr⟩ := bind_eq_ok.1 hr
  cases hr
  exact Callback.run_served h1

def opsOf (cs : List Callback) : List SessionOp := cs.flatMap Callback.ops

def overheadOf (cs : List Callback) : BitVec 64 := (cs.map Callback.overhead).sum

theorem runCallbacks_served : ∀ (cs : List Callback) {w w' : World}, w.conn.PROV_HELPER.isSome →
    runCallbacks cs w = .ok w' → Served w.conn w'.conn (opsOf cs) (overheadOf cs)
  | [], w, w', _, hr => by
    cases hr
    exact .refl _
  | c :: cs, w, w', hh, hr => by
    obtain ⟨w₁, h1, hr⟩ := bind_eq_ok.1 hr
    rcases step_served h1 with h | ⟨-, h⟩
    · exact h.trans (runCallbacks_served cs (by rw [h.helper]; exact hh) hr)
    · rw [h.helper.1] at hh
      cases hh

theorem Noted.helper_of_ok {n : Noted} {p q : Process} (hr : runSessionOps p n.ops = .ok q) : p.helper ≠ none := by
  intro hnone
  simp only [Noted.ops, Record.ops, List.cons_append, List.nil_append, runSessionOps, SessionOp.run, provFillDataObject,
    strcpy, ok_bind, pure, Except.pure] at hr
  have hfail : ∀ (p : Process) (uuid : CStr) (elapsed : BitVec 64), p.helper = none →
      addProvRecord p uuid elapsed = .error .assert := by
    intro p uuid elapsed h
    unfold addProvRecord
    rw [h]
  rw [hfail] at hr
  · cases hr
  · exact hnone

theorem Noted.helper_of_all {ns : List Noted} (hne : ns ≠ []) {p q : Process}
    (hr : runSessionOps p (ns.flatMap Noted.ops) = .ok q) : p.helper ≠ none := by
  obtain ⟨n, ns, rfl⟩ := List.exists_cons_of_ne_nil hne
  rw [List.flatMap_cons, runSessionOps_bind] at hr
  obtain ⟨q, hq, -⟩ := bind_eq_ok.1 hr
  exact Noted.helper_of_ok hq

theorem quiet_of_no_helper {c : Callback} {p q : Process} (hnone : p.helper = none)
    (hr : runSessionOps p c.ops = .ok q) : c.noted = none := by
  cases hn : c.noted with
  | none => rfl
  | some n =>
    rw [Callback.ops_noted hn] at hr
    exact absurd hnone (Noted.helper_of_ok hr)

/-- **A run from a fresh load**: nothing is recorded and the process stays as it is, or the helper is set up and then the
user functions are called. -/
theorem runCallbacks_started : ∀ (cs : List Callback) {w w' : World}, w.conn.PROV_HELPER = none →
    w.conn.process.helper = none → runCallbacks cs w = .ok w' →
    (cs.filterMap Callback.noted = [] ∧ w'.conn.PROV_HELPER = none ∧ w'.conn.process = w.conn.process) ∨
      (cs.filterMap Callback.noted ≠ [] ∧ Started w.conn w'.conn (opsOf cs) (overheadOf cs))
  | [], w, w', hh, _, hr => by
    cases hr
    exact .inl ⟨rfl, hh, rfl⟩
  | c :: cs, w, w', hh, hp, hr => by
    obtain ⟨w₁, h1, hr⟩ := bind_eq_ok.1 hr
    rw [List.filterMap_cons]
    rcases step_served h1 with h | ⟨hn, h⟩
    · obtain ⟨p, hrun, hproc⟩ := h.process
      have hn := quiet_of_no_helper hp hrun
      rw [Callback.ops_quiet hn] at hrun
      cases hrun
      rw [Callback.overhead_quiet hn, addOverhead_zero] at hproc
      have hh₁ : w₁.conn.PROV_HELPER = none := by
        have hsome := h.helper
        rw [hh] at hsome
        exact Option.isNone_iff_eq_none.1 (by simpa using hsome)
      rcases runCallbacks_started cs hh₁ (by rw [hproc]; exact hp) hr with ⟨h2, h3, h4⟩ | ⟨hne, h2⟩
      · exact .inl ⟨by rw [hn]; exact h2, h3, h4.trans hproc⟩
      · refine .inr ⟨by rw [hn]; exact hne, h2.input.trans h.input, ⟨hh, h2.helper.2⟩, ?_⟩
        obtain ⟨p₀, q, hp₀, hq, hw⟩ := h2.process
        rw [hproc, h.input] at hp₀
        refine ⟨p₀, q, hp₀, ?_, ?_⟩
        · rw [opsOf, List.flatMap_cons, Callback.ops_quiet hn]
          exact hq
        · rw [hw, overheadOf, overheadOf, List.map_cons, List.sum_cons, Callback.overhead_quiet hn, zero_add]
    · obtain ⟨n, hn⟩ := Option.isSome_iff_exists.1 hn
      exact .inr ⟨by rw [hn]; exact List.cons_ne_nil _ _, h.trans (runCallbacks_served cs h.helper.2 hr)⟩

theorem opsOf_eq (cs : List Callback) : opsOf cs = (cs.filterMap Callback.noted).flatMap Noted.ops := by
  induction cs with
  | nil => rfl
  | cons c cs ih =>
    rw [opsOf, List.flatMap_cons, ← opsOf, ih, List.filterMap_cons]
    cases hn : c.noted with
    | none => rw [Callback.ops_quiet hn]; rfl
    | some n => rw [Callback.ops_noted hn]; rfl

theorem overheadOf_eq (cs : List Callback) :
    overheadOf cs = ((cs.filterMap Callback.noted).map (·.ticks.overhead)).sum := by
  induction cs with
  | nil => rfl
  | cons c cs ih =>
    rw [overheadOf, List.map_cons, List.sum_cons, ← overheadOf, ih, List.filterMap_cons]
    cases hn : c.noted with
    | none => rw [Callback.overhead_quiet hn, zero_add]
    | some n => rw [Callback.overhead_noted hn, List.map_cons, List.sum_cons]

namespace Load

/-- **How a load that records anything goes**: the helper is set up, the user functions are called, and the teardown prints
what they have made, with the connector's overhead in the totals. -/
structure Recorded (l : Load) (p : Process) (w : World) (q : Process) (out : SessionOutput) (p₀ p₁ r : Process)
    (o : SessionOutput) : Prop where
  init     : provioHelperInit (provioInit p l.input) l.input = .ok p₀
  ops      : runSessionOps p₀ l.session.ops = .ok p₁
  helper   : p₁.helper = some l.input.helper
  down     : provioHelperTeardown p₁ l.input = .ok (r, o)
  process  : w.conn.process = addOverhead p₁ l.overhead
  teardown : provHelperTeardown w.conn = .ok (addOverhead r l.overhead, out)
  output   : out = o.addOverhead l.overhead
  term     : q = addOverhead (provioTerm r) l.overhead

/-- **A load, by its callbacks**: nothing is recorded, and there is nothing to tear down, or it goes as above. -/
theorem run_started {l : Load} {p q : Process} {out : SessionOutput} (hp : p.helper = none) (hr : l.run p = .ok (q, out)) :
    ∃ w, runCallbacks l.callbacks ⟨.init p l.input, .init, []⟩ = .ok w ∧ w.conn.term = .ok (q, out) ∧
      ((l.noted = [] ∧ w.conn.PROV_HELPER = none ∧ w.conn.process = provioInit p l.input ∧
          q = provioTerm (provioInit p l.input) ∧ out = .none) ∨
        (l.noted ≠ [] ∧ ∃ p₀ p₁ r o, l.Recorded p w q out p₀ p₁ r o)) := by
  obtain ⟨w, hcs, hr⟩ := bind_eq_ok.1 hr
  refine ⟨w, hcs, hr, ?_⟩
  rcases runCallbacks_started l.callbacks rfl hp hcs with ⟨hn, hh, hproc⟩ | ⟨hne, h⟩
  · unfold Conn.term provHelperTeardown at hr
    rw [hh] at hr
    cases hr
    exact .inl ⟨hn, hh, hproc, by rw [hproc]; rfl, rfl⟩
  · obtain ⟨p₀, p₁, hinit, hops, hproc⟩ := h.process
    rw [opsOf_eq] at hops
    replace hproc : w.conn.process = addOverhead p₁ l.overhead := hproc.trans (by rw [overheadOf_eq]; rfl)
    obtain ⟨h₀, hh₀⟩ := Option.isSome_iff_exists.1 h.helper.2
    have hhelper : p₁.helper = some l.input.helper := by
      have ho := ((provioHelperInit_ok hinit).resolve_left (Noted.helper_of_all hne hops)).1
      exact ((runSessionOps_ran _ ho hops).opened ho).opened
    obtain ⟨⟨q', out'⟩, hdown, hr⟩ := bind_eq_ok.1 hr
    cases hr
    have hteardown := hdown
    unfold provHelperTeardown at hdown
    rw [hh₀, hproc, show w.conn.input = l.input from h.input,
      show (addOverhead p₁ l.overhead).helper = p₁.helper from rfl, hhelper] at hdown
    dsimp only at hdown
    rw [provioHelperTeardown_addOverhead] at hdown
    cases hd : provioHelperTeardown p₁ l.input with
    | error e =>
      rw [hd] at hdown
      cases hdown
    | ok r =>
      rw [hd] at hdown
      cases hdown
      exact .inr ⟨hne, p₀, p₁, r.1, r.2, hinit, hops, hhelper, hd, hproc, hteardown, rfl, rfl⟩

/-- **A load that records nothing hands out nothing; any other is its session, with the connector's overhead added to the
totals.** -/
theorem run_cases {l : Load} {p q : Process} {out : SessionOutput} (hp : p.helper = none)
    (hr : l.run p = .ok (q, out)) :
    (l.noted = [] ∧ q = provioTerm (provioInit p l.input) ∧ out = .none) ∨
    (l.noted ≠ [] ∧ ∃ q' out', l.session.run p = .ok (q', out') ∧ q = addOverhead q' l.overhead ∧
      out = out'.addOverhead l.overhead) := by
  obtain ⟨w, -, -, ⟨hn, -, -, hq, hout⟩ | ⟨hne, p₀, p₁, r, o, h⟩⟩ := run_started hp hr
  · exact .inl ⟨hn, hq, hout⟩
  · refine .inr ⟨hne, provioTerm r, o, ?_, h.term, h.output⟩
    exact bind_eq_ok.2 ⟨p₀, h.init, bind_eq_ok.2 ⟨p₁, h.ops, bind_eq_ok.2 ⟨(r, o), h.down, rfl⟩⟩⟩

def recording (l : Load) : Bool := !l.noted.isEmpty

end Load

/-! ## Runs of loads -/

def runLoads : Process → List Load → Except Fault Process
  | p, []      => .ok p
  | p, l :: ls => l.run p >>= fun r => runLoads r.1 ls

def sessionsOf (ls : List Load) : List Session := (ls.filter Load.recording).map Load.session

def overheads (ls : List Load) : BitVec 64 := ((ls.filter Load.recording).map Load.overhead).sum

/-- **Two processes that the next session cannot tell apart**, but for an overhead. -/
structure Alike (p p' : Process) (x : BitVec 64) : Prop where
  user      : p.USER_TRACKED = p'.USER_TRACKED
  mpi_rank  : p.MPI_RANK_TRACKED = p'.MPI_RANK_TRACKED
  program   : p.PROC_NAME_TRACKED = p'.PROC_NAME_TRACKED
  prov_stat : p.prov_stat = (addOverhead p' x).prov_stat

section

variable {p p' q : Process} {x : BitVec 64}

theorem Alike.helperInit (h : Alike p p' x) {inp : SessionInput}
    (hr : provioHelperInit (provioInit p inp) inp = .ok q) (hq : q.helper ≠ none) :
    ∃ q', provioHelperInit (provioInit p' inp) inp = .ok q' ∧ q = addOverhead q' x := by
  unfold provioHelperInit provioInit at hr ⊢
  dsimp only at hr ⊢
  obtain ⟨u, hcheck, hr⟩ := bind_eq_ok.1 hr
  rw [hcheck, ok_bind]
  split at hr
  · cases hr
    exact absurd rfl hq
  · rename_i hpaths
    rw [if_neg hpaths]
    obtain ⟨rdf, hrdf, hr⟩ := bind_eq_ok.1 hr
    cases hr
    rw [hrdf]
    refine ⟨_, rfl, ?_⟩
    simp only [Provio.addOverhead, h.user, h.mpi_rank, h.program, h.prov_stat]

theorem Alike.session (h : Alike p p' x) {s : Session} {out : SessionOutput} (hr : s.run p = .ok (q, out)) :
    ∃ q' out', s.run p' = .ok (q', out') ∧ q = addOverhead q' x ∧ out = out'.addOverhead x := by
  obtain ⟨p₁, hinit, hr⟩ := bind_eq_ok.1 hr
  obtain ⟨p₂, hops, hr⟩ := bind_eq_ok.1 hr
  obtain ⟨⟨p₃, o⟩, hdown, hr⟩ := bind_eq_ok.1 hr
  cases hr
  have hne : p₁.helper ≠ none := by
    intro hnone
    have hnone' := runSessionOps_no_helper s.ops hnone hops
    unfold provioHelperTeardown addProgramRecord at hdown
    simp only [addProgramRecordRedland_eq, hnone'] at hdown
    cases hdown
  obtain ⟨p₁', hinit', rfl⟩ := h.helperInit hinit hne
  rw [runSessionOps_addOverhead] at hops
  cases hops' : runSessionOps p₁' s.ops with
  | error e => rw [hops'] at hops; cases hops
  | ok p₂' =>
    rw [hops'] at hops
    cases hops
    rw [provioHelperTeardown_addOverhead] at hdown
    cases hdown' : provioHelperTeardown p₂' s.input with
    | error e => rw [hdown'] at hdown; cases hdown
    | ok r =>
      rw [hdown'] at hdown
      cases hdown
      refine ⟨provioTerm r.1, r.2, ?_, rfl, rfl⟩
      unfold Session.run
      rw [hinit', ok_bind, hops', ok_bind, hdown']
      rfl

theorem Alike.mapped (p : Process) (x : BitVec 64) : Alike (addOverhead p x) p x := ⟨rfl, rfl, rfl, rfl⟩

theorem Alike.refl (p : Process) : Alike p p 0 := by
  refine ⟨rfl, rfl, rfl, ?_⟩
  rw [addOverhead_zero]

theorem Alike.more (h : Alike p p' x) (y : BitVec 64) : Alike (addOverhead p y) p' (x + y) := by
  refine ⟨h.user, h.mpi_rank, h.program, ?_⟩
  rw [← addOverhead_add]
  unfold addOverhead
  rw [h.prov_stat]
  rfl

theorem provioHelperTeardown_helper {inp : SessionInput} {out : SessionOutput}
    (hr : provioHelperTeardown p inp = .ok (q, out)) : q.helper = none := by
  unfold provioHelperTeardown at hr
  dsimp only at hr
  split at hr
  · cases hr
  · obtain ⟨_, _, hr⟩ := bind_eq_ok.1 hr
    obtain ⟨_, _, hr⟩ := bind_eq_ok.1 hr
    cases hr
    rfl

theorem Session.run_helper {s : Session} {out : SessionOutput} (hr : s.run p = .ok (q, out)) : q.helper = none := by
  obtain ⟨p₁, -, hr⟩ := bind_eq_ok.1 hr
  obtain ⟨p₂, -, hr⟩ := bind_eq_ok.1 hr
  obtain ⟨⟨p₃, o⟩, hdown, hr⟩ := bind_eq_ok.1 hr
  cases hr
  exact (provioHelperTeardown_helper hdown : p₃.helper = none)

theorem Alike.load (h : Alike p p' x) (hp : p.helper = none) {l : Load} {out : SessionOutput}
    (hr : l.run p = .ok (q, out)) : q.helper = none ∧
    ((l.recording = false ∧ Alike q p' x ∧ out = .none) ∨
     (l.recording = true ∧ ∃ q' out', l.session.run p' = .ok (q', out') ∧ Alike q q' (x + l.overhead) ∧
      out = out'.addOverhead (x + l.overhead))) := by
  rcases Load.run_cases hp hr with ⟨hnone, rfl, rfl⟩ | ⟨hne, r, o, hsession, rfl, rfl⟩
  · exact ⟨hp, .inl ⟨by simp [Load.recording, hnone], ⟨h.user, h.mpi_rank, h.program, h.prov_stat⟩, rfl⟩⟩
  · obtain ⟨q', out', hrun, rfl, rfl⟩ := h.session hsession
    have hnone : q'.helper = none := Session.run_helper (q := Provio.addOverhead q' x) hsession
    refine ⟨hnone, .inr ⟨by simpa [Load.recording] using hne, q', out', hrun, ?_, ?_⟩⟩
    · exact (Alike.mapped q' x).more l.overhead
    · rw [SessionOutput.addOverhead_add]

theorem sessionsOf_cons (l : Load) (ls : List Load) :
    sessionsOf (l :: ls) = if l.recording then l.session :: sessionsOf ls else sessionsOf ls := by
  unfold sessionsOf
  cases h : l.recording <;> simp [h]

theorem overheads_cons (l : Load) (ls : List Load) :
    overheads (l :: ls) = if l.recording then l.overhead + overheads ls else overheads ls := by
  unfold overheads
  cases h : l.recording <;> simp [h]

/-- **A run of loads is the run of their sessions**, with the overheads on top. -/
theorem Alike.loads : ∀ (ls : List Load) {p p' q : Process} {x : BitVec 64}, Alike p p' x → p.helper = none →
    runLoads p ls = .ok q → q.helper = none ∧ ∃ q', runSessions p' (sessionsOf ls) = .ok q' ∧ Alike q q' (x + overheads ls)
  | [], p, p', q, x, h, hp, hr => by
    cases hr
    refine ⟨hp, p', rfl, ?_⟩
    rw [show overheads [] = 0 from rfl, add_zero]
    exact h
  | l :: ls, p, p', q, x, h, hp, hr => by
    obtain ⟨⟨p₁, out⟩, hl, hr⟩ := bind_eq_ok.1 hr
    rw [sessionsOf_cons, overheads_cons]
    obtain ⟨hp₁, ⟨hrec, h₁, -⟩ | ⟨hrec, p₁', out', hrun, h₁, -⟩⟩ := h.load hp hl
    · rw [hrec]
      exact Alike.loads ls h₁ hp₁ hr
    · rw [hrec, if_pos rfl, if_pos rfl, runSessions, hrun, ← BitVec.add_assoc]
      exact Alike.loads ls h₁ hp₁ hr

end

/-- **The connector refines `provio.c`**: after any loads, the next one hands out what its session does after their
sessions, with the overheads so far on top, and nothing if it records nothing. -/
theorem runLoads_session {ls : List Load} {l : Load} {p q : Process} {out : SessionOutput}
    (hls : runLoads .start ls = .ok p) (hl : l.run p = .ok (q, out)) :
    if l.recording then ∃ p' q' out', runSessions .start (sessionsOf ls) = .ok p' ∧ l.session.run p' = .ok (q', out') ∧
      out = out'.addOverhead (overheads ls + l.overhead)
    else out = .none := by
  obtain ⟨hp, p', hrun, h⟩ := Alike.loads ls (.refl .start) rfl hls
  rw [zero_add] at h
  obtain ⟨-, ⟨hrec, -, hout⟩ | ⟨hrec, q', out', hs, -, hout⟩⟩ := h.load hp hl
  · rw [hrec]
    exact hout
  · rw [hrec]
    exact ⟨p', q', out', hrun, hs, hout⟩

/-- Rank 0 creates a file and a dataset in it. -/
def datasetLoad : Load := ⟨rankZeroInput, [createMarked, createDataset (cstr "d") (some (objUnder 7))]⟩

theorem datasetLoad_twice : ∃ p q out, runLoads .start [datasetLoad] = .ok p ∧ datasetLoad.run p = .ok (q, out) := by
  obtain ⟨p, hp⟩ : ∃ p, runLoads .start [datasetLoad] = .ok p := ⟨_, rfl⟩
  obtain ⟨q, out, hq⟩ : ∃ q out, datasetLoad.run p = .ok (q, out) := by
    cases hp
    exact ⟨_, _, rfl⟩
  exact ⟨p, q, out, hp, hq⟩

theorem runLoads_session_again : ∃ p q out, runLoads .start [datasetLoad] = .ok p ∧ datasetLoad.run p = .ok (q, out) ∧
    ∃ p' q' out', runSessions .start (sessionsOf [datasetLoad]) = .ok p' ∧ datasetLoad.session.run p' = .ok (q', out') ∧
      out = out'.addOverhead (overheads [datasetLoad] + datasetLoad.overhead) := by
  obtain ⟨p, q, out, hp, hq⟩ := datasetLoad_twice
  exact ⟨p, q, out, hp, hq, runLoads_session hp hq⟩

end Provio
