import Provio.Capacities
import Provio.Openings
import Provio.Ownership
import Provio.Returns
/-!
# Progress — the connector stops no program that keeps the rules

A callback can fail in many ways: an assertion of the tracker, a freed node, a NULL name or handle, a full table.  None of
them happens to an application that passes what it holds and names what it opens, while the underlying connector numbers
its files and the configuration can be served (`Rules`).  Then every callback returns (`Callback.progress`), and so does
every load of a process, with the teardown at its end (`runLoads_progress`) and what `provio_term` frees, as long as no load
that makes no statement follows one that made some (`runVisits_progress`).
-/
namespace Provio

section

variable {s : Conn} {app : App} {e : Ledger} {n : Nat}

/-! ## Callbacks that make, read and write -/

/-- It returns, and the connector can go on. -/
def Returns {α : Type} (x : Except Fault (Conn × α)) : Prop :=
  ∃ s' a, x = .ok (s', a) ∧ Running s' ∧ FilesNumbered s'.tracker

theorem Returns.map {α β : Type} {x : Except Fault (Conn × α)} (hx : Returns x) (f : Conn → α → β) :
    Returns (x >>= fun r => pure (r.1, f r.1 r.2)) := by
  obtain ⟨s', a, rfl, h⟩ := hx
  exact ⟨s', f s' a, rfl, h⟩

/-- What `_obj_wrap_under` is given when it wraps a file: its number. -/
def Made.Numbers (m : Made) (type : ObjType) : Prop :=
  type = .file → ∀ u, m.under = some u → u.file_no.getD m.stack_no ≠ 0

theorem objWrapUnder_returns (hs : Running s) (ht : Tracked s.tracker app e n) (hn : FilesNumbered s.tracker) {m : Made}
    {o : ProvObj} (name : Option CStr) {type : ObjType} {a : Addr} (ha : a ∈ s.tracker.opened_files)
    (hup : fileInfoOf s.tracker o = .ok a) (hm : m.At Homed s.tracker (fileInfoOf s.tracker o) type)
    (hno : m.Numbers type) : ∃ s' obj, objWrapUnder s m o name type = .ok (s', obj) ∧ Running s' ∧
      FilesNumbered s'.tracker ∧ s'.process = s.process ∧ obj.isSome = m.under.isSome := by
  unfold objWrapUnder
  cases hu : m.under with
  | none => exact ⟨s, none, rfl, hs, hn, rfl, rfl⟩
  | some u =>
    obtain ⟨h', w, hr, hn'⟩ := wrapUnder_returns ht hn hm.1 ha hup name (hm.2 u a hu hup) fun htype => hno htype u hu
    obtain ⟨s', hs', hrun, hsame, hproc⟩ := hs.onHelper (f := fun h => wrapUnder h m u o name type) hr
    refine ⟨s', some w, ?_, hrun, by rw [hsame]; exact hn', hproc, rfl⟩
    dsimp only
    rw [hs']
    rfl

theorem makeObject_returns (hs : Running s) (ht : Tracked s.tracker app e n) (hn : FilesNumbered s.tracker) {k : ObjClass}
    {type relation io_api func : CStr} (hfunc : func ∈ recorders) {o : ProvObj} (ho : o ∈ app.handles) {name : Option CStr}
    (hname : name ≠ none) {m : Made} (hm : m.At Homed s.tracker (fileInfoOf s.tracker o) (.obj k)) (t : Ticks) :
    Returns (makeObject k type relation io_api func s o name m t) := by
  obtain ⟨nm, rfl⟩ := Option.ne_none_iff_exists'.1 hname
  obtain ⟨a, hup, ha⟩ := ht.fileInfoOf_returns ho
  obtain ⟨s₁, obj, h₁, hs₁, hn₁, -, -⟩ := objWrapUnder_returns hs ht hn (some nm) ha hup hm fun htype => by cases htype
  obtain ⟨s₂, h₂, hp₂⟩ := hs₁.fill nm type relation
  obtain ⟨s₃, h₃, hp₃⟩ := hp₂.running.record io_api hfunc t
  refine ⟨s₃, obj, ?_, hp₃.running, by rw [hp₃.tracker, hp₂.tracker]; exact hn₁⟩
  unfold makeObject
  rw [h₁, ok_bind]
  dsimp only
  rw [h₂, ok_bind, h₃]
  rfl

theorem attrOpen_returns (hs : Running s) (ht : Tracked s.tracker app e n) (hn : FilesNumbered s.tracker) {o : ProvObj}
    (ho : o ∈ app.handles) {name queried : Option CStr} (hname : name ≠ none) {m : Made}
    (hm : m.At Homed s.tracker (fileInfoOf s.tracker o) (.obj .attr)) (t : Ticks) :
    Returns (attrOpen s o name queried m t) := by
  obtain ⟨nm, rfl⟩ := Option.ne_none_iff_exists'.1 hname
  obtain ⟨a, hup, ha⟩ := ht.fileInfoOf_returns ho
  obtain ⟨s₁, obj, h₁, hs₁, hn₁, -, -⟩ := objWrapUnder_returns hs ht hn (some nm) ha hup hm fun htype => by cases htype
  obtain ⟨s₂, h₂, hp₂⟩ := hs₁.fill nm (cstr "provio:Attr") (cstr "provio:wasOpenedBy")
  obtain ⟨s₃, h₃, hp₃⟩ := hp₂.running.record (cstr "H5Aopen")
    (show cstr "H5VL_provenance_attr_open" ∈ recorders by decide) t
  refine ⟨s₃, obj, ?_, hp₃.running, by rw [hp₃.tracker, hp₂.tracker]; exact hn₁⟩
  have hnone : (if m.under.isSome && (some nm).isNone then queried else none) = none := by simp
  unfold attrOpen
  dsimp only
  rw [hnone, show (some nm).or none = some nm from rfl, h₁, ok_bind]
  dsimp only
  rw [Option.isSome_none, if_neg Bool.false_ne_true, h₂, ok_bind, h₃]
  rfl

theorem attrAccess_returns (hs : Running s) (hn : FilesNumbered s.tracker) {relation io_api func : CStr}
    (hfunc : func ∈ recorders) (ret : Bool) {name : Option CStr} (hname : name ≠ none) (t : Ticks) :
    Returns (attrAccess relation io_api func s ret name t) := by
  obtain ⟨nm, rfl⟩ := Option.ne_none_iff_exists'.1 hname
  obtain ⟨s₂, h₂, hp₂⟩ := hs.fill nm (cstr "provio:Attr") relation
  obtain ⟨s₃, h₃, hp₃⟩ := hp₂.running.record io_api hfunc t
  refine ⟨s₃, ret, ?_, hp₃.running, by rw [hp₃.tracker, hp₂.tracker]; exact hn⟩
  unfold attrAccess
  rw [h₂, ok_bind, h₃]
  rfl

theorem countXfer_returns (hs : Running s) (ht : Tracked s.tracker app e n) (hn : FilesNumbered s.tracker) {o : ProvObj}
    (ho : o ∈ app.handles) (htype : o.my_type = .obj .dataset) (ret : Bool) (npoints : Option (BitVec 64))
    (elapsed : BitVec 64) (x : Xfer) :
    ∃ s', s.countXfer o ret npoints elapsed x = .ok s' ∧ Running s' ∧ FilesNumbered s'.tracker :=
  hs.onSuccess hn ret fun _ => updateDs_returns hn ht.consistent (mem_live_objs ho (by simp [htype])) _

theorem datasetRead_returns (hs : Running s) (ht : Tracked s.tracker app e n) (hn : FilesNumbered s.tracker) {o : ProvObj}
    (ho : o ∈ app.handles) (htype : o.my_type = .obj .dataset) (name : Option CStr) (stack : CStr) (ret : Bool)
    (npoints : Option (BitVec 64)) (elapsed : BitVec 64) (t : Ticks) :
    Returns (datasetRead s o name stack ret npoints elapsed t) := by
  obtain ⟨s₁, h₁, hp₁⟩ := hs.fill (nameBuffer name stack) (cstr "provio:Dataset") (cstr "provio:wasReadBy")
  rw [← hp₁.tracker] at ht hn
  obtain ⟨s₂, h₂, hs₂, hn₂⟩ := countXfer_returns hp₁.running ht hn ho htype ret npoints elapsed .read
  obtain ⟨s₃, h₃, hp₃⟩ := hs₂.record (cstr "H5Dread") (show cstr "H5VL_provenance_dataset_read" ∈ recorders by decide) t
  refine ⟨s₃, ret, ?_, hp₃.running, by rw [hp₃.tracker]; exact hn₂⟩
  unfold datasetRead
  rw [h₁, ok_bind, h₂, ok_bind, h₃]
  rfl

theorem datasetWrite_returns (hs : Running s) (ht : Tracked s.tracker app e n) (hn : FilesNumbered s.tracker) {o : ProvObj}
    (ho : o ∈ app.handles) (htype : o.my_type = .obj .dataset) (name : Option CStr) (stack : CStr) (ret : Bool)
    (npoints : Option (BitVec 64)) (elapsed : BitVec 64) (t : Ticks) :
    Returns (datasetWrite s o name stack ret npoints elapsed t) := by
  obtain ⟨s₁, h₁, hs₁, hn₁⟩ := countXfer_returns hs ht hn ho htype ret npoints elapsed .write
  obtain ⟨s₂, h₂, hp₂⟩ := hs₁.fill (nameBuffer name stack) (cstr "provio:Dataset") (cstr "provio:wasWrittenBy")
  obtain ⟨s₃, h₃, hp₃⟩ := hp₂.running.record (cstr "H5Dwrite")
    (show cstr "H5VL_provenance_dataset_write" ∈ recorders by decide) t
  refine ⟨s₃, ret, ?_, hp₃.running, by rw [hp₃.tracker, hp₂.tracker]; exact hn₁⟩
  unfold datasetWrite
  rw [h₁, ok_bind, h₂, ok_bind, h₃]
  rfl

/-! ## Files -/

/-- Nothing has been opened since `provio_init`. -/
structure Fresh (s : Conn) : Prop where
  helper : s.PROV_HELPER = none
  serves : Serves s.input.config
  init   : ∃ p, s.process = provioInit p s.input

/-- What the file access property list must hold. -/
def VolInfo.Full (info : VolInfo) : Prop := info.prov_file_path ≠ none ∧ info.prov_line_format ≠ none

theorem ensureHelper_returns (hs : Running s ∨ Fresh s) {info : VolInfo} (hinfo : info.Full) :
    ∃ s', s.ensureHelper info = .ok s' ∧ Passes s s' := by
  unfold Conn.ensureHelper
  rcases hs with hs | ⟨hnone, hserves, p, hp⟩
  · obtain ⟨h, hh⟩ := Option.ne_none_iff_exists'.1 hs.helper
    rw [hh]
    exact ⟨s, rfl, hs, rfl, rfl⟩
  · obtain ⟨path, hpath⟩ := Option.ne_none_iff_exists'.1 hinfo.1
    obtain ⟨format, hformat⟩ := Option.ne_none_iff_exists'.1 hinfo.2
    obtain ⟨q, hq, hready, hrank⟩ := provioHelperInit_ready p hserves
    rw [← hp] at hq
    have hinit : provHelperInit s.process s.input info = .ok (q, some .init) := by
      unfold provHelperInit
      rw [if_neg (by simp [hpath]), hq, ok_bind, hpath, hformat]
      rfl
    rw [hnone]
    dsimp only
    rw [hinit, ok_bind]
    refine ⟨_, rfl, ⟨Option.some_ne_none _, hready⟩, ?_, ?_⟩
    · simp [Conn.tracker, hnone]
    · rw [hp]
      exact hrank

theorem fileOpenCommon_returns {h : ProvHelper} (ht : Tracked h app e n) (hn : FilesNumbered h) {u : Under}
    (name : Option CStr) (hno : u.file_no.getD 0 ≠ 0) :
    ∃ h' w, fileOpenCommon h u name = .ok (h', w) ∧ FilesNumbered h' := by
  obtain ⟨h', a, hr, hn'⟩ := addFileNode_returns (h := provenanceNewObj h) hn ht.consistent.newObj name hno
  refine ⟨h', ⟨some u, .file, a⟩, ?_, hn'⟩
  unfold fileOpenCommon
  rw [hr]
  rfl

theorem markAttr_returns (hs : Running s) (ht : Tracked s.tracker app e n) (hn : FilesNumbered s.tracker) {group : ProvObj}
    (hg : group ∈ app.handles) (name : Option CStr) {m : Made} (hdec : m.cmp.Decides) (hmade : m.under ≠ none) :
    ∃ s', markAttr s group name m = .ok s' ∧ Running s' ∧ FilesNumbered s'.tracker := by
  obtain ⟨a, hup, ha⟩ := ht.fileInfoOf_returns hg
  have hm : m.At Homed s.tracker (fileInfoOf s.tracker group) (.obj .attr) := ⟨hdec, fun _ _ _ _ => trivial⟩
  obtain ⟨s', obj, hr, hs', hn', -, hsome⟩ := objWrapUnder_returns hs ht hn name ha hup hm fun htype => by cases htype
  refine ⟨s', ?_, hs', hn'⟩
  unfold markAttr
  rw [hr, ok_bind]
  cases obj with
  | none =>
    rw [Option.isSome_none, eq_comm, Option.isSome_eq_false_iff, Option.isNone_iff_eq_none] at hsome
    exact absurd hsome hmade
  | some attr => rfl

theorem markFile_returns {file : ProvObj} (hs : Running s) (ht : Tracked s.tracker app e n) (hn : FilesNumbered s.tracker)
    (hmem : file ∈ app.handles) (hfile : file.my_type = .file) {fi : FileInfo}
    (hfi : s.tracker.files file.generic_prov_info = some fi) {info : VolInfo} (hinfo : info.Full) (name : Option CStr)
    {m : Marking} (hm : m.At fi.file_no) (hmade : m.Complete) :
    ∃ s', markFile s info name (some file) m = .ok s' ∧ Running s' ∧ FilesNumbered s'.tracker := by
  obtain ⟨hdec, hdecp, hdect, hgroup⟩ := hm
  obtain ⟨path, hpath⟩ := Option.ne_none_iff_exists'.1 hinfo.1
  obtain ⟨a, hup, ha⟩ := ht.fileInfoOf_returns hmem
  have hloc : m.group.At LocalTo s.tracker (fileInfoOf s.tracker file) (.obj .grp) := by
    refine ⟨hdec, fun u b hu hb => ?_⟩
    rw [fileInfoOf, hfile] at hb
    cases hb
    obtain ⟨t, ht⟩ := hgroup u hu
    exact ⟨fi, t, hfi, ht⟩
  obtain ⟨s₁, group, h₁, hs₁, hn₁, -, hsome⟩ := objWrapUnder_returns hs ht hn name ha hup hloc.homed
    fun htype => by cases htype
  obtain ⟨e₁, ht₁, htype, -⟩ := objWrapUnder_tracked ht h₁ (fun b hb => ht.fileInfoOf hmem hb) hloc.homed
  cases group with
  | none =>
    rw [Option.isSome_none, eq_comm, Option.isSome_eq_false_iff, Option.isNone_iff_eq_none] at hsome
    exact absurd hsome hmade.1
  | some group =>
    obtain ⟨s₂, h₂, hs₂, hn₂⟩ := markAttr_returns hs₁ ht₁ hn₁ (.head _) name hdecp hmade.2.1
    obtain ⟨path', ht₂, -⟩ := markAttr_tracked ht₁ (.head _) hdecp h₂
    obtain ⟨s₃, h₃, hs₃, hn₃⟩ := markAttr_returns hs₂ ht₂ hn₂ (.tail _ (.head _)) name hdect hmade.2.2
    obtain ⟨s₄, h₄, hs₄, hsame, -⟩ := hs₃.updHelper (f := fun h => pure (provenanceFreeObj h)) rfl
    refine ⟨s₄, ?_, hs₄, ?_⟩
    · unfold markFile
      dsimp only
      rw [h₁, ok_bind, hpath]
      dsimp only [strcpy]
      rw [ok_bind, h₂, ok_bind, h₃, ok_bind]
      exact h₄
    · rw [hsame]
      exact hn₃

/-- What a file call needs: a path, a format and a name, a file with a number, if there is one, and on rank 0 a file whose
marking succeeds. -/
structure FileSuited (s : Conn) (info : VolInfo) (name : Option CStr) (under : Option Under) (m : Marking) : Prop where
  info   : info.Full
  name   : name ≠ none
  number : ∀ u, under = some u → u.file_no.getD 0 ≠ 0
  begun  : under = none → s.PROV_HELPER ≠ none
  marks  : s.process.fields.mpi_rank_int = 0 → under ≠ none ∧ m.Complete

theorem wrapFile_returns (hs : Running s ∨ Fresh s) (ht : Tracked s.tracker app e n) (hn : FilesNumbered s.tracker)
    {info : VolInfo} {name : Option CStr} {under : Option Under} {m : Marking} (hf : FileSuited s info name under m) :
    ∃ s' file, wrapFile s info name under = .ok (s', file) ∧ Running s' ∧ FilesNumbered s'.tracker ∧
      s'.process.fields.mpi_rank_int = s.process.fields.mpi_rank_int ∧ file.isSome = under.isSome := by
  unfold wrapFile
  cases under with
  | none => exact ⟨s, none, rfl, hs.resolve_right fun hfresh => hf.begun rfl hfresh.helper, hn, rfl, rfl⟩
  | some u =>
    obtain ⟨s₁, h₁, hp₁⟩ := ensureHelper_returns hs hf.info
    rw [← hp₁.tracker] at ht hn
    obtain ⟨h', w, hr, hn'⟩ := fileOpenCommon_returns ht hn name (hf.number u rfl)
    obtain ⟨s₂, h₂, hs₂, hsame, hproc⟩ := hp₁.running.onHelper (f := fun h => fileOpenCommon h u name) hr
    refine ⟨s₂, some w, ?_, hs₂, by rw [hsame]; exact hn', by rw [hproc]; exact hp₁.rank, rfl⟩
    dsimp only
    rw [h₁, ok_bind, h₂]
    rfl

theorem fileCall_returns (hs : Running s ∨ Fresh s) (ht : Tracked s.tracker app e n) (hn : FilesNumbered s.tracker)
    {func : CStr} (hfunc : func ∈ recorders) {info : VolInfo} {name : Option CStr} {under : Option Under} {m : Marking}
    (hf : FileSuited s info name under m) (hm : ∀ u, under = some u → m.At (u.file_no.getD 0)) (t : Ticks) :
    Returns (fileCall func s info name under m t) := by
  obtain ⟨s₁, file, h₁, hs₁, hn₁, hrank, hsome⟩ := wrapFile_returns hs ht hn hf
  obtain ⟨ht₁, hfile⟩ := wrapFile_tracked ht h₁
  obtain ⟨nm, hnm⟩ := Option.ne_none_iff_exists'.1 hf.name
  obtain ⟨s₂, h₂, hp₂⟩ := hs₁.fill nm (cstr "provio:Datatype") (cstr "provio:wasOpenedBy")
  obtain ⟨s₃, h₃, hp₃⟩ := hp₂.running.record (cstr "H5Topen2") hfunc t
  have htracker : s₃.tracker = s₁.tracker := hp₃.tracker.trans hp₂.tracker
  rw [← htracker] at ht₁ hn₁
  have hrank₃ : s₃.process.fields.mpi_rank_int = s.process.fields.mpi_rank_int :=
    (hp₃.rank.trans hp₂.rank).trans hrank
  have hfront : fileCall func s info name under m t = if s₃.process.fields.mpi_rank_int = 0 then
      markFile s₃ info name file m >>= fun s => pure (s, file) else pure (s₃, file) := by
    unfold fileCall
    rw [h₁, ok_bind]
    dsimp only
    rw [hnm, h₂, ok_bind, h₃, ok_bind]
  rw [hfront]
  by_cases hzero : s₃.process.fields.mpi_rank_int = 0
  · rw [if_pos hzero]
    obtain ⟨hunder, hmade⟩ := hf.marks (hrank₃.symm.trans hzero)
    obtain ⟨u, hu⟩ := Option.ne_none_iff_exists'.1 hunder
    rw [hu] at hsome
    obtain ⟨w, rfl⟩ := Option.isSome_iff_exists.1 hsome
    obtain ⟨u', hu', htype, fi, hfi, hno⟩ := hfile w rfl
    rw [← htracker] at hfi
    obtain ⟨s₄, h₄, hs₄, hn₄⟩ := markFile_returns hp₃.running ht₁ hn₁ (.head _) htype hfi hf.info name
      (by rw [hno]; exact hm u' hu') hmade
    exact ⟨s₄, some w, by rw [h₄]; rfl, hs₄, hn₄⟩
  · rw [if_neg hzero]
    exact ⟨s₃, file, rfl, hp₃.running, hn₁⟩

theorem fileReopen_returns (hs : Running s) (ht : Tracked s.tracker app e n) (hn : FilesNumbered s.tracker) {o : ProvObj}
    (ho : o ∈ app.handles) (hfile : o.my_type = .file) (ret : Bool) {under : Option Under}
    (hno : ∀ u, under = some u → u.file_no.getD 0 ≠ 0) : Returns (fileReopen s o ret under) := by
  unfold fileReopen
  split
  · rename_i u
    obtain ⟨fi, hfi, -⟩ := ht.consistent.files _ (ht.consistent.tracked _ (mem_live_files ho hfile))
    obtain ⟨h', w, hr, hn'⟩ := fileOpenCommon_returns ht hn fi.file_name (hno u rfl)
    obtain ⟨s₂, h₂, hs₂, hsame, -⟩ := hs.onHelper (f := fun h => do
      let fi ← h.file o.generic_prov_info
      fileOpenCommon h u fi.file_name) (k := h') (a := w) (by
        rw [file_eq_ok.2 hfi, ok_bind, hr])
    exact ⟨s₂, some w, by rw [h₂]; rfl, hs₂, by rw [hsame]; exact hn'⟩
  · exact ⟨s, none, rfl, hs, hn⟩

/-! ## Closing, wrap contexts and refreshes -/

theorem closed_returns (hs : Running s) (ht : Tracked s.tracker app e n) (hn : FilesNumbered s.tracker) {o : ProvObj}
    (ho : o ∈ app.handles) {c : TokenCmp} (hdec : c.Decides) (ret : Bool) {f : ProvHelper → Except Fault ProvHelper}
    (hf : ∀ h, f h = rmTargetNode h c o >>= fun h => pure (provenanceFreeObj h)) :
    ∃ s', s.onSuccess ret f = .ok s' ∧ Running s' ∧ FilesNumbered s'.tracker := by
  refine hs.onSuccess hn ret fun _ => ?_
  obtain ⟨h', hr, hn'⟩ := rmTargetNode_returns ht hn ho hdec
  exact ⟨provenanceFreeObj h', by rw [hf, hr]; rfl, hn'⟩

theorem closeOf_returns (hs : Running s) (ht : Tracked s.tracker app e n) (hn : FilesNumbered s.tracker) {k : ObjClass}
    {o : ProvObj} (ho : o ∈ app.handles) (hk : o.my_type = .obj k) {c : TokenCmp} (hdec : c.Decides) (ret : Bool) :
    Returns (closeOf k s c o ret) := by
  obtain ⟨s', hr, hs', hn'⟩ := closed_returns hs ht hn ho hdec ret
    (f := fun h => do
      let r ← rmNode k h c o.generic_prov_info
      pure (provenanceFreeObj r.1)) fun h => by rw [rmTargetNode_obj hk, bind_assoc]; rfl
  refine ⟨s', ret, ?_, hs', hn'⟩
  rw [closeOf_eq]
  unfold closeObject
  rw [hr]
  rfl

theorem fileClose_returns (hs : Running s) (ht : Tracked s.tracker app e n) (hn : FilesNumbered s.tracker) {o : ProvObj}
    (ho : o ∈ app.handles) (hfile : o.my_type = .file) (ret : Bool) : Returns (fileClose s o ret) := by
  obtain ⟨s', hr, hs', hn'⟩ := closed_returns hs ht hn ho exactCmp_decides ret
    (f := fun h => do
      let h ← releaseFile h o.generic_prov_info
      pure (provenanceFreeObj h)) fun h => by rw [rmTargetNode_file hfile]
  refine ⟨s', ret, ?_, hs', hn'⟩
  unfold fileClose
  rw [hr]
  rfl

theorem unwrapObject_returns (hs : Running s) (ht : Tracked s.tracker app e n) (hn : FilesNumbered s.tracker) {o : ProvObj}
    (ho : o ∈ app.handles) {c : TokenCmp} (hdec : c.Decides) (under : Bool) : Returns (unwrapObject s c o under) := by
  obtain ⟨s', hr, hs', hn'⟩ := closed_returns hs ht hn ho hdec under
    (f := fun h => do
      let h ← rmTargetNode h c o
      pure (provenanceFreeObj h)) fun h => rfl
  refine ⟨s', under, ?_, hs', hn'⟩
  unfold unwrapObject
  rw [hr]
  rfl

theorem getWrapCtx_returns (hs : Running s) (ht : Tracked s.tracker app e n) (hn : FilesNumbered s.tracker) {o : ProvObj}
    (ho : o ∈ app.handles) : Returns (getWrapCtx s o) := by
  obtain ⟨a, hup, ha⟩ := ht.fileInfoOf_returns ho
  obtain ⟨h', hr, hn'⟩ := refFile_returns hn ht.consistent ha
  obtain ⟨s', h₁, hs', hsame, -⟩ := hs.onHelper (f := fun h => do
    let file_info ← fileInfoOf h o
    let h ← takeWrapCtx h file_info
    pure (h, file_info)) (k := h') (a := a) (by
      rw [hup, ok_bind, takeWrapCtx, hr]
      rfl)
  exact ⟨s', a, h₁, hs', by rw [hsame]; exact hn'⟩

theorem wrapObject_returns (hs : Running s) (ht : Tracked s.tracker app e n) (hn : FilesNumbered s.tracker) {a : Addr}
    (ha : a ∈ app.ctxs) {type : ObjType} {m : Made} (hm : m.At Homed s.tracker (.ok a) type) (hno : m.Numbers type) :
    Returns (wrapObject s a type m) := by
  unfold wrapObject
  cases hu : m.under with
  | none => exact ⟨s, none, rfl, hs, hn⟩
  | some u =>
    obtain ⟨s₁, h₁, hs₁, hsame₁, -⟩ := hs.onHelper (f := fun h => pure (provenanceNewObj h, (⟨none, .file, a⟩ : ProvObj)))
      rfl
    have ht₁ : Tracked s₁.tracker app e (n + 1) := by
      rw [hsame₁]
      exact ht.newObj
    have hn₁ : FilesNumbered s₁.tracker := by
      rw [hsame₁]
      exact hn
    have ha₁ : a ∈ s₁.tracker.opened_files := ht₁.consistent.tracked a (mem_live_ctxs ha)
    obtain ⟨s₂, obj, h₂, hs₂, hn₂, -, -⟩ := objWrapUnder_returns hs₁ ht₁ hn₁ (o := ⟨none, .file, a⟩) none ha₁ rfl
      (by rw [hsame₁]; exact hm) hno
    obtain ⟨s₃, h₃, hs₃, hsame₃, -⟩ := hs₂.updHelper (f := fun h => pure (provenanceFreeObj h)) rfl
    refine ⟨s₃, obj, ?_, hs₃, by rw [hsame₃]; exact hn₂⟩
    dsimp only
    rw [h₁, ok_bind]
    dsimp only
    rw [h₂, ok_bind]
    dsimp only
    rw [h₃]
    rfl

def EnoughDimensions (h : ProvHelper) (o : ProvObj) (new_size : List (BitVec 64)) : Prop :=
  ∀ info, h.objs o.generic_prov_info = some info → info.ds.ds_class = .simple → info.ds.dimension_cnt ≤ new_size.length

theorem setExtent_returns (hs : Running s) (ht : Tracked s.tracker app e n) (hn : FilesNumbered s.tracker) {o : ProvObj}
    (ho : o ∈ app.handles) (htype : o.my_type = .obj .dataset) (ret : Bool) {new_size : List (BitVec 64)}
    (hsize : EnoughDimensions s.tracker o new_size) :
    ∃ s', setExtent s o ret new_size = .ok s' ∧ Running s' ∧ FilesNumbered s'.tracker := by
  refine hs.onSuccess hn ret fun _ => ?_
  have hlive := mem_live_objs (e := e) ho (by simp [htype])
  obtain ⟨info, hinfo, _⟩ := ht.consistent.listed _ hlive
  rw [obj_eq_ok.2 hinfo, ok_bind]
  split
  · rename_i hsimple
    rw [if_neg (Nat.not_lt.2 (hsize info hinfo hsimple))]
    exact updateDs_returns hn ht.consistent hlive _
  · exact ⟨_, rfl, hn⟩

theorem refreshBegin_returns (hs : Running s) (ht : Tracked s.tracker app e n) (hn : FilesNumbered s.tracker)
    {specific : Specific} {o : ProvObj} (ho : o ∈ app.handles) (hfile : o.my_type ≠ .file)
    (hcls : ∀ k, o.my_type = .obj k → Hold.cls ⟨specific, k, 0⟩ = k) : Returns (refreshBegin s specific o) := by
  unfold refreshBegin
  cases hm : o.my_type with
  | file => exact absurd hm hfile
  | obj k =>
    have hassert : specific ≠ .dataset ∨ k = .dataset := by
      by_cases hsp : specific = .dataset
      · subst hsp
        exact .inr (hcls k hm).symm
      · exact .inl hsp
    obtain ⟨h', hr, hn'⟩ := refObj_returns hn ht.consistent (mem_live_objs ho hfile)
    obtain ⟨s', h₁, hs', hsame, -⟩ := hs.onHelper (f := fun h => do
      let h ← h.refObj o.generic_prov_info
      pure (h, (⟨specific, k, o.generic_prov_info⟩ : Hold))) (by
        rw [hr]
        rfl)
    refine ⟨s', ⟨specific, k, o.generic_prov_info⟩, ?_, hs', by rw [hsame]; exact hn'⟩
    dsimp only
    rw [show cAssert (specific ≠ .dataset ∨ k = .dataset) = .ok () from cAssert_eq_ok.2 (decide_eq_true hassert), ok_bind]
    exact h₁

theorem refreshEnd_returns (hs : Running s) (ht : Tracked s.tracker app e n) (hn : FilesNumbered s.tracker) {hold : Hold}
    (hx : hold ∈ app.holds) {c : TokenCmp} (hdec : c.Decides) {ret : Bool}
    (hret : ret = true → ¬ (hold.specific = .group ∨ hold.specific = .datatype)) (extent : Extent) :
    ∃ s', refreshEnd s c hold ret extent = .ok s' ∧ Running s' ∧ FilesNumbered s'.tracker := by
  obtain ⟨h₁, hfresh, ht₁, hn₁⟩ : ∃ h₁, (if ret then refreshed s.tracker hold extent else pure s.tracker) = .ok h₁ ∧
      Tracked h₁ app e n ∧ FilesNumbered h₁ := by
    cases ret with
    | false => exact ⟨_, rfl, ht, hn⟩
    | true =>
      obtain ⟨h₁, hr, hn₁⟩ := refreshed_returns ht hn hx (hret rfl) extent
      exact ⟨h₁, hr, refreshed_tracked ht hx hr, hn₁⟩
  obtain ⟨h₂, m, hrm, hn₂⟩ := rmHold_returns ht₁ hn₁ hx hdec
  obtain ⟨s', h₃, hs', hsame, -⟩ := hs.updHelper (f := fun h => do
    let h ← if ret then refreshed h hold extent else pure h
    let r ← rmNode hold.cls h c hold.info
    pure r.1) (k := h₂) (by
      cases ret with
      | false =>
        rw [show s.tracker = h₁ from Except.ok.inj hfresh, if_neg Bool.false_ne_true]
        show (rmNode hold.cls h₁ c hold.info >>= fun r => pure r.1) = _
        rw [hrm]
        rfl
      | true =>
        rw [if_pos rfl, show refreshed s.tracker hold extent = .ok h₁ from hfresh, ok_bind]
        dsimp only
        rw [hrm]
        rfl)
  exact ⟨s', h₃, hs', by rw [hsame]; exact hn₂⟩

/-! ## Every callback -/

/-- What a callback needs besides what it is given: a name where it records one, numbers for files, a size for each
dimension.  The refreshes of groups and datatypes read through their wrapper at the end, which is NULL after a success and
may be freed after a failure. -/
def Callback.Suited (s : Conn) : Callback → Prop
  | .make _ _ name _ _               => name ≠ none
  | .attrOpen _ name _ _ _           => name ≠ none
  | .attrAccess _ _ _ name _         => name ≠ none
  | .fileCall _ info name under m _  => FileSuited s info name under m
  | .fileReopen _ _ under            => ∀ u, under = some u → u.file_no.getD 0 ≠ 0
  | .objectOpen _ _ type m           => m.Numbers type
  | .wrapObject _ type m             => m.Numbers type
  | .setExtent o _ new_size          => EnoughDimensions s.tracker o new_size
  | .refreshBegin _ o                => o.my_type ≠ .file
  | .refreshEnd _ hold _ _           => ¬ (hold.specific = .group ∨ hold.specific = .datatype)
  | _                                => True

theorem Maker.func_recorders (f : Maker) : f.func ∈ recorders := by
  cases f <;> decide

theorem attrRead_recorders : cstr "H5VL_provenance_attr_read" ∈ recorders := by decide

theorem attrWrite_recorders : cstr "H5VL_provenance_attr_write" ∈ recorders := by decide

theorem fileCreate_recorders : cstr "H5VL_provenance_file_create" ∈ recorders := by decide

theorem fileOpen_recorders : cstr "H5VL_provenance_file_open" ∈ recorders := by decide

theorem Callback.run_returns (hs : Running s) (ht : Tracked s.tracker app e n) (hn : FilesNumbered s.tracker) {c : Callback}
    (hv : c.Valid app) (hp : c.Placed Homed s.tracker) (hc : c.Suited s) : Returns (c.run s app) := by
  cases c with
  | make f o name m t =>
    have h : Returns (makeObject f.target f.cls.type f.action.relation (apiName f.cls f.action) f.func s o name m t) :=
      makeObject_returns hs ht hn f.func_recorders hv hc hp t
    rw [← f.run_eq] at h
    exact h.map fun _ obj => app.take obj
  | attrOpen o name queried m t => exact (attrOpen_returns hs ht hn hv hc hp t).map fun _ attr => app.take attr
  | attrAccess x o ret name t =>
    cases x with
    | read => exact (attrAccess_returns hs hn attrRead_recorders ret hc t).map fun _ _ => app
    | write => exact (attrAccess_returns hs hn attrWrite_recorders ret hc t).map fun _ _ => app
  | datasetAccess x o name stack ret npoints elapsed t =>
    cases x with
    | read => exact (datasetRead_returns hs ht hn hv.1 hv.2 name stack ret npoints elapsed t).map fun _ _ => app
    | write => exact (datasetWrite_returns hs ht hn hv.1 hv.2 name stack ret npoints elapsed t).map fun _ _ => app
  | fileCall f info name under m t =>
    cases f with
    | create => exact (fileCall_returns (.inl hs) ht hn fileCreate_recorders hc hp t).map fun _ file => app.take file
    | «open» => exact (fileCall_returns (.inl hs) ht hn fileOpen_recorders hc hp t).map fun _ file => app.take file
  | fileReopen o ret under => exact (fileReopen_returns hs ht hn hv.1 hv.2 ret hc).map fun _ file => app.take file
  | fileClose o ret => exact (fileClose_returns hs ht hn hv.1 hv.2 ret).map fun _ ret => app.give o ret
  | close k cmp o ret => exact (closeOf_returns hs ht hn hv.1 hv.2 hp ret).map fun _ ret => app.give o ret
  | objectOpen o obj_name type m =>
    obtain ⟨a, hup, ha⟩ := ht.fileInfoOf_returns hv
    obtain ⟨s', obj, h, hs', hn', -⟩ := objWrapUnder_returns hs ht hn obj_name ha hup hp hc
    exact Returns.map (x := Provio.objectOpen s o obj_name type m) ⟨s', obj, h, hs', hn'⟩ fun _ obj => app.take obj
  | getWrapCtx o => exact (getWrapCtx_returns hs ht hn hv).map fun _ a => { app with ctxs := a :: app.ctxs }
  | wrapObject a type m => exact (wrapObject_returns hs ht hn hv hp hc).map fun _ obj => app.take obj
  | unwrapObject cmp o under => exact (unwrapObject_returns hs ht hn hv hp under).map fun _ ret => app.give o ret
  | freeWrapCtx a =>
    obtain ⟨h', hr, hn'⟩ := freeWrapCtx_returns ht hn hv
    obtain ⟨s', h, hs', hsame, -⟩ := hs.updHelper (f := fun h => releaseFile h a) hr
    exact ⟨s', { app with ctxs := app.ctxs.erase a }, by rw [Callback.run, Provio.freeWrapCtx, h]; rfl, hs',
      by rw [hsame]; exact hn'⟩
  | setExtent o ret new_size =>
    obtain ⟨s', h, hs', hn'⟩ := setExtent_returns hs ht hn hv.1 hv.2 ret hc
    exact ⟨s', app, by rw [Callback.run, h]; rfl, hs', hn'⟩
  | refreshBegin specific o =>
    exact (refreshBegin_returns hs ht hn hv.1 hc hv.2).map fun _ hold => { app with holds := hold :: app.holds }
  | refreshEnd cmp hold ret extent =>
    obtain ⟨s', h, hs', hn'⟩ := refreshEnd_returns hs ht hn hv hp (fun _ => hc) extent
    exact ⟨s', { app with holds := app.holds.erase hold }, by rw [Callback.run, h]; rfl, hs', hn'⟩
  | forward => exact ⟨s, app, rfl, hs, hn⟩

/-- Before the first file the application holds nothing. -/
theorem Tracked.nothing_held (ht : Tracked s.tracker app e n) (hnone : s.PROV_HELPER = none) :
    (∀ w, w ∉ app.handles) ∧ (∀ a, a ∉ app.ctxs) ∧ ∀ x, x ∉ app.holds := by
  have hnil : s.tracker.opened_files = [] := by simp [Conn.tracker, hnone, ProvHelper.init]
  have hobjs : ∀ o, (app.ledger.plus e).objs o = 0 := by
    intro o
    by_contra hlive
    obtain ⟨info, -, ha, -⟩ := ht.consistent.listed o hlive
    rw [hnil] at ha
    cases ha
  have hfiles : ∀ a, (app.ledger.plus e).files a = 0 := by
    intro a
    by_contra hlive
    have ha := ht.consistent.tracked a hlive
    rw [hnil] at ha
    cases ha
  refine ⟨fun w hw => ?_, fun a ha => mem_live_ctxs (e := e) ha (hfiles a), fun x hx => mem_live_holds (e := e) hx (hobjs _)⟩
  by_cases hf : w.my_type = .file
  · exact mem_live_files (e := e) hw hf (hfiles _)
  · exact mem_live_objs (e := e) hw hf (hobjs _)

/-- **A callback of a connector that has not begun returns**, which only a file call can be given. -/
theorem Callback.run_first (hs : Fresh s) (ht : Tracked s.tracker app e n) (hn : FilesNumbered s.tracker) {c : Callback}
    (hv : c.Valid app) (hp : c.Placed Homed s.tracker) (hc : c.Suited s) :
    ∃ s' app', c.run s app = .ok (s', app') ∧ (Running s' ∨ Fresh s') ∧ FilesNumbered s'.tracker := by
  obtain ⟨hhandles, hctxs, hholds⟩ := ht.nothing_held hs.helper
  cases c with
  | fileCall f info name under m t =>
    cases f with
    | create =>
      obtain ⟨s', app', h, hs', hn'⟩ := (fileCall_returns (.inr hs) ht hn fileCreate_recorders hc hp t).map
        fun _ file => app.take file
      exact ⟨s', app', h, .inl hs', hn'⟩
    | «open» =>
      obtain ⟨s', app', h, hs', hn'⟩ := (fileCall_returns (.inr hs) ht hn fileOpen_recorders hc hp t).map
        fun _ file => app.take file
      exact ⟨s', app', h, .inl hs', hn'⟩
  | forward => exact ⟨s, app, rfl, .inr hs, hn⟩
  | make | attrOpen | objectOpen | getWrapCtx | unwrapObject => exact absurd hv (hhandles _)
  | attrAccess | datasetAccess | fileReopen | fileClose | close | setExtent | refreshBegin => exact absurd hv.1 (hhandles _)
  | wrapObject | freeWrapCtx => exact absurd hv (hctxs _)
  | refreshEnd => exact absurd hv (hholds _)

end

/-! ## Runs -/

/-- The connector and its application agree. -/
structure InOrder (w : World) : Prop where
  state    : Running w.conn ∨ Fresh w.conn
  tracked  : ∃ e n, Tracked w.conn.tracker w.app e n
  numbered : FilesNumbered w.conn.tracker

/-- The rules that an application and the underlying connector keep. -/
def Rules (w : World) (c : Callback) : Prop := Proper Homed w c ∧ c.Suited w.conn

/-- **A callback returns, and the next one can come.** -/
theorem Callback.progress {w : World} {c : Callback} (hw : InOrder w) (hc : Rules w c) :
    ∃ w', c.step w = .ok w' ∧ InOrder w' := by
  obtain ⟨e, n, ht⟩ := hw.tracked
  obtain ⟨s', app', hr, hs', hn'⟩ : ∃ s' app', c.run w.conn w.app = .ok (s', app') ∧ (Running s' ∨ Fresh s') ∧
      FilesNumbered s'.tracker := by
    rcases hw.state with hs | hs
    · obtain ⟨s', app', hr, hs', hn'⟩ := Callback.run_returns hs ht hw.numbered hc.1.1 hc.1.2 hc.2
      exact ⟨s', app', hr, .inl hs', hn'⟩
    · exact Callback.run_first hs ht hw.numbered hc.1.1 hc.1.2 hc.2
  obtain ⟨e', ht', -⟩ := c.run_tracked hr ht hc.1.1 hc.1.2
  refine ⟨⟨s', app', w.history ++ (s'.records.drop w.conn.records.length).map (c, ·)⟩, ?_, hs', ⟨e', _, ht'⟩, hn'⟩
  rw [Callback.step, hr]
  rfl

theorem runCallbacks_progress : ∀ (cs : List Callback) {w : World}, InOrder w → Throughout Rules cs w →
    ∃ w', runCallbacks cs w = .ok w' ∧ InOrder w'
  | [], w, hw, _ => ⟨w, rfl, hw⟩
  | c :: cs, w, hw, ⟨hc, hcs⟩ => by
    obtain ⟨w₁, h₁, hw₁⟩ := Callback.progress hw hc
    obtain ⟨w₂, h₂, hw₂⟩ := runCallbacks_progress cs hw₁ (hcs w₁ h₁)
    exact ⟨w₂, by rw [runCallbacks, h₁, ok_bind, h₂], hw₂⟩

/-! ## Loads -/

def Load.Orderly (p : Process) (l : Load) : Prop :=
  Serves l.input.config ∧ Throughout Rules l.callbacks ⟨.init p l.input, .init, []⟩

theorem inOrder_init (p : Process) {inp : SessionInput} (hs : Serves inp.config) : InOrder ⟨.init p inp, .init, []⟩ :=
  ⟨.inr ⟨rfl, hs, p, rfl⟩, ⟨.empty, 0, tracked_init⟩, fun a ha => by cases ha⟩

theorem serializeGraphs_returns {p : Process} (hformat : p.config.prov_line_format.isSome) (helper : ProvioHelper)
    (inp : SessionInput) : ∃ q out, serializeGraphs p helper inp = .ok (q, out) ∧ q.FUNCTION_FREQUENCY = p.FUNCTION_FREQUENCY := by
  unfold serializeGraphs
  split
  · rw [isRdf_eq_ok.2 ⟨hformat, rfl⟩, ok_bind]
    exact ⟨_, _, rfl, rfl⟩
  · exact ⟨_, _, rfl, rfl⟩

theorem printStat_returns {p : Process} (htable : p.FUNCTION_FREQUENCY ≠ none) (helper : ProvioHelper)
    (out : SessionOutput) : ∃ q out', printStat p helper out = .ok (q, out') := by
  obtain ⟨t, ht⟩ := Option.ne_none_iff_exists'.1 htable
  unfold printStat
  split
  · rw [ht]
    exact ⟨_, _, rfl⟩
  · exact ⟨_, _, rfl⟩

theorem provioHelperTeardown_returns {p : Process} (hp : Ready p) (inp : SessionInput) :
    ∃ q out, provioHelperTeardown p inp = .ok (q, out) := by
  obtain ⟨helper, hopen⟩ := hp.opened
  obtain ⟨t, m, ht, -⟩ := hp.table
  obtain ⟨q, out, hser, htable⟩ := serializeGraphs_returns
    (p := addProgramRecord { p with fields := { p.fields with proc_end_time := inp.end_time } })
    (by
      unfold addProgramRecord
      rw [addProgramRecordRedland_eq]
      exact hopen.format) helper inp
  obtain ⟨q', out', hprint⟩ := printStat_returns (p := q) (by
    rw [htable]
    unfold addProgramRecord
    rw [addProgramRecordRedland_eq]
    dsimp only
    rw [ht]
    exact Option.some_ne_none t) helper out
  have hhelper : (addProgramRecord { p with fields := { p.fields with proc_end_time := inp.end_time } }).helper =
      some helper := by
    unfold addProgramRecord
    rw [addProgramRecordRedland_eq]
    exact hopen.opened
  unfold provioHelperTeardown
  dsimp only
  rw [hhelper]
  dsimp only
  rw [hser, ok_bind]
  dsimp only
  rw [hprint]
  exact ⟨_, _, rfl⟩

theorem Load.progress {p : Process} {l : Load} (hl : l.Orderly p) : ∃ q out, l.run p = .ok (q, out) := by
  obtain ⟨w, hw, hin⟩ := runCallbacks_progress l.callbacks (inOrder_init p hl.1) hl.2
  unfold Load.run
  rw [hw, ok_bind]
  unfold Conn.term provHelperTeardown
  rcases hin.state with hs | hs
  · obtain ⟨h, hh⟩ := Option.ne_none_iff_exists'.1 hs.helper
    obtain ⟨helper, hopen⟩ := hs.ready.opened
    obtain ⟨q, out, hr⟩ := provioHelperTeardown_returns hs.ready w.conn.input
    rw [hh, hopen.opened]
    dsimp only
    rw [hr]
    exact ⟨_, _, rfl⟩
  · rw [hs.helper]
    exact ⟨_, _, rfl⟩

end Provio
