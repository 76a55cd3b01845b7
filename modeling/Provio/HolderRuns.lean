import Provio.Holders
import Provio.Records
/-!
# HolderRuns — what a callback does to the application's handles

A callback keeps `Tracked` if `H5VLtoken_cmp` decides and the objects it opens are where a condition `P` says
(`Callback.run_tracked`, for `P` `Homed`).  With `P` `LocalTo` it takes no reference that is not the application's,
except a file call on rank 0, which leaves three and two wrappers (`Callback.Leaves`).
-/
namespace Provio

/-- The helper, or an empty one before there is any. -/
def Conn.tracker (s : Conn) : ProvHelper := s.PROV_HELPER.getD .init

/-! ## What a callback is told of the objects it opens -/

/-- An object that a callback makes: the token comparisons decide, and `P` holds of the file it is opened through. -/
def Made.At (P : ProvHelper → Addr → Under → ObjType → Prop) (h : ProvHelper) (m : Made) (file_info : Except Fault Addr)
    (type : ObjType) : Prop := m.cmp.Decides ∧ ∀ u a, m.under = some u → file_info = .ok a → P h a u type

/-- The group that rank 0 makes in a file is in it. -/
def Marking.At (m : Marking) (file_no : Nat) : Prop :=
  m.group.cmp.Decides ∧ m.attr_path.cmp.Decides ∧ m.attr_time.cmp.Decides ∧
    ∀ u, m.group.under = some u → ∃ t, u.info = some (file_no, t)

def Callback.Placed (P : ProvHelper → Addr → Under → ObjType → Prop) (h : ProvHelper) : Callback → Prop
  | .make f o _ m _            => m.At P h (fileInfoOf h o) (.obj f.target)
  | .attrOpen o _ _ m _        => m.At P h (fileInfoOf h o) (.obj .attr)
  | .fileCall _ _ _ under m _  => ∀ u, under = some u → m.At (u.file_no.getD 0)
  | .close _ c _ _             => c.Decides
  | .objectOpen o _ type m     => m.At P h (fileInfoOf h o) type
  | .wrapObject a type m       => m.At P h (.ok a) type
  | .unwrapObject c _ _        => c.Decides
  | .refreshEnd c _ _ _        => c.Decides
  | _                          => True

theorem Made.At.homed {h : ProvHelper} {m : Made} {r : Except Fault Addr} {type : ObjType} (hm : m.At LocalTo h r type) :
    m.At Homed h r type := ⟨hm.1, fun u a hu ha => (hm.2 u a hu ha).homed⟩

theorem Callback.Placed.homed {h : ProvHelper} {c : Callback} (hp : c.Placed LocalTo h) : c.Placed Homed h := by
  cases c with
  | make | attrOpen | objectOpen | wrapObject => exact Made.At.homed hp
  | _ => exact hp

def Callback.marks (rank : Int) : Callback → Bool
  | .fileCall _ _ _ _ _ _ => rank = 0
  | _                     => false

/-- The wrappers that nobody frees. -/
def Callback.leaked (rank : Int) (c : Callback) : Nat := if c.marks rank then 2 else 0

/-- What a callback adds to the references that nobody holds: those on the group and the two attributes that rank 0
makes. -/
def Callback.Leaves (rank : Int) (c : Callback) (e e' : Ledger) : Prop :=
  if c.marks rank then ∃ group path time, e' = ((e.addObj time).addObj path).addObj group else e' = e

section

variable {s s' : Conn} {app app' : App} {e : Ledger} {n : Nat}

theorem onHelper_tracker {α : Type} {f : ProvHelper → Except Fault (ProvHelper × α)} {a : α}
    (hr : s.onHelper f = .ok (s', a)) : f s.tracker = .ok (s'.tracker, a) := by
  obtain ⟨h, h', hh, hf, rfl⟩ := onHelper_eq_ok.1 hr
  simpa [Conn.tracker, hh] using hf

theorem updHelper_tracker {f : ProvHelper → Except Fault ProvHelper} (hr : s.updHelper f = .ok s') :
    f s.tracker = .ok s'.tracker := by
  obtain ⟨h, h', hh, hf, rfl⟩ := updHelper_eq_ok.1 hr
  simpa [Conn.tracker, hh] using hf

theorem onSuccess_tracker {ret : Bool} {f : ProvHelper → Except Fault ProvHelper} (hr : s.onSuccess ret f = .ok s') :
    (ret = true ∧ f s.tracker = .ok s'.tracker) ∨ (ret = false ∧ s'.tracker = s.tracker) := by
  rcases onSuccess_eq_ok.1 hr with ⟨hret, hr⟩ | ⟨hret, rfl⟩
  · exact .inl ⟨hret, updHelper_tracker hr⟩
  · exact .inr ⟨hret, rfl⟩

theorem ensureHelper_tracker {info : VolInfo} (hr : s.ensureHelper info = .ok s') : s'.tracker = s.tracker := by
  unfold Conn.ensureHelper at hr
  cases hh : s.PROV_HELPER with
  | some h =>
    rw [hh] at hr
    cases hr
    rfl
  | none =>
    rw [hh] at hr
    obtain ⟨⟨p, h⟩, h1, hr⟩ := bind_eq_ok.1 hr
    cases hr
    unfold provHelperInit at h1
    split at h1
    · cases h1
      simp [Conn.tracker, hh]
    · obtain ⟨_, _, h1⟩ := bind_eq_ok.1 h1
      obtain ⟨_, _, h1⟩ := bind_eq_ok.1 h1
      obtain ⟨_, _, h1⟩ := bind_eq_ok.1 h1
      cases h1
      simp [Conn.tracker, hh]

/-! ## Opening -/

theorem objWrapUnder_tracked (ht : Tracked s.tracker app e n) {m : Made} {upper_o : ProvObj} {name : Option CStr}
    {type : ObjType} {obj : Option ProvObj} (hr : objWrapUnder s m upper_o name type = .ok (s', obj))
    (hup : ∀ a, fileInfoOf s.tracker upper_o = .ok a → a ∈ s.tracker.opened_files)
    (hm : m.At Homed s.tracker (fileInfoOf s.tracker upper_o) type) :
    ∃ e', Tracked s'.tracker (app.take obj) e' n ∧ (∀ w ∈ obj, w.my_type = type) ∧
      (m.At LocalTo s.tracker (fileInfoOf s.tracker upper_o) type → e' = e) := by
  unfold objWrapUnder at hr
  cases hu : m.under with
  | none =>
    rw [hu] at hr
    cases hr
    exact ⟨e, ht, fun w hw => absurd hw (by simp), fun _ => rfl⟩
  | some u =>
    rw [hu] at hr
    obtain ⟨⟨s₁, w⟩, h1, hr⟩ := bind_eq_ok.1 hr
    cases hr
    have hw := onHelper_tracker h1
    obtain ⟨a, ha, _⟩ := bind_eq_ok.1 hw
    obtain ⟨e', ht', htype, hlocal⟩ := wrapUnder_tracked ht hm.1 (hup a ha) ha (hm.2 u a hu ha) hw
    refine ⟨e', ht', fun x hx => ?_, fun hl => hlocal (hl.2 u a hu ha)⟩
    cases hx
    exact htype

theorem makeObject_tracked (ht : Tracked s.tracker app e n) {k : ObjClass} {type relation io_api func : CStr}
    {o : ProvObj} {name : Option CStr} {m : Made} {t : Ticks} {obj : Option ProvObj}
    (hr : makeObject k type relation io_api func s o name m t = .ok (s', obj)) (ho : o ∈ app.handles)
    (hm : m.At Homed s.tracker (fileInfoOf s.tracker o) (.obj k)) :
    ∃ e', Tracked s'.tracker (app.take obj) e' n ∧
      (m.At LocalTo s.tracker (fileInfoOf s.tracker o) (.obj k) → e' = e) := by
  obtain ⟨s₁, name', p, h1, _, _, rfl⟩ := makeObject_ok hr
  obtain ⟨e', ht', _, hl⟩ := objWrapUnder_tracked ht h1 (fun a ha => ht.fileInfoOf ho ha) hm
  exact ⟨e', ht', hl⟩

theorem attrOpen_tracked (ht : Tracked s.tracker app e n) {o : ProvObj} {name queried : Option CStr} {m : Made}
    {t : Ticks} {attr : Option ProvObj} (hr : attrOpen s o name queried m t = .ok (s', attr)) (ho : o ∈ app.handles)
    (hm : m.At Homed s.tracker (fileInfoOf s.tracker o) (.obj .attr)) :
    ∃ e', Tracked s'.tracker (app.take attr) e' n ∧
      (m.At LocalTo s.tracker (fileInfoOf s.tracker o) (.obj .attr) → e' = e) := by
  obtain ⟨s₁, name', p, h1, _, _, rfl⟩ := attrOpen_ok hr
  obtain ⟨e', ht', _, hl⟩ := objWrapUnder_tracked ht h1 (fun a ha => ht.fileInfoOf ho ha) hm
  exact ⟨e', ht', hl⟩

theorem wrapObject_tracked (ht : Tracked s.tracker app e n) {a : Addr} {type : ObjType} {m : Made} {obj : Option ProvObj}
    (hr : wrapObject s a type m = .ok (s', obj)) (ha : a ∈ app.ctxs) (hm : m.At Homed s.tracker (.ok a) type) :
    ∃ e', Tracked s'.tracker (app.take obj) e' n ∧ (m.At LocalTo s.tracker (.ok a) type → e' = e) := by
  unfold wrapObject at hr
  cases hu : m.under with
  | none =>
    rw [hu] at hr
    cases hr
    exact ⟨e, ht, fun _ => rfl⟩
  | some u =>
    rw [hu] at hr
    obtain ⟨⟨s₁, fake⟩, h1, hr⟩ := bind_eq_ok.1 hr
    obtain ⟨⟨s₂, w⟩, h2, hr⟩ := bind_eq_ok.1 hr
    obtain ⟨s₃, h3, hr⟩ := bind_eq_ok.1 hr
    cases hr
    have hnew := onHelper_tracker h1
    simp only [pure, Except.pure, Except.ok.injEq, Prod.mk.injEq] at hnew
    obtain ⟨hs₁, rfl⟩ := hnew
    -- the wrapper on top is freed by the caller that made it
    have ht₁ : Tracked s₁.tracker app e (n + 1) := by
      rw [← hs₁]
      exact ht.newObj
    have hopen : a ∈ s₁.tracker.opened_files := by
      rw [← hs₁]
      exact ht.consistent.tracked a (mem_live_ctxs ha)
    obtain ⟨e', ht₂, _, hl⟩ := objWrapUnder_tracked ht₁ h2 (fun b hb => by cases hb; exact hopen)
      (by rw [← hs₁]; exact hm)
    have hfree := updHelper_tracker h3
    simp only [pure, Except.pure, Except.ok.injEq] at hfree
    refine ⟨e', ?_, fun hloc => hl (by rw [← hs₁]; exact hloc)⟩
    rw [← hfree]
    exact ht₂.freeObj

/-! ## Files -/

theorem wrapFile_tracked (ht : Tracked s.tracker app e n) {info : VolInfo} {name : Option CStr} {under : Option Under}
    {file : Option ProvObj} (hr : wrapFile s info name under = .ok (s', file)) :
    Tracked s'.tracker (app.take file) e n ∧ ∀ w ∈ file, ∃ u, under = some u ∧ w.my_type = .file ∧
      ∃ fi, s'.tracker.files w.generic_prov_info = some fi ∧ fi.file_no = u.file_no.getD 0 := by
  unfold wrapFile at hr
  cases under with
  | none =>
    cases hr
    exact ⟨ht, fun w hw => absurd hw (by simp)⟩
  | some u =>
    obtain ⟨s₁, h1, hr⟩ := bind_eq_ok.1 hr
    obtain ⟨⟨s₂, w⟩, h2, hr⟩ := bind_eq_ok.1 hr
    cases hr
    rw [← ensureHelper_tracker h1] at ht
    obtain ⟨⟨h₁, a⟩, hadd, hpure⟩ := bind_eq_ok.1 (onHelper_tracker h2)
    cases hpure
    obtain ⟨ht', hfi⟩ := addFileNode_tracked ht (some u) hadd
    refine ⟨ht', fun w hw => ?_⟩
    cases hw
    exact ⟨u, rfl, rfl, hfi⟩

theorem fileReopen_tracked (ht : Tracked s.tracker app e n) {o : ProvObj} {ret : Bool} {under : Option Under}
    {file : Option ProvObj} (hr : fileReopen s o ret under = .ok (s', file)) :
    Tracked s'.tracker (app.take file) e n := by
  unfold fileReopen at hr
  split at hr
  · obtain ⟨⟨s₁, w⟩, h1, hr⟩ := bind_eq_ok.1 hr
    cases hr
    obtain ⟨fi, _, h2⟩ := bind_eq_ok.1 (onHelper_tracker h1)
    obtain ⟨⟨h₁, a⟩, hadd, hpure⟩ := bind_eq_ok.1 h2
    cases hpure
    exact (addFileNode_tracked ht _ hadd).1
  · cases hr
    exact ht

theorem markAttr_tracked (ht : Tracked s.tracker app e n) {group : ProvObj} (hg : group ∈ app.handles)
    {name : Option CStr} {m : Made} (hdec : m.cmp.Decides) (hr : markAttr s group name m = .ok s') :
    ∃ attr : ProvObj, Tracked s'.tracker (app.take (some attr)) e n ∧ attr.my_type = .obj .attr := by
  obtain ⟨⟨s₁, attr⟩, h1, hr⟩ := bind_eq_ok.1 hr
  cases attr with
  | none => cases hr
  | some attr =>
    cases hr
    obtain ⟨e', ht', htype, hl⟩ := objWrapUnder_tracked ht h1 (fun a ha => ht.fileInfoOf hg ha)
      ⟨hdec, fun _ _ _ _ => trivial⟩
    obtain rfl := hl ⟨hdec, fun _ _ _ _ => trivial⟩
    exact ⟨attr, ht', htype attr rfl⟩

/-- **Rank 0 leaves the references on the group and its two attributes, and the attributes' wrappers.** -/
theorem markFile_tracked {file : ProvObj} (ht : Tracked s.tracker app e n) {info : VolInfo} {name : Option CStr}
    {m : Marking} (hr : markFile s info name (some file) m = .ok s') (hmem : file ∈ app.handles)
    (hfile : file.my_type = .file) {fi : FileInfo} (hfi : s.tracker.files file.generic_prov_info = some fi)
    (hm : m.At fi.file_no) :
    ∃ group path time, Tracked s'.tracker app (((e.addObj time).addObj path).addObj group) (n + 2) := by
  obtain ⟨hdec, hdecp, hdect, hgroup⟩ := hm
  obtain ⟨⟨s₁, group⟩, h1, hr⟩ := bind_eq_ok.1 hr
  obtain ⟨_, _, hr⟩ := bind_eq_ok.1 hr
  cases group with
  | none => cases hr
  | some group =>
    obtain ⟨s₂, h2, hr⟩ := bind_eq_ok.1 hr
    obtain ⟨s₃, h3, hr⟩ := bind_eq_ok.1 hr
    have hloc : m.group.At LocalTo s.tracker (fileInfoOf s.tracker file) (.obj .grp) := by
      refine ⟨hdec, fun u a hu ha => ?_⟩
      rw [fileInfoOf, hfile] at ha
      cases ha
      obtain ⟨t, ht⟩ := hgroup u hu
      exact ⟨fi, t, hfi, ht⟩
    obtain ⟨e', ht₁, htype, hl⟩ := objWrapUnder_tracked ht h1 (fun a ha => ht.fileInfoOf hmem ha) hloc.homed
    obtain rfl := hl hloc
    obtain ⟨path, ht₂, hpath⟩ := markAttr_tracked ht₁ (.head _) hdecp h2
    obtain ⟨time, ht₃, htime⟩ := markAttr_tracked ht₂ (.tail _ (.head _)) hdect h3
    have ht₄ := ((ht₃.leak (by simp [htime])).leak (by simp [hpath])).leak (by simp [htype group rfl])
    have hfree := updHelper_tracker hr
    simp only [pure, Except.pure, Except.ok.injEq] at hfree
    refine ⟨group.generic_prov_info, path.generic_prov_info, time.generic_prov_info, ?_⟩
    rw [← hfree]
    exact ht₄.freeObj

theorem fileCall_tracked (ht : Tracked s.tracker app e n) {func : CStr} {info : VolInfo} {name : Option CStr}
    {under : Option Under} {m : Marking} {t : Ticks} {file : Option ProvObj}
    (hr : fileCall func s info name under m t = .ok (s', file)) (hm : ∀ u, under = some u → m.At (u.file_no.getD 0)) :
    (s.process.fields.mpi_rank_int = 0 ∧ ∃ group path time,
      Tracked s'.tracker (app.take file) (((e.addObj time).addObj path).addObj group) (n + 2)) ∨
    (s.process.fields.mpi_rank_int ≠ 0 ∧ Tracked s'.tracker (app.take file) e n) := by
  obtain ⟨s₁, s₂, name', p, h1, _, _, rfl, ⟨hrank, h2⟩ | ⟨hrank, rfl⟩⟩ := fileCall_ok hr
  · obtain ⟨ht₁, hfile⟩ := wrapFile_tracked ht h1
    cases file with
    | none => cases h2
    | some w =>
      obtain ⟨u, hu, hw, fi, hfi, hno⟩ := hfile w rfl
      obtain hm := hm u hu
      rw [← hno] at hm
      exact .inl ⟨hrank, markFile_tracked (s := { s₁ with process := p, records := _ }) ht₁ h2 (.head _) hw hfi hm⟩
  · exact .inr ⟨hrank, (wrapFile_tracked ht h1).1⟩

/-! ## Closing -/

theorem closed_tracked (ht : Tracked s.tracker app e n) {c : TokenCmp} (hdec : c.Decides) {o : ProvObj}
    (ho : o ∈ app.handles) {ret : Bool} {f : ProvHelper → Except Fault ProvHelper}
    (hr : s.onSuccess ret f = .ok s')
    (hf : ∀ h, f h = rmTargetNode h c o >>= fun h => pure (provenanceFreeObj h)) :
    Tracked s'.tracker (app.give o ret) e n := by
  rcases onSuccess_tracker hr with ⟨rfl, hrun⟩ | ⟨rfl, hsame⟩
  · rw [hf] at hrun
    obtain ⟨h₁, hrm, hpure⟩ := bind_eq_ok.1 hrun
    rw [← show provenanceFreeObj h₁ = s'.tracker from Except.ok.inj hpure]
    exact rmTargetNode_tracked ht ho hdec hrm
  · rw [hsame]
    exact ht

theorem rmTargetNode_obj {o : ProvObj} {k : ObjClass} (hk : o.my_type = .obj k) (c : TokenCmp) (h : ProvHelper) :
    rmTargetNode h c o = rmNode k h c o.generic_prov_info >>= fun r => pure r.1 := by
  unfold rmTargetNode
  rw [hk]

theorem rmTargetNode_file {o : ProvObj} (hk : o.my_type = .file) (c : TokenCmp) (h : ProvHelper) :
    rmTargetNode h c o = releaseFile h o.generic_prov_info := by
  unfold rmTargetNode
  rw [hk]

theorem counted_tracked (ht : Tracked s.tracker app e n) {o : ProvObj} (ho : o ∈ app.handles)
    (hf : o.my_type = .obj .dataset) (hc : Counted s s' o) : Tracked s'.tracker app e n := by
  rcases hc with hsame | ⟨h, h', f, hh, hr, hh'⟩
  · rw [Conn.tracker, hsame]
    exact ht
  · rw [Conn.tracker, hh] at ht
    rw [Conn.tracker, hh']
    exact updateDs_tracked ht (mem_live_objs ho (by simp [hf])) hr

theorem fileClose_tracked (ht : Tracked s.tracker app e n) {o : ProvObj} {ret ret' : Bool}
    (hr : fileClose s o ret = .ok (s', ret')) (ho : o ∈ app.handles) (hf : o.my_type = .file) :
    Tracked s'.tracker (app.give o ret') e n := by
  obtain ⟨s₁, h1, hr⟩ := bind_eq_ok.1 hr
  cases hr
  refine closed_tracked ht exactCmp_decides ho h1 fun h => ?_
  rw [rmTargetNode_file hf]

theorem closeOf_tracked (ht : Tracked s.tracker app e n) {k : ObjClass} {c : TokenCmp} {o : ProvObj} {ret ret' : Bool}
    (hr : closeOf k s c o ret = .ok (s', ret')) (hdec : c.Decides) (ho : o ∈ app.handles) (hk : o.my_type = .obj k) :
    Tracked s'.tracker (app.give o ret') e n := by
  rw [closeOf_eq] at hr
  obtain ⟨s₁, h1, hr⟩ := bind_eq_ok.1 hr
  cases hr
  refine closed_tracked ht hdec ho h1 fun h => ?_
  rw [rmTargetNode_obj hk, bind_assoc]
  rfl

theorem unwrapObject_tracked (ht : Tracked s.tracker app e n) {c : TokenCmp} {o : ProvObj} {under ret : Bool}
    (hr : unwrapObject s c o under = .ok (s', ret)) (hdec : c.Decides) (ho : o ∈ app.handles) :
    Tracked s'.tracker (app.give o ret) e n := by
  obtain ⟨s₁, h1, hr⟩ := bind_eq_ok.1 hr
  cases hr
  exact closed_tracked ht hdec ho h1 fun h => rfl

/-! ## Wrap contexts, extents and refreshes -/

theorem getWrapCtx_tracked (ht : Tracked s.tracker app e n) {o : ProvObj} {a : Addr} (hr : getWrapCtx s o = .ok (s', a))
    (ho : o ∈ app.handles) : Tracked s'.tracker { app with ctxs := a :: app.ctxs } e n := by
  obtain ⟨b, hb, h1⟩ := bind_eq_ok.1 (onHelper_tracker hr)
  obtain ⟨h₁, htake, hpure⟩ := bind_eq_ok.1 h1
  obtain ⟨hsame, rfl⟩ := Prod.mk.inj (Except.ok.inj hpure)
  rw [← hsame]
  exact takeWrapCtx_tracked ht (ht.fileInfoOf ho hb) htake

theorem setExtent_tracked (ht : Tracked s.tracker app e n) {o : ProvObj} {ret : Bool} {new_size : List (BitVec 64)}
    (hr : setExtent s o ret new_size = .ok s') (ho : o ∈ app.handles) (hf : o.my_type = .obj .dataset) :
    Tracked s'.tracker app e n := by
  rcases onSuccess_tracker hr with ⟨_, hrun⟩ | ⟨_, hsame⟩
  · obtain ⟨info, _, hrun⟩ := bind_eq_ok.1 hrun
    split at hrun
    · split at hrun
      · cases hrun
      · exact updateDs_tracked ht (mem_live_objs ho (by simp [hf])) hrun
    · rw [← Except.ok.inj hrun]
      exact ht
  · rw [hsame]
    exact ht

theorem refreshBegin_tracked (ht : Tracked s.tracker app e n) {specific : Specific} {o : ProvObj} {hold : Hold}
    (hr : refreshBegin s specific o = .ok (s', hold)) (ho : o ∈ app.handles)
    (hcls : ∀ k, o.my_type = .obj k → Hold.cls ⟨specific, k, 0⟩ = k) :
    Tracked s'.tracker { app with holds := hold :: app.holds } e n := by
  unfold refreshBegin at hr
  cases hm : o.my_type with
  | file =>
    rw [hm] at hr
    cases hr
  | obj k =>
    rw [hm] at hr
    obtain ⟨_, _, hr⟩ := bind_eq_ok.1 hr
    obtain ⟨h₁, href, hpure⟩ := bind_eq_ok.1 (onHelper_tracker hr)
    obtain ⟨hsame, rfl⟩ := Prod.mk.inj (Except.ok.inj hpure)
    rw [← hsame]
    refine refObj_tracked ht ho href rfl ?_
    rw [hm]
    exact congrArg ObjType.obj (hcls k hm).symm

/-- The hold's reference goes back whether or not the refresh succeeded. -/
theorem refreshEnd_tracked (ht : Tracked s.tracker app e n) {c : TokenCmp} {hold : Hold} {ret : Bool} {extent : Extent}
    (hr : refreshEnd s c hold ret extent = .ok s') (hdec : c.Decides) (hx : hold ∈ app.holds) :
    Tracked s'.tracker { app with holds := app.holds.erase hold } e n := by
  have released : ∀ h, Tracked h app e n → (rmNode hold.cls h c hold.info >>= fun r => pure r.1) = .ok s'.tracker →
      Tracked s'.tracker { app with holds := app.holds.erase hold } e n := by
    intro h ht hrun
    obtain ⟨⟨h₁, m⟩, hrm, hpure⟩ := bind_eq_ok.1 hrun
    rw [← show h₁ = s'.tracker from Except.ok.inj hpure]
    exact rmHold_tracked ht hx hdec hrm
  have hrun := updHelper_tracker hr
  dsimp only at hrun
  split at hrun
  · obtain ⟨h₁, hfresh, hrm⟩ := bind_eq_ok.1 hrun
    exact released h₁ (refreshed_tracked ht hx hfresh) hrm
  · exact released _ ht hrun

/-! ## Every callback -/

theorem Callback.run_tracked {c : Callback} (hr : c.run s app = .ok (s', app')) (ht : Tracked s.tracker app e n)
    (hv : c.Valid app) (hp : c.Placed Homed s.tracker) :
    ∃ e', Tracked s'.tracker app' e' (n + c.leaked s.process.fields.mpi_rank_int) ∧
      (c.Placed LocalTo s.tracker → c.Leaves s.process.fields.mpi_rank_int e e') := by
  have kept : ∀ e', c.marks s.process.fields.mpi_rank_int = false → Tracked s'.tracker app' e' n →
      (c.Placed LocalTo s.tracker → e' = e) → ∃ e', Tracked s'.tracker app' e'
        (n + c.leaked s.process.fields.mpi_rank_int) ∧
        (c.Placed LocalTo s.tracker → c.Leaves s.process.fields.mpi_rank_int e e') := by
    intro e' hm ht' hl
    exact ⟨e', by simpa [leaked, hm] using ht', by simpa [Leaves, hm] using hl⟩
  cases c with
  | make f o name m t =>
    obtain ⟨⟨s₁, obj⟩, h1, hr⟩ := bind_eq_ok.1 hr
    cases hr
    rw [f.run_eq] at h1
    obtain ⟨e', ht', hl⟩ := makeObject_tracked ht h1 hv hp
    exact kept e' rfl ht' hl
  | attrOpen o name queried m t =>
    obtain ⟨⟨s₁, attr⟩, h1, hr⟩ := bind_eq_ok.1 hr
    cases hr
    obtain ⟨e', ht', hl⟩ := attrOpen_tracked ht h1 hv hp
    exact kept e' rfl ht' hl
  | attrAccess x o ret name t =>
    cases x with
    | read =>
      obtain ⟨⟨s₁, _⟩, h1, hr⟩ := bind_eq_ok.1 hr
      cases hr
      obtain ⟨_, p, _, _, rfl⟩ := attrAccess_ok h1
      exact kept e rfl ht fun _ => rfl
    | write =>
      obtain ⟨⟨s₁, _⟩, h1, hr⟩ := bind_eq_ok.1 hr
      cases hr
      obtain ⟨_, p, _, _, rfl⟩ := attrAccess_ok h1
      exact kept e rfl ht fun _ => rfl
  | datasetAccess x o name stack ret npoints elapsed t =>
    cases x with
    | read =>
      obtain ⟨⟨s₁, _⟩, h1, hr⟩ := bind_eq_ok.1 hr
      cases hr
      exact kept e rfl (counted_tracked ht hv.1 hv.2 (datasetRead_ok h1).1) fun _ => rfl
    | write =>
      obtain ⟨⟨s₁, _⟩, h1, hr⟩ := bind_eq_ok.1 hr
      cases hr
      exact kept e rfl (counted_tracked ht hv.1 hv.2 (datasetWrite_ok h1).1) fun _ => rfl
  | fileCall f info name under m t =>
    have key : ∀ func file, Provio.fileCall func s info name under m t = .ok (s', file) → app' = app.take file →
        ∃ e', Tracked s'.tracker app' e'
          (n + (Callback.fileCall f info name under m t).leaked s.process.fields.mpi_rank_int) ∧
          (Callback.Placed LocalTo s.tracker (.fileCall f info name under m t) →
            (Callback.fileCall f info name under m t).Leaves s.process.fields.mpi_rank_int e e') := by
      rintro func file h1 rfl
      rcases fileCall_tracked ht h1 hp with ⟨hrank, group, path, time, ht'⟩ | ⟨hrank, ht'⟩
      · refine ⟨((e.addObj time).addObj path).addObj group, ?_, fun _ => ?_⟩
        · simpa [leaked, marks, hrank] using ht'
        · simp only [Leaves, marks, hrank, decide_true, if_true]
          exact ⟨group, path, time, rfl⟩
      · exact kept e (by simpa [marks] using hrank) ht' fun _ => rfl
    cases f with
    | create =>
      obtain ⟨⟨s₁, file⟩, h1, hr⟩ := bind_eq_ok.1 hr
      cases hr
      exact key _ file h1 rfl
    | «open» =>
      obtain ⟨⟨s₁, file⟩, h1, hr⟩ := bind_eq_ok.1 hr
      cases hr
      exact key _ file h1 rfl
  | fileReopen o ret under =>
    obtain ⟨⟨s₁, file⟩, h1, hr⟩ := bind_eq_ok.1 hr
    cases hr
    exact kept e rfl (fileReopen_tracked ht h1) fun _ => rfl
  | fileClose o ret =>
    obtain ⟨⟨s₁, _⟩, h1, hr⟩ := bind_eq_ok.1 hr
    cases hr
    exact kept e rfl (fileClose_tracked ht h1 hv.1 hv.2) fun _ => rfl
  | close k cmp o ret =>
    obtain ⟨⟨s₁, _⟩, h1, hr⟩ := bind_eq_ok.1 hr
    cases hr
    exact kept e rfl (closeOf_tracked ht h1 hp hv.1 hv.2) fun _ => rfl
  | objectOpen o obj_name type m =>
    obtain ⟨⟨s₁, obj⟩, h1, hr⟩ := bind_eq_ok.1 hr
    cases hr
    obtain ⟨e', ht', _, hl⟩ := objWrapUnder_tracked ht h1 (fun a ha => ht.fileInfoOf hv ha) hp
    exact kept e' rfl ht' hl
  | getWrapCtx o =>
    obtain ⟨⟨s₁, a⟩, h1, hr⟩ := bind_eq_ok.1 hr
    cases hr
    exact kept e rfl (getWrapCtx_tracked ht h1 hv) fun _ => rfl
  | wrapObject a type m =>
    obtain ⟨⟨s₁, obj⟩, h1, hr⟩ := bind_eq_ok.1 hr
    cases hr
    obtain ⟨e', ht', hl⟩ := wrapObject_tracked ht h1 hv hp
    exact kept e' rfl ht' hl
  | unwrapObject cmp o under =>
    obtain ⟨⟨s₁, _⟩, h1, hr⟩ := bind_eq_ok.1 hr
    cases hr
    exact kept e rfl (unwrapObject_tracked ht h1 hp hv) fun _ => rfl
  | freeWrapCtx a =>
    obtain ⟨s₁, h1, hr⟩ := bind_eq_ok.1 hr
    cases hr
    exact kept e rfl (freeWrapCtx_tracked ht hv (updHelper_tracker h1)) fun _ => rfl
  | setExtent o ret new_size =>
    obtain ⟨s₁, h1, hr⟩ := bind_eq_ok.1 hr
    cases hr
    exact kept e rfl (setExtent_tracked ht h1 hv.1 hv.2) fun _ => rfl
  | refreshBegin specific o =>
    obtain ⟨⟨s₁, hold⟩, h1, hr⟩ := bind_eq_ok.1 hr
    cases hr
    exact kept e rfl (refreshBegin_tracked ht h1 hv.1 hv.2) fun _ => rfl
  | refreshEnd cmp hold ret extent =>
    obtain ⟨s₁, h1, hr⟩ := bind_eq_ok.1 hr
    cases hr
    exact kept e rfl (refreshEnd_tracked ht h1 hp hv) fun _ => rfl
  | forward =>
    cases hr
    exact kept e rfl ht fun _ => rfl

end

end Provio
