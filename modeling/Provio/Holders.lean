import Provio.Handles
import Provio.Steps
/-!
# Holders — the tracker and the application's handles

The references the application holds are a ledger (`App.ledger`).  `Tracked h app e n` says that the tracker agrees with
it, apart from `e` references and `n` wrappers that nobody holds any more, and that a wrapper's node is the one of the
object it wraps.  One lemma for each helper function says what it does to that; every one works from a call that
returned.
-/
namespace Provio

section

variable {h h' : ProvHelper}

/-! ## `ptr_cnt` -/

theorem refFile_ptr {a : Addr} (hr : h.refFile a = .ok h') : h'.ptr_cnt = h.ptr_cnt := by
  obtain ⟨_, _, rfl⟩ := refFile_eq_ok.1 hr
  rfl

theorem refObj_ptr {o : Addr} (hr : h.refObj o = .ok h') : h'.ptr_cnt = h.ptr_cnt := by
  obtain ⟨_, _, rfl⟩ := refObj_eq_ok.1 hr
  rfl

theorem addFileNode_ptr {name : Option CStr} {no : Nat} {a : Addr} (hr : addFileNode h name no = .ok (h', a)) :
    h'.ptr_cnt = h.ptr_cnt := by
  simp only [addFileNode, bind_eq_ok] at hr
  obtain ⟨_, _, r, _, hr⟩ := hr
  cases r <;> obtain ⟨h1, href, hpure⟩ := bind_eq_ok.1 hr <;> cases hpure <;> exact (refFile_ptr href).trans rfl

theorem rmFileNode_ptr {no : Nat} {n : Int} (hr : rmFileNode h no = .ok (h', n)) : h'.ptr_cnt = h.ptr_cnt := by
  simp only [rmFileNode, bind_eq_ok] at hr
  obtain ⟨_, _, _, _, _, _, r, _, hr⟩ := hr
  cases r with
  | none =>
    cases hr
    rfl
  | some cur =>
    obtain ⟨fi, _, hr⟩ := bind_eq_ok.1 hr
    split at hr
    · simp only [bind_eq_ok, pure, Except.pure, Except.ok.injEq, Prod.mk.injEq] at hr
      obtain ⟨_, _, _, _, _, _, _, _, _, _, rfl, _⟩ := hr
      rfl
    · cases hr
      rfl

theorem addNode_ptr {k : ObjClass} {c : TokenCmp} {a o : Addr} {token : Token} {new : ObjInfo}
    (hr : addNode k h c a token new = .ok (h', o)) : h'.ptr_cnt = h.ptr_cnt := by
  simp only [addNode, bind_eq_ok] at hr
  obtain ⟨fi, _, r, _, hr⟩ := hr
  cases r <;> obtain ⟨h1, href, hpure⟩ := bind_eq_ok.1 hr <;> cases hpure <;> exact (refObj_ptr href).trans rfl

theorem rmNode_ptr {k : ObjClass} {c : TokenCmp} {o : Addr} {n : Int} (hr : rmNode k h c o = .ok (h', n)) :
    h'.ptr_cnt = h.ptr_cnt := by
  simp only [rmNode, bind_eq_ok] at hr
  obtain ⟨info, _, hr⟩ := hr
  split at hr
  · cases hr
    rfl
  · simp only [bind_eq_ok] at hr
    obtain ⟨fi, _, _, _, r, _, hr⟩ := hr
    cases r with
    | none =>
      cases hr
      rfl
    | some cur =>
      simp only [bind_eq_ok] at hr
      obtain ⟨_, _, ⟨h2, n'⟩, hrm, hpure⟩ := hr
      cases hpure
      exact (rmFileNode_ptr hrm).trans rfl

end

/-! ## The application's references -/

def ProvObj.fileAddr (w : ProvObj) : Option Addr := if w.my_type = .file then some w.generic_prov_info else none

def ProvObj.objAddr (w : ProvObj) : Option Addr := if w.my_type = .file then none else some w.generic_prov_info

def App.live (app : App) : Live :=
  ⟨app.handles.filterMap ProvObj.fileAddr, app.ctxs,
    app.handles.filterMap ProvObj.objAddr ++ app.holds.map Hold.info⟩

def App.ledger (app : App) : Ledger := app.live.ledger

def Ledger.plus (L e : Ledger) : Ledger := ⟨fun a => L.files a + e.files a, fun o => L.objs o + e.objs o⟩

theorem Ledger.plus_addFile (L e : Ledger) (a : Addr) : (L.plus e).addFile a = L.plus (e.addFile a) := by
  simp only [plus, addFile, ← bump_add_right]

theorem Ledger.addFile_plus (L e : Ledger) (a : Addr) : (L.addFile a).plus e = (L.plus e).addFile a := by
  simp only [plus, addFile, ← bump_add_left]

theorem Ledger.plus_addObj (L e : Ledger) (o : Addr) : (L.plus e).addObj o = L.plus (e.addObj o) := by
  simp only [plus, addObj, ← bump_add_right]

theorem Ledger.addObj_plus (L e : Ledger) (o : Addr) : (L.addObj o).plus e = (L.plus e).addObj o := by
  simp only [plus, addObj, ← bump_add_left]

theorem ledger_perm {l l' : Live} (hf : l.files.Perm l'.files) (hc : l.ctxs.Perm l'.ctxs) (ho : l.objs.Perm l'.objs) :
    l.ledger = l'.ledger := by
  unfold Live.ledger
  congr 1
  · funext a
    rw [hf.count_eq, hc.count_eq]
  · funext o
    rw [ho.count_eq]

section

variable {app : App} {w : ProvObj}

theorem App.ledger_take_file (hw : w.my_type = .file) :
    (app.take (some w)).ledger = app.ledger.addFile w.generic_prov_info := by
  have hlive : (app.take (some w)).live = { app.live with files := w.generic_prov_info :: app.live.files } := by
    simp [App.take, App.live, ProvObj.fileAddr, ProvObj.objAddr, hw]
  unfold App.ledger
  rw [hlive, ledger_cons_files]

theorem App.ledger_take_obj (hw : w.my_type ≠ .file) :
    (app.take (some w)).ledger = app.ledger.addObj w.generic_prov_info := by
  have hlive : (app.take (some w)).live = { app.live with objs := w.generic_prov_info :: app.live.objs } := by
    simp [App.take, App.live, ProvObj.fileAddr, ProvObj.objAddr, hw]
  unfold App.ledger
  rw [hlive, ledger_cons_objs]

theorem App.ledger_give (hw : w ∈ app.handles) : app.ledger = ((app.give w true).take (some w)).ledger := by
  have hperm : app.handles.Perm (w :: app.handles.erase w) := List.perm_cons_erase hw
  exact ledger_perm (hperm.filterMap _) (List.Perm.refl _) ((hperm.filterMap _).append_right _)

theorem App.ledger_ctx (a : Addr) : { app with ctxs := a :: app.ctxs }.ledger = app.ledger.addFile a :=
  ledger_cons_ctxs app.live a

theorem App.ledger_ctx_erase {a : Addr} (ha : a ∈ app.ctxs) :
    app.ledger = { app with ctxs := app.ctxs.erase a }.ledger.addFile a :=
  ledger_erase_ctxs (show a ∈ app.live.ctxs from ha)

theorem App.ledger_hold (x : Hold) : { app with holds := x :: app.holds }.ledger = app.ledger.addObj x.info := by
  have h1 : { app with holds := x :: app.holds }.ledger = { app.live with objs := x.info :: app.live.objs }.ledger :=
    ledger_perm (List.Perm.refl _) (List.Perm.refl _) List.perm_middle
  rw [h1, ledger_cons_objs]
  rfl

theorem App.ledger_hold_erase {x : Hold} (hx : x ∈ app.holds) :
    app.ledger = { app with holds := app.holds.erase x }.ledger.addObj x.info := by
  rw [← App.ledger_hold]
  exact ledger_perm (List.Perm.refl _) (List.Perm.refl _) (((List.perm_cons_erase hx).map _).append_left _)

theorem App.ledger_closed (hc : app.Closed) : app.ledger = .empty := by
  obtain ⟨handles, ctxs, holds⟩ := app
  obtain ⟨rfl, rfl, rfl⟩ := hc
  rfl

end

/-! ## The invariant -/

/-- What the underlying connector's `H5VL_OBJECT_GET_INFO` says of a wrapper's object. -/
def ProvObj.identity (w : ProvObj) : Option (Nat × Token) := w.under_object.bind Under.info

/-- A wrapper's node has its class and, unless it is an attribute's, the token of its object in the file with the
object's number. -/
def NodeOf (h : ProvHelper) (w : ProvObj) : Prop :=
  w.my_type ≠ .file → ∀ info, h.objs w.generic_prov_info = some info → w.my_type = .obj info.cls ∧
    (info.cls ≠ .attr → ∀ fi, h.files info.file_info = some fi → w.identity = some (fi.file_no, info.token))

/-- **The tracker agrees with what the application holds**, `e` and `n` apart. -/
structure Tracked (h : ProvHelper) (app : App) (e : Ledger) (n : Nat) : Prop where
  consistent : Consistent h (app.ledger.plus e)
  handles    : ∀ w ∈ app.handles, NodeOf h w
  holds      : ∀ x ∈ app.holds, ∀ info, h.objs x.info = some info → info.cls = x.cls
  ptr        : h.ptr_cnt = (app.handles.length + n : Nat)

theorem tracked_init : Tracked .init .init .empty 0 :=
  ⟨consistent_init, fun _ hw => absurd hw List.not_mem_nil, fun _ hx => absurd hx List.not_mem_nil, rfl⟩

section

variable {h h' : ProvHelper} {app : App} {e : Ledger} {n : Nat}

theorem Consistent.frame {L : Ledger} (hc : Consistent h L) (hlist : h'.opened_files = h.opened_files)
    (hcnt : h'.opened_files_cnt = h.opened_files_cnt) (hfiles : h'.files = h.files) (hobjs : h'.objs = h.objs)
    (hnext : h'.next = h.next) : Consistent h' L := by
  refine ⟨by rw [hcnt, hlist, hc.cnt], by rw [hlist]; exact hc.nodup, ?_, by rw [hlist, hfiles]; exact hc.numbers,
    by rw [hlist]; exact hc.tracked, by rw [hlist, hfiles, hobjs]; exact hc.listed,
    by rw [hnext, hfiles, hobjs]; exact hc.fresh⟩
  intro a ha
  rw [hlist] at ha
  obtain ⟨fi, hfi, hok⟩ := hc.files a ha
  exact ⟨fi, by rw [hfiles]; exact hfi, hok.ref, hok.pos, hok.cnts, hok.nodup, by rw [hobjs]; exact hok.objs,
    by rw [hobjs]; exact hok.tokens⟩

theorem mem_live_files {w : ProvObj} (hw : w ∈ app.handles) (hf : w.my_type = .file) :
    (app.ledger.plus e).files w.generic_prov_info ≠ 0 := by
  have hmem : w.generic_prov_info ∈ app.live.files := List.mem_filterMap.2 ⟨w, hw, by simp [ProvObj.fileAddr, hf]⟩
  have := List.count_pos_iff.2 hmem
  simp only [App.ledger, Live.ledger, Ledger.plus]
  omega

theorem mem_live_ctxs {a : Addr} (ha : a ∈ app.ctxs) : (app.ledger.plus e).files a ≠ 0 := by
  have := List.count_pos_iff.2 (show a ∈ app.live.ctxs from ha)
  simp only [App.ledger, Live.ledger, Ledger.plus]
  omega

theorem mem_live_objs {w : ProvObj} (hw : w ∈ app.handles) (hf : w.my_type ≠ .file) :
    (app.ledger.plus e).objs w.generic_prov_info ≠ 0 := by
  have hmem : w.generic_prov_info ∈ app.live.objs :=
    List.mem_append_left _ (List.mem_filterMap.2 ⟨w, hw, by simp [ProvObj.objAddr, hf]⟩)
  have := List.count_pos_iff.2 hmem
  simp only [App.ledger, Live.ledger, Ledger.plus]
  omega

theorem mem_live_holds {x : Hold} (hx : x ∈ app.holds) : (app.ledger.plus e).objs x.info ≠ 0 := by
  have hmem : x.info ∈ app.live.objs := List.mem_append_right _ (List.mem_map_of_mem hx)
  have := List.count_pos_iff.2 hmem
  simp only [App.ledger, Live.ledger, Ledger.plus]
  omega

theorem Tracked.same (ht : Tracked h app e n) (hk : Kept h h') {o : Addr} (hlive : (app.ledger.plus e).objs o ≠ 0)
    {info' : ObjInfo} (hinfo' : h'.objs o = some info') : ∃ info, h.objs o = some info ∧ info.cls = info'.cls ∧
      info.file_info = info'.file_info ∧ info.token = info'.token := by
  obtain ⟨info, hinfo, _⟩ := ht.consistent.listed o hlive
  refine hk.objs o ?_ info' hinfo'
  by_contra hge
  rw [(ht.consistent.fresh o (Nat.le_of_not_lt hge)).2] at hinfo
  cases hinfo

theorem Tracked.nodeOf_kept (ht : Tracked h app e n) (hk : Kept h h') {w : ProvObj} (hw : w ∈ app.handles) :
    NodeOf h' w := by
  intro hf info' hinfo'
  have hlive := mem_live_objs (e := e) hw hf
  obtain ⟨info, hinfo, hcls, hhome, htok⟩ := ht.same hk hlive hinfo'
  obtain ⟨h1, h2⟩ := ht.handles w hw hf info hinfo
  rw [hcls] at h1
  refine ⟨h1, fun hattr fi' hfi' => ?_⟩
  have hopen := (ht.consistent.home hlive hinfo).1
  rw [← hhome] at hfi'
  obtain ⟨fi, hfi, hno⟩ := hk.files _ (ht.consistent.lt_next hopen) fi' hfi'
  rw [← hno, ← htok]
  exact h2 (by rw [hcls]; exact hattr) fi hfi

theorem Tracked.hold_kept (ht : Tracked h app e n) (hk : Kept h h') {x : Hold} (hx : x ∈ app.holds) :
    ∀ info', h'.objs x.info = some info' → info'.cls = x.cls := by
  intro info' hinfo'
  obtain ⟨info, hinfo, hcls, _⟩ := ht.same hk (mem_live_holds hx) hinfo'
  rw [← hcls]
  exact ht.holds x hx info hinfo

theorem Tracked.keep (ht : Tracked h app e n) (hk : Kept h h') {e' : Ledger}
    (hc : Consistent h' (app.ledger.plus e')) (hp : h'.ptr_cnt = h.ptr_cnt) : Tracked h' app e' n :=
  ⟨hc, fun _ hw => ht.nodeOf_kept hk hw, fun _ hx => ht.hold_kept hk hx, hp.trans ht.ptr⟩

theorem Tracked.take (ht : Tracked h app e n) (hk : Kept h h') {w : ProvObj} {e' : Ledger}
    (hc : Consistent h' ((app.take (some w)).ledger.plus e')) (hn : NodeOf h' w) (hp : h'.ptr_cnt = h.ptr_cnt + 1) :
    Tracked h' (app.take (some w)) e' n := by
  refine ⟨hc, fun x hx => ?_, fun _ hx => ht.hold_kept hk hx, ?_⟩
  · rcases List.mem_cons.1 hx with rfl | hx
    · exact hn
    · exact ht.nodeOf_kept hk hx
  · rw [hp, ht.ptr]
    simp only [App.take, Option.toList_some, List.cons_append, List.nil_append, List.length_cons]
    push_cast
    ring

theorem Tracked.give (ht : Tracked h app e n) (hk : Kept h h') {w : ProvObj} (hw : w ∈ app.handles)
    (hc : Consistent h' ((app.give w true).ledger.plus e)) (hp : h'.ptr_cnt = h.ptr_cnt - 1) :
    Tracked h' (app.give w true) e n := by
  refine ⟨hc, fun x hx => ht.nodeOf_kept hk (List.mem_of_mem_erase hx), fun _ hx => ht.hold_kept hk hx, ?_⟩
  have hlen := List.length_erase_of_mem hw
  have hpos := List.length_pos_of_mem hw
  rw [hp, ht.ptr]
  simp only [App.give, if_true, hlen]
  omega

/-- A wrapper whose node is never released, itself never freed. -/
theorem Tracked.leak {w : ProvObj} (ht : Tracked h (app.take (some w)) e n) (hw : w.my_type ≠ .file) :
    Tracked h app (e.addObj w.generic_prov_info) (n + 1) := by
  refine ⟨?_, fun x hx => ht.handles x (List.mem_cons_of_mem _ hx), ht.holds, ?_⟩
  · rw [← Ledger.plus_addObj, ← Ledger.addObj_plus, ← App.ledger_take_obj hw]
    exact ht.consistent
  · rw [ht.ptr]
    simp only [App.take, Option.toList_some, List.cons_append, List.nil_append, List.length_cons]
    push_cast
    ring

theorem provenanceNewObj_kept : Kept h (provenanceNewObj h) := .of_eq (Nat.le_refl _) rfl rfl

theorem provenanceFreeObj_kept : Kept h (provenanceFreeObj h) := .of_eq (Nat.le_refl _) rfl rfl

theorem Consistent.newObj {L : Ledger} (hc : Consistent h L) : Consistent (provenanceNewObj h) L :=
  hc.frame rfl rfl rfl rfl rfl

theorem Consistent.freeObj {L : Ledger} (hc : Consistent h L) : Consistent (provenanceFreeObj h) L :=
  hc.frame rfl rfl rfl rfl rfl

theorem Tracked.newObj (ht : Tracked h app e n) : Tracked (provenanceNewObj h) app e (n + 1) := by
  refine ⟨ht.consistent.newObj, fun _ hw => ht.nodeOf_kept provenanceNewObj_kept hw,
    fun _ hx => ht.hold_kept provenanceNewObj_kept hx, ?_⟩
  simp only [provenanceNewObj, ht.ptr]
  push_cast
  ring

theorem Tracked.freeObj (ht : Tracked h app e (n + 1)) : Tracked (provenanceFreeObj h) app e n := by
  refine ⟨ht.consistent.freeObj, fun _ hw => ht.nodeOf_kept provenanceFreeObj_kept hw,
    fun _ hx => ht.hold_kept provenanceFreeObj_kept hx, ?_⟩
  simp only [provenanceFreeObj, ht.ptr]
  push_cast
  ring

/-! ## Opening -/

theorem Tracked.fileInfoOf (ht : Tracked h app e n) {o : ProvObj} (ho : o ∈ app.handles) {a : Addr}
    (hr : fileInfoOf h o = .ok a) : a ∈ h.opened_files := by
  unfold Provio.fileInfoOf at hr
  cases hm : o.my_type with
  | file =>
    rw [hm] at hr
    cases hr
    exact ht.consistent.tracked _ (mem_live_files ho hm)
  | obj k =>
    rw [hm] at hr
    obtain ⟨info, hinfo, hr⟩ := bind_eq_ok.1 hr
    cases hr
    exact (ht.consistent.home (mem_live_objs ho (by simp [hm])) (obj_eq_ok.1 hinfo)).1

theorem addFileNode_tracked (ht : Tracked h app e n) {name : Option CStr} {no : Nat} {a : Addr} (under : Option Under)
    (hr : addFileNode (provenanceNewObj h) name no = .ok (h', a)) :
    Tracked h' (app.take (some ⟨under, .file, a⟩)) e n ∧ ∃ fi, h'.files a = some fi ∧ fi.file_no = no := by
  obtain ⟨hc, _, hfi⟩ := addFileNode_spec ht.consistent.newObj hr
  refine ⟨ht.take (provenanceNewObj_kept.trans (addFileNode_kept hr)) ?_ (fun hf => absurd rfl hf)
    ((addFileNode_ptr hr).trans rfl), hfi⟩
  rw [App.ledger_take_file rfl, Ledger.addFile_plus]
  exact hc

/-- A wrapper of an object whose node goes to file `a`; up to `h₀` it has been allocated and its home has been found. -/
theorem addNode_tracked (ht : Tracked h app e n) {h₀ : ProvHelper} (hk₀ : Kept h h₀) {k : ObjClass} {c : TokenCmp}
    {a o : Addr} {token : Token} {new : ObjInfo} (hr : addNode k h₀ c a token new = .ok (h', o)) {e' : Ledger}
    (hc₀ : Consistent h₀ (app.ledger.plus e')) (hp₀ : h₀.ptr_cnt = h.ptr_cnt + 1) (hdec : c.Decides)
    (ha : a ∈ h₀.opened_files) (hcls : new.cls = k) (hhome : new.file_info = a) (hzero : new.ref_cnt = 0)
    (htok : new.token = token) (under : Option Under)
    (hid : k ≠ .attr → ∀ fi, h₀.files a = some fi → under.bind Under.info = some (fi.file_no, token)) :
    Tracked h' (app.take (some ⟨under, .obj k, o⟩)) e' n ∧ h'.opened_files = h₀.opened_files := by
  subst htok
  obtain ⟨h₁, o₁, hr₁, hc, hopen, _, info, hinfo, hicls, hihome, hitok⟩ :=
    addNode_spec hc₀ k hdec ha hcls hhome hzero
  rw [hr] at hr₁
  cases hr₁
  have hk := addNode_kept hr
  refine ⟨ht.take (hk₀.trans hk) ?_ ?_ ((addNode_ptr hr).trans hp₀), hopen⟩
  · rw [App.ledger_take_obj (by simp), Ledger.addObj_plus]
    exact hc
  · intro _ i hi
    rw [hinfo] at hi
    cases hi
    refine ⟨by rw [hicls], fun hattr fi' hfi' => ?_⟩
    rw [hihome] at hfi'
    obtain ⟨fi, hfi, hno⟩ := hk.files a (hc₀.lt_next ha) fi' hfi'
    rw [← hno, hitok]
    exact hid (by rw [← hicls]; exact hattr) fi hfi

theorem fileDsAccessed_tracked (ht : Tracked h app e n) {a : Addr} (ha : a ∈ h.opened_files)
    (hr : fileDsAccessed h a = .ok h') : Tracked h' app e n := by
  obtain ⟨fi, hfi, hr⟩ := bind_eq_ok.1 hr
  cases hr
  have hfi' := file_eq_ok.1 hfi
  have hok := ht.consistent.fileOk ha hfi'
  apply ht.keep
  · exact setFile_kept hfi' rfl
  · exact ht.consistent.setRef ha hfi' rfl rfl rfl (fun _ _ => rfl) rfl hok.pos hok.ref
  · rfl

/-- Where an object must be for its wrapper's node to be its own: in the file it is opened through or, a dataset, in
another open file.  An attribute may be anywhere. -/
def Homed (h : ProvHelper) (a : Addr) (u : Under) : ObjType → Prop
  | .file      => True
  | .obj .attr => True
  | .obj k     => ∃ no t, u.info = some (no, t) ∧ ((∃ fi, h.files a = some fi ∧ fi.file_no = no) ∨
      k = .dataset ∧ ∃ b ∈ h.opened_files, ∃ fi, h.files b = some fi ∧ fi.file_no = no)

def LocalTo (h : ProvHelper) (a : Addr) (u : Under) : ObjType → Prop
  | .file      => True
  | .obj .attr => True
  | .obj _     => ∃ fi t, h.files a = some fi ∧ u.info = some (fi.file_no, t)

theorem LocalTo.homed {a : Addr} {u : Under} {type : ObjType} (hl : LocalTo h a u type) : Homed h a u type := by
  cases type with
  | file => trivial
  | obj k =>
    cases k with
    | attr => trivial
    | _ =>
      obtain ⟨fi, t, hfi, hu⟩ := hl
      exact ⟨fi.file_no, t, hu, .inl ⟨fi, hfi, rfl⟩⟩

/-- **The home of a dataset**: its own file, with one reference that nobody gives back if that is another one. -/
theorem homeFile_consistent {h₀ : ProvHelper} (hc : Consistent h₀ (app.ledger.plus e)) {a : Addr}
    (ha : a ∈ h₀.opened_files) {no : Nat}
    (hhome : (∃ fi, h₀.files a = some fi ∧ fi.file_no = no) ∨
      ∃ b ∈ h₀.opened_files, ∃ fi, h₀.files b = some fi ∧ fi.file_no = no) {b : Addr}
    (hr : homeFile h₀ no a = .ok (h', b)) : ∃ e', Consistent h' (app.ledger.plus e') ∧ Kept h₀ h' ∧
      h'.ptr_cnt = h₀.ptr_cnt ∧ h'.opened_files = h₀.opened_files ∧ b ∈ h₀.opened_files ∧
      (∃ fi, h'.files b = some fi ∧ fi.file_no = no) ∧
      ((∃ fi, h₀.files a = some fi ∧ fi.file_no = no) → e' = e) := by
  obtain ⟨fa, hfa, _⟩ := hc.files a ha
  unfold homeFile at hr
  rw [file_eq_ok.2 hfa, ok_bind] at hr
  split at hr
  · rename_i hne
    have hnot : ¬ ∃ fi, h₀.files a = some fi ∧ fi.file_no = no := by
      rintro ⟨fi, hfi, hno⟩
      rw [hfa] at hfi
      cases hfi
      exact hne hno.symm
    obtain ⟨x, hx, fx, hfx, hxno⟩ := hhome.resolve_left hnot
    have hcnt : ¬ h₀.opened_files_cnt < 1 := by
      have := List.length_pos_of_mem ha
      have := hc.cnt
      omega
    obtain ⟨r, hsearch⟩ := searchFile_progress (h := h₀) no (fun y hy => (hc.files y hy).imp fun _ hb => hb.1)
    have hspec := searchFile_spec hsearch
    cases r with
    | none => exact absurd hxno (hspec x hx fx hfx)
    | some y =>
      obtain ⟨hy, fy, hfy, hyno⟩ := hspec
      simp only [searchHomeFile, hcnt, if_false, hsearch, ok_bind] at hr
      obtain ⟨⟨h₁, r⟩, hr₁, hr⟩ := bind_eq_ok.1 hr
      obtain ⟨h₂, href, hpure⟩ := bind_eq_ok.1 hr₁
      cases hpure
      cases hr
      have hc' := refFile_spec hc hy href
      rw [Ledger.plus_addFile] at hc'
      refine ⟨_, hc', refFile_kept href, refFile_ptr href, ?_, hy, ?_, fun hex => absurd hex hnot⟩
      · obtain ⟨_, _, rfl⟩ := refFile_eq_ok.1 href
        rfl
      · obtain ⟨f, hf, rfl⟩ := refFile_eq_ok.1 href
        rw [hfy] at hf
        cases hf
        exact ⟨_, setFile_self .., hyno⟩
  · rename_i heq
    cases hr
    exact ⟨e, hc, .refl _, rfl, rfl, ha, ⟨fa, hfa, (not_not.1 heq).symm⟩, fun _ => rfl⟩

theorem Homed.info {a : Addr} {u : Under} {k : ObjClass} (hh : Homed h a u (.obj k)) (hk : k ≠ .attr) :
    ∃ no t, u.info = some (no, t) ∧ ((∃ fi, h.files a = some fi ∧ fi.file_no = no) ∨
      k = .dataset ∧ ∃ b ∈ h.opened_files, ∃ fi, h.files b = some fi ∧ fi.file_no = no) := by
  cases k with
  | attr => exact absurd rfl hk
  | _ => exact hh

theorem addTargetNode_eq {k : ObjClass} (hk : k ≠ .dataset) (m : Made) (u : Under) (a : Addr) (name : Option CStr) :
    addTargetNode h m u a name (.obj k) =
      addNode k h m.cmp a (u.info.getD (m.stack_no, m.stack_token)).2
        (newObjInfo k a name (u.info.getD (m.stack_no, m.stack_token)).2) := by
  cases k with
  | dataset => exact absurd rfl hk
  | _ => rfl

/-- **`_obj_wrap_under` hands out a wrapper** whose node is its object's, and takes no other reference if the object is
in the file it is opened through. -/
theorem wrapUnder_tracked (ht : Tracked h app e n) {m : Made} (hdec : m.cmp.Decides) {u : Under} {upper_o : ProvObj}
    {a : Addr} (ha : a ∈ h.opened_files) (hup : Provio.fileInfoOf h upper_o = .ok a) {name : Option CStr}
    {type : ObjType} (hhome : Homed h a u type) {w : ProvObj} (hr : wrapUnder h m u upper_o name type = .ok (h', w)) :
    ∃ e', Tracked h' (app.take (some w)) e' n ∧ w.my_type = type ∧ (LocalTo h a u type → e' = e) := by
  unfold wrapUnder at hr
  rw [hup, ok_bind] at hr
  obtain ⟨⟨h₁, o⟩, hadd, hpure⟩ := bind_eq_ok.1 hr
  cases hpure
  cases type with
  | file => exact ⟨e, (addFileNode_tracked ht (some u) hadd).1, rfl, fun _ => rfl⟩
  | obj k =>
    by_cases hk : k = .dataset
    · subst hk
      obtain ⟨no, t, hu, hfile⟩ := hhome.info (by decide)
      obtain ⟨⟨h₂, o'⟩, hds, hadd⟩ := bind_eq_ok.1 hadd
      obtain ⟨h₃, hacc, hpure⟩ := bind_eq_ok.1 hadd
      cases hpure
      obtain ⟨⟨h₄, b⟩, hhf, hadd⟩ := bind_eq_ok.1 hds
      simp only [hu, Option.getD_some] at hhf hadd
      obtain ⟨e', hc, hkept, hptr, hopen, hb, ⟨fb, hfb, hbno⟩, hsame⟩ :=
        homeFile_consistent ht.consistent.newObj ha (hfile.imp_right And.right) hhf
      obtain ⟨h1, h2, h3, h4⟩ := newDsProvInfo_obj u.shape t b name
      obtain ⟨ht', hopen'⟩ := addNode_tracked ht (provenanceNewObj_kept.trans hkept) hadd hc hptr hdec (by rw [hopen]; exact hb)
        h1 h2 h3 h4 (some u) fun _ fi hfi => by
          rw [hfb] at hfi
          cases hfi
          rw [hbno]
          exact hu
      refine ⟨e', fileDsAccessed_tracked ht' (by rw [hopen', hopen]; exact ha) hacc, rfl, ?_⟩
      rintro ⟨fi, t', hfi, hu'⟩
      rw [hu] at hu'
      cases hu'
      exact hsame ⟨fi, hfi, rfl⟩
    · rw [addTargetNode_eq hk] at hadd
      refine ⟨e, (addNode_tracked ht provenanceNewObj_kept hadd ht.consistent.newObj rfl hdec ha rfl rfl rfl rfl (some u) ?_).1, rfl,
        fun _ => rfl⟩
      intro hattr fi hfi
      obtain ⟨no, t, hu, ⟨fi', hfi', hno⟩ | ⟨hds, _⟩⟩ := hhome.info hattr
      · have hsame : h.files a = some fi := hfi
        rw [hfi'] at hsame
        cases hsame
        simp [hu, hno]
      · exact absurd hds hk

/-! ## Closing -/

theorem releaseFile_consistent {L : Ledger} {a : Addr} (hc : Consistent h (L.addFile a))
    (hr : releaseFile h a = .ok h') : Consistent h' L ∧ Kept h h' ∧ h'.ptr_cnt = h.ptr_cnt := by
  obtain ⟨fi, hfi, hr⟩ := bind_eq_ok.1 hr
  obtain ⟨⟨h₁, m⟩, hrm, hpure⟩ := bind_eq_ok.1 hr
  cases hpure
  refine ⟨?_, rmFileNode_kept hrm, rmFileNode_ptr hrm⟩
  by_cases hno : fi.file_no = 0
  · rw [hno, rmFileNode_zero] at hrm
    cases hrm
  · obtain ⟨h₂, m₂, hrm₂, hc', _⟩ := rmFileNode_spec hc (file_eq_ok.1 hfi) hno
    rw [hrm] at hrm₂
    cases hrm₂
    exact hc'

theorem rmNode_consistent {L : Ledger} {o : Addr} (hc : Consistent h (L.addObj o)) {k : ObjClass} {c : TokenCmp}
    {m : Int} (hr : rmNode k h c o = .ok (h', m)) (hdec : c.Decides)
    (hcls : ∀ info, h.objs o = some info → info.cls = k) : Consistent h' L := by
  obtain ⟨info, hinfo, _⟩ := hc.listed o (by simp [Ledger.addObj])
  rcases rmNode_spec hc hdec hinfo (hcls info hinfo) with ⟨h₁, m₁, hr₁, hc', _⟩ | ⟨_, hfault⟩
  · rw [hr] at hr₁
    cases hr₁
    exact hc'
  · rw [hr] at hfault
    cases hfault

theorem rmTargetNode_tracked (ht : Tracked h app e n) {w : ProvObj} (hw : w ∈ app.handles) {c : TokenCmp}
    (hdec : c.Decides) (hr : rmTargetNode h c w = .ok h') : Tracked (provenanceFreeObj h') (app.give w true) e n := by
  have hc := ht.consistent
  rw [App.ledger_give hw] at hc
  unfold rmTargetNode at hr
  cases hm : w.my_type with
  | file =>
    rw [hm] at hr
    rw [App.ledger_take_file hm, Ledger.addFile_plus] at hc
    obtain ⟨hc', hk, hp⟩ := releaseFile_consistent hc hr
    exact ht.give (hk.trans provenanceFreeObj_kept) hw hc'.freeObj (by rw [← hp]; rfl)
  | obj k =>
    rw [hm] at hr
    obtain ⟨⟨h₁, m⟩, hrm, hpure⟩ := bind_eq_ok.1 hr
    cases hpure
    have hf : w.my_type ≠ .file := by simp [hm]
    rw [App.ledger_take_obj hf, Ledger.addObj_plus] at hc
    refine ht.give ((rmNode_kept hrm).trans provenanceFreeObj_kept) hw (rmNode_consistent hc hrm hdec ?_).freeObj
      (by rw [← rmNode_ptr hrm]; rfl)
    intro info hinfo
    have hcls := (ht.handles w hw hf info hinfo).1
    rw [hm] at hcls
    cases hcls
    rfl

/-! ## Wrap contexts and refreshes -/

theorem takeWrapCtx_tracked (ht : Tracked h app e n) {a : Addr} (ha : a ∈ h.opened_files)
    (hr : takeWrapCtx h a = .ok h') : Tracked h' { app with ctxs := a :: app.ctxs } e n := by
  have hk : Kept h h' := refFile_kept hr
  refine ⟨?_, fun _ hw => ht.nodeOf_kept hk hw, fun _ hx => ht.hold_kept hk hx, (refFile_ptr hr).trans ht.ptr⟩
  rw [App.ledger_ctx, Ledger.addFile_plus]
  exact refFile_spec ht.consistent ha hr

theorem freeWrapCtx_tracked (ht : Tracked h app e n) {a : Addr} (ha : a ∈ app.ctxs) (hr : releaseFile h a = .ok h') :
    Tracked h' { app with ctxs := app.ctxs.erase a } e n := by
  have hc := ht.consistent
  rw [App.ledger_ctx_erase ha, Ledger.addFile_plus] at hc
  obtain ⟨hc', hk, hp⟩ := releaseFile_consistent hc hr
  exact ⟨hc', fun _ hw => ht.nodeOf_kept hk hw, fun _ hx => ht.hold_kept hk hx, hp.trans ht.ptr⟩

theorem refObj_tracked (ht : Tracked h app e n) {w : ProvObj} (hw : w ∈ app.handles) {x : Hold}
    (hr : h.refObj x.info = .ok h') (hinfo : x.info = w.generic_prov_info) (hcls : w.my_type = .obj x.cls) :
    Tracked h' { app with holds := x :: app.holds } e n := by
  have hk := refObj_kept hr
  have hf : w.my_type ≠ .file := by simp [hcls]
  have hlive : (app.ledger.plus e).objs x.info ≠ 0 := by rw [hinfo]; exact mem_live_objs hw hf
  refine ⟨?_, fun _ hw => ht.nodeOf_kept hk hw, fun y hy => ?_, (refObj_ptr hr).trans ht.ptr⟩
  · rw [App.ledger_hold, Ledger.addObj_plus]
    exact refObj_spec ht.consistent hlive hr
  · rcases List.mem_cons.1 hy with rfl | hy
    · intro info' hinfo'
      obtain ⟨info, hinfo₀, hsame, _⟩ := ht.same hk hlive hinfo'
      rw [hinfo] at hinfo₀
      have := (ht.handles w hw hf info hinfo₀).1
      rw [hcls] at this
      exact hsame.symm.trans (ObjType.obj.inj this).symm
    · exact ht.hold_kept hk hy

theorem rmHold_tracked (ht : Tracked h app e n) {x : Hold} (hx : x ∈ app.holds) {c : TokenCmp} (hdec : c.Decides)
    {m : Int} (hr : rmNode x.cls h c x.info = .ok (h', m)) :
    Tracked h' { app with holds := app.holds.erase x } e n := by
  have hk := rmNode_kept hr
  refine ⟨?_, fun _ hw => ht.nodeOf_kept hk hw, fun _ hy => ht.hold_kept hk (List.mem_of_mem_erase hy),
    (rmNode_ptr hr).trans ht.ptr⟩
  have hc := ht.consistent
  rw [App.ledger_hold_erase hx, Ledger.addObj_plus] at hc
  exact rmNode_consistent hc hr hdec (ht.holds x hx)

theorem updateDs_tracked (ht : Tracked h app e n) {o : Addr} (hlive : (app.ledger.plus e).objs o ≠ 0)
    {f : DsInfo → DsInfo} (hr : updateDs h o f = .ok h') : Tracked h' app e n := by
  obtain ⟨info, hinfo, hpure⟩ := bind_eq_ok.1 hr
  cases hpure
  have hinfo' := obj_eq_ok.1 hinfo
  obtain ⟨_, _, _, _, _, hobj⟩ := ht.consistent.home hlive hinfo'
  apply ht.keep
  · exact setObj_kept hinfo' rfl rfl rfl
  · exact ht.consistent.setObjRef hinfo' hlive rfl rfl rfl rfl (fun _ _ => rfl) hobj.pos hobj.ref
  · rfl

theorem refreshed_tracked (ht : Tracked h app e n) {x : Hold} (hx : x ∈ app.holds) {extent : Extent}
    (hr : refreshed h x extent = .ok h') : Tracked h' app e n := by
  obtain ⟨_, _, hr⟩ := bind_eq_ok.1 hr
  obtain ⟨_, _, hr⟩ := bind_eq_ok.1 hr
  split at hr
  · cases hr
  · split at hr
    · exact updateDs_tracked ht (mem_live_holds hx) hr
    · cases hr
      exact ht

end

end Provio
