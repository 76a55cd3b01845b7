import Provio.Consistent
/-!
# Handles — runs of the tracker under live handles

What never changes in a node while it lives (`Kept`), and runs of the tracker's functions in which every release
matches an earlier take: `Live` lists the file handles, wrap contexts and object handles that are out.  On such a run no
function faults and every state is `Consistent` with the handles (`runOps_consistent`).
-/
namespace Provio

/-- **Identities are kept**: a node of `h` that is still there in `h'` has the same number, or class, file and token. -/
structure Kept (h h' : ProvHelper) : Prop where
  next  : h.next ≤ h'.next
  files : ∀ a, a < h.next → ∀ fi', h'.files a = some fi' → ∃ fi, h.files a = some fi ∧ fi.file_no = fi'.file_no
  objs  : ∀ o, o < h.next → ∀ i', h'.objs o = some i' →
    ∃ i, h.objs o = some i ∧ i.cls = i'.cls ∧ i.file_info = i'.file_info ∧ i.token = i'.token

section

variable {h h' h'' : ProvHelper}

theorem Kept.of_eq (hnext : h.next ≤ h'.next) (hfiles : h'.files = h.files) (hobjs : h'.objs = h.objs) : Kept h h' :=
  ⟨hnext, fun a _ fi hfi => ⟨fi, by rw [← hfiles]; exact hfi, rfl⟩,
    fun o _ i hi => ⟨i, by rw [← hobjs]; exact hi, rfl, rfl, rfl⟩⟩

theorem Kept.refl (h : ProvHelper) : Kept h h := .of_eq (Nat.le_refl _) rfl rfl

theorem Kept.trans (h1 : Kept h h') (h2 : Kept h' h'') : Kept h h'' := by
  refine ⟨Nat.le_trans h1.next h2.next, ?_, ?_⟩
  · intro a ha fi'' hfi''
    obtain ⟨fi', hfi', e'⟩ := h2.files a (Nat.lt_of_lt_of_le ha h1.next) fi'' hfi''
    obtain ⟨fi, hfi, e⟩ := h1.files a ha fi' hfi'
    exact ⟨fi, hfi, e.trans e'⟩
  · intro o ho i'' hi''
    obtain ⟨i', hi', e1', e2', e3'⟩ := h2.objs o (Nat.lt_of_lt_of_le ho h1.next) i'' hi''
    obtain ⟨i, hi, e1, e2, e3⟩ := h1.objs o ho i' hi'
    exact ⟨i, hi, e1.trans e1', e2.trans e2', e3.trans e3'⟩

theorem setFile_kept {a : Addr} {fi fi' : FileInfo} (hfi : h.files a = some fi) (hno : fi.file_no = fi'.file_no) :
    Kept h (h.setFile a fi') := by
  refine ⟨Nat.le_refl _, ?_, fun o _ i hi => ⟨i, hi, rfl, rfl, rfl⟩⟩
  intro b _ fb hfb
  by_cases hb : b = a
  · subst hb
    rw [setFile_self] at hfb; cases hfb
    exact ⟨fi, hfi, hno⟩
  · rw [setFile_files, Function.update_of_ne hb] at hfb
    exact ⟨fb, hfb, rfl⟩

theorem setObj_kept {o : Addr} {i i' : ObjInfo} (hi : h.objs o = some i) (hcls : i.cls = i'.cls)
    (hhome : i.file_info = i'.file_info) (htok : i.token = i'.token) : Kept h (h.setObj o i') := by
  refine ⟨Nat.le_refl _, fun a _ fi hfi => ⟨fi, hfi, rfl⟩, ?_⟩
  intro x _ ix hix
  rw [setObj_objs] at hix
  by_cases hx : x = o
  · subst hx
    rw [Function.update_self] at hix; cases hix
    exact ⟨i, hi, hcls, hhome, htok⟩
  · rw [Function.update_of_ne hx] at hix
    exact ⟨ix, hix, rfl, rfl, rfl⟩

theorem freeFile_kept (a : Addr) : Kept h (h.freeFile a) := by
  refine ⟨Nat.le_refl _, ?_, fun o _ i hi => ⟨i, hi, rfl, rfl, rfl⟩⟩
  intro b _ fb hfb
  refine ⟨fb, ?_, rfl⟩
  by_cases hb : b = a
  · subst hb
    simp [ProvHelper.freeFile] at hfb
  · simpa [ProvHelper.freeFile, hb] using hfb

theorem freeObj_kept (o : Addr) : Kept h (h.freeObj o) := by
  refine ⟨Nat.le_refl _, fun a _ fi hfi => ⟨fi, hfi, rfl⟩, ?_⟩
  intro x _ ix hix
  refine ⟨ix, ?_, rfl, rfl, rfl⟩
  by_cases hx : x = o
  · subst hx
    simp [ProvHelper.freeObj] at hix
  · simpa [ProvHelper.freeObj, hx] using hix

theorem allocFile_kept (fi : FileInfo) : Kept h (h.allocFile fi) := by
  refine ⟨Nat.le_succ _, ?_, fun o _ i hi => ⟨i, hi, rfl, rfl, rfl⟩⟩
  intro b hb fb hfb
  exact ⟨fb, by simpa [ProvHelper.allocFile, Nat.ne_of_lt hb] using hfb, rfl⟩

theorem linkObj_kept {k : ObjClass} {a : Addr} {fi : FileInfo} (info : ObjInfo) (hfi : h.files a = some fi) :
    Kept h (h.linkObj k a fi info) := by
  refine ⟨Nat.le_succ _, ?_, ?_⟩
  · intro b _ fb hfb
    by_cases hb : b = a
    · subst hb
      simp only [ProvHelper.linkObj, setFile_files, Function.update_self, Option.some.injEq] at hfb
      subst hfb
      exact ⟨fi, hfi, rfl⟩
    · exact ⟨fb, by simpa [ProvHelper.linkObj, hb] using hfb, rfl⟩
  · intro o ho i hi
    exact ⟨i, by simpa [ProvHelper.linkObj, Nat.ne_of_lt ho] using hi, rfl, rfl, rfl⟩

theorem refFile_kept {a : Addr} (hr : h.refFile a = .ok h') : Kept h h' := by
  obtain ⟨fi, hfi, rfl⟩ := refFile_eq_ok.1 hr
  exact setFile_kept hfi rfl

theorem refObj_kept {o : Addr} (hr : h.refObj o = .ok h') : Kept h h' := by
  obtain ⟨i, hi, rfl⟩ := refObj_eq_ok.1 hr
  exact setObj_kept hi rfl rfl rfl

theorem addFileNode_kept {name : Option CStr} {no : Nat} {a : Addr} (hr : addFileNode h name no = .ok (h', a)) :
    Kept h h' := by
  simp only [addFileNode, bind_eq_ok, cAssert_eq_ok] at hr
  obtain ⟨_, _, r, _, hr⟩ := hr
  cases r with
  | some cur =>
    obtain ⟨h1, href, hpure⟩ := bind_eq_ok.1 hr
    cases hpure
    exact refFile_kept href
  | none =>
    obtain ⟨h1, href, hpure⟩ := bind_eq_ok.1 hr
    cases hpure
    refine ((allocFile_kept (newFileInfo name no)).trans ?_).trans (refFile_kept href)
    exact .of_eq (Nat.le_refl _) rfl rfl

theorem rmFileNode_kept {no : Nat} {n : Int} (hr : rmFileNode h no = .ok (h', n)) : Kept h h' := by
  simp only [rmFileNode, bind_eq_ok, cAssert_eq_ok] at hr
  obtain ⟨_, _, _, _, _, _, r, _, hr⟩ := hr
  cases r with
  | none => cases hr; exact .refl _
  | some cur =>
    simp only [bind_eq_ok, file_eq_ok] at hr
    obtain ⟨fi, hfi, hr⟩ := hr
    split at hr
    · simp only [bind_eq_ok, cAssert_eq_ok, pure, Except.pure, Except.ok.injEq, Prod.mk.injEq] at hr
      obtain ⟨_, _, _, _, _, _, _, _, _, _, rfl, _⟩ := hr
      exact (freeFile_kept cur).trans (.of_eq (Nat.le_refl _) rfl rfl)
    · cases hr
      exact setFile_kept hfi rfl

theorem addNode_kept {k : ObjClass} {c : TokenCmp} {a o : Addr} {token : Token} {new : ObjInfo}
    (hr : addNode k h c a token new = .ok (h', o)) : Kept h h' := by
  simp only [addNode, bind_eq_ok, file_eq_ok] at hr
  obtain ⟨fi, hfi, r, _, hr⟩ := hr
  cases r with
  | some cur =>
    obtain ⟨h1, href, hpure⟩ := bind_eq_ok.1 hr
    cases hpure
    exact refObj_kept href
  | none =>
    obtain ⟨h1, href, hpure⟩ := bind_eq_ok.1 hr
    cases hpure
    exact (linkObj_kept new hfi).trans (refObj_kept href)

theorem rmNode_kept {k : ObjClass} {c : TokenCmp} {o : Addr} {n : Int} (hr : rmNode k h c o = .ok (h', n)) :
    Kept h h' := by
  simp only [rmNode, bind_eq_ok, obj_eq_ok] at hr
  obtain ⟨info, hinfo, hr⟩ := hr
  have h1 : Kept h (h.setObj o { info with ref_cnt := info.ref_cnt - 1 }) := setObj_kept hinfo rfl rfl rfl
  split at hr
  · cases hr; exact h1
  · simp only [bind_eq_ok, file_eq_ok, cAssert_eq_ok] at hr
    obtain ⟨fi, hfi, _, _, r, _, hr⟩ := hr
    cases r with
    | none => cases hr; exact h1
    | some cur =>
      simp only [bind_eq_ok, cAssert_eq_ok] at hr
      obtain ⟨_, _, ⟨h2, n'⟩, hrm, hpure⟩ := hr
      cases hpure
      refine Kept.trans ?_ (rmFileNode_kept hrm)
      refine (h1.trans (freeObj_kept cur)).trans ?_
      exact setFile_kept hfi rfl

end

/-! ## Live handles -/

/-- The references that are out: for each handle or wrap context the node it points to. -/
structure Live where
  files : List Addr
  ctxs  : List Addr
  objs  : List Addr
deriving DecidableEq

def Live.ledger (l : Live) : Ledger := ⟨fun a => l.files.count a + l.ctxs.count a, fun o => l.objs.count o⟩

structure Sys where
  helper : ProvHelper
  live   : Live

def Sys.init : Sys := ⟨.init, ⟨[], [], []⟩⟩

/-- The file of a live handle or wrap context. -/
def Sys.Held (s : Sys) (a : Addr) : Prop :=
  a ∈ s.live.files ∨ a ∈ s.live.ctxs ∨ ∃ o ∈ s.live.objs, ∃ info, s.helper.objs o = some info ∧ info.file_info = a

inductive TrackerOp where
  | addFileNode (file_name : Option CStr) (file_no : Nat)
  | rmFileNode (file_info : Addr)
  | getWrapCtx (file_info : Addr)
  | freeWrapCtx (file_info : Addr)
  | addDatasetNode (c : TokenCmp) (obj_file_no : Nat) (shape : DsShape) (token : Token) (file_info_in : Addr)
      (ds_name : Option CStr)
  | addGrpNode (c : TokenCmp) (file_info : Addr) (obj_name : Option CStr) (token : Token)
  | addDtypeNode (c : TokenCmp) (file_info : Addr) (obj_name : Option CStr) (token : Token)
  | addAttrNode (c : TokenCmp) (file_info : Addr) (obj_name : Option CStr) (token : Token)
  | rmNode (k : ObjClass) (c : TokenCmp) (info : Addr)

def Sys.addObj (s : Sys) (r : Except Fault (ProvHelper × Addr)) : Except Fault Sys := do
  let (h, o) ← r
  pure ⟨h, { s.live with objs := o :: s.live.objs }⟩

def TrackerOp.run (s : Sys) : TrackerOp → Except Fault Sys
  | .addFileNode file_name file_no => do
    let (h, a) ← Provio.addFileNode s.helper file_name file_no
    pure ⟨h, { s.live with files := a :: s.live.files }⟩
  | .rmFileNode a => do
    let h ← releaseFile s.helper a
    pure ⟨h, { s.live with files := s.live.files.erase a }⟩
  | .getWrapCtx a => do
    let h ← takeWrapCtx s.helper a
    pure ⟨h, { s.live with ctxs := a :: s.live.ctxs }⟩
  | .freeWrapCtx a => do
    let h ← releaseFile s.helper a
    pure ⟨h, { s.live with ctxs := s.live.ctxs.erase a }⟩
  | .addDatasetNode c obj_file_no shape token a name =>
    s.addObj (Provio.addDatasetNode s.helper c obj_file_no shape token a name)
  | .addGrpNode c a name token => s.addObj (Provio.addGrpNode s.helper c a name token)
  | .addDtypeNode c a name token => s.addObj (Provio.addDtypeNode s.helper c a name token)
  | .addAttrNode c a name token => s.addObj (Provio.addAttrNode s.helper c a name token)
  | .rmNode k c o => do
    let (h, _) ← Provio.rmNode k s.helper c o
    pure ⟨h, { s.live with objs := s.live.objs.erase o }⟩

/-- Numbers are not zero, an object is added on the file of a live handle, a release matches an earlier take, and
`H5VLtoken_cmp` decides. -/
def TrackerOp.Matched (s : Sys) : TrackerOp → Prop
  | .addFileNode _ file_no => file_no ≠ 0
  | .rmFileNode a => a ∈ s.live.files
  | .getWrapCtx a => s.Held a
  | .freeWrapCtx a => a ∈ s.live.ctxs
  | .addDatasetNode c obj_file_no _ _ a _ => c.Decides ∧ s.Held a ∧ obj_file_no ≠ 0
  | .addGrpNode c a _ _ => c.Decides ∧ s.Held a
  | .addDtypeNode c a _ _ => c.Decides ∧ s.Held a
  | .addAttrNode c a _ _ => c.Decides ∧ s.Held a
  | .rmNode k c o => c.Decides ∧ o ∈ s.live.objs ∧ ∀ info, s.helper.objs o = some info → info.cls = k

/-- A dataset lives in the file it is reached through. -/
def TrackerOp.Local (s : Sys) : TrackerOp → Prop
  | .addDatasetNode _ obj_file_no _ _ a _ => ∀ fi, s.helper.files a = some fi → obj_file_no = fi.file_no
  | _ => True

def runOps : List TrackerOp → Sys → Except Fault Sys
  | [], s => .ok s
  | op :: ops, s => op.run s >>= runOps ops

def Along (P : Sys → TrackerOp → Prop) : List TrackerOp → Sys → Prop
  | [], _ => True
  | op :: ops, s => P s op ∧ ∀ s', op.run s = .ok s' → Along P ops s'

section

variable {s s' : Sys}

theorem count_cons_bump (a : Addr) (l : List Addr) : (fun x => (a :: l).count x) = bump (fun x => l.count x) a := by
  funext x
  by_cases hx : x = a
  · subst hx; simp
  · rw [bump_of_ne _ hx, List.count_cons_of_ne (Ne.symm hx)]

theorem count_erase_bump {a : Addr} {l : List Addr} (ha : a ∈ l) :
    (fun x => l.count x) = bump (fun x => (l.erase a).count x) a := by
  rw [← count_cons_bump]
  funext x
  exact (List.perm_cons_erase ha).count_eq x

theorem bump_add_left (f g : Addr → Nat) (a : Addr) : (fun x => bump f a x + g x) = bump (fun x => f x + g x) a := by
  funext x
  by_cases hx : x = a
  · subst hx; simp; omega
  · simp only [bump_of_ne _ hx]

theorem bump_add_right (f g : Addr → Nat) (a : Addr) : (fun x => f x + bump g a x) = bump (fun x => f x + g x) a := by
  funext x
  by_cases hx : x = a
  · subst hx; simp; omega
  · simp only [bump_of_ne _ hx]

theorem ledger_cons_files (l : Live) (a : Addr) : { l with files := a :: l.files }.ledger = l.ledger.addFile a := by
  have h1 := count_cons_bump a l.files
  simp only [Live.ledger, Ledger.addFile, ← bump_add_left, ← h1]

theorem ledger_cons_ctxs (l : Live) (a : Addr) : { l with ctxs := a :: l.ctxs }.ledger = l.ledger.addFile a := by
  have h1 := count_cons_bump a l.ctxs
  simp only [Live.ledger, Ledger.addFile, ← bump_add_right, ← h1]

theorem ledger_cons_objs (l : Live) (o : Addr) : { l with objs := o :: l.objs }.ledger = l.ledger.addObj o := by
  simp only [Live.ledger, Ledger.addObj, count_cons_bump o l.objs]

theorem ledger_erase_files {l : Live} {a : Addr} (ha : a ∈ l.files) :
    l.ledger = { l with files := l.files.erase a }.ledger.addFile a := by
  have h1 := count_erase_bump ha
  simp only [Live.ledger, Ledger.addFile, ← bump_add_left, ← h1]

theorem ledger_erase_ctxs {l : Live} {a : Addr} (ha : a ∈ l.ctxs) :
    l.ledger = { l with ctxs := l.ctxs.erase a }.ledger.addFile a := by
  have h1 := count_erase_bump ha
  simp only [Live.ledger, Ledger.addFile, ← bump_add_right, ← h1]

theorem ledger_erase_objs {l : Live} {o : Addr} (ho : o ∈ l.objs) :
    l.ledger = { l with objs := l.objs.erase o }.ledger.addObj o := by
  simp only [Live.ledger, Ledger.addObj, ← count_erase_bump ho]

/-- What holds between two calls: the tracker agrees with the handles, and no open file has number zero. -/
structure SysOk (s : Sys) : Prop where
  consistent : Consistent s.helper s.live.ledger
  numbered   : ∀ a ∈ s.helper.opened_files, ∀ fi, s.helper.files a = some fi → fi.file_no ≠ 0

theorem SysOk.held (hs : SysOk s) {a : Addr} (ha : s.Held a) : a ∈ s.helper.opened_files := by
  rcases ha with ha | ha | ⟨o, ho, info, hinfo, rfl⟩
  · refine hs.consistent.tracked a ?_
    have := List.count_pos_iff.2 ha
    simp only [Live.ledger]
    omega
  · refine hs.consistent.tracked a ?_
    have := List.count_pos_iff.2 ha
    simp only [Live.ledger]
    omega
  · have := List.count_pos_iff.2 ho
    exact (hs.consistent.home (by simp only [Live.ledger]; omega) hinfo).1

theorem Consistent.lt_next {h : ProvHelper} {L : Ledger} (hc : Consistent h L) {a : Addr} (ha : a ∈ h.opened_files) :
    a < h.next := by
  obtain ⟨fi, hfi, _⟩ := hc.files a ha
  by_contra hlt
  rw [(hc.fresh a (Nat.le_of_not_lt hlt)).1] at hfi
  cases hfi

theorem SysOk.numbered_of_kept (hs : SysOk s) {h' : ProvHelper} (hk : Kept s.helper h')
    (hsub : h'.opened_files ⊆ s.helper.opened_files) :
    ∀ a ∈ h'.opened_files, ∀ fi, h'.files a = some fi → fi.file_no ≠ 0 := by
  intro a ha fi' hfi'
  obtain ⟨fi, hfi, hno⟩ := hk.files a (hs.consistent.lt_next (hsub ha)) fi' hfi'
  rw [← hno]
  exact hs.numbered a (hsub ha) fi hfi

theorem SysOk.releaseFile (hs : SysOk s) {a : Addr} {l : Live} (hl : s.live.ledger = l.ledger.addFile a) :
    ∃ h', releaseFile s.helper a = .ok h' ∧ SysOk ⟨h', l⟩ := by
  have hc := hs.consistent
  rw [hl] at hc
  have ha : a ∈ s.helper.opened_files := hc.tracked a (by simp [Ledger.addFile])
  obtain ⟨fi, hfi, _⟩ := hc.files a ha
  obtain ⟨h', n, hr, hc', hsub, _⟩ := rmFileNode_spec hc hfi (hs.numbered a ha fi hfi)
  refine ⟨h', ?_, hc', hs.numbered_of_kept (rmFileNode_kept hr) hsub⟩
  simp only [Provio.releaseFile, file_eq_ok.2 hfi, ok_bind, hr]
  rfl

theorem SysOk.addNode (hs : SysOk s) (k : ObjClass) {c : TokenCmp} (hdec : c.Decides) {a : Addr} (ha : s.Held a)
    (new : ObjInfo) {token : Token} (hcls : new.cls = k) (hhome : new.file_info = a) (hzero : new.ref_cnt = 0)
    (htok : new.token = token) : ∃ s', s.addObj (Provio.addNode k s.helper c a token new) = .ok s' ∧ SysOk s' := by
  subst htok
  obtain ⟨h', o, hr, hc', hopen, _⟩ := addNode_spec hs.consistent k hdec (hs.held ha) hcls hhome hzero
  refine ⟨⟨h', { s.live with objs := o :: s.live.objs }⟩, ?_, ?_, ?_⟩
  · rw [hr]
    rfl
  · rw [ledger_cons_objs]
    exact hc'
  · exact hs.numbered_of_kept (addNode_kept hr) (by rw [hopen]; exact fun _ hb => hb)

theorem newDsProvInfo_obj (shape : DsShape) (token : Token) (a : Addr) (name : Option CStr) :
    (newDsProvInfo shape token a name).cls = .dataset ∧ (newDsProvInfo shape token a name).file_info = a ∧
      (newDsProvInfo shape token a name).ref_cnt = 0 ∧ (newDsProvInfo shape token a name).token = token := by
  unfold newDsProvInfo
  split <;> exact ⟨rfl, rfl, rfl, rfl⟩

theorem addDatasetNode_local {h : ProvHelper} {c : TokenCmp} {a : Addr} {fi : FileInfo} (hfi : h.files a = some fi)
    (shape : DsShape) (token : Token) (name : Option CStr) :
    addDatasetNode h c fi.file_no shape token a name = addNode .dataset h c a token (newDsProvInfo shape token a name) := by
  simp [addDatasetNode, homeFile, file_eq_ok.2 hfi, pure, Except.pure]

theorem TrackerOp.run_ok (hs : SysOk s) : ∀ (op : TrackerOp), op.Matched s → op.Local s →
    ∃ s', op.run s = .ok s' ∧ SysOk s'
  | .addFileNode name no, hno, _ => by
    obtain ⟨h', a, hr⟩ := addFileNode_progress hs.consistent hs.numbered name no
    obtain ⟨hc', hsub, fi, hfi, hfno⟩ := addFileNode_spec hs.consistent hr
    refine ⟨⟨h', { s.live with files := a :: s.live.files }⟩, ?_, ?_, ?_⟩
    · rw [run, hr]
      rfl
    · rw [ledger_cons_files]
      exact hc'
    · intro b hb fb hfb
      rcases List.mem_cons.1 (hsub hb) with rfl | hb
      · rw [hfi] at hfb; cases hfb
        rw [hfno]
        exact hno
      · obtain ⟨f, hf, he⟩ := (addFileNode_kept hr).files b (hs.consistent.lt_next hb) fb hfb
        rw [← he]
        exact hs.numbered b hb f hf
  | .rmFileNode a, ha, _ => by
    obtain ⟨h', hr, hs'⟩ := hs.releaseFile (ledger_erase_files ha)
    exact ⟨_, by rw [run, hr]; rfl, hs'⟩
  | .getWrapCtx a, ha, _ => by
    have hmem := hs.held ha
    obtain ⟨fi, hfi, _⟩ := hs.consistent.files a hmem
    obtain ⟨h', hr⟩ := refFile_progress hfi
    refine ⟨⟨h', { s.live with ctxs := a :: s.live.ctxs }⟩, ?_, ?_, ?_⟩
    · rw [run, takeWrapCtx, hr]
      rfl
    · rw [ledger_cons_ctxs]
      exact refFile_spec hs.consistent hmem hr
    · obtain ⟨fi', _, rfl⟩ := refFile_eq_ok.1 hr
      exact hs.numbered_of_kept (refFile_kept hr) fun _ hb => hb
  | .freeWrapCtx a, ha, _ => by
    obtain ⟨h', hr, hs'⟩ := hs.releaseFile (ledger_erase_ctxs ha)
    exact ⟨_, by rw [run, hr]; rfl, hs'⟩
  | .addDatasetNode c no shape token a name, ⟨hdec, ha, _⟩, hno => by
    obtain ⟨fi, hfi, _⟩ := hs.consistent.files a (hs.held ha)
    obtain ⟨h1, h2, h3, h4⟩ := newDsProvInfo_obj shape token a name
    rw [run, hno fi hfi, addDatasetNode_local hfi]
    exact hs.addNode .dataset hdec ha _ h1 h2 h3 h4
  | .addGrpNode _ a name token, ⟨hdec, ha⟩, _ => hs.addNode .grp hdec ha (newGroupInfo a name token) rfl rfl rfl rfl
  | .addDtypeNode _ a name token, ⟨hdec, ha⟩, _ => hs.addNode .dtype hdec ha (newDtypeInfo a name token) rfl rfl rfl rfl
  | .addAttrNode _ a name token, ⟨hdec, ha⟩, _ => hs.addNode .attr hdec ha (newAttributeInfo a name token) rfl rfl rfl rfl
  | .rmNode k c o, ⟨hdec, ho, hcls⟩, _ => by
    have hc := hs.consistent
    rw [ledger_erase_objs ho] at hc
    obtain ⟨info, hinfo, ha, fi, hfi, _⟩ := hc.listed o (by simp [Ledger.addObj])
    rcases rmNode_spec hc hdec hinfo (hcls info hinfo) with ⟨h', n, hr, hc', hsub, _⟩ | ⟨⟨f, hf, hz⟩, _⟩
    · refine ⟨_, by rw [run, hr]; rfl, hc', ?_⟩
      exact hs.numbered_of_kept (rmNode_kept hr) hsub
    · exact absurd hz (hs.numbered _ ha f hf)

theorem runOps_ok : ∀ (ops : List TrackerOp) {s : Sys}, SysOk s → Along TrackerOp.Matched ops s → Along TrackerOp.Local ops s →
    ∃ s', runOps ops s = .ok s' ∧ SysOk s'
  | [], s, hs, _, _ => ⟨s, rfl, hs⟩
  | op :: ops, s, hs, ⟨hm, hms⟩, ⟨hl, hls⟩ => by
    obtain ⟨s1, hr, hs1⟩ := op.run_ok hs hm hl
    obtain ⟨s2, hr2, hs2⟩ := runOps_ok ops hs1 (hms s1 hr) (hls s1 hr)
    exact ⟨s2, by rw [runOps, hr, ok_bind, hr2], hs2⟩

theorem sysOk_init : SysOk .init := ⟨consistent_init, fun a ha => by cases ha⟩

/-- **Every matched run whose datasets are local returns, in a state that agrees with the live handles.** -/
theorem runOps_consistent (ops : List TrackerOp) (hm : Along TrackerOp.Matched ops .init) (hl : Along TrackerOp.Local ops .init) :
    ∃ s, runOps ops .init = .ok s ∧ Consistent s.helper s.live.ledger := by
  obtain ⟨s, hr, hs⟩ := runOps_ok ops sysOk_init hm hl
  exact ⟨s, hr, hs.consistent⟩

theorem Along.cons {P : Sys → TrackerOp → Prop} {op : TrackerOp} {ops : List TrackerOp} (hr : op.run s = .ok s')
    (hop : P s op) (hrest : Along P ops s') : Along P (op :: ops) s :=
  ⟨hop, fun s'' hr' => by rw [hr] at hr'; cases hr'; exact hrest⟩

end

def exactCmp : TokenCmp := ⟨fun t t' => some (if t = t' then 0 else 1), 0⟩

theorem exactCmp_decides : exactCmp.Decides := fun t t' => ⟨if t = t' then 0 else 1, rfl, by split <;> simp_all⟩

/-- A file closed before the group that was opened through it. -/
theorem runOps_consistent_close : ∃ s, runOps [.addFileNode (some (cstr "a.h5")) 7,
    .addGrpNode exactCmp 0 (some (cstr "g")) 96, .rmFileNode 0, .rmNode .grp exactCmp 1] .init = .ok s ∧
      Consistent s.helper s.live.ledger := by
  refine runOps_consistent _ ?_ ?_
  · refine .cons rfl (show (7 : Nat) ≠ 0 by decide) ?_
    refine .cons rfl ⟨exactCmp_decides, .inl (by decide)⟩ ?_
    refine .cons rfl (show (0 : Addr) ∈ [0] by decide) ?_
    refine .cons rfl ⟨exactCmp_decides, by decide, fun info hinfo => ?_⟩ trivial
    cases hinfo
    rfl
  · exact .cons rfl trivial (.cons rfl trivial (.cons rfl trivial (.cons rfl trivial trivial)))

end Provio
