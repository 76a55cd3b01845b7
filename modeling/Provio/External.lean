import Provio.Handles
/-!
# External — datasets opened through a handle of another file

On a run whose datasets are all local a file node is in `opened_files` exactly while something of it is live
(`filesLive_of_local`).  `add_dataset_node` on a dataset of another file takes references that `rm_dataset_node` never
gives back: one on the open home file, by `_search_home_file`, or the one on a dummy file that no list holds.  So opening
and closing a dataset leaves every `ref_cnt` as it was exactly when the dataset is local (`openClose_iff`).
-/
namespace Provio

section

variable {h h' : ProvHelper} {L L' : Ledger}

/-- A file node's references; none for an address without a node. -/
def ProvHelper.refCount (h : ProvHelper) (a : Addr) : Int :=
  match h.files a with
  | some fi => fi.ref_cnt
  | none    => 0

theorem refCount_of_some {a : Addr} {fi : FileInfo} (hfi : h.files a = some fi) : h.refCount a = fi.ref_cnt := by
  unfold ProvHelper.refCount; rw [hfi]

theorem refCount_congr {a : Addr} (hfi : h'.files a = h.files a) : h'.refCount a = h.refCount a := by
  unfold ProvHelper.refCount; rw [hfi]

theorem Consistent.mem_opened (hc : Consistent h L) {a : Addr} (ha : a ∈ h.opened_files) {fi : FileInfo}
    (hfi : h.files a = some fi) (k : ObjClass) (o : Addr) : o ∈ fi.opened k ↔
      L.objs o ≠ 0 ∧ ∃ info, h.objs o = some info ∧ info.file_info = a ∧ info.cls = k := by
  have hok := hc.fileOk ha hfi
  constructor
  · intro ho
    obtain ⟨info, hinfo, hobj⟩ := hok.objs k o ho
    exact ⟨hobj.pos, info, hinfo, hobj.home, hobj.cls⟩
  · rintro ⟨hlive, info, hinfo, rfl, rfl⟩
    obtain ⟨_, f, hf, _, hmem, _⟩ := hc.home hlive hinfo
    rw [hfi] at hf; cases hf
    exact hmem

theorem Consistent.same_obj (hc : Consistent h L) (hc' : Consistent h' L') (hk : Kept h h') {o : Addr}
    (hlive : L.objs o ≠ 0) (hlive' : L'.objs o ≠ 0) : ∃ info info', h.objs o = some info ∧ h'.objs o = some info' ∧
      info.cls = info'.cls ∧ info.file_info = info'.file_info ∧ info.token = info'.token := by
  obtain ⟨info, hinfo, _⟩ := hc.listed o hlive
  obtain ⟨info', hinfo', _⟩ := hc'.listed o hlive'
  have hlt : o < h.next := by
    by_contra hge
    rw [(hc.fresh o (Nat.le_of_not_lt hge)).2] at hinfo
    cases hinfo
  obtain ⟨i, hi, h1, h2, h3⟩ := hk.objs o hlt info' hinfo'
  rw [hinfo] at hi; cases hi
  exact ⟨info, info', hinfo, hinfo', h1, h2, h3⟩

theorem Consistent.nodes_eq (hc : Consistent h L) (hc' : Consistent h' L') (hk : Kept h h') (hL : L'.objs = L.objs)
    {a : Addr} (ha : a ∈ h.opened_files) (ha' : a ∈ h'.opened_files) {fi fi' : FileInfo} (hfi : h.files a = some fi)
    (hfi' : h'.files a = some fi') : fi'.nodes = fi.nodes := by
  have hperm : ∀ k, (fi'.opened k).length = (fi.opened k).length := by
    intro k
    refine List.Perm.length_eq ((List.perm_ext_iff_of_nodup ((hc'.fileOk ha' hfi').nodup k)
      ((hc.fileOk ha hfi).nodup k)).2 fun o => ?_)
    rw [hc'.mem_opened ha' hfi', hc.mem_opened ha hfi, hL]
    refine and_congr_right fun hlive => ?_
    obtain ⟨info, info', h1, h2, h3, h4, _⟩ := hc.same_obj hc' hk hlive (by rw [hL]; exact hlive)
    constructor
    · rintro ⟨i, hi, hf, hcl⟩
      rw [h2] at hi; cases hi
      exact ⟨info, h1, h4.trans hf, h3.trans hcl⟩
    · rintro ⟨i, hi, hf, hcl⟩
      rw [h1] at hi; cases hi
      exact ⟨info', h2, h4.symm.trans hf, h3.symm.trans hcl⟩
  unfold FileInfo.nodes
  rw [hperm, hperm, hperm, hperm]

theorem Consistent.still_open (hc : Consistent h L) (hc' : Consistent h' L') (hk : Kept h h') (hL : L'.objs = L.objs)
    (hLf : ∀ a, L.files a ≠ 0 → L'.files a ≠ 0) {a : Addr} (ha : a ∈ h.opened_files) : a ∈ h'.opened_files := by
  obtain ⟨fi, hfi, hok⟩ := hc.files a ha
  by_cases hz : L.files a = 0
  · obtain ⟨k, o, ho⟩ : ∃ k o, o ∈ fi.opened k := by
      by_contra hne
      have hnil : ∀ k, fi.opened k = [] := fun k => by
        by_contra hk
        obtain ⟨o, ho⟩ := List.exists_mem_of_ne_nil _ hk
        exact hne ⟨k, o, ho⟩
      have := hok.pos
      rw [hz, FileInfo.nodes_eq_zero.2 hnil] at this
      exact this rfl
    obtain ⟨hlive, info, hinfo, hhome, _⟩ := (hc.mem_opened ha hfi k o).1 ho
    obtain ⟨i, i', h1, h2, _, h4, _⟩ := hc.same_obj hc' hk hlive (by rw [hL]; exact hlive)
    rw [hinfo] at h1; cases h1
    rw [← hhome, h4]
    exact (hc'.home (by rw [hL]; exact hlive) h2).1
  · exact hc'.tracked a (hLf a hz)

def addRm (h : ProvHelper) (c : TokenCmp) (a : Addr) (token : Token) (new : ObjInfo) : Except Fault ProvHelper := do
  let (h, o) ← addNode .dataset h c a token new
  let (h, _) ← rmDatasetNode h c o
  pure h

theorem addRm_spec (hc : Consistent h L) {c : TokenCmp} (hdec : c.Decides) {a : Addr} (ha : a ∈ h.opened_files)
    {fi : FileInfo} (hfi : h.files a = some fi) (hno : fi.file_no ≠ 0) {new : ObjInfo} {token : Token}
    (hcls : new.cls = .dataset) (hhome : new.file_info = a) (hzero : new.ref_cnt = 0) (htok : new.token = token) :
    ∃ h', addRm h c a token new = .ok h' ∧ ∀ b, h'.refCount b = h.refCount b := by
  subst htok
  obtain ⟨h1, o, hr1, hc1, hopen, hframe1, info, hinfo, hcl, hf, _⟩ :=
    addNode_spec hc .dataset hdec ha hcls hhome hzero
  have hk1 := addNode_kept hr1
  have hno1 : ∀ f, h1.files info.file_info = some f → f.file_no ≠ 0 := by
    intro f hf1
    rw [hf] at hf1
    obtain ⟨g, hg, he⟩ := hk1.files a (hc.lt_next ha) f hf1
    rw [hfi] at hg; cases hg
    rw [← he]
    exact hno
  rcases rmNode_spec hc1 hdec hinfo hcl with ⟨h2, n, hr2, hc2, _, hframe2⟩ | ⟨⟨f, hf1, hz⟩, _⟩
  · refine ⟨h2, by simp only [addRm, hr1, ok_bind, rmDatasetNode, hr2]; rfl, fun b => ?_⟩
    by_cases hb : b = a
    · subst hb
      have hk := hk1.trans (rmNode_kept hr2)
      have ha2 := hc.still_open hc2 hk rfl (fun _ h => h) ha
      obtain ⟨fi2, hfi2, hok2⟩ := hc2.files b ha2
      rw [refCount_of_some hfi, refCount_of_some hfi2, hok2.ref, (hc.fileOk ha hfi).ref,
        hc.nodes_eq hc2 hk rfl ha ha2 hfi hfi2]
    · exact refCount_congr ((hframe2 b (by rw [hf]; exact hb)).trans (hframe1 b hb))
  · exact absurd hz (hno1 f hf1)

def openCloseDataset (h : ProvHelper) (c : TokenCmp) (obj_file_no : Nat) (shape : DsShape) (token : Token)
    (file_info_in : Addr) (ds_name : Option CStr) : Except Fault ProvHelper := do
  let (h, o) ← addDatasetNode h c obj_file_no shape token file_info_in ds_name
  let (h, _) ← rmDatasetNode h c o
  pure h

theorem openCloseDataset_eq (h : ProvHelper) (c : TokenCmp) (obj_file_no : Nat) (shape : DsShape) (token : Token)
    (a : Addr) (name : Option CStr) : openCloseDataset h c obj_file_no shape token a name =
      homeFile h obj_file_no a >>= fun r => addRm r.1 c r.2 token (newDsProvInfo shape token r.2 name) := by
  unfold openCloseDataset addDatasetNode addRm
  cases homeFile h obj_file_no a <;> rfl

theorem searchFile_none {no : Nat} {l : List Addr} (hl : ∀ b ∈ l, ∃ fi, h.files b = some fi ∧ fi.file_no ≠ no) :
    searchFile h no l = .ok none := by
  obtain ⟨r, hr⟩ := searchFile_progress (h := h) no (fun b hb => (hl b hb).imp fun _ hf => hf.1)
  cases r with
  | none => exact hr
  | some b =>
    obtain ⟨hb, fi, hfi, hno⟩ := searchFile_spec hr
    obtain ⟨fi', hfi', hne⟩ := hl b hb
    rw [hfi] at hfi'; cases hfi'
    exact absurd hno hne

theorem rmFileNode_absent {h : ProvHelper} {no : Nat} (hlist : h.opened_files ≠ []) (hcnt : h.opened_files_cnt ≠ 0)
    (hno : no ≠ 0) (hsearch : searchFile h no h.opened_files = .ok none) :
    rmFileNode h no = .ok (h, h.opened_files_cnt) := by
  simp only [rmFileNode, cAssert, hlist, hcnt, hno, ne_eq, not_false_eq_true, decide_true, if_true, ok_bind, hsearch]
  rfl

theorem addNode_empty {k : ObjClass} (c : TokenCmp) {a : Addr} {fi : FileInfo} (hfi : h.files a = some fi)
    (hlist : fi.opened k = []) (token : Token) (new : ObjInfo) : addNode k h c a token new =
      .ok ((h.linkObj k a fi new).setObj h.next { new with ref_cnt := new.ref_cnt + 1 }, h.next) := by
  have href : (h.linkObj k a fi new).refObj h.next =
      .ok ((h.linkObj k a fi new).setObj h.next { new with ref_cnt := new.ref_cnt + 1 }) :=
    refObj_eq_ok.2 ⟨new, by simp [ProvHelper.linkObj], rfl⟩
  simp only [addNode, file_eq_ok.2 hfi, ok_bind, hlist, findNode]
  show (h.linkObj k a fi new).refObj h.next >>= _ = _
  rw [href]
  rfl

theorem rmNode_only {k : ObjClass} {c : TokenCmp} {o : Addr} {i : ObjInfo} {fi : FileInfo} (hi : h.objs o = some i)
    (href : i.ref_cnt = 1) (hself : c.cmp i.token i.token = some 0) (hfi : h.files i.file_info = some fi)
    (hlist : fi.opened k = [o]) (hn : fi.opened_cnt k = 1) : rmNode k h c o =
      (rmFileNode (((h.setObj o { i with ref_cnt := 0 }).freeObj o).setFile i.file_info { fi with
        opened := Function.update fi.opened k []
        opened_cnt := Function.update fi.opened_cnt k 0 }) fi.file_no >>= fun r => pure (r.1, 0)) := by
  have hfile : ∀ i', (h.setObj o i').file i.file_info = .ok fi := fun i' => file_eq_ok.2 hfi
  have hfind : findNode (h.setObj o { i with ref_cnt := 0 }) c i.token c.uninit [o] = .ok (some o) := by
    simp only [findNode, ProvHelper.obj, setObj_objs, Function.update_self, ok_bind, hself, Option.getD_some, if_true]
    rfl
  have herase : [o].erase o = [] := by simp
  simp only [rmNode, obj_eq_ok.2 hi, href, ok_bind, sub_self, gt_iff_lt, lt_irrefl, if_false, hfile, hlist, hn, cAssert,
    ne_eq, List.cons_ne_nil, not_false_eq_true, decide_true, if_true, hfind, Function.update_self, herase,
    not_true_eq_false, false_or]

/-- The dummy file of an untracked home keeps the reference that the dataset's node took. -/
theorem addRm_dummy (hc : Consistent h L) {c : TokenCmp} (hdec : c.Decides) (hopen : h.opened_files ≠ []) {no : Nat}
    (hno : no ≠ 0) (habs : ∀ b ∈ h.opened_files, ∀ fi, h.files b = some fi → fi.file_no ≠ no) (name : Option CStr)
    {new : ObjInfo} {token : Token} (hhome : new.file_info = h.next) (hzero : new.ref_cnt = 0)
    (htok : new.token = token) :
    ∃ h', addRm (h.allocFile (newFileInfo name no)) c h.next token new = .ok h' ∧ h'.refCount h.next = 1 := by
  subst htok
  obtain ⟨v, hv, hvz⟩ := hdec new.token new.token
  obtain rfl := hvz.2 rfl
  have hcnt : h.opened_files_cnt ≠ 0 := by
    have := List.length_pos_of_ne_nil hopen
    rw [hc.cnt]
    omega
  generalize hd : newFileInfo name no = dummy
  have hd1 : dummy.opened .dataset = [] := by rw [← hd]; rfl
  have hd2 : dummy.opened_cnt .dataset = 0 := by rw [← hd]; rfl
  have hd3 : dummy.ref_cnt = 0 := by rw [← hd]; rfl
  have hd4 : dummy.file_no = no := by rw [← hd]; rfl
  have hdummy : (h.allocFile dummy).files h.next = some dummy := Function.update_self ..
  have hadd := addNode_empty c hdummy hd1 new.token new
  generalize hh1 : ((h.allocFile dummy).linkObj .dataset h.next dummy new).setObj (h.allocFile dummy).next
    { new with ref_cnt := new.ref_cnt + 1 } = h1 at hadd
  -- the file with the one node listed, and with the node unlinked again
  have hobj : h1.objs (h.next + 1) = some { new with ref_cnt := 1 } := by
    rw [← hh1, setObj_objs, hzero]
    exact Function.update_self ..
  obtain ⟨f1, hf1, hl1, hn1, hm1, hr1⟩ : ∃ f1, h1.files new.file_info = some f1 ∧ f1.opened .dataset = [h.next + 1] ∧
      f1.opened_cnt .dataset = 1 ∧ f1.file_no = no ∧ f1.ref_cnt = 1 := by
    refine ⟨{ dummy with
      ref_cnt := dummy.ref_cnt + 1
      opened := Function.update dummy.opened .dataset [h.next + 1]
      opened_cnt := Function.update dummy.opened_cnt .dataset 1 }, ?_, by simp, by simp, hd4, by simp [hd3]⟩
    rw [hhome, ← hh1]
    simp [ProvHelper.linkObj, ProvHelper.allocFile, hd1, hd2]
  have hrm := rmNode_only hobj rfl hv hf1 hl1 hn1
  generalize hh2 : ((h1.setObj (h.next + 1) { new with ref_cnt := 0 }).freeObj (h.next + 1)).setFile new.file_info { f1 with
    opened := Function.update f1.opened .dataset [], opened_cnt := Function.update f1.opened_cnt .dataset 0 } = h2 at hrm
  have hlist : h2.opened_files = h.opened_files := by
    rw [← hh2, ← hh1]
    simp [ProvHelper.freeObj, ProvHelper.linkObj, ProvHelper.allocFile]
  have hcnt2 : h2.opened_files_cnt = h.opened_files_cnt := by
    rw [← hh2, ← hh1]
    simp [ProvHelper.setFile, ProvHelper.setObj, ProvHelper.freeObj, ProvHelper.linkObj, ProvHelper.allocFile]
  have hsearch : searchFile h2 no h2.opened_files = .ok none := by
    refine searchFile_none fun b hb => ?_
    rw [hlist] at hb
    obtain ⟨fi, hfi, _⟩ := hc.files b hb
    have hne : b ≠ h.next := Nat.ne_of_lt (hc.lt_next hb)
    refine ⟨fi, ?_, habs b hb fi hfi⟩
    rw [← hh2, ← hh1, hhome]
    simp [ProvHelper.freeObj, ProvHelper.linkObj, ProvHelper.allocFile, hne, hfi]
  rw [hm1, rmFileNode_absent (by rw [hlist]; exact hopen) (by rw [hcnt2]; exact hcnt) hno hsearch] at hrm
  have hdel : rmDatasetNode h1 c (h.next + 1) = .ok (h2, 0) := hrm
  have hself : h2.files h.next = some { f1 with
      opened := Function.update f1.opened .dataset [], opened_cnt := Function.update f1.opened_cnt .dataset 0 } := by
    rw [← hh2, hhome]
    exact setFile_self ..
  refine ⟨h2, ?_, by rw [refCount_of_some hself]; exact hr1⟩
  have hadd' : addNode .dataset (h.allocFile dummy) c h.next new.token new = .ok (h1, h.next + 1) := hadd
  simp only [addRm, hadd', ok_bind, hdel]
  rfl

/-- **Opening and closing a dataset restores every reference count exactly when it lives in the file it is reached
through.** -/
theorem openClose_iff {s : Sys} (hs : SysOk s) {a : Addr} (ha : a ∈ s.helper.opened_files) {fi : FileInfo}
    (hfi : s.helper.files a = some fi) {c : TokenCmp} (hdec : c.Decides) {no : Nat} (hno : no ≠ 0) (shape : DsShape)
    (token : Token) (name : Option CStr) : ∃ h', openCloseDataset s.helper c no shape token a name = .ok h' ∧
      ((∀ b, h'.refCount b = s.helper.refCount b) ↔ no = fi.file_no) := by
  have hc := hs.consistent
  rw [openCloseDataset_eq]
  by_cases heq : no = fi.file_no
  · have hhome : homeFile s.helper no a = .ok (s.helper, a) := by
      simp only [homeFile, file_eq_ok.2 hfi, ok_bind, heq, ne_eq, not_true_eq_false, if_false]
      rfl
    obtain ⟨h1, h2, h3, h4⟩ := newDsProvInfo_obj shape token a name
    obtain ⟨h', hr, hsame⟩ := addRm_spec hc hdec ha hfi (hs.numbered a ha fi hfi) h1 h2 h3 h4
    exact ⟨h', by rw [hhome, ok_bind, hr], by simp [hsame, heq]⟩
  · have hcnt : ¬ s.helper.opened_files_cnt < 1 := by
      have := List.length_pos_of_mem ha
      have := hc.cnt
      omega
    obtain ⟨r, hr⟩ := searchFile_progress (h := s.helper) no (fun b hb => (hc.files b hb).imp fun _ hb => hb.1)
    have hspec := searchFile_spec hr
    cases r with
    | some b =>
      obtain ⟨hb, fb, hfb, hnb⟩ := hspec
      obtain ⟨h1, href⟩ := refFile_progress hfb
      have hc1 := refFile_spec hc hb href
      have hhome : homeFile s.helper no a = .ok (h1, b) := by
        simp only [homeFile, searchHomeFile, file_eq_ok.2 hfi, ok_bind, heq, ne_eq, not_false_eq_true, if_true, hcnt,
          if_false, hr, href]
        rfl
      obtain ⟨f, hf, rfl⟩ := refFile_eq_ok.1 href
      rw [hfb] at hf; cases hf
      obtain ⟨h1, h2, h3, h4⟩ := newDsProvInfo_obj shape token b name
      obtain ⟨h', hadd, hsame⟩ := addRm_spec hc1 hdec hb (setFile_self ..) (hs.numbered b hb fb hfb) h1 h2 h3 h4
      refine ⟨h', by rw [hhome, ok_bind, hadd], fun hall => ?_, fun h => absurd h heq⟩
      have h5 := (hsame b).symm.trans (hall b)
      rw [refCount_of_some (setFile_self ..), refCount_of_some hfb] at h5
      simp at h5
    | none =>
      have hhome : homeFile s.helper no a =
          .ok (s.helper.allocFile (newFileInfo (some (cstr "dummy")) no), s.helper.next) := by
        simp only [homeFile, searchHomeFile, file_eq_ok.2 hfi, ok_bind, heq, ne_eq, not_false_eq_true, if_true, hcnt,
          if_false, hr]
        rfl
      obtain ⟨h1, h2, h3, h4⟩ := newDsProvInfo_obj shape token s.helper.next name
      obtain ⟨h', hadd, hone⟩ := addRm_dummy hc hdec (List.ne_nil_of_mem ha) hno hspec (some (cstr "dummy")) h2 h3 h4
      refine ⟨h', by rw [hhome, ok_bind, hadd], fun hall => ?_, fun h => absurd h heq⟩
      have h5 := hall s.helper.next
      rw [hone, ProvHelper.refCount, (hc.fresh _ (Nat.le_refl _)).1] at h5
      cases h5

theorem SysOk.held_iff {s : Sys} (hs : SysOk s) (a : Addr) : a ∈ s.helper.opened_files ↔ s.Held a := by
  refine ⟨fun ha => ?_, hs.held⟩
  obtain ⟨fi, hfi, hok⟩ := hs.consistent.files a ha
  by_cases hz : s.live.files.count a + s.live.ctxs.count a = 0
  · obtain ⟨k, o, ho⟩ : ∃ k o, o ∈ fi.opened k := by
      by_contra hne
      have hnil : ∀ k, fi.opened k = [] := fun k => List.eq_nil_iff_forall_not_mem.2 fun o ho => hne ⟨k, o, ho⟩
      have := hok.pos
      rw [FileInfo.nodes_eq_zero.2 hnil] at this
      exact this hz
    obtain ⟨hlive, info, hinfo, hhome, _⟩ := (hs.consistent.mem_opened ha hfi k o).1 ho
    exact .inr (.inr ⟨o, List.count_pos_iff.1 (Nat.pos_of_ne_zero hlive), info, hinfo, hhome⟩)
  · by_cases hf : s.live.files.count a = 0
    · exact .inr (.inl (List.count_pos_iff.1 (by omega)))
    · exact .inl (List.count_pos_iff.1 (by omega))

/-- **On every run whose datasets are local, the open files are the live ones** in every state, and there opening and
closing one more dataset gives back what it took exactly when that dataset is local too. -/
theorem filesLive_of_local (ops : List TrackerOp) (hm : Along TrackerOp.Matched ops .init)
    (hl : Along TrackerOp.Local ops .init) : ∃ s, runOps ops .init = .ok s ∧
      (∀ a, a ∈ s.helper.opened_files ↔ s.Held a) ∧
      ∀ a fi, s.Held a → s.helper.files a = some fi → ∀ c : TokenCmp, c.Decides → ∀ no, no ≠ 0 → ∀ shape token name,
        ∃ h', openCloseDataset s.helper c no shape token a name = .ok h' ∧
          ((∀ b, h'.refCount b = s.helper.refCount b) ↔ no = fi.file_no) := by
  obtain ⟨s, hr, hs⟩ := runOps_ok ops sysOk_init hm hl
  exact ⟨s, hr, hs.held_iff, fun a fi ha hfi c hdec no hno shape token name =>
    openClose_iff hs (hs.held ha) hfi hdec hno shape token name⟩

end

theorem filesLive_of_local_dataset : ∃ s, runOps [.addFileNode (some (cstr "a.h5")) 1,
    .addDatasetNode exactCmp 1 ⟨4, .simple, [10], 10⟩ 96 0 (some (cstr "d")), .rmFileNode 0] .init = .ok s ∧
      ∀ a, a ∈ s.helper.opened_files ↔ s.Held a := by
  have hm : Along TrackerOp.Matched [.addFileNode (some (cstr "a.h5")) 1,
      .addDatasetNode exactCmp 1 ⟨4, .simple, [10], 10⟩ 96 0 (some (cstr "d")), .rmFileNode 0] .init := by
    refine .cons rfl (show (1 : Nat) ≠ 0 by decide) ?_
    refine .cons rfl ⟨exactCmp_decides, .inl (by decide), by decide⟩ ?_
    exact .cons rfl (show (0 : Addr) ∈ [0] by decide) trivial
  have hl : Along TrackerOp.Local [.addFileNode (some (cstr "a.h5")) 1,
      .addDatasetNode exactCmp 1 ⟨4, .simple, [10], 10⟩ 96 0 (some (cstr "d")), .rmFileNode 0] .init := by
    refine .cons rfl trivial (.cons rfl (fun fi hfi => ?_) (.cons rfl trivial trivial))
    cases hfi
    rfl
  obtain ⟨s, hr, hs, _⟩ := filesLive_of_local _ hm hl
  exact ⟨s, hr, hs⟩

/-- Files 1 and 2 are open; a dataset of file 2 is opened through file 1 and closed, then file 2 is closed: its node
stays, with one reference and nothing live on it. -/
theorem external_dataset_leaks : ∃ s, runOps [.addFileNode (some (cstr "a.h5")) 1, .addFileNode (some (cstr "b.h5")) 2,
    .addDatasetNode exactCmp 2 ⟨4, .simple, [10], 10⟩ 96 0 (some (cstr "d")), .rmNode .dataset exactCmp 2,
    .rmFileNode 1] .init = .ok s ∧ s.live = ⟨[0], [], []⟩ ∧ s.helper.opened_files = [1, 0] ∧ s.helper.refCount 1 = 1 :=
  ⟨_, rfl, rfl, rfl, rfl⟩

end Provio
