import Mathlib.Data.List.Basic
import Mathlib.Tactic.Push
import Mathlib.Tactic.Ring
import Provio.Tracker
/-!
# Consistent — the tracker's invariant, and what each of its functions does to it

A `Ledger` says how many references are out: on each file node from outside its lists (file handles and wrap
contexts), on each object node (object handles).  `Consistent h L` ties every counter of the tracker to the lists and
to the ledger.  The specifications read off a call that returned: `addFileNode_spec` and `addNode_spec` add one
reference to the ledger, `rmFileNode_spec` and `rmNode_spec` take one back.  Unlinking an object turns the file's
reference for it into an outside one (`Consistent.unlink`), which is the one `rm_file_node` then takes back.  The
`_progress` theorems say that the call returns.
-/
namespace Provio

structure Ledger where
  files : Addr → Nat
  objs  : Addr → Nat

def bump (f : Addr → Nat) (a : Addr) : Addr → Nat := Function.update f a (f a + 1)

@[simp] theorem bump_self (f : Addr → Nat) (a : Addr) : bump f a a = f a + 1 := Function.update_self ..

theorem bump_of_ne (f : Addr → Nat) {a b : Addr} (h : b ≠ a) : bump f a b = f b := Function.update_of_ne h ..

def Ledger.empty : Ledger := ⟨fun _ => 0, fun _ => 0⟩

def Ledger.addFile (L : Ledger) (a : Addr) : Ledger := { L with files := bump L.files a }

def Ledger.addObj (L : Ledger) (o : Addr) : Ledger := { L with objs := bump L.objs o }

def FileInfo.nodes (fi : FileInfo) : Nat :=
  (fi.opened .dataset).length + (fi.opened .grp).length + (fi.opened .dtype).length + (fi.opened .attr).length

structure ObjOk (L : Ledger) (k : ObjClass) (a o : Addr) (info : ObjInfo) : Prop where
  cls  : info.cls = k
  home : info.file_info = a
  ref  : info.ref_cnt = L.objs o
  pos  : L.objs o ≠ 0

structure FileOk (h : ProvHelper) (L : Ledger) (a : Addr) (fi : FileInfo) : Prop where
  ref    : fi.ref_cnt = (L.files a + fi.nodes : Nat)
  pos    : L.files a + fi.nodes ≠ 0
  cnts   : ∀ k, fi.opened_cnt k = (fi.opened k).length
  nodup  : ∀ k, (fi.opened k).Nodup
  objs   : ∀ k, ∀ o ∈ fi.opened k, ∃ info, h.objs o = some info ∧ ObjOk L k a o info
  tokens : ∀ k, ∀ o ∈ fi.opened k, ∀ o' ∈ fi.opened k, ∀ info info', h.objs o = some info → h.objs o' = some info' →
    info.token = info'.token → o = o'

/-- **The tracker's invariant**: every counter is the length of its list or the number of references out, numbers and
tokens are distinct within a list, and whatever has a reference is in its list. -/
structure Consistent (h : ProvHelper) (L : Ledger) : Prop where
  cnt     : h.opened_files_cnt = h.opened_files.length
  nodup   : h.opened_files.Nodup
  files   : ∀ a ∈ h.opened_files, ∃ fi, h.files a = some fi ∧ FileOk h L a fi
  numbers : ∀ a ∈ h.opened_files, ∀ b ∈ h.opened_files, ∀ fa fb, h.files a = some fa → h.files b = some fb →
    fa.file_no = fb.file_no → a = b
  tracked : ∀ a, L.files a ≠ 0 → a ∈ h.opened_files
  listed  : ∀ o, L.objs o ≠ 0 → ∃ info, h.objs o = some info ∧ info.file_info ∈ h.opened_files ∧
    ∃ fi, h.files info.file_info = some fi ∧ o ∈ fi.opened info.cls
  fresh   : ∀ a, h.next ≤ a → h.files a = none ∧ h.objs a = none

theorem consistent_init : Consistent .init .empty := by
  refine ⟨rfl, List.nodup_nil, ?_, ?_, ?_, ?_, fun _ _ => ⟨rfl, rfl⟩⟩
  · intro a ha; cases ha
  · intro a ha; cases ha
  · intro a ha; exact absurd rfl ha
  · intro o ho; exact absurd rfl ho

section

variable {h h' : ProvHelper} {L L' : Ledger}

@[simp] theorem setFile_files (a : Addr) (fi : FileInfo) :
    (h.setFile a fi).files = Function.update h.files a (some fi) := rfl

theorem setFile_self (h : ProvHelper) (a : Addr) (fi : FileInfo) : (h.setFile a fi).files a = some fi :=
  Function.update_self ..

@[simp] theorem setFile_objs (a : Addr) (fi : FileInfo) : (h.setFile a fi).objs = h.objs := rfl

@[simp] theorem setFile_next (a : Addr) (fi : FileInfo) : (h.setFile a fi).next = h.next := rfl

@[simp] theorem setFile_opened_files (a : Addr) (fi : FileInfo) : (h.setFile a fi).opened_files = h.opened_files := rfl

@[simp] theorem setObj_objs (o : Addr) (info : ObjInfo) :
    (h.setObj o info).objs = Function.update h.objs o (some info) := rfl

@[simp] theorem setObj_files (o : Addr) (info : ObjInfo) : (h.setObj o info).files = h.files := rfl

@[simp] theorem setObj_next (o : Addr) (info : ObjInfo) : (h.setObj o info).next = h.next := rfl

@[simp] theorem setObj_opened_files (o : Addr) (info : ObjInfo) : (h.setObj o info).opened_files = h.opened_files := rfl

theorem file_eq_ok {a : Addr} {fi : FileInfo} : h.file a = .ok fi ↔ h.files a = some fi := by
  unfold ProvHelper.file
  cases h.files a <;> simp

theorem obj_eq_ok {a : Addr} {info : ObjInfo} : h.obj a = .ok info ↔ h.objs a = some info := by
  unfold ProvHelper.obj
  cases h.objs a <;> simp

theorem refFile_eq_ok {a : Addr} :
    h.refFile a = .ok h' ↔ ∃ fi, h.files a = some fi ∧ h' = h.setFile a { fi with ref_cnt := fi.ref_cnt + 1 } := by
  simp only [ProvHelper.refFile, bind_eq_ok, file_eq_ok, pure, Except.pure, Except.ok.injEq]
  exact ⟨fun ⟨fi, h1, h2⟩ => ⟨fi, h1, h2.symm⟩, fun ⟨fi, h1, h2⟩ => ⟨fi, h1, h2.symm⟩⟩

theorem refFile_progress {a : Addr} {fi : FileInfo} (hfi : h.files a = some fi) : ∃ h', h.refFile a = .ok h' :=
  ⟨_, refFile_eq_ok.2 ⟨fi, hfi, rfl⟩⟩

theorem refObj_eq_ok {o : Addr} :
    h.refObj o = .ok h' ↔ ∃ info, h.objs o = some info ∧ h' = h.setObj o { info with ref_cnt := info.ref_cnt + 1 } := by
  simp only [ProvHelper.refObj, bind_eq_ok, obj_eq_ok, pure, Except.pure, Except.ok.injEq]
  exact ⟨fun ⟨fi, h1, h2⟩ => ⟨fi, h1, h2.symm⟩, fun ⟨fi, h1, h2⟩ => ⟨fi, h1, h2.symm⟩⟩

/-! ## The searches -/

theorem searchFile_spec {no : Nat} : ∀ {l : List Addr} {r : Option Addr}, searchFile h no l = .ok r →
    match r with
    | some a => a ∈ l ∧ ∃ fi, h.files a = some fi ∧ fi.file_no = no
    | none => ∀ a ∈ l, ∀ fi, h.files a = some fi → fi.file_no ≠ no
  | [], r, hr => by
    cases hr
    intro a ha; cases ha
  | cur :: rest, r, hr => by
    obtain ⟨fi, hfi, hr⟩ := bind_eq_ok.1 hr
    rw [file_eq_ok] at hfi
    split at hr
    · cases hr
      exact ⟨List.mem_cons_self, fi, hfi, ‹_›⟩
    · have ih := searchFile_spec hr
      cases r with
      | some a => exact ⟨List.mem_cons_of_mem _ ih.1, ih.2⟩
      | none =>
        intro a ha fa hfa
        rcases List.mem_cons.1 ha with rfl | ha
        · rw [hfi] at hfa; cases hfa; assumption
        · exact ih a ha fa hfa

theorem searchFile_progress (no : Nat) : ∀ {l : List Addr}, (∀ a ∈ l, ∃ fi, h.files a = some fi) →
    ∃ r, searchFile h no l = .ok r
  | [], _ => ⟨none, rfl⟩
  | cur :: rest, hl => by
    obtain ⟨fi, hfi⟩ := hl cur List.mem_cons_self
    obtain ⟨r, hr⟩ := searchFile_progress no (fun a ha => hl a (List.mem_cons_of_mem _ ha))
    rw [searchFile, file_eq_ok.2 hfi, ok_bind]
    split
    · exact ⟨_, rfl⟩
    · exact ⟨r, hr⟩

theorem searchFile_of_node {no : Nat} : ∀ {l : List Addr} {r : Option Addr}, searchFileNode h no l = .ok r →
    searchFile h no l = .ok r
  | [], _, hr => hr
  | cur :: rest, r, hr => by
    simp only [searchFileNode, bind_eq_ok, cAssert_eq_ok] at hr
    obtain ⟨fi, hfi, _, _, hr⟩ := hr
    rw [searchFile, hfi, ok_bind]
    split at hr
    · rw [if_pos ‹_›]; exact hr
    · rw [if_neg ‹_›]; exact searchFile_of_node hr

theorem searchFileNode_progress (no : Nat) : ∀ {l : List Addr},
    (∀ a ∈ l, ∃ fi, h.files a = some fi ∧ fi.file_no ≠ 0) → ∃ r, searchFileNode h no l = .ok r
  | [], _ => ⟨none, rfl⟩
  | cur :: rest, hl => by
    obtain ⟨fi, hfi, hno⟩ := hl cur List.mem_cons_self
    obtain ⟨r, hr⟩ := searchFileNode_progress no (fun a ha => hl a (List.mem_cons_of_mem _ ha))
    rw [searchFileNode, file_eq_ok.2 hfi, ok_bind, cAssert, if_pos (by simpa using hno), ok_bind]
    split
    · exact ⟨_, rfl⟩
    · exact ⟨r, hr⟩

/-- `H5VLtoken_cmp` succeeds and decides equality. -/
def TokenCmp.Decides (c : TokenCmp) : Prop := ∀ t t', ∃ v, c.cmp t t' = some v ∧ (v = 0 ↔ t = t')

theorem findNode_spec {c : TokenCmp} (hc : c.Decides) {token : Token} : ∀ {v : Int} {l : List Addr} {r : Option Addr},
    findNode h c token v l = .ok r →
    match r with
    | some o => o ∈ l ∧ ∃ info, h.objs o = some info ∧ info.token = token
    | none => ∀ o ∈ l, ∀ info, h.objs o = some info → info.token ≠ token
  | _, [], r, hr => by
    cases hr
    intro o ho; cases ho
  | v, cur :: rest, r, hr => by
    obtain ⟨info, hinfo, hr⟩ := bind_eq_ok.1 hr
    rw [obj_eq_ok] at hinfo
    obtain ⟨w, hw, hdec⟩ := hc info.token token
    rw [hw, Option.getD_some] at hr
    split at hr
    · cases hr
      exact ⟨List.mem_cons_self, info, hinfo, hdec.1 ‹_›⟩
    · have ih := findNode_spec hc hr
      cases r with
      | some o => exact ⟨List.mem_cons_of_mem _ ih.1, ih.2⟩
      | none =>
        intro o ho i hi
        rcases List.mem_cons.1 ho with rfl | ho
        · rw [hinfo] at hi; cases hi
          exact fun ht => absurd (hdec.2 ht) ‹_›
        · exact ih o ho i hi

theorem findNode_progress (c : TokenCmp) (token : Token) : ∀ (v : Int) {l : List Addr},
    (∀ o ∈ l, ∃ info, h.objs o = some info) → ∃ r, findNode h c token v l = .ok r
  | _, [], _ => ⟨none, rfl⟩
  | v, cur :: rest, hl => by
    obtain ⟨info, hinfo⟩ := hl cur List.mem_cons_self
    rw [findNode, obj_eq_ok.2 hinfo, ok_bind]
    split
    · exact ⟨_, rfl⟩
    · exact findNode_progress c token _ (fun o ho => hl o (List.mem_cons_of_mem _ ho))

/-! ## References on file nodes -/

/-- **A step that rewrites one file node and object nodes of that file only** keeps the invariant, if the node is right
afterwards. -/
theorem Consistent.touch (hc : Consistent h L) {a : Addr} {fi fi' : FileInfo} (hfi : h.files a = some fi)
    (hlist : h'.opened_files = h.opened_files) (hcnt : h'.opened_files_cnt = h.opened_files_cnt)
    (hfiles : h'.files = Function.update h.files a (some fi')) (hno : fi'.file_no = fi.file_no)
    (ha : a ∈ h.opened_files) (hL : ∀ b, b ≠ a → L'.files b = L.files b)
    (hobjs : ∀ o info, info.file_info ≠ a → (h'.objs o = some info ↔ h.objs o = some info))
    (hLobjs : ∀ o info, h.objs o = some info → info.file_info ≠ a → L'.objs o = L.objs o) (hok : FileOk h' L' a fi')
    (hlisted : ∀ o, L'.objs o ≠ 0 → (∀ info, h.objs o = some info → info.file_info = a) →
      ∃ info, h'.objs o = some info ∧ info.file_info = a ∧ o ∈ fi'.opened info.cls)
    (hfresh : ∀ b, h'.next ≤ b → h'.files b = none ∧ h'.objs b = none) : Consistent h' L' := by
  have hself : h'.files a = some fi' := by rw [hfiles, Function.update_self]
  have hother : ∀ b, b ≠ a → h'.files b = h.files b := fun b hb => by rw [hfiles, Function.update_of_ne hb]
  refine ⟨by rw [hcnt, hlist, hc.cnt], by rw [hlist]; exact hc.nodup, ?_, ?_, ?_, ?_, hfresh⟩
  · intro b hb
    rw [hlist] at hb
    by_cases hba : b = a
    · subst hba; exact ⟨fi', hself, hok⟩
    · obtain ⟨fb, hfb, hfok⟩ := hc.files b hb
      refine ⟨fb, by rw [hother b hba]; exact hfb, ?_⟩
      have hsame : ∀ k, ∀ o ∈ fb.opened k, ∃ info, h.objs o = some info ∧ h'.objs o = some info ∧ ObjOk L' k b o info := by
        intro k o ho
        obtain ⟨info, hinfo, hobj⟩ := hfok.objs k o ho
        have hne : info.file_info ≠ a := by rw [hobj.home]; exact hba
        have hLo := hLobjs o info hinfo hne
        exact ⟨info, hinfo, (hobjs o info hne).2 hinfo, hobj.cls, hobj.home, by rw [hLo]; exact hobj.ref,
          by rw [hLo]; exact hobj.pos⟩
      refine ⟨by rw [hL b hba]; exact hfok.ref, by rw [hL b hba]; exact hfok.pos, hfok.cnts, hfok.nodup, ?_, ?_⟩
      · intro k o ho
        obtain ⟨info, _, h1, h2⟩ := hsame k o ho
        exact ⟨info, h1, h2⟩
      · intro k o ho o' ho' info info' h1 h2 ht
        obtain ⟨i, h3, h4, _⟩ := hsame k o ho
        obtain ⟨i', h5, h6, _⟩ := hsame k o' ho'
        rw [h4] at h1; rw [h6] at h2
        cases h1; cases h2
        exact hfok.tokens k o ho o' ho' _ _ h3 h5 ht
  · intro b hb c hcm fb fc hfb hfc heq
    rw [hlist] at hb hcm
    have key : ∀ d ∈ h.opened_files, ∀ fd, h'.files d = some fd → ∃ fd', h.files d = some fd' ∧ fd'.file_no = fd.file_no := by
      intro d _ fd hfd
      by_cases hda : d = a
      · subst hda
        rw [hself] at hfd; cases hfd
        exact ⟨fi, hfi, hno.symm⟩
      · exact ⟨fd, by rw [← hother d hda]; exact hfd, rfl⟩
    obtain ⟨fb', h1, h2⟩ := key b hb fb hfb
    obtain ⟨fc', h3, h4⟩ := key c hcm fc hfc
    exact hc.numbers b hb c hcm fb' fc' h1 h3 (by rw [h2, h4, heq])
  · intro b hb
    rw [hlist]
    by_cases hba : b = a
    · subst hba; exact ha
    · exact hc.tracked b (by rw [← hL b hba]; exact hb)
  · intro o ho
    by_cases hex : ∃ info, h.objs o = some info ∧ info.file_info ≠ a
    · obtain ⟨info, hinfo, hne⟩ := hex
      rw [hLobjs o info hinfo hne] at ho
      obtain ⟨i, h1, h2, fb, h3, h4⟩ := hc.listed o ho
      rw [hinfo] at h1; cases h1
      exact ⟨info, (hobjs o info hne).2 hinfo, by rw [hlist]; exact h2, fb, by rw [hother _ hne]; exact h3, h4⟩
    · obtain ⟨info, h1, h2, h3⟩ := hlisted o ho (fun info hinfo => by
        by_contra hne; exact hex ⟨info, hinfo, hne⟩)
      exact ⟨info, h1, by rw [hlist, h2]; exact ha, fi', by rw [h2]; exact hself, h3⟩

theorem Consistent.fileOk (hc : Consistent h L) {a : Addr} (ha : a ∈ h.opened_files) {fi : FileInfo}
    (hfi : h.files a = some fi) : FileOk h L a fi := by
  obtain ⟨fi', h1, h2⟩ := hc.files a ha
  rw [hfi] at h1; cases h1
  exact h2

theorem Consistent.fresh_setFile (hc : Consistent h L) {a : Addr} {fi : FileInfo} (hfi : h.files a = some fi)
    (fi' : FileInfo) (b : Addr) (hb : h.next ≤ b) : (h.setFile a fi').files b = none ∧ h.objs b = none := by
  have hne : b ≠ a := by
    rintro rfl
    rw [(hc.fresh b hb).1] at hfi; cases hfi
  exact ⟨by rw [setFile_files, Function.update_of_ne hne]; exact (hc.fresh b hb).1, (hc.fresh b hb).2⟩

theorem Consistent.setRef (hc : Consistent h L) {a : Addr} {fi fi' : FileInfo} (ha : a ∈ h.opened_files)
    (hfi : h.files a = some fi) (hopen : fi'.opened = fi.opened) (hcnt : fi'.opened_cnt = fi.opened_cnt)
    (hno : fi'.file_no = fi.file_no) (hL : ∀ b, b ≠ a → L'.files b = L.files b) (hLo : L'.objs = L.objs)
    (hpos : L'.files a + fi.nodes ≠ 0) (href : fi'.ref_cnt = (L'.files a + fi.nodes : Nat)) :
    Consistent (h.setFile a fi') L' := by
  have hok := hc.fileOk ha hfi
  have hnodes : fi'.nodes = fi.nodes := by unfold FileInfo.nodes; rw [hopen]
  refine hc.touch hfi rfl rfl rfl hno ha hL (fun _ _ _ => Iff.rfl) (fun _ _ _ _ => by rw [hLo]) ?_ ?_ ?_
  · refine ⟨by rw [hnodes]; exact href, by rw [hnodes]; exact hpos, ?_, ?_, ?_, ?_⟩
    · rw [hcnt, hopen]; exact hok.cnts
    · rw [hopen]; exact hok.nodup
    · rw [hopen]
      intro k o ho
      obtain ⟨info, h1, h2⟩ := hok.objs k o ho
      exact ⟨info, h1, h2.cls, h2.home, by rw [hLo]; exact h2.ref, by rw [hLo]; exact h2.pos⟩
    · rw [hopen]; exact hok.tokens
  · intro o ho hhome
    rw [hLo] at ho
    obtain ⟨info, h1, h2, fb, h3, h4⟩ := hc.listed o ho
    have := hhome info h1
    subst this
    rw [hfi] at h3; cases h3
    exact ⟨info, h1, rfl, by rw [hopen]; exact h4⟩
  · exact hc.fresh_setFile hfi fi'

theorem refFile_spec (hc : Consistent h L) {a : Addr} (ha : a ∈ h.opened_files) (hr : h.refFile a = .ok h') :
    Consistent h' (L.addFile a) := by
  obtain ⟨fi, hfi, rfl⟩ := refFile_eq_ok.1 hr
  have hok := hc.fileOk ha hfi
  refine hc.setRef ha hfi rfl rfl rfl (fun b hb => bump_of_ne _ hb) rfl ?_ ?_
  · simp [Ledger.addFile]
  · simp only [Ledger.addFile, bump_self, hok.ref]
    push_cast
    ring

theorem Consistent.openFile (hc : Consistent h L) {fi : FileInfo} (hlist : h'.opened_files = h.next :: h.opened_files)
    (hcnt : h'.opened_files_cnt = h.opened_files_cnt + 1) (hfiles : h'.files = Function.update h.files h.next (some fi))
    (hobjs : h'.objs = h.objs) (hnext : h'.next = h.next + 1) (href : fi.ref_cnt = 1) (hopen : fi.opened = fun _ => [])
    (hzero : fi.opened_cnt = fun _ => 0)
    (hno : ∀ a ∈ h.opened_files, ∀ fa, h.files a = some fa → fa.file_no ≠ fi.file_no) :
    Consistent h' (L.addFile h.next) := by
  have hnew : h.next ∉ h.opened_files := by
    intro hmem
    obtain ⟨fa, hfa, _⟩ := hc.files _ hmem
    rw [(hc.fresh _ (Nat.le_refl _)).1] at hfa; cases hfa
  have hL0 : L.files h.next = 0 := by
    by_contra hne; exact hnew (hc.tracked _ hne)
  have hne : ∀ b ∈ h.opened_files, b ≠ h.next := fun b hb hbn => hnew (hbn ▸ hb)
  have hself : h'.files h.next = some fi := by rw [hfiles, Function.update_self]
  have hother : ∀ b, b ≠ h.next → h'.files b = h.files b := fun b hb => by rw [hfiles, Function.update_of_ne hb]
  have hLb : ∀ b, b ≠ h.next → (L.addFile h.next).files b = L.files b := fun b hb => bump_of_ne _ hb
  refine ⟨?_, ?_, ?_, ?_, ?_, ?_, ?_⟩
  · rw [hcnt, hlist, hc.cnt]
    simp
  · rw [hlist]
    exact List.nodup_cons.2 ⟨hnew, hc.nodup⟩
  · intro b hb
    rw [hlist] at hb
    rcases List.mem_cons.1 hb with rfl | hb
    · refine ⟨fi, hself, ?_, ?_, ?_, ?_, ?_, ?_⟩
      · simp [href, Ledger.addFile, hL0, FileInfo.nodes, hopen]
      · simp [Ledger.addFile]
      · intro k; simp [hzero, hopen]
      · intro k; simp [hopen]
      · intro k o ho; simp [hopen] at ho
      · intro k o ho; simp [hopen] at ho
    · obtain ⟨fb, hfb, hfok⟩ := hc.files b hb
      have hb' := hne b hb
      refine ⟨fb, by rw [hother b hb']; exact hfb, by rw [hLb b hb']; exact hfok.ref, by rw [hLb b hb']; exact hfok.pos,
        hfok.cnts, hfok.nodup, ?_, by rw [hobjs]; exact hfok.tokens⟩
      intro k o ho
      obtain ⟨info, h1, h2⟩ := hfok.objs k o ho
      exact ⟨info, by rw [hobjs]; exact h1, h2.cls, h2.home, h2.ref, h2.pos⟩
  · intro b hb c hcm fb fc hfb hfc heq
    rw [hlist] at hb hcm
    rcases List.mem_cons.1 hb with rfl | hb <;> rcases List.mem_cons.1 hcm with rfl | hcm
    · rfl
    · rw [hself] at hfb; cases hfb
      rw [hother c (hne c hcm)] at hfc
      exact absurd heq.symm (hno c hcm fc hfc)
    · rw [hself] at hfc; cases hfc
      rw [hother b (hne b hb)] at hfb
      exact absurd heq (hno b hb fb hfb)
    · rw [hother b (hne b hb)] at hfb
      rw [hother c (hne c hcm)] at hfc
      exact hc.numbers b hb c hcm fb fc hfb hfc heq
  · intro b hb
    rw [hlist]
    by_cases hbn : b = h.next
    · subst hbn; exact List.mem_cons_self
    · rw [hLb b hbn] at hb
      exact List.mem_cons_of_mem _ (hc.tracked b hb)
  · intro o ho
    obtain ⟨info, h1, h2, fb, h3, h4⟩ := hc.listed o ho
    exact ⟨info, by rw [hobjs]; exact h1, by rw [hlist]; exact List.mem_cons_of_mem _ h2, fb,
      by rw [hother _ (hne _ h2)]; exact h3, h4⟩
  · intro b hb
    rw [hnext] at hb
    have hfr := hc.fresh b (Nat.le_of_succ_le hb)
    exact ⟨by rw [hother b (Nat.ne_of_gt hb)]; exact hfr.1, by rw [hobjs]; exact hfr.2⟩

/-- **`add_file_node` adds one reference** to the node with that number, which is in the list afterwards. -/
theorem addFileNode_spec (hc : Consistent h L) {name : Option CStr} {no : Nat} {a : Addr}
    (hr : addFileNode h name no = .ok (h', a)) :
    Consistent h' (L.addFile a) ∧ h'.opened_files ⊆ a :: h.opened_files ∧
      ∃ fi, h'.files a = some fi ∧ fi.file_no = no := by
  simp only [addFileNode, bind_eq_ok, cAssert_eq_ok] at hr
  obtain ⟨_, _, r, hr1, hr⟩ := hr
  have hs := searchFile_spec (searchFile_of_node hr1)
  cases r with
  | some cur =>
    obtain ⟨hcur, fi, hfi, hno⟩ := hs
    simp only [bind_eq_ok] at hr
    obtain ⟨h1, hr, hpure⟩ := hr
    cases hpure
    refine ⟨refFile_spec hc hcur hr, ?_⟩
    obtain ⟨fi', hfi', rfl⟩ := refFile_eq_ok.1 hr
    rw [hfi] at hfi'; cases hfi'
    exact ⟨List.subset_cons_self .., _, Function.update_self .., hno⟩
  | none =>
    simp only [bind_eq_ok] at hr
    obtain ⟨h1, hr, hpure⟩ := hr
    cases hpure
    obtain ⟨fi, hfi, rfl⟩ := refFile_eq_ok.1 hr
    simp only [ProvHelper.allocFile, setFile_files, Function.update_self, Option.some.injEq] at hfi
    subst hfi
    refine ⟨hc.openFile rfl rfl (Function.update_idem ..) rfl rfl rfl rfl rfl hs, fun _ hb => hb, _,
      Function.update_self .., rfl⟩

theorem FileInfo.nodes_eq_zero {fi : FileInfo} : fi.nodes = 0 ↔ ∀ k, fi.opened k = [] := by
  unfold FileInfo.nodes
  constructor
  · intro hz k
    cases k <;> exact List.length_eq_zero_iff.1 (by omega)
  · intro hz
    simp [hz]

theorem Consistent.closeFile {a : Addr} (hc : Consistent h (L.addFile a)) {fi : FileInfo} (hfi : h.files a = some fi)
    (hlast : L.files a = 0) (hnodes : fi.nodes = 0) (hlist : h'.opened_files = h.opened_files.erase a)
    (hcnt : h'.opened_files_cnt = h.opened_files_cnt - 1) (hfiles : h'.files = Function.update h.files a none)
    (hobjs : h'.objs = h.objs) (hnext : h'.next = h.next) : Consistent h' L := by
  have ha : a ∈ h.opened_files := hc.tracked a (by simp [Ledger.addFile])
  have hother : ∀ b, b ≠ a → h'.files b = h.files b := fun b hb => by rw [hfiles, Function.update_of_ne hb]
  have hLb : ∀ b, b ≠ a → (L.addFile a).files b = L.files b := fun b hb => bump_of_ne _ hb
  have hmem : ∀ b, b ∈ h'.opened_files ↔ b ≠ a ∧ b ∈ h.opened_files := by
    intro b; rw [hlist]; exact hc.nodup.mem_erase_iff
  refine ⟨?_, ?_, ?_, ?_, ?_, ?_, ?_⟩
  · rw [hcnt, hlist, hc.cnt, List.length_erase_of_mem ha]
    have := List.length_pos_of_mem ha
    omega
  · rw [hlist]
    exact hc.nodup.erase a
  · intro b hb
    obtain ⟨hne, hb⟩ := (hmem b).1 hb
    obtain ⟨fb, hfb, hfok⟩ := hc.files b hb
    refine ⟨fb, by rw [hother b hne]; exact hfb, by rw [← hLb b hne]; exact hfok.ref, by rw [← hLb b hne]; exact hfok.pos,
      hfok.cnts, hfok.nodup, ?_, by rw [hobjs]; exact hfok.tokens⟩
    intro k o ho
    obtain ⟨info, h1, h2⟩ := hfok.objs k o ho
    exact ⟨info, by rw [hobjs]; exact h1, h2.cls, h2.home, h2.ref, h2.pos⟩
  · intro b hb c hcm fb fc hfb hfc heq
    rw [hother b ((hmem b).1 hb).1] at hfb
    rw [hother c ((hmem c).1 hcm).1] at hfc
    exact hc.numbers b ((hmem b).1 hb).2 c ((hmem c).1 hcm).2 fb fc hfb hfc heq
  · intro b hb
    by_cases hba : b = a
    · subst hba; exact absurd hlast hb
    · exact (hmem b).2 ⟨hba, hc.tracked b (by rw [hLb b hba]; exact hb)⟩
  · intro o ho
    obtain ⟨info, h1, h2, fb, h3, h4⟩ := hc.listed o ho
    by_cases hba : info.file_info = a
    · rw [hba, hfi] at h3; cases h3
      rw [FileInfo.nodes_eq_zero.1 hnodes] at h4
      cases h4
    · exact ⟨info, by rw [hobjs]; exact h1, (hmem _).2 ⟨hba, h2⟩, fb, by rw [hother _ hba]; exact h3, h4⟩
  · intro b hb
    rw [hnext] at hb
    have hfr := hc.fresh b hb
    refine ⟨?_, by rw [hobjs]; exact hfr.2⟩
    rw [hfiles]
    by_cases hba : b = a
    · rw [hba, Function.update_self]
    · rw [Function.update_of_ne hba]; exact hfr.1

theorem rmFileNode_zero : rmFileNode h 0 = .error .assert := by
  unfold rmFileNode cAssert
  split
  · simp only [ok_bind]
    split <;> rfl
  · rfl

theorem Consistent.searchFile_self (hc : Consistent h L) {a : Addr} (ha : a ∈ h.opened_files) {fi : FileInfo}
    (hfi : h.files a = some fi) : searchFile h fi.file_no h.opened_files = .ok (some a) := by
  obtain ⟨r, hr⟩ := searchFile_progress (h := h) fi.file_no (fun b hb => (hc.files b hb).imp fun _ hb => hb.1)
  have hs := searchFile_spec hr
  cases r with
  | none => exact absurd rfl (hs a ha fi hfi)
  | some cur =>
    obtain ⟨hcur, fc, hfc, hnc⟩ := hs
    obtain rfl := hc.numbers cur hcur a ha fc fi hfc hfi hnc
    exact hr

theorem Consistent.rmFileNode_eq (hc : Consistent h L) {a : Addr} (ha : a ∈ h.opened_files) {fi : FileInfo}
    (hfi : h.files a = some fi) (hno : fi.file_no ≠ 0) : rmFileNode h fi.file_no =
      if fi.ref_cnt - 1 = 0 then do
        cAssert (fi.opened_cnt .dataset = 0)
        cAssert (fi.opened_cnt .grp = 0)
        cAssert (fi.opened_cnt .dtype = 0)
        cAssert (fi.opened_cnt .attr = 0)
        cAssert (h.opened_files_cnt - 1 ≠ 0 ∨ h.opened_files.erase a = [])
        pure ({ h.freeFile a with
          opened_files := h.opened_files.erase a, opened_files_cnt := h.opened_files_cnt - 1 }, h.opened_files_cnt - 1)
      else pure (h.setFile a { fi with ref_cnt := fi.ref_cnt - 1 }, h.opened_files_cnt) := by
  have hne : h.opened_files ≠ [] := List.ne_nil_of_mem ha
  have hcnt : h.opened_files_cnt ≠ 0 := by
    have := List.length_pos_of_mem ha
    have := hc.cnt
    omega
  simp only [rmFileNode, cAssert, hne, hcnt, hno, hc.searchFile_self ha hfi, file_eq_ok.2 hfi, ok_bind, ne_eq,
    not_false_eq_true, decide_true, if_true]

/-- **`rm_file_node` takes one outside reference back**, and unlinks the node with the last one. -/
theorem rmFileNode_spec {a : Addr} (hc : Consistent h (L.addFile a)) {fi : FileInfo} (hfi : h.files a = some fi)
    (hno : fi.file_no ≠ 0) : ∃ h' n, rmFileNode h fi.file_no = .ok (h', n) ∧ Consistent h' L ∧
      h'.opened_files ⊆ h.opened_files ∧ ∀ b, b ≠ a → h'.files b = h.files b := by
  have ha : a ∈ h.opened_files := hc.tracked a (by simp [Ledger.addFile])
  have hok := hc.fileOk ha hfi
  have hLb : ∀ b, b ≠ a → (L.addFile a).files b = L.files b := fun b hb => bump_of_ne _ hb
  have href : fi.ref_cnt - 1 = (L.files a + fi.nodes : Nat) := by
    rw [hok.ref]
    simp only [Ledger.addFile, bump_self]
    push_cast
    ring
  rw [hc.rmFileNode_eq ha hfi hno]
  by_cases hzero : fi.ref_cnt - 1 = 0
  · have hcnts : ∀ k, fi.opened_cnt k = 0 := by
      intro k
      rw [hok.cnts k, FileInfo.nodes_eq_zero.1 (by omega) k]
      rfl
    have hlast : h.opened_files_cnt - 1 ≠ 0 ∨ h.opened_files.erase a = [] := by
      by_cases h1 : h.opened_files_cnt - 1 = 0
      · right
        rw [← List.length_eq_zero_iff, List.length_erase_of_mem ha]
        have := hc.cnt
        omega
      · exact .inl h1
    refine ⟨{ h.freeFile a with
      opened_files := h.opened_files.erase a, opened_files_cnt := h.opened_files_cnt - 1 }, h.opened_files_cnt - 1, ?_,
      hc.closeFile hfi (by omega) (by omega) rfl rfl rfl rfl rfl, List.erase_subset,
      fun b hb => Function.update_of_ne hb ..⟩
    simp only [cAssert, hzero, hcnts, hlast, ok_bind, decide_true, if_true]
    rfl
  · refine ⟨h.setFile a { fi with ref_cnt := fi.ref_cnt - 1 }, h.opened_files_cnt, by rw [if_neg hzero]; rfl,
      hc.setRef ha hfi rfl rfl rfl (fun b hb => (hLb b hb).symm) rfl ?_ href, fun _ hb => hb,
      fun b hb => Function.update_of_ne hb ..⟩
    intro hz
    rw [hz] at href
    exact hzero href

/-! ## References on object nodes -/

theorem Consistent.setObjRef (hc : Consistent h L) {o : Addr} {info info' : ObjInfo} (hinfo : h.objs o = some info)
    (hlive : L.objs o ≠ 0) (hcls : info'.cls = info.cls) (hhome : info'.file_info = info.file_info)
    (htok : info'.token = info.token) (hLf : L'.files = L.files) (hL : ∀ o', o' ≠ o → L'.objs o' = L.objs o')
    (hpos : L'.objs o ≠ 0) (href : info'.ref_cnt = L'.objs o) : Consistent (h.setObj o info') L' := by
  obtain ⟨i, h1, ha, fi, hfi, hmem⟩ := hc.listed o hlive
  rw [hinfo] at h1; cases h1
  have hok := hc.fileOk ha hfi
  have hsame : ∀ o' i', o' ≠ o → ((h.setObj o info').objs o' = some i' ↔ h.objs o' = some i') := by
    intro o' i' hne
    rw [setObj_objs, Function.update_of_ne hne]
  have hself : (h.setObj o info').objs o = some info' := by rw [setObj_objs, Function.update_self]
  have hfiles : (h.setObj o info').files = Function.update h.files info.file_info (some fi) := by
    rw [← hfi, Function.update_eq_self, setObj_files]
  refine hc.touch hfi rfl rfl hfiles rfl ha (fun b _ => by rw [hLf]) ?_ ?_ ?_ ?_ ?_
  · intro o' i' hne
    by_cases ho : o' = o
    · subst ho
      rw [hself, hinfo]
      constructor
      · intro h2; cases h2; exact absurd hhome hne
      · intro h2; cases h2; exact absurd rfl hne
    · exact hsame o' i' ho
  · intro o' i' hi' hne
    apply hL
    rintro rfl
    rw [hinfo] at hi'; cases hi'
    exact hne rfl
  · refine ⟨by rw [hLf]; exact hok.ref, by rw [hLf]; exact hok.pos, hok.cnts, hok.nodup, ?_, ?_⟩
    · intro k o' ho'
      obtain ⟨i', h1, h2⟩ := hok.objs k o' ho'
      by_cases ho : o' = o
      · subst ho
        rw [hinfo] at h1; cases h1
        exact ⟨info', hself, hcls.trans h2.cls, hhome.trans h2.home, href, hpos⟩
      · exact ⟨i', (hsame o' i' ho).2 h1, h2.cls, h2.home, by rw [hL o' ho]; exact h2.ref, by rw [hL o' ho]; exact h2.pos⟩
    · have key : ∀ o' i', (h.setObj o info').objs o' = some i' → ∃ i, h.objs o' = some i ∧ i.token = i'.token := by
        intro o' i' hi'
        by_cases ho : o' = o
        · subst ho
          rw [hself] at hi'; cases hi'
          exact ⟨info, hinfo, htok.symm⟩
        · exact ⟨i', (hsame o' i' ho).1 hi', rfl⟩
      intro k o1 ho1 o2 ho2 i1 i2 hi1 hi2 ht
      obtain ⟨j1, h3, h4⟩ := key o1 i1 hi1
      obtain ⟨j2, h5, h6⟩ := key o2 i2 hi2
      exact hok.tokens k o1 ho1 o2 ho2 j1 j2 h3 h5 (by rw [h4, h6, ht])
  · intro o' ho' hall
    by_cases ho : o' = o
    · subst ho
      exact ⟨info', hself, hhome, by rw [hcls]; exact hmem⟩
    · rw [hL o' ho] at ho'
      obtain ⟨i', h1, h2, fb, h3, h4⟩ := hc.listed o' ho'
      have heq := hall i' h1
      rw [heq, hfi] at h3; cases h3
      exact ⟨i', (hsame o' i' ho).2 h1, heq, h4⟩
  · intro b hb
    have hfr := hc.fresh b hb
    refine ⟨hfr.1, ?_⟩
    rw [setObj_objs, Function.update_of_ne]
    · exact hfr.2
    · rintro rfl
      rw [hinfo] at hfr; cases hfr.2

theorem refObj_spec (hc : Consistent h L) {o : Addr} (hlive : L.objs o ≠ 0) (hr : h.refObj o = .ok h') :
    Consistent h' (L.addObj o) := by
  obtain ⟨info, hinfo, rfl⟩ := refObj_eq_ok.1 hr
  obtain ⟨i, h1, ha, fi, hfi, hmem⟩ := hc.listed o hlive
  rw [hinfo] at h1; cases h1
  obtain ⟨i, h1, hok⟩ := (hc.fileOk ha hfi).objs _ o hmem
  rw [hinfo] at h1; cases h1
  refine hc.setObjRef hinfo hlive rfl rfl rfl rfl (fun o' ho' => bump_of_ne _ ho') ?_ ?_
  · simp [Ledger.addObj]
  · simp only [Ledger.addObj, bump_self, hok.ref]
    push_cast
    ring

theorem mem_update_cons {f : ObjClass → List Addr} {k : ObjClass} {n : Addr} {k' : ObjClass} {o : Addr} :
    o ∈ Function.update f k (n :: f k) k' ↔ (k' = k ∧ o = n) ∨ o ∈ f k' := by
  by_cases hk : k' = k
  · subst hk; simp
  · simp [hk]

theorem FileInfo.nodes_cons {fi fi' : FileInfo} {k : ObjClass} {n : Addr}
    (hopen : fi'.opened = Function.update fi.opened k (n :: fi.opened k)) : fi'.nodes = fi.nodes + 1 := by
  unfold FileInfo.nodes
  rw [hopen]
  cases k <;> simp <;> omega

theorem FileOk.nodup_update {a : Addr} {fi fi' : FileInfo} {k : ObjClass} {l : List Addr} (hok : FileOk h L a fi)
    (hopen : fi'.opened = Function.update fi.opened k l) (hl : l.Nodup) (k' : ObjClass) : (fi'.opened k').Nodup := by
  rw [hopen]
  exact (Function.forall_update_iff fi.opened (fun _ l => l.Nodup)).2 ⟨hl, fun k _ => hok.nodup k⟩ k'

theorem FileOk.cnts_update {a : Addr} {fi fi' : FileInfo} {k : ObjClass} {l : List Addr} {n : Int} (hok : FileOk h L a fi)
    (hopen : fi'.opened = Function.update fi.opened k l) (hcnts : fi'.opened_cnt = Function.update fi.opened_cnt k n)
    (hn : n = l.length) (k' : ObjClass) : fi'.opened_cnt k' = (fi'.opened k').length := by
  rw [hcnts, hopen]
  by_cases hk : k' = k
  · subst hk
    rw [Function.update_self, Function.update_self, hn]
  · rw [Function.update_of_ne hk, Function.update_of_ne hk, hok.cnts k']

theorem files_none_update {a b : Addr} {fi fi' : FileInfo} (hfi : h.files a = some fi)
    (hfiles : h'.files = Function.update h.files a (some fi')) (hb : h.files b = none) : h'.files b = none := by
  rw [hfiles, Function.update_of_ne]
  · exact hb
  · rintro rfl
    rw [hb] at hfi; cases hfi

theorem Consistent.openObj (hc : Consistent h L) {a : Addr} (ha : a ∈ h.opened_files) {fi fi' : FileInfo}
    (hfi : h.files a = some fi) {k : ObjClass} {info : ObjInfo} (hlist : h'.opened_files = h.opened_files)
    (hcnt : h'.opened_files_cnt = h.opened_files_cnt) (hfiles : h'.files = Function.update h.files a (some fi'))
    (hobjs : h'.objs = Function.update h.objs h.next (some info)) (hnext : h'.next = h.next + 1)
    (hno : fi'.file_no = fi.file_no) (hopen : fi'.opened = Function.update fi.opened k (h.next :: fi.opened k))
    (hcnts : fi'.opened_cnt = Function.update fi.opened_cnt k (fi.opened_cnt k + 1))
    (hfref : fi'.ref_cnt = fi.ref_cnt + 1) (hcls : info.cls = k) (hhome : info.file_info = a) (href : info.ref_cnt = 1)
    (hnew : ∀ o ∈ fi.opened k, ∀ i, h.objs o = some i → i.token ≠ info.token) :
    Consistent h' (L.addObj h.next) := by
  have hok := hc.fileOk ha hfi
  have hfr := hc.fresh h.next (Nat.le_refl _)
  have hL0 : L.objs h.next = 0 := by
    by_contra hne
    obtain ⟨i, hi, _⟩ := hc.listed _ hne
    rw [hfr.2] at hi; cases hi
  have hne : ∀ o i, h.objs o = some i → o ≠ h.next := by
    rintro o i hi rfl
    rw [hfr.2] at hi; cases hi
  have hLo : ∀ o, o ≠ h.next → (L.addObj h.next).objs o = L.objs o := fun o ho => bump_of_ne _ ho
  have hself : h'.objs h.next = some info := by rw [hobjs, Function.update_self]
  have hsame : ∀ o, o ≠ h.next → h'.objs o = h.objs o := fun o ho => by rw [hobjs, Function.update_of_ne ho]
  have hold : ∀ k', ∀ o ∈ fi.opened k', ∃ i, h.objs o = some i ∧ h'.objs o = some i ∧ o ≠ h.next ∧ ObjOk L k' a o i := by
    intro k' o ho
    obtain ⟨i, hi, hobj⟩ := hok.objs k' o ho
    exact ⟨i, hi, by rw [hsame o (hne o i hi)]; exact hi, hne o i hi, hobj⟩
  have hmem : ∀ k' o, o ∈ fi'.opened k' ↔ (k' = k ∧ o = h.next) ∨ o ∈ fi.opened k' := by
    intro k' o; rw [hopen]; exact mem_update_cons
  refine hc.touch hfi hlist hcnt hfiles hno ha (fun _ _ => rfl) ?_ (fun o i hi _ => hLo o (hne o i hi)) ?_ ?_ ?_
  · intro o i hi
    by_cases ho : o = h.next
    · subst ho
      rw [hself, hfr.2]
      constructor
      · intro h1; cases h1; exact absurd hhome hi
      · intro h1; cases h1
    · rw [hsame o ho]
  · refine ⟨?_, ?_, ?_, ?_, ?_, ?_⟩
    · rw [FileInfo.nodes_cons hopen, hfref, hok.ref]
      push_cast
      rfl
    · rw [FileInfo.nodes_cons hopen]
      omega
    · exact hok.cnts_update hopen hcnts (by rw [hok.cnts k, List.length_cons]; rfl)
    · refine hok.nodup_update hopen (List.nodup_cons.2 ⟨fun hin => ?_, hok.nodup k⟩)
      obtain ⟨_, _, _, h1, _⟩ := hold k _ hin
      exact h1 rfl
    · intro k' o ho
      rcases (hmem k' o).1 ho with ⟨rfl, rfl⟩ | ho
      · refine ⟨info, hself, hcls, hhome, ?_, ?_⟩
        · simp [href, Ledger.addObj, hL0]
        · simp [Ledger.addObj]
      · obtain ⟨i, _, h1, h2, h3⟩ := hold k' o ho
        exact ⟨i, h1, h3.cls, h3.home, by rw [hLo o h2]; exact h3.ref, by rw [hLo o h2]; exact h3.pos⟩
    · intro k' o ho o' ho' i i' hi hi' ht
      rcases (hmem k' o).1 ho with ⟨rfl, rfl⟩ | h1 <;> rcases (hmem k' o').1 ho' with ⟨hk, rfl⟩ | h2
      · rfl
      · obtain ⟨j, h3, h4, _⟩ := hold _ o' h2
        rw [hself] at hi; cases hi
        rw [h4] at hi'; cases hi'
        exact absurd ht.symm (hnew o' h2 _ h3)
      · obtain ⟨j, h3, h4, _⟩ := hold _ o h1
        rw [hself] at hi'; cases hi'
        rw [h4] at hi; cases hi
        rw [hk] at h1
        exact absurd ht (hnew o h1 _ h3)
      · obtain ⟨j, h3, h4, _⟩ := hold _ o h1
        obtain ⟨j', h5, h6, _⟩ := hold _ o' h2
        rw [h4] at hi; cases hi
        rw [h6] at hi'; cases hi'
        exact hok.tokens k' o h1 o' h2 _ _ h3 h5 ht
  · intro o ho hall
    by_cases hon : o = h.next
    · subst hon
      exact ⟨info, hself, hhome, (hmem _ _).2 (.inl ⟨hcls, rfl⟩)⟩
    · rw [hLo o hon] at ho
      obtain ⟨i, h1, h2, fb, h3, h4⟩ := hc.listed o ho
      have heq := hall i h1
      rw [heq, hfi] at h3; cases h3
      exact ⟨i, by rw [hsame o hon]; exact h1, heq, (hmem _ _).2 (.inr h4)⟩
  · intro b hb
    rw [hnext] at hb
    have hfb := hc.fresh b (Nat.le_of_succ_le hb)
    exact ⟨files_none_update hfi hfiles hfb.1, by rw [hsame b (Nat.ne_of_gt hb)]; exact hfb.2⟩

/-- **`add_*_node` adds one reference** to the node with that token in the list of its class, of the file it is given. -/
theorem addNode_spec (hc : Consistent h L) (k : ObjClass) {c : TokenCmp} (hdec : c.Decides) {a : Addr} {new : ObjInfo}
    (ha : a ∈ h.opened_files) (hcls : new.cls = k) (hhome : new.file_info = a) (hzero : new.ref_cnt = 0) :
    ∃ h' o, addNode k h c a new.token new = .ok (h', o) ∧ Consistent h' (L.addObj o) ∧
      h'.opened_files = h.opened_files ∧ (∀ b, b ≠ a → h'.files b = h.files b) ∧
      ∃ info, h'.objs o = some info ∧ info.cls = k ∧ info.file_info = a ∧ info.token = new.token := by
  obtain ⟨fi, hfi, hok⟩ := hc.files a ha
  obtain ⟨r, hr⟩ := findNode_progress (h := h) c new.token c.uninit
    (fun o (ho : o ∈ fi.opened k) => (hok.objs k o ho).imp fun _ hb => hb.1)
  have hs := findNode_spec hdec hr
  cases r with
  | some cur =>
    obtain ⟨hcur, info, hinfo, ht⟩ := hs
    obtain ⟨i, hi, hobj⟩ := hok.objs k cur hcur
    rw [hinfo] at hi; cases hi
    have href := refObj_eq_ok.2 ⟨info, hinfo, rfl⟩
    refine ⟨_, cur, ?_, refObj_spec hc hobj.pos href, rfl, fun _ _ => rfl, _, Function.update_self .., hobj.cls,
      hobj.home, ht⟩
    simp only [addNode, file_eq_ok.2 hfi, hr, href, ok_bind]
    rfl
  | none =>
    have href : (h.linkObj k a fi new).refObj h.next = .ok ((h.linkObj k a fi new).setObj h.next
        { new with ref_cnt := new.ref_cnt + 1 }) := refObj_eq_ok.2 ⟨new, by simp [ProvHelper.linkObj], rfl⟩
    refine ⟨(h.linkObj k a fi new).setObj h.next { new with ref_cnt := new.ref_cnt + 1 }, h.next, ?_,
      hc.openObj ha hfi rfl rfl rfl (Function.update_idem ..) rfl rfl rfl rfl rfl hcls hhome ?_ ?_, rfl,
      fun b hb => Function.update_of_ne hb .., _, Function.update_self .., hcls, hhome, rfl⟩
    · simp only [addNode, file_eq_ok.2 hfi, hr, href, ok_bind]
      rfl
    · simp [hzero]
    · intro o ho i hi
      exact hs o ho i hi

theorem FileInfo.nodes_erase {fi fi' : FileInfo} {k : ObjClass} {o : Addr} (ho : o ∈ fi.opened k)
    (hopen : fi'.opened = Function.update fi.opened k ((fi.opened k).erase o)) : fi'.nodes + 1 = fi.nodes := by
  have hlen := List.length_erase_of_mem ho
  have hpos := List.length_pos_of_mem ho
  unfold FileInfo.nodes
  rw [hopen]
  cases k <;> simp <;> omega

theorem Consistent.unlink {o : Addr} (hc : Consistent h (L.addObj o)) {a : Addr} (ha : a ∈ h.opened_files)
    {fi fi' : FileInfo} (hfi : h.files a = some fi) {k : ObjClass} (ho : o ∈ fi.opened k) (hlast : L.objs o = 0)
    (hlist : h'.opened_files = h.opened_files) (hcnt : h'.opened_files_cnt = h.opened_files_cnt)
    (hfiles : h'.files = Function.update h.files a (some fi')) (hgone : h'.objs o = none)
    (hsame : ∀ x, x ≠ o → h'.objs x = h.objs x) (hnext : h'.next = h.next) (hno : fi'.file_no = fi.file_no)
    (hopen : fi'.opened = Function.update fi.opened k ((fi.opened k).erase o))
    (hcnts : fi'.opened_cnt = Function.update fi.opened_cnt k (fi.opened_cnt k - 1)) (href : fi'.ref_cnt = fi.ref_cnt) :
    Consistent h' (L.addFile a) := by
  have hok := hc.fileOk ha hfi
  obtain ⟨io, hio, hobj⟩ := hok.objs k o ho
  have hLo : ∀ x, x ≠ o → (L.addObj o).objs x = L.objs x := fun x hx => bump_of_ne _ hx
  have hmem : ∀ k' x, x ∈ fi'.opened k' ↔ x ≠ o ∧ x ∈ fi.opened k' := by
    intro k' x
    rw [hopen]
    by_cases hk : k' = k
    · subst hk
      rw [Function.update_self]
      exact (hok.nodup k').mem_erase_iff
    · rw [Function.update_of_ne hk]
      refine ⟨fun hx => ⟨?_, hx⟩, fun hx => hx.2⟩
      rintro rfl
      obtain ⟨i, hi, hix⟩ := hok.objs k' x hx
      rw [hio] at hi; cases hi
      exact hk (hix.cls.symm.trans hobj.cls)
  have hold : ∀ k', ∀ x ∈ fi'.opened k', ∃ i, h.objs x = some i ∧ h'.objs x = some i ∧ ObjOk L k' a x i := by
    intro k' x hx
    obtain ⟨hne, hx⟩ := (hmem k' x).1 hx
    obtain ⟨i, hi, hix⟩ := hok.objs k' x hx
    exact ⟨i, hi, by rw [hsame x hne]; exact hi, hix.cls, hix.home, by rw [← hLo x hne]; exact hix.ref,
      by rw [← hLo x hne]; exact hix.pos⟩
  refine hc.touch hfi hlist hcnt hfiles hno ha (fun b hb => bump_of_ne _ hb) ?_ ?_ ?_ ?_ ?_
  · intro x i hi
    by_cases hx : x = o
    · subst hx
      rw [hgone, hio]
      constructor
      · intro h1; cases h1
      · intro h1; cases h1; exact absurd hobj.home hi
    · rw [hsame x hx]
  · intro x i hi hne
    refine (hLo x ?_).symm
    rintro rfl
    rw [hio] at hi; cases hi
    exact hne hobj.home
  · have hnodes := FileInfo.nodes_erase ho hopen
    refine ⟨?_, ?_, ?_, ?_, ?_, ?_⟩
    · rw [href, hok.ref]
      simp only [Ledger.addFile, Ledger.addObj, bump_self]
      push_cast
      omega
    · simp [Ledger.addFile]
    · have hpos := List.length_pos_of_mem ho
      refine hok.cnts_update hopen hcnts ?_
      rw [hok.cnts k, List.length_erase_of_mem ho]
      omega
    · exact hok.nodup_update hopen ((hok.nodup k).erase o)
    · intro k' x hx
      obtain ⟨i, _, h1, h2⟩ := hold k' x hx
      exact ⟨i, h1, h2.cls, h2.home, h2.ref, h2.pos⟩
    · intro k' x hx y hy i j hi hj ht
      obtain ⟨i', h1, h2, _⟩ := hold k' x hx
      obtain ⟨j', h3, h4, _⟩ := hold k' y hy
      rw [h2] at hi; cases hi
      rw [h4] at hj; cases hj
      exact hok.tokens k' x ((hmem k' x).1 hx).2 y ((hmem k' y).1 hy).2 _ _ h1 h3 ht
  · intro x hx hall
    have hne : x ≠ o := by rintro rfl; exact hx hlast
    obtain ⟨i, h1, h2, fb, h3, h4⟩ := hc.listed x (by rw [hLo x hne]; exact hx)
    have heq := hall i h1
    rw [heq, hfi] at h3; cases h3
    exact ⟨i, by rw [hsame x hne]; exact h1, heq, (hmem _ _).2 ⟨hne, h4⟩⟩
  · intro b hb
    rw [hnext] at hb
    have hfb := hc.fresh b hb
    refine ⟨files_none_update hfi hfiles hfb.1, ?_⟩
    by_cases hbo : b = o
    · rw [hbo]; exact hgone
    · rw [hsame b hbo]; exact hfb.2

/-- Where an object node with a handle is. -/
theorem Consistent.home (hc : Consistent h L) {o : Addr} (hlive : L.objs o ≠ 0) {info : ObjInfo}
    (hinfo : h.objs o = some info) : info.file_info ∈ h.opened_files ∧ ∃ fi, h.files info.file_info = some fi ∧
      FileOk h L info.file_info fi ∧ o ∈ fi.opened info.cls ∧ ObjOk L info.cls info.file_info o info := by
  obtain ⟨i, h1, ha, fi, hfi, hmem⟩ := hc.listed o hlive
  rw [hinfo] at h1; cases h1
  have hok := hc.fileOk ha hfi
  obtain ⟨i, h1, hobj⟩ := hok.objs _ o hmem
  rw [hinfo] at h1; cases h1
  exact ⟨ha, fi, hfi, hok, hmem, hobj⟩

theorem FileOk.findNode_self {a : Addr} {fi : FileInfo} (hok : FileOk h L a fi) {c : TokenCmp} (hdec : c.Decides)
    {k : ObjClass} {o : Addr} (ho : o ∈ fi.opened k) {info info' : ObjInfo} (hinfo : h.objs o = some info)
    (htok : info'.token = info.token) (v : Int) :
    findNode (h.setObj o info') c info.token v (fi.opened k) = .ok (some o) := by
  have hself : (h.setObj o info').objs o = some info' := by rw [setObj_objs, Function.update_self]
  have halive : ∀ x ∈ fi.opened k, ∃ i, (h.setObj o info').objs x = some i ∧ ∃ j, h.objs x = some j ∧ i.token = j.token := by
    intro x hx
    obtain ⟨j, hj, _⟩ := hok.objs k x hx
    by_cases hxo : x = o
    · subst hxo
      exact ⟨_, hself, info, hinfo, htok⟩
    · exact ⟨j, by rw [setObj_objs, Function.update_of_ne hxo]; exact hj, j, hj, rfl⟩
  obtain ⟨r, hr⟩ := findNode_progress c info.token v (fun x hx => (halive x hx).imp fun _ hb => hb.1)
  have hs := findNode_spec hdec hr
  cases r with
  | none => exact absurd htok (hs o ho info' hself)
  | some cur =>
    obtain ⟨hcur, ic, hic, ht⟩ := hs
    obtain ⟨i, hi, j, hj, hij⟩ := halive cur hcur
    rw [hic] at hi; cases hi
    obtain rfl := hok.tokens k cur hcur o ho _ _ hj hinfo (hij.symm.trans ht)
    exact hr

def FileInfo.unlist (fi : FileInfo) (k : ObjClass) (o : Addr) : FileInfo :=
  { fi with
    opened := Function.update fi.opened k ((fi.opened k).erase o)
    opened_cnt := Function.update fi.opened_cnt k (fi.opened_cnt k - 1) }

theorem rmNode_more {k : ObjClass} {c : TokenCmp} {o : Addr} {info : ObjInfo} (hinfo : h.objs o = some info)
    (hmore : info.ref_cnt - 1 > 0) :
    rmNode k h c o = .ok (h.setObj o { info with ref_cnt := info.ref_cnt - 1 }, info.ref_cnt - 1) := by
  simp only [rmNode, obj_eq_ok.2 hinfo, hmore, ok_bind, if_true]
  rfl

theorem setObj_freeObj (o : Addr) (info : ObjInfo) : (h.setObj o info).freeObj o = h.freeObj o := by
  simp [ProvHelper.setObj, ProvHelper.freeObj]

theorem Consistent.rmNode_last (hc : Consistent h L) {k : ObjClass} {c : TokenCmp} (hdec : c.Decides) {o : Addr}
    {info : ObjInfo} (hinfo : h.objs o = some info) (hlast : ¬ info.ref_cnt - 1 > 0) (ha : info.file_info ∈ h.opened_files)
    {fi : FileInfo} (hfi : h.files info.file_info = some fi) (ho : o ∈ fi.opened k) : rmNode k h c o =
      rmFileNode ((h.freeObj o).setFile info.file_info (fi.unlist k o)) fi.file_no >>= fun r => pure (r.1, 0) := by
  have hok := hc.fileOk ha hfi
  have hne : fi.opened k ≠ [] := List.ne_nil_of_mem ho
  have hcnt : ¬ Function.update fi.opened_cnt k (fi.opened_cnt k - 1) k = 0 ∨
      Function.update fi.opened k ((fi.opened k).erase o) k = [] := by
    simp only [Function.update_self, hok.cnts k]
    by_cases h1 : (fi.opened k).length = 1
    · right
      rw [← List.length_eq_zero_iff, List.length_erase_of_mem ho, h1]
    · have := List.length_pos_of_mem ho
      omega
  have htoken : ({ info with ref_cnt := info.ref_cnt - 1 } : ObjInfo).token = info.token := rfl
  have hr := hok.findNode_self hdec ho hinfo htoken c.uninit
  simp only [rmNode, obj_eq_ok.2 hinfo, hlast, ok_bind, if_false, ProvHelper.file, setObj_files, hfi, cAssert, ne_eq, hne,
    not_false_eq_true, decide_true, if_true, hr, hcnt, setObj_freeObj, FileInfo.unlist]

/-- **`rm_*_node` takes one reference back**, and with the last one unlinks the node and releases its file; it returns
unless it is the last one and the file's number is zero. -/
theorem rmNode_spec {o : Addr} (hc : Consistent h (L.addObj o)) {k : ObjClass} {c : TokenCmp} (hdec : c.Decides)
    {info : ObjInfo} (hinfo : h.objs o = some info) (hcls : info.cls = k) :
    (∃ h' n, rmNode k h c o = .ok (h', n) ∧ Consistent h' L ∧ h'.opened_files ⊆ h.opened_files ∧
      ∀ b, b ≠ info.file_info → h'.files b = h.files b) ∨
    (∃ fi, h.files info.file_info = some fi ∧ fi.file_no = 0) ∧ rmNode k h c o = .error .assert := by
  obtain ⟨ha, fi, hfi, _, hmem, hobj⟩ := hc.home (by simp [Ledger.addObj]) hinfo
  have href : info.ref_cnt - 1 = L.objs o := by
    rw [hobj.ref]
    simp [Ledger.addObj]
  by_cases hmore : info.ref_cnt - 1 > 0
  · exact .inl ⟨h.setObj o { info with ref_cnt := info.ref_cnt - 1 }, info.ref_cnt - 1, rmNode_more hinfo hmore,
      hc.setObjRef hinfo (by simp [Ledger.addObj]) rfl rfl rfl rfl (fun x hx => (bump_of_ne _ hx).symm) (by omega) href,
      fun _ hb => hb, fun _ _ => rfl⟩
  · rw [hcls] at hmem
    have hrun := hc.rmNode_last hdec hinfo hmore ha hfi hmem
    have hcons : Consistent ((h.freeObj o).setFile info.file_info (fi.unlist k o)) (L.addFile info.file_info) := by
      refine hc.unlink ha hfi hmem (by omega) rfl rfl rfl ?_ ?_ rfl rfl rfl rfl rfl
      · simp [ProvHelper.freeObj]
      · intro x hx
        simp [ProvHelper.freeObj, hx]
    by_cases hno : fi.file_no = 0
    · refine .inr ⟨⟨fi, hfi, hno⟩, ?_⟩
      rw [hrun, hno, rmFileNode_zero]
      rfl
    · obtain ⟨h', n, hrm, hc', hsub, hframe⟩ := rmFileNode_spec hcons (setFile_self ..) hno
      refine .inl ⟨h', 0, by rw [hrun]; exact congrArg (· >>= _) hrm, hc', hsub, fun b hb => ?_⟩
      rw [hframe b hb, setFile_files, Function.update_of_ne hb]
      rfl

theorem addFileNode_progress (hc : Consistent h L) (hno : ∀ a ∈ h.opened_files, ∀ fi, h.files a = some fi → fi.file_no ≠ 0)
    (name : Option CStr) (no : Nat) : ∃ h' a, addFileNode h name no = .ok (h', a) := by
  have hassert : h.opened_files ≠ [] ∨ h.opened_files_cnt = 0 := by
    by_cases hnil : h.opened_files = []
    · right; rw [hc.cnt, hnil]; rfl
    · exact .inl hnil
  obtain ⟨r, hr⟩ := searchFileNode_progress (h := h) no (fun a ha => by
    obtain ⟨fi, hfi, _⟩ := hc.files a ha
    exact ⟨fi, hfi, hno a ha fi hfi⟩)
  have hs := searchFile_spec (searchFile_of_node hr)
  cases r with
  | some cur =>
    obtain ⟨_, fi, hfi, _⟩ := hs
    obtain ⟨h', href⟩ := refFile_progress hfi
    refine ⟨h', cur, ?_⟩
    simp only [addFileNode, cAssert, hassert, decide_true, if_true, ok_bind, hr, href]
    rfl
  | none =>
    have hself : ({ h.allocFile (newFileInfo name no) with
        opened_files := h.next :: h.opened_files, opened_files_cnt := h.opened_files_cnt + 1 } : ProvHelper).files
        h.next = some (newFileInfo name no) := Function.update_self ..
    obtain ⟨h', href⟩ := refFile_progress hself
    refine ⟨h', h.next, ?_⟩
    simp only [addFileNode, cAssert, hassert, decide_true, if_true, ok_bind, hr, href]
    rfl

end

end Provio
