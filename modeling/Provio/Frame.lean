import Provio.Handles
/-!
# Frame — what adding and removing an object's node leaves alone

On a file that some other handle keeps open, `add_*_node` and `rm_*_node` write one object node, one list of its file and
the file's own count (`addNode_cases`, `rmNode_cases`); everything else of the tracker is as it was (`Framed`).  An
`rm_*_node` right after the `add_*_node` whose node it is given undoes it (`nodes_framed`).
-/
namespace Provio

/-- **The tracker apart from one object node** `o`, one list of `f` and the count of `f`. -/
structure Framed (h h' : ProvHelper) (k : ObjClass) (f o : Addr) : Prop where
  ptr_cnt          : h'.ptr_cnt = h.ptr_cnt
  opened_files     : h'.opened_files = h.opened_files
  opened_files_cnt : h'.opened_files_cnt = h.opened_files_cnt
  files            : ∀ b, b ≠ f → h'.files b = h.files b
  objs             : ∀ x, x ≠ o → h'.objs x = h.objs x
  home             : ∃ fi fi', h.files f = some fi ∧ h'.files f = some fi' ∧ fi'.file_no = fi.file_no ∧
    fi'.file_name = fi.file_name ∧ fi'.ds_accessed = fi.ds_accessed ∧
    (∀ k', k' ≠ k → fi'.opened k' = fi.opened k' ∧ fi'.opened_cnt k' = fi.opened_cnt k') ∧
    (fi'.opened k).erase o = (fi.opened k).erase o

section

variable {h h' : ProvHelper} {L : Ledger} {k : ObjClass} {c : TokenCmp} {f o : Addr} {fi : FileInfo}

/-- A file node with a new object node at the head of one list. -/
def FileInfo.enlist (fi : FileInfo) (k : ObjClass) (o : Addr) : FileInfo :=
  { fi with
    ref_cnt := fi.ref_cnt + 1
    opened := Function.update fi.opened k (o :: fi.opened k)
    opened_cnt := Function.update fi.opened_cnt k (fi.opened_cnt k + 1) }

/-- **Everything `add_*_node` does**: one more reference on the node with the token, or a new node before the others. -/
theorem addNode_cases (hdec : c.Decides) {token : Token} {new : ObjInfo} (hr : addNode k h c f token new = .ok (h', o)) :
    ∃ fi, h.files f = some fi ∧
      ((o ∈ fi.opened k ∧ ∃ info, h.objs o = some info ∧ info.token = token ∧
          h' = h.setObj o { info with ref_cnt := info.ref_cnt + 1 }) ∨
        (o = h.next ∧ (∀ x ∈ fi.opened k, ∀ i, h.objs x = some i → i.token ≠ token) ∧
          h' = { (h.setObj o { new with ref_cnt := new.ref_cnt + 1 }).setFile f (fi.enlist k o) with next := h.next + 1 })) := by
  simp only [addNode, bind_eq_ok, file_eq_ok] at hr
  obtain ⟨fi, hfi, r, hr1, hr⟩ := hr
  have hs := findNode_spec hdec hr1
  refine ⟨fi, hfi, ?_⟩
  cases r with
  | some cur =>
    obtain ⟨h1, href, hpure⟩ := bind_eq_ok.1 hr
    cases hpure
    obtain ⟨hcur, info, hinfo, ht⟩ := hs
    obtain ⟨i, hi, rfl⟩ := refObj_eq_ok.1 href
    rw [hinfo] at hi; cases hi
    exact .inl ⟨hcur, info, hinfo, ht, rfl⟩
  | none =>
    obtain ⟨h1, href, hpure⟩ := bind_eq_ok.1 hr
    cases hpure
    obtain ⟨i, hi, rfl⟩ := refObj_eq_ok.1 href
    simp only [ProvHelper.linkObj, setFile_objs, setObj_objs, Function.update_self, Option.some.injEq] at hi
    subst hi
    refine .inr ⟨rfl, hs, ?_⟩
    simp only [ProvHelper.linkObj, ProvHelper.setObj, ProvHelper.setFile, Function.update_idem, FileInfo.enlist]

theorem Consistent.rmFileNode_more (hc : Consistent h L) (hf : f ∈ h.opened_files) (hfi : h.files f = some fi)
    (hno : fi.file_no ≠ 0) (hmore : fi.ref_cnt ≠ 1) :
    rmFileNode h fi.file_no = .ok (h.setFile f { fi with ref_cnt := fi.ref_cnt - 1 }, h.opened_files_cnt) := by
  rw [hc.rmFileNode_eq hf hfi hno, if_neg (by omega)]
  rfl

/-- **Everything `rm_*_node` does** where another handle keeps the file: one reference less on the node it is given, or
that node out of its list, freed, and the file's reference for it given back. -/
theorem Consistent.rmNode_cases (hc : Consistent h (L.addObj o)) (hdec : c.Decides) {info : ObjInfo}
    (hinfo : h.objs o = some info) (hfi : h.files info.file_info = some fi) (hno : fi.file_no ≠ 0)
    (hkeep : info.ref_cnt = 1 → fi.ref_cnt ≠ 1) :
    (1 < info.ref_cnt ∧ rmNode info.cls h c o =
        .ok (h.setObj o { info with ref_cnt := info.ref_cnt - 1 }, info.ref_cnt - 1)) ∨
      (info.ref_cnt = 1 ∧ o ∈ fi.opened info.cls ∧ rmNode info.cls h c o = .ok ((h.freeObj o).setFile info.file_info
        { fi.unlist info.cls o with ref_cnt := fi.ref_cnt - 1 }, 0)) := by
  obtain ⟨ha, f', hf', _, hmem, hobj⟩ := hc.home (by simp [Ledger.addObj]) hinfo
  rw [hfi] at hf'; cases hf'
  have href : info.ref_cnt - 1 = L.objs o := by
    rw [hobj.ref]
    simp [Ledger.addObj]
  by_cases hmore : info.ref_cnt - 1 > 0
  · exact .inl ⟨by omega, rmNode_more hinfo hmore⟩
  · have hone : info.ref_cnt = 1 := by omega
    have hcons : Consistent ((h.freeObj o).setFile info.file_info (fi.unlist info.cls o)) (L.addFile info.file_info) := by
      refine hc.unlink ha hfi hmem (by omega) rfl rfl rfl ?_ ?_ rfl rfl rfl rfl rfl
      · simp [ProvHelper.freeObj]
      · intro x hx
        simp [ProvHelper.freeObj, hx]
    have hrm := hcons.rmFileNode_more ha (setFile_self ..) hno (hkeep hone)
    refine .inr ⟨hone, hmem, ?_⟩
    rw [hc.rmNode_last hdec hinfo hmore ha hfi hmem]
    refine (congrArg (· >>= _) hrm).trans ?_
    simp only [ProvHelper.setFile, Function.update_idem, ok_bind]
    rfl

/-! ## Both directions keep the frame -/

theorem setObj_framed (hfi : h.files f = some fi) (info : ObjInfo) : Framed h (h.setObj o info) k f o :=
  ⟨rfl, rfl, rfl, fun _ _ => rfl, fun x hx => by rw [setObj_objs, Function.update_of_ne hx],
    fi, fi, hfi, hfi, rfl, rfl, rfl, fun _ _ => ⟨rfl, rfl⟩, rfl⟩

theorem enlist_framed (hfi : h.files f = some fi) (hnew : o ∉ fi.opened k) (info : ObjInfo) (n : Addr) :
    Framed h { (h.setObj o info).setFile f (fi.enlist k o) with next := n } k f o := by
  refine ⟨rfl, rfl, rfl, fun b hb => Function.update_of_ne hb .., fun x hx => Function.update_of_ne hx .., fi, fi.enlist k o,
    hfi, Function.update_self .., rfl, rfl, rfl, fun k' hk => ?_, ?_⟩
  · simp only [FileInfo.enlist, Function.update_of_ne hk, and_self]
  · simp only [FileInfo.enlist, Function.update_self, List.erase_cons_head, List.erase_of_not_mem hnew]

theorem unlist_framed (hfi : h.files f = some fi) (hnd : (fi.opened k).Nodup) (n : Int) :
    Framed h ((h.freeObj o).setFile f { fi.unlist k o with ref_cnt := n }) k f o := by
  refine ⟨rfl, rfl, rfl, fun b hb => Function.update_of_ne hb .., fun x hx => Function.update_of_ne hx .., fi,
    { fi.unlist k o with ref_cnt := n }, hfi, Function.update_self .., rfl, rfl, rfl, fun k' hk => ?_, ?_⟩
  · simp only [FileInfo.unlist, Function.update_of_ne hk, and_self]
  · simp only [FileInfo.unlist, Function.update_self]
    exact List.erase_of_not_mem fun hin => (hnd.mem_erase_iff.1 hin).1 rfl

/-! ## An `add_*_node` undone -/

theorem setObj_restore {info : ObjInfo} (hinfo : h.objs o = some info) (i : ObjInfo) :
    (h.setObj o i).setObj o info = h := by
  have heq : Function.update h.objs o (some info) = h.objs := Function.update_eq_self_iff.2 hinfo.symm
  simp only [ProvHelper.setObj, Function.update_idem, heq]

theorem FileInfo.enlist_unlist (fi : FileInfo) (k : ObjClass) (o : Addr) :
    { (fi.enlist k o).unlist k o with ref_cnt := (fi.enlist k o).ref_cnt - 1 } = fi := by
  simp [FileInfo.enlist, FileInfo.unlist]

theorem enlist_restore (hfi : h.files f = some fi) (hfresh : h.objs o = none) (info : ObjInfo) (n : Addr) :
    ({ (h.setObj o info).setFile f (fi.enlist k o) with next := n }.freeObj o).setFile f fi = { h with next := n } := by
  have hobjs : Function.update h.objs o none = h.objs := Function.update_eq_self_iff.2 hfresh.symm
  have hfiles : Function.update h.files f (some fi) = h.files := Function.update_eq_self_iff.2 hfi.symm
  simp only [ProvHelper.setObj, ProvHelper.setFile, ProvHelper.freeObj, Function.update_idem, hobjs, hfiles]

/-- **`rm_*_node` of the node `add_*_node` just returned** leaves the tracker as it was, but for a used address. -/
theorem Consistent.rm_of_add (hc : Consistent h L) (hdec : c.Decides) {new : ObjInfo} (hf : f ∈ h.opened_files)
    (hno : ∀ fi, h.files f = some fi → fi.file_no ≠ 0) (hcls : new.cls = k) (hhome : new.file_info = f)
    (hzero : new.ref_cnt = 0) (hr : addNode k h c f new.token new = .ok (h', o)) {c' : TokenCmp} (hdec' : c'.Decides) :
    ∃ n m, rmNode k h' c' o = .ok ({ h with next := n }, m) := by
  obtain ⟨_, _, hr', hc', _⟩ := addNode_spec hc k hdec hf hcls hhome hzero
  rw [hr] at hr'; cases hr'
  obtain ⟨fi, hfi, ⟨ho, info, hinfo, _, rfl⟩ | ⟨rfl, _, rfl⟩⟩ := addNode_cases hdec hr
  · obtain ⟨i, hi, hobj⟩ := (hc.fileOk hf hfi).objs k o ho
    rw [hinfo] at hi; cases hi
    have hlive := hobj.pos
    have href := hobj.ref
    have hback : info.ref_cnt + 1 - 1 = info.ref_cnt := by omega
    refine ⟨h.next, info.ref_cnt, (rmNode_more (Function.update_self ..) (by dsimp only; omega)).trans ?_⟩
    dsimp only
    rw [hback, setObj_restore hinfo]
  · have hpos := (hc.fileOk hf hfi).pos
    have hfref := (hc.fileOk hf hfi).ref
    have hinfo : ({ (h.setObj h.next { new with ref_cnt := new.ref_cnt + 1 }).setFile f (fi.enlist k h.next) with
        next := h.next + 1 } : ProvHelper).objs h.next = some { new with ref_cnt := new.ref_cnt + 1 } :=
      Function.update_self ..
    subst hcls hhome
    rcases hc'.rmNode_cases hdec' hinfo (setFile_self ..) (hno fi hfi) (fun _ => by
      simp only [FileInfo.enlist]
      omega) with ⟨hmore, _⟩ | ⟨_, _, hrm⟩
    · simp [hzero] at hmore
    · refine ⟨h.next + 1, 0, hrm.trans ?_⟩
      dsimp only
      rw [FileInfo.enlist_unlist, enlist_restore hfi (hc.fresh _ (Nat.le_refl _)).2]

end

/-! ## Reachable states -/

def TrackerOp.adds : TrackerOp → Option (ObjClass × Addr × Token)
  | .addDatasetNode _ _ _ token a _ => some (.dataset, a, token)
  | .addGrpNode _ a _ token         => some (.grp, a, token)
  | .addDtypeNode _ a _ token       => some (.dtype, a, token)
  | .addAttrNode _ a _ token        => some (.attr, a, token)
  | _                               => none

/-- Some handle other than one on `o` keeps a file. -/
def Sys.HeldWithout (s : Sys) (o f : Addr) : Prop := Sys.Held ⟨s.helper, { s.live with objs := s.live.objs.erase o }⟩ f

section

variable {s : Sys}

theorem SysOk.run_adds (hs : SysOk s) {op : TrackerOp} {k : ObjClass} {f : Addr} {token : Token}
    (hop : op.adds = some (k, f, token)) (hm : op.Matched s) (hl : op.Local s) : ∃ c new, c.Decides ∧ s.Held f ∧
      new.cls = k ∧ new.file_info = f ∧ new.ref_cnt = 0 ∧ new.token = token ∧
      op.run s = s.addObj (Provio.addNode k s.helper c f token new) := by
  cases op <;> cases hop
  case addDatasetNode c no shape name =>
    obtain ⟨hdec, ha, _⟩ := hm
    obtain ⟨fi, hfi, _⟩ := hs.consistent.files f (hs.held ha)
    obtain ⟨h1, h2, h3, h4⟩ := newDsProvInfo_obj shape token f name
    refine ⟨c, _, hdec, ha, h1, h2, h3, h4, ?_⟩
    rw [TrackerOp.run, hl fi hfi, addDatasetNode_local hfi]
  case addGrpNode c name => exact ⟨c, newGroupInfo f name token, hm.1, hm.2, rfl, rfl, rfl, rfl, rfl⟩
  case addDtypeNode c name => exact ⟨c, newDtypeInfo f name token, hm.1, hm.2, rfl, rfl, rfl, rfl, rfl⟩
  case addAttrNode c name => exact ⟨c, newAttributeInfo f name token, hm.1, hm.2, rfl, rfl, rfl, rfl, rfl⟩

theorem FileInfo.two_le_nodes {fi : FileInfo} {k k' : ObjClass} {o o' : Addr} (ho : o ∈ fi.opened k)
    (ho' : o' ∈ fi.opened k') (hne : o' ≠ o) : 2 ≤ fi.nodes := by
  have hopen : (fi.unlist k o).opened = Function.update fi.opened k ((fi.opened k).erase o) := rfl
  have hnodes := FileInfo.nodes_erase ho hopen
  have hpos : (fi.unlist k o).nodes ≠ 0 := by
    intro hz
    have hnil := FileInfo.nodes_eq_zero.1 hz k'
    by_cases hk : k' = k
    · subst hk
      simp only [FileInfo.unlist, Function.update_self] at hnil
      exact List.ne_nil_of_mem ((List.mem_erase_of_ne hne).2 ho') hnil
    · simp only [FileInfo.unlist, Function.update_of_ne hk] at hnil
      exact List.ne_nil_of_mem ho' hnil
  omega

/-- With another handle on its file, the last handle of an object is not the last of the file. -/
theorem SysOk.ref_ne_one (hs : SysOk s) {o : Addr} {info : ObjInfo} {fi : FileInfo} (ho : o ∈ s.live.objs)
    (hinfo : s.helper.objs o = some info) (hfi : s.helper.files info.file_info = some fi)
    (hheld : s.HeldWithout o info.file_info) (hlast : info.ref_cnt = 1) : fi.ref_cnt ≠ 1 := by
  have hcount := List.count_pos_iff.2 ho
  obtain ⟨ha, f, hf, hok, hmem, hobj⟩ := hs.consistent.home (by simp only [Live.ledger]; omega) hinfo
  rw [hfi] at hf; cases hf
  have href := hok.ref
  have hnodes : fi.nodes ≠ 0 := fun hz => by
    rw [FileInfo.nodes_eq_zero.1 hz] at hmem
    cases hmem
  rcases hheld with h1 | h1 | ⟨o', ho', i', hi', hhome⟩
  · have := List.count_pos_iff.2 h1
    simp only [Live.ledger] at href this
    omega
  · have := List.count_pos_iff.2 h1
    simp only [Live.ledger] at href this
    omega
  · have hne : o' ≠ o := by
      rintro rfl
      have h1 := List.count_pos_iff.2 ho'
      have h2 : (1 : Int) = (s.live.objs.count o' : Nat) := by rw [← hlast]; exact hobj.ref
      rw [List.count_erase_self] at h1
      omega
    have hlive' := List.count_pos_iff.2 (List.mem_of_mem_erase ho')
    obtain ⟨_, f', hf', _, hmem', _⟩ := hs.consistent.home (by simp only [Live.ledger]; omega) hi'
    rw [hhome, hfi] at hf'; cases hf'
    have := FileInfo.two_le_nodes hmem hmem' hne
    omega

/-- **The frame of the object lists.**  In a reachable state an `add_*_node` writes its own node, one list and the count
of its file; the `rm_*_node` of the node it returned undoes it.  An `rm_*_node` on a file that something else keeps takes
a reference back from the node it is given, and with the last one unlinks that node alone. -/
theorem nodes_framed (ops : List TrackerOp) {s : Sys} (hm : Along TrackerOp.Matched ops .init)
    (hl : Along TrackerOp.Local ops .init) (hr : runOps ops .init = .ok s) :
    (∀ (op : TrackerOp) k f token, op.adds = some (k, f, token) → op.Matched s → op.Local s → ∃ s' o,
      op.run s = .ok s' ∧ s'.live = { s.live with objs := o :: s.live.objs } ∧ Framed s.helper s'.helper k f o ∧
      (∃ info, s'.helper.objs o = some info ∧ info.cls = k ∧ info.file_info = f ∧ info.token = token) ∧
      ∀ c, c.Decides → ∃ n, (TrackerOp.rmNode k c o).run s' = .ok ⟨{ s.helper with next := n }, s.live⟩) ∧
    ∀ k c o info, (TrackerOp.rmNode k c o).Matched s → s.helper.objs o = some info →
      s.HeldWithout o info.file_info → ∃ s', (TrackerOp.rmNode k c o).run s = .ok s' ∧
        Framed s.helper s'.helper k info.file_info o ∧
        if 1 < info.ref_cnt then s'.helper = s.helper.setObj o { info with ref_cnt := info.ref_cnt - 1 }
        else ∃ fi, s.helper.files info.file_info = some fi ∧ o ∈ fi.opened k ∧
          s'.helper = (s.helper.freeObj o).setFile info.file_info { fi.unlist k o with ref_cnt := fi.ref_cnt - 1 } := by
  obtain ⟨s1, hr1, hs⟩ := runOps_ok ops sysOk_init hm hl
  rw [hr] at hr1; cases hr1
  have hc := hs.consistent
  refine ⟨fun op k f token hop hmatch hlocal => ?_, fun k c o info hmatch hinfo hheld => ?_⟩
  · obtain ⟨c, new, hdec, hf, hcls, hhome, hzero, rfl, hrun⟩ := hs.run_adds hop hmatch hlocal
    have hopen := hs.held hf
    obtain ⟨h', o, hadd, _, _, _, hnode⟩ := addNode_spec hc k hdec hopen hcls hhome hzero
    refine ⟨⟨h', { s.live with objs := o :: s.live.objs }⟩, o, by rw [hrun, hadd]; rfl, rfl, ?_, hnode, ?_⟩
    · obtain ⟨fi, hfi, ⟨_, info, _, _, rfl⟩ | ⟨rfl, _, rfl⟩⟩ := addNode_cases hdec hadd
      · exact setObj_framed hfi _
      · refine enlist_framed hfi (fun hin => ?_) _ _
        obtain ⟨i, hi, _⟩ := (hc.fileOk hopen hfi).objs k _ hin
        rw [(hc.fresh _ (Nat.le_refl _)).2] at hi; cases hi
    · intro c' hdec'
      obtain ⟨n, m, hrm⟩ := hc.rm_of_add hdec hopen (hs.numbered f hopen) hcls hhome hzero hadd hdec'
      refine ⟨n, ?_⟩
      simp only [TrackerOp.run, hrm, ok_bind, List.erase_cons_head]
      rfl
  · obtain ⟨hdec, ho, hcls⟩ := hmatch
    obtain rfl := hcls info hinfo
    have hc' := hc
    rw [ledger_erase_objs ho] at hc'
    obtain ⟨ha, fi, hfi, hok, _⟩ := hc'.home (by simp [Ledger.addObj]) hinfo
    have hno := hs.numbered _ ha fi hfi
    rcases hc'.rmNode_cases hdec hinfo hfi hno (hs.ref_ne_one ho hinfo hfi hheld) with ⟨hmore, hrm⟩ | ⟨hone, hin, hrm⟩
    · refine ⟨_, by rw [TrackerOp.run, hrm]; rfl, setObj_framed hfi _, ?_⟩
      rw [if_pos hmore]
    · refine ⟨_, by rw [TrackerOp.run, hrm]; rfl, unlist_framed hfi (hok.nodup _) _, ?_⟩
      rw [if_neg (by omega)]
      exact ⟨fi, hfi, hin, rfl⟩

end

/-- A group and a committed datatype of one file: the datatype's node goes in and comes out. -/
theorem nodes_framed_dtype : ∃ s, runOps [.addFileNode (some (cstr "a.h5")) 7,
    .addGrpNode exactCmp 0 (some (cstr "g")) 96] .init = .ok s ∧
    (∃ s' o, (TrackerOp.addDtypeNode exactCmp 0 (some (cstr "t")) 128).run s = .ok s' ∧
      Framed s.helper s'.helper .dtype 0 o ∧
      ∃ n, (TrackerOp.rmNode .dtype exactCmp o).run s' = .ok ⟨{ s.helper with next := n }, s.live⟩) ∧
    ∃ s', (TrackerOp.rmNode .grp exactCmp 1).run s = .ok s' ∧ Framed s.helper s'.helper .grp 0 1 := by
  have hm : Along TrackerOp.Matched [.addFileNode (some (cstr "a.h5")) 7,
      .addGrpNode exactCmp 0 (some (cstr "g")) 96] .init :=
    .cons rfl (show (7 : Nat) ≠ 0 by decide) (.cons rfl ⟨exactCmp_decides, .inl (by decide)⟩ trivial)
  have hl : Along TrackerOp.Local [.addFileNode (some (cstr "a.h5")) 7,
      .addGrpNode exactCmp 0 (some (cstr "g")) 96] .init := .cons rfl trivial (.cons rfl trivial trivial)
  refine ⟨_, rfl, ?_, ?_⟩
  · obtain ⟨s', o, h1, _, h3, _, h5⟩ := (nodes_framed _ hm hl rfl).1
      (.addDtypeNode exactCmp 0 (some (cstr "t")) 128) .dtype 0 128 rfl ⟨exactCmp_decides, .inl (by decide)⟩ trivial
    exact ⟨s', o, h1, h3, h5 exactCmp exactCmp_decides⟩
  · obtain ⟨s', h1, h2, _⟩ := (nodes_framed _ hm hl rfl).2 .grp exactCmp 1 _
      ⟨exactCmp_decides, by decide, fun info hinfo => by cases hinfo; rfl⟩ rfl (.inl (by decide))
    exact ⟨s', h1, h2⟩

end Provio
