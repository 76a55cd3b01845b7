import Provio.HolderRuns
/-!
# Keeping — properties of the tracker that every callback keeps

What the functions of the tracker keep, whatever they are given, every callback keeps (`Keeping.callback`).  `Intact` is
such a property: the lists hold nodes that are there, an object's node only in the list of its own file and class.
-/
namespace Provio

/-- Each function of the tracker that returns keeps `P`. -/
structure Keeping (P : ProvHelper → Prop) : Prop where
  newObj      : ∀ {h}, P h → P (provenanceNewObj h)
  freeObj     : ∀ {h}, P h → P (provenanceFreeObj h)
  refFile     : ∀ {h h' a}, P h → h.refFile a = .ok h' → P h'
  refObj      : ∀ {h h' o}, P h → h.refObj o = .ok h' → P h'
  updateDs    : ∀ {h h' o f}, P h → Provio.updateDs h o f = .ok h' → P h'
  dsAccessed  : ∀ {h h' a}, P h → fileDsAccessed h a = .ok h' → P h'
  addFileNode : ∀ {h h' name no a}, P h → Provio.addFileNode h name no = .ok (h', a) → P h'
  rmFileNode  : ∀ {h h' no n}, P h → Provio.rmFileNode h no = .ok (h', n) → P h'
  homeFile    : ∀ {h h' no a b}, P h → Provio.homeFile h no a = .ok (h', b) → P h'
  addNode     : ∀ {k h h' c a token new o}, P h → new.cls = k → new.file_info = a →
    Provio.addNode k h c a token new = .ok (h', o) → P h'
  rmNode      : ∀ {k h h' c o n}, P h → Provio.rmNode k h c o = .ok (h', n) → P h'

namespace Keeping

variable {P : ProvHelper → Prop} (hk : Keeping P)

section

variable {h h' : ProvHelper}

include hk

theorem releaseFile {a : Addr} (hp : P h) (hr : Provio.releaseFile h a = .ok h') : P h' := by
  obtain ⟨fi, -, hr⟩ := bind_eq_ok.1 hr
  obtain ⟨⟨h₁, n⟩, hrm, hpure⟩ := bind_eq_ok.1 hr
  cases hpure
  exact hk.rmFileNode hp hrm

theorem rmTargetNode {c : TokenCmp} {o : ProvObj} (hp : P h) (hr : Provio.rmTargetNode h c o = .ok h') : P h' := by
  unfold Provio.rmTargetNode at hr
  split at hr
  · exact hk.releaseFile hp hr
  · obtain ⟨⟨h₁, n⟩, hrm, hpure⟩ := bind_eq_ok.1 hr
    cases hpure
    exact hk.rmNode hp hrm

theorem addTargetNode {m : Made} {u : Under} {file_info : Addr} {name : Option CStr} {type : ObjType} {node : Addr}
    (hp : P h) (hr : Provio.addTargetNode h m u file_info name type = .ok (h', node)) : P h' := by
  cases type with
  | file => exact hk.addFileNode hp hr
  | obj k =>
    by_cases hd : k = .dataset
    · subst hd
      obtain ⟨⟨h₁, node'⟩, hadd, hr⟩ := bind_eq_ok.1 hr
      obtain ⟨h₂, hacc, hpure⟩ := bind_eq_ok.1 hr
      cases hpure
      obtain ⟨⟨h₃, home⟩, hhome, hadd⟩ := bind_eq_ok.1 hadd
      obtain ⟨hcls, hfile, -⟩ := newDsProvInfo_obj u.shape (u.info.getD (m.stack_no, m.stack_token)).2 home name
      exact hk.dsAccessed (hk.addNode (hk.homeFile hp hhome) hcls hfile hadd) hacc
    · rw [addTargetNode_eq hd] at hr
      exact hk.addNode hp (show (newObjInfo k file_info name _).cls = k from rfl) rfl hr

theorem wrapUnder {m : Made} {u : Under} {upper_o o : ProvObj} {name : Option CStr} {type : ObjType} (hp : P h)
    (hr : Provio.wrapUnder h m u upper_o name type = .ok (h', o)) : P h' := by
  obtain ⟨a, -, hr⟩ := bind_eq_ok.1 hr
  obtain ⟨⟨h₁, node⟩, hadd, hpure⟩ := bind_eq_ok.1 hr
  cases hpure
  exact hk.addTargetNode (hk.newObj hp) hadd

theorem fileOpenCommon {u : Under} {name : Option CStr} {o : ProvObj} (hp : P h)
    (hr : Provio.fileOpenCommon h u name = .ok (h', o)) : P h' := by
  obtain ⟨⟨h₁, node⟩, hadd, hpure⟩ := bind_eq_ok.1 hr
  cases hpure
  exact hk.addFileNode (hk.newObj hp) hadd

theorem refreshed {hold : Hold} {extent : Extent} (hp : P h) (hr : Provio.refreshed h hold extent = .ok h') : P h' := by
  obtain ⟨info, -, hr⟩ := bind_eq_ok.1 hr
  obtain ⟨_, -, hr⟩ := bind_eq_ok.1 hr
  split at hr
  · cases hr
  · split at hr
    · exact hk.updateDs hp hr
    · cases hr
      exact hp

end

/-! ## The callbacks -/

section

variable {s s' : Conn} {app app' : App}

theorem onSuccess {ret : Bool} {f : ProvHelper → Except Fault ProvHelper} (hp : P s.tracker)
    (hf : ∀ {h h'}, P h → f h = .ok h' → P h') (hr : s.onSuccess ret f = .ok s') : P s'.tracker := by
  rcases onSuccess_tracker hr with ⟨-, hrun⟩ | ⟨-, hsame⟩
  · exact hf hp hrun
  · rw [hsame]
    exact hp

include hk

theorem counted {o : ProvObj} (hp : P s.tracker) (hc : Counted s s' o) : P s'.tracker := by
  rcases hc with hsame | ⟨h, h', f, hh, hr, hh'⟩
  · rw [Conn.tracker, hsame]
    exact hp
  · rw [Conn.tracker, hh] at hp
    rw [Conn.tracker, hh']
    exact hk.updateDs hp hr

theorem objWrapUnder {m : Made} {upper_o : ProvObj} {name : Option CStr} {type : ObjType} {obj : Option ProvObj}
    (hp : P s.tracker) (hr : Provio.objWrapUnder s m upper_o name type = .ok (s', obj)) : P s'.tracker := by
  unfold Provio.objWrapUnder at hr
  split at hr
  · cases hr
    exact hp
  · obtain ⟨⟨s₁, w⟩, h1, hr⟩ := bind_eq_ok.1 hr
    cases hr
    exact hk.wrapUnder hp (onHelper_tracker h1)

theorem wrapObject {a : Addr} {type : ObjType} {m : Made} {obj : Option ProvObj} (hp : P s.tracker)
    (hr : Provio.wrapObject s a type m = .ok (s', obj)) : P s'.tracker := by
  unfold Provio.wrapObject at hr
  split at hr
  · cases hr
    exact hp
  · obtain ⟨⟨s₁, fake⟩, h1, hr⟩ := bind_eq_ok.1 hr
    obtain ⟨⟨s₂, w⟩, h2, hr⟩ := bind_eq_ok.1 hr
    obtain ⟨s₃, h3, hr⟩ := bind_eq_ok.1 hr
    cases hr
    have hnew := onHelper_tracker h1
    simp only [pure, Except.pure, Except.ok.injEq, Prod.mk.injEq] at hnew
    have hp₁ : P s₁.tracker := by
      rw [← hnew.1]
      exact hk.newObj hp
    have hfree := updHelper_tracker h3
    simp only [pure, Except.pure, Except.ok.injEq] at hfree
    rw [← hfree]
    exact hk.freeObj (hk.objWrapUnder hp₁ h2)

theorem wrapFile {info : VolInfo} {name : Option CStr} {under : Option Under} {file : Option ProvObj} (hp : P s.tracker)
    (hr : Provio.wrapFile s info name under = .ok (s', file)) : P s'.tracker := by
  unfold Provio.wrapFile at hr
  split at hr
  · cases hr
    exact hp
  · obtain ⟨s₁, h1, hr⟩ := bind_eq_ok.1 hr
    obtain ⟨⟨s₂, w⟩, h2, hr⟩ := bind_eq_ok.1 hr
    cases hr
    rw [← ensureHelper_tracker h1] at hp
    exact hk.fileOpenCommon hp (onHelper_tracker h2)

theorem markAttr {group : ProvObj} {name : Option CStr} {m : Made} (hp : P s.tracker)
    (hr : Provio.markAttr s group name m = .ok s') : P s'.tracker := by
  obtain ⟨⟨s₁, attr⟩, h1, hr⟩ := bind_eq_ok.1 hr
  cases attr with
  | none => cases hr
  | some attr =>
    cases hr
    exact hk.objWrapUnder hp h1

theorem markFile {info : VolInfo} {name : Option CStr} {file : Option ProvObj} {m : Marking} (hp : P s.tracker)
    (hr : Provio.markFile s info name file m = .ok s') : P s'.tracker := by
  unfold Provio.markFile at hr
  cases file with
  | none => cases hr
  | some file =>
    obtain ⟨⟨s₁, group⟩, h1, hr⟩ := bind_eq_ok.1 hr
    obtain ⟨_, -, hr⟩ := bind_eq_ok.1 hr
    cases group with
    | none => cases hr
    | some group =>
      obtain ⟨s₂, h2, hr⟩ := bind_eq_ok.1 hr
      obtain ⟨s₃, h3, hr⟩ := bind_eq_ok.1 hr
      have hfree := updHelper_tracker hr
      simp only [pure, Except.pure, Except.ok.injEq] at hfree
      rw [← hfree]
      exact hk.freeObj (hk.markAttr (hk.markAttr (hk.objWrapUnder hp h1) h2) h3)

theorem fileCall {func : CStr} {info : VolInfo} {name : Option CStr} {under : Option Under} {m : Marking} {t : Ticks}
    {file : Option ProvObj} (hp : P s.tracker) (hr : Provio.fileCall func s info name under m t = .ok (s', file)) :
    P s'.tracker := by
  obtain ⟨s₁, s₂, name', p, h1, -, -, rfl, ⟨-, h2⟩ | ⟨-, rfl⟩⟩ := fileCall_ok hr
  · have hp₁ := hk.wrapFile hp h1
    exact hk.markFile (s := { s₁ with process := p, records := _ }) hp₁ h2
  · have hp₁ := hk.wrapFile hp h1
    exact hp₁

theorem fileReopen {o : ProvObj} {ret : Bool} {under : Option Under} {file : Option ProvObj} (hp : P s.tracker)
    (hr : Provio.fileReopen s o ret under = .ok (s', file)) : P s'.tracker := by
  unfold Provio.fileReopen at hr
  split at hr
  · obtain ⟨⟨s₁, w⟩, h1, hr⟩ := bind_eq_ok.1 hr
    cases hr
    obtain ⟨fi, -, h2⟩ := bind_eq_ok.1 (onHelper_tracker h1)
    exact hk.fileOpenCommon hp h2
  · cases hr
    exact hp

theorem setExtent {o : ProvObj} {ret : Bool} {new_size : List (BitVec 64)} (hp : P s.tracker)
    (hr : Provio.setExtent s o ret new_size = .ok s') : P s'.tracker := by
  refine onSuccess hp (fun hp hrun => ?_) hr
  obtain ⟨info, -, hrun⟩ := bind_eq_ok.1 hrun
  split at hrun
  · split at hrun
    · cases hrun
    · exact hk.updateDs hp hrun
  · cases hrun
    exact hp

theorem refreshBegin {specific : Specific} {o : ProvObj} {hold : Hold} (hp : P s.tracker)
    (hr : Provio.refreshBegin s specific o = .ok (s', hold)) : P s'.tracker := by
  unfold Provio.refreshBegin at hr
  split at hr
  · cases hr
  · obtain ⟨_, -, hr⟩ := bind_eq_ok.1 hr
    obtain ⟨h₁, href, hpure⟩ := bind_eq_ok.1 (onHelper_tracker hr)
    rw [← (Prod.mk.inj (Except.ok.inj hpure)).1]
    exact hk.refObj hp href

theorem refreshEnd {c : TokenCmp} {hold : Hold} {ret : Bool} {extent : Extent} (hp : P s.tracker)
    (hr : Provio.refreshEnd s c hold ret extent = .ok s') : P s'.tracker := by
  have released : ∀ h, P h → (Provio.rmNode hold.cls h c hold.info >>= fun r => pure r.1) = .ok s'.tracker →
      P s'.tracker := by
    intro h hp hrun
    obtain ⟨⟨h₁, n⟩, hrm, hpure⟩ := bind_eq_ok.1 hrun
    rw [← show h₁ = s'.tracker from Except.ok.inj hpure]
    exact hk.rmNode hp hrm
  have hrun := updHelper_tracker hr
  dsimp only at hrun
  split at hrun
  · obtain ⟨h₁, hfresh, hrm⟩ := bind_eq_ok.1 hrun
    exact released h₁ (hk.refreshed hp hfresh) hrm
  · exact released _ hp hrun

end

end Keeping

/-! ## The lists -/

/-- The nodes of a file's lists are there, each in the list of its own file and class. -/
structure Lists (objs : Addr → Option ObjInfo) (a : Addr) (fi : FileInfo) : Prop where
  nodup : ∀ k, (fi.opened k).Nodup
  nodes : ∀ k, ∀ o ∈ fi.opened k, ∃ info, objs o = some info ∧ info.cls = k ∧ info.file_info = a

/-- **The lists of the tracker hold what is there.** -/
structure Intact (h : ProvHelper) : Prop where
  cnt   : h.opened_files_cnt = h.opened_files.length
  nodup : h.opened_files.Nodup
  files : ∀ a ∈ h.opened_files, ∃ fi, h.files a = some fi
  lists : ∀ a fi, h.files a = some fi → Lists h.objs a fi
  fresh : ∀ a, h.next ≤ a → h.files a = none ∧ h.objs a = none

theorem intact_init : Intact .init :=
  ⟨rfl, .nil, fun a ha => (by cases ha), fun a fi hfi => (by cases hfi), fun _ _ => ⟨rfl, rfl⟩⟩

namespace Intact

variable {h h' : ProvHelper} {a o : Addr}

theorem file_lt (hi : Intact h) {fi : FileInfo} (hfi : h.files a = some fi) : a < h.next := by
  by_contra hge
  rw [(hi.fresh a (Nat.not_lt.1 hge)).1] at hfi
  cases hfi

theorem obj_lt (hi : Intact h) {info : ObjInfo} (hinfo : h.objs o = some info) : o < h.next := by
  by_contra hge
  rw [(hi.fresh o (Nat.not_lt.1 hge)).2] at hinfo
  cases hinfo

theorem of_same (hi : Intact h) (hcnt : h'.opened_files_cnt = h.opened_files_cnt) (hopen : h'.opened_files = h.opened_files)
    (hfiles : h'.files = h.files) (hobjs : h'.objs = h.objs) (hnext : h'.next = h.next) : Intact h' := by
  refine ⟨by rw [hcnt, hopen]; exact hi.cnt, by rw [hopen]; exact hi.nodup, ?_, fun a fi hfi => ?_, ?_⟩
  · rw [hopen, hfiles]
    exact hi.files
  · rw [hfiles] at hfi
    exact ⟨(hi.lists a fi hfi).nodup, by rw [hobjs]; exact (hi.lists a fi hfi).nodes⟩
  · rw [hnext, hfiles, hobjs]
    exact hi.fresh

theorem setFile (hi : Intact h) {fi fi' : FileInfo} (hfi : h.files a = some fi) (hl : Lists h.objs a fi') :
    Intact (h.setFile a fi') := by
  refine ⟨hi.cnt, hi.nodup, fun b hb => ?_, fun b fb hfb => ?_, fun b hb => ⟨?_, (hi.fresh b hb).2⟩⟩
  · by_cases hba : b = a
    · exact ⟨fi', by rw [hba, setFile_self]⟩
    · rw [setFile_files, Function.update_of_ne hba]
      exact hi.files b hb
  · by_cases hba : b = a
    · rw [hba, setFile_self] at hfb
      cases hfb
      rw [hba]
      exact hl
    · rw [setFile_files, Function.update_of_ne hba] at hfb
      exact hi.lists b fb hfb
  · have hba : b ≠ a := Nat.ne_of_gt (Nat.lt_of_lt_of_le (hi.file_lt hfi) hb)
    rw [setFile_files, Function.update_of_ne hba]
    exact (hi.fresh b hb).1

theorem setObj (hi : Intact h) {i i' : ObjInfo} (hinfo : h.objs o = some i) (hcls : i'.cls = i.cls)
    (hfile : i'.file_info = i.file_info) : Intact (h.setObj o i') := by
  refine ⟨hi.cnt, hi.nodup, hi.files, fun a fi hfi => ⟨(hi.lists a fi hfi).nodup, fun k x hx => ?_⟩,
    fun b hb => ⟨(hi.fresh b hb).1, ?_⟩⟩
  · obtain ⟨info, hx', hk, ha⟩ := (hi.lists a fi hfi).nodes k x hx
    by_cases hxo : x = o
    · subst hxo
      cases hinfo.symm.trans hx'
      exact ⟨i', by rw [setObj_objs, Function.update_self], hcls.trans hk, hfile.trans ha⟩
    · exact ⟨info, by rw [setObj_objs, Function.update_of_ne hxo]; exact hx', hk, ha⟩
  · have hbo : b ≠ o := Nat.ne_of_gt (Nat.lt_of_lt_of_le (hi.obj_lt hinfo) hb)
    rw [setObj_objs, Function.update_of_ne hbo]
    exact (hi.fresh b hb).2

theorem refFile (hi : Intact h) (hr : h.refFile a = .ok h') : Intact h' := by
  obtain ⟨fi, hfi, rfl⟩ := refFile_eq_ok.1 hr
  exact hi.setFile hfi ⟨(hi.lists a fi hfi).nodup, (hi.lists a fi hfi).nodes⟩

theorem refObj (hi : Intact h) (hr : h.refObj o = .ok h') : Intact h' := by
  obtain ⟨info, hinfo, rfl⟩ := refObj_eq_ok.1 hr
  exact hi.setObj hinfo rfl rfl

theorem allocFile (hi : Intact h) (name : Option CStr) (no : Nat) : Intact (h.allocFile (newFileInfo name no)) := by
  have hne : ∀ {b fb}, h.files b = some fb → b ≠ h.next := fun hfb => Nat.ne_of_lt (hi.file_lt hfb)
  refine ⟨hi.cnt, hi.nodup, fun b hb => ?_, fun b fb hfb => ?_, fun b hb => ?_⟩
  · obtain ⟨fb, hfb⟩ := hi.files b hb
    exact ⟨fb, by simpa [ProvHelper.allocFile, hne hfb] using hfb⟩
  · by_cases hbn : b = h.next
    · simp only [ProvHelper.allocFile, hbn, setFile_self, Option.some.injEq] at hfb
      subst hfb
      exact ⟨fun _ => .nil, fun k o ho => (by cases ho)⟩
    · simp only [ProvHelper.allocFile, setFile_files, Function.update_of_ne hbn] at hfb
      exact hi.lists b fb hfb
  · have hlt : h.next < b := hb
    have hbn : b ≠ h.next := Nat.ne_of_gt hlt
    simp only [ProvHelper.allocFile, setFile_files, Function.update_of_ne hbn]
    exact hi.fresh b (Nat.le_of_lt hlt)

theorem openFile (hi : Intact h) (name : Option CStr) (no : Nat) : Intact { h.allocFile (newFileInfo name no) with
    opened_files := h.next :: h.opened_files, opened_files_cnt := h.opened_files_cnt + 1 } := by
  have ha := hi.allocFile name no
  refine ⟨?_, List.nodup_cons.2 ⟨fun hmem => ?_, hi.nodup⟩, fun b hb => ?_, ha.lists, ha.fresh⟩
  · show h.opened_files_cnt + 1 = ((h.next :: h.opened_files).length : Nat)
    rw [hi.cnt, List.length_cons]
    rfl
  · obtain ⟨fi, hfi⟩ := hi.files _ hmem
    exact absurd (hi.file_lt hfi) (Nat.lt_irrefl _)
  · rcases List.mem_cons.1 hb with rfl | hb
    · exact ⟨_, setFile_self h _ _⟩
    · exact ha.files b hb

theorem closeFile (hi : Intact h) (ha : a ∈ h.opened_files) : Intact { h.freeFile a with
    opened_files := h.opened_files.erase a, opened_files_cnt := h.opened_files_cnt - 1 } := by
  refine ⟨?_, hi.nodup.erase a, fun b hb => ?_, fun b fb hfb => ?_, fun b hb => ⟨?_, (hi.fresh b hb).2⟩⟩
  · have hpos := List.length_pos_of_mem ha
    show h.opened_files_cnt - 1 = ((h.opened_files.erase a).length : Nat)
    rw [hi.cnt, List.length_erase_of_mem ha]
    omega
  · obtain ⟨hne, hb⟩ := (hi.nodup.mem_erase_iff).1 hb
    obtain ⟨fb, hfb⟩ := hi.files b hb
    exact ⟨fb, by simpa [ProvHelper.freeFile, hne] using hfb⟩
  · by_cases hba : b = a
    · simp [ProvHelper.freeFile, hba] at hfb
    · exact hi.lists b fb (by simpa [ProvHelper.freeFile, hba] using hfb)
  · by_cases hba : b = a
    · simp [ProvHelper.freeFile, hba]
    · simpa [ProvHelper.freeFile, hba] using (hi.fresh b hb).1

theorem linkObj (hi : Intact h) {k : ObjClass} {fi : FileInfo} (hfi : h.files a = some fi) {new : ObjInfo}
    (hcls : new.cls = k) (hfile : new.file_info = a) : Intact (h.linkObj k a fi new) := by
  have hlt : ∀ {b fb}, h.files b = some fb → ∀ k', ∀ x ∈ fb.opened k', x ≠ h.next := by
    intro b fb hfb k' x hx
    obtain ⟨info, hinfo, -⟩ := (hi.lists b fb hfb).nodes k' x hx
    exact Nat.ne_of_lt (hi.obj_lt hinfo)
  have hstay : ∀ {b fb}, h.files b = some fb → Lists (h.setObj h.next new).objs b fb := by
    intro b fb hfb
    refine ⟨(hi.lists b fb hfb).nodup, fun k' x hx => ?_⟩
    rw [setObj_objs, Function.update_of_ne (hlt hfb k' x hx)]
    exact (hi.lists b fb hfb).nodes k' x hx
  have hold := hstay hfi
  refine ⟨hi.cnt, hi.nodup, fun b hb => ?_, fun b fb hfb => ?_, fun b hb => ?_⟩
  · obtain ⟨fb, hfb⟩ := hi.files b hb
    by_cases hba : b = a
    · exact ⟨_, by rw [ProvHelper.linkObj, hba, setFile_self]⟩
    · exact ⟨fb, by simpa [ProvHelper.linkObj, hba] using hfb⟩
  · by_cases hba : b = a
    · simp only [ProvHelper.linkObj, hba, setFile_self, Option.some.injEq] at hfb
      subst hfb hba
      refine ⟨fun k' => ?_, fun k' x hx => ?_⟩
      · by_cases hk : k' = k
        · subst hk
          simp only [Function.update_self]
          exact List.nodup_cons.2 ⟨fun hmem => hlt hfi k' _ hmem rfl, hold.nodup k'⟩
        · simp only [Function.update_of_ne hk]
          exact hold.nodup k'
      · by_cases hk : k' = k
        · subst hk
          simp only [Function.update_self] at hx
          rcases List.mem_cons.1 hx with rfl | hx
          · exact ⟨new, by simp [ProvHelper.linkObj], hcls, hfile⟩
          · exact hold.nodes k' x hx
        · simp only [Function.update_of_ne hk] at hx
          exact hold.nodes k' x hx
    · have hfb' : h.files b = some fb := by simpa [ProvHelper.linkObj, hba] using hfb
      exact hstay hfb'
  · have hgt : h.next < b := hb
    have hba : b ≠ a := Nat.ne_of_gt (Nat.lt_trans (hi.file_lt hfi) hgt)
    have hbn : b ≠ h.next := Nat.ne_of_gt hgt
    simp only [ProvHelper.linkObj, setFile_files, setFile_objs, setObj_files, setObj_objs, Function.update_of_ne hba,
      Function.update_of_ne hbn]
    exact hi.fresh b (Nat.le_of_lt hgt)

theorem unlink (hi : Intact h) {k : ObjClass} {fi : FileInfo} (hfi : h.files a = some fi) (ho : o ∈ fi.opened k) (n : Int) :
    Intact ((h.freeObj o).setFile a { fi with
      opened := Function.update fi.opened k ((fi.opened k).erase o)
      opened_cnt := Function.update fi.opened_cnt k n }) := by
  obtain ⟨info, hinfo, hcls, hfile⟩ := (hi.lists a fi hfi).nodes k o ho
  -- it is in no other list
  have hnot : ∀ b fb k', h.files b = some fb → (b ≠ a ∨ k' ≠ k) → o ∉ fb.opened k' := by
    intro b fb k' hfb hne hmem
    obtain ⟨i, hi', hk', hb⟩ := (hi.lists b fb hfb).nodes k' o hmem
    cases hinfo.symm.trans hi'
    rcases hne with hne | hne
    · exact hne (hb.symm.trans hfile)
    · exact hne (hk'.symm.trans hcls)
  have hstay : ∀ b fb k' x, h.files b = some fb → x ∈ fb.opened k' → x ≠ o →
      ∃ i, (h.freeObj o).objs x = some i ∧ i.cls = k' ∧ i.file_info = b := by
    intro b fb k' x hfb hx hne
    simp only [ProvHelper.freeObj, Function.update_of_ne hne]
    exact (hi.lists b fb hfb).nodes k' x hx
  refine ⟨hi.cnt, hi.nodup, fun b hb => ?_, fun b fb hfb => ?_, fun b hb => ⟨?_, ?_⟩⟩
  · obtain ⟨fb, hfb⟩ := hi.files b hb
    by_cases hba : b = a
    · exact ⟨_, by rw [hba, setFile_self]⟩
    · exact ⟨fb, by simpa [ProvHelper.freeObj, hba] using hfb⟩
  · by_cases hba : b = a
    · rw [hba, setFile_self, Option.some.injEq] at hfb
      subst hfb hba
      refine ⟨fun k' => ?_, fun k' x hx => ?_⟩
      · by_cases hk : k' = k
        · subst hk
          simp only [Function.update_self]
          exact ((hi.lists b fi hfi).nodup k').erase o
        · simp only [Function.update_of_ne hk]
          exact (hi.lists b fi hfi).nodup k'
      · by_cases hk : k' = k
        · subst hk
          simp only [Function.update_self] at hx
          obtain ⟨hne, hx⟩ := ((hi.lists b fi hfi).nodup k').mem_erase_iff.1 hx
          exact hstay b fi k' x hfi hx hne
        · simp only [Function.update_of_ne hk] at hx
          exact hstay b fi k' x hfi hx fun hxo => hnot b fi k' hfi (.inr hk) (hxo ▸ hx)
    · have hfb' : h.files b = some fb := by simpa [ProvHelper.freeObj, hba] using hfb
      exact ⟨(hi.lists b fb hfb').nodup, fun k' x hx =>
        hstay b fb k' x hfb' hx fun hxo => hnot b fb k' hfb' (.inl hba) (hxo ▸ hx)⟩
  · have hba : b ≠ a := Nat.ne_of_gt (Nat.lt_of_lt_of_le (hi.file_lt hfi) hb)
    simpa [ProvHelper.freeObj, hba] using (hi.fresh b hb).1
  · by_cases hbo : b = o
    · simp [ProvHelper.freeObj, hbo]
    · simpa [ProvHelper.freeObj, hbo] using (hi.fresh b hb).2

/-! ### The functions of the tracker -/

theorem findNode_mem {c : TokenCmp} {token : Token} : ∀ {v : Int} {l : List Addr}, findNode h c token v l = .ok (some o) →
    o ∈ l
  | _, [], hr => by cases hr
  | v, cur :: rest, hr => by
    obtain ⟨info, -, hr⟩ := bind_eq_ok.1 hr
    split at hr
    · cases hr
      exact .head _
    · exact .tail _ (findNode_mem hr)

theorem addFileNode (hi : Intact h) {name : Option CStr} {no : Nat} (hr : Provio.addFileNode h name no = .ok (h', a)) :
    Intact h' := by
  simp only [Provio.addFileNode, bind_eq_ok] at hr
  obtain ⟨_, -, r, -, hr⟩ := hr
  cases r with
  | some cur =>
    obtain ⟨h₁, href, hpure⟩ := bind_eq_ok.1 hr
    cases hpure
    exact hi.refFile href
  | none =>
    obtain ⟨h₁, href, hpure⟩ := bind_eq_ok.1 hr
    cases hpure
    exact (hi.openFile name no).refFile href

theorem rmFileNode (hi : Intact h) {no : Nat} {n : Int} (hr : Provio.rmFileNode h no = .ok (h', n)) : Intact h' := by
  simp only [Provio.rmFileNode, bind_eq_ok] at hr
  obtain ⟨_, -, _, -, _, -, r, hsearch, hr⟩ := hr
  cases r with
  | none =>
    cases hr
    exact hi
  | some cur =>
    obtain ⟨fi, hfi, hr⟩ := bind_eq_ok.1 hr
    have hcur := searchFile_spec hsearch
    split at hr
    · simp only [bind_eq_ok, pure, Except.pure, Except.ok.injEq, Prod.mk.injEq] at hr
      obtain ⟨_, -, _, -, _, -, _, -, _, -, rfl, -⟩ := hr
      exact hi.closeFile hcur.1
    · cases hr
      have hl := hi.lists cur fi (file_eq_ok.1 hfi)
      exact hi.setFile (file_eq_ok.1 hfi) ⟨hl.nodup, hl.nodes⟩

theorem homeFile (hi : Intact h) {no : Nat} {b : Addr} (hr : Provio.homeFile h no a = .ok (h', b)) : Intact h' := by
  obtain ⟨fi, -, hr⟩ := bind_eq_ok.1 hr
  split at hr
  · obtain ⟨⟨h₁, r⟩, hsearch, hr⟩ := bind_eq_ok.1 hr
    have hi₁ : Intact h₁ := by
      unfold searchHomeFile at hsearch
      split at hsearch
      · cases hsearch
        exact hi
      · obtain ⟨found, -, hsearch⟩ := bind_eq_ok.1 hsearch
        cases found with
        | none =>
          cases hsearch
          exact hi
        | some cur =>
          obtain ⟨h₂, href, hpure⟩ := bind_eq_ok.1 hsearch
          cases hpure
          exact hi.refFile href
    cases r with
    | some home =>
      cases hr
      exact hi₁
    | none =>
      cases hr
      exact hi₁.allocFile _ _
  · cases hr
    exact hi

theorem addNode (hi : Intact h) {k : ObjClass} {c : TokenCmp} {token : Token} {new : ObjInfo} (hcls : new.cls = k)
    (hfile : new.file_info = a) (hr : Provio.addNode k h c a token new = .ok (h', o)) : Intact h' := by
  simp only [Provio.addNode, bind_eq_ok, file_eq_ok] at hr
  obtain ⟨fi, hfi, r, -, hr⟩ := hr
  cases r with
  | some cur =>
    obtain ⟨h₁, href, hpure⟩ := bind_eq_ok.1 hr
    cases hpure
    exact hi.refObj href
  | none =>
    obtain ⟨h₁, href, hpure⟩ := bind_eq_ok.1 hr
    cases hpure
    exact (hi.linkObj hfi hcls hfile).refObj href

theorem rmNode (hi : Intact h) {k : ObjClass} {c : TokenCmp} {n : Int} (hr : Provio.rmNode k h c o = .ok (h', n)) :
    Intact h' := by
  simp only [Provio.rmNode, bind_eq_ok, obj_eq_ok] at hr
  obtain ⟨info, hinfo, hr⟩ := hr
  have hi₁ : Intact (h.setObj o { info with ref_cnt := info.ref_cnt - 1 }) := hi.setObj hinfo rfl rfl
  split at hr
  · cases hr
    exact hi₁
  · simp only [bind_eq_ok, file_eq_ok] at hr
    obtain ⟨fi, hfi, _, -, r, hfind, hr⟩ := hr
    cases r with
    | none =>
      cases hr
      exact hi₁
    | some cur =>
      simp only [bind_eq_ok] at hr
      obtain ⟨_, -, ⟨h₂, n'⟩, hrm, hpure⟩ := hr
      cases hpure
      exact (hi₁.unlink hfi (findNode_mem hfind) _).rmFileNode hrm

end Intact

/-- **No function of the tracker breaks its lists.** -/
theorem intact_keeping : Keeping Intact where
  newObj hi := hi.of_same rfl rfl rfl rfl rfl
  freeObj hi := hi.of_same rfl rfl rfl rfl rfl
  refFile hi hr := hi.refFile hr
  refObj hi hr := hi.refObj hr
  updateDs hi hr := by
    obtain ⟨info, hinfo, hpure⟩ := bind_eq_ok.1 hr
    cases hpure
    exact hi.setObj (obj_eq_ok.1 hinfo) rfl rfl
  dsAccessed hi hr := by
    obtain ⟨fi, hfi, hpure⟩ := bind_eq_ok.1 hr
    cases hpure
    have hl := hi.lists _ fi (file_eq_ok.1 hfi)
    exact hi.setFile (file_eq_ok.1 hfi) ⟨hl.nodup, hl.nodes⟩
  addFileNode hi hr := hi.addFileNode hr
  rmFileNode hi hr := hi.rmFileNode hr
  homeFile hi hr := hi.homeFile hr
  addNode hi hcls hfile hr := hi.addNode hcls hfile hr
  rmNode hi hr := hi.rmNode hr

end Provio
