import Provio.Keeping
/-!
# Openings — what an opened file or object needs to be wrapped

Where the lists of the tracker are intact, the search of `add_file_node` stops at a file numbered 0 and at nothing else
(`addFileNode_iff`), an object is wrapped wherever the file it is opened through is there (`Through.wrap`), and the marking
of rank 0 goes through when its three objects are made (`markFile_iff`).
-/
namespace Provio

/-- No file that the search of `add_file_node` comes to has the number 0. -/
def MeetsNumbered (h : ProvHelper) (file_no : Nat) (l : List Addr) : Prop :=
  ∀ before a after, l = before ++ a :: after → (∀ b ∈ before, ∀ fb, h.files b = some fb → fb.file_no ≠ file_no) →
    ∀ fi, h.files a = some fi → fi.file_no ≠ 0

def Marking.Complete (m : Marking) : Prop := m.group.under ≠ none ∧ m.attr_path.under ≠ none ∧ m.attr_time.under ≠ none

section

variable {s s' : Conn}

/-! ## The nodes -/

section

variable {h h' : ProvHelper}

theorem searchFileNode_iff {file_no : Nat} : ∀ {l : List Addr}, (∀ a ∈ l, ∃ fi, h.files a = some fi) →
    ((∃ r, searchFileNode h file_no l = .ok r) ↔ MeetsNumbered h file_no l)
  | [], _ => iff_of_true ⟨none, rfl⟩ fun before a after heq => by simp at heq
  | cur :: rest, hl => by
    obtain ⟨fi, hfi⟩ := hl cur List.mem_cons_self
    have ih : (∃ r, searchFileNode h file_no rest = .ok r) ↔ MeetsNumbered h file_no rest :=
      searchFileNode_iff fun a ha => hl a (List.mem_cons_of_mem _ ha)
    rw [searchFileNode, file_eq_ok.2 hfi, ok_bind]
    constructor
    · rintro ⟨r, hr⟩
      obtain ⟨_, hassert, hr⟩ := bind_eq_ok.1 hr
      have hno : fi.file_no ≠ 0 := by simpa using cAssert_eq_ok.1 hassert
      intro before a after heq hbefore fa hfa
      cases before with
      | nil =>
        cases heq
        cases hfi.symm.trans hfa
        exact hno
      | cons b before =>
        cases heq
        rw [if_neg (hbefore _ List.mem_cons_self fi hfi)] at hr
        exact ih.1 ⟨r, hr⟩ before a after rfl (fun c hc => hbefore c (List.mem_cons_of_mem _ hc)) fa hfa
    · intro hmeets
      have hno := hmeets [] cur rest rfl (fun b hb => by cases hb) fi hfi
      rw [cAssert, if_pos (by simpa using hno), ok_bind]
      split
      · exact ⟨_, rfl⟩
      · rename_i hne
        refine ih.2 fun before a after heq hbefore => hmeets (cur :: before) a after (by rw [heq]; rfl) fun b hb fb hfb => ?_
        rcases List.mem_cons.1 hb with rfl | hb
        · cases hfi.symm.trans hfb
          exact hne
        · exact hbefore b hb fb hfb

theorem addFileNode_iff (hi : Intact h) (name : Option CStr) (file_no : Nat) :
    (∃ r, addFileNode h name file_no = .ok r) ↔ MeetsNumbered h file_no h.opened_files := by
  rw [← searchFileNode_iff hi.files]
  constructor
  · rintro ⟨r, hr⟩
    obtain ⟨_, -, hr⟩ := bind_eq_ok.1 hr
    obtain ⟨found, hfound, -⟩ := bind_eq_ok.1 hr
    exact ⟨found, hfound⟩
  · rintro ⟨found, hfound⟩
    have hassert : h.opened_files ≠ [] ∨ h.opened_files_cnt = 0 := by
      by_cases hnil : h.opened_files = []
      · exact .inr (by rw [hi.cnt, hnil]; rfl)
      · exact .inl hnil
    unfold addFileNode
    rw [cAssert, if_pos (by simpa using hassert), ok_bind, hfound, ok_bind]
    cases found with
    | none =>
      have hnew : ({ h.allocFile (newFileInfo name file_no) with
          opened_files := h.next :: h.opened_files, opened_files_cnt := h.opened_files_cnt + 1 } : ProvHelper).files h.next =
          some (newFileInfo name file_no) := setFile_self h _ _
      dsimp only
      rw [refFile_eq_ok.2 ⟨_, hnew, rfl⟩]
      exact ⟨_, rfl⟩
    | some cur =>
      obtain ⟨hcur, -⟩ := searchFile_spec (searchFile_of_node hfound)
      obtain ⟨fi, hfi⟩ := hi.files cur hcur
      dsimp only
      rw [refFile_eq_ok.2 ⟨fi, hfi, rfl⟩]
      exact ⟨_, rfl⟩

theorem addFileNode_live {name : Option CStr} {file_no : Nat} {a : Addr} (hr : addFileNode h name file_no = .ok (h', a)) :
    ∃ fi, h'.files a = some fi := by
  obtain ⟨_, -, hr⟩ := bind_eq_ok.1 hr
  obtain ⟨found, -, hr⟩ := bind_eq_ok.1 hr
  cases found with
  | none =>
    obtain ⟨h₁, href, hpure⟩ := bind_eq_ok.1 hr
    cases hpure
    obtain ⟨fi, -, rfl⟩ := refFile_eq_ok.1 href
    exact ⟨_, setFile_self _ _ _⟩
  | some cur =>
    obtain ⟨h₁, href, hpure⟩ := bind_eq_ok.1 hr
    cases hpure
    obtain ⟨fi, -, rfl⟩ := refFile_eq_ok.1 href
    exact ⟨_, setFile_self _ _ _⟩

/-- What is there stays there, each object in its file. -/
structure Stays (h h' : ProvHelper) : Prop where
  files : ∀ a fi, h.files a = some fi → ∃ fi', h'.files a = some fi'
  objs  : ∀ o info, h.objs o = some info → ∃ info', h'.objs o = some info' ∧ info'.file_info = info.file_info

/-- **An object's node is found or made**, if its file is there. -/
theorem addNode_stays (hi : Intact h) {k : ObjClass} {a : Addr} {fi : FileInfo} (hfi : h.files a = some fi) (c : TokenCmp)
    (token : Token) {new : ObjInfo} (hfile : new.file_info = a) :
    ∃ h' o, addNode k h c a token new = .ok (h', o) ∧ Stays h h' ∧ ∃ info, h'.objs o = some info ∧ info.file_info = a := by
  have hnodes := (hi.lists a fi hfi).nodes k
  obtain ⟨found, hfound⟩ := findNode_progress (h := h) c token c.uninit fun o ho => by
    obtain ⟨info, hinfo, -⟩ := hnodes o ho
    exact ⟨info, hinfo⟩
  unfold addNode
  rw [file_eq_ok.2 hfi, ok_bind, hfound, ok_bind]
  cases found with
  | some cur =>
    obtain ⟨info, hinfo, -, hhome⟩ := hnodes cur (Intact.findNode_mem hfound)
    dsimp only
    rw [refObj_eq_ok.2 ⟨info, hinfo, rfl⟩]
    refine ⟨_, cur, rfl, ⟨fun b fb hfb => ⟨fb, hfb⟩, fun o i ho => ?_⟩, ?_⟩
    · by_cases hoc : o = cur
      · subst hoc
        cases hinfo.symm.trans ho
        exact ⟨_, Function.update_self .., rfl⟩
      · exact ⟨i, by rw [setObj_objs, Function.update_of_ne hoc]; exact ho, rfl⟩
    · exact ⟨_, Function.update_self .., hhome⟩
  | none =>
    dsimp only
    rw [refObj_eq_ok.2 ⟨new, by simp [ProvHelper.linkObj], rfl⟩]
    refine ⟨_, h.next, rfl, ⟨fun b fb hfb => ?_, fun o i ho => ?_⟩, ?_⟩
    · by_cases hba : b = a
      · exact ⟨_, by rw [hba, setObj_files, ProvHelper.linkObj, setFile_self]⟩
      · exact ⟨fb, by simpa [ProvHelper.linkObj, hba] using hfb⟩
    · have hne : o ≠ h.next := Nat.ne_of_lt (hi.obj_lt ho)
      exact ⟨i, by simpa [ProvHelper.linkObj, hne] using ho, rfl⟩
    · exact ⟨_, Function.update_self .., hfile⟩

end

/-! ## The wrappers -/

/-- A state in which objects can be opened through `o`. -/
structure Through (s : Conn) (o : ProvObj) : Prop where
  helper  : s.PROV_HELPER ≠ none
  tracker : Intact s.tracker
  file    : ∃ a fi, fileInfoOf s.tracker o = .ok a ∧ s.tracker.files a = some fi

theorem Through.of_same {o : ProvObj} (ht : Through s o) (hsame : s'.PROV_HELPER = s.PROV_HELPER) : Through s' o := by
  obtain ⟨hne, hi, hfile⟩ := ht
  have htracker : s'.tracker = s.tracker := by rw [Conn.tracker, Conn.tracker, hsame]
  exact ⟨by rw [hsame]; exact hne, by rw [htracker]; exact hi, by rw [htracker]; exact hfile⟩

theorem Through.wrap {k : ObjClass} {m : Made} {o : ProvObj} (ht : Through s o) (hk : k ≠ .dataset) (name : Option CStr)
    (hmade : m.under ≠ none) : ∃ s' w, objWrapUnder s m o name (.obj k) = .ok (s', some w) ∧ Through s' w ∧
      ∀ o', Through s o' → Through s' o' := by
  obtain ⟨u, hu⟩ := Option.ne_none_iff_exists'.1 hmade
  obtain ⟨h, hh⟩ := Option.ne_none_iff_exists'.1 ht.helper
  obtain ⟨htracker, a, fi, hup, hfi⟩ := And.intro ht.tracker ht.file
  rw [show s.tracker = h by rw [Conn.tracker, hh]; rfl] at htracker hup hfi
  obtain ⟨h', node, hadd, hstays, info, hinfo, hhome⟩ := addNode_stays (h := provenanceNewObj h)
    (intact_keeping.newObj htracker) (k := k) hfi m.cmp (u.info.getD (m.stack_no, m.stack_token)).2
    (show (newObjInfo k a name (u.info.getD (m.stack_no, m.stack_token)).2).file_info = a from rfl)
  have hkeep : Intact h' := (intact_keeping.newObj htracker).addNode
    (show (newObjInfo k a name _).cls = k from rfl) rfl hadd
  have hrun : objWrapUnder s m o name (.obj k) =
      .ok ({ s with PROV_HELPER := some h' }, some ⟨some u, .obj k, node⟩) := by
    unfold objWrapUnder
    rw [hu]
    dsimp only
    have hwrap : wrapUnder h m u o name (.obj k) = .ok (h', ⟨some u, .obj k, node⟩) := by
      unfold wrapUnder
      rw [hup, ok_bind, addTargetNode_eq hk, hadd]
      rfl
    rw [onHelper_eq_ok.2 ⟨h, h', hh, hwrap, rfl⟩]
    rfl
  have hfile : ∀ b fb, h.files b = some fb → ∃ fb', h'.files b = some fb' := hstays.files
  refine ⟨_, _, hrun, ⟨Option.some_ne_none h', hkeep, ?_⟩, fun o' ht' => ⟨Option.some_ne_none h', hkeep, ?_⟩⟩
  · obtain ⟨fi', hfi'⟩ := hfile a fi hfi
    refine ⟨a, fi', ?_, hfi'⟩
    show (h'.obj node >>= fun info => pure info.file_info) = _
    rw [obj_eq_ok.2 hinfo, ok_bind, hhome]
    rfl
  · obtain ⟨b, fb, hup', hfb⟩ := ht'.file
    rw [show s.tracker = h by rw [Conn.tracker, hh]; rfl] at hup' hfb
    obtain ⟨fb', hfb'⟩ := hfile b fb hfb
    refine ⟨b, fb', ?_, hfb'⟩
    show fileInfoOf h' o' = .ok b
    unfold fileInfoOf at hup' ⊢
    split at hup'
    · exact hup'
    · obtain ⟨i, hi, hpure⟩ := bind_eq_ok.1 hup'
      cases hpure
      obtain ⟨i', hi', hsame⟩ := hstays.objs _ i (obj_eq_ok.1 hi)
      rw [obj_eq_ok.2 hi', ok_bind, hsame]
      rfl

theorem markAttr_iff {group : ProvObj} (ht : Through s group) (name : Option CStr) (m : Made) :
    ((∃ s', markAttr s group name m = .ok s') ↔ m.under ≠ none) ∧
      ∀ s', markAttr s group name m = .ok s' → ∀ o, Through s o → Through s' o := by
  by_cases hmade : m.under = none
  · have hstop : markAttr s group name m = .error .null := by
      unfold markAttr objWrapUnder
      rw [hmade]
      rfl
    rw [hstop]
    exact ⟨iff_of_false (fun ⟨s', hr⟩ => by cases hr) fun h => h hmade, fun s' hr => by cases hr⟩
  · obtain ⟨s₁, w, hwrap, -, hthrough⟩ := ht.wrap (by decide : ObjClass.attr ≠ .dataset) name hmade
    have hrun : markAttr s group name m = .ok s₁ := by
      unfold markAttr
      rw [hwrap]
      rfl
    rw [hrun]
    exact ⟨iff_of_true ⟨s₁, rfl⟩ hmade, fun s' hr => by cases hr; exact hthrough⟩

theorem markFile_iff {file : ProvObj} (ht : Through s file) (info : VolInfo) (name : Option CStr) (m : Marking) :
    (∃ s', markFile s info name (some file) m = .ok s') ↔ info.prov_file_path ≠ none ∧ m.Complete := by
  unfold markFile Marking.Complete
  dsimp only
  by_cases hgroup : m.group.under = none
  · refine iff_of_false ?_ fun h => h.2.1 hgroup
    rintro ⟨s', hr⟩
    obtain ⟨⟨s₁, group⟩, h1, hr⟩ := bind_eq_ok.1 hr
    unfold objWrapUnder at h1
    rw [hgroup] at h1
    cases h1
    obtain ⟨_, -, hr⟩ := bind_eq_ok.1 hr
    cases hr
  · obtain ⟨s₁, group, h1, ht₁, -⟩ := ht.wrap (by decide : ObjClass.grp ≠ .dataset) name hgroup
    obtain ⟨hpath, hkeep⟩ := markAttr_iff ht₁ name m.attr_path
    rw [h1, ok_bind]
    dsimp only
    constructor
    · rintro ⟨s', hr⟩
      obtain ⟨_, hcpy, hr⟩ := bind_eq_ok.1 hr
      obtain ⟨s₂, h2, hr⟩ := bind_eq_ok.1 hr
      obtain ⟨s₃, h3, -⟩ := bind_eq_ok.1 hr
      refine ⟨fun hnone => ?_, hgroup, hpath.1 ⟨s₂, h2⟩, (markAttr_iff (hkeep s₂ h2 group ht₁) name m.attr_time).1.1 ⟨s₃, h3⟩⟩
      rw [hnone] at hcpy
      cases hcpy
    · rintro ⟨hset, -, hp, htime⟩
      obtain ⟨path, hpath'⟩ := Option.ne_none_iff_exists'.1 hset
      obtain ⟨s₂, h2⟩ := hpath.2 hp
      obtain ⟨htime', hkeep'⟩ := markAttr_iff (hkeep s₂ h2 group ht₁) name m.attr_time
      obtain ⟨s₃, h3⟩ := htime'.2 htime
      obtain ⟨h₃, hh₃⟩ := Option.ne_none_iff_exists'.1 (hkeep' s₃ h3 group (hkeep s₂ h2 group ht₁)).helper
      rw [hpath', show strcpy (some path) = .ok path from rfl, ok_bind, h2, ok_bind, h3, ok_bind]
      exact ⟨_, updHelper_eq_ok.2 ⟨h₃, provenanceFreeObj h₃, hh₃, rfl, rfl⟩⟩

theorem fileOpened_iff (hne : s.PROV_HELPER ≠ none) (hi : Intact s.tracker) (u : Under) (name : Option CStr) :
    ((∃ r, s.onHelper (fun h => fileOpenCommon h u name) = .ok r) ↔
      MeetsNumbered s.tracker (u.file_no.getD 0) s.tracker.opened_files) ∧
    ∀ s' w, s.onHelper (fun h => fileOpenCommon h u name) = .ok (s', w) → Through s' w ∧ s'.process = s.process := by
  obtain ⟨h, hh⟩ := Option.ne_none_iff_exists'.1 hne
  have htracker : s.tracker = h := by rw [Conn.tracker, hh]; rfl
  rw [htracker] at hi ⊢
  have hadd := addFileNode_iff (intact_keeping.newObj hi) name (u.file_no.getD 0)
  refine ⟨⟨fun hreturns => ?_, fun hmeets => ?_⟩, fun s' w hr => ?_⟩
  · obtain ⟨r, hr⟩ := hreturns
    obtain ⟨h₀, h', hh₀, hopen, -⟩ := onHelper_eq_ok.1 (show s.onHelper _ = .ok (r.1, r.2) from hr)
    cases hh.symm.trans hh₀
    obtain ⟨r', hr', -⟩ := bind_eq_ok.1 hopen
    exact hadd.1 ⟨r', hr'⟩
  · obtain ⟨⟨h', node⟩, hr'⟩ := hadd.2 hmeets
    have hopen : fileOpenCommon h u name = .ok (h', ⟨some u, .file, node⟩) := by
      unfold fileOpenCommon
      rw [hr']
      rfl
    exact ⟨_, onHelper_eq_ok.2 ⟨h, h', hh, hopen, rfl⟩⟩
  · obtain ⟨h₀, h', hh₀, hopen, rfl⟩ := onHelper_eq_ok.1 hr
    cases hh.symm.trans hh₀
    obtain ⟨⟨h₁, node⟩, hr', hpure⟩ := bind_eq_ok.1 hopen
    cases hpure
    obtain ⟨fi, hfi⟩ := addFileNode_live hr'
    exact ⟨⟨Option.some_ne_none _, intact_keeping.addFileNode (intact_keeping.newObj hi) hr', node, fi, rfl, hfi⟩, rfl⟩

end

end Provio
