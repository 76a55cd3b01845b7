import Provio.HolderRuns
/-!
# Queries — what the tracker does with the answers of the underlying connector

The tracker asks for an object's file number and token, for a file's number, and whether two tokens are the same, and
looks at none of the return codes.  What a callback asks is read off its arguments (`Callback.asked`); a tracker
function whose queries succeed adds and finds nodes by their answers alone (`Rests`).
-/
namespace Provio

/-! ## What a callback asks -/

def TokenCmp.Answers (c : TokenCmp) : Prop := ∀ t t', (c.cmp t t').isSome

/-- `H5VLfile_get` or `H5VLobject_get` succeeds. -/
def Under.Answers (u : Under) : ObjType → Prop
  | .file  => u.file_no.isSome
  | .obj _ => u.info.isSome

/-- The number that a file node would get is not 0. -/
def Under.NonZero (u : Under) : ObjType → Prop
  | .file         => u.file_no ≠ some 0
  | .obj .dataset => ∀ t, u.info ≠ some (0, t)
  | .obj _        => True

def Callback.mades (rank : Int) : Callback → List (Made × ObjType)
  | .make f _ _ m _       => [(m, .obj f.target)]
  | .attrOpen _ _ _ m _   => [(m, .obj .attr)]
  | .fileCall _ _ _ _ m _ =>
    if rank = 0 then [(m.group, .obj .grp), (m.attr_path, .obj .attr), (m.attr_time, .obj .attr)] else []
  | .objectOpen _ _ type m => [(m, type)]
  | .wrapObject _ type m   => [(m, type)]
  | _                      => []

def Callback.opens : Callback → Option Under
  | .fileCall _ _ _ under _ _  => under
  | .fileReopen _ true under   => under
  | _                          => none

def Callback.asked (rank : Int) (c : Callback) : List (Under × ObjType) :=
  c.opens.toList.map (·, .file) ++ (c.mades rank).flatMap fun p => p.1.under.toList.map (·, p.2)

def Callback.cmps (rank : Int) : Callback → List TokenCmp
  | .close _ cmp _ _ | .unwrapObject cmp _ _ | .refreshEnd cmp _ _ _ => [cmp]
  | c                                                                => (c.mades rank).map (·.1.cmp)

/-- **Every query of the callback succeeds.** -/
structure Callback.Answers (rank : Int) (c : Callback) : Prop where
  queries : ∀ p ∈ c.asked rank, p.1.Answers p.2
  cmps    : ∀ cmp ∈ c.cmps rank, cmp.Answers

def Callback.NonZero (rank : Int) (c : Callback) : Prop := ∀ p ∈ c.asked rank, p.1.NonZero p.2

/-- A token, or a number, that a query of the callback gave. -/
def Callback.Told (rank : Int) (c : Callback) (t : Token) : Prop := ∃ p ∈ c.asked rank, ∃ n, p.1.info = some (n, t)

def Callback.ToldNo (rank : Int) (c : Callback) (n : Nat) : Prop := ∃ p ∈ c.asked rank, p.1.file_no = some n

/-! ## What rests on answers -/

/-- What `oinfo`, `file_no` and `cmp_value` hold before they are set. -/
structure Unset where
  file_no   : Nat
  token     : Token
  cmp_value : Int

def TokenCmp.unset (c : TokenCmp) (j : Unset) : TokenCmp := { c with uninit := j.cmp_value }

def Made.unset (m : Made) (j : Unset) : Made :=
  { m with cmp := m.cmp.unset j, stack_no := j.file_no, stack_token := j.token }

def Marking.unset (m : Marking) (j : Unset) : Marking := ⟨m.group.unset j, m.attr_path.unset j, m.attr_time.unset j⟩

def Callback.unset (j : Unset) : Callback → Callback
  | .make f o name m t                 => .make f o name (m.unset j) t
  | .attrOpen o name queried m t       => .attrOpen o name queried (m.unset j) t
  | .fileCall f info name under m t    => .fileCall f info name under (m.unset j) t
  | .close k c o ret                   => .close k (c.unset j) o ret
  | .objectOpen o obj_name type m      => .objectOpen o obj_name type (m.unset j)
  | .wrapObject wrap_ctx type m        => .wrapObject wrap_ctx type (m.unset j)
  | .unwrapObject c o under            => .unwrapObject (c.unset j) o under
  | .refreshEnd c hold ret extent      => .refreshEnd (c.unset j) hold ret extent
  | c                                  => c

/-- From `h` to `h'` the lists gain only new nodes, of tokens and numbers that were told, and no file node has number 0
that had another. -/
structure Rests (told : Token → Prop) (toldNo : Nat → Prop) (h h' : ProvHelper) : Prop where
  kept    : Kept h h'
  nodes   : ∀ a fi', h'.files a = some fi' → ∀ k, ∀ o ∈ fi'.opened k, (∃ fi, h.files a = some fi ∧ o ∈ fi.opened k) ∨
    (h.next ≤ o ∧ o < h'.next ∧ ∀ i', h'.objs o = some i' → told i'.token)
  files   : ∀ a ∈ h'.opened_files, a ∈ h.opened_files ∨
    (h.next ≤ a ∧ a < h'.next ∧ ∀ fi', h'.files a = some fi' → toldNo fi'.file_no)
  numbers : ∀ a fi', h'.files a = some fi' → (∃ fi, h.files a = some fi ∧ fi.file_no = fi'.file_no) ∨
    (h.next ≤ a ∧ a < h'.next ∧ fi'.file_no ≠ 0)

/-- The node of a wrapper is of an answered number or token, or was matched by a comparison that succeeded. -/
def Callback.Backs (rank : Int) (c : Callback) (h : ProvHelper) (o : ProvObj) : Prop :=
  match o.my_type with
  | .file  => ∀ fi, h.files o.generic_prov_info = some fi → c.ToldNo rank fi.file_no
  | .obj _ => ∃ t, c.Told rank t ∧ ∀ info, h.objs o.generic_prov_info = some info →
    info.token = t ∨ ∃ cmp ∈ c.cmps rank, cmp.cmp info.token t = some 0

/-- The lists and reference counts of `h`. -/
structure SameLists (h h' : ProvHelper) : Prop where
  opened : h'.opened_files = h.opened_files
  files  : ∀ a, (h'.files a).map (fun fi => (fi.opened, fi.ref_cnt)) = (h.files a).map fun fi => (fi.opened, fi.ref_cnt)
  objs   : ∀ o, (h'.objs o).map ObjInfo.ref_cnt = (h.objs o).map ObjInfo.ref_cnt

/-- **What a callback does to the lists rests on answers**: it adds and matches by them, nothing depends on what was
never set, and if a query fails the lists and reference counts stay. -/
structure QuerySound (rank : Int) (c : Callback) (s : Conn) (app : App) (s' : Conn) (app' : App) : Prop where
  lists   : Rests (c.Told rank) (c.ToldNo rank) s.tracker s'.tracker
  handles : ∀ o ∈ app'.handles, o ∈ app.handles ∨ c.Backs rank s'.tracker o
  unset   : ∀ j, (c.unset j).run s app = .ok (s', app')
  failed  : ¬ c.Answers rank → SameLists s.tracker s'.tracker

/-- No open file has number 0, and the asserts on file numbers hold: that of `add_file_node` on every number that it
passes, and that of `rm_file_node`, which gets the number of a file node. -/
structure FileNoAsserts (h : ProvHelper) : Prop where
  opened : ∀ a ∈ h.opened_files, ∀ fi, h.files a = some fi → fi.file_no ≠ 0
  add    : ∀ file_no, searchFileNode h file_no h.opened_files = searchFile h file_no h.opened_files
  rm     : ∀ a fi, h.files a = some fi → cAssert (decide (fi.file_no ≠ 0)) = .ok ()

/-- Every query of the next callback succeeds and no number is 0. -/
def AllAnswered (w : World) (c : Callback) : Prop :=
  c.Answers w.conn.process.fields.mpi_rank_int ∧ c.NonZero w.conn.process.fields.mpi_rank_int

/-- The next callback is sound, and no assert on a file number fires in any helper that it comes through. -/
def QueriesSafe (w : World) (c : Callback) : Prop :=
  (∀ h, Rests (c.Told w.conn.process.fields.mpi_rank_int) (c.ToldNo w.conn.process.fields.mpi_rank_int) w.conn.tracker h →
    FileNoAsserts h) ∧
  ∀ w', c.step w = .ok w' → QuerySound w.conn.process.fields.mpi_rank_int c w.conn w.app w'.conn w'.app

/-! ## The lists -/

section

variable {told : Token → Prop} {toldNo : Nat → Prop} {h h' h'' : ProvHelper}

theorem Rests.trans (h1 : Rests told toldNo h h') (h2 : Rests told toldNo h' h'') : Rests told toldNo h h'' := by
  refine ⟨h1.kept.trans h2.kept, fun a fi'' hfi'' k o ho => ?_, fun a ha => ?_, fun a fi'' hfi'' => ?_⟩
  · rcases h2.nodes a fi'' hfi'' k o ho with ⟨fi', hfi', ho'⟩ | ⟨hle, hlt, htold⟩
    · rcases h1.nodes a fi' hfi' k o ho' with hold | ⟨hle, hlt, htold⟩
      · exact .inl hold
      · refine .inr ⟨hle, Nat.lt_of_lt_of_le hlt h2.kept.next, fun i'' hi'' => ?_⟩
        obtain ⟨i', hi', -, -, htoken⟩ := h2.kept.objs o hlt i'' hi''
        rw [← htoken]
        exact htold i' hi'
    · exact .inr ⟨Nat.le_trans h1.kept.next hle, hlt, htold⟩
  · rcases h2.files a ha with ha' | ⟨hle, hlt, htold⟩
    · rcases h1.files a ha' with hold | ⟨hle, hlt, htold⟩
      · exact .inl hold
      · refine .inr ⟨hle, Nat.lt_of_lt_of_le hlt h2.kept.next, fun fi'' hfi'' => ?_⟩
        obtain ⟨fi', hfi', hno⟩ := h2.kept.files a hlt fi'' hfi''
        rw [← hno]
        exact htold fi' hfi'
    · exact .inr ⟨Nat.le_trans h1.kept.next hle, hlt, htold⟩
  · rcases h2.numbers a fi'' hfi'' with ⟨fi', hfi', hno'⟩ | ⟨hle, hlt, hne⟩
    · rcases h1.numbers a fi' hfi' with ⟨fi, hfi, hno⟩ | ⟨hle, hlt, hne⟩
      · exact .inl ⟨fi, hfi, hno.trans hno'⟩
      · rw [hno'] at hne
        exact .inr ⟨hle, Nat.lt_of_lt_of_le hlt h2.kept.next, hne⟩
    · exact .inr ⟨Nat.le_trans h1.kept.next hle, hlt, hne⟩

/-- **The invariant**: every file node is at an address that was given out, and has a number. -/
def Numbered (h : ProvHelper) : Prop := ∀ a fi, h.files a = some fi → a < h.next ∧ fi.file_no ≠ 0

theorem numbered_init : Numbered .init := nofun

theorem Rests.numbered (hrests : Rests told toldNo h h') (hnum : Numbered h) : Numbered h' := by
  intro a fi' hfi'
  rcases hrests.numbers a fi' hfi' with ⟨fi, hfi, hno⟩ | ⟨-, hlt, hne⟩
  · obtain ⟨hlt, hne⟩ := hnum a fi hfi
    rw [hno] at hne
    exact ⟨Nat.lt_of_lt_of_le hlt hrests.kept.next, hne⟩
  · exact ⟨hlt, hne⟩

theorem Rests.same_no (hrests : Rests told toldNo h h') {a : Addr} (ha : a < h.next) {fi' : FileInfo}
    (hfi' : h'.files a = some fi') : ∃ fi, h.files a = some fi ∧ fi.file_no = fi'.file_no := by
  rcases hrests.numbers a fi' hfi' with hold | ⟨hle, -, -⟩
  · exact hold
  · exact absurd ha (Nat.not_lt.2 hle)

theorem Numbered.assert (hnum : Numbered h) {a : Addr} {fi : FileInfo} (hfi : h.files a = some fi) :
    cAssert (decide (fi.file_no ≠ 0)) = .ok () := by
  have hne := (hnum a fi hfi).2
  exact cAssert_eq_ok.2 (by simpa using hne)

theorem Numbered.search (hnum : Numbered h) (file_no : Nat) : ∀ l, searchFileNode h file_no l = searchFile h file_no l
  | [] => rfl
  | cur :: rest => by
    rw [searchFileNode, searchFile]
    cases hcur : h.files cur with
    | none => simp [ProvHelper.file, hcur]
    | some fi =>
      rw [file_eq_ok.2 hcur, ok_bind, ok_bind, hnum.assert hcur, ok_bind, hnum.search file_no rest]

theorem Numbered.asserts (hnum : Numbered h) : FileNoAsserts h :=
  ⟨fun a _ fi hfi => (hnum a fi hfi).2, fun file_no => hnum.search file_no h.opened_files, fun _ _ hfi => hnum.assert hfi⟩

theorem Rests.shrink (hk : Kept h h') (hfiles : ∀ a fi', h'.files a = some fi' → ∃ fi, h.files a = some fi ∧
    fi.file_no = fi'.file_no ∧ ∀ k, ∀ o ∈ fi'.opened k, o ∈ fi.opened k)
    (hopened : ∀ a ∈ h'.opened_files, a ∈ h.opened_files) : Rests told toldNo h h' := by
  refine ⟨hk, fun a fi' hfi' k o ho => ?_, fun a ha => .inl (hopened a ha), fun a fi' hfi' => ?_⟩
  · obtain ⟨fi, hfi, -, hlist⟩ := hfiles a fi' hfi'
    exact .inl ⟨fi, hfi, hlist k o ho⟩
  · obtain ⟨fi, hfi, hno, -⟩ := hfiles a fi' hfi'
    exact .inl ⟨fi, hfi, hno⟩

theorem Rests.of_same (hk : Kept h h') (hfiles : h'.files = h.files) (hopened : h'.opened_files = h.opened_files) :
    Rests told toldNo h h' := by
  refine .shrink hk (fun a fi' hfi' => ⟨fi', ?_, rfl, fun _ _ ho => ho⟩) fun a ha => ?_
  · rw [← hfiles]
    exact hfi'
  · rw [← hopened]
    exact ha

theorem Rests.refl (h : ProvHelper) : Rests told toldNo h h := .of_same (.refl h) rfl rfl

theorem setFile_rests {a : Addr} {fi fi' : FileInfo} (hfi : h.files a = some fi) (hno : fi.file_no = fi'.file_no)
    (hlist : ∀ k, ∀ o ∈ fi'.opened k, o ∈ fi.opened k) : Rests told toldNo h (h.setFile a fi') := by
  refine .shrink (setFile_kept hfi hno) (fun b fb hfb => ?_) fun _ ha => ha
  by_cases hb : b = a
  · subst hb
    rw [setFile_self] at hfb
    cases hfb
    exact ⟨fi, hfi, hno, hlist⟩
  · rw [setFile_files, Function.update_of_ne hb] at hfb
    exact ⟨fb, hfb, rfl, fun _ _ ho => ho⟩

theorem refFile_rests {a : Addr} (hr : h.refFile a = .ok h') : Rests told toldNo h h' := by
  obtain ⟨fi, hfi, rfl⟩ := refFile_eq_ok.1 hr
  exact setFile_rests hfi rfl fun _ _ ho => ho

theorem refObj_rests {o : Addr} (hr : h.refObj o = .ok h') : Rests told toldNo h h' := by
  have hk := refObj_kept hr
  obtain ⟨i, hi, rfl⟩ := refObj_eq_ok.1 hr
  exact .of_same hk rfl rfl

theorem updateDs_rests {o : Addr} {f : DsInfo → DsInfo} (hr : updateDs h o f = .ok h') : Rests told toldNo h h' := by
  obtain ⟨i, hi, hpure⟩ := bind_eq_ok.1 hr
  cases hpure
  exact .of_same (setObj_kept (obj_eq_ok.1 hi) rfl rfl rfl) rfl rfl

theorem fileDsAccessed_rests {a : Addr} (hr : fileDsAccessed h a = .ok h') : Rests told toldNo h h' := by
  obtain ⟨fi, hfi, hpure⟩ := bind_eq_ok.1 hr
  cases hpure
  exact setFile_rests (file_eq_ok.1 hfi) rfl fun _ _ ho => ho

theorem allocFile_rests {fi : FileInfo} (hlist : ∀ k, fi.opened k = []) (hno : fi.file_no ≠ 0) :
    Rests told toldNo h (h.allocFile fi) := by
  have hfiles : ∀ a fi', (h.allocFile fi).files a = some fi' → a = h.next ∧ fi' = fi ∨ h.files a = some fi' := by
    intro a fi' hfi'
    by_cases ha : a = h.next
    · subst ha
      rw [ProvHelper.allocFile, setFile_self] at hfi'
      exact .inl ⟨rfl, (Option.some.inj hfi').symm⟩
    · right
      simpa [ProvHelper.allocFile, ha] using hfi'
  refine ⟨allocFile_kept fi, fun a fi' hfi' k o ho => ?_, fun _ ha => .inl ha, fun a fi' hfi' => ?_⟩
  · rcases hfiles a fi' hfi' with ⟨-, rfl⟩ | hold
    · rw [hlist] at ho
      cases ho
    · exact .inl ⟨fi', hold, ho⟩
  · rcases hfiles a fi' hfi' with ⟨rfl, rfl⟩ | hold
    · exact .inr ⟨Nat.le_refl _, Nat.lt_succ_self _, hno⟩
    · exact .inl ⟨fi', hold, rfl⟩

theorem refFile_no {a : Addr} {no : Nat} (hno : ∀ fi, h.files a = some fi → fi.file_no = no)
    (hr : h.refFile a = .ok h') : ∃ fi, h'.files a = some fi ∧ fi.file_no = no := by
  obtain ⟨fi, hfi, rfl⟩ := refFile_eq_ok.1 hr
  exact ⟨{ fi with ref_cnt := fi.ref_cnt + 1 }, setFile_self _ _ _, hno fi hfi⟩

theorem addFileNode_rests {name : Option CStr} {no : Nat} {a : Addr} (hno : no ≠ 0) (htold : toldNo no)
    (hr : addFileNode h name no = .ok (h', a)) :
    Rests told toldNo h h' ∧ ∃ fi, h'.files a = some fi ∧ fi.file_no = no := by
  obtain ⟨_, -, hr⟩ := bind_eq_ok.1 hr
  obtain ⟨r, hsearch, hr⟩ := bind_eq_ok.1 hr
  cases r with
  | some cur =>
    obtain ⟨h₁, href, hpure⟩ := bind_eq_ok.1 hr
    cases hpure
    refine ⟨refFile_rests href, refFile_no (fun fi hfi => ?_) href⟩
    obtain ⟨-, fi', hfi', hfound⟩ := searchFile_spec (searchFile_of_node hsearch)
    rw [hfi] at hfi'
    cases hfi'
    exact hfound
  | none =>
    obtain ⟨h₁, href, hpure⟩ := bind_eq_ok.1 hr
    cases hpure
    have halloc : Rests told toldNo h (h.allocFile (newFileInfo name no)) := allocFile_rests (fun _ => rfl) hno
    have hlink : Rests told toldNo h { h.allocFile (newFileInfo name no) with
        opened_files := h.next :: h.opened_files, opened_files_cnt := h.opened_files_cnt + 1 } := by
      refine ⟨halloc.kept.trans (.of_eq (Nat.le_refl _) rfl rfl), halloc.nodes, fun b hb => ?_, halloc.numbers⟩
      obtain rfl | hb := List.mem_cons.1 hb
      · refine .inr ⟨Nat.le_refl _, Nat.lt_succ_self _, fun fi hfi => ?_⟩
        rw [ProvHelper.allocFile, setFile_self] at hfi
        cases hfi
        exact htold
      · exact .inl hb
    refine ⟨hlink.trans (refFile_rests href), refFile_no (fun fi hfi => ?_) href⟩
    rw [ProvHelper.allocFile, setFile_self] at hfi
    cases hfi
    rfl

theorem homeFile_rests {no : Nat} {file_info_in a : Addr} (hno : no ≠ 0) (hr : homeFile h no file_info_in = .ok (h', a)) :
    Rests told toldNo h h' := by
  obtain ⟨fi, -, hr⟩ := bind_eq_ok.1 hr
  split at hr
  · obtain ⟨⟨h₁, r⟩, hsearch, hr⟩ := bind_eq_ok.1 hr
    have hfound : Rests told toldNo h h₁ := by
      unfold searchHomeFile at hsearch
      split at hsearch
      · cases hsearch
        exact .refl h
      · obtain ⟨r', -, hsearch⟩ := bind_eq_ok.1 hsearch
        cases r' with
        | none =>
          cases hsearch
          exact .refl h
        | some cur =>
          obtain ⟨h₂, href, hpure⟩ := bind_eq_ok.1 hsearch
          cases hpure
          exact refFile_rests href
    cases r with
    | some external_home_file =>
      cases hr
      exact hfound
    | none =>
      cases hr
      exact hfound.trans (allocFile_rests (fun _ => rfl) hno)
  · cases hr
    exact .refl h

/-- **A node is found by a comparison that succeeded.** -/
theorem findNode_matched {c : TokenCmp} (hc : c.Answers) {token : Token} : ∀ {l : List Addr} {v : Int} {o : Addr},
    findNode h c token v l = .ok (some o) → ∃ info, h.objs o = some info ∧ c.cmp info.token token = some 0
  | [], _, _, hr => by cases hr
  | cur :: rest, v, o, hr => by
    obtain ⟨info, hinfo, hr⟩ := bind_eq_ok.1 hr
    obtain ⟨x, hx⟩ := Option.isSome_iff_exists.1 (hc info.token token)
    rw [hx, Option.getD_some] at hr
    split at hr
    · rename_i hzero
      cases hr
      rw [hzero] at hx
      exact ⟨info, obj_eq_ok.1 hinfo, hx⟩
    · exact findNode_matched hc hr

theorem addNode_rests {k : ObjClass} {c : TokenCmp} (hc : c.Answers) {file_info : Addr} {token : Token} (htold : told token)
    {new : ObjInfo} (hnew : new.token = token) {o : Addr} (hr : addNode k h c file_info token new = .ok (h', o)) :
    Rests told toldNo h h' ∧ ∀ i, h'.objs o = some i → i.token = token ∨ c.cmp i.token token = some 0 := by
  have hkept := addNode_kept hr
  obtain ⟨fi, hfi, hr⟩ := bind_eq_ok.1 hr
  obtain ⟨r, hfind, hr⟩ := bind_eq_ok.1 hr
  cases r with
  | some cur =>
    obtain ⟨h₁, href, hpure⟩ := bind_eq_ok.1 hr
    cases hpure
    refine ⟨refObj_rests href, fun i' hi' => .inr ?_⟩
    obtain ⟨info, hinfo, hmatch⟩ := findNode_matched hc hfind
    obtain ⟨i, hi, rfl⟩ := refObj_eq_ok.1 href
    rw [hi] at hinfo
    cases hinfo
    rw [setObj_objs, Function.update_self] at hi'
    cases hi'
    exact hmatch
  | none =>
    obtain ⟨h₁, href, hpure⟩ := bind_eq_ok.1 hr
    cases hpure
    obtain ⟨i, hi, rfl⟩ := refObj_eq_ok.1 href
    have hobj : (h.linkObj k file_info fi new).objs h.next = some new := by simp [ProvHelper.linkObj]
    rw [hobj] at hi
    cases hi
    have htoken : ∀ i', ((h.linkObj k file_info fi new).setObj h.next
        { new with ref_cnt := new.ref_cnt + 1 }).objs h.next = some i' → i'.token = token := by
      intro i' hi'
      rw [setObj_objs, Function.update_self] at hi'
      cases hi'
      exact hnew
    refine ⟨⟨hkept, fun b fb hfb k' x hx => ?_, fun b hb => .inl hb, fun b fb hfb => ?_⟩,
      fun i' hi' => .inl (htoken i' hi')⟩
    · by_cases hb : b = file_info
      · subst hb
        have hfb' : fb.opened = Function.update fi.opened k (h.next :: fi.opened k) := by
          simp only [ProvHelper.linkObj, setObj_files, setFile_files, Function.update_self, Option.some.injEq] at hfb
          rw [← hfb]
        rw [hfb', mem_update_cons] at hx
        rcases hx with ⟨-, rfl⟩ | hx
        · refine .inr ⟨Nat.le_refl _, Nat.lt_succ_self _, fun i' hi' => ?_⟩
          rw [htoken i' hi']
          exact htold
        · exact .inl ⟨fi, file_eq_ok.1 hfi, hx⟩
      · refine .inl ⟨fb, ?_, hx⟩
        simpa [ProvHelper.linkObj, hb] using hfb
    · by_cases hb : b = file_info
      · subst hb
        simp only [ProvHelper.linkObj, setObj_files, setFile_files, Function.update_self, Option.some.injEq] at hfb
        rw [← hfb]
        exact .inl ⟨fi, file_eq_ok.1 hfi, rfl⟩
      · refine .inl ⟨fb, ?_, rfl⟩
        simpa [ProvHelper.linkObj, hb] using hfb

def NodeBacked (h : ProvHelper) (u : Under) (cmp : TokenCmp) (node : Addr) : ObjType → Prop
  | .file  => ∃ fi, h.files node = some fi ∧ u.file_no = some fi.file_no
  | .obj _ => ∃ n t, u.info = some (n, t) ∧ ∀ i, h.objs node = some i → i.token = t ∨ cmp.cmp i.token t = some 0

/-- **Wrapping an object that answers adds or finds its node by the answers.** -/
theorem addTargetNode_rests {m : Made} {u : Under} {type : ObjType} (hc : m.cmp.Answers) (hu : u.Answers type)
    (hnz : u.NonZero type) (htold : ∀ n t, u.info = some (n, t) → told t) (hno : ∀ n, u.file_no = some n → toldNo n)
    {file_info node : Addr} {name : Option CStr} (hr : addTargetNode h m u file_info name type = .ok (h', node)) :
    Rests told toldNo h h' ∧ NodeBacked h' u m.cmp node type := by
  cases type with
  | file =>
    obtain ⟨n, hn⟩ := Option.isSome_iff_exists.1 hu
    unfold addTargetNode at hr
    rw [hn, Option.getD_some] at hr
    have hne : n ≠ 0 := by
      rintro rfl
      exact hnz hn
    obtain ⟨hrests, fi, hfi, rfl⟩ := addFileNode_rests hne (hno n hn) hr
    exact ⟨hrests, fi, hfi, hn⟩
  | obj k =>
    obtain ⟨⟨n, t⟩, hinfo⟩ := Option.isSome_iff_exists.1 hu
    have hadd : ∀ {h₁ h₂ : ProvHelper} {file_info : Addr} {new : ObjInfo}, new.token = t →
        addNode k h₁ m.cmp file_info t new = .ok (h₂, node) → Rests told toldNo h₁ h₂ ∧ NodeBacked h₂ u m.cmp node (.obj k) := by
      intro h₁ h₂ file_info new hnew hrun
      obtain ⟨hrests, hfound⟩ := addNode_rests hc (htold n t hinfo) hnew hrun
      exact ⟨hrests, n, t, hinfo, hfound⟩
    unfold addTargetNode at hr
    simp only [hinfo, Option.getD_some] at hr
    cases k with
    | dataset =>
      obtain ⟨⟨h₁, node'⟩, h1, hr⟩ := bind_eq_ok.1 hr
      obtain ⟨h₂, h2, hpure⟩ := bind_eq_ok.1 hr
      cases hpure
      obtain ⟨⟨h₃, home⟩, h3, h1⟩ := bind_eq_ok.1 h1
      have hne : n ≠ 0 := by
        rintro rfl
        exact hnz t hinfo
      have htoken := (newDsProvInfo_obj u.shape t home name).2.2.2
      obtain ⟨hrests, n', t', hinfo', hfound⟩ := hadd htoken h1
      have hobjs : h'.objs = h₁.objs := by
        obtain ⟨fi, -, hpure⟩ := bind_eq_ok.1 h2
        cases hpure
        rfl
      refine ⟨((homeFile_rests hne h3).trans hrests).trans (fileDsAccessed_rests h2), n', t', hinfo', ?_⟩
      rw [hobjs]
      exact hfound
    | grp => exact hadd rfl hr
    | dtype => exact hadd rfl hr
    | attr => exact hadd rfl hr

theorem provenanceNewObj_rests : Rests told toldNo h (provenanceNewObj h) := .of_same provenanceNewObj_kept rfl rfl

theorem provenanceFreeObj_rests : Rests told toldNo h (provenanceFreeObj h) := .of_same provenanceFreeObj_kept rfl rfl

theorem wrapUnder_rests {m : Made} {u : Under} {type : ObjType} (hc : m.cmp.Answers) (hu : u.Answers type)
    (hnz : u.NonZero type) (htold : ∀ n t, u.info = some (n, t) → told t) (hno : ∀ n, u.file_no = some n → toldNo n)
    {upper_o o : ProvObj} {name : Option CStr} (hr : wrapUnder h m u upper_o name type = .ok (h', o)) :
    Rests told toldNo h h' ∧ o.my_type = type ∧ NodeBacked h' u m.cmp o.generic_prov_info type := by
  obtain ⟨a, -, hr⟩ := bind_eq_ok.1 hr
  obtain ⟨⟨h₁, node⟩, hadd, hpure⟩ := bind_eq_ok.1 hr
  cases hpure
  obtain ⟨hrests, hbacked⟩ := addTargetNode_rests hc hu hnz htold hno hadd
  exact ⟨provenanceNewObj_rests.trans hrests, rfl, hbacked⟩

/-! ## What is removed -/

theorem rmFileNode_rests {no : Nat} {n : Int} (hr : rmFileNode h no = .ok (h', n)) : Rests told toldNo h h' := by
  have hkept := rmFileNode_kept hr
  simp only [rmFileNode, bind_eq_ok] at hr
  obtain ⟨_, _, _, _, _, _, r, _, hr⟩ := hr
  cases r with
  | none =>
    cases hr
    exact .refl h
  | some cur =>
    obtain ⟨fi, hfi, hr⟩ := bind_eq_ok.1 hr
    split at hr
    · simp only [bind_eq_ok, pure, Except.pure, Except.ok.injEq, Prod.mk.injEq] at hr
      obtain ⟨_, _, _, _, _, _, _, _, _, _, rfl, _⟩ := hr
      refine .shrink hkept (fun b fb hfb => ⟨fb, ?_, rfl, fun _ _ ho => ho⟩) fun b hb => List.mem_of_mem_erase hb
      by_cases hb : b = cur
      · subst hb
        simp [ProvHelper.freeFile] at hfb
      · simpa [ProvHelper.freeFile, hb] using hfb
    · cases hr
      exact setFile_rests (file_eq_ok.1 hfi) rfl fun _ _ ho => ho

theorem rmNode_rests {k : ObjClass} {c : TokenCmp} {o : Addr} {n : Int} (hr : rmNode k h c o = .ok (h', n)) :
    Rests told toldNo h h' := by
  simp only [rmNode, bind_eq_ok, obj_eq_ok] at hr
  obtain ⟨info, hinfo, hr⟩ := hr
  have h1 : Rests told toldNo h (h.setObj o { info with ref_cnt := info.ref_cnt - 1 }) :=
    .of_same (setObj_kept hinfo rfl rfl rfl) rfl rfl
  split at hr
  · cases hr
    exact h1
  · simp only [bind_eq_ok, file_eq_ok] at hr
    obtain ⟨fi, hfi, _, _, r, _, hr⟩ := hr
    cases r with
    | none =>
      cases hr
      exact h1
    | some cur =>
      simp only [bind_eq_ok] at hr
      obtain ⟨_, _, ⟨h₂, n'⟩, hrm, hpure⟩ := hr
      cases hpure
      refine Rests.trans ?_ (rmFileNode_rests hrm)
      refine (h1.trans (.of_same (freeObj_kept cur) rfl rfl)).trans ?_
      refine setFile_rests hfi rfl fun k' x hx => ?_
      dsimp only at hx
      by_cases hk : k' = k
      · subst hk
        rw [Function.update_self] at hx
        exact List.mem_of_mem_erase hx
      · rwa [Function.update_of_ne hk] at hx

theorem releaseFile_rests {a : Addr} (hr : releaseFile h a = .ok h') : Rests told toldNo h h' := by
  obtain ⟨fi, -, hr⟩ := bind_eq_ok.1 hr
  obtain ⟨⟨h₁, n⟩, hrm, hpure⟩ := bind_eq_ok.1 hr
  cases hpure
  exact rmFileNode_rests hrm

theorem rmTargetNode_rests {c : TokenCmp} {o : ProvObj} (hr : rmTargetNode h c o = .ok h') : Rests told toldNo h h' := by
  unfold rmTargetNode at hr
  split at hr
  · exact releaseFile_rests hr
  · obtain ⟨⟨h₁, n⟩, hrm, hpure⟩ := bind_eq_ok.1 hr
    cases hpure
    exact rmNode_rests hrm

end

/-! ## The callbacks -/

section

variable {told : Token → Prop} {toldNo : Nat → Prop} {s s' : Conn} {app app' : App} {rank : Int}

theorem onSuccess_rests {ret : Bool} {f : ProvHelper → Except Fault ProvHelper} (hr : s.onSuccess ret f = .ok s')
    (hf : ∀ h h', f h = .ok h' → Rests told toldNo h h') : Rests told toldNo s.tracker s'.tracker := by
  rcases onSuccess_tracker hr with ⟨-, hrun⟩ | ⟨-, hsame⟩
  · exact hf _ _ hrun
  · rw [hsame]
    exact .refl _

theorem counted_rests {o : ProvObj} (hc : Counted s s' o) : Rests told toldNo s.tracker s'.tracker := by
  rcases hc with hsame | ⟨h, h', f, hh, hr, hh'⟩
  · rw [Conn.tracker, Conn.tracker, hsame]
    exact .refl _
  · rw [Conn.tracker, Conn.tracker, hh, hh']
    exact updateDs_rests hr

/-! ### Closing and refreshing -/

theorem fileClose_rests {o : ProvObj} {ret r : Bool} (hr : fileClose s o ret = .ok (s', r)) :
    Rests told toldNo s.tracker s'.tracker := by
  obtain ⟨s₁, h1, hpure⟩ := bind_eq_ok.1 hr
  cases hpure
  apply onSuccess_rests h1
  intro h h' hrun
  obtain ⟨h₁, hrel, hpure⟩ := bind_eq_ok.1 hrun
  cases hpure
  exact (releaseFile_rests hrel).trans provenanceFreeObj_rests

theorem closeOf_rests {k : ObjClass} {c : TokenCmp} {o : ProvObj} {ret r : Bool} (hr : closeOf k s c o ret = .ok (s', r)) :
    Rests told toldNo s.tracker s'.tracker := by
  rw [closeOf_eq] at hr
  obtain ⟨s₁, h1, hpure⟩ := bind_eq_ok.1 hr
  cases hpure
  apply onSuccess_rests h1
  intro h h' hrun
  obtain ⟨⟨h₁, n⟩, hrm, hpure⟩ := bind_eq_ok.1 hrun
  cases hpure
  exact (rmNode_rests hrm).trans provenanceFreeObj_rests

theorem unwrapObject_rests {c : TokenCmp} {o : ProvObj} {under r : Bool} (hr : unwrapObject s c o under = .ok (s', r)) :
    Rests told toldNo s.tracker s'.tracker := by
  obtain ⟨s₁, h1, hpure⟩ := bind_eq_ok.1 hr
  cases hpure
  apply onSuccess_rests h1
  intro h h' hrun
  obtain ⟨h₁, hrm, hpure⟩ := bind_eq_ok.1 hrun
  cases hpure
  exact (rmTargetNode_rests hrm).trans provenanceFreeObj_rests

theorem getWrapCtx_rests {o : ProvObj} {a : Addr} (hr : getWrapCtx s o = .ok (s', a)) :
    Rests told toldNo s.tracker s'.tracker := by
  obtain ⟨b, -, hrun⟩ := bind_eq_ok.1 (onHelper_tracker hr)
  obtain ⟨h₁, htake, hpure⟩ := bind_eq_ok.1 hrun
  obtain ⟨hsame, -⟩ := Prod.mk.inj (Except.ok.inj hpure)
  rw [← hsame]
  exact refFile_rests htake

theorem setExtent_rests {o : ProvObj} {ret : Bool} {new_size : List (BitVec 64)} (hr : setExtent s o ret new_size = .ok s') :
    Rests told toldNo s.tracker s'.tracker := by
  apply onSuccess_rests hr
  intro h h' hrun
  obtain ⟨info, -, hrun⟩ := bind_eq_ok.1 hrun
  split at hrun
  · split at hrun
    · cases hrun
    · exact updateDs_rests hrun
  · cases hrun
    exact .refl h

theorem refreshBegin_rests {specific : Specific} {o : ProvObj} {hold : Hold}
    (hr : refreshBegin s specific o = .ok (s', hold)) : Rests told toldNo s.tracker s'.tracker := by
  unfold refreshBegin at hr
  split at hr
  · cases hr
  · obtain ⟨_, -, hr⟩ := bind_eq_ok.1 hr
    obtain ⟨h₁, href, hpure⟩ := bind_eq_ok.1 (onHelper_tracker hr)
    obtain ⟨hsame, -⟩ := Prod.mk.inj (Except.ok.inj hpure)
    rw [← hsame]
    exact refObj_rests href

theorem refreshEnd_rests {cmp : TokenCmp} {hold : Hold} {ret : Bool} {extent : Extent}
    (hr : refreshEnd s cmp hold ret extent = .ok s') : Rests told toldNo s.tracker s'.tracker := by
  have released : ∀ h, (rmNode hold.cls h cmp hold.info >>= fun r => pure r.1) = .ok s'.tracker →
      Rests told toldNo h s'.tracker := by
    intro h hrun
    obtain ⟨⟨h₁, m⟩, hrm, hpure⟩ := bind_eq_ok.1 hrun
    rw [← show h₁ = s'.tracker from Except.ok.inj hpure]
    exact rmNode_rests hrm
  have hrun := updHelper_tracker hr
  dsimp only at hrun
  split at hrun
  · obtain ⟨h₁, hfresh, hrm⟩ := bind_eq_ok.1 hrun
    refine Rests.trans ?_ (released h₁ hrm)
    obtain ⟨info, -, hfresh⟩ := bind_eq_ok.1 hfresh
    obtain ⟨_, -, hfresh⟩ := bind_eq_ok.1 hfresh
    split at hfresh
    · cases hfresh
    · split at hfresh
      · exact updateDs_rests hfresh
      · cases hfresh
        exact .refl _
  · exact released _ hrun

/-! ### Wrapping and opening -/

/-- A made object whose queries succeed, as a callback's are. -/
structure Made.Sound (told : Token → Prop) (toldNo : Nat → Prop) (m : Made) (type : ObjType) : Prop where
  cmp     : m.cmp.Answers
  answers : ∀ u, m.under = some u → u.Answers type ∧ u.NonZero type ∧ (∀ n t, u.info = some (n, t) → told t) ∧
    ∀ n, u.file_no = some n → toldNo n

theorem objWrapUnder_rests {m : Made} {type : ObjType} (hm : m.Sound told toldNo type) {upper_o : ProvObj}
    {name : Option CStr} {obj : Option ProvObj} (hr : objWrapUnder s m upper_o name type = .ok (s', obj)) :
    Rests told toldNo s.tracker s'.tracker ∧ ∀ o ∈ obj, o.my_type = type ∧ ∃ u, m.under = some u ∧
      NodeBacked s'.tracker u m.cmp o.generic_prov_info type := by
  unfold objWrapUnder at hr
  cases hu : m.under with
  | none =>
    rw [hu] at hr
    cases hr
    exact ⟨.refl _, nofun⟩
  | some u =>
    rw [hu] at hr
    obtain ⟨⟨s₁, w⟩, h1, hr⟩ := bind_eq_ok.1 hr
    cases hr
    obtain ⟨hans, hnz, htold, hno⟩ := hm.answers u hu
    obtain ⟨hrests, htype, hbacked⟩ := wrapUnder_rests hm.cmp hans hnz htold hno (onHelper_tracker h1)
    refine ⟨hrests, fun o ho => ?_⟩
    cases ho
    exact ⟨htype, u, rfl, hbacked⟩

theorem wrapObject_rests {m : Made} {type : ObjType} (hm : m.Sound told toldNo type) {a : Addr} {obj : Option ProvObj}
    (hr : wrapObject s a type m = .ok (s', obj)) :
    Rests told toldNo s.tracker s'.tracker ∧ ∀ o ∈ obj, o.my_type = type ∧ ∃ u, m.under = some u ∧
      NodeBacked s'.tracker u m.cmp o.generic_prov_info type := by
  unfold wrapObject at hr
  cases hu : m.under with
  | none =>
    rw [hu] at hr
    cases hr
    exact ⟨.refl _, nofun⟩
  | some u =>
    rw [hu] at hr
    obtain ⟨⟨s₁, fake⟩, h1, hr⟩ := bind_eq_ok.1 hr
    obtain ⟨⟨s₂, w⟩, h2, hr⟩ := bind_eq_ok.1 hr
    obtain ⟨s₃, h3, hr⟩ := bind_eq_ok.1 hr
    cases hr
    have hnew : Rests told toldNo s.tracker s₁.tracker := by
      have hfake := onHelper_tracker h1
      simp only [pure, Except.pure, Except.ok.injEq, Prod.mk.injEq] at hfake
      rw [← hfake.1]
      exact provenanceNewObj_rests
    obtain ⟨hwrap, hbacked⟩ := objWrapUnder_rests hm h2
    have hfree := updHelper_tracker h3
    simp only [pure, Except.pure, Except.ok.injEq] at hfree
    refine ⟨(hnew.trans hwrap).trans ?_, fun o ho => ?_⟩
    · rw [← hfree]
      exact provenanceFreeObj_rests
    · rw [← hfree, ← hu]
      exact hbacked o ho

theorem fileOpenCommon_rests {h h' : ProvHelper} {u : Under} (hu : u.Answers .file) (hnz : u.NonZero .file)
    (hno : ∀ n, u.file_no = some n → toldNo n) {name : Option CStr} {o : ProvObj}
    (hr : fileOpenCommon h u name = .ok (h', o)) :
    Rests told toldNo h h' ∧ o.my_type = .file ∧ ∃ fi, h'.files o.generic_prov_info = some fi ∧ toldNo fi.file_no := by
  obtain ⟨n, hn⟩ := Option.isSome_iff_exists.1 hu
  unfold fileOpenCommon at hr
  rw [hn, Option.getD_some] at hr
  obtain ⟨⟨h₁, node⟩, hadd, hpure⟩ := bind_eq_ok.1 hr
  cases hpure
  have hne : n ≠ 0 := by
    rintro rfl
    exact hnz hn
  obtain ⟨hrests, fi, hfi, rfl⟩ := addFileNode_rests hne (hno n hn) hadd
  exact ⟨provenanceNewObj_rests.trans hrests, rfl, fi, hfi, hno _ hn⟩

/-- The file that a callback opens, and what it is told of it. -/
structure FileSound (toldNo : Nat → Prop) (under : Option Under) : Prop where
  answers : ∀ u, under = some u → u.Answers .file ∧ u.NonZero .file ∧ ∀ n, u.file_no = some n → toldNo n

theorem wrapFile_rests {under : Option Under} (hu : FileSound toldNo under) {info : VolInfo} {name : Option CStr}
    {file : Option ProvObj} (hr : wrapFile s info name under = .ok (s', file)) :
    Rests told toldNo s.tracker s'.tracker ∧ ∀ o ∈ file, o.my_type = .file ∧
      ∃ fi, s'.tracker.files o.generic_prov_info = some fi ∧ toldNo fi.file_no := by
  unfold wrapFile at hr
  cases under with
  | none =>
    cases hr
    exact ⟨.refl _, nofun⟩
  | some u =>
    obtain ⟨s₁, h1, hr⟩ := bind_eq_ok.1 hr
    obtain ⟨⟨s₂, w⟩, h2, hr⟩ := bind_eq_ok.1 hr
    cases hr
    rw [← ensureHelper_tracker h1]
    obtain ⟨hans, hnz, hno⟩ := hu.answers u rfl
    obtain ⟨hrests, hfile⟩ := fileOpenCommon_rests hans hnz hno (onHelper_tracker h2)
    refine ⟨hrests, fun o ho => ?_⟩
    cases ho
    exact hfile

theorem fileReopen_rests {under : Option Under} {ret : Bool} (hu : ret = true → FileSound toldNo under) {o : ProvObj}
    {file : Option ProvObj} (hr : fileReopen s o ret under = .ok (s', file)) :
    Rests told toldNo s.tracker s'.tracker ∧ ∀ o ∈ file, o.my_type = .file ∧
      ∃ fi, s'.tracker.files o.generic_prov_info = some fi ∧ toldNo fi.file_no := by
  unfold fileReopen at hr
  split at hr
  · obtain ⟨⟨s₁, w⟩, h1, hr⟩ := bind_eq_ok.1 hr
    cases hr
    obtain ⟨fi, -, h2⟩ := bind_eq_ok.1 (onHelper_tracker h1)
    obtain ⟨hans, hnz, hno⟩ := (hu rfl).answers _ rfl
    obtain ⟨hrests, hfile⟩ := fileOpenCommon_rests hans hnz hno h2
    refine ⟨hrests, fun o ho => ?_⟩
    cases ho
    exact hfile
  · cases hr
    exact ⟨.refl _, nofun⟩

theorem markAttr_rests {m : Made} (hm : m.Sound told toldNo (.obj .attr)) {group : ProvObj} {name : Option CStr}
    (hr : markAttr s group name m = .ok s') : Rests told toldNo s.tracker s'.tracker := by
  obtain ⟨⟨s₁, attr⟩, h1, hr⟩ := bind_eq_ok.1 hr
  cases attr with
  | none => cases hr
  | some attr =>
    cases hr
    exact (objWrapUnder_rests hm h1).1

theorem markFile_rests {m : Marking} (hg : m.group.Sound told toldNo (.obj .grp))
    (hp : m.attr_path.Sound told toldNo (.obj .attr)) (ht : m.attr_time.Sound told toldNo (.obj .attr)) {info : VolInfo}
    {name : Option CStr} {file : Option ProvObj} (hr : markFile s info name file m = .ok s') :
    Rests told toldNo s.tracker s'.tracker := by
  unfold markFile at hr
  cases file with
  | none => cases hr
  | some file =>
    obtain ⟨⟨s₁, group⟩, h1, hr⟩ := bind_eq_ok.1 hr
    obtain ⟨_, -, hr⟩ := bind_eq_ok.1 hr
    cases group with
    | none => cases hr
    | some group =>
      obtain ⟨s₂, h2, hr⟩ := bind_eq_ok.1 hr
      obtain ⟨s₃, h3, hr⟩ := bind_eq_ok.1 hr
      have hfree := updHelper_tracker hr
      simp only [pure, Except.pure, Except.ok.injEq] at hfree
      refine (((objWrapUnder_rests hg h1).1.trans (markAttr_rests hp h2)).trans (markAttr_rests ht h3)).trans ?_
      rw [← hfree]
      exact provenanceFreeObj_rests

end

end Provio
