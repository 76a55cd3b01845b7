import Provio.Leaks
import Provio.Queries
/-!
# QueryRuns — runs of the connector whose queries succeed

As long as every query succeeds and no file or dataset is in a file with number 0, what enters a list carries an answered
token or number, nothing depends on a value that was never set, and the asserts on file numbers hold
(`queries_sound`).
-/
namespace Provio

/-! ## What was never set -/

section

variable {told : Token → Prop} {toldNo : Nat → Prop} {s : Conn} {h : ProvHelper} {c : TokenCmp} {m : Made} {type : ObjType}

/-- **A search whose comparisons succeed never looks at what `cmp_value` held before.** -/
theorem findNode_unset (hc : c.Answers) (j : Unset) (token : Token) : ∀ (l : List Addr) (v v' : Int),
    findNode h (c.unset j) token v l = findNode h c token v' l
  | [], _, _ => rfl
  | cur :: rest, v, v' => by
    rw [findNode, findNode]
    congr 1
    funext info
    obtain ⟨x, hx⟩ := Option.isSome_iff_exists.1 (hc info.token token)
    have hx' : (c.unset j).cmp info.token token = some x := hx
    rw [hx, hx', Option.getD_some, Option.getD_some, findNode_unset hc j token rest x x]

theorem addNode_unset (hc : c.Answers) (j : Unset) (k : ObjClass) (file_info : Addr) (token : Token) (new : ObjInfo) :
    addNode k h (c.unset j) file_info token new = addNode k h c file_info token new := by
  unfold addNode
  congr 1
  funext fi
  rw [findNode_unset hc j token (fi.opened k) (c.unset j).uninit c.uninit]

theorem rmNode_unset (hc : c.Answers) (j : Unset) (k : ObjClass) (o : Addr) :
    rmNode k h (c.unset j) o = rmNode k h c o := by
  unfold rmNode
  congr 1
  funext node
  simp only [fun h l => findNode_unset (h := h) hc j node.token l (c.unset j).uninit c.uninit]

theorem rmTargetNode_unset (hc : c.Answers) (j : Unset) (o : ProvObj) :
    rmTargetNode h (c.unset j) o = rmTargetNode h c o := by
  unfold rmTargetNode
  cases o.my_type with
  | file => rfl
  | obj k =>
    dsimp only
    rw [rmNode_unset hc j]

theorem addTargetNode_unset (hc : m.cmp.Answers) (j : Unset) {u : Under} (hu : u.Answers type) (file_info : Addr)
    (name : Option CStr) : addTargetNode h (m.unset j) u file_info name type = addTargetNode h m u file_info name type := by
  cases type with
  | file =>
    obtain ⟨n, hn⟩ := Option.isSome_iff_exists.1 hu
    unfold addTargetNode
    rw [hn, Option.getD_some, Option.getD_some]
  | obj k =>
    obtain ⟨⟨n, t⟩, hinfo⟩ := Option.isSome_iff_exists.1 hu
    unfold addTargetNode
    simp only [hinfo, Option.getD_some]
    cases k with
    | dataset =>
      dsimp only
      congr 1
      unfold addDatasetNode
      congr 1
      funext r
      exact addNode_unset hc j _ _ _ _
    | grp => exact addNode_unset hc j _ _ _ _
    | dtype => exact addNode_unset hc j _ _ _ _
    | attr => exact addNode_unset hc j _ _ _ _

theorem objWrapUnder_unset (hm : m.Sound told toldNo type) (j : Unset) (upper_o : ProvObj) (name : Option CStr) :
    objWrapUnder s (m.unset j) upper_o name type = objWrapUnder s m upper_o name type := by
  unfold objWrapUnder
  rw [show (m.unset j).under = m.under from rfl]
  cases hu : m.under with
  | none => rfl
  | some u =>
    have hwrap : (fun h => wrapUnder h (m.unset j) u upper_o name type) = fun h => wrapUnder h m u upper_o name type := by
      funext h
      unfold wrapUnder
      congr 1
      funext file_info
      rw [addTargetNode_unset hm.cmp j (hm.answers u hu).1]
    dsimp only
    rw [hwrap]

theorem makeObject_unset {k : ObjClass} (hm : m.Sound told toldNo (.obj k)) (j : Unset)
    (type relation io_api func : CStr) (o : ProvObj) (name : Option CStr) (t : Ticks) :
    makeObject k type relation io_api func s o name (m.unset j) t =
      makeObject k type relation io_api func s o name m t := by
  unfold makeObject
  rw [objWrapUnder_unset hm j]

theorem attrOpen_unset (hm : m.Sound told toldNo (.obj .attr)) (j : Unset) (o : ProvObj) (name queried : Option CStr)
    (t : Ticks) : attrOpen s o name queried (m.unset j) t = attrOpen s o name queried m t := by
  unfold attrOpen
  rw [show (m.unset j).under = m.under from rfl]
  dsimp only
  rw [objWrapUnder_unset hm j]

theorem wrapObject_unset (hm : m.Sound told toldNo type) (j : Unset) (a : Addr) :
    wrapObject s a type (m.unset j) = wrapObject s a type m := by
  unfold wrapObject
  rw [show (m.unset j).under = m.under from rfl]
  cases m.under with
  | none => rfl
  | some u =>
    dsimp only
    congr 1
    funext r
    rw [objWrapUnder_unset hm j]

theorem markAttr_unset (hm : m.Sound told toldNo (.obj .attr)) (j : Unset) (group : ProvObj) (name : Option CStr) :
    markAttr s group name (m.unset j) = markAttr s group name m := by
  unfold markAttr
  rw [objWrapUnder_unset hm j]

theorem markFile_unset {m : Marking} (hg : m.group.Sound told toldNo (.obj .grp))
    (hp : m.attr_path.Sound told toldNo (.obj .attr)) (ht : m.attr_time.Sound told toldNo (.obj .attr)) (j : Unset)
    (info : VolInfo) (name : Option CStr) (file : Option ProvObj) :
    markFile s info name file (m.unset j) = markFile s info name file m := by
  unfold markFile
  cases file with
  | none => rfl
  | some file =>
    simp only [Marking.unset, objWrapUnder_unset hg j, fun s group name => markAttr_unset (s := s) hp j group name,
      fun s group name => markAttr_unset (s := s) ht j group name]

theorem bind_congr_ok {ε α β : Type} {x : Except ε α} {f g : α → Except ε β} (hfg : ∀ a, x = .ok a → f a = g a) :
    x >>= f = x >>= g := by
  cases x with
  | error e => rfl
  | ok a => exact hfg a rfl

theorem fileCall_unset {m : Marking} (hm : s.process.fields.mpi_rank_int = 0 → m.group.Sound told toldNo (.obj .grp) ∧
    m.attr_path.Sound told toldNo (.obj .attr) ∧ m.attr_time.Sound told toldNo (.obj .attr)) (j : Unset) (func : CStr)
    (info : VolInfo) (name : Option CStr) (under : Option Under) (t : Ticks) :
    fileCall func s info name under (m.unset j) t = fileCall func s info name under m t := by
  unfold fileCall
  apply bind_congr_ok
  rintro ⟨s₁, file⟩ h1
  apply bind_congr_ok
  intro s₂ h2
  apply bind_congr_ok
  intro s₃ h3
  obtain ⟨n, p, -, hp, rfl⟩ := fillRecord_ok (bind_eq_ok.2 ⟨s₂, h2, h3⟩)
  dsimp only
  rw [((wrapFile_quiet h1).process.trans hp).rank]
  by_cases hrank : s.process.fields.mpi_rank_int = 0
  · obtain ⟨hg, hpath, htime⟩ := hm hrank
    rw [if_pos hrank, if_pos hrank, markFile_unset hg hpath htime j]
  · rw [if_neg hrank, if_neg hrank]

theorem closeOf_unset (hc : c.Answers) (j : Unset) (k : ObjClass) (o : ProvObj) (ret : Bool) :
    closeOf k s (c.unset j) o ret = closeOf k s c o ret := by
  rw [closeOf_eq]
  unfold closeObject
  simp only [fun h => rmNode_unset (h := h) hc j k o.generic_prov_info]

theorem unwrapObject_unset (hc : c.Answers) (j : Unset) (o : ProvObj) (under : Bool) :
    unwrapObject s (c.unset j) o under = unwrapObject s c o under := by
  unfold unwrapObject
  simp only [fun h => rmTargetNode_unset (h := h) hc j o]

theorem refreshEnd_unset (hc : c.Answers) (j : Unset) (hold : Hold) (ret : Bool) (extent : Extent) :
    refreshEnd s (c.unset j) hold ret extent = refreshEnd s c hold ret extent := by
  unfold refreshEnd
  simp only [fun h => rmNode_unset (h := h) hc j hold.cls hold.info]

end

/-! ## Every callback -/

section

variable {s s' : Conn} {app app' : App} {rank : Int} {c : Callback} {told : Token → Prop} {toldNo : Nat → Prop}

theorem mem_cmps {p : Made × ObjType} (hp : p ∈ c.mades rank) : p.1.cmp ∈ c.cmps rank := by
  cases c with
  | close | unwrapObject | refreshEnd => cases hp
  | _ => exact List.mem_map.2 ⟨p, hp, rfl⟩

theorem mem_asked {p : Made × ObjType} (hp : p ∈ c.mades rank) {u : Under} (hu : p.1.under = some u) :
    (u, p.2) ∈ c.asked rank := by
  refine List.mem_append_right _ (List.mem_flatMap.2 ⟨p, hp, ?_⟩)
  rw [hu]
  exact List.mem_singleton_self _

theorem opens_mem_asked {u : Under} (hu : c.opens = some u) : (u, .file) ∈ c.asked rank := by
  refine List.mem_append_left _ ?_
  rw [hu]
  exact List.mem_singleton_self _

theorem Callback.Answers.made (ha : c.Answers rank) (hnz : c.NonZero rank) {p : Made × ObjType}
    (hp : p ∈ c.mades rank) : p.1.Sound (c.Told rank) (c.ToldNo rank) p.2 := by
  refine ⟨ha.cmps _ (mem_cmps hp), fun u hu => ?_⟩
  have hmem := mem_asked hp hu
  exact ⟨ha.queries _ hmem, hnz _ hmem, fun n t hinfo => ⟨_, hmem, n, hinfo⟩, fun n hno => ⟨_, hmem, hno⟩⟩

theorem Callback.Answers.opened (ha : c.Answers rank) (hnz : c.NonZero rank) : FileSound (c.ToldNo rank) c.opens := by
  refine ⟨fun u hu => ?_⟩
  have hmem : (u, .file) ∈ c.asked rank := opens_mem_asked hu
  exact ⟨ha.queries _ hmem, hnz _ hmem, fun n hno => ⟨_, hmem, hno⟩⟩

theorem marking_sound {f : FileOp} {info : VolInfo} {name : Option CStr} {under : Option Under} {m : Marking} {t : Ticks}
    (hmade : ∀ p ∈ (Callback.fileCall f info name under m t).mades rank, p.1.Sound told toldNo p.2) (hrank : rank = 0) :
    m.group.Sound told toldNo (.obj .grp) ∧ m.attr_path.Sound told toldNo (.obj .attr) ∧
      m.attr_time.Sound told toldNo (.obj .attr) := by
  subst hrank
  exact ⟨hmade (m.group, .obj .grp) (by simp [Callback.mades]), hmade (m.attr_path, .obj .attr) (by simp [Callback.mades]),
    hmade (m.attr_time, .obj .attr) (by simp [Callback.mades])⟩

/-- **A wrapper that was handed out has a node of an answer.** -/
theorem backs_of_made {p : Made × ObjType} (hp : p ∈ c.mades rank) {u : Under} (hu : p.1.under = some u) {h : ProvHelper}
    {o : ProvObj} (htype : o.my_type = p.2) (hbacked : NodeBacked h u p.1.cmp o.generic_prov_info p.2) :
    c.Backs rank h o := by
  have hmem := mem_asked hp hu
  unfold Callback.Backs
  rw [htype]
  cases hk : p.2 with
  | file =>
    rw [hk] at hbacked
    obtain ⟨fi, hfi, hno⟩ := hbacked
    intro fi' hfi'
    rw [hfi] at hfi'
    cases hfi'
    exact ⟨_, hmem, hno⟩
  | obj k =>
    rw [hk] at hbacked
    obtain ⟨n, t, hinfo, hnode⟩ := hbacked
    refine ⟨t, ⟨_, hmem, n, hinfo⟩, fun i hi => ?_⟩
    rcases hnode i hi with htoken | hmatch
    · exact .inl htoken
    · exact .inr ⟨_, mem_cmps hp, hmatch⟩

theorem backs_of_opened {h : ProvHelper} {o : ProvObj} (htype : o.my_type = .file)
    (hno : ∀ fi, h.files o.generic_prov_info = some fi → c.ToldNo rank fi.file_no) : c.Backs rank h o := by
  unfold Callback.Backs
  rw [htype]
  exact hno

theorem taken_sound (ha : c.Answers rank) {obj : Option ProvObj}
    (hrests : Rests (c.Told rank) (c.ToldNo rank) s.tracker s'.tracker) (hbacks : ∀ o ∈ obj, c.Backs rank s'.tracker o)
    (hunset : ∀ j, (c.unset j).run s app = .ok (s', app.take obj)) : QuerySound rank c s app s' (app.take obj) := by
  refine ⟨hrests, fun o ho => ?_, hunset, fun hn => absurd ha hn⟩
  rcases List.mem_append.1 ho with ho | ho
  · exact .inr (hbacks o (Option.mem_toList.1 ho))
  · exact .inl ho

theorem made_sound (ha : c.Answers rank) {p : Made × ObjType} (hp : p ∈ c.mades rank) {obj : Option ProvObj}
    (hrests : Rests (c.Told rank) (c.ToldNo rank) s.tracker s'.tracker ∧ ∀ o ∈ obj, o.my_type = p.2 ∧
      ∃ u, p.1.under = some u ∧ NodeBacked s'.tracker u p.1.cmp o.generic_prov_info p.2)
    (hunset : ∀ j, (c.unset j).run s app = .ok (s', app.take obj)) : QuerySound rank c s app s' (app.take obj) := by
  apply taken_sound ha hrests.1 _ hunset
  intro o ho
  obtain ⟨htype, u, hu, hbacked⟩ := hrests.2 o ho
  exact backs_of_made hp hu htype hbacked

theorem held_sound (ha : c.Answers rank) (hrests : Rests (c.Told rank) (c.ToldNo rank) s.tracker s'.tracker)
    (happ : ∀ o ∈ app'.handles, o ∈ app.handles) (hunset : ∀ j, (c.unset j).run s app = .ok (s', app')) :
    QuerySound rank c s app s' app' :=
  ⟨hrests, fun o ho => .inl (happ o ho), hunset, fun hn => absurd ha hn⟩

theorem give_handles {o : ProvObj} {ret : Bool} : ∀ x ∈ (app.give o ret).handles, x ∈ app.handles := by
  intro x hx
  cases ret with
  | false => exact hx
  | true => exact List.mem_of_mem_erase hx

/-- **No callback depends on a value that was never set.** -/
theorem Callback.run_unset (ha : c.Answers s.process.fields.mpi_rank_int) (hnz : c.NonZero s.process.fields.mpi_rank_int)
    (j : Unset) : (c.unset j).run s app = c.run s app := by
  have hmade := fun p => ha.made hnz (p := p)
  cases c with
  | make f o name m t =>
    have hm := hmade (m, .obj f.target) (List.mem_singleton_self _)
    simp only [Callback.unset, Callback.run, f.run_eq, makeObject_unset hm j]
  | attrOpen o name queried m t =>
    have hm := hmade (m, .obj .attr) (List.mem_singleton_self _)
    simp only [Callback.unset, Callback.run, attrOpen_unset hm j]
  | fileCall f info name under m t =>
    have hmark := fun func => fileCall_unset (fun hrank => marking_sound hmade hrank) j func info name under t
    cases f with
    | create => simp only [Callback.unset, Callback.run, fileCreate, hmark]
    | «open» => simp only [Callback.unset, Callback.run, fileOpen, hmark]
  | close k cmp o ret => simp only [Callback.unset, Callback.run, closeOf_unset (ha.cmps cmp (List.mem_singleton_self _)) j]
  | objectOpen o obj_name type m =>
    have hm := hmade (m, type) (List.mem_singleton_self _)
    simp only [Callback.unset, Callback.run, Provio.objectOpen, objWrapUnder_unset hm j]
  | wrapObject wrap_ctx type m =>
    have hm := hmade (m, type) (List.mem_singleton_self _)
    simp only [Callback.unset, Callback.run, wrapObject_unset hm j]
  | unwrapObject cmp o under =>
    simp only [Callback.unset, Callback.run, unwrapObject_unset (ha.cmps cmp (List.mem_singleton_self _)) j]
  | refreshEnd cmp hold ret extent =>
    simp only [Callback.unset, Callback.run, refreshEnd_unset (ha.cmps cmp (List.mem_singleton_self _)) j]
  | _ => rfl

theorem fileCall_rests {f : FileOp} {info : VolInfo} {name : Option CStr} {under : Option Under} {m : Marking} {t : Ticks}
    (hr : (Callback.fileCall f info name under m t).run s app = .ok (s', app')) (hu : FileSound toldNo under)
    (hnum : Numbered s.tracker) (hm : s.process.fields.mpi_rank_int = 0 → m.group.Sound told toldNo (.obj .grp) ∧
      m.attr_path.Sound told toldNo (.obj .attr) ∧ m.attr_time.Sound told toldNo (.obj .attr)) :
    ∃ file, app' = app.take file ∧ Rests told toldNo s.tracker s'.tracker ∧ ∀ o ∈ file, o.my_type = .file ∧
      ∀ fi, s'.tracker.files o.generic_prov_info = some fi → toldNo fi.file_no := by
  have hcall : ∀ {func : CStr} {file : Option ProvObj}, Provio.fileCall func s info name under m t = .ok (s', file) →
      Rests told toldNo s.tracker s'.tracker ∧ ∀ o ∈ file, o.my_type = .file ∧
        ∀ fi, s'.tracker.files o.generic_prov_info = some fi → toldNo fi.file_no := by
    intro func file hrun
    obtain ⟨s₁, s₂, n, p, h1, -, -, rfl, hmark⟩ := fileCall_ok hrun
    obtain ⟨hwrap, hfile⟩ : Rests told toldNo s.tracker s₁.tracker ∧ _ := wrapFile_rests hu h1
    have hrest : Rests told toldNo s₁.tracker s'.tracker := by
      rcases hmark with ⟨hrank, h2⟩ | ⟨-, rfl⟩
      · obtain ⟨hg, hp, ht⟩ := hm hrank
        have hrests := markFile_rests hg hp ht h2
        exact hrests
      · exact .refl _
    refine ⟨hwrap.trans hrest, fun o ho => ⟨(hfile o ho).1, fun fi' hfi' => ?_⟩⟩
    obtain ⟨-, fi₁, hfi₁, htold⟩ := hfile o ho
    -- the marking does not renumber the file
    obtain ⟨fi, hfi, hno⟩ := hrest.same_no (hwrap.numbered hnum _ fi₁ hfi₁).1 hfi'
    rw [hfi₁] at hfi
    cases hfi
    rw [← hno]
    exact htold
  cases f with
  | create =>
    obtain ⟨⟨s₁, file⟩, h1, hr⟩ := bind_eq_ok.1 hr
    cases hr
    exact ⟨file, rfl, hcall h1⟩
  | «open» =>
    obtain ⟨⟨s₁, file⟩, h1, hr⟩ := bind_eq_ok.1 hr
    cases hr
    exact ⟨file, rfl, hcall h1⟩

theorem Callback.run_sound (hr : c.run s app = .ok (s', app')) (ha : c.Answers s.process.fields.mpi_rank_int)
    (hnz : c.NonZero s.process.fields.mpi_rank_int) (hnum : Numbered s.tracker) :
    QuerySound s.process.fields.mpi_rank_int c s app s' app' := by
  have hunset : ∀ j, (c.unset j).run s app = .ok (s', app') := fun j => (Callback.run_unset ha hnz j).trans hr
  have hmade := fun p => ha.made hnz (p := p)
  cases c with
  | make f o name m t =>
    have hp : (m, .obj f.target) ∈ Callback.mades s.process.fields.mpi_rank_int (.make f o name m t) :=
      List.mem_singleton_self _
    obtain ⟨⟨s₁, obj⟩, h1, hr⟩ := bind_eq_ok.1 hr
    cases hr
    rw [f.run_eq] at h1
    obtain ⟨s₂, n, p, h2, -, -, rfl⟩ := makeObject_ok h1
    have hrests := objWrapUnder_rests (hmade _ hp) h2
    exact made_sound ha hp hrests hunset
  | attrOpen o name queried m t =>
    have hp : (m, .obj .attr) ∈ Callback.mades s.process.fields.mpi_rank_int (.attrOpen o name queried m t) :=
      List.mem_singleton_self _
    obtain ⟨⟨s₁, attr⟩, h1, hr⟩ := bind_eq_ok.1 hr
    cases hr
    obtain ⟨s₂, n, p, h2, -, -, rfl⟩ := attrOpen_ok h1
    have hrests := objWrapUnder_rests (hmade _ hp) h2
    exact made_sound ha hp hrests hunset
  | attrAccess x o ret name t =>
    cases x with
    | read =>
      obtain ⟨⟨s₁, _⟩, h1, hr⟩ := bind_eq_ok.1 hr
      cases hr
      obtain ⟨_, p, -, -, rfl⟩ := attrAccess_ok h1
      exact held_sound ha (.refl _) (fun _ ho => ho) hunset
    | write =>
      obtain ⟨⟨s₁, _⟩, h1, hr⟩ := bind_eq_ok.1 hr
      cases hr
      obtain ⟨_, p, -, -, rfl⟩ := attrAccess_ok h1
      exact held_sound ha (.refl _) (fun _ ho => ho) hunset
  | datasetAccess x o name stack ret npoints elapsed t =>
    cases x with
    | read =>
      obtain ⟨⟨s₁, _⟩, h1, hr⟩ := bind_eq_ok.1 hr
      cases hr
      exact held_sound ha (counted_rests (datasetRead_ok h1).1) (fun _ ho => ho) hunset
    | write =>
      obtain ⟨⟨s₁, _⟩, h1, hr⟩ := bind_eq_ok.1 hr
      cases hr
      exact held_sound ha (counted_rests (datasetWrite_ok h1).1) (fun _ ho => ho) hunset
  | fileCall f info name under m t =>
    obtain ⟨file, happ, hrests, hfile⟩ := fileCall_rests hr (ha.opened hnz) hnum fun hrank =>
      marking_sound hmade hrank
    rw [happ] at hunset ⊢
    exact taken_sound ha hrests (fun o ho => backs_of_opened (hfile o ho).1 (hfile o ho).2) hunset
  | fileReopen o ret under =>
    obtain ⟨⟨s₁, file⟩, h1, hr⟩ := bind_eq_ok.1 hr
    cases hr
    have hu : ret = true → FileSound (Callback.ToldNo s.process.fields.mpi_rank_int (.fileReopen o ret under)) under := by
      rintro rfl
      exact ha.opened hnz
    obtain ⟨hrests, hfile⟩ := fileReopen_rests hu h1
    refine taken_sound ha hrests (fun o' ho' => backs_of_opened (hfile o' ho').1 fun fi' hfi' => ?_) hunset
    obtain ⟨-, fi, hfi, htold⟩ := hfile o' ho'
    rw [hfi] at hfi'
    cases hfi'
    exact htold
  | fileClose o ret =>
    obtain ⟨⟨s₁, _⟩, h1, hr⟩ := bind_eq_ok.1 hr
    cases hr
    exact held_sound ha (fileClose_rests h1) give_handles hunset
  | close k cmp o ret =>
    obtain ⟨⟨s₁, _⟩, h1, hr⟩ := bind_eq_ok.1 hr
    cases hr
    exact held_sound ha (closeOf_rests h1) give_handles hunset
  | objectOpen o obj_name type m =>
    have hp : (m, type) ∈ Callback.mades s.process.fields.mpi_rank_int (.objectOpen o obj_name type m) :=
      List.mem_singleton_self _
    obtain ⟨⟨s₁, obj⟩, h1, hr⟩ := bind_eq_ok.1 hr
    cases hr
    exact made_sound ha hp (objWrapUnder_rests (hmade _ hp) h1) hunset
  | getWrapCtx o =>
    obtain ⟨⟨s₁, a⟩, h1, hr⟩ := bind_eq_ok.1 hr
    cases hr
    exact held_sound ha (getWrapCtx_rests h1) (fun _ ho => ho) hunset
  | wrapObject wrap_ctx type m =>
    have hp : (m, type) ∈ Callback.mades s.process.fields.mpi_rank_int (.wrapObject wrap_ctx type m) :=
      List.mem_singleton_self _
    obtain ⟨⟨s₁, obj⟩, h1, hr⟩ := bind_eq_ok.1 hr
    cases hr
    exact made_sound ha hp (wrapObject_rests (hmade _ hp) h1) hunset
  | unwrapObject cmp o under =>
    obtain ⟨⟨s₁, _⟩, h1, hr⟩ := bind_eq_ok.1 hr
    cases hr
    exact held_sound ha (unwrapObject_rests h1) give_handles hunset
  | freeWrapCtx wrap_ctx =>
    obtain ⟨s₁, h1, hr⟩ := bind_eq_ok.1 hr
    cases hr
    exact held_sound ha (releaseFile_rests (updHelper_tracker h1)) (fun _ ho => ho) hunset
  | setExtent o ret new_size =>
    obtain ⟨s₁, h1, hr⟩ := bind_eq_ok.1 hr
    cases hr
    exact held_sound ha (setExtent_rests h1) (fun _ ho => ho) hunset
  | refreshBegin specific o =>
    obtain ⟨⟨s₁, hold⟩, h1, hr⟩ := bind_eq_ok.1 hr
    cases hr
    exact held_sound ha (refreshBegin_rests h1) (fun _ ho => ho) hunset
  | refreshEnd cmp hold ret extent =>
    obtain ⟨s₁, h1, hr⟩ := bind_eq_ok.1 hr
    cases hr
    exact held_sound ha (refreshEnd_rests h1) (fun _ ho => ho) hunset
  | forward =>
    cases hr
    exact held_sound ha (.refl _) (fun _ ho => ho) hunset

end

/-! ## Every run -/

theorem Callback.step_sound {c : Callback} {w w' : World} (hr : c.step w = .ok w') (hc : AllAnswered w c)
    (hnum : Numbered w.conn.tracker) :
    QuerySound w.conn.process.fields.mpi_rank_int c w.conn w.app w'.conn w'.app := by
  obtain ⟨⟨s, app⟩, h1, hr⟩ := bind_eq_ok.1 hr
  cases hr
  exact c.run_sound h1 hc.1 hc.2 hnum

theorem runCallbacks_sound : ∀ {cs : List Callback} {w : World}, Numbered w.conn.tracker →
    Throughout AllAnswered cs w → Throughout QueriesSafe cs w
  | [], _, _, _ => trivial
  | c :: cs, w, hnum, ⟨hc, hcs⟩ => by
    refine ⟨⟨fun h hrests => (hrests.numbered hnum).asserts, fun w' hr => c.step_sound hr hc hnum⟩, fun w' hr => ?_⟩
    have hsound := c.step_sound hr hc hnum
    exact runCallbacks_sound (hsound.lists.numbered hnum) (hcs w' hr)

/-- **A run whose queries all succeed, on files and datasets with numbers, only adds and matches by what it was told**,
and no assert on a file number fires. -/
theorem queries_sound (inp : SessionInput) (cs : List Callback) (hcs : Throughout AllAnswered cs (.start inp)) :
    Throughout QueriesSafe cs (.start inp) := runCallbacks_sound numbered_init hcs

theorem queries_sound_dataset : Throughout QueriesSafe [createFile, createDataset (cstr "/d") (some (objUnder 7))]
    (.start rankOneInput) := by
  refine queries_sound rankOneInput _ (.cons rfl ⟨⟨?_, nofun⟩, ?_⟩ (.cons rfl ⟨⟨?_, ?_⟩, ?_⟩ trivial))
  · intro p hp
    obtain rfl := List.mem_singleton.1 hp
    rfl
  · intro p hp
    obtain rfl := List.mem_singleton.1 hp
    exact fun hzero => absurd hzero (by decide)
  · intro p hp
    obtain rfl := List.mem_singleton.1 hp
    rfl
  · intro cmp hcmp
    obtain rfl := List.mem_singleton.1 hcmp
    exact fun _ _ => rfl
  · intro p hp
    obtain rfl := List.mem_singleton.1 hp
    exact fun t => by simp [objUnder]

/-- `H5VLfile_get` fails when a file is created. -/
def createUnnumbered : Callback :=
  .fileCall .create graphInfo (some (cstr "a.h5")) (some ⟨none, none, someShape⟩) noMarking someTicks

/-- **The number of a file is asked for in vain**: it is listed under number 0, and the next file that is created meets
the assert of `add_file_node`. -/
theorem failed_file_get_asserts : (∃ w, createUnnumbered.step (.start rankOneInput) = .ok w ∧
    (∃ a ∈ w.conn.tracker.opened_files, ∃ fi, w.conn.tracker.files a = some fi ∧ fi.file_no = 0) ∧
      createFile.step w = .error .assert) ∧
    ¬ Throughout QueriesSafe [createUnnumbered, createFile] (.start rankOneInput) := by
  obtain ⟨w, hw, hopened, hassert⟩ : ∃ w, createUnnumbered.step (.start rankOneInput) = .ok w ∧
      (∃ a ∈ w.conn.tracker.opened_files, ∃ fi, w.conn.tracker.files a = some fi ∧ fi.file_no = 0) ∧
        createFile.step w = .error .assert := ⟨_, rfl, ⟨0, .head _, _, rfl, rfl⟩, rfl⟩
  refine ⟨⟨w, hw, hopened, hassert⟩, fun hsafe => ?_⟩
  obtain ⟨a, ha, fi, hfi, hzero⟩ := hopened
  have hnext := (hsafe.2 w hw).1.1 w.conn.tracker (.refl _)
  exact hnext.opened a ha fi hfi hzero

end Provio
