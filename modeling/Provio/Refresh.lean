import Provio.Identity
/-!
# Refresh — what a refresh leaves of the node it holds

A refresh takes an extra reference to its object's node, calls the underlying connector, which may unwrap and wrap the
object any number of times, and drops the reference again.  For the dataset and the generic callback the node comes out
as it went in; those for groups and datatypes end by reading the object they were given, which is NULL after a success
and freed after an unwrap (`refresh_neutral_iff`).
-/
namespace Provio

/-! ## The callback as a whole -/

/-- An unwrap and the wrap that follows it. -/
structure Rewrap where
  cmp  : TokenCmp
  made : Made

/-- The pairs of a refresh under way, in the wrap context that the library has set for it. -/
def refreshPairs (wrap_ctx : Addr) : Conn → ProvObj → List Rewrap → Except Fault Conn
  | s, _, []      => .ok s
  | s, o, p :: ps => do
    let (s, _) ← unwrapObject s p.cmp o true
    match ← wrapObject s wrap_ctx o.my_type p.made with
    | (s, some o) => refreshPairs wrap_ctx s o ps
    | (s, none)   => .ok s

/-- `H5VL_provenance_group_specific` and its sibling for datatypes hand `o->under_object` to their `rm_*_node`. -/
def Specific.readsObject : Specific → Bool
  | .group | .datatype => true
  | .dataset | .object => false

def refreshCall (s : Conn) (specific : Specific) (o : ProvObj) (wrap_ctx : Addr) (pairs : List Rewrap) (c : TokenCmp)
    (ret : Bool) (extent : Extent) : Except Fault Conn := do
  let (s, hold) ← refreshBegin s specific o
  let s ← refreshPairs wrap_ctx s o pairs
  -- the first unwrap freed the wrapper that `o` still points to; a success has set `o` to NULL
  if specific.readsObject && !ret && !pairs.isEmpty then .error .freed
  else refreshEnd s c hold ret extent

/-- The statistics that a node accumulates. -/
structure SameTotals (ds ds' : DsInfo) : Prop where
  bytes_read    : ds'.total_bytes_read = ds.total_bytes_read
  bytes_written : ds'.total_bytes_written = ds.total_bytes_written
  read_time     : ds'.total_read_time = ds.total_read_time
  write_time    : ds'.total_write_time = ds.total_write_time
  read_cnt      : ds'.dataset_read_cnt = ds.dataset_read_cnt
  write_cnt     : ds'.dataset_write_cnt = ds.dataset_write_cnt

/-- The node is in its file's list as before, with its statistics and reference counts. -/
def RefreshNeutral (h h' : ProvHelper) (a : Addr) : Prop :=
  ∃ info info' fi fi', h.objs a = some info ∧ h'.objs a = some info' ∧ h.files info.file_info = some fi ∧
    h'.files info.file_info = some fi' ∧ info'.cls = info.cls ∧ info'.file_info = info.file_info ∧
    info'.token = info.token ∧ info'.name = info.name ∧ SameTotals info.ds info'.ds ∧ info'.ref_cnt = info.ref_cnt ∧
    a ∈ fi'.opened info.cls ∧ fi'.ref_cnt = fi.ref_cnt

/-! ## A node that only changes in its references and statistics -/

/-- A node in its file's list, found by its token. -/
structure Listed (h : ProvHelper) (a : Addr) (k : ObjClass) (info : ObjInfo) (fi : FileInfo) : Prop where
  obj   : h.objs a = some info
  file  : h.files info.file_info = some fi
  mem   : a ∈ fi.opened k
  found : ∀ c : TokenCmp, c.Decides → findNode h c info.token c.uninit (fi.opened k) = .ok (some a)
  ref   : 0 < info.ref_cnt
  cls   : info.cls = k

/-- `h` is `h₀` but for one node's reference count and statistics, and for how often datasets of a file were accessed. -/
structure Steady (a : Addr) (h₀ h : ProvHelper) (r : Int) (ds : DsInfo) : Prop where
  node  : ∀ info, h₀.objs a = some info → h.objs a = some { info with ref_cnt := r, ds := ds }
  objs  : ∀ b, b ≠ a → h.objs b = h₀.objs b
  files : ∀ b fi, h₀.files b = some fi → ∃ n, h.files b = some { fi with ds_accessed := n }

section

variable {a : Addr} {k : ObjClass} {h₀ h h' : ProvHelper} {r : Int} {ds : DsInfo} {info : ObjInfo} {fi : FileInfo}

theorem Steady.refl (hinfo : h.objs a = some info) : Steady a h h info.ref_cnt info.ds := by
  refine ⟨fun i hi => ?_, fun _ _ => rfl, fun _ fi hfi => ⟨fi.ds_accessed, hfi⟩⟩
  rw [hinfo] at hi
  cases hi
  exact hinfo

theorem Steady.frame (hs : Steady a h₀ h r ds) (hobjs : h'.objs = h.objs) (hfiles : h'.files = h.files) :
    Steady a h₀ h' r ds :=
  ⟨fun i hi => by rw [hobjs]; exact hs.node i hi, fun b hb => by rw [hobjs]; exact hs.objs b hb,
    fun b fi hfi => by rw [hfiles]; exact hs.files b fi hfi⟩

theorem Steady.setObj (hs : Steady a h₀ h r ds) (hinfo : h₀.objs a = some info) (r' : Int) (ds' : DsInfo) :
    Steady a h₀ (h.setObj a { info with ref_cnt := r', ds := ds' }) r' ds' := by
  refine ⟨fun i hi => ?_, fun b hb => ?_, hs.files⟩
  · rw [hinfo] at hi
    cases hi
    rw [setObj_objs, Function.update_self]
  · rw [setObj_objs, Function.update_of_ne hb]
    exact hs.objs b hb

theorem Steady.refObj (hs : Steady a h₀ h r ds) (hinfo : h₀.objs a = some info) :
    ∃ h', h.refObj a = .ok h' ∧ h'.files = h.files ∧ Steady a h₀ h' (r + 1) ds :=
  ⟨_, refObj_eq_ok.2 ⟨_, hs.node info hinfo, rfl⟩, rfl, hs.setObj hinfo (r + 1) ds⟩

theorem Steady.updateDs (hs : Steady a h₀ h r ds) (hinfo : h₀.objs a = some info) (f : DsInfo → DsInfo) :
    ∃ h', Provio.updateDs h a f = .ok h' ∧ Steady a h₀ h' r (f ds) := by
  refine ⟨h.setObj a { info with ref_cnt := r, ds := f ds }, ?_, hs.setObj hinfo r (f ds)⟩
  rw [Provio.updateDs, obj_eq_ok.2 (hs.node info hinfo)]
  rfl

theorem Steady.rmNode (hs : Steady a h₀ h r ds) (hinfo : h₀.objs a = some info) (hr : 1 < r) (k : ObjClass)
    (c : TokenCmp) : ∃ h', Provio.rmNode k h c a = .ok (h', r - 1) ∧ Steady a h₀ h' (r - 1) ds := by
  refine ⟨_, rmNode_more (hs.node info hinfo) ?_, hs.setObj hinfo (r - 1) ds⟩
  show r - 1 > 0
  omega

theorem findNode_congr {c : TokenCmp} {token : Token} : ∀ {l : List Addr} {v : Int},
    (∀ o ∈ l, (h'.objs o).map ObjInfo.token = (h.objs o).map ObjInfo.token) → findNode h' c token v l = findNode h c token v l
  | [], _, _ => rfl
  | cur :: rest, v, hl => by
    have hcur := hl cur List.mem_cons_self
    have ih : ∀ v, findNode h' c token v rest = findNode h c token v rest := fun v =>
      findNode_congr fun o ho => hl o (List.mem_cons_of_mem _ ho)
    rw [findNode, findNode]
    cases hi : h.objs cur with
    | none =>
      rw [hi] at hcur
      have hi' : h'.objs cur = none := by simpa using hcur
      simp [ProvHelper.obj, hi, hi']
    | some i =>
      rw [hi] at hcur
      obtain ⟨i', hi', htok⟩ := Option.map_eq_some_iff.1 hcur
      rw [obj_eq_ok.2 hi, obj_eq_ok.2 hi', ok_bind, ok_bind, htok, ih]

theorem Steady.findNode (hs : Steady a h₀ h r ds) (hl : Listed h₀ a k info fi) {c : TokenCmp} (hc : c.Decides) :
    Provio.findNode h c info.token c.uninit (fi.opened k) = .ok (some a) := by
  rw [← hl.found c hc]
  apply findNode_congr
  intro o _
  by_cases ho : o = a
  · rw [ho, hl.obj, hs.node info hl.obj]
    rfl
  · rw [hs.objs o ho]

/-- **Adding the object's node again counts a reference.** -/
theorem Steady.addNode (hs : Steady a h₀ h r ds) (hl : Listed h₀ a k info fi) {c : TokenCmp} (hc : c.Decides)
    (new : ObjInfo) : ∃ h', Provio.addNode k h c info.file_info info.token new = .ok (h', a) ∧ h'.files = h.files ∧
      Steady a h₀ h' (r + 1) ds := by
  obtain ⟨n, hfile⟩ := hs.files _ fi hl.file
  obtain ⟨h', href, hfiles, hs'⟩ := hs.refObj hl.obj
  refine ⟨h', ?_, hfiles, hs'⟩
  rw [Provio.addNode, file_eq_ok.2 hfile, ok_bind, hs.findNode hl hc, ok_bind]
  dsimp only
  rw [href]
  rfl

theorem Steady.addTargetNode (hs : Steady a h₀ h r ds) (hl : Listed h₀ a k info fi) {m : Made} (hm : m.cmp.Decides)
    {u : Under} (hu : u.info = some (fi.file_no, info.token)) (name : Option CStr) :
    ∃ h', Provio.addTargetNode h m u info.file_info name (.obj k) = .ok (h', a) ∧ Steady a h₀ h' (r + 1) ds := by
  unfold Provio.addTargetNode
  rw [hu]
  simp only [Option.getD_some]
  cases k with
  | dataset =>
    obtain ⟨n, hfile⟩ := hs.files _ fi hl.file
    have hhome : homeFile h fi.file_no info.file_info = .ok (h, info.file_info) := by
      rw [homeFile, file_eq_ok.2 hfile, ok_bind]
      exact if_neg fun hne => hne rfl
    obtain ⟨h', hadd, hfiles, hs'⟩ := hs.addNode hl hm (newDsProvInfo u.shape info.token info.file_info name)
    have hfile' := hfile
    rw [← hfiles] at hfile'
    refine ⟨h'.setFile info.file_info { fi with ds_accessed := n + 1 }, ?_, hs'.node, hs'.objs, ?_⟩
    · rw [addDatasetNode, hhome, ok_bind]
      dsimp only
      rw [hadd, ok_bind]
      dsimp only
      rw [fileDsAccessed, file_eq_ok.2 hfile']
      rfl
    · intro b fb hfb
      by_cases hb : b = info.file_info
      · subst hb
        rw [hl.file] at hfb
        cases hfb
        exact ⟨n + 1, by rw [setFile_self]⟩
      · obtain ⟨nb, hnb⟩ := hs'.files b fb hfb
        exact ⟨nb, by rw [setFile_files, Function.update_of_ne hb]; exact hnb⟩
  | grp =>
    obtain ⟨h', hadd, -, hs'⟩ := hs.addNode hl hm (newGroupInfo info.file_info name info.token)
    exact ⟨h', hadd, hs'⟩
  | dtype =>
    obtain ⟨h', hadd, -, hs'⟩ := hs.addNode hl hm (newDtypeInfo info.file_info name info.token)
    exact ⟨h', hadd, hs'⟩
  | attr =>
    obtain ⟨h', hadd, -, hs'⟩ := hs.addNode hl hm (newAttributeInfo info.file_info name info.token)
    exact ⟨h', hadd, hs'⟩

theorem Steady.neutral (hs : Steady a h₀ h info.ref_cnt ds) (hl : Listed h₀ a k info fi) (hds : SameTotals info.ds ds) :
    RefreshNeutral h₀ h a := by
  obtain ⟨n, hfile⟩ := hs.files _ fi hl.file
  have hmem := hl.mem
  rw [← hl.cls] at hmem
  exact ⟨info, _, fi, _, hl.obj, hs.node info hl.obj, hl.file, hfile, rfl, rfl, rfl, rfl, hds, rfl, hmem, rfl⟩

end

/-! ## The callbacks of a refresh -/

section

variable {a : Addr} {k : ObjClass} {h₀ h : ProvHelper} {r : Int} {ds : DsInfo} {info : ObjInfo} {fi : FileInfo} {s : Conn}

def Conn.Steady (a : Addr) (h₀ : ProvHelper) (s : Conn) (r : Int) (ds : DsInfo) : Prop :=
  ∃ h, s.PROV_HELPER = some h ∧ Provio.Steady a h₀ h r ds

theorem Conn.Steady.updHelper (hs : s.Steady a h₀ r ds) {f : ProvHelper → Except Fault ProvHelper} {r' : Int}
    {ds' : DsInfo} (hf : ∀ h, Provio.Steady a h₀ h r ds → ∃ h', f h = .ok h' ∧ Provio.Steady a h₀ h' r' ds') :
    ∃ s', s.updHelper f = .ok s' ∧ s'.Steady a h₀ r' ds' := by
  obtain ⟨h, hh, hst⟩ := hs
  obtain ⟨h', hrun, hst'⟩ := hf h hst
  exact ⟨_, updHelper_eq_ok.2 ⟨h, h', hh, hrun, rfl⟩, h', rfl, hst'⟩

theorem Conn.Steady.onHelper {α : Type} {x : α} (hs : s.Steady a h₀ r ds)
    {f : ProvHelper → Except Fault (ProvHelper × α)} {r' : Int} {ds' : DsInfo}
    (hf : ∀ h, Provio.Steady a h₀ h r ds → ∃ h', f h = .ok (h', x) ∧ Provio.Steady a h₀ h' r' ds') :
    ∃ s', s.onHelper f = .ok (s', x) ∧ s'.Steady a h₀ r' ds' := by
  obtain ⟨h, hh, hst⟩ := hs
  obtain ⟨h', hrun, hst'⟩ := hf h hst
  exact ⟨_, onHelper_eq_ok.2 ⟨h, h', hh, hrun, rfl⟩, h', rfl, hst'⟩

theorem unwrapObject_steady (hs : s.Steady a h₀ r ds) (hinfo : h₀.objs a = some info) (hr : 1 < r) (c : TokenCmp)
    {o : ProvObj} (ha : o.generic_prov_info = a) (hk : o.my_type = .obj k) :
    ∃ s', unwrapObject s c o true = .ok (s', true) ∧ s'.Steady a h₀ (r - 1) ds := by
  have hrun : ∃ s', (s.updHelper fun h => do
      let h ← rmTargetNode h c o
      pure (provenanceFreeObj h)) = .ok s' ∧ s'.Steady a h₀ (r - 1) ds := by
    apply hs.updHelper
    intro h hst
    obtain ⟨h', hrm, hst'⟩ := hst.rmNode hinfo hr k c
    refine ⟨provenanceFreeObj h', ?_, hst'.frame rfl rfl⟩
    rw [rmTargetNode, hk]
    dsimp only
    rw [ha, hrm]
    rfl
  obtain ⟨s', hs', hst'⟩ := hrun
  refine ⟨s', ?_, hst'⟩
  rw [unwrapObject, Conn.onSuccess, if_pos rfl, hs']
  rfl

theorem wrapObject_steady (hs : s.Steady a h₀ r ds) (hl : Listed h₀ a k info fi) {m : Made} (hm : m.cmp.Decides)
    {u : Under} (hmu : m.under = some u) (hu : u.info = some (fi.file_no, info.token)) :
    ∃ s', wrapObject s info.file_info (.obj k) m = .ok (s', some ⟨some u, .obj k, a⟩) ∧ s'.Steady a h₀ (r + 1) ds := by
  have hfake : ∃ s₁, (s.onHelper fun h => pure (provenanceNewObj h, (⟨none, .file, info.file_info⟩ : ProvObj)))
      = .ok (s₁, ⟨none, .file, info.file_info⟩) ∧ s₁.Steady a h₀ r ds :=
    hs.onHelper fun h hst => ⟨_, rfl, hst.frame rfl rfl⟩
  obtain ⟨s₁, h1, hs₁⟩ := hfake
  have hwrap : ∃ s₂, (s₁.onHelper fun h => wrapUnder h m u ⟨none, .file, info.file_info⟩ none (.obj k))
      = .ok (s₂, ⟨some u, .obj k, a⟩) ∧ s₂.Steady a h₀ (r + 1) ds := by
    apply hs₁.onHelper
    intro h hst
    obtain ⟨h', hadd, hst'⟩ := (show Provio.Steady a h₀ (provenanceNewObj h) r ds from hst.frame rfl rfl).addTargetNode hl hm hu none
    refine ⟨h', ?_, hst'⟩
    have hfile : fileInfoOf h ⟨none, .file, info.file_info⟩ = .ok info.file_info := rfl
    rw [wrapUnder, hfile, ok_bind, hadd]
    rfl
  obtain ⟨s₂, h2, hs₂⟩ := hwrap
  obtain ⟨s₃, h3, hs₃⟩ := hs₂.updHelper (f := fun h => pure (provenanceFreeObj h))
    fun h hst => ⟨_, rfl, hst.frame rfl rfl⟩
  refine ⟨s₃, ?_, hs₃⟩
  have hobj : objWrapUnder s₁ m ⟨none, .file, info.file_info⟩ none (.obj k) = .ok (s₂, some ⟨some u, .obj k, a⟩) := by
    rw [objWrapUnder, hmu]
    dsimp only
    rw [h2]
    rfl
  unfold wrapObject
  rw [hmu]
  dsimp only
  rw [h1, ok_bind]
  dsimp only
  rw [hobj, ok_bind]
  dsimp only
  rw [h3]
  rfl

/-- A pair is of the node's own object. -/
def Rewrap.Same (info : ObjInfo) (fi : FileInfo) (p : Rewrap) : Prop :=
  p.made.cmp.Decides ∧ ∃ u, p.made.under = some u ∧ u.info = some (fi.file_no, info.token)

/-- **Every unwrap and wrap in between cancel out.** -/
theorem refreshPairs_steady (hl : Listed h₀ a k info fi) (hr : 1 < r) : ∀ {pairs : List Rewrap} {s : Conn} {o : ProvObj},
    s.Steady a h₀ r ds → (∀ p ∈ pairs, p.Same info fi) → o.generic_prov_info = a → o.my_type = .obj k →
    ∃ s', refreshPairs info.file_info s o pairs = .ok s' ∧ s'.Steady a h₀ r ds
  | [], s, _, hs, _, _, _ => ⟨s, rfl, hs⟩
  | p :: ps, s, o, hs, hps, ha, hk => by
    obtain ⟨hm, u, hmu, hu⟩ := hps p List.mem_cons_self
    obtain ⟨s₁, h1, hs₁⟩ := unwrapObject_steady hs hl.obj hr p.cmp ha hk
    obtain ⟨s₂, h2, hs₂⟩ := wrapObject_steady hs₁ hl hm hmu hu
    rw [Int.sub_add_cancel] at hs₂
    obtain ⟨s', h3, hs'⟩ := refreshPairs_steady (o := ⟨some u, .obj k, a⟩) hl hr hs₂
      (fun q hq => hps q (List.mem_cons_of_mem _ hq)) rfl rfl
    refine ⟨s', ?_, hs'⟩
    rw [refreshPairs, h1, ok_bind]
    dsimp only
    rw [hk, h2, ok_bind]
    exact h3

theorem refreshBegin_steady (hs : s.Steady a h₀ r ds) (hinfo : h₀.objs a = some info) {specific : Specific} {o : ProvObj}
    (ha : o.generic_prov_info = a) (hk : o.my_type = .obj k) (hcls : Hold.cls ⟨specific, k, a⟩ = k) :
    ∃ s', refreshBegin s specific o = .ok (s', ⟨specific, k, a⟩) ∧ s'.Steady a h₀ (r + 1) ds := by
  have hdataset : specific ≠ .dataset ∨ k = .dataset := by
    cases specific with
    | dataset => exact .inr hcls.symm
    | _ => exact .inl nofun
  have hrun : ∃ s', (s.onHelper fun h => do
      let h ← h.refObj o.generic_prov_info
      pure (h, (⟨specific, k, o.generic_prov_info⟩ : Hold))) = .ok (s', ⟨specific, k, a⟩) ∧ s'.Steady a h₀ (r + 1) ds := by
    rw [ha]
    apply hs.onHelper
    intro h hst
    obtain ⟨h', href, -, hst'⟩ := hst.refObj hinfo
    exact ⟨h', by rw [href]; rfl, hst'⟩
  obtain ⟨s', hs', hst'⟩ := hrun
  refine ⟨s', ?_, hst'⟩
  rw [refreshBegin, hk]
  dsimp only
  rw [show cAssert (decide (specific ≠ .dataset ∨ k = .dataset)) = .ok () by simp [hdataset], ok_bind, hs']

def Specific.refreshed (k : ObjClass) (ret : Bool) (extent : Extent) (ds : DsInfo) : DsInfo :=
  if ret ∧ k = .dataset then ds.refresh extent else ds

theorem refreshed_totals (k : ObjClass) (ret : Bool) (extent : Extent) (ds : DsInfo) :
    SameTotals ds (Specific.refreshed k ret extent ds) := by
  unfold Specific.refreshed
  split <;> exact ⟨rfl, rfl, rfl, rfl, rfl, rfl⟩

theorem refreshEnd_steady (hs : s.Steady a h₀ r ds) (hinfo : h₀.objs a = some info) (hr : 1 < r) {specific : Specific}
    (hcls : Hold.cls ⟨specific, k, a⟩ = k) (c : TokenCmp) {ret : Bool} (hread : ret = true → specific.readsObject = false)
    (extent : Extent) : ∃ s', refreshEnd s c ⟨specific, k, a⟩ ret extent = .ok s' ∧
      s'.Steady a h₀ (r - 1) (Specific.refreshed k ret extent ds) := by
  apply hs.updHelper
  intro h hst
  have hrest : ∀ {h₁ ds₁}, Provio.Steady a h₀ h₁ r ds₁ → ∃ h₂,
      (rmNode (Hold.cls ⟨specific, k, a⟩) h₁ c a >>= fun r => pure r.1) = .ok h₂ ∧ Provio.Steady a h₀ h₂ (r - 1) ds₁ := by
    intro h₁ ds₁ hst₁
    obtain ⟨h₂, h2, hst₂⟩ := hst₁.rmNode hinfo hr (Hold.cls ⟨specific, k, a⟩) c
    exact ⟨h₂, by rw [h2]; rfl, hst₂⟩
  cases ret with
  | false => exact hrest hst
  | true =>
    have hplain : ¬ (specific = .group ∨ specific = .datatype) := by
      rintro (rfl | rfl) <;> exact absurd (hread rfl) (by decide)
    have hpos : cAssert (decide (({ info with ref_cnt := r, ds := ds } : ObjInfo).ref_cnt > 0)) = .ok () := by
      simp only [cAssert_eq_ok, decide_eq_true_eq]
      omega
    have hmid : ∃ h₁, refreshed h ⟨specific, k, a⟩ extent = .ok h₁ ∧
        Provio.Steady a h₀ h₁ r (Specific.refreshed k true extent ds) := by
      rw [refreshed, obj_eq_ok.2 (hst.node info hinfo), ok_bind, hpos, ok_bind, if_neg hplain, hcls]
      unfold Specific.refreshed
      by_cases hk : k = .dataset
      · rw [if_pos hk, if_pos ⟨rfl, hk⟩]
        exact hst.updateDs hinfo _
      · rw [if_neg hk, if_neg fun hc => hk hc.2]
        exact ⟨h, rfl, hst⟩
    obtain ⟨h₁, h1, hst₁⟩ := hmid
    obtain ⟨h₂, h2, hst₂⟩ := hrest hst₁
    exact ⟨h₂, bind_eq_ok.2 ⟨h₁, h1, h2⟩, hst₂⟩

/-- **A refresh that does not read its object again gives back what it took.** -/
theorem refreshCall_steady (hs : s.Steady a h₀ r ds) (hl : Listed h₀ a k info fi) (hr : 0 < r) {specific : Specific}
    {o : ProvObj} (ha : o.generic_prov_info = a) (hk : o.my_type = .obj k) (hcls : Hold.cls ⟨specific, k, a⟩ = k)
    {pairs : List Rewrap} (hps : ∀ p ∈ pairs, p.Same info fi) (c : TokenCmp) {ret : Bool}
    (hread : specific.readsObject = true → ret = false ∧ pairs = []) (extent : Extent) :
    ∃ s', refreshCall s specific o info.file_info pairs c ret extent = .ok s' ∧
      s'.Steady a h₀ r (Specific.refreshed k ret extent ds) := by
  obtain ⟨s₁, h1, hs₁⟩ := refreshBegin_steady hs hl.obj ha hk hcls
  obtain ⟨s₂, h2, hs₂⟩ := refreshPairs_steady hl (show 1 < r + 1 by omega) hs₁ hps ha hk
  have hret : ret = true → specific.readsObject = false := by
    intro hret
    by_contra hspec
    exact absurd (hread (by simpa using hspec)).1 (by simp [hret])
  obtain ⟨s₃, h3, hs₃⟩ := refreshEnd_steady hs₂ hl.obj (show 1 < r + 1 by omega) hcls c hret extent
  rw [Int.add_sub_cancel] at hs₃
  refine ⟨s₃, ?_, hs₃⟩
  have hfreed : (specific.readsObject && !ret && !pairs.isEmpty) = false := by
    cases hspec : specific.readsObject with
    | false => rfl
    | true => simp [(hread hspec).2]
  rw [refreshCall, h1, ok_bind]
  dsimp only
  rw [h2, ok_bind, hfreed]
  exact h3

/-- **Otherwise it reads NULL or what was freed.** -/
theorem refreshCall_reads {specific : Specific} (hspec : specific.readsObject = true) {o : ProvObj} {wrap_ctx : Addr}
    {pairs : List Rewrap} {c : TokenCmp} {ret : Bool} {extent : Extent} (hbad : ¬ (ret = false ∧ pairs = [])) :
    ∀ s', refreshCall s specific o wrap_ctx pairs c ret extent ≠ .ok s' := by
  intro s' hrun
  obtain ⟨⟨s₁, hold⟩, h1, hrun⟩ := bind_eq_ok.1 hrun
  obtain ⟨s₂, -, hrun⟩ := bind_eq_ok.1 hrun
  have hhold : hold.specific = specific := by
    unfold refreshBegin at h1
    split at h1
    · cases h1
    · obtain ⟨u, hu, h1⟩ := bind_eq_ok.1 h1
      obtain ⟨h, h', hh, hf, hs⟩ := onHelper_eq_ok.1 h1
      obtain ⟨h₁, href, hpure⟩ := bind_eq_ok.1 hf
      cases hpure
      rfl
  split at hrun
  · cases hrun
  · rename_i hnot
    cases ret with
    | false => exact hbad ⟨rfl, by simpa [hspec] using hnot⟩
    | true =>
      obtain ⟨h, h', hh, hf, hs⟩ := updHelper_eq_ok.1 hrun
      obtain ⟨h₁, hf, hrest⟩ := bind_eq_ok.1 hf
      obtain ⟨i, hi, hf⟩ := bind_eq_ok.1 hf
      obtain ⟨u, hu, hf⟩ := bind_eq_ok.1 hf
      have hplain : hold.specific = .group ∨ hold.specific = .datatype := by
        rw [hhold]
        cases specific with
        | group => exact .inl rfl
        | datatype => exact .inr rfl
        | dataset | object => cases hspec
      rw [if_pos hplain] at hf
      cases hf

end

/-! ## When a refresh is neutral -/

theorem Listed.of_tokens {h : ProvHelper} {a : Addr} {k : ObjClass} {info : ObjInfo} {fi : FileInfo}
    (hobj : h.objs a = some info) (hfile : h.files info.file_info = some fi) (hmem : a ∈ fi.opened k)
    (hnodes : ∀ o ∈ fi.opened k, ∃ i, h.objs o = some i ∧ (i.token = info.token → o = a)) (href : 0 < info.ref_cnt)
    (hcls : info.cls = k) : Listed h a k info fi := by
  refine ⟨hobj, hfile, hmem, fun c hc => ?_, href, hcls⟩
  obtain ⟨r, hr⟩ := findNode_progress c info.token c.uninit fun o ho => (hnodes o ho).imp fun _ hi => hi.1
  have hspec := findNode_spec hc hr
  cases r with
  | none => exact absurd rfl (hspec a hmem info hobj)
  | some o =>
    obtain ⟨ho, i, hi, htok⟩ := hspec
    obtain ⟨j, hj, hsame⟩ := hnodes o ho
    rw [hi] at hj
    cases hj
    rw [hr, hsame htok]

theorem Tracked.listed {h : ProvHelper} {app : App} {e : Ledger} {n : Nat} (ht : Tracked h app e n) {o : ProvObj}
    (ho : o ∈ app.handles) {k : ObjClass} (hk : o.my_type = .obj k) :
    ∃ info fi, Listed h o.generic_prov_info k info fi := by
  have hf : o.my_type ≠ .file := by simp [hk]
  obtain ⟨info, hinfo, ha, fi, hfi, hmem⟩ := ht.consistent.listed _ (mem_live_objs (e := e) ho hf)
  have hcls : info.cls = k := by
    have := (ht.handles o ho hf info hinfo).1
    rw [hk] at this
    exact (ObjType.obj.inj this).symm
  rw [hcls] at hmem
  have hok := ht.consistent.fileOk ha hfi
  refine ⟨info, fi, .of_tokens hinfo hfi hmem (fun x hx => ?_) ?_ hcls⟩
  · obtain ⟨i, hi, -⟩ := hok.objs k x hx
    exact ⟨i, hi, hok.tokens k x hx _ hmem i info hi hinfo⟩
  · obtain ⟨i, hi, hobj⟩ := hok.objs k _ hmem
    rw [hinfo] at hi
    cases hi
    rw [hobj.ref]
    have := hobj.pos
    omega

/-- **A refresh is neutral, whatever the underlying call comes to and however often it unwraps and wraps the object,
exactly if it is the dataset's or the generic one, or it fails without an unwrap.** -/
theorem refresh_neutral_iff (s : Conn) (h : ProvHelper) (hh : s.PROV_HELPER = some h) (o : ProvObj) (k : ObjClass)
    (hk : o.my_type = .obj k) (info : ObjInfo) (fi : FileInfo) (hl : Listed h o.generic_prov_info k info fi)
    (specific : Specific) (hcls : Hold.cls ⟨specific, k, o.generic_prov_info⟩ = k) (wrap_ctx : Addr)
    (hctx : fileInfoOf h o = .ok wrap_ctx) (pairs : List Rewrap) (hps : ∀ p ∈ pairs, p.Same info fi) (c : TokenCmp)
    (ret : Bool) (extent : Extent) :
    (∃ s' h', refreshCall s specific o wrap_ctx pairs c ret extent = .ok s' ∧ s'.PROV_HELPER = some h' ∧
      RefreshNeutral h h' o.generic_prov_info) ↔
      specific.readsObject = false ∨ (ret = false ∧ pairs = []) := by
  have hhome : wrap_ctx = info.file_info := by
    rw [fileInfoOf, hk] at hctx
    dsimp only at hctx
    rw [obj_eq_ok.2 hl.obj, ok_bind] at hctx
    exact (Except.ok.inj hctx).symm
  constructor
  · rintro ⟨s', h', hrun, -⟩
    by_contra hbad
    simp only [not_or, Bool.not_eq_false] at hbad
    exact refreshCall_reads hbad.1 hbad.2 s' hrun
  · intro hgood
    have hread : specific.readsObject = true → ret = false ∧ pairs = [] := by
      intro hspec
      apply hgood.resolve_left
      simp [hspec]
    have hs : s.Steady o.generic_prov_info h info.ref_cnt info.ds := ⟨h, hh, .refl hl.obj⟩
    obtain ⟨s', hrun, h', hh', hst⟩ := refreshCall_steady hs hl hl.ref rfl hk hcls hps c hread extent
    rw [hhome]
    exact ⟨s', h', hrun, hh', hst.neutral hl (refreshed_totals k ret extent info.ds)⟩

/-- A dataset is refreshed, closed and opened again once on the way. -/
theorem refresh_neutral_dataset : ∃ w h, runCallbacks [createFile, createDataset (cstr "/d") (some (objUnder 7))]
      (.start rankOneInput) = .ok w ∧ w.conn.PROV_HELPER = some h ∧
    ∃ o ∈ w.app.handles, ∃ s' h', refreshCall w.conn .dataset o 0 [⟨exactCmp, made (some (objUnder 7))⟩] exactCmp true
      ⟨[20], 20⟩ = .ok s' ∧ s'.PROV_HELPER = some h' ∧ RefreshNeutral h h' o.generic_prov_info := by
  obtain ⟨w, h, hw, hh, hobj, hfile, ho⟩ : ∃ w h, runCallbacks [createFile, createDataset (cstr "/d") (some (objUnder 7))]
      (.start rankOneInput) = .ok w ∧ w.conn.PROV_HELPER = some h ∧
      h.objs 1 = some { newDsProvInfo someShape 7 0 (some (cstr "/d")) with ref_cnt := 1 } ∧
      (∃ fi, h.files 0 = some fi ∧ fi.file_no = 1 ∧ fi.opened .dataset = [1]) ∧
      (⟨some (objUnder 7), .obj .dataset, 1⟩ : ProvObj) ∈ w.app.handles := by
    exact ⟨_, _, rfl, rfl, rfl, ⟨_, rfl, rfl, rfl⟩, .head _⟩
  obtain ⟨fi, hfi, hno, hopened⟩ := hfile
  have hl : Listed h 1 .dataset { newDsProvInfo someShape 7 0 (some (cstr "/d")) with ref_cnt := 1 } fi := by
    refine .of_tokens hobj hfi ?_ (fun x hx => ?_) (by decide) rfl
    · rw [hopened]
      exact List.mem_singleton_self 1
    · rw [hopened] at hx
      obtain rfl := List.mem_singleton.1 hx
      exact ⟨_, hobj, fun _ => rfl⟩
  refine ⟨w, h, hw, hh, _, ho, (refresh_neutral_iff w.conn h hh ⟨some (objUnder 7), .obj .dataset, 1⟩ .dataset rfl _ fi hl
    .dataset rfl 0 ?_ _ ?_ exactCmp true ⟨[20], 20⟩).2 (.inl rfl)⟩
  · show (h.obj 1 >>= fun info => pure info.file_info) = .ok 0
    rw [obj_eq_ok.2 hobj]
    rfl
  · intro p hp
    obtain rfl := List.mem_singleton.1 hp
    exact ⟨exactCmp_decides, _, rfl, by rw [hno]; rfl⟩

/-- **A group that is refreshed with success**: its callback reads through the pointer it has set to NULL. -/
theorem group_refresh_reads_null : ∃ w, runCallbacks [createFile, createGroup] (.start rankOneInput) = .ok w ∧
    groupHandle ∈ w.app.handles ∧
    refreshCall w.conn .group groupHandle 0 [] exactCmp true ⟨[], 0⟩ = .error .null :=
  ⟨_, rfl, .head _, rfl⟩

end Provio
