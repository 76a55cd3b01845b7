import Provio.Activities
/-!
# Capacities — what a session writes into its character arrays

Every `strcpy` and `strcat` into the arrays of `prov_fields`, into `legacy_uri_str` and into the block that `strdup` made
for the graph's path, with the bytes the destination needs for it (`sessionWrites`).  The writes of a session all stay
inside exactly when its inputs are short enough and it has no new graph to append a rank to (`sessionWrites_fit_iff`).
-/
namespace Provio

/-! ## Destinations -/

inductive Dest where
  | data_object
  | io_api
  | proc_name
  | legacy_uri_str
  | new_graph_path
deriving DecidableEq

/-- `strdup` leaves room for the value and its terminator. -/
def Dest.capacity (config : ProvConfig) : Dest → Nat
  | .data_object    => 512
  | .io_api         => 512
  | .proc_name      => 1024
  | .legacy_uri_str => 256
  | .new_graph_path => (config.new_graph_path.getD []).length + 1

/-- The bytes of the destination that are used once the write is done, its terminator included. -/
structure Write where
  dest  : Dest
  bytes : Nat
deriving DecidableEq

def Write.fits (config : ProvConfig) (w : Write) : Prop := w.bytes ≤ w.dest.capacity config

instance (config : ProvConfig) (w : Write) : Decidable (w.fits config) := inferInstanceAs (Decidable (_ ≤ _))

def strcpyTo (dest : Dest) (s : CStr) : List Write := [⟨dest, s.length + 1⟩]

def strcatTo (dest : Dest) (held s : CStr) : List Write := [⟨dest, held.length + s.length + 1⟩]

/-- `alloc_proc_uuid` and `alloc_api_uuid`. -/
def uuidWrites (dest : Dest) (held uuid : CStr) : List Write :=
  strcatTo dest held (cstr "--") ++ strcatTo dest (held ++ cstr "--") uuid

/-! ## A session's writes -/

/-- `legacy_reads` says whether `fopen` of the legacy graph for reading succeeds. -/
def provioInitWrites (inp : SessionInput) (legacy_reads : Bool) : List Write :=
  let proc_name := getProcessNameByPid (decimal inp.PROC_ID) inp.cmdline
  strcpyTo .proc_name proc_name ++ uuidWrites .proc_name proc_name inp.proc_uuid ++
    strcpyTo .legacy_uri_str (cstr "file:") ++
    match inp.config.legacy_graph_path with
    | some path =>
      if inp.config.enable_legacy_graph && legacy_reads then strcatTo .legacy_uri_str (cstr "file:") path else []
    | none => []

def openGraphsWrites (config : ProvConfig) (mpi_rank_int : Int) : List Write :=
  if isGraph config then
    match config.new_graph_path with
    | some path =>
      if config.enable_legacy_graph then []
      else strcatTo .new_graph_path path (cstr ".RANK-") ++
        strcatTo .new_graph_path (path ++ cstr ".RANK-") (decimalInt mpi_rank_int)
    | none => []
  else []

def provioHelperInitWrites (config : ProvConfig) (mpi_rank_int : Int) : List Write :=
  match checkConfig config with
  | .error _ => []
  | .ok _    =>
    if config.prov_level ≥ 2 ∧ config.new_graph_path = none ∧ config.legacy_graph_path = none then []
    else openGraphsWrites config mpi_rank_int

def SessionOp.writes (p : Process) : SessionOp → List Write
  | .fillDataObject obj_name _ => strcpyTo .data_object obj_name
  | .fillIoApi io_api _        => strcpyTo .io_api io_api
  | .addProvRecord uuid _      =>
    if p.helper.isSome && isGraph p.config && p.config.enable_api_prov then uuidWrites .io_api p.fields.io_api uuid
    else []
  | _                          => []

def opsWrites : Process → List SessionOp → List Write
  | _, []        => []
  | p, op :: ops => op.writes p ++ match op.run p with
    | .ok p    => opsWrites p ops
    | .error _ => []

def sessionWrites (p : Process) (s : Session) (legacy_reads : Bool) : List Write :=
  provioInitWrites s.input legacy_reads ++ provioHelperInitWrites s.input.config s.input.MPI_RANK ++
    match provioHelperInit (provioInit p s.input) s.input with
    | .ok p    => opsWrites p s.ops
    | .error _ => []

/-! ## The calls a session gets through -/

def completed : Process → List SessionOp → List SessionOp
  | _, []        => []
  | p, op :: ops => match op.run p with
    | .ok p    => op :: completed p ops
    | .error _ => []

def Session.completed (s : Session) (p : Process) : List SessionOp :=
  match provioHelperInit (provioInit p s.input) s.input with
  | .ok p    => Provio.completed p s.ops
  | .error _ => []

theorem completed_subset : ∀ (ops : List SessionOp) (p : Process), completed p ops ⊆ ops
  | [], _ => List.Subset.refl _
  | op :: ops, p => by
    unfold completed
    split
    · exact List.cons_subset_cons op (completed_subset ops _)
    · exact List.nil_subset _

theorem runSessionOps_completed : ∀ (ops : List SessionOp) (p : Process), ∃ q, runSessionOps p (completed p ops) = .ok q
  | [], p => ⟨p, rfl⟩
  | op :: ops, p => by
    unfold completed
    cases hq : op.run p with
    | error e => exact ⟨p, rfl⟩
    | ok q =>
      obtain ⟨r, hr⟩ := runSessionOps_completed ops q
      exact ⟨r, by simp only [runSessionOps, hq]; exact hr⟩

/-- **A call that stops the session has written nothing.** -/
theorem SessionOp.writes_of_error {p : Process} {op : SessionOp} {e : Fault} (h : op.run p = .error e) :
    op.writes p = [] := by
  cases op with
  | fillDataObject obj_name type => cases h
  | fillRelation relation => cases h
  | fillIoApi io_api duration => cases h
  | funcStat c => rfl
  | addProvRecord uuid elapsed =>
    refine if_neg (fun hw => ?_)
    simp only [Bool.and_eq_true, isGraph] at hw
    obtain ⟨⟨hhelper, hlevel, hrdf⟩, -⟩ := hw
    obtain ⟨helper, hhelper⟩ := Option.isSome_iff_exists.1 hhelper
    have hok : isRdf p.config = .ok true := isRdf_eq_ok.2 ⟨rdfFormat_isSome hrdf, hrdf.symm⟩
    simp only [SessionOp.run, Provio.addProvRecord, hhelper, hok, ok_bind, if_true] at h
    split at h <;> cases h

theorem opsWrites_completed : ∀ (ops : List SessionOp) (p : Process), opsWrites p ops = opsWrites p (completed p ops)
  | [], _ => rfl
  | op :: ops, p => by
    unfold completed
    cases hq : op.run p with
    | error e => simp only [opsWrites, SessionOp.writes_of_error hq, hq, List.append_nil]
    | ok q => simp only [opsWrites, hq, opsWrites_completed ops q]

theorem putRecordLine_frame {p q : Process} {helper_in : ProvioHelper} {pline : CStr}
    (h : putRecordLine p helper_in pline = .ok q) : q.config = p.config ∧ q.fields = p.fields := by
  unfold putRecordLine at h
  split at h
  all_goals
    obtain ⟨legacy, -, h⟩ := bind_eq_ok.1 h
    obtain ⟨new, -, h⟩ := bind_eq_ok.1 h
    cases h
    exact ⟨rfl, rfl⟩

theorem SessionOp.run_fields {p q : Process} {op : SessionOp} (h : op.run p = .ok q) :
    q.config = p.config ∧ q.fields = op.fields p.config p.fields ∧ (op.isRecord = true → p.helper.isSome = true) := by
  cases op with
  | fillDataObject obj_name type => cases h; exact ⟨rfl, rfl, fun hf => by cases hf⟩
  | fillRelation relation => cases h; exact ⟨rfl, rfl, fun hf => by cases hf⟩
  | fillIoApi io_api duration => cases h; exact ⟨rfl, rfl, fun hf => by cases hf⟩
  | funcStat c =>
    simp only [SessionOp.run, Provio.funcStat] at h
    split at h
    · cases h
    · obtain ⟨r, -, h⟩ := bind_eq_ok.1 h
      cases h
      exact ⟨rfl, rfl, fun hf => by cases hf⟩
  | addProvRecord uuid elapsed =>
    simp only [SessionOp.run, Provio.addProvRecord] at h
    cases hhelper : p.helper with
    | none => rw [hhelper] at h; cases h
    | some helper =>
      rw [hhelper] at h
      obtain ⟨rdf, hrdf, h⟩ := bind_eq_ok.1 h
      obtain ⟨-, rfl⟩ := isRdf_eq_ok.1 hrdf
      by_cases hl : p.config.prov_level = File_only ∨ p.config.prov_level = File_and_print
      · have hlevel : isFileLevel p.config = true := by simpa [isFileLevel] using hl
        rw [if_pos hl] at h
        cases hr : rdfFormat p.config with
        | true =>
          rw [hr, if_pos rfl, addProvRecordRedland_eq] at h
          cases h
          exact ⟨rfl, by simp [SessionOp.fields, isGraph, hlevel, hr], fun _ => rfl⟩
        | false =>
          rw [hr, if_neg (by decide)] at h
          obtain ⟨r, hput, h⟩ := bind_eq_ok.1 h
          cases h
          obtain ⟨hconfig, hfields⟩ := putRecordLine_frame hput
          exact ⟨hconfig, by simpa [SessionOp.fields, isGraph, hr] using hfields, fun _ => rfl⟩
      · have hlevel : isFileLevel p.config = false := by simpa [isFileLevel] using hl
        rw [if_neg hl] at h
        cases h
        exact ⟨rfl, by simp [SessionOp.fields, isGraph, hlevel], fun _ => rfl⟩

/-! ## How long `io_api` gets -/

def SessionOp.fillsApi : SessionOp → Bool
  | .fillIoApi _ _ => true
  | _              => false

def activityCount (config : ProvConfig) (ops : List SessionOp) : Nat :=
  if isGraph config && config.enable_api_prov then ops.countP SessionOp.isRecord else 0

section Lengths

variable {config : ProvConfig}

theorem recordFields_length {uuid : CStr} (hu : uuid.length = 36) (fields : ProvFields) :
    (recordFields config fields uuid).io_api.length =
      fields.io_api.length + if config.enable_api_prov then 38 else 0 := by
  have hdashes : (cstr "--").length = 2 := rfl
  unfold recordFields activityName
  split <;> simp [hu, hdashes]

theorem SessionOp.fields_length {op : SessionOp} (hop : op.fillsApi = false) (hu : ∀ uuid ∈ op.uuid, uuid.length = 36)
    (fields : ProvFields) :
    (op.fields config fields).io_api.length = fields.io_api.length + 38 * activityCount config [op] := by
  cases op with
  | fillIoApi io_api duration => cases hop
  | addProvRecord uuid elapsed =>
    cases hg : isGraph config <;> cases hapi : config.enable_api_prov <;>
      simp [SessionOp.fields, activityCount, SessionOp.isRecord, hg, hapi, recordFields_length (hu uuid rfl)]
  | _ => simp [SessionOp.fields, activityCount, SessionOp.isRecord]

theorem activityCount_append (ops ops' : List SessionOp) :
    activityCount config (ops ++ ops') = activityCount config ops + activityCount config ops' := by
  unfold activityCount
  split <;> simp

/-- **A name grows by 38 bytes a record** until it is filled again. -/
theorem fieldsAfter_length : ∀ {ops : List SessionOp}, (∀ op ∈ ops, op.fillsApi = false) →
    (∀ uuid ∈ ops.filterMap SessionOp.uuid, uuid.length = 36) → ∀ fields,
    (fieldsAfter config fields ops).io_api.length = fields.io_api.length + 38 * activityCount config ops
  | [], _, _, _ => by simp [fieldsAfter, activityCount]
  | op :: ops, hquiet, hu, fields => by
    have hop : ∀ uuid ∈ op.uuid, uuid.length = 36 := fun uuid huuid =>
      hu uuid (by rw [List.filterMap_cons_some huuid]; exact List.mem_cons_self ..)
    have hrest := @fieldsAfter_length ops (fun o ho => hquiet o (List.mem_cons_of_mem _ ho))
      (fun uuid huuid => hu uuid (uuids_subset op ops huuid)) (op.fields config fields)
    rw [fieldsAfter, hrest, SessionOp.fields_length (hquiet op (List.mem_cons_self ..)) hop,
      show op :: ops = [op] ++ ops from rfl, activityCount_append]
    omega

theorem fieldsAfter_append : ∀ (ops ops' : List SessionOp) (fields : ProvFields),
    fieldsAfter config fields (ops ++ ops') = fieldsAfter config (fieldsAfter config fields ops) ops'
  | [], _, _          => rfl
  | _ :: ops, ops', _ => fieldsAfter_append ops ops' _

theorem lastFill : ∀ ops : List SessionOp, (∀ op ∈ ops, op.fillsApi = false) ∨
    ∃ before io_api duration between, ops = before ++ .fillIoApi io_api duration :: between ∧
      ∀ op ∈ between, op.fillsApi = false
  | [] => .inl (fun _ h => by cases h)
  | op :: ops => by
    rcases lastFill ops with hquiet | ⟨before, io_api, duration, between, rfl, hquiet⟩
    · cases hop : op.fillsApi with
      | true =>
        cases op with
        | fillIoApi io_api duration => exact .inr ⟨[], io_api, duration, ops, rfl, hquiet⟩
        | _ => cases hop
      | false => exact .inl (List.forall_mem_cons.2 ⟨hop, hquiet⟩)
    · exact .inr ⟨op :: before, io_api, duration, between, rfl, hquiet⟩

/-- **`io_api` stays short exactly when every name does with the records made before it is filled again.** -/
theorem fieldsAfter_short_iff {ops : List SessionOp} (hu : ∀ uuid ∈ ops.filterMap SessionOp.uuid, uuid.length = 36)
    {fields : ProvFields} (hempty : fields.io_api = []) (n : Nat) :
    (∀ done, done <+: ops → (fieldsAfter config fields done).io_api.length ≤ n) ↔
      (∀ between after, ops = between ++ after → (∀ op ∈ between, op.fillsApi = false) →
        38 * activityCount config between ≤ n) ∧
      ∀ before io_api duration between after, ops = before ++ .fillIoApi io_api duration :: (between ++ after) →
        (∀ op ∈ between, op.fillsApi = false) → io_api.length + 38 * activityCount config between ≤ n := by
  have hsub : ∀ {part : List SessionOp}, part.Sublist ops → ∀ uuid ∈ part.filterMap SessionOp.uuid, uuid.length = 36 :=
    fun hpart uuid huuid => hu uuid ((hpart.filterMap _).subset huuid)
  have hstart : ∀ {between : List SessionOp}, between.Sublist ops → (∀ op ∈ between, op.fillsApi = false) →
      (fieldsAfter config fields between).io_api.length = 38 * activityCount config between := fun hpart hquiet => by
    rw [fieldsAfter_length hquiet (hsub hpart), hempty, List.length_nil, Nat.zero_add]
  have hfilled : ∀ {before : List SessionOp} {io_api : CStr} {duration : BitVec 64} {between : List SessionOp},
      (before ++ .fillIoApi io_api duration :: between).Sublist ops → (∀ op ∈ between, op.fillsApi = false) →
      (fieldsAfter config fields (before ++ .fillIoApi io_api duration :: between)).io_api.length =
        io_api.length + 38 * activityCount config between := fun {before io_api duration between} hpart hquiet => by
    have hpart' : between.Sublist ops :=
      ((List.sublist_cons_self _ between).trans (List.sublist_append_right before _)).trans hpart
    rw [fieldsAfter_append, fieldsAfter, fieldsAfter_length hquiet (hsub hpart')]
    rfl
  constructor
  · refine fun h => ⟨fun between after hops hquiet => ?_, fun before io_api duration between after hops hquiet => ?_⟩
    · have hpre : between <+: ops := ⟨after, hops.symm⟩
      exact hstart hpre.sublist hquiet ▸ h between hpre
    · have hpre : before ++ .fillIoApi io_api duration :: between <+: ops := ⟨after, by rw [hops]; simp⟩
      exact hfilled hpre.sublist hquiet ▸ h _ hpre
  · rintro ⟨hunfilled, hrefilled⟩ done ⟨after, rfl⟩
    have hpre : done <+: done ++ after := List.prefix_append done after
    rcases lastFill done with hquiet | ⟨before, io_api, duration, between, rfl, hquiet⟩
    · rw [hstart hpre.sublist hquiet]
      exact hunfilled done after rfl hquiet
    · rw [hfilled hpre.sublist hquiet]
      exact hrefilled before io_api duration between after (by simp) hquiet

end Lengths

/-! ## Which writes fit -/

theorem strcpyTo_fit {config : ProvConfig} {dest : Dest} {s : CStr} :
    (∀ w ∈ strcpyTo dest s, w.fits config) ↔ s.length + 1 ≤ dest.capacity config :=
  List.forall_mem_singleton

theorem uuidWrites_fit {config : ProvConfig} {dest : Dest} {held uuid : CStr} (hu : uuid.length = 36) :
    (∀ w ∈ uuidWrites dest held uuid, w.fits config) ↔ held.length + 39 ≤ dest.capacity config := by
  have hdashes : (cstr "--").length = 2 := rfl
  simp only [uuidWrites, strcatTo, Write.fits, List.forall_mem_append, List.forall_mem_singleton, List.length_append, hu,
    hdashes]
  omega

theorem SessionOp.writes_fit {p q : Process} {op : SessionOp} (h : op.run p = .ok q)
    (hu : ∀ uuid ∈ op.uuid, uuid.length = 36) (hheld : p.fields.io_api.length ≤ 511) (config : ProvConfig) :
    (∀ w ∈ op.writes p, w.fits config) ↔ (∀ obj_name type, op = .fillDataObject obj_name type → obj_name.length ≤ 511) ∧
      q.fields.io_api.length ≤ 511 := by
  obtain ⟨-, hfields, hhelper⟩ := SessionOp.run_fields h
  rw [hfields]
  cases op with
  | fillDataObject obj_name type =>
    have hfit : (∀ w ∈ strcpyTo .data_object obj_name, w.fits config) ↔ obj_name.length ≤ 511 :=
      strcpyTo_fit.trans Nat.succ_le_succ_iff
    simp [SessionOp.writes, hfit, SessionOp.fields, hheld]
  | fillIoApi io_api duration =>
    have hfit : (∀ w ∈ strcpyTo .io_api io_api, w.fits config) ↔ io_api.length ≤ 511 :=
      strcpyTo_fit.trans Nat.succ_le_succ_iff
    simp [SessionOp.writes, hfit, SessionOp.fields]
  | fillRelation relation => simp [SessionOp.writes, SessionOp.fields, hheld]
  | funcStat c => simp [SessionOp.writes, SessionOp.fields, hheld]
  | addProvRecord uuid elapsed =>
    have hlen := @recordFields_length p.config uuid (hu uuid rfl) p.fields
    simp only [SessionOp.writes, SessionOp.fields, hhelper rfl, Bool.true_and]
    cases hg : isGraph p.config with
    | false => simp [hheld]
    | true =>
      cases hapi : p.config.enable_api_prov with
      | false => simp [hlen, hapi, hheld]
      | true =>
        simp only [Bool.and_self, if_true, uuidWrites_fit (hu uuid rfl), hlen, hapi, Dest.capacity]
        simp

/-- **The calls' writes fit exactly when the objects' names do and `io_api` does after each call.** -/
theorem opsWrites_fit (config : ProvConfig) : ∀ {ops : List SessionOp} {p q : Process}, runSessionOps p ops = .ok q →
    (∀ uuid ∈ ops.filterMap SessionOp.uuid, uuid.length = 36) → p.fields.io_api.length ≤ 511 →
    ((∀ w ∈ opsWrites p ops, w.fits config) ↔
      (∀ obj_name type, .fillDataObject obj_name type ∈ ops → obj_name.length ≤ 511) ∧
      ∀ done, done <+: ops → (fieldsAfter p.config p.fields done).io_api.length ≤ 511)
  | [], p, q, _, _, hheld => by simp [opsWrites, fieldsAfter, hheld]
  | op :: ops, p, q, hr, hu, hheld => by
    obtain ⟨r, hop, hrest⟩ := bind_eq_ok.1 hr
    obtain ⟨hconfig, hfields, -⟩ := SessionOp.run_fields hop
    have hstep := SessionOp.writes_fit hop
      (fun uuid huuid => hu uuid (by rw [List.filterMap_cons_some huuid]; exact List.mem_cons_self ..)) hheld config
    simp only [opsWrites, hop, List.forall_mem_append, hstep]
    constructor
    · rintro ⟨⟨hobj, hr511⟩, hws⟩
      obtain ⟨hobjs, hdone⟩ := (opsWrites_fit config hrest (fun uuid h => hu uuid (uuids_subset op ops h)) hr511).1 hws
      refine ⟨fun obj_name type hmem => ?_, fun done hpre => ?_⟩
      · rcases List.mem_cons.1 hmem with he | hmem
        · exact hobj obj_name type he.symm
        · exact hobjs obj_name type hmem
      · rcases List.prefix_cons_iff.1 hpre with rfl | ⟨done', rfl, hpre'⟩
        · exact hheld
        · have hshort := hdone done' hpre'
          rwa [hconfig, hfields] at hshort
    · rintro ⟨hobjs, hdone⟩
      have hr511 : r.fields.io_api.length ≤ 511 := by
        rw [hfields]
        exact hdone [op] ⟨ops, rfl⟩
      refine ⟨⟨fun obj_name type he => hobjs obj_name type (he ▸ List.mem_cons_self ..), hr511⟩, ?_⟩
      refine (opsWrites_fit config hrest (fun uuid h => hu uuid (uuids_subset op ops h)) hr511).2
        ⟨fun obj_name type hmem => hobjs obj_name type (List.mem_cons_of_mem _ hmem), fun done hpre => ?_⟩
      rw [hconfig, hfields]
      exact hdone (op :: done) (List.prefix_cons_iff.2 (.inr ⟨done, rfl, hpre⟩))

/-! ## `provio_init` and `provio_helper_init` -/

theorem takeWhile_length_le_iff {α : Type} (r : α → Bool) : ∀ (l : List α) (n : Nat),
    (l.takeWhile r).length ≤ n ↔ l.length ≤ n ∨ ∃ x ∈ l.take (n + 1), r x = false
  | [], n => by simp
  | x :: l, n => by
    cases hx : r x with
    | false => simp [hx]
    | true =>
      cases n with
      | zero => simp [hx]
      | succ n =>
        rw [List.takeWhile_cons_of_pos hx, List.length_cons, Nat.add_le_add_iff_right, takeWhile_length_le_iff r l n]
        simp [hx]

/-- The first 986 bytes that `fread` leaves, in a file that has them. -/
theorem take_newline (f : List UInt8) (h : 986 ≤ f.length) :
    0 ∈ (if (f.take 1024).getLast? = some 10 then (f.take 1024).dropLast ++ [0] else f.take 1024).take 986 ↔
      0 ∈ f.take 986 ∨ f.length = 986 ∧ f.getLast? = some 10 := by
  have hlast : f.length = 986 → (f.take 1024).getLast? = f.getLast? := fun he => by
    rw [List.take_of_length_le (by omega)]
  split
  · rename_i hnl
    by_cases he : f.length = 986
    · have hlen : (f.take 1024).dropLast.length = 985 := by simp [he]
      rw [List.take_append, hlen]
      simp [he, ← hlast he, hnl]
    · have hlen : 986 ≤ (f.take 1024).dropLast.length := by
        rw [List.length_dropLast, List.length_take]
        omega
      rw [List.take_append_of_le_length hlen, List.dropLast_eq_take, List.take_take, List.take_take, List.length_take]
      rw [show min 986 (min 1024 f.length - 1) = 986 by omega, show min 986 1024 = 986 from rfl]
      simp [he]
  · rename_i hnl
    rw [List.take_take, show min 986 1024 = 986 from rfl]
    refine ⟨.inl, fun hor => hor.resolve_right (fun he => hnl ?_)⟩
    rw [hlast he.1, he.2]

/-- **The process name fits with its UUID unless the command line begins with 986 bytes and no terminator.** -/
theorem getProcessNameByPid_short {PROC_ID : Nat} (hpid : PROC_ID < 2 ^ 31) (cmdline : Option (List UInt8)) :
    (getProcessNameByPid (decimal PROC_ID) cmdline).length ≤ 985 ↔
      ∀ f, cmdline = some f → f.length ≤ 985 ∨ 0 ∈ f.take 986 ∨ f.length = 986 ∧ f.getLast? = some 10 := by
  have hpath : (cstr "/proc/" ++ decimal PROC_ID ++ cstr "/cmdline").length ≤ 24 := by
    have hdigits := length_decimal PROC_ID 10 (by decide) (by omega)
    have hproc : (cstr "/proc/").length = 6 := rfl
    have hcmdline : (cstr "/cmdline").length = 8 := rfl
    simp only [List.length_append, hproc, hcmdline]
    omega
  cases cmdline with
  | none =>
    simp only [getProcessNameByPid, reduceCtorEq, false_implies, implies_true, iff_true]
    omega
  | some f =>
    simp only [getProcessNameByPid, Option.some.injEq, forall_eq']
    generalize cstr "/proc/" ++ decimal PROC_ID ++ cstr "/cmdline" = path at hpath ⊢
    have hbytes : (if (f.take 1024).getLast? = some 10 then (f.take 1024).dropLast ++ [0] else f.take 1024).length =
        min 1024 f.length := by
      split
      · rename_i hnl
        have hne : f.take 1024 ≠ [] := fun he => by rw [he] at hnl; cases hnl
        have hpos := List.length_pos_iff.2 hne
        rw [List.length_append, List.length_dropLast, List.length_singleton, Nat.sub_add_cancel hpos, List.length_take]
      · rw [List.length_take]
    rw [takeWhile_length_le_iff]
    by_cases hf : f.length ≤ 985
    · refine iff_of_true (.inl ?_) (.inl hf)
      rw [List.length_append, List.length_drop, hbytes]
      omega
    · have hlong : ¬ (min 1024 f.length + (path.length - min 1024 f.length) ≤ 985) := by omega
      rw [List.length_append, List.length_drop, hbytes, or_iff_right hlong, or_iff_right hf, ← take_newline f (by omega),
        List.take_append_of_le_length (by rw [hbytes]; omega)]
      simp

theorem provioInitWrites_fit {inp : SessionInput} (legacy_reads : Bool) (hpid : inp.PROC_ID < 2 ^ 31)
    (hu : inp.proc_uuid.length = 36) : (∀ w ∈ provioInitWrites inp legacy_reads, w.fits inp.config) ↔
      (∀ f, inp.cmdline = some f → f.length ≤ 985 ∨ 0 ∈ f.take 986 ∨ f.length = 986 ∧ f.getLast? = some 10) ∧
      ∀ path, inp.config.legacy_graph_path = some path → inp.config.enable_legacy_graph = true → legacy_reads = true →
        path.length ≤ 250 := by
  have hfile : (cstr "file:").length = 5 := rfl
  rw [← getProcessNameByPid_short hpid]
  simp only [provioInitWrites, List.forall_mem_append, strcpyTo_fit, uuidWrites_fit hu, Dest.capacity, hfile]
  refine and_congr ?_ ?_
  · omega
  · cases hpath : inp.config.legacy_graph_path with
    | none => simp
    | some path =>
      cases inp.config.enable_legacy_graph <;> cases legacy_reads <;>
        simp [strcatTo, Write.fits, Dest.capacity, hfile]
      omega

/-- A rank is appended to the path of a new graph. -/
def appendsRank (config : ProvConfig) : Bool :=
  isGraph config && config.new_graph_path.isSome && !config.enable_legacy_graph && config.enable_stat_file &&
    config.stat_file_path.isSome

theorem checkConfig_graph {config : ProvConfig} (hg : isGraph config = true) :
    checkConfig config = .ok () ↔ config.enable_stat_file = true ∧ config.stat_file_path.isSome = true := by
  simp only [isGraph, isFileLevel, Bool.and_eq_true, Bool.or_eq_true, decide_eq_true_eq] at hg
  have hlevel : config.prov_level ≠ 0 := by
    rcases hg.1 with h | h <;> rw [h] <;> decide
  simp only [checkConfig, rdfFormat_isSome hg.2]
  cases config.enable_stat_file <;> cases config.stat_file_path <;> simp [cAssert, hlevel]

/-- **The rank never fits behind the path**, whose block ends with it. -/
theorem openGraphsWrites_fit (config : ProvConfig) (mpi_rank_int : Int) :
    (∀ w ∈ openGraphsWrites config mpi_rank_int, w.fits config) ↔
      (isGraph config && config.new_graph_path.isSome && !config.enable_legacy_graph) = false := by
  have hrank : (cstr ".RANK-").length = 6 := rfl
  unfold openGraphsWrites
  cases isGraph config with
  | false => simp
  | true =>
    cases hpath : config.new_graph_path with
    | none => simp
    | some path =>
      cases config.enable_legacy_graph with
      | true => simp
      | false =>
        have hfirst : ¬ Write.fits config ⟨.new_graph_path, path.length + (cstr ".RANK-").length + 1⟩ := by
          simp only [Write.fits, Dest.capacity, hpath, hrank, Option.getD_some]
          omega
        exact iff_of_false (fun h => hfirst (h _ (List.mem_cons_self ..))) (by simp)

theorem provioHelperInitWrites_fit (config : ProvConfig) (mpi_rank_int : Int) :
    (∀ w ∈ provioHelperInitWrites config mpi_rank_int, w.fits config) ↔ appendsRank config = false := by
  have happend : appendsRank config = ((isGraph config && config.new_graph_path.isSome && !config.enable_legacy_graph) &&
      (config.enable_stat_file && config.stat_file_path.isSome)) := by
    unfold appendsRank
    rw [Bool.and_assoc]
  unfold provioHelperInitWrites
  cases hg : isGraph config with
  | false =>
    have hquiet : openGraphsWrites config mpi_rank_int = [] := by simp [openGraphsWrites, hg]
    rw [happend, hg, hquiet, ite_self]
    split <;> simp
  | true =>
    have hcheck := checkConfig_graph hg
    split
    · rename_i e he
      refine iff_of_true (fun w hw => by cases hw) ?_
      rw [happend, Bool.and_eq_false_iff]
      right
      refine Bool.eq_false_iff.2 (fun hstat => ?_)
      rw [hcheck.2 (Bool.and_eq_true_iff.1 hstat)] at he
      cases he
    · rename_i he
      obtain ⟨hstat, hpath⟩ := hcheck.1 he
      rw [happend, hstat, hpath, Bool.and_self, Bool.and_true, ← openGraphsWrites_fit config mpi_rank_int]
      split
      · rename_i hnone
        simp [openGraphsWrites, hnone.2.1]
      · rfl

/-! ## The whole session -/

/-- **Inputs short enough for the arrays**, over the calls the session gets through. -/
structure SessionFits (inp : SessionInput) (legacy_reads : Bool) (ops : List SessionOp) : Prop where
  data_object    : ∀ obj_name type, .fillDataObject obj_name type ∈ ops → obj_name.length ≤ 511
  /-- Records before the first filling, each of which appends a UUID to an empty name. -/
  unfilled       : ∀ between after, ops = between ++ after → (∀ op ∈ between, op.fillsApi = false) →
    38 * activityCount inp.config between ≤ 511
  /-- A filling and the records up to the next. -/
  io_api         : ∀ before io_api duration between after,
    ops = before ++ .fillIoApi io_api duration :: (between ++ after) → (∀ op ∈ between, op.fillsApi = false) →
    io_api.length + 38 * activityCount inp.config between ≤ 511
  /-- No 986 bytes without a terminator; `fread` ends with a newline that becomes one. -/
  proc_name      : ∀ f, inp.cmdline = some f → f.length ≤ 985 ∨ 0 ∈ f.take 986 ∨ f.length = 986 ∧ f.getLast? = some 10
  legacy_uri_str : ∀ path, inp.config.legacy_graph_path = some path → inp.config.enable_legacy_graph = true →
    legacy_reads = true → path.length ≤ 250
  new_graph_path : appendsRank inp.config = false

theorem provioHelperInit_fields {p q : Process} {inp : SessionInput}
    (hr : provioHelperInit (provioInit p inp) inp = .ok q) :
    (∃ path, q.config = { inp.config with new_graph_path := path }) ∧ q.fields = inp.fields := by
  rcases provioHelperInit_ok hr with hnone | ⟨-, path, rfl⟩
  · unfold provioHelperInit at hr
    obtain ⟨u, -, hr⟩ := bind_eq_ok.1 hr
    simp only at hr
    split at hr
    · cases hr
      exact ⟨⟨inp.config.new_graph_path, rfl⟩, rfl⟩
    · obtain ⟨rdf, -, hr⟩ := bind_eq_ok.1 hr
      cases hr
      cases hnone
  · exact ⟨⟨path, rfl⟩, rfl⟩

theorem fieldsAfter_path (config : ProvConfig) (path : Option CStr) : ∀ (ops : List SessionOp) (fields : ProvFields),
    fieldsAfter { config with new_graph_path := path } fields ops = fieldsAfter config fields ops
  | [], _ => rfl
  | op :: ops, fields => by
    have hfields : op.fields { config with new_graph_path := path } fields = op.fields config fields := by
      cases op <;> rfl
    rw [fieldsAfter, fieldsAfter, hfields, fieldsAfter_path config path ops]

theorem Session.completed_uuids {s : Session} {p : Process}
    (hapi : ∀ uuid ∈ s.ops.filterMap SessionOp.uuid, uuid.length = 36) :
    ∀ uuid ∈ (s.completed p).filterMap SessionOp.uuid, uuid.length = 36 := by
  intro uuid huuid
  unfold Session.completed at huuid
  split at huuid
  · obtain ⟨op, hop, huuid⟩ := List.mem_filterMap.1 huuid
    exact hapi uuid (List.mem_filterMap.2 ⟨op, completed_subset s.ops _ hop, huuid⟩)
  · cases huuid

/-- **The writes of the calls a session makes.** -/
theorem sessionOps_fit (p : Process) (s : Session) (hapi : ∀ uuid ∈ s.ops.filterMap SessionOp.uuid, uuid.length = 36) :
    (∀ w ∈ (match provioHelperInit (provioInit p s.input) s.input with
      | .ok p    => opsWrites p s.ops
      | .error _ => []), w.fits s.input.config) ↔
      (∀ obj_name type, .fillDataObject obj_name type ∈ s.completed p → obj_name.length ≤ 511) ∧
      ∀ done, done <+: s.completed p → (fieldsAfter s.input.config s.input.fields done).io_api.length ≤ 511 := by
  have hempty : s.input.fields.io_api.length ≤ 511 := Nat.zero_le _
  have huuids := Session.completed_uuids (p := p) hapi
  unfold Session.completed at huuids ⊢
  cases hq : provioHelperInit (provioInit p s.input) s.input with
  | error e => simp [fieldsAfter, hempty]
  | ok q =>
    obtain ⟨⟨path, hconfig⟩, hfields⟩ := provioHelperInit_fields hq
    obtain ⟨r, hr⟩ := runSessionOps_completed s.ops q
    simp only [hq] at huuids
    have hfit := opsWrites_fit s.input.config hr huuids (by rw [hfields]; exact hempty)
    simp only [hconfig, hfields, fieldsAfter_path] at hfit
    rw [← opsWrites_completed] at hfit
    exact hfit

/-- **What a session writes stays inside its destinations exactly when its inputs are short enough and no rank is
appended to a graph's path.**  UUIDs have 36 characters. -/
theorem sessionWrites_fit_iff (p : Process) (s : Session) (legacy_reads : Bool) (hpid : s.input.PROC_ID < 2 ^ 31)
    (hproc : s.input.proc_uuid.length = 36) (hapi : ∀ uuid ∈ s.ops.filterMap SessionOp.uuid, uuid.length = 36) :
    (∀ w ∈ sessionWrites p s legacy_reads, w.fits s.input.config) ↔
      SessionFits s.input legacy_reads (s.completed p) := by
  have hshort := @fieldsAfter_short_iff s.input.config (s.completed p) (Session.completed_uuids hapi) s.input.fields rfl 511
  rw [sessionWrites, List.forall_mem_append, List.forall_mem_append, provioInitWrites_fit legacy_reads hpid hproc,
    provioHelperInitWrites_fit, sessionOps_fit p s hapi, hshort]
  constructor
  · rintro ⟨⟨⟨hname, hlegacy⟩, hgraph⟩, hobj, hunfilled, hfilled⟩
    exact ⟨hobj, hunfilled, hfilled, hname, hlegacy, hgraph⟩
  · rintro ⟨hobj, hunfilled, hfilled, hname, hlegacy, hgraph⟩
    exact ⟨⟨⟨hname, hlegacy⟩, hgraph⟩, hobj, hunfilled, hfilled⟩

/-- A session that rewrites a legacy graph. -/
def shortSession : Session :=
  ⟨{ rankZeroInput with config := { fullConfig with enable_legacy_graph := true }, proc_uuid := firstUuid },
    twoCalls (cstr "y")⟩

theorem sessionWrites_fit_short : SessionFits shortSession.input false (shortSession.completed .start) :=
  (sessionWrites_fit_iff .start shortSession false (by decide) (by decide) (by decide)).1 (by decide)

/-- **`NEW_GRAPH_PATH=prov.ttl` takes nine bytes, and rank 0 appends `.RANK-0`.** -/
theorem sessionWrites_overrun : ¬ ∀ w ∈ sessionWrites .start ⟨rankZeroInput, []⟩ false, w.fits rankZeroInput.config := by
  decide

end Provio
