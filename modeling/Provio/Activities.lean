import Provio.InfoStr
import Provio.Graph
/-!
# Activities — the nodes that the calls of a session name after themselves

Each `add_prov_record` appends `--` and a UUID to whatever `io_api` holds and emits the result as an activity.  A UUID
has 36 characters, so the end of a node tells whose it is (`recordCalls_nodup`), and every statement about an activity
is one its own call emitted (`about_activity`).  Data objects are named in the same namespace with no suffix: one that
is named like an activity is typed twice (`activities_object_named_so`).
-/
namespace Provio

/-! ## The calls of a run -/

def SessionOp.uuid : SessionOp → Option CStr
  | .addProvRecord uuid _ => some uuid
  | _                     => none

/-- The fields an `add_prov_record` leaves: its data object, relation and duration, and the activity it named. -/
def SessionOp.recorded (config : ProvConfig) (fields : ProvFields) : SessionOp → List ProvFields
  | .addProvRecord uuid _ => [recordFields config fields uuid]
  | _                     => []

def recordCalls (config : ProvConfig) : ProvFields → List SessionOp → List ProvFields
  | _, []             => []
  | fields, op :: ops => op.recorded config fields ++ recordCalls config (op.fields config fields) ops

def callPart (config : ProvConfig) (call : ProvFields) : List Statement :=
  apiPart config call.io_api call.proc_name (decimal call.duration.toNat) ++
    dataPart config call.data_object call.type call.relation call.io_api call.proc_name

theorem emitted_calls {config : ProvConfig} (hg : isGraph config = true) : ∀ (ops : List SessionOp) (fields : ProvFields),
    emitted config fields ops = (recordCalls config fields ops).flatMap (callPart config)
  | [], _ => rfl
  | op :: ops, fields => by
    have hpart : op.part config fields = (op.recorded config fields).flatMap (callPart config) := by
      cases op with
      | addProvRecord uuid elapsed =>
        simp only [SessionOp.part, SessionOp.recorded, hg, if_true, List.flatMap_cons, List.flatMap_nil, List.append_nil]
        rfl
      | _ => rfl
    rw [emitted, recordCalls, List.flatMap_append, hpart, emitted_calls hg ops]

theorem recordCalls_length (config : ProvConfig) : ∀ (ops : List SessionOp) (fields : ProvFields),
    (recordCalls config fields ops).length = ops.countP SessionOp.isRecord
  | [], _ => rfl
  | op :: ops, fields => by
    rw [recordCalls, List.length_append, recordCalls_length config ops, List.countP_cons]
    cases op <;> simp [SessionOp.recorded, SessionOp.isRecord, Nat.add_comm]

theorem recordCalls_proc_name (config : ProvConfig) : ∀ (ops : List SessionOp) (fields : ProvFields),
    ∀ call ∈ recordCalls config fields ops, call.proc_name = fields.proc_name
  | [], _, _, h => by cases h
  | op :: ops, fields, call, h => by
    rcases List.mem_append.1 h with h | h
    · cases op with
      | addProvRecord uuid elapsed =>
        obtain rfl := List.mem_singleton.1 h
        rfl
      | _ => cases h
    · rw [recordCalls_proc_name config ops _ call h]
      exact (op.fields_agents config fields).proc_name

/-! ## Names and suffixes -/

/-- What `alloc_api_uuid` builds. -/
def IsActivity (x : CStr) : Prop := ∃ io_api uuid : CStr, x = io_api ++ cstr "--" ++ uuid ∧ uuid.length = 36

/-- The last 36 characters. -/
def uuidOf (io_api : CStr) : CStr := io_api.drop (io_api.length - 36)

theorem uuidOf_activity (io_api : CStr) {uuid : CStr} (h : uuid.length = 36) :
    uuidOf (io_api ++ cstr "--" ++ uuid) = uuid := by
  unfold uuidOf
  rw [List.length_append, h, Nat.add_sub_cancel]
  exact List.drop_left

theorem IsActivity.length_le {x : CStr} (h : IsActivity x) : 38 ≤ x.length := by
  obtain ⟨io_api, uuid, rfl, hu⟩ := h
  have hdashes : (cstr "--").length = 2 := rfl
  simp only [List.length_append, hu, hdashes]
  omega

theorem IsActivity.dashes {x : CStr} (h : IsActivity x) : 2 ≤ x.count 45 := by
  obtain ⟨io_api, uuid, rfl, -⟩ := h
  have hdashes : (cstr "--").count 45 = 2 := by decide
  rw [List.count_append, List.count_append, hdashes]
  omega

/-- A rank's name has one dash at most, that of a negative number. -/
theorem mpi_rank_not_activity (i : Int) : ¬ IsActivity (cstr "MPI_rank_" ++ decimalInt i) := by
  intro h
  have hdigits : ∀ n, (decimal n).count 45 = 0 := fun n => List.count_eq_zero.2 (decimal_not_mem (by decide) n)
  have hprefix : (cstr "MPI_rank_").count 45 = 0 := by decide
  have hdash : (cstr "-").count 45 = 1 := by decide
  have htwo := h.dashes
  cases i with
  | ofNat n => simp [decimalInt, hdigits, hprefix] at htwo
  | negSucc n => simp [decimalInt, hdigits, hprefix, hdash] at htwo

theorem uuids_subset (op : SessionOp) (ops : List SessionOp) :
    ops.filterMap SessionOp.uuid ⊆ (op :: ops).filterMap SessionOp.uuid :=
  ((List.sublist_cons_self op ops).filterMap _).subset

section Calls

variable {config : ProvConfig}

theorem recordCalls_activity (hapi : config.enable_api_prov = true) : ∀ (ops : List SessionOp) (fields : ProvFields),
    (∀ uuid ∈ ops.filterMap SessionOp.uuid, uuid.length = 36) →
    ∀ call ∈ recordCalls config fields ops, IsActivity call.io_api
  | [], _, _, _, h => by cases h
  | op :: ops, fields, hlen, call, h => by
    rcases List.mem_append.1 h with h | h
    · cases op with
      | addProvRecord uuid elapsed =>
        obtain rfl := List.mem_singleton.1 h
        exact ⟨fields.io_api, uuid, if_pos hapi, hlen uuid (List.mem_cons_self ..)⟩
      | _ => cases h
    · exact recordCalls_activity hapi ops _ (fun uuid hu => hlen uuid (uuids_subset op ops hu)) call h

/-- **The activities end in the UUIDs of their calls.** -/
theorem recordCalls_uuids (hapi : config.enable_api_prov = true) : ∀ (ops : List SessionOp) (fields : ProvFields),
    (∀ uuid ∈ ops.filterMap SessionOp.uuid, uuid.length = 36) →
    ((recordCalls config fields ops).map ProvFields.io_api).map uuidOf = ops.filterMap SessionOp.uuid
  | [], _, _ => rfl
  | op :: ops, fields, hlen => by
    have hrest := recordCalls_uuids hapi ops (op.fields config fields) (fun uuid hu => hlen uuid (uuids_subset op ops hu))
    rw [recordCalls, List.map_append, List.map_append, hrest]
    cases op with
    | addProvRecord uuid elapsed =>
      have hname : (recordFields config fields uuid).io_api = fields.io_api ++ cstr "--" ++ uuid := if_pos hapi
      simp only [SessionOp.recorded, List.map_cons, List.map_nil, hname,
        uuidOf_activity _ (hlen uuid (List.mem_cons_self ..))]
      rfl
    | _ => rfl

theorem recordCalls_nodup (hapi : config.enable_api_prov = true) {ops : List SessionOp} (fields : ProvFields)
    (hlen : ∀ uuid ∈ ops.filterMap SessionOp.uuid, uuid.length = 36) (hnd : (ops.filterMap SessionOp.uuid).Nodup) :
    ((recordCalls config fields ops).map ProvFields.io_api).Nodup := by
  rw [← recordCalls_uuids hapi ops fields hlen] at hnd
  exact hnd.of_map _

/-! ## What is said about an activity -/

theorem apiPart_filter (io_api proc_name duration_ x : CStr) :
    (apiPart config io_api proc_name duration_).filter (fun t => t.subject = x) =
      if io_api = x then apiPart config io_api proc_name duration_ else [] := by
  split
  · rename_i hx
    exact List.filter_eq_self.2 (fun t ht => by simpa [apiPart_subject t ht] using hx)
  · rename_i hx
    exact List.filter_eq_nil_iff.2 (fun t ht => by simpa [apiPart_subject t ht] using hx)

theorem dataPart_filter {call : ProvFields} {x : CStr} (h : tracksType config call.type = true → call.data_object ≠ x) :
    (dataPart config call.data_object call.type call.relation call.io_api call.proc_name).filter
      (fun t => t.subject = x) = [] :=
  List.filter_eq_nil_iff.2 (fun t ht => by
    obtain ⟨hs, htracks⟩ := dataPart_subject t ht
    simpa [hs] using h htracks)

/-- **Everything said about an activity is what its own call said**, if no data object has its name. -/
theorem about_activity : ∀ {calls : List ProvFields}, (calls.map ProvFields.io_api).Nodup →
    ∀ call ∈ calls, (∀ c ∈ calls, tracksType config c.type = true → c.data_object ≠ call.io_api) →
      (calls.flatMap (callPart config)).filter (fun t => t.subject = call.io_api) =
        apiPart config call.io_api call.proc_name (decimal call.duration.toNat)
  | [], _, _, h, _ => by cases h
  | c :: calls, hnd, call, h, hobj => by
    obtain ⟨hfresh, hnd⟩ := List.nodup_cons.1 hnd
    have hdata := dataPart_filter (hobj c (List.mem_cons_self ..))
    rw [List.flatMap_cons, List.filter_append, callPart, List.filter_append, hdata, apiPart_filter, List.append_nil]
    rcases List.mem_cons.1 h with rfl | h
    · have hrest : (calls.flatMap (callPart config)).filter (fun t => t.subject = call.io_api) = [] := by
        rw [List.filter_flatMap, List.flatMap_eq_nil_iff]
        intro c hc
        have hne : c.io_api ≠ call.io_api := fun he => hfresh (he ▸ List.mem_map_of_mem hc)
        rw [callPart, List.filter_append, dataPart_filter (hobj c (List.mem_cons_of_mem _ hc)), apiPart_filter,
          if_neg hne, List.append_nil]
      rw [if_pos rfl, hrest, List.append_nil]
    · have hne : c.io_api ≠ call.io_api := fun he => hfresh (he ▸ List.mem_map_of_mem h)
      rw [if_neg hne, List.nil_append]
      exact about_activity hnd call h (fun c hc => hobj c (List.mem_cons_of_mem _ hc))

theorem vocabulary_not_activity : ∀ n ∈ vocabulary, ¬ IsActivity n := by
  intro n hn h
  have hshort : ∀ n ∈ vocabulary, n.length < 38 := by decide
  exact Nat.not_le.2 (hshort n hn) h.length_le

theorem tracksType_not_activity {type : CStr} (h : tracksType config type = true) : ¬ IsActivity type := by
  obtain ⟨c, rfl, -⟩ := (tracksType_iff config type).1 h
  exact vocabulary_not_activity _ (type_vocabulary c)

/-- **What points to an activity**: the relation of a call, and the links to the program. -/
theorem callPart_target {call : ProvFields} {x : CStr} (hx : IsActivity x) :
    ∀ t ∈ callPart config call, t.object = .uri x →
      t = ⟨call.data_object, call.relation, .uri call.io_api⟩ ∧ x = call.io_api ∨
      x = call.proc_name ∧ (t.predicate = cstr "prov:wasAssociatedWith" ∨ t.predicate = cstr "prov:wasAttributedTo") := by
  intro t ht hobject
  have hactivity : x ≠ cstr "prov:Activity" := fun he => vocabulary_not_activity _ (by decide) (he ▸ hx)
  have hentity : x ≠ cstr "prov:Entity" := fun he => vocabulary_not_activity _ (by decide) (he ▸ hx)
  rcases List.mem_append.1 ht with ht | ht
  · unfold apiPart at ht
    split at ht
    · simp only [List.cons_append, List.nil_append, List.mem_cons, List.mem_append] at ht
      rcases ht with rfl | ht | ht
      · cases hobject
        exact absurd rfl hactivity
      · split at ht
        · obtain rfl := List.mem_singleton.1 ht
          cases hobject
          exact .inr ⟨rfl, .inl rfl⟩
        · cases ht
      · split at ht
        · obtain rfl := List.mem_singleton.1 ht
          cases hobject
        · cases ht
    · cases ht
  · obtain ⟨-, htracks⟩ := dataPart_subject t ht
    unfold dataPart at ht
    rw [if_pos htracks] at ht
    simp only [List.cons_append, List.nil_append, List.mem_cons, List.mem_append] at ht
    rcases ht with rfl | rfl | ht | ht
    · cases hobject
      exact absurd rfl hentity
    · cases hobject
      exact absurd hx (tracksType_not_activity htracks)
    · split at ht
      · obtain rfl := List.mem_singleton.1 ht
        cases hobject
        exact .inl ⟨rfl, rfl⟩
      · cases ht
    · split at ht
      · obtain rfl := List.mem_singleton.1 ht
        cases hobject
        exact .inr ⟨rfl, .inr rfl⟩
      · cases ht

theorem callPart_activity {call : ProvFields} (hx : IsActivity call.io_api) (hapi : config.enable_api_prov = true) (x : CStr) :
    ⟨x, cstr "prov:type", .uri (cstr "prov:Activity")⟩ ∈ callPart config call ↔ x = call.io_api := by
  have hactivity : call.io_api ≠ cstr "prov:Activity" := fun he => vocabulary_not_activity _ (by decide) (he ▸ hx)
  have hentity : cstr "prov:Activity" ≠ cstr "prov:Entity" := by decide
  have hassociated : cstr "prov:type" ≠ cstr "prov:wasAssociatedWith" := by decide
  have hattributed : cstr "prov:type" ≠ cstr "prov:wasAttributedTo" := by decide
  have hmember : cstr "prov:type" ≠ cstr "prov:wasMemberOf" := by decide
  have helapsed : cstr "prov:type" ≠ cstr "provio:elapsed" := by decide
  unfold callPart apiPart dataPart
  grind

/-! ## The agents -/

theorem agentsPart_cases {p : Process} {ops : List SessionOp} {t : Statement} (h : t ∈ agentsPart p ops) :
    (t.subject = p.fields.user_name ∨ t.subject = p.fields.mpi_rank) ∧
    (t.predicate = cstr "prov:type" → t.object = .uri (cstr "prov:Agent")) ∧
    ∃ x, t.object = .uri x ∧ (x ∈ vocabulary ∨ x = p.fields.user_name) := by
  have hagent : cstr "prov:Agent" ∈ vocabulary := by decide
  have huser : cstr "provio:User" ∈ vocabulary := by decide
  have hthread : cstr "provio:Thread" ∈ vocabulary := by decide
  have hmember : cstr "prov:wasMemberOf" ≠ cstr "prov:type" := by decide
  have hacted : cstr "prov:actedOnBehalfOf" ≠ cstr "prov:type" := by decide
  unfold agentsPart once userPart rankPart at h
  grind

end Calls

/-! ## A session -/

def links (g : List Statement) (x predicate : CStr) : List Statement :=
  g.filter (fun t => t.subject = x && t.predicate = predicate)

/-- What a graph says about the activity of a call. -/
structure Recorded (config : ProvConfig) (g : List Statement) (call : ProvFields) : Prop where
  type    : links g call.io_api (cstr "prov:type") = [⟨call.io_api, cstr "prov:type", .uri (cstr "prov:Activity")⟩]
  elapsed : config.enable_duration_prov = true → links g call.io_api (cstr "provio:elapsed") =
    [⟨call.io_api, cstr "provio:elapsed", .literal (decimal call.duration.toNat)⟩]
  program : config.enable_program_prov = true → links g call.io_api (cstr "prov:wasAssociatedWith") =
    [⟨call.io_api, cstr "prov:wasAssociatedWith", .uri call.proc_name⟩]
  /-- The relation, or a link to a program that has the activity's name. -/
  target  : ∀ t ∈ g, t.object = .uri call.io_api → t = ⟨call.data_object, call.relation, .uri call.io_api⟩ ∨
    call.io_api = call.proc_name ∧
      (t.predicate = cstr "prov:wasAssociatedWith" ∨ t.predicate = cstr "prov:wasAttributedTo")

theorem links_of_about {g : List Statement} {x : CStr} {part : List Statement}
    (h : g.filter (fun t => t.subject = x) = part) (predicate : CStr) :
    links g x predicate = part.filter (fun t => t.predicate = predicate) := by
  rw [← h, List.filter_filter]
  apply List.filter_congr
  intro t _
  rw [Bool.and_comm]

theorem Recorded.of_about {config : ProvConfig} (hapi : config.enable_api_prov = true) {g : List Statement}
    {call : ProvFields} (h : g.filter (fun t => t.subject = call.io_api) =
      apiPart config call.io_api call.proc_name (decimal call.duration.toNat))
    (htarget : ∀ t ∈ g, t.object = .uri call.io_api → t = ⟨call.data_object, call.relation, .uri call.io_api⟩ ∨
      call.io_api = call.proc_name ∧
        (t.predicate = cstr "prov:wasAssociatedWith" ∨ t.predicate = cstr "prov:wasAttributedTo")) :
    Recorded config g call := by
  have hat : cstr "prov:wasAssociatedWith" ≠ cstr "prov:type" := by decide
  have het : cstr "provio:elapsed" ≠ cstr "prov:type" := by decide
  have hae : cstr "prov:wasAssociatedWith" ≠ cstr "provio:elapsed" := by decide
  refine ⟨?_, fun hd => ?_, fun hp => ?_, htarget⟩
  · rw [links_of_about h]
    cases hp : config.enable_program_prov <;> cases hd : config.enable_duration_prov <;>
      simp [apiPart, hapi, hp, hd, hat, het]
  · rw [links_of_about h]
    cases hp : config.enable_program_prov <;> simp [apiPart, hapi, hp, hd, hae, het.symm]
  · rw [links_of_about h]
    cases hd : config.enable_duration_prov <;> simp [apiPart, hapi, hp, hd, hat.symm, hae.symm]

/-- **Every call of a session adds one activity of its own**, which is typed once, carries the call's duration, belongs
to the program and is related to by the call's data object only, as long as no data object is named like an activity of
the session.  `user_name` is an array of 32 bytes. -/
theorem activities {inp : SessionInput} {p₀ p : Process} {ops : List SessionOp}
    (hinit : provioHelperInit (provioInit p₀ inp) inp = .ok p) (hp : p.helper ≠ none) (hg : isGraph inp.config = true)
    (hapi : inp.config.enable_api_prov = true) (hlen : ∀ uuid ∈ ops.filterMap SessionOp.uuid, uuid.length = 36)
    (hnd : (ops.filterMap SessionOp.uuid).Nodup) (huser : inp.user_name.length < 32)
    (hobj : ∀ call ∈ recordCalls inp.config inp.fields ops, ∀ c ∈ recordCalls inp.config inp.fields ops,
      tracksType inp.config c.type = true → c.data_object ≠ call.io_api) :
    ((∀ op ∈ ops, op.call = none) → ∃ p', runSessionOps p ops = .ok p') ∧
    ∀ p', runSessionOps p ops = .ok p' → ∃ g, p'.model_prov = p.model_prov ++ g ∧
      (recordCalls inp.config inp.fields ops).length = ops.countP SessionOp.isRecord ∧
      ((recordCalls inp.config inp.fields ops).map ProvFields.io_api).Nodup ∧
      (∀ x, ⟨x, cstr "prov:type", .uri (cstr "prov:Activity")⟩ ∈ g ↔
        x ∈ (recordCalls inp.config inp.fields ops).map ProvFields.io_api) ∧
      ∀ call ∈ recordCalls inp.config inp.fields ops,
        call.proc_name = inp.fields.proc_name ∧ Recorded inp.config g call := by
  rcases provioHelperInit_ok hinit with h | ⟨ho, path, hpeq⟩
  · exact absurd h hp
  have hconfig : p.config = { inp.config with new_graph_path := path } := by rw [hpeq]
  have hfields : p.fields = inp.fields := by rw [hpeq]; rfl
  refine ⟨fun hquiet => runSessionOps_progress ops ho (by rw [hconfig]; exact hg) hquiet, fun p' hr => ?_⟩
  have hmodel := (runSessionOps_ran ops ho hr).model
  rw [hconfig, hfields, emitted_path, emitted_calls hg, List.append_assoc] at hmodel
  have hactivity := recordCalls_activity hapi ops inp.fields hlen
  have hnodup := recordCalls_nodup hapi inp.fields hlen hnd
  -- an activity is longer than a user's name, and a rank's has no two dashes
  have huser' : ∀ x, IsActivity x → x ≠ p.fields.user_name := by
    rintro x hx rfl
    rw [hfields] at hx
    have hlong : 38 ≤ inp.user_name.length := hx.length_le
    omega
  have hrank : ∀ x, IsActivity x → x ≠ p.fields.mpi_rank := by
    rintro x hx rfl
    rw [hfields] at hx
    exact mpi_rank_not_activity inp.MPI_RANK hx
  refine ⟨_, hmodel, recordCalls_length _ ops _, hnodup, fun x => ?_, fun call hc => ⟨recordCalls_proc_name _ ops _ call hc, ?_⟩⟩
  · have hagents : ⟨x, cstr "prov:type", .uri (cstr "prov:Activity")⟩ ∉ agentsPart p ops := fun h =>
      absurd (Node.uri.inj ((agentsPart_cases h).2.1 rfl)) (by decide)
    rw [List.mem_append, or_iff_right hagents, List.mem_flatMap, List.mem_map]
    constructor
    · rintro ⟨call, hc, h⟩
      exact ⟨call, hc, ((callPart_activity (hactivity call hc) hapi x).1 h).symm⟩
    · rintro ⟨call, hc, rfl⟩
      exact ⟨call, hc, (callPart_activity (hactivity call hc) hapi _).2 rfl⟩
  · apply Recorded.of_about hapi
    · have hagents : (agentsPart p ops).filter (fun t => t.subject = call.io_api) = [] := by
        refine List.filter_eq_nil_iff.2 (fun t ht => ?_)
        rcases (agentsPart_cases ht).1 with hs | hs <;> rw [hs]
        · simpa using (huser' _ (hactivity call hc)).symm
        · simpa using (hrank _ (hactivity call hc)).symm
      rw [List.filter_append, hagents, List.nil_append]
      exact about_activity hnodup call hc (hobj call hc)
    · intro t ht hobject
      rcases List.mem_append.1 ht with ht | ht
      · obtain ⟨-, -, x, hx, hor⟩ := agentsPart_cases ht
        cases hx.symm.trans hobject
        rcases hor with hv | hu
        · exact absurd (hactivity call hc) (vocabulary_not_activity _ hv)
        · exact absurd hu (huser' _ (hactivity call hc))
      · obtain ⟨c, hcs, ht⟩ := List.mem_flatMap.1 ht
        rcases callPart_target (hactivity call hc) t ht hobject with ⟨rfl, hname⟩ | ⟨hname, hpred⟩
        · obtain rfl := List.inj_on_of_nodup_map hnodup hc hcs hname
          exact .inl rfl
        · refine .inr ⟨?_, hpred⟩
          rw [hname, recordCalls_proc_name _ ops _ c hcs, recordCalls_proc_name _ ops _ call hc]

/-! ## Two sessions of two calls -/

def firstUuid : CStr := cstr "6ba7b810-9dad-11d1-80b4-00c04fd430c8"

def secondUuid : CStr := cstr "6ba7b811-9dad-11d1-80b4-00c04fd430c8"

def twoCalls (second_object : CStr) : List SessionOp :=
  Record.ops { createRecord with uuid := firstUuid } ++
    Record.ops { createRecord with uuid := secondUuid, data_object := second_object }

theorem activities_two : ∃ p p' g, runSessionOps p (twoCalls (cstr "y")) = .ok p' ∧ p'.model_prov = p.model_prov ++ g ∧
    ∀ call ∈ recordCalls fullConfig rankZeroInput.fields (twoCalls (cstr "y")), Recorded fullConfig g call := by
  obtain ⟨hdone, hall⟩ := @activities rankZeroInput .start _ (twoCalls (cstr "y"))
    (show provioHelperInit (provioInit .start rankZeroInput) rankZeroInput = .ok _ from rfl)
    (by simp) (by decide) (by decide) (by decide) (by decide) (by decide) (by decide)
  obtain ⟨p', hr⟩ := hdone (by decide)
  obtain ⟨g, hmodel, -, -, -, hcalls⟩ := hall p' hr
  exact ⟨_, p', g, hr, hmodel, fun call hc => (hcalls call hc).2⟩

/-- **A data object that is named like an activity** gives that activity a second type. -/
theorem activities_object_named_so : ∃ p p' g call,
    provioHelperInit (provioInit .start rankZeroInput) rankZeroInput = .ok p ∧ p.helper ≠ none ∧
    isGraph rankZeroInput.config = true ∧ rankZeroInput.config.enable_api_prov = true ∧
    rankZeroInput.user_name.length < 32 ∧
    runSessionOps p (twoCalls (cstr "H5Dcreate2--" ++ firstUuid)) = .ok p' ∧
    (∀ uuid ∈ (twoCalls (cstr "H5Dcreate2--" ++ firstUuid)).filterMap SessionOp.uuid, uuid.length = 36) ∧
    ((twoCalls (cstr "H5Dcreate2--" ++ firstUuid)).filterMap SessionOp.uuid).Nodup ∧
    p'.model_prov = p.model_prov ++ g ∧
    call ∈ recordCalls fullConfig rankZeroInput.fields (twoCalls (cstr "H5Dcreate2--" ++ firstUuid)) ∧
    (links g call.io_api (cstr "prov:type")).length = 2 := by
  refine ⟨_, _, _, recordFields fullConfig { rankZeroInput.fields with
      data_object := cstr "x", type := cstr "provio:Dataset", relation := cstr "prov:wasGeneratedBy"
      io_api := cstr "H5Dcreate2", duration := 12 } firstUuid,
    rfl, by simp, by decide, by decide, by decide, rfl, by decide, by decide, rfl, List.mem_cons_self .., by decide⟩

end Provio
