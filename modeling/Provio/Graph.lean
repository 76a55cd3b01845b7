import Provio.Emitted
/-!
# Graph — the statements of a process's first session form a closed graph

A `Record` is what the callers of `add_prov_record` do: fill the object, the relation and the API, then add.  The name
spaces of users, ranks, programs, activities, data objects and vocabulary are taken as disjoint: a classification of the
strings (`NodeClass`) that the session's names respect (`Respects`).  Then every node that a statement points to is
typed, each enabled agent is typed once, and no statement touches a disabled class (`firstSession_closed`).
-/
namespace Provio

structure Record where
  data_object : CStr
  type        : CStr
  relation    : CStr
  io_api      : CStr
  duration    : BitVec 64
  uuid        : CStr
  elapsed     : BitVec 64

namespace Record

def ops (r : Record) : List SessionOp :=
  [.fillDataObject r.data_object r.type, .fillRelation r.relation, .fillIoApi r.io_api r.duration,
    .addProvRecord r.uuid r.elapsed]

def statements (config : ProvConfig) (proc_name : CStr) (r : Record) : List Statement :=
  apiPart config (activityName config r.io_api r.uuid) proc_name (decimal r.duration.toNat) ++
    dataPart config r.data_object r.type r.relation (activityName config r.io_api r.uuid) proc_name

end Record

theorem emitted_records {config : ProvConfig} (hg : isGraph config = true) : ∀ (records : List Record) (fields : ProvFields),
    emitted config fields (records.flatMap Record.ops) = records.flatMap (Record.statements config fields.proc_name)
  | [], _ => rfl
  | r :: records, fields => by
    simp only [List.flatMap_cons, Record.ops, List.cons_append, List.nil_append, emitted, SessionOp.part,
      SessionOp.fields, hg, if_true]
    rw [emitted_records hg records]
    rfl

theorem tracksAgents_records {config : ProvConfig} (hg : isGraph config = true) {records : List Record}
    (hne : records ≠ []) : tracksAgents config (records.flatMap Record.ops) = true := by
  obtain ⟨r, records, rfl⟩ := List.exists_cons_of_ne_nil hne
  simp [tracksAgents, hg, Record.ops, SessionOp.isRecord]

/-- **Records always complete**, once the helper is there. -/
theorem runSessionOps_progress {helper : ProvioHelper} : ∀ (ops : List SessionOp) {p : Process}, Opened p helper →
    isGraph p.config = true → (∀ op ∈ ops, op.call = none) → ∃ p', runSessionOps p ops = .ok p'
  | [], p, _, _, _ => ⟨p, rfl⟩
  | op :: ops, p, ho, hg, hops => by
    have hstep : ∃ q, op.run p = .ok q := by
      cases op with
      | addProvRecord uuid elapsed =>
        simp only [isGraph, Bool.and_eq_true] at hg
        exact ⟨_, (addProvRecord_eq_ok ho).2 ⟨fun _ => hg.2, rfl⟩⟩
      | funcStat c => exact absurd (hops _ (List.mem_cons_self ..)) (by simp [SessionOp.call])
      | fillDataObject obj_name type => exact ⟨_, rfl⟩
      | fillRelation relation => exact ⟨_, rfl⟩
      | fillIoApi io_api duration => exact ⟨_, rfl⟩
    obtain ⟨q, hq⟩ := hstep
    have hran := SessionOp.run_ran ho hq
    obtain ⟨p', hp'⟩ := runSessionOps_progress ops (hran.opened ho) (by rw [hran.config]; exact hg)
      (fun op hop => hops op (List.mem_cons_of_mem _ hop))
    exact ⟨p', by rw [runSessionOps, hq]; exact hp'⟩

/-! ## Classes of nodes -/

inductive NodeClass where
  | user
  | rank
  | program
  | activity
  | data (c : DataClass)
  | vocabulary
deriving DecidableEq

def NodeClass.enabled (config : ProvConfig) : NodeClass → Bool
  | .user       => config.enable_user_prov
  | .rank       => config.enable_thread_prov
  | .program    => config.enable_program_prov
  | .activity   => config.enable_api_prov
  | .data c     => c.enabled config
  | .vocabulary => true

/-- The agents and the activities: what statements about them must be typed for. -/
def NodeClass.acts : NodeClass → Bool
  | .user | .rank | .program | .activity => true
  | .data _ | .vocabulary                => false

def vocabulary : List CStr :=
  [cstr "prov:Agent", cstr "provio:User", cstr "provio:Thread", cstr "provio:Program", cstr "prov:Activity",
    cstr "prov:Entity", DataClass.file.type, DataClass.group.type, DataClass.dataset.type, DataClass.attr.type,
    DataClass.datatype.type]

/-- The names of a session lie in the classes they are names of. -/
structure Respects (κ : CStr → NodeClass) (fields : ProvFields) (records : List Record) : Prop where
  user       : κ fields.user_name = .user
  rank       : κ fields.mpi_rank = .rank
  program    : κ fields.proc_name = .program
  activity   : ∀ r ∈ records, κ (r.io_api ++ cstr "--" ++ r.uuid) = .activity
  data       : ∀ r ∈ records, ∀ c : DataClass, r.type = c.type → κ r.data_object = .data c
  vocabulary : ∀ n ∈ vocabulary, κ n = .vocabulary

def Typed (g : List Statement) (x : CStr) : Prop := ∃ t ∈ g, t.subject = x ∧ t.predicate = cstr "prov:type"

def typings (g : List Statement) (x : CStr) : Nat :=
  g.countP (fun t => t.subject = x && t.predicate = cstr "prov:type")

/-- A statement touches enabled classes only, and what it points to is typed if it is an agent or an activity. -/
structure Grounded (κ : CStr → NodeClass) (config : ProvConfig) (typed : CStr → Prop) (t : Statement) : Prop where
  subject : (κ t.subject).enabled config = true
  object  : ∀ x, t.object = .uri x → (κ x).enabled config = true
  typed   : ∀ x, t.object = .uri x → (κ x).acts = true → typed x

theorem tracksType_iff (config : ProvConfig) (type : CStr) :
    tracksType config type = true ↔ ∃ c : DataClass, type = c.type ∧ c.enabled config = true := by
  unfold tracksType
  constructor
  · intro h
    simp only [Bool.or_eq_true, Bool.and_eq_true, beq_iff_eq] at h
    rcases h with (((h | h) | h) | h) | h
    · exact ⟨.file, h.2, h.1⟩
    · exact ⟨.group, h.2, h.1⟩
    · exact ⟨.dataset, h.2, h.1⟩
    · exact ⟨.attr, h.2, h.1⟩
    · exact ⟨.datatype, h.2, h.1⟩
  · rintro ⟨c, rfl, hc⟩
    cases c <;> simp_all [DataClass.enabled]

section Parts

variable {κ : CStr → NodeClass} {config : ProvConfig} {typed : CStr → Prop}

theorem Grounded.toVocabulary {s p n : CStr} (hs : (κ s).enabled config = true) (hn : κ n = .vocabulary) :
    Grounded κ config typed ⟨s, p, .uri n⟩ := by
  refine ⟨hs, ?_, ?_⟩
  · rintro x ⟨⟩; rw [hn]; rfl
  · rintro x ⟨⟩ hacts; rw [hn] at hacts; cases hacts

theorem Grounded.toLiteral {s p l : CStr} (hs : (κ s).enabled config = true) :
    Grounded κ config typed ⟨s, p, .literal l⟩ := by
  refine ⟨hs, ?_, ?_⟩ <;> rintro x ⟨⟩

theorem Grounded.toNode {s p x : CStr} (hs : (κ s).enabled config = true) (hx : (κ x).enabled config = true)
    (ht : typed x) : Grounded κ config typed ⟨s, p, .uri x⟩ := by
  refine ⟨hs, ?_, ?_⟩
  · rintro y ⟨⟩; exact hx
  · rintro y ⟨⟩ _; exact ht

theorem userPart_grounded {user_name : CStr} (hu : κ user_name = .user) (hv : ∀ n ∈ vocabulary, κ n = .vocabulary) :
    ∀ t ∈ userPart config user_name, Grounded κ config typed t := by
  intro t ht
  unfold userPart at ht
  split at ht
  · rename_i hen
    have hs : (κ user_name).enabled config = true := by rw [hu]; exact hen
    simp only [List.mem_cons, List.not_mem_nil, or_false] at ht
    rcases ht with rfl | rfl
    · exact .toVocabulary hs (hv _ (by decide))
    · exact .toVocabulary hs (hv _ (by decide))
  · cases ht

theorem rankPart_grounded {mpi_rank user_name : CStr} (hr : κ mpi_rank = .rank) (hu : κ user_name = .user)
    (hv : ∀ n ∈ vocabulary, κ n = .vocabulary) (htu : config.enable_user_prov = true → typed user_name) :
    ∀ t ∈ rankPart config mpi_rank user_name, Grounded κ config typed t := by
  intro t ht
  unfold rankPart at ht
  split at ht
  · rename_i hen
    have hs : (κ mpi_rank).enabled config = true := by rw [hr]; exact hen
    simp only [List.cons_append, List.nil_append, List.mem_cons] at ht
    rcases ht with rfl | rfl | ht
    · exact .toVocabulary hs (hv _ (by decide))
    · exact .toVocabulary hs (hv _ (by decide))
    · split at ht
      · rename_i hue
        obtain rfl := List.mem_singleton.1 ht
        exact .toNode hs (by rw [hu]; exact hue) (htu hue)
      · cases ht
  · cases ht

theorem programPart_grounded {proc_name mpi_rank start : CStr} (hp : κ proc_name = .program) (hr : κ mpi_rank = .rank)
    (hv : ∀ n ∈ vocabulary, κ n = .vocabulary) (htr : config.enable_thread_prov = true → typed mpi_rank) :
    ∀ t ∈ programPart config proc_name mpi_rank start, Grounded κ config typed t := by
  intro t ht
  unfold programPart at ht
  split at ht
  · rename_i hen
    have hs : (κ proc_name).enabled config = true := by rw [hp]; exact hen
    simp only [List.cons_append, List.nil_append, List.mem_cons, List.mem_append, List.not_mem_nil, or_false] at ht
    rcases ht with rfl | rfl | ht | rfl
    · exact .toVocabulary hs (hv _ (by decide))
    · exact .toVocabulary hs (hv _ (by decide))
    · split at ht
      · rename_i hre
        obtain rfl := List.mem_singleton.1 ht
        exact .toNode hs (by rw [hr]; exact hre) (htr hre)
      · cases ht
    · exact .toLiteral hs
  · cases ht

theorem endPart_grounded {proc_name end_time : CStr} (hp : κ proc_name = .program) :
    ∀ t ∈ endPart config proc_name end_time, Grounded κ config typed t := by
  intro t ht
  unfold endPart at ht
  split at ht
  · rename_i hen
    obtain rfl := List.mem_singleton.1 ht
    exact .toLiteral (by rw [hp]; exact hen)
  · cases ht

theorem apiPart_grounded {io_api proc_name duration_ : CStr} (ha : config.enable_api_prov = true → κ io_api = .activity)
    (hp : κ proc_name = .program) (hv : ∀ n ∈ vocabulary, κ n = .vocabulary)
    (htp : config.enable_program_prov = true → typed proc_name) :
    ∀ t ∈ apiPart config io_api proc_name duration_, Grounded κ config typed t := by
  intro t ht
  unfold apiPart at ht
  split at ht
  · rename_i hen
    have hs : (κ io_api).enabled config = true := by rw [ha hen]; exact hen
    simp only [List.cons_append, List.nil_append, List.mem_cons, List.mem_append] at ht
    rcases ht with rfl | ht | ht
    · exact .toVocabulary hs (hv _ (by decide))
    · split at ht
      · rename_i hpe
        obtain rfl := List.mem_singleton.1 ht
        exact .toNode hs (by rw [hp]; exact hpe) (htp hpe)
      · cases ht
    · split at ht
      · obtain rfl := List.mem_singleton.1 ht
        exact .toLiteral hs
      · cases ht
  · cases ht

theorem type_vocabulary (c : DataClass) : c.type ∈ vocabulary := by cases c <;> decide

theorem dataPart_grounded {data_object type relation io_api proc_name : CStr}
    (hd : ∀ c : DataClass, type = c.type → κ data_object = .data c)
    (ha : config.enable_api_prov = true → κ io_api = .activity) (hp : κ proc_name = .program)
    (hv : ∀ n ∈ vocabulary, κ n = .vocabulary) (hta : config.enable_api_prov = true → typed io_api)
    (htp : config.enable_program_prov = true → typed proc_name) :
    ∀ t ∈ dataPart config data_object type relation io_api proc_name, Grounded κ config typed t := by
  intro t ht
  unfold dataPart at ht
  split at ht
  · rename_i htracks
    obtain ⟨c, rfl, hc⟩ := (tracksType_iff config type).1 htracks
    have hs : (κ data_object).enabled config = true := by rw [hd c rfl]; exact hc
    simp only [List.cons_append, List.nil_append, List.mem_cons, List.mem_append] at ht
    rcases ht with rfl | rfl | ht | ht
    · exact .toVocabulary hs (hv _ (by decide))
    · exact .toVocabulary hs (hv _ (type_vocabulary c))
    · split at ht
      · rename_i hae
        obtain rfl := List.mem_singleton.1 ht
        exact .toNode hs (by rw [ha hae]; exact hae) (hta hae)
      · cases ht
    · split at ht
      · rename_i hpe
        obtain rfl := List.mem_singleton.1 ht
        exact .toNode hs (by rw [hp]; exact hpe) (htp hpe)
      · cases ht
  · cases ht

end Parts

/-! ## Subjects and typings -/

theorem typings_append (g g' : List Statement) (x : CStr) : typings (g ++ g') x = typings g x + typings g' x :=
  List.countP_append ..

theorem typings_eq_zero {g : List Statement} {x : CStr} (h : ∀ t ∈ g, t.subject ≠ x) : typings g x = 0 := by
  unfold typings
  rw [List.countP_eq_zero]
  intro t ht
  simp [h t ht]

theorem typings_of_subject {g : List Statement} {y x : CStr} (h : ∀ t ∈ g, t.subject = y) (hne : y ≠ x) :
    typings g x = 0 :=
  typings_eq_zero (fun t ht => by rw [h t ht]; exact hne)

theorem typed_of_typings {g : List Statement} {x : CStr} (h : typings g x ≠ 0) : Typed g x := by
  unfold typings at h
  rw [Ne, List.countP_eq_zero] at h
  push Not at h
  obtain ⟨t, ht, hx⟩ := h
  exact ⟨t, ht, by simpa using hx⟩

theorem userPart_subject {config : ProvConfig} {user_name : CStr} :
    ∀ t ∈ userPart config user_name, t.subject = user_name := by
  unfold userPart; grind

theorem rankPart_subject {config : ProvConfig} {mpi_rank user_name : CStr} :
    ∀ t ∈ rankPart config mpi_rank user_name, t.subject = mpi_rank := by
  unfold rankPart; grind

theorem programPart_subject {config : ProvConfig} {proc_name mpi_rank start : CStr} :
    ∀ t ∈ programPart config proc_name mpi_rank start, t.subject = proc_name := by
  unfold programPart; grind

theorem apiPart_subject {config : ProvConfig} {io_api proc_name duration_ : CStr} :
    ∀ t ∈ apiPart config io_api proc_name duration_, t.subject = io_api := by
  unfold apiPart; grind

theorem dataPart_subject {config : ProvConfig} {data_object type relation io_api proc_name : CStr} :
    ∀ t ∈ dataPart config data_object type relation io_api proc_name,
      t.subject = data_object ∧ tracksType config type = true := by
  unfold dataPart; grind

theorem userPart_typings {config : ProvConfig} (h : config.enable_user_prov = true) (user_name : CStr) :
    typings (userPart config user_name) user_name = 1 := by
  have hm : cstr "prov:wasMemberOf" ≠ cstr "prov:type" := by decide
  simp [typings, userPart, h, hm]

theorem rankPart_typings {config : ProvConfig} (h : config.enable_thread_prov = true) (mpi_rank user_name : CStr) :
    typings (rankPart config mpi_rank user_name) mpi_rank = 1 := by
  have hm : cstr "prov:wasMemberOf" ≠ cstr "prov:type" := by decide
  have ha : cstr "prov:actedOnBehalfOf" ≠ cstr "prov:type" := by decide
  cases hu : config.enable_user_prov <;> simp [typings, rankPart, h, hu, hm, ha]

theorem programPart_typings {config : ProvConfig} (h : config.enable_program_prov = true)
    (proc_name mpi_rank start : CStr) : typings (programPart config proc_name mpi_rank start) proc_name = 1 := by
  have hm : cstr "prov:wasMemberOf" ≠ cstr "prov:type" := by decide
  have ha : cstr "prov:actedOnBehalfOf" ≠ cstr "prov:type" := by decide
  have hs : cstr "prov:startedAtTime" ≠ cstr "prov:type" := by decide
  cases hu : config.enable_thread_prov <;> simp [typings, programPart, h, hu, hm, ha, hs]

theorem endPart_typings (config : ProvConfig) (proc_name end_time x : CStr) :
    typings (endPart config proc_name end_time) x = 0 := by
  have he : cstr "prov:endedAtTime" ≠ cstr "prov:type" := by decide
  unfold endPart
  split <;> simp [typings, he]

/-! ## The first session -/

def firstGraph (config : ProvConfig) (fields : ProvFields) (end_time : CStr) (records : List Record) : List Statement :=
  userPart config fields.user_name ++ rankPart config fields.mpi_rank fields.user_name ++
    records.flatMap (Record.statements config fields.proc_name) ++
    programPart config fields.proc_name fields.mpi_rank fields.proc_start_time ++
    endPart config fields.proc_name end_time

section FirstGraph

variable {κ : CStr → NodeClass} {config : ProvConfig} {fields : ProvFields} {end_time : CStr} {records : List Record}

theorem Respects.records_subject (hκ : Respects κ fields records) :
    ∀ t ∈ records.flatMap (Record.statements config fields.proc_name),
      κ t.subject = .activity ∨ ∃ c, κ t.subject = .data c := by
  intro t ht
  obtain ⟨r, hr, ht⟩ := List.mem_flatMap.1 ht
  rcases List.mem_append.1 ht with ht | ht
  · left
    have hapi : config.enable_api_prov = true := by
      by_contra h
      simp [apiPart, h] at ht
    have hs := apiPart_subject t ht
    rw [activityName, if_pos hapi] at hs
    rw [hs]
    exact hκ.activity r hr
  · right
    obtain ⟨hs, htracks⟩ := dataPart_subject t ht
    obtain ⟨c, hc, -⟩ := (tracksType_iff config r.type).1 htracks
    exact ⟨c, by rw [hs]; exact hκ.data r hr c hc⟩

theorem Respects.records_typings (hκ : Respects κ fields records) {x : CStr}
    (hx : κ x = .user ∨ κ x = .rank ∨ κ x = .program) :
    typings (records.flatMap (Record.statements config fields.proc_name)) x = 0 := by
  apply typings_eq_zero
  rintro t ht rfl
  rcases hκ.records_subject t ht with h | ⟨c, h⟩ <;> rw [h] at hx <;> simp at hx

theorem Respects.ne_user_rank (hκ : Respects κ fields records) : fields.user_name ≠ fields.mpi_rank := fun he => by
  have := hκ.user; rw [he, hκ.rank] at this; cases this

theorem Respects.ne_user_program (hκ : Respects κ fields records) : fields.user_name ≠ fields.proc_name := fun he => by
  have := hκ.user; rw [he, hκ.program] at this; cases this

theorem Respects.ne_rank_program (hκ : Respects κ fields records) : fields.mpi_rank ≠ fields.proc_name := fun he => by
  have := hκ.rank; rw [he, hκ.program] at this; cases this

theorem Respects.user_typings (hκ : Respects κ fields records) (h : config.enable_user_prov = true) :
    typings (firstGraph config fields end_time records) fields.user_name = 1 := by
  simp only [firstGraph, typings_append, userPart_typings h, endPart_typings, hκ.records_typings (.inl hκ.user),
    typings_of_subject rankPart_subject hκ.ne_user_rank.symm,
    typings_of_subject programPart_subject hκ.ne_user_program.symm]

theorem Respects.rank_typings (hκ : Respects κ fields records) (h : config.enable_thread_prov = true) :
    typings (firstGraph config fields end_time records) fields.mpi_rank = 1 := by
  simp only [firstGraph, typings_append, rankPart_typings h, endPart_typings,
    hκ.records_typings (.inr (.inl hκ.rank)), typings_of_subject userPart_subject hκ.ne_user_rank,
    typings_of_subject programPart_subject hκ.ne_rank_program.symm]

theorem Respects.program_typings (hκ : Respects κ fields records) (h : config.enable_program_prov = true) :
    typings (firstGraph config fields end_time records) fields.proc_name = 1 := by
  simp only [firstGraph, typings_append, programPart_typings h, endPart_typings,
    hκ.records_typings (.inr (.inr hκ.program)), typings_of_subject userPart_subject hκ.ne_user_program,
    typings_of_subject rankPart_subject hκ.ne_rank_program]

theorem activityName_typed {r : Record} (hr : r ∈ records) (h : config.enable_api_prov = true) :
    Typed (firstGraph config fields end_time records) (activityName config r.io_api r.uuid) := by
  refine ⟨⟨activityName config r.io_api r.uuid, cstr "prov:type", .uri (cstr "prov:Activity")⟩, ?_, rfl, rfl⟩
  have hrec : _ ∈ r.statements config fields.proc_name :=
    List.mem_append_left _ (by simp [apiPart, h] : (⟨activityName config r.io_api r.uuid, cstr "prov:type",
      .uri (cstr "prov:Activity")⟩ : Statement) ∈ apiPart config (activityName config r.io_api r.uuid) fields.proc_name
        (decimal r.duration.toNat))
  have hall := List.mem_flatMap.2 ⟨r, hr, hrec⟩
  unfold firstGraph
  exact List.mem_append_left _ (List.mem_append_left _ (List.mem_append_right _ hall))

theorem Respects.firstGraph_grounded (hκ : Respects κ fields records) :
    ∀ t ∈ firstGraph config fields end_time records,
      Grounded κ config (Typed (firstGraph config fields end_time records)) t := by
  have huser : config.enable_user_prov = true → Typed (firstGraph config fields end_time records) fields.user_name :=
    fun h => typed_of_typings (by rw [hκ.user_typings h]; decide)
  have hrank : config.enable_thread_prov = true → Typed (firstGraph config fields end_time records) fields.mpi_rank :=
    fun h => typed_of_typings (by rw [hκ.rank_typings h]; decide)
  have hprogram : config.enable_program_prov = true →
      Typed (firstGraph config fields end_time records) fields.proc_name :=
    fun h => typed_of_typings (by rw [hκ.program_typings h]; decide)
  intro t ht
  have hmem := ht
  unfold firstGraph at hmem
  simp only [List.mem_append] at hmem
  rcases hmem with (((h | h) | h) | h) | h
  · exact userPart_grounded hκ.user hκ.vocabulary t h
  · exact rankPart_grounded hκ.rank hκ.user hκ.vocabulary huser t h
  · obtain ⟨r, hr, h⟩ := List.mem_flatMap.1 h
    have hact : config.enable_api_prov = true → κ (activityName config r.io_api r.uuid) = .activity := fun hen => by
      rw [activityName, if_pos hen]; exact hκ.activity r hr
    rcases List.mem_append.1 h with h | h
    · exact apiPart_grounded hact hκ.program hκ.vocabulary hprogram t h
    · exact dataPart_grounded (hκ.data r hr) hact hκ.program hκ.vocabulary (activityName_typed hr) hprogram t h
  · exact programPart_grounded hκ.program hκ.rank hκ.vocabulary hrank t h
  · exact endPart_grounded hκ.program t h

end FirstGraph

theorem graph_start {inp : SessionInput} (hg : isGraph inp.config = true) {records : List Record} (hne : records ≠ []) :
    Session.graph ⟨inp, records.flatMap Record.ops⟩ .start =
      loadedGraph inp ++ firstGraph inp.config inp.fields inp.end_time records := by
  have hu : Process.start.USER_TRACKED = false := rfl
  have hr : Process.start.MPI_RANK_TRACKED = false := rfl
  have hp : Process.start.PROC_NAME_TRACKED = false := rfl
  have hs : inp.fields.proc_start_time = inp.start_time := rfl
  unfold Session.graph firstGraph
  rw [tracksAgents_records hg hne, emitted_records hg, hu, hr, hp, hs]
  simp [once]

/-- **The first session of a process emits a closed graph**: its statements touch enabled classes only, what they point
to is typed in it, and each enabled agent is typed once. -/
theorem firstSession_closed {inp : SessionInput} {p : Process}
    (hinit : provioHelperInit (provioInit .start inp) inp = .ok p) (hp : p.helper ≠ none)
    (hg : isGraph inp.config = true) {records : List Record} (hne : records ≠ []) {κ : CStr → NodeClass}
    (hκ : Respects κ inp.fields records) :
    ∃ q out g, (runSessionOps p (records.flatMap Record.ops) >>= fun p => provioHelperTeardown p inp) = .ok (q, out) ∧
      q.model_prov = loadedGraph inp ++ g ∧ (∀ t ∈ g, Grounded κ inp.config (Typed g) t) ∧
      (inp.config.enable_user_prov = true → typings g inp.fields.user_name = 1) ∧
      (inp.config.enable_thread_prov = true → typings g inp.fields.mpi_rank = 1) ∧
      (inp.config.enable_program_prov = true → typings g inp.fields.proc_name = 1) := by
  have hquiet : ∀ op ∈ records.flatMap Record.ops, op.call = none := by
    intro op hop
    obtain ⟨r, -, hop⟩ := List.mem_flatMap.1 hop
    simp only [Record.ops, List.mem_cons, List.not_mem_nil, or_false] at hop
    rcases hop with rfl | rfl | rfl | rfl <;> rfl
  have hrun : ∃ p', runSessionOps p (records.flatMap Record.ops) = .ok p' := by
    rcases provioHelperInit_ok hinit with h | ⟨ho, path, hpeq⟩
    · exact absurd h hp
    · exact runSessionOps_progress _ ho (by rw [hpeq]; exact hg) hquiet
  obtain ⟨p', hp'⟩ := hrun
  obtain ⟨fields, counts, t, -, hdown⟩ :=
    Session.teardown_eq (s := ⟨inp, records.flatMap Record.ops⟩) hinit hp hp'
  refine ⟨_, _, firstGraph inp.config inp.fields inp.end_time records, by rw [hp']; exact hdown, graph_start hg hne,
    hκ.firstGraph_grounded, hκ.user_typings, hκ.rank_typings, hκ.program_typings⟩

def fullConfig : ProvConfig :=
  { stat_file_path := some (cstr "stat.txt"), new_graph_path := some (cstr "prov.ttl"), legacy_graph_path := none
    prov_line_format := some (cstr "rdf"), enable_stat_file := true, enable_legacy_graph := false
    enable_file_prov := true, enable_group_prov := true, enable_dataset_prov := true, enable_attr_prov := true
    enable_dtype_prov := true, enable_api_prov := true, enable_duration_prov := true, enable_program_prov := true
    enable_thread_prov := true, enable_user_prov := true, enable_bdb := false, num_of_apis := 62, prov_level := 2 }

def rankZeroInput : SessionInput :=
  { config := fullConfig, MPI_RANK := 0, PROC_ID := 7, THREAD_ID := 7, cmdline := some (cstr "vpicio")
    proc_uuid := cstr "7f", user_name := cstr "alice", bdb_graph := [], legacy_graph := [], start_time := cstr "8:00"
    end_time := cstr "9:00", stat_opens := true, legacy_opens := false, new_opens := true, serialize_elapsed := 5 }

def createRecord : Record :=
  { data_object := cstr "x", type := cstr "provio:Dataset", relation := cstr "prov:wasGeneratedBy"
    io_api := cstr "H5Dcreate2", duration := 12, uuid := cstr "80", elapsed := 3 }

def nameClass (x : CStr) : NodeClass :=
  if x = rankZeroInput.fields.user_name then .user
  else if x = rankZeroInput.fields.mpi_rank then .rank
  else if x = rankZeroInput.fields.proc_name then .program
  else if x = cstr "H5Dcreate2--80" then .activity
  else if x = createRecord.data_object then .data .dataset
  else .vocabulary

theorem firstSession_closed_one : ∃ p q out g,
    provioHelperInit (provioInit .start rankZeroInput) rankZeroInput = .ok p ∧
    (runSessionOps p ([createRecord].flatMap Record.ops) >>= fun p => provioHelperTeardown p rankZeroInput) =
      .ok (q, out) ∧ q.model_prov = g ∧ (∀ t ∈ g, Grounded nameClass fullConfig (Typed g) t) ∧
    typings g (cstr "alice") = 1 := by
  have hκ : Respects nameClass rankZeroInput.fields [createRecord] := by
    refine ⟨by decide, by decide, by decide, by decide, ?_, by decide⟩
    intro r hr c hc
    obtain rfl := List.mem_singleton.1 hr
    cases c with
    | dataset => decide
    | _ => exact absurd hc (by decide)
  obtain ⟨q, out, g, hrun, hmodel, hground, huser, -, -⟩ :=
    firstSession_closed (show provioHelperInit (provioInit .start rankZeroInput) rankZeroInput = .ok _ from rfl)
      (by simp) (by decide) (by simp) hκ
  exact ⟨_, q, out, g, rfl, hrun, hmodel, hground, huser rfl⟩

end Provio
