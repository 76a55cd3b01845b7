import Mathlib.Data.BitVec
import Provio.Session
/-!
# Emitted — what a session writes, as a list

Each emitter appends a part to the model: the agents' parts once a process (`once`), a record's activity and data object
every time.  So the model after a run of user functions is the model before, the agents' parts if the run recorded
anything, and the parts of its records in order (`Ran`, `runSessionOps_ran`).
-/
namespace Provio

/-! ## The parts -/

def userPart (config : ProvConfig) (user_name : CStr) : List Statement :=
  if config.enable_user_prov then
    [⟨user_name, cstr "prov:type", .uri (cstr "prov:Agent")⟩,
     ⟨user_name, cstr "prov:wasMemberOf", .uri (cstr "provio:User")⟩]
  else []

def rankPart (config : ProvConfig) (mpi_rank user_name : CStr) : List Statement :=
  if config.enable_thread_prov then
    [⟨mpi_rank, cstr "prov:type", .uri (cstr "prov:Agent")⟩,
     ⟨mpi_rank, cstr "prov:wasMemberOf", .uri (cstr "provio:Thread")⟩] ++
    (if config.enable_user_prov then [⟨mpi_rank, cstr "prov:actedOnBehalfOf", .uri user_name⟩] else [])
  else []

def programPart (config : ProvConfig) (proc_name mpi_rank proc_start_time : CStr) : List Statement :=
  if config.enable_program_prov then
    [⟨proc_name, cstr "prov:type", .uri (cstr "prov:Agent")⟩,
     ⟨proc_name, cstr "prov:wasMemberOf", .uri (cstr "provio:Program")⟩] ++
    (if config.enable_thread_prov then [⟨proc_name, cstr "prov:actedOnBehalfOf", .uri mpi_rank⟩] else []) ++
    [⟨proc_name, cstr "prov:startedAtTime", .literal proc_start_time⟩]
  else []

def endPart (config : ProvConfig) (proc_name proc_end_time : CStr) : List Statement :=
  if config.enable_program_prov then [⟨proc_name, cstr "prov:endedAtTime", .literal proc_end_time⟩] else []

def apiPart (config : ProvConfig) (io_api proc_name duration_ : CStr) : List Statement :=
  if config.enable_api_prov then
    [⟨io_api, cstr "prov:type", .uri (cstr "prov:Activity")⟩] ++
    (if config.enable_program_prov then [⟨io_api, cstr "prov:wasAssociatedWith", .uri proc_name⟩] else []) ++
    (if config.enable_duration_prov then [⟨io_api, cstr "provio:elapsed", .literal duration_⟩] else [])
  else []

def dataPart (config : ProvConfig) (data_object type relation io_api proc_name : CStr) : List Statement :=
  if tracksType config type then
    [⟨data_object, cstr "prov:type", .uri (cstr "prov:Entity")⟩,
     ⟨data_object, cstr "prov:wasMemberOf", .uri type⟩] ++
    (if config.enable_api_prov then [⟨data_object, relation, .uri io_api⟩] else []) ++
    (if config.enable_program_prov then [⟨data_object, cstr "prov:wasAttributedTo", .uri proc_name⟩] else [])
  else []

/-- A part that is emitted until its flag is set. -/
def once (tracked : Bool) (part : List Statement) : List Statement := if tracked then [] else part

def activityName (config : ProvConfig) (io_api uuid : CStr) : CStr :=
  if config.enable_api_prov then io_api ++ cstr "--" ++ uuid else io_api

/-- What a record emits besides the agents. -/
def recordPart (config : ProvConfig) (fields : ProvFields) (uuid : CStr) : List Statement :=
  apiPart config (activityName config fields.io_api uuid) fields.proc_name (decimal fields.duration.toNat) ++
    dataPart config fields.data_object fields.type fields.relation (activityName config fields.io_api uuid) fields.proc_name

def recordFields (config : ProvConfig) (fields : ProvFields) (uuid : CStr) : ProvFields :=
  { fields with io_api := activityName config fields.io_api uuid }

/-! ## The emitters append their parts -/

theorem addUserRecordRedland_eq (p : Process) : addUserRecordRedland p =
    { p with model_prov := p.model_prov ++ once p.USER_TRACKED (userPart p.config p.fields.user_name)
             USER_TRACKED := p.USER_TRACKED || p.config.enable_user_prov } := by
  obtain ⟨_, _, tracked, _, _, _, _, config, _, _⟩ := p
  unfold addUserRecordRedland once userPart
  cases hc : config.enable_user_prov <;> cases tracked <;> simp [Process.addStatement]

theorem addMpiRankRecordRedland_eq (p : Process) : addMpiRankRecordRedland p =
    { p with model_prov := p.model_prov ++
               once p.MPI_RANK_TRACKED (rankPart p.config p.fields.mpi_rank p.fields.user_name)
             MPI_RANK_TRACKED := p.MPI_RANK_TRACKED || p.config.enable_thread_prov } := by
  obtain ⟨tracked, _, _, _, _, _, _, config, _, _⟩ := p
  unfold addMpiRankRecordRedland once rankPart
  cases hc : config.enable_thread_prov <;> cases tracked <;> cases hu : config.enable_user_prov <;>
    simp [Process.addStatement, hu]

theorem addProgramRecordRedland_eq (p : Process) : addProgramRecordRedland p =
    { p with model_prov := p.model_prov ++ once p.PROC_NAME_TRACKED
                 (programPart p.config p.fields.proc_name p.fields.mpi_rank p.fields.proc_start_time) ++
               endPart p.config p.fields.proc_name p.fields.proc_end_time
             PROC_NAME_TRACKED := p.PROC_NAME_TRACKED || p.config.enable_program_prov } := by
  obtain ⟨_, tracked, _, _, _, _, _, config, _, _⟩ := p
  unfold addProgramRecordRedland once programPart endPart
  cases hc : config.enable_program_prov <;> cases tracked <;> cases hu : config.enable_thread_prov <;>
    simp [Process.addStatement, hu]

theorem addIoApiRecordRedland_eq (p : Process) (uuid duration_ : CStr) : addIoApiRecordRedland p uuid duration_ =
    { p with model_prov := p.model_prov ++
               apiPart p.config (activityName p.config p.fields.io_api uuid) p.fields.proc_name duration_
             fields := recordFields p.config p.fields uuid } := by
  obtain ⟨_, _, _, _, _, _, _, config, _, _⟩ := p
  unfold addIoApiRecordRedland apiPart recordFields activityName
  cases hc : config.enable_api_prov <;> cases hp : config.enable_program_prov <;>
    cases hd : config.enable_duration_prov <;> simp [Process.addStatement, allocApiUuid, hp, hd]

theorem addDataObjRecordRedland_eq (p : Process) : addDataObjRecordRedland p =
    { p with model_prov := p.model_prov ++ dataPart p.config p.fields.data_object p.fields.type p.fields.relation
               p.fields.io_api p.fields.proc_name } := by
  obtain ⟨_, _, _, _, _, _, _, config, fields, _⟩ := p
  unfold addDataObjRecordRedland dataPart
  cases ht : tracksType config fields.type <;> cases hp : config.enable_program_prov <;>
    cases ha : config.enable_api_prov <;> simp [Process.addStatement, hp, ha]

/-- **A record appends the agents not yet tracked, its activity and its data object.** -/
theorem addProvRecordRedland_eq (p : Process) (uuid : CStr) :
    addProvRecordRedland p uuid (decimal p.fields.duration.toNat) =
    { p with model_prov := p.model_prov ++ (once p.USER_TRACKED (userPart p.config p.fields.user_name) ++
               once p.MPI_RANK_TRACKED (rankPart p.config p.fields.mpi_rank p.fields.user_name)) ++
               recordPart p.config p.fields uuid
             USER_TRACKED := p.USER_TRACKED || p.config.enable_user_prov
             MPI_RANK_TRACKED := p.MPI_RANK_TRACKED || p.config.enable_thread_prov
             fields := recordFields p.config p.fields uuid } := by
  simp only [addProvRecordRedland, addUserRecordRedland_eq, addMpiRankRecordRedland_eq, addIoApiRecordRedland_eq,
    addDataObjRecordRedland_eq, recordPart, recordFields, List.append_assoc]

/-! ## A run of user functions -/

/-- `prov_line_format` is `rdf` or `RDF`. -/
def rdfFormat (config : ProvConfig) : Bool :=
  config.prov_line_format = some (cstr "rdf") || config.prov_line_format = some (cstr "RDF")

def isGraph (config : ProvConfig) : Bool := isFileLevel config && rdfFormat config

theorem isRdf_eq_ok {config : ProvConfig} {b : Bool} :
    isRdf config = .ok b ↔ config.prov_line_format.isSome ∧ b = rdfFormat config := by
  unfold isRdf rdfFormat
  cases config.prov_line_format with
  | none => simp [strcpy]
  | some format => simp [strcpy, pure, Except.pure, eq_comm]; grind

/-- What `provio_helper_init` leaves: a helper, a line format, and no handle for a line that is not RDF. -/
structure Opened (p : Process) (helper : ProvioHelper) : Prop where
  opened : p.helper = some helper
  format : p.config.prov_line_format.isSome
  lines  : rdfFormat p.config = false → helper.new_prov_file_handle = none

def SessionOp.fields (config : ProvConfig) (fields : ProvFields) : SessionOp → ProvFields
  | .fillDataObject obj_name type => { fields with data_object := obj_name, type := type }
  | .fillRelation relation        => { fields with relation := relation }
  | .fillIoApi io_api duration    => { fields with io_api := io_api, duration := duration }
  | .addProvRecord uuid _         => if isGraph config then recordFields config fields uuid else fields
  | .funcStat _                   => fields

def SessionOp.part (config : ProvConfig) (fields : ProvFields) : SessionOp → List Statement
  | .addProvRecord uuid _ => if isGraph config then recordPart config fields uuid else []
  | _                     => []

def SessionOp.isRecord : SessionOp → Bool
  | .addProvRecord _ _ => true
  | _                  => false

def SessionOp.elapsed : SessionOp → BitVec 64
  | .addProvRecord _ elapsed => elapsed
  | _                        => 0

def SessionOp.call : SessionOp → Option Call
  | .funcStat c => some c
  | _           => none

/-- The records' parts, the fields refilled as the run goes. -/
def emitted (config : ProvConfig) : ProvFields → List SessionOp → List Statement
  | _, []             => []
  | fields, op :: ops => op.part config fields ++ emitted config (op.fields config fields) ops

def fieldsAfter (config : ProvConfig) : ProvFields → List SessionOp → ProvFields
  | fields, []        => fields
  | fields, op :: ops => fieldsAfter config (op.fields config fields) ops

/-- A run adds the agents at its first record. -/
def tracksAgents (config : ProvConfig) (ops : List SessionOp) : Bool := isGraph config && ops.any SessionOp.isRecord

def agentsPart (p : Process) (ops : List SessionOp) : List Statement :=
  if tracksAgents p.config ops then
    once p.USER_TRACKED (userPart p.config p.fields.user_name) ++
    once p.MPI_RANK_TRACKED (rankPart p.config p.fields.mpi_rank p.fields.user_name)
  else []

def writeTime (ops : List SessionOp) : BitVec 64 := (ops.map SessionOp.elapsed).sum

/-- The fields that no user function fills. -/
structure SameAgents (f g : ProvFields) : Prop where
  user_name       : f.user_name = g.user_name
  mpi_rank        : f.mpi_rank = g.mpi_rank
  mpi_rank_int    : f.mpi_rank_int = g.mpi_rank_int
  proc_name       : f.proc_name = g.proc_name
  proc_start_time : f.proc_start_time = g.proc_start_time

/-- **What a run of user functions does.** -/
structure Ran (p : Process) (ops : List SessionOp) (p' : Process) : Prop where
  config   : p'.config = p.config
  helper   : p'.helper = p.helper
  fields   : p'.fields = fieldsAfter p.config p.fields ops
  user     : p'.USER_TRACKED = (p.USER_TRACKED || (tracksAgents p.config ops && p.config.enable_user_prov))
  mpi_rank : p'.MPI_RANK_TRACKED = (p.MPI_RANK_TRACKED || (tracksAgents p.config ops && p.config.enable_thread_prov))
  program  : p'.PROC_NAME_TRACKED = p.PROC_NAME_TRACKED
  model    : p'.model_prov = p.model_prov ++ agentsPart p ops ++ emitted p.config p.fields ops
  stat     : p'.prov_stat =
    { p.prov_stat with PROV_WRITE_TOTAL_TIME := p.prov_stat.PROV_WRITE_TOTAL_TIME + writeTime ops }

theorem SameAgents.trans {f g k : ProvFields} (h : SameAgents f g) (h' : SameAgents g k) : SameAgents f k :=
  ⟨h.1.trans h'.1, h.2.trans h'.2, h.3.trans h'.3, h.4.trans h'.4, h.5.trans h'.5⟩

theorem SessionOp.fields_agents (config : ProvConfig) (fields : ProvFields) (op : SessionOp) :
    SameAgents (op.fields config fields) fields := by
  cases op with
  | addProvRecord uuid elapsed =>
    simp only [SessionOp.fields, recordFields]
    split <;> exact ⟨rfl, rfl, rfl, rfl, rfl⟩
  | _ => exact ⟨rfl, rfl, rfl, rfl, rfl⟩

theorem fieldsAfter_agents (config : ProvConfig) : ∀ (fields : ProvFields) (ops : List SessionOp),
    SameAgents (fieldsAfter config fields ops) fields
  | _, []             => ⟨rfl, rfl, rfl, rfl, rfl⟩
  | fields, op :: ops => (fieldsAfter_agents config _ ops).trans (op.fields_agents config fields)

theorem putRecordLine_none (p : Process) {helper : ProvioHelper} (pline : CStr) (h : helper.new_prov_file_handle = none) :
    putRecordLine p helper pline = .error .null := by
  unfold putRecordLine
  rw [h]
  cases p.config.enable_legacy_graph <;> cases helper.legacy_prov_file_handle <;> rfl

theorem addProvRecord_eq_ok {p p' : Process} {helper : ProvioHelper} (h : Opened p helper) {uuid : CStr}
    {elapsed : BitVec 64} : addProvRecord p uuid elapsed = .ok p' ↔
      (isFileLevel p.config → rdfFormat p.config) ∧ p' = { (if isGraph p.config then
        addProvRecordRedland p uuid (decimal p.fields.duration.toNat) else p) with
          prov_stat := { p.prov_stat with PROV_WRITE_TOTAL_TIME := p.prov_stat.PROV_WRITE_TOTAL_TIME + elapsed } } := by
  have hrdf : isRdf p.config = .ok (rdfFormat p.config) := isRdf_eq_ok.2 ⟨h.format, rfl⟩
  unfold addProvRecord
  rw [h.opened]
  simp only [hrdf, ok_bind]
  by_cases hl : p.config.prov_level = File_only ∨ p.config.prov_level = File_and_print
  · have hf : isFileLevel p.config = true := by simpa [isFileLevel] using hl
    rw [if_pos hl]
    cases hr : rdfFormat p.config with
    | true =>
      simp only [isGraph, hf, hr, Bool.and_self, if_true, pure, Except.pure, ok_bind, addProvRecordRedland_eq,
        Except.ok.injEq, implies_true, true_and]
      exact eq_comm
    | false =>
      simp only [hf, Bool.false_eq_true, if_false, putRecordLine_none p _ (h.lines hr), error_bind]
      simp
  · have hf : isFileLevel p.config = false := by simpa [isFileLevel] using hl
    rw [if_neg hl]
    simp only [isGraph, hf, Bool.false_and, Bool.false_eq_true, if_false, false_implies, true_and, pure, Except.pure,
      ok_bind, Except.ok.injEq]
    exact eq_comm

theorem Ran.of_quiet {p : Process} {op : SessionOp} (hop : op.isRecord = false) (dic : FuncDic)
    (counts : Option (DurationHt Cell)) :
    Ran p [op] { p with fields := op.fields p.config p.fields, FUNC_DIC := dic, FUNCTION_FREQUENCY := counts } := by
  have htr : tracksAgents p.config [op] = false := by simp [tracksAgents, hop]
  have hpart : op.part p.config p.fields = [] := by cases op <;> first | rfl | cases hop
  have htime : op.elapsed = 0 := by cases op <;> first | rfl | cases hop
  exact ⟨rfl, rfl, rfl, by simp [htr], by simp [htr], rfl, by simp [agentsPart, htr, emitted, hpart],
    by simp [writeTime, htime]⟩

theorem SessionOp.run_ran {p p' : Process} {helper : ProvioHelper} (h : Opened p helper) {op : SessionOp}
    (hr : op.run p = .ok p') : Ran p [op] p' := by
  cases op with
  | fillDataObject obj_name type => cases hr; exact .of_quiet rfl p.FUNC_DIC p.FUNCTION_FREQUENCY
  | fillRelation relation => cases hr; exact .of_quiet rfl p.FUNC_DIC p.FUNCTION_FREQUENCY
  | fillIoApi io_api duration => cases hr; exact .of_quiet rfl p.FUNC_DIC p.FUNCTION_FREQUENCY
  | addProvRecord uuid elapsed =>
    obtain ⟨-, rfl⟩ := (addProvRecord_eq_ok h).1 hr
    cases hg : isGraph p.config with
    | true =>
      rw [if_pos rfl, addProvRecordRedland_eq]
      exact ⟨rfl, rfl, by simp [fieldsAfter, fields, hg], by simp [tracksAgents, isRecord, hg],
        by simp [tracksAgents, isRecord, hg], rfl,
        by simp [agentsPart, tracksAgents, isRecord, hg, emitted, part], by simp [writeTime, SessionOp.elapsed]⟩
    | false =>
      exact ⟨rfl, rfl, by simp [fieldsAfter, fields, hg], by simp [tracksAgents, hg], by simp [tracksAgents, hg], rfl,
        by simp [agentsPart, tracksAgents, hg, emitted, part], by simp [writeTime, SessionOp.elapsed]⟩
  | funcStat c =>
    simp only [SessionOp.run, Provio.funcStat] at hr
    cases hf : p.FUNCTION_FREQUENCY with
    | none => rw [hf] at hr; cases hr
    | some counts =>
      rw [hf] at hr
      obtain ⟨⟨dic, counts⟩, -, hr⟩ := bind_eq_ok.1 hr
      cases hr
      exact .of_quiet rfl dic (some counts)

theorem Ran.opened {p p' : Process} {helper : ProvioHelper} {ops : List SessionOp} (h : Ran p ops p')
    (ho : Opened p helper) : Opened p' helper :=
  ⟨h.helper.trans ho.opened, by rw [h.config]; exact ho.format, by rw [h.config]; exact ho.lines⟩

theorem once_userPart (config : ProvConfig) (user_name : CStr) (tracked : Bool) :
    once (tracked || config.enable_user_prov) (userPart config user_name) = [] := by
  unfold once userPart; cases tracked <;> cases config.enable_user_prov <;> rfl

theorem once_rankPart (config : ProvConfig) (mpi_rank user_name : CStr) (tracked : Bool) :
    once (tracked || config.enable_thread_prov) (rankPart config mpi_rank user_name) = [] := by
  unfold once rankPart; cases tracked <;> cases config.enable_thread_prov <;> simp

theorem tracksAgents_cons (config : ProvConfig) (op : SessionOp) (ops : List SessionOp) :
    tracksAgents config (op :: ops) = (tracksAgents config [op] || tracksAgents config ops) := by
  unfold tracksAgents; cases isGraph config <;> simp

theorem SessionOp.part_eq_nil {config : ProvConfig} {op : SessionOp} (h : tracksAgents config [op] = false)
    (fields : ProvFields) : op.part config fields = [] := by
  cases op with
  | addProvRecord uuid elapsed =>
    have hg : isGraph config = false := by simpa [tracksAgents, isRecord] using h
    simp [part, hg]
  | _ => rfl

/-- **The step that records first adds the agents, and nothing after it does.** -/
theorem Ran.agents_after {p q : Process} {op : SessionOp} (h : Ran p [op] q) (ops : List SessionOp) :
    agentsPart p (op :: ops) = agentsPart p [op] ++ agentsPart q ops ∧
    (op.part p.config p.fields = [] ∨ agentsPart q ops = []) := by
  have hag : SameAgents q.fields p.fields := by rw [h.fields]; exact fieldsAfter_agents _ _ _
  unfold agentsPart
  rw [h.config, hag.user_name, hag.mpi_rank, h.user, h.mpi_rank, tracksAgents_cons p.config op ops]
  cases ht : tracksAgents p.config [op] with
  | true => simp [once_userPart, once_rankPart]
  | false => simp [SessionOp.part_eq_nil ht]

theorem Ran.cons {p q p' : Process} {op : SessionOp} {ops : List SessionOp} (h : Ran p [op] q) (h' : Ran q ops p') :
    Ran p (op :: ops) p' := by
  have hfields : q.fields = op.fields p.config p.fields := h.fields
  refine ⟨h'.config.trans h.config, h'.helper.trans h.helper, ?_, ?_, ?_, h'.program.trans h.program, ?_, ?_⟩
  · rw [h'.fields, h.config, hfields]; rfl
  · rw [h'.user, h.config, h.user, tracksAgents_cons p.config op ops, Bool.and_or_distrib_right, Bool.or_assoc]
  · rw [h'.mpi_rank, h.config, h.mpi_rank, tracksAgents_cons p.config op ops, Bool.and_or_distrib_right, Bool.or_assoc]
  · have hone : emitted p.config p.fields [op] = op.part p.config p.fields := by simp [emitted]
    obtain ⟨hag, hnil⟩ := h.agents_after ops
    rw [h'.model, h.model, hag, h.config, hfields, hone, emitted]
    rcases hnil with hnil | hnil <;> rw [hnil] <;> simp
  · rw [h'.stat, h.stat]
    simp [writeTime, BitVec.add_assoc]

theorem runSessionOps_ran {helper : ProvioHelper} : ∀ (ops : List SessionOp) {p p' : Process}, Opened p helper →
    runSessionOps p ops = .ok p' → Ran p ops p'
  | [], p, p', _, hr => by
    cases hr
    exact ⟨rfl, rfl, rfl, by simp [tracksAgents], by simp [tracksAgents], rfl,
      by simp [agentsPart, tracksAgents, emitted], by simp [writeTime]⟩
  | op :: ops, p, p', h, hr => by
    obtain ⟨q, hq, hr⟩ := bind_eq_ok.1 hr
    have hstep := SessionOp.run_ran h hq
    exact hstep.cons (runSessionOps_ran ops (hstep.opened h) hr)

/-! ## The duration table of a run -/

theorem accumulateDuration_capacity {fuel : Nat} {st st' : FuncDic × DurationHt Cell} {c : Call}
    (h : accumulateDuration fuel st c = .ok st') : st'.2.capacity = st.2.capacity := by
  unfold accumulateDuration accumulate at h
  obtain ⟨⟨dic, found⟩, -, h⟩ := bind_eq_ok.1 h
  cases found with
  | some e => cases h; rfl
  | none =>
    simp only [statSetEntry] at h
    split at h <;> cases h <;> rfl

theorem SessionOp.run_frame {p q : Process} {helper : ProvioHelper} (ho : Opened p helper) {op : SessionOp}
    (hop : op.call = none) (hq : op.run p = .ok q) :
    q.FUNC_DIC = p.FUNC_DIC ∧ q.FUNCTION_FREQUENCY = p.FUNCTION_FREQUENCY := by
  cases op with
  | funcStat c => cases hop
  | addProvRecord uuid elapsed =>
    obtain ⟨-, rfl⟩ := (addProvRecord_eq_ok ho).1 hq
    split
    · rw [addProvRecordRedland_eq]; exact ⟨rfl, rfl⟩
    · exact ⟨rfl, rfl⟩
  | fillDataObject obj_name type => cases hq; exact ⟨rfl, rfl⟩
  | fillRelation relation => cases hq; exact ⟨rfl, rfl⟩
  | fillIoApi io_api duration => cases hq; exact ⟨rfl, rfl⟩

theorem funcStat_ok {p q : Process} {c : Call} {t : DurationHt Cell} (ht : p.FUNCTION_FREQUENCY = some t)
    (hq : funcStat p c = .ok q) : ∃ t', q.FUNCTION_FREQUENCY = some t' ∧ t'.capacity = t.capacity ∧
      accumulateDuration (t.capacity + 1) (p.FUNC_DIC, t) c = .ok (q.FUNC_DIC, t') := by
  simp only [funcStat, ht] at hq
  obtain ⟨⟨dic, t'⟩, hacc, hq⟩ := bind_eq_ok.1 hq
  cases hq
  exact ⟨t', rfl, accumulateDuration_capacity hacc, hacc⟩

/-- **A run's `func_stat` calls fill the table, and nothing else of the run touches it.** -/
theorem runSessionOps_table {helper : ProvioHelper} : ∀ (ops : List SessionOp) {p p' : Process} {t : DurationHt Cell},
    Opened p helper → p.FUNCTION_FREQUENCY = some t → runSessionOps p ops = .ok p' →
    ∃ t', accumulateAll (t.capacity + 1) (p.FUNC_DIC, t) (ops.filterMap SessionOp.call) = .ok (p'.FUNC_DIC, t') ∧
      p'.FUNCTION_FREQUENCY = some t'
  | [], p, p', t, _, ht, hr => by
    cases hr
    exact ⟨t, rfl, ht⟩
  | op :: ops, p, p', t, ho, ht, hr => by
    obtain ⟨q, hq, hrest⟩ := bind_eq_ok.1 hr
    have hoq := (SessionOp.run_ran ho hq).opened ho
    cases hop : op.call with
    | none =>
      obtain ⟨hdic, hfreq⟩ := op.run_frame ho hop hq
      rw [List.filterMap_cons_none hop, ← hdic]
      exact runSessionOps_table ops hoq (hfreq.trans ht) hrest
    | some c =>
      obtain rfl : op = .funcStat c := by cases op <;> simp_all [SessionOp.call]
      obtain ⟨t₁, ht₁, hcap, hacc⟩ := funcStat_ok ht hq
      obtain ⟨t', hall, ht'⟩ := runSessionOps_table ops hoq ht₁ hrest
      rw [hcap] at hall
      refine ⟨t', ?_, ht'⟩
      rw [List.filterMap_cons_some hop, accumulateAll, hacc]
      exact hall

/-! ## A whole session -/

namespace SessionInput

variable (inp : SessionInput)

def legacyOpened : Bool :=
  isGraph inp.config && inp.config.legacy_graph_path.isSome && inp.config.enable_legacy_graph && inp.legacy_opens

def newOpened : Bool :=
  isGraph inp.config && inp.config.new_graph_path.isSome && !inp.config.enable_legacy_graph && inp.new_opens

def statOpened : Bool := inp.MPI_RANK = 0 && inp.config.enable_stat_file && inp.stat_opens

def helper : ProvioHelper :=
  { legacy_prov_file_handle := if inp.legacyOpened then some [] else none
    new_prov_file_handle := if inp.newOpened then some [] else none
    stat_file_handle := inp.statOpened }

/-- At most one graph file is open. -/
theorem newOpened_of_legacy {inp : SessionInput} (h : inp.legacyOpened = true) : inp.newOpened = false := by
  simp only [legacyOpened, Bool.and_eq_true] at h
  simp [newOpened, h]

theorem legacyOpened_of_new {inp : SessionInput} (h : inp.newOpened = true) : inp.legacyOpened = false := by
  simp only [newOpened, Bool.and_eq_true, Bool.not_eq_true'] at h
  simp [legacyOpened, h]

end SessionInput

theorem openGraphs_eq (inp : SessionInput) : ∃ path, openGraphs inp.config inp.MPI_RANK inp (rdfFormat inp.config) =
    ({ inp.config with new_graph_path := path }, inp.helper.legacy_prov_file_handle,
      inp.helper.new_prov_file_handle) := by
  have hdef : (isFileLevel inp.config && rdfFormat inp.config) = isGraph inp.config := rfl
  unfold openGraphs SessionInput.helper SessionInput.legacyOpened SessionInput.newOpened
  rw [hdef]
  cases isGraph inp.config with
  | false => exact ⟨inp.config.new_graph_path, by simp⟩
  | true =>
    cases hn : inp.config.new_graph_path with
    | none => exact ⟨none, by simp [← hn]⟩
    | some path =>
      cases hl : inp.config.enable_legacy_graph with
      | true => exact ⟨some path, by simp [← hn, hl]; rw [← hl]⟩
      | false => exact ⟨some (path ++ cstr ".RANK-" ++ decimalInt inp.MPI_RANK), by simp [hl]⟩

theorem provioHelperInit_ok {p q : Process} {inp : SessionInput} (hr : provioHelperInit (provioInit p inp) inp = .ok q) :
    q.helper = none ∨ Opened q inp.helper ∧ ∃ path, q = { p with
      config := { inp.config with new_graph_path := path }
      fields := { initFields inp with proc_start_time := inp.start_time }
      FUNC_DIC := dicInitInt
      FUNCTION_FREQUENCY := some (statCreate inp.config.num_of_apis).2
      model_prov := loadedGraph inp
      helper := some inp.helper } := by
  unfold provioHelperInit at hr
  obtain ⟨u, hcheck, hr⟩ := bind_eq_ok.1 hr
  have hformat : inp.config.prov_line_format.isSome = true := by
    unfold checkConfig at hcheck
    obtain ⟨-, -, hcheck⟩ := bind_eq_ok.1 hcheck
    obtain ⟨-, -, hcheck⟩ := bind_eq_ok.1 hcheck
    obtain ⟨-, -, hcheck⟩ := bind_eq_ok.1 hcheck
    exact cAssert_eq_ok.1 hcheck
  simp only at hr
  split at hr
  · cases hr
    exact .inl rfl
  · right
    obtain ⟨rdf, hrdf, hr⟩ := bind_eq_ok.1 hr
    obtain ⟨-, rfl⟩ := isRdf_eq_ok.1 hrdf
    obtain ⟨path, hopen⟩ := openGraphs_eq inp
    have hopen' : openGraphs (provioInit p inp).config (provioInit p inp).fields.mpi_rank_int inp
      (rdfFormat (provioInit p inp).config) = _ := hopen
    simp only [hopen'] at hr
    cases hr
    refine ⟨⟨rfl, hformat, ?_⟩, path, rfl⟩
    intro hrdf
    have hrdf' : rdfFormat inp.config = false := hrdf
    simp [SessionInput.helper, SessionInput.newOpened, isGraph, hrdf']

def SessionInput.serialized (inp : SessionInput) (prov_stat : Stat) : Stat :=
  if inp.legacyOpened || inp.newOpened then
    { prov_stat with PROV_SERIALIZE_TIME := prov_stat.PROV_SERIALIZE_TIME + inp.serialize_elapsed }
  else prov_stat

/-- The model a session serialises, from the one its user functions leave. -/
def SessionInput.finalModel (inp : SessionInput) (p : Process) : List Statement :=
  p.model_prov ++ once p.PROC_NAME_TRACKED
    (programPart inp.config p.fields.proc_name p.fields.mpi_rank p.fields.proc_start_time) ++
  endPart inp.config p.fields.proc_name inp.end_time

theorem rdfFormat_isSome {config : ProvConfig} (h : rdfFormat config = true) : config.prov_line_format.isSome := by
  unfold rdfFormat at h
  cases hf : config.prov_line_format with
  | none => simp [hf] at h
  | some format => rfl

theorem serializeGraphs_eq {p : Process} {inp : SessionInput} (path : Option CStr)
    (hconfig : p.config = { inp.config with new_graph_path := path }) :
    serializeGraphs p inp.helper inp = .ok ({ p with prov_stat := inp.serialized p.prov_stat },
      ⟨if inp.legacyOpened then some (librdfKeeps p.model_prov) else none,
        if inp.newOpened then some (librdfKeeps p.model_prov) else none, none⟩) := by
  have hrdf : rdfFormat inp.config = true → isRdf p.config = .ok true := fun h =>
    isRdf_eq_ok.2 ⟨by rw [hconfig]; exact rdfFormat_isSome h, by rw [hconfig]; exact h.symm⟩
  have hflag : p.config.enable_legacy_graph = inp.config.enable_legacy_graph := by rw [hconfig]
  unfold serializeGraphs SessionInput.serialized SessionInput.helper
  cases hl : inp.legacyOpened with
  | true =>
    have hn := SessionInput.newOpened_of_legacy hl
    simp only [SessionInput.legacyOpened, isGraph, Bool.and_eq_true] at hl
    simp [hrdf hl.1.1.1.2, hflag, hl, hn, serializeModel, pure, Except.pure]
  | false =>
    cases hn : inp.newOpened with
    | true =>
      simp only [SessionInput.newOpened, isGraph, Bool.and_eq_true, Bool.not_eq_true'] at hn
      simp [hrdf hn.1.1.1.2, hflag, hn, serializeModel, pure, Except.pure]
    | false => simp [pure, Except.pure]

theorem provioHelperTeardown_eq {p : Process} {inp : SessionInput} {path : Option CStr} {t : DurationHt Cell}
    (hconfig : p.config = { inp.config with new_graph_path := path }) (hhelper : p.helper = some inp.helper)
    (hrank : p.fields.mpi_rank_int = inp.MPI_RANK) (ht : p.FUNCTION_FREQUENCY = some t) :
    ∃ counts, provioHelperTeardown p inp = .ok ({ p with
      PROC_NAME_TRACKED := p.PROC_NAME_TRACKED || inp.config.enable_program_prov
      fields := { p.fields with proc_end_time := inp.end_time }
      prov_stat := inp.serialized p.prov_stat, model_prov := inp.finalModel p, helper := none
      FUNCTION_FREQUENCY := counts },
      { legacy_graph := if inp.legacyOpened then some (librdfKeeps (inp.finalModel p)) else none
        new_graph := if inp.newOpened then some (librdfKeeps (inp.finalModel p)) else none
        stat := if inp.statOpened then some (statPrint_ 0 (some (inp.serialized p.prov_stat)) t) else none }) := by
  unfold provioHelperTeardown addProgramRecord
  have hparts : once p.PROC_NAME_TRACKED (programPart p.config p.fields.proc_name p.fields.mpi_rank
      p.fields.proc_start_time) = once p.PROC_NAME_TRACKED (programPart inp.config p.fields.proc_name p.fields.mpi_rank
      p.fields.proc_start_time) := by rw [hconfig]; rfl
  have hend : endPart p.config p.fields.proc_name inp.end_time = endPart inp.config p.fields.proc_name inp.end_time := by
    rw [hconfig]; rfl
  have hflag : p.config.enable_program_prov = inp.config.enable_program_prov := by rw [hconfig]
  simp only [addProgramRecordRedland_eq, hhelper, hparts, hend, hflag]
  rw [serializeGraphs_eq path (by exact hconfig)]
  simp only [ok_bind, printStat, ht, hrank]
  by_cases h0 : inp.MPI_RANK = 0
  · refine ⟨none, ?_⟩
    rw [if_pos h0]
    simp only [SessionInput.finalModel, SessionInput.helper, pure, Except.pure, ok_bind]
    rfl
  · refine ⟨some t, ?_⟩
    have hs : inp.statOpened = false := by simp [SessionInput.statOpened, h0]
    rw [if_neg h0]
    simp [SessionInput.finalModel, hs, pure, Except.pure, ← ht]

def SessionInput.fields (inp : SessionInput) : ProvFields := { initFields inp with proc_start_time := inp.start_time }

/-- The model a session serialises, in a process that has the flags of `p`. -/
def Session.graph (s : Session) (p : Process) : List Statement :=
  loadedGraph s.input ++
    (if tracksAgents s.input.config s.ops then
      once p.USER_TRACKED (userPart s.input.config s.input.fields.user_name) ++
      once p.MPI_RANK_TRACKED (rankPart s.input.config s.input.fields.mpi_rank s.input.fields.user_name)
    else []) ++
    emitted s.input.config s.input.fields s.ops ++
    once p.PROC_NAME_TRACKED
      (programPart s.input.config s.input.fields.proc_name s.input.fields.mpi_rank s.input.start_time) ++
    endPart s.input.config s.input.fields.proc_name s.input.end_time

def Session.totals (s : Session) (prov_stat : Stat) : Stat :=
  s.input.serialized
    { prov_stat with PROV_WRITE_TOTAL_TIME := prov_stat.PROV_WRITE_TOTAL_TIME + writeTime s.ops }

theorem emitted_path (config : ProvConfig) (path : Option CStr) : ∀ (ops : List SessionOp) (fields : ProvFields),
    emitted { config with new_graph_path := path } fields ops = emitted config fields ops
  | [], _ => rfl
  | op :: ops, fields => by
    have hpart : op.part { config with new_graph_path := path } fields = op.part config fields := by cases op <;> rfl
    have hfields : op.fields { config with new_graph_path := path } fields = op.fields config fields := by
      cases op <;> rfl
    rw [emitted, emitted, hpart, hfields, emitted_path config path ops]

/-- **What a session does once its helper is there**: its user functions complete or not, and then so does the rest. -/
theorem Session.teardown_eq {s : Session} {p₀ p p' : Process}
    (hinit : provioHelperInit (provioInit p₀ s.input) s.input = .ok p) (hp : p.helper ≠ none)
    (hops : runSessionOps p s.ops = .ok p') : ∃ fields counts t,
      accumulateAll (sizeT s.input.config.num_of_apis + 1) (statCreate s.input.config.num_of_apis)
        (s.ops.filterMap SessionOp.call) = .ok (p'.FUNC_DIC, t) ∧
      provioHelperTeardown p' s.input = .ok ({ p' with
        USER_TRACKED := p₀.USER_TRACKED || (tracksAgents s.input.config s.ops && s.input.config.enable_user_prov)
        MPI_RANK_TRACKED :=
          p₀.MPI_RANK_TRACKED || (tracksAgents s.input.config s.ops && s.input.config.enable_thread_prov)
        PROC_NAME_TRACKED := p₀.PROC_NAME_TRACKED || s.input.config.enable_program_prov
        fields := fields, prov_stat := s.totals p₀.prov_stat, model_prov := s.graph p₀, helper := none
        FUNCTION_FREQUENCY := counts },
        { legacy_graph := if s.input.legacyOpened then some (librdfKeeps (s.graph p₀)) else none
          new_graph := if s.input.newOpened then some (librdfKeeps (s.graph p₀)) else none
          stat := if s.input.statOpened then some (statPrint_ 0 (some (s.totals p₀.prov_stat)) t) else none }) := by
  rcases provioHelperInit_ok hinit with h | ⟨ho, path, hpeq⟩
  · exact absurd h hp
  · have hconfig : p.config = { s.input.config with new_graph_path := path } := by rw [hpeq]
    have hfields : p.fields = s.input.fields := by rw [hpeq]; rfl
    have hran := runSessionOps_ran s.ops ho hops
    have htable : p.FUNCTION_FREQUENCY = some (statCreate s.input.config.num_of_apis).2 := by rw [hpeq]
    obtain ⟨t, hacc, ht⟩ := runSessionOps_table s.ops ho htable hops
    have hdic : p.FUNC_DIC = dicInitInt := by rw [hpeq]
    rw [hdic] at hacc
    have hag : SameAgents p'.fields s.input.fields := by
      rw [hran.fields, hfields]; exact fieldsAfter_agents _ _ _
    obtain ⟨counts, hdown⟩ := provioHelperTeardown_eq (hran.config.trans hconfig) (hran.helper.trans ho.opened)
      hag.mpi_rank_int ht
    have huser : p'.USER_TRACKED =
        (p₀.USER_TRACKED || (tracksAgents s.input.config s.ops && s.input.config.enable_user_prov)) := by
      rw [hran.user, hpeq]; rfl
    have hrank : p'.MPI_RANK_TRACKED =
        (p₀.MPI_RANK_TRACKED || (tracksAgents s.input.config s.ops && s.input.config.enable_thread_prov)) := by
      rw [hran.mpi_rank, hpeq]; rfl
    have hprogram : p'.PROC_NAME_TRACKED = p₀.PROC_NAME_TRACKED := by rw [hran.program, hpeq]
    have htotals : s.input.serialized p'.prov_stat = s.totals p₀.prov_stat := by rw [hran.stat, hpeq]; rfl
    have hmodel : s.input.finalModel p' = s.graph p₀ := by
      have hemit : emitted p.config s.input.fields s.ops = emitted s.input.config s.input.fields s.ops := by
        rw [hconfig]; exact emitted_path _ _ _ _
      have hagents : agentsPart p s.ops = if tracksAgents s.input.config s.ops then
          once p₀.USER_TRACKED (userPart s.input.config s.input.fields.user_name) ++
          once p₀.MPI_RANK_TRACKED (rankPart s.input.config s.input.fields.mpi_rank s.input.fields.user_name)
        else [] := by rw [hpeq]; rfl
      have hload : p.model_prov = loadedGraph s.input := by rw [hpeq]
      rw [SessionInput.finalModel, hran.model, hload, hagents, hfields, hemit, hprogram, hag.proc_name, hag.mpi_rank,
        hag.proc_start_time]
      rfl
    refine ⟨{ p'.fields with proc_end_time := s.input.end_time }, counts, t, hacc, ?_⟩
    rw [hdown, ← huser, ← hrank, hprogram, htotals, hmodel]

end Provio
