import Provio.Stat
/-!
# Redland — configuration, fields and the statements of a record

The settings and the fields that `provio.c` reads, the process globals it keeps (`Process`), and the emitters that turn
one record into RDF statements.  A model is the list of the statements handed to `librdf_model_add_statement`; what
librdf holds of them is `librdfKeeps`, and that is what gets serialised.  C's string buffers are taken as long enough,
and what goes to standard output is left out.
-/
namespace Provio

/-- `prov_config`; a `prov_level` is whatever `atoi` read, as the unsigned number an enumeration is. -/
structure ProvConfig where
  stat_file_path       : Option CStr
  new_graph_path       : Option CStr
  legacy_graph_path    : Option CStr
  prov_line_format     : Option CStr
  enable_stat_file     : Bool
  enable_legacy_graph  : Bool
  enable_file_prov     : Bool
  enable_group_prov    : Bool
  enable_dataset_prov  : Bool
  enable_attr_prov     : Bool
  enable_dtype_prov    : Bool
  enable_api_prov      : Bool
  enable_duration_prov : Bool
  enable_program_prov  : Bool
  enable_thread_prov   : Bool
  enable_user_prov     : Bool
  enable_bdb           : Bool
  num_of_apis          : Int
  prov_level           : Nat
deriving DecidableEq

def File_only : Nat := 2

def File_and_print : Nat := 3

/-- `prov_fields`. -/
structure ProvFields where
  data_object     : CStr
  io_api          : CStr
  proc_name       : CStr
  proc_uuid       : CStr
  proc_start_time : CStr
  proc_end_time   : CStr
  pid             : CStr
  tid             : CStr
  mpi_rank_int    : Int
  mpi_rank        : CStr
  user_name       : CStr
  duration        : BitVec 64
  type            : CStr
  relation        : CStr
deriving DecidableEq

def ProvFields.zero : ProvFields := ⟨[], [], [], [], [], [], [], [], 0, [], [], 0, [], []⟩

inductive Node where
  | uri (s : CStr)
  | literal (s : CStr)
deriving DecidableEq

structure Statement where
  subject   : CStr
  predicate : CStr
  object    : Node
deriving DecidableEq

/-! ## What librdf holds -/

/-- There is a node for each part: of an empty string librdf makes no URI node. -/
def Statement.complete (t : Statement) : Bool := t.subject ≠ [] && t.predicate ≠ [] && t.object ≠ .uri []

/-- `librdf_model_add_statement`, on what the model holds: an incomplete statement is refused, one already there is not
added again. -/
def librdfModelAddStatement (held : List Statement) (t : Statement) : List Statement :=
  if t.complete ∧ t ∉ held then held ++ [t] else held

/-- What a model holds of the statements handed to it. -/
def librdfKeeps (added : List Statement) : List Statement := added.foldl librdfModelAddStatement []

theorem mem_foldl_addStatement {t : Statement} : ∀ (added held : List Statement),
    t ∈ added.foldl librdfModelAddStatement held ↔ t ∈ held ∨ t ∈ added ∧ t.complete
  | [], held => by simp
  | u :: added, held => by
    rw [List.foldl_cons, mem_foldl_addStatement added]
    unfold librdfModelAddStatement
    split
    · rename_i hu
      simp only [List.mem_append, List.mem_cons, List.not_mem_nil, or_false]
      constructor
      · rintro ((ht | rfl) | ht)
        · exact .inl ht
        · exact .inr ⟨.inl rfl, hu.1⟩
        · exact .inr ⟨.inr ht.1, ht.2⟩
      · rintro (ht | ⟨rfl | ht, hc⟩)
        · exact .inl (.inl ht)
        · exact .inl (.inr rfl)
        · exact .inr ⟨ht, hc⟩
    · rename_i hu
      simp only [List.mem_cons]
      constructor
      · exact fun ht => ht.imp_right fun ht => ⟨.inr ht.1, ht.2⟩
      · rintro (ht | ⟨rfl | ht, hc⟩)
        · exact .inl ht
        · exact .inl (not_not.1 fun h => hu ⟨hc, h⟩)
        · exact .inr ⟨ht, hc⟩

theorem nodup_foldl_addStatement : ∀ {added held : List Statement}, held.Nodup →
    (added.foldl librdfModelAddStatement held).Nodup
  | [], _, h => h
  | u :: added, held, h => by
    rw [List.foldl_cons]
    apply nodup_foldl_addStatement
    unfold librdfModelAddStatement
    split
    · rename_i hu
      exact List.nodup_append.2 ⟨h, List.nodup_singleton u, fun t ht v hv htv =>
        hu.2 (by rw [← List.mem_singleton.1 hv, ← htv]; exact ht)⟩
    · exact h

/-- **A model holds what was handed to it and is complete** … -/
@[simp]
theorem mem_librdfKeeps {t : Statement} {added : List Statement} :
    t ∈ librdfKeeps added ↔ t ∈ added ∧ t.complete := by
  rw [librdfKeeps, mem_foldl_addStatement]
  simp

/-- … **once.** -/
theorem nodup_librdfKeeps (added : List Statement) : (librdfKeeps added).Nodup := nodup_foldl_addStatement List.nodup_nil

theorem foldl_addStatement_eq : ∀ {added held : List Statement}, (held ++ added).Nodup →
    (∀ t ∈ added, t.complete) → added.foldl librdfModelAddStatement held = held ++ added
  | [], held, _, _ => (List.append_nil held).symm
  | u :: added, held, hnd, hc => by
    have hu : u ∉ held := fun hmem => (List.nodup_append.1 hnd).2.2 u hmem u List.mem_cons_self rfl
    have hadd : librdfModelAddStatement held u = held ++ [u] := if_pos ⟨hc u List.mem_cons_self, hu⟩
    rw [List.foldl_cons, hadd, foldl_addStatement_eq (by rwa [List.append_assoc]) fun t ht =>
      hc t (List.mem_cons_of_mem u ht), List.append_assoc]
    rfl

/-- What a model holds is added whole to an empty one. -/
theorem librdfKeeps_idem (added : List Statement) : librdfKeeps (librdfKeeps added) = librdfKeeps added :=
  foldl_addStatement_eq (nodup_librdfKeeps added) fun _ ht => (mem_librdfKeeps.1 ht).2

theorem librdfKeeps_concat (added : List Statement) (t : Statement) :
    librdfKeeps (added ++ [t]) = librdfModelAddStatement (librdfKeeps added) t :=
  List.foldl_concat ..

/-- What a model refuses is refused after more statements too. -/
theorem librdfKeeps_append_keeps (g added : List Statement) :
    librdfKeeps (g ++ librdfKeeps added) = librdfKeeps (g ++ added) := by
  induction added using List.reverseRecOn with
  | nil => rfl
  | append_singleton added t ih =>
    rw [← List.append_assoc, librdfKeeps_concat (g ++ added), librdfKeeps_concat added, ← ih]
    by_cases h : t.complete ∧ t ∉ librdfKeeps added
    · have hadd : librdfModelAddStatement (librdfKeeps added) t = librdfKeeps added ++ [t] := if_pos h
      rw [hadd, ← List.append_assoc, librdfKeeps_concat]
    · have hadd : librdfModelAddStatement (librdfKeeps added) t = librdfKeeps added := if_neg h
      rw [hadd, librdfModelAddStatement, if_neg]
      rintro ⟨hc, hmem⟩
      refine hmem (mem_librdfKeeps.2 ⟨List.mem_append_right _ ?_, hc⟩)
      exact not_not.1 fun hno => h ⟨hc, hno⟩

theorem librdfKeeps_perm {added added' : List Statement} : (librdfKeeps added).Perm (librdfKeeps added') ↔
    ∀ t : Statement, t.complete → (t ∈ added ↔ t ∈ added') := by
  rw [List.perm_ext_iff_of_nodup (nodup_librdfKeeps _) (nodup_librdfKeeps _)]
  simp only [mem_librdfKeeps, and_congr_left_iff]

/-- What has been written to each open handle. -/
structure ProvioHelper where
  legacy_prov_file_handle : Option (List CStr)
  new_prov_file_handle    : Option (List CStr)
  stat_file_handle        : Bool
deriving DecidableEq

/-- The globals of a process that links `provio.c`, with the config, the fields and the helper its callers pass.
`FUNCTION_FREQUENCY` is `none` while there is no table, and `model_prov` lists what has been handed to the model, which
holds `librdfKeeps model_prov`. -/
structure Process where
  MPI_RANK_TRACKED   : Bool
  PROC_NAME_TRACKED  : Bool
  USER_TRACKED       : Bool
  prov_stat          : Stat
  FUNC_DIC           : FuncDic
  FUNCTION_FREQUENCY : Option (DurationHt Cell)
  model_prov         : List Statement
  config             : ProvConfig
  fields             : ProvFields
  helper             : Option ProvioHelper

/-- `%lu`. -/
def decimal (n : Nat) : CStr := (Nat.toDigits 10 n).map (fun c => UInt8.ofNat c.toNat)

/-- `%d`. -/
def decimalInt : Int → CStr
  | .ofNat n   => decimal n
  | .negSucc n => cstr "-" ++ decimal (n + 1)

/-! ## Filling the fields -/

/-- `strcpy` reads through its source. -/
def strcpy : Option CStr → Except Fault CStr
  | some s => .ok s
  | none   => .error .null

/-- The name as it is; what a long one does to `data_object[512]` is in `Capacities`. -/
def provFillDataObject (p : Process) (obj_name : Option CStr) (type : CStr) : Except Fault Process := do
  let data_object ← strcpy obj_name
  pure { p with fields := { p.fields with data_object := data_object, type := type } }

def provFillRelation (p : Process) (relation : CStr) : Process :=
  { p with fields := { p.fields with relation := relation } }

def provFillIoApi (p : Process) (io_api : CStr) (duration : BitVec 64) : Process :=
  { p with fields := { p.fields with io_api := io_api, duration := duration } }

def allocApiUuid (p : Process) (uuid : CStr) : Process :=
  { p with fields := { p.fields with io_api := p.fields.io_api ++ cstr "--" ++ uuid } }

def allocProcUuid (fields : ProvFields) (uuid : CStr) : ProvFields :=
  { fields with proc_name := fields.proc_name ++ cstr "--" ++ uuid, proc_uuid := uuid }

/-! ## The emitters -/

/-- Hands a statement to the model. -/
def Process.addStatement (p : Process) (subject predicate : CStr) (object : Node) : Process :=
  { p with model_prov := p.model_prov ++ [⟨subject, predicate, object⟩] }

def addUserRecordRedland (p : Process) : Process :=
  if p.config.enable_user_prov then
    if p.USER_TRACKED = false then
      let p := p.addStatement p.fields.user_name (cstr "prov:type") (.uri (cstr "prov:Agent"))
      let p := p.addStatement p.fields.user_name (cstr "prov:wasMemberOf") (.uri (cstr "provio:User"))
      { p with USER_TRACKED := true }
    else p
  else p

/-- `fields->mpi_rank` is an array, so never NULL. -/
def addMpiRankRecordRedland (p : Process) : Process :=
  if p.config.enable_thread_prov then
    if p.MPI_RANK_TRACKED = false then
      let p := p.addStatement p.fields.mpi_rank (cstr "prov:type") (.uri (cstr "prov:Agent"))
      let p := p.addStatement p.fields.mpi_rank (cstr "prov:wasMemberOf") (.uri (cstr "provio:Thread"))
      let p := if p.config.enable_user_prov then
          p.addStatement p.fields.mpi_rank (cstr "prov:actedOnBehalfOf") (.uri p.fields.user_name)
        else p
      { p with MPI_RANK_TRACKED := true }
    else p
  else p

def addProgramRecordRedland (p : Process) : Process :=
  if p.config.enable_program_prov then
    let p := if p.PROC_NAME_TRACKED = false then
        let p := p.addStatement p.fields.proc_name (cstr "prov:type") (.uri (cstr "prov:Agent"))
        let p := p.addStatement p.fields.proc_name (cstr "prov:wasMemberOf") (.uri (cstr "provio:Program"))
        let p := if p.config.enable_thread_prov then
            p.addStatement p.fields.proc_name (cstr "prov:actedOnBehalfOf") (.uri p.fields.mpi_rank)
          else p
        let p := p.addStatement p.fields.proc_name (cstr "prov:startedAtTime") (.literal p.fields.proc_start_time)
        { p with PROC_NAME_TRACKED := true }
      else p
    -- `proc_end_time` is an array, so never NULL
    p.addStatement p.fields.proc_name (cstr "prov:endedAtTime") (.literal p.fields.proc_end_time)
  else p

def addIoApiRecordRedland (p : Process) (uuid duration_ : CStr) : Process :=
  if p.config.enable_api_prov then
    let p := allocApiUuid p uuid
    let p := p.addStatement p.fields.io_api (cstr "prov:type") (.uri (cstr "prov:Activity"))
    let p := if p.config.enable_program_prov then
        p.addStatement p.fields.io_api (cstr "prov:wasAssociatedWith") (.uri p.fields.proc_name)
      else p
    if p.config.enable_duration_prov then
      p.addStatement p.fields.io_api (cstr "provio:elapsed") (.literal duration_)
    else p
  else p

/-- The classes of data objects, by the string in `fields->type`. -/
inductive DataClass where
  | file
  | group
  | dataset
  | attr
  | datatype
deriving DecidableEq, Repr

def DataClass.type : DataClass → CStr
  | .file     => cstr "provio:File"
  | .group    => cstr "provio:Group"
  | .dataset  => cstr "provio:Dataset"
  | .attr     => cstr "provio:Attr"
  | .datatype => cstr "provio:Datatype"

def DataClass.enabled (config : ProvConfig) : DataClass → Bool
  | .file     => config.enable_file_prov
  | .group    => config.enable_group_prov
  | .dataset  => config.enable_dataset_prov
  | .attr     => config.enable_attr_prov
  | .datatype => config.enable_dtype_prov

/-- Whether the type string names an enabled class. -/
def tracksType (config : ProvConfig) (type : CStr) : Bool :=
  (config.enable_file_prov && type == DataClass.file.type) ||
  (config.enable_group_prov && type == DataClass.group.type) ||
  (config.enable_dataset_prov && type == DataClass.dataset.type) ||
  (config.enable_attr_prov && type == DataClass.attr.type) ||
  (config.enable_dtype_prov && type == DataClass.datatype.type)

def addDataObjRecordRedland (p : Process) : Process :=
  if tracksType p.config p.fields.type then
    let p := p.addStatement p.fields.data_object (cstr "prov:type") (.uri (cstr "prov:Entity"))
    let p := p.addStatement p.fields.data_object (cstr "prov:wasMemberOf") (.uri p.fields.type)
    let p := if p.config.enable_api_prov then
        p.addStatement p.fields.data_object p.fields.relation (.uri p.fields.io_api)
      else p
    if p.config.enable_program_prov then
      p.addStatement p.fields.data_object (cstr "prov:wasAttributedTo") (.uri p.fields.proc_name)
    else p
  else p

def addProgramRecord (p : Process) : Process := addProgramRecordRedland p

def addProvRecordRedland (p : Process) (uuid duration_ : CStr) : Process :=
  let p := addUserRecordRedland p
  let p := addMpiRankRecordRedland p
  let p := addIoApiRecordRedland p uuid duration_
  addDataObjRecordRedland p

/-! ## `add_prov_record` -/

/-- `!strcmp(format, "rdf") || !strcmp(format, "RDF")`. -/
def isRdf (config : ProvConfig) : Except Fault Bool := do
  let format ← strcpy config.prov_line_format
  pure (format == cstr "rdf" || format == cstr "RDF")

def fputs (line : CStr) : Option (List CStr) → Except Fault (Option (List CStr))
  | some lines => .ok (some (lines ++ [line]))
  | none       => .error .null

/-- The line of a record in any other format. -/
def putRecordLine (p : Process) (helper_in : ProvioHelper) (pline : CStr) : Except Fault Process := do
  let legacy ← if p.config.enable_legacy_graph then fputs pline helper_in.legacy_prov_file_handle
    else pure helper_in.legacy_prov_file_handle
  let new ← fputs pline helper_in.new_prov_file_handle
  let helper := { helper_in with legacy_prov_file_handle := legacy, new_prov_file_handle := new }
  pure { p with helper := some helper }

/-- `uuid` is the one `alloc_api_uuid` draws, `elapsed` what the clock says the call itself took. -/
def addProvRecord (p : Process) (uuid : CStr) (elapsed : BitVec 64) : Except Fault Process := do
  match p.helper with
  | none => .error .assert
  | some helper_in =>
    let rdf ← isRdf p.config
    let p ← if p.config.prov_level = File_only ∨ p.config.prov_level = File_and_print then
        if rdf then pure (addProvRecordRedland p uuid (decimal p.fields.duration.toNat))
        else putRecordLine p helper_in (p.fields.io_api ++ cstr " " ++ decimal p.fields.duration.toNat ++ cstr "us\n")
      else pure p
    let write := p.prov_stat.PROV_WRITE_TOTAL_TIME + elapsed
    pure { p with prov_stat := { p.prov_stat with PROV_WRITE_TOTAL_TIME := write } }

/-- A probe that has not ended after `capacity` slots never ends. -/
def funcStat (p : Process) (c : Call) : Except Fault Process := do
  match p.FUNCTION_FREQUENCY with
  | none => .error .null
  | some counts =>
    let (dic, counts) ← accumulateDuration (counts.capacity + 1) (p.FUNC_DIC, counts) c
    pure { p with FUNC_DIC := dic, FUNCTION_FREQUENCY := some counts }

end Provio
