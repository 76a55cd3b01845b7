import Provio.Redland
/-!
# Session — from `provio_init` to `provio_term`

A session is `provio_init`, `provio_helper_init`, any calls of the user functions, `provio_helper_teardown` and
`provio_term`.  What it does depends on its input (`SessionInput`: the configuration and what the system answers), on
its calls (`SessionOp`) and on the globals the process has by then.  It hands out the statements serialised to its
handles and the statistics printed (`SessionOutput`).
-/
namespace Provio

structure SessionInput where
  /-- What `load_config` reads. -/
  config            : ProvConfig
  MPI_RANK          : Int
  PROC_ID           : Nat
  THREAD_ID         : Int
  /-- The bytes of `/proc/<pid>/cmdline`, if it opens. -/
  cmdline           : Option (List UInt8)
  proc_uuid         : CStr
  /-- What `getlogin_r` left in its buffer. -/
  user_name         : CStr
  /-- The statements of the store `prov` on disk and of the legacy graph. -/
  bdb_graph         : List Statement
  legacy_graph      : List Statement
  start_time        : CStr
  end_time          : CStr
  /-- Whether each `fopen` succeeds. -/
  stat_opens        : Bool
  legacy_opens      : Bool
  new_opens         : Bool
  serialize_elapsed : BitVec 64

inductive SessionOp where
  | fillDataObject (obj_name type : CStr)
  | fillRelation (relation : CStr)
  | fillIoApi (io_api : CStr) (duration : BitVec 64)
  | addProvRecord (uuid : CStr) (elapsed : BitVec 64)
  | funcStat (c : Call)

structure Session where
  input : SessionInput
  ops   : List SessionOp

structure SessionOutput where
  legacy_graph : Option (List Statement)
  new_graph    : Option (List Statement)
  stat         : Option StatReport

/-! ## `provio_init` -/

/-- The read overwrites the path in the same buffer, a trailing newline becomes the terminator. -/
def getProcessNameByPid (pid : CStr) (cmdline : Option (List UInt8)) : CStr :=
  let name := cstr "/proc/" ++ pid ++ cstr "/cmdline"
  match cmdline with
  | none => name
  | some f =>
    let bytes := f.take 1024
    let bytes := if bytes.getLast? = some 10 then bytes.dropLast ++ [0] else bytes
    (bytes ++ name.drop bytes.length).takeWhile (· ≠ 0)

def initFields (inp : SessionInput) : ProvFields :=
  let fields := { ProvFields.zero with
    mpi_rank_int := inp.MPI_RANK
    mpi_rank := cstr "MPI_rank_" ++ decimalInt inp.MPI_RANK
    pid := decimal inp.PROC_ID
    tid := decimalInt inp.THREAD_ID
    proc_name := getProcessNameByPid (decimal inp.PROC_ID) inp.cmdline }
  { allocProcUuid fields inp.proc_uuid with user_name := inp.user_name }

def loadedGraph (inp : SessionInput) : List Statement :=
  (if inp.config.enable_bdb then inp.bdb_graph else []) ++
    (if inp.config.legacy_graph_path.isSome && inp.config.enable_legacy_graph then inp.legacy_graph else [])

def provioInit (p : Process) (inp : SessionInput) : Process :=
  { p with config := inp.config, fields := initFields inp, model_prov := loadedGraph inp }

/-! ## `provio_helper_init` -/

def isFileLevel (config : ProvConfig) : Bool :=
  config.prov_level = File_only || config.prov_level = File_and_print

/-- The two graph handles, and the path the new one's rank is appended to. -/
def openGraphs (config : ProvConfig) (mpi_rank_int : Int) (inp : SessionInput) (rdf : Bool) :
    ProvConfig × Option (List CStr) × Option (List CStr) :=
  if isFileLevel config && rdf then
    let legacy := if config.legacy_graph_path.isSome && config.enable_legacy_graph && inp.legacy_opens then some []
      else none
    match config.new_graph_path with
    | some path =>
      if config.enable_legacy_graph then (config, legacy, none)
      else ({ config with new_graph_path := some (path ++ cstr ".RANK-" ++ decimalInt mpi_rank_int) }, legacy,
        if inp.new_opens then some [] else none)
    | none => (config, legacy, none)
  else (config, none, none)

def checkConfig (config : ProvConfig) : Except Fault Unit := do
  cAssert (config.prov_level ≠ 0)
  cAssert config.enable_stat_file
  cAssert config.stat_file_path.isSome
  cAssert config.prov_line_format.isSome

/-- Gives up, without a helper, when a graph is wanted and no path is set.  The table is allocated here;
`provHelperInitCalloc` has the call in which it is not. -/
def provioHelperInit (p : Process) (inp : SessionInput) : Except Fault Process := do
  checkConfig p.config
  let fields := { p.fields with proc_start_time := inp.start_time }
  if p.config.prov_level ≥ 2 ∧ p.config.new_graph_path = none ∧ p.config.legacy_graph_path = none then
    pure { p with fields := fields, helper := none }
  else
    let (dic, counts) := statCreate p.config.num_of_apis
    let rdf ← isRdf p.config
    let (config, legacy, new) := openGraphs p.config fields.mpi_rank_int inp rdf
    let stat := fields.mpi_rank_int = 0 && config.enable_stat_file && inp.stat_opens
    let helper := { legacy_prov_file_handle := legacy, new_prov_file_handle := new, stat_file_handle := stat }
    pure { p with
      config := config, fields := fields, FUNC_DIC := dic, FUNCTION_FREQUENCY := some counts, helper := some helper }

/-! ## The user functions -/

def SessionOp.run (p : Process) : SessionOp → Except Fault Process
  | .fillDataObject obj_name type => provFillDataObject p (some obj_name) type
  | .fillRelation relation        => .ok (provFillRelation p relation)
  | .fillIoApi io_api duration    => .ok (provFillIoApi p io_api duration)
  | .addProvRecord uuid elapsed   => Provio.addProvRecord p uuid elapsed
  | .funcStat c                   => Provio.funcStat p c

def runSessionOps : Process → List SessionOp → Except Fault Process
  | p, []        => .ok p
  | p, op :: ops => op.run p >>= fun p => runSessionOps p ops

/-! ## `provio_helper_teardown` and `provio_term` -/

/-- `librdf_serializer_serialize_model_to_file_handle`.  Turtle writes no statement twice, even if the store has it twice. -/
def serializeModel (handle : Option (List CStr)) (model_prov : List Statement) : Option (List Statement) :=
  handle.map (fun _ => librdfKeeps model_prov)

def serializeGraphs (p : Process) (helper : ProvioHelper) (inp : SessionInput) : Except Fault (Process × SessionOutput) :=
  if helper.legacy_prov_file_handle.isSome || helper.new_prov_file_handle.isSome then do
    let rdf ← isRdf p.config
    let legacy := if p.config.enable_legacy_graph && rdf then serializeModel helper.legacy_prov_file_handle p.model_prov
      else none
    let new := if !p.config.enable_legacy_graph && rdf then serializeModel helper.new_prov_file_handle p.model_prov
      else none
    let time := p.prov_stat.PROV_SERIALIZE_TIME + inp.serialize_elapsed
    pure ({ p with prov_stat := { p.prov_stat with PROV_SERIALIZE_TIME := time } }, ⟨legacy, new, none⟩)
  else pure (p, ⟨none, none, none⟩)

/-- Rank 0 prints the statistics, if it has a file for them, and frees the table. -/
def printStat (p : Process) (helper : ProvioHelper) (out : SessionOutput) : Except Fault (Process × SessionOutput) :=
  if p.fields.mpi_rank_int = 0 then
    match p.FUNCTION_FREQUENCY with
    | none => .error .null
    | some counts =>
      let stat := if helper.stat_file_handle then some (statPrint_ 0 (some p.prov_stat) counts) else none
      .ok ({ p with FUNCTION_FREQUENCY := none }, { out with stat := stat })
  else .ok (p, out)

/-- The helper is gone after this.  `provio_helper` keeps pointing to it, so that a record before the next helper is made,
a fault here, passes the assertion there: `addProvRecordFreed`. -/
def provioHelperTeardown (p : Process) (inp : SessionInput) : Except Fault (Process × SessionOutput) := do
  let p := addProgramRecord { p with fields := { p.fields with proc_end_time := inp.end_time } }
  match p.helper with
  | none => .error .null
  | some helper =>
    let (p, out) ← serializeGraphs p helper inp
    let (p, out) ← printStat p helper out
    pure ({ p with helper := none }, out)

/-- Frees the model; the next `provio_init` makes another.  The statement and the strings it frees are in
`Ownership.provioTerm`. -/
def provioTerm (p : Process) : Process := { p with model_prov := [] }

/-! ## Whole sessions -/

def Session.run (p : Process) (s : Session) : Except Fault (Process × SessionOutput) := do
  let p ← provioHelperInit (provioInit p s.input) s.input
  let p ← runSessionOps p s.ops
  let (p, out) ← provioHelperTeardown p s.input
  pure (provioTerm p, out)

def runSessions : Process → List Session → Except Fault Process
  | p, []      => .ok p
  | p, s :: ss => s.run p >>= fun r => runSessions r.1 ss

def ProvConfig.zero : ProvConfig :=
  ⟨none, none, none, none, false, false, false, false, false, false, false, false, false, false, false, false, false, 0, 0⟩

def Process.start : Process :=
  { MPI_RANK_TRACKED := false, PROC_NAME_TRACKED := false, USER_TRACKED := false
    prov_stat := ⟨0, 0, 0, 0, 0, 0, 0, 0, 0⟩, FUNC_DIC := dicInitInt, FUNCTION_FREQUENCY := none
    model_prov := [], config := .zero, fields := .zero, helper := none }

end Provio
