import Provio.Session
import Provio.Tracker
/-!
# Connector — the callbacks of `H5VLprovnc.c`

A callback calls the underlying connector, keeps the tracker up to date and adds a record.  What the underlying
connector answers is an argument.  A wrapper never changes after it is built, so a pointer to one is its value
(`ProvObj`).  `records` lists what each `add_prov_record` was called with.

Callbacks that differ in names only are one definition at each one's own: those that make an object (`makeObject`), read
or write an attribute (`attrAccess`) or a dataset's count (`DsInfo.count`), close an object (`closeObject`) or open a
file (`fileCall`).  Asynchronous requests and MPI communicators are left out.
-/
namespace Provio

/-- The `H5I_type_t` of a wrapper. -/
inductive ObjType where
  | file
  | obj (k : ObjClass)
deriving DecidableEq, Repr

/-- What the underlying connector says of an object it returned: `H5VL_OBJECT_GET_INFO`'s `fileno` and `token`,
`H5VL_FILE_GET_FILENO`'s number, a dataset's shape.  `none` is a failure. -/
structure Under where
  info    : Option (Nat × Token)
  file_no : Option Nat
  shape   : DsShape
deriving DecidableEq

/-- `H5VL_provenance_t`. -/
structure ProvObj where
  under_object      : Option Under
  my_type           : ObjType
  generic_prov_info : Addr
deriving DecidableEq

/-- What an underlying call that makes an object came to, and what wrapping it meets: the token comparisons, and what
`oinfo` and `file_no` hold before they are asked for. -/
structure Made where
  under       : Option Under
  cmp         : TokenCmp
  stack_no    : Nat
  stack_token : Token

/-- What clocks, `uuid_generate` and `malloc` answer one callback. -/
structure Ticks where
  duration      : BitVec 64
  uuid          : CStr
  write_elapsed : BitVec 64
  stat_elapsed  : BitVec 64
  malloced      : Cell
  overhead      : BitVec 64

/-- The fields one `add_prov_record` finds filled. -/
structure Entry where
  data_object : CStr
  type        : CStr
  relation    : CStr
  io_api      : CStr
deriving DecidableEq

/-- The connector's globals; `input` is what `provio_init` and `provio_helper_init` read. -/
structure Conn where
  PROV_HELPER : Option ProvHelper
  process     : Process
  input       : SessionInput
  records     : List Entry

/-- After `H5VL_provenance_init`. -/
def Conn.start (inp : SessionInput) : Conn := ⟨none, provioInit .start inp, inp, []⟩

/-- A step of the helper; every function that takes one asserts it. -/
def Conn.onHelper {α : Type} (s : Conn) (f : ProvHelper → Except Fault (ProvHelper × α)) : Except Fault (Conn × α) :=
  match s.PROV_HELPER with
  | none => .error .assert
  | some h => do
    let (h, a) ← f h
    pure ({ s with PROV_HELPER := some h }, a)

def Conn.updHelper (s : Conn) (f : ProvHelper → Except Fault ProvHelper) : Except Fault Conn := do
  let (s, _) ← s.onHelper fun h => do
    let h ← f h
    pure (h, ())
  pure s

/-- What a callback does to the helper if the underlying call succeeded. -/
def Conn.onSuccess (s : Conn) (ret : Bool) (f : ProvHelper → Except Fault ProvHelper) : Except Fault Conn :=
  if ret then s.updHelper f else .ok s

/-- `prov_verify_open_things`, for which the numbers of open files and datasets are given. -/
def countOpenDatasets (h : ProvHelper) : List Addr → Except Fault Int
  | [] => .ok 0
  | cur :: rest => do
    let fi ← h.file cur
    let total_open_dsets ← countOpenDatasets h rest
    pure (fi.opened_cnt .dataset + total_open_dsets)

def provVerifyOpenThings (s : Conn) (open_files open_dsets : Int) : Except Fault Unit :=
  match s.PROV_HELPER with
  | none => .ok ()
  | some h => do
    cAssert (open_files = h.opened_files_cnt)
    if open_files > 0 then
      let total_open_dsets ← countOpenDatasets h h.opened_files
      cAssert (open_dsets = total_open_dsets)
    else pure ()

/-! ## Wrapping -/

def provenanceNewObj (h : ProvHelper) : ProvHelper := { h with ptr_cnt := h.ptr_cnt + 1 }

def provenanceFreeObj (h : ProvHelper) : ProvHelper := { h with ptr_cnt := h.ptr_cnt - 1 }

def fileInfoOf (h : ProvHelper) (upper_o : ProvObj) : Except Fault Addr :=
  match upper_o.my_type with
  | .file  => .ok upper_o.generic_prov_info
  | .obj _ => do
    let info ← h.obj upper_o.generic_prov_info
    pure info.file_info

def fileDsAccessed (h : ProvHelper) (file_info : Addr) : Except Fault ProvHelper := do
  let fi ← h.file file_info
  pure (h.setFile file_info { fi with ds_accessed := fi.ds_accessed + 1 })

/-- The node of a wrapper, by the type to wrap into. -/
def addTargetNode (h : ProvHelper) (m : Made) (under : Under) (file_info : Addr) (name : Option CStr) :
    ObjType → Except Fault (ProvHelper × Addr)
  | .file => addFileNode h name (under.file_no.getD m.stack_no)
  | .obj k =>
    let oinfo := under.info.getD (m.stack_no, m.stack_token)
    match k with
    | .dataset => do
      let (h, node) ← addDatasetNode h m.cmp oinfo.1 under.shape oinfo.2 file_info name
      let h ← fileDsAccessed h file_info
      pure (h, node)
    | .grp   => addGrpNode h m.cmp file_info name oinfo.2
    | .dtype => addDtypeNode h m.cmp file_info name oinfo.2
    | .attr  => addAttrNode h m.cmp file_info name oinfo.2

def wrapUnder (h : ProvHelper) (m : Made) (under : Under) (upper_o : ProvObj) (target_obj_name : Option CStr)
    (target_obj_type : ObjType) : Except Fault (ProvHelper × ProvObj) := do
  let file_info ← fileInfoOf h upper_o
  let (h, node) ← addTargetNode (provenanceNewObj h) m under file_info target_obj_name target_obj_type
  pure (h, ⟨some under, target_obj_type, node⟩)

/-- `_obj_wrap_under`, which wraps nothing into nothing. -/
def objWrapUnder (s : Conn) (m : Made) (upper_o : ProvObj) (target_obj_name : Option CStr) (target_obj_type : ObjType) :
    Except Fault (Conn × Option ProvObj) :=
  match m.under with
  | none => .ok (s, none)
  | some under => do
    let (s, obj) ← s.onHelper fun h => wrapUnder h m under upper_o target_obj_name target_obj_type
    pure (s, some obj)

def fileOpenCommon (h : ProvHelper) (under : Under) (name : Option CStr) : Except Fault (ProvHelper × ProvObj) := do
  let (h, node) ← addFileNode (provenanceNewObj h) name (under.file_no.getD 0)
  pure (h, ⟨some under, .file, node⟩)

def rmTargetNode (h : ProvHelper) (c : TokenCmp) (o : ProvObj) : Except Fault ProvHelper :=
  match o.my_type with
  | .file  => releaseFile h o.generic_prov_info
  | .obj k => do
    let (h, _) ← rmNode k h c o.generic_prov_info
    pure h

/-! ## The records -/

def Conn.addProvRecord (s : Conn) (t : Ticks) : Except Fault Conn := do
  let process ← Provio.addProvRecord s.process t.uuid t.write_elapsed
  let f := s.process.fields
  pure { s with process := process, records := s.records ++ [⟨f.data_object, f.type, f.relation, f.io_api⟩] }

def addOverhead (p : Process) (elapsed : BitVec 64) : Process :=
  let total := p.prov_stat.TOTAL_PROV_OVERHEAD + elapsed
  { p with prov_stat := { p.prov_stat with TOTAL_PROV_OVERHEAD := total } }

/-- `prov_fill_data_object` and `prov_fill_relation`. -/
def Conn.fill (s : Conn) (name : Option CStr) (type relation : CStr) : Except Fault Conn := do
  let p ← provFillDataObject s.process name type
  pure { s with process := provFillRelation p relation }

/-- `prov_fill_io_api`, `add_prov_record`, `func_stat` and the overhead. -/
def Conn.record (s : Conn) (io_api func : CStr) (t : Ticks) : Except Fault Conn := do
  let s ← { s with process := provFillIoApi s.process io_api t.duration }.addProvRecord t
  let p ← funcStat s.process ⟨func, t.stat_elapsed, t.malloced⟩
  pure { s with process := addOverhead p t.overhead }

/-! ## Callbacks that make an object -/

/-- A callback that makes an object of class `k`: it is wrapped if it was made, and recorded either way. -/
def makeObject (k : ObjClass) (type relation io_api func : CStr) (s : Conn) (o : ProvObj) (name : Option CStr)
    (m : Made) (t : Ticks) : Except Fault (Conn × Option ProvObj) := do
  let (s, obj) ← objWrapUnder s m o name (.obj k)
  let s ← s.fill name type relation
  let s ← s.record io_api func t
  pure (s, obj)

def attrCreate := makeObject .attr (cstr "provio:Attr") (cstr "prov:wasGeneratedBy") (cstr "H5Acreate2")
  (cstr "H5VL_provenance_attr_create")

def datasetCreate := makeObject .dataset (cstr "provio:Dataset") (cstr "prov:wasGeneratedBy") (cstr "H5Dcreate2")
  (cstr "H5VL_provenance_dataset_create")

/-- The name it asks for next to the caller's goes nowhere. -/
def datasetOpen := makeObject .dataset (cstr "provio:Dataset") (cstr "provio:wasOpenedBy") (cstr "H5Dopen2")
  (cstr "H5VL_provenance_dataset_open")

def datatypeCommit := makeObject .dtype (cstr "provio:Datatype") (cstr "prov:wasCommittedBy") (cstr "H5Tcommit2")
  (cstr "H5VL_provenance_datatype_commit")

def datatypeOpen := makeObject .dtype (cstr "provio:Datatype") (cstr "provio:wasOpenedBy") (cstr "H5Topen2")
  (cstr "H5VL_provenance_datatype_open")

def groupCreate := makeObject .grp (cstr "provio:Group") (cstr "prov:wasGeneratedBy") (cstr "H5Gcreate2")
  (cstr "H5VL_provenance_group_create")

def groupOpen := makeObject .grp (cstr "provio:Group") (cstr "provio:wasOpenedBy") (cstr "H5Gopen2")
  (cstr "H5VL_provenance_group_open")

/-- Without a name it asks the attribute for one, wraps with that, frees it, and then records it. -/
def attrOpen (s : Conn) (o : ProvObj) (name queried : Option CStr) (m : Made) (t : Ticks) :
    Except Fault (Conn × Option ProvObj) := do
  let attr_name := if m.under.isSome && name.isNone then queried else none
  let (s, attr) ← objWrapUnder s m o (name.or attr_name) (.obj .attr)
  if attr_name.isSome then .error .freed
  else
    let s ← s.fill name (cstr "provio:Attr") (cstr "provio:wasOpenedBy")
    let s ← s.record (cstr "H5Aopen") (cstr "H5VL_provenance_attr_open") t
    pure (s, attr)

/-! ## Callbacks that read and write -/

/-- A read or a write of an attribute, whose name is asked for; `ret` is the underlying call's success. -/
def attrAccess (relation io_api func : CStr) (s : Conn) (ret : Bool) (name : Option CStr) (t : Ticks) :
    Except Fault (Conn × Bool) := do
  let s ← s.fill name (cstr "provio:Attr") relation
  let s ← s.record io_api func t
  pure (s, ret)

def attrRead := attrAccess (cstr "provio:wasReadBy") (cstr "H5Aread") (cstr "H5VL_provenance_attr_read")

def attrWrite := attrAccess (cstr "provio:wasWrittenBy") (cstr "H5Awrite") (cstr "H5VL_provenance_attr_write")

inductive Xfer where
  | read
  | write
deriving DecidableEq, Repr

/-- A transfer of all elements (`npoints` is `none`) or of a selection. -/
def DsInfo.count (ds : DsInfo) (npoints : Option (BitVec 64)) (elapsed : BitVec 64) : Xfer → DsInfo
  | .read  =>
    let r_size := ds.dset_type_size * npoints.getD ds.dset_space_size
    { ds with
      total_bytes_read := ds.total_bytes_read + r_size
      dataset_read_cnt := ds.dataset_read_cnt + 1
      total_read_time := ds.total_read_time + elapsed }
  | .write =>
    let w_size := ds.dset_type_size * npoints.getD ds.dset_space_size
    { ds with
      total_bytes_written := ds.total_bytes_written + w_size
      dataset_write_cnt := ds.dataset_write_cnt + 1
      total_write_time := ds.total_write_time + elapsed }

def updateDs (h : ProvHelper) (dset_info : Addr) (f : DsInfo → DsInfo) : Except Fault ProvHelper := do
  let info ← h.obj dset_info
  pure (h.setObj dset_info { info with ds := f info.ds })

def Conn.countXfer (s : Conn) (o : ProvObj) (ret : Bool) (npoints : Option (BitVec 64)) (elapsed : BitVec 64)
    (x : Xfer) : Except Fault Conn :=
  s.onSuccess ret fun h => updateDs h o.generic_prov_info (·.count npoints elapsed x)

/-- The 64-byte buffer that the dataset's name is asked into; a failure leaves what it held. -/
def nameBuffer (name : Option CStr) (stack : CStr) : CStr := name.getD stack

/-- The name is asked for before the read. -/
def datasetRead (s : Conn) (o : ProvObj) (name : Option CStr) (stack : CStr) (ret : Bool) (npoints : Option (BitVec 64))
    (elapsed : BitVec 64) (t : Ticks) : Except Fault (Conn × Bool) := do
  let s ← s.fill (some (nameBuffer name stack)) (cstr "provio:Dataset") (cstr "provio:wasReadBy")
  let s ← s.countXfer o ret npoints elapsed .read
  let s ← s.record (cstr "H5Dread") (cstr "H5VL_provenance_dataset_read") t
  pure (s, ret)

def datasetWrite (s : Conn) (o : ProvObj) (name : Option CStr) (stack : CStr) (ret : Bool) (npoints : Option (BitVec 64))
    (elapsed : BitVec 64) (t : Ticks) : Except Fault (Conn × Bool) := do
  let s ← s.countXfer o ret npoints elapsed .write
  let s ← s.fill (some (nameBuffer name stack)) (cstr "provio:Dataset") (cstr "provio:wasWrittenBy")
  let s ← s.record (cstr "H5Dwrite") (cstr "H5VL_provenance_dataset_write") t
  pure (s, ret)

/-! ## Files -/

/-- What the file access property list holds for the connector. -/
structure VolInfo where
  prov_file_path   : Option CStr
  prov_line_format : Option CStr
  prov_level       : Nat
deriving DecidableEq

/-- No helper when a graph is wanted and no path is set. -/
def provHelperInit (p : Process) (inp : SessionInput) (info : VolInfo) : Except Fault (Process × Option ProvHelper) := do
  if info.prov_level ≥ 2 ∧ info.prov_file_path = none then pure (p, none)
  else
    let p ← provioHelperInit p inp
    -- the two `strdup`
    let _ ← strcpy info.prov_file_path
    let _ ← strcpy info.prov_line_format
    pure (p, some .init)

/-- `if(!PROV_HELPER)`. -/
def Conn.ensureHelper (s : Conn) (info : VolInfo) : Except Fault Conn :=
  match s.PROV_HELPER with
  | some _ => .ok s
  | none => do
    let (p, h) ← provHelperInit s.process s.input info
    pure { s with process := p, PROV_HELPER := h }

def wrapFile (s : Conn) (info : VolInfo) (name : Option CStr) (under : Option Under) :
    Except Fault (Conn × Option ProvObj) :=
  match under with
  | none => .ok (s, none)
  | some under => do
    let s ← s.ensureHelper info
    let (s, file) ← s.onHelper fun h => fileOpenCommon h under name
    pure (s, some file)

/-- The objects that rank 0 makes in a file it creates or opens. -/
structure Marking where
  group     : Made
  attr_path : Made
  attr_time : Made

/-- An attribute is made, written and closed underneath; its wrapper stays. -/
def markAttr (s : Conn) (group : ProvObj) (name : Option CStr) (m : Made) : Except Fault Conn := do
  match ← objWrapUnder s m group name (.obj .attr) with
  | (_, none)   => .error .null
  | (s, some _) => pure s

/-- The group `Provenance` with its two attributes; `strlen` reads the path.  The group is closed underneath and its
wrapper freed, without `rm_grp_node`. -/
def markFile (s : Conn) (info : VolInfo) (name : Option CStr) (file : Option ProvObj) (m : Marking) :
    Except Fault Conn := do
  match file with
  | none => .error .null
  | some file =>
    let (s, group) ← objWrapUnder s m.group file name (.obj .grp)
    let _ ← strcpy info.prov_file_path
    match group with
    | none => .error .null
    | some group =>
      let s ← markAttr s group name m.attr_path
      let s ← markAttr s group name m.attr_time
      s.updHelper fun h => pure (provenanceFreeObj h)

/-- A file is created or opened, and recorded as a datatype either way. -/
def fileCall (func : CStr) (s : Conn) (info : VolInfo) (name : Option CStr) (under : Option Under) (m : Marking)
    (t : Ticks) : Except Fault (Conn × Option ProvObj) := do
  let (s, file) ← wrapFile s info name under
  let s ← s.fill name (cstr "provio:Datatype") (cstr "provio:wasOpenedBy")
  let s ← s.record (cstr "H5Topen2") func t
  if s.process.fields.mpi_rank_int = 0 then
    let s ← markFile s info name file m
    pure (s, file)
  else pure (s, file)

def fileCreate := fileCall (cstr "H5VL_provenance_file_create")

def fileOpen := fileCall (cstr "H5VL_provenance_file_open")

/-- `H5VL_FILE_REOPEN` of `H5VL_provenance_file_specific`. -/
def fileReopen (s : Conn) (o : ProvObj) (ret : Bool) (under : Option Under) : Except Fault (Conn × Option ProvObj) :=
  match ret, under with
  | true, some under => do
    let (s, file) ← s.onHelper fun h => do
      let fi ← h.file o.generic_prov_info
      fileOpenCommon h under fi.file_name
    pure (s, some file)
  | _, _ => .ok (s, none)

/-- Both the node and the wrapper are released if the underlying object was closed. -/
def fileClose (s : Conn) (o : ProvObj) (ret : Bool) : Except Fault (Conn × Bool) := do
  let s ← s.onSuccess ret fun h => do
    let h ← releaseFile h o.generic_prov_info
    pure (provenanceFreeObj h)
  pure (s, ret)

/-! ## Closing, generic objects and wrap contexts -/

def closeObject (rm : ProvHelper → TokenCmp → Addr → Except Fault (ProvHelper × Int)) (s : Conn) (c : TokenCmp)
    (o : ProvObj) (ret : Bool) : Except Fault (Conn × Bool) := do
  let s ← s.onSuccess ret fun h => do
    let (h, _) ← rm h c o.generic_prov_info
    pure (provenanceFreeObj h)
  pure (s, ret)

def attrClose := closeObject rmAttrNode
def datasetClose := closeObject rmDatasetNode
def datatypeClose := closeObject rmDtypeNode
def groupClose := closeObject rmGrpNode

/-- Its name is there when it is opened by name. -/
def objectOpen (s : Conn) (o : ProvObj) (obj_name : Option CStr) (obj_to_open_type : ObjType) (m : Made) :
    Except Fault (Conn × Option ProvObj) := objWrapUnder s m o obj_name obj_to_open_type

/-- The context points to the file of its object. -/
def getWrapCtx (s : Conn) (o : ProvObj) : Except Fault (Conn × Addr) :=
  s.onHelper fun h => do
    let file_info ← fileInfoOf h o
    let h ← takeWrapCtx h file_info
    pure (h, file_info)

/-- Wraps under a made-up object of the context's file, freed again. -/
def wrapObject (s : Conn) (file_info : Addr) (obj_type : ObjType) (m : Made) : Except Fault (Conn × Option ProvObj) :=
  match m.under with
  | none => .ok (s, none)
  | some _ => do
    let (s, fake_upper_o) ← s.onHelper fun h => pure (provenanceNewObj h, (⟨none, .file, file_info⟩ : ProvObj))
    let (s, new_obj) ← objWrapUnder s m fake_upper_o none obj_type
    let s ← s.updHelper fun h => pure (provenanceFreeObj h)
    pure (s, new_obj)

/-- `under` says whether the underlying connector unwrapped the object. -/
def unwrapObject (s : Conn) (c : TokenCmp) (o : ProvObj) (under : Bool) : Except Fault (Conn × Bool) := do
  let s ← s.onSuccess under fun h => do
    let h ← rmTargetNode h c o
    pure (provenanceFreeObj h)
  pure (s, under)

def freeWrapCtx (s : Conn) (file_info : Addr) : Except Fault Conn := s.updHelper fun h => releaseFile h file_info

/-! ## `H5VL_provenance_dataset_specific` and its siblings -/

def DsInfo.setExtent (ds : DsInfo) (new_size : List (BitVec 64)) : DsInfo :=
  let dims := new_size.take ds.dimension_cnt
  { ds with dimensions := dims, dset_space_size := dims.foldl (· * ·) 1 }

/-- `H5VL_DATASET_SET_EXTENT`, which reads a size for each dimension. -/
def setExtent (s : Conn) (o : ProvObj) (ret : Bool) (new_size : List (BitVec 64)) : Except Fault Conn :=
  s.onSuccess ret fun h => do
    let ds_info ← h.obj o.generic_prov_info
    if ds_info.ds.ds_class = .simple then
      if new_size.length < ds_info.ds.dimension_cnt then .error .bounds
      else updateDs h o.generic_prov_info (·.setExtent new_size)
    else pure h

/-- The callbacks with a refresh. -/
inductive Specific where
  | dataset
  | group
  | datatype
  | object
deriving DecidableEq, Repr

/-- A refresh under way: the callback and the node it holds, of the class that its object had. -/
structure Hold where
  specific : Specific
  my_type  : ObjClass
  info     : Addr
deriving DecidableEq

/-- A refresh until it calls the underlying connector, which may close and reopen the object through other callbacks.
The node of a file is no `object_prov_info_t`; that refresh ends in an assertion. -/
def refreshBegin (s : Conn) (specific : Specific) (o : ProvObj) : Except Fault (Conn × Hold) :=
  match o.my_type with
  | .file  => .error .assert
  | .obj k => do
    cAssert (specific ≠ .dataset ∨ k = .dataset)
    s.onHelper fun h => do
      let h ← h.refObj o.generic_prov_info
      pure (h, ⟨specific, k, o.generic_prov_info⟩)

/-- The dimensions and the element count after a refresh. -/
structure Extent where
  dimensions : List (BitVec 64)
  npoints    : BitVec 64
deriving DecidableEq

def DsInfo.refresh (ds : DsInfo) (extent : Extent) : DsInfo :=
  { ds with dimensions := extent.dimensions, dset_space_size := extent.npoints }

/-- The class whose `rm_*_node` the callback ends with. -/
def Hold.cls (hold : Hold) : ObjClass :=
  match hold.specific with
  | .dataset  => .dataset
  | .group    => .grp
  | .datatype => .dtype
  | .object   => hold.my_type

/-- After a success: the siblings for groups and datatypes read `o->under_object` through the pointer they have just
set to NULL. -/
def refreshed (h : ProvHelper) (hold : Hold) (extent : Extent) : Except Fault ProvHelper := do
  let my_info ← h.obj hold.info
  cAssert (my_info.ref_cnt > 0)
  if hold.specific = .group ∨ hold.specific = .datatype then .error .null
  else if hold.cls = .dataset then updateDs h hold.info (·.refresh extent)
  else pure h

def refreshEnd (s : Conn) (c : TokenCmp) (hold : Hold) (ret : Bool) (extent : Extent) : Except Fault Conn :=
  s.updHelper fun h => do
    let h ← if ret then refreshed h hold extent else pure h
    let (h, _) ← rmNode hold.cls h c hold.info
    pure h

end Provio
