import Mathlib.Algebra.Group.Basic
import Provio.Basic
/-!
# Tracker — the lists of open objects of `H5VLprovnc.c`

`prov_helper_t`: the open files, and for each file the open datasets, groups, datatypes and attributes, with their
reference counts.  Nodes live in a heap (`files`, `objs`) whose addresses are never handed out twice; reading one that
is not there is the fault `freed`.  A linked list is the list of its nodes' addresses, head first.

The four `add_*_node` and the four `rm_*_node` functions differ in the list they search and the fields a new node gets:
each is `addNode` or `rmNode` at its own class.  `add_dataset_node` alone looks at the object's own file number.
The clock totals (`*_LL_TOTAL_TIME`) are left out, and `int` counters are unbounded.
-/
namespace Provio

abbrev Addr := Nat

/-- `H5O_token_t`: sixteen opaque bytes. -/
abbrev Token := BitVec 128

inductive ObjClass where
  | dataset
  | grp
  | dtype
  | attr
deriving DecidableEq, Repr

inductive SpaceClass where
  | noClass
  | scalar
  | simple
  | null
deriving DecidableEq, Repr

/-- What a dataset node adds to `obj_info`. -/
structure DsInfo where
  ds_class            : SpaceClass
  dimension_cnt       : Nat
  dimensions          : List (BitVec 64)
  dset_type_size      : BitVec 64
  dset_space_size     : BitVec 64
  total_bytes_read    : BitVec 64
  total_bytes_written : BitVec 64
  total_read_time     : BitVec 64
  total_write_time    : BitVec 64
  dataset_read_cnt    : Int
  dataset_write_cnt   : Int
deriving DecidableEq, Repr

def DsInfo.zero : DsInfo := ⟨.noClass, 0, [], 0, 0, 0, 0, 0, 0, 0, 0⟩

structure ObjInfo where
  cls       : ObjClass
  file_info : Addr
  token     : Token
  name      : Option CStr
  ref_cnt   : Int
  ds        : DsInfo
deriving DecidableEq, Repr

structure FileInfo where
  file_name   : Option CStr
  file_no     : Nat
  ref_cnt     : Int
  opened      : ObjClass → List Addr
  opened_cnt  : ObjClass → Int
  ds_accessed : Int

structure ProvHelper where
  ptr_cnt          : Int
  opened_files_cnt : Int
  opened_files     : List Addr
  files            : Addr → Option FileInfo
  objs             : Addr → Option ObjInfo
  next             : Addr

/-- `calloc`'d, with an empty heap. -/
def ProvHelper.init : ProvHelper := ⟨0, 0, [], fun _ => none, fun _ => none, 0⟩

namespace ProvHelper

def file (h : ProvHelper) (a : Addr) : Except Fault FileInfo :=
  match h.files a with
  | some fi => .ok fi
  | none    => .error .freed

def obj (h : ProvHelper) (a : Addr) : Except Fault ObjInfo :=
  match h.objs a with
  | some info => .ok info
  | none      => .error .freed

def setFile (h : ProvHelper) (a : Addr) (fi : FileInfo) : ProvHelper :=
  { h with files := Function.update h.files a (some fi) }

def setObj (h : ProvHelper) (a : Addr) (info : ObjInfo) : ProvHelper :=
  { h with objs := Function.update h.objs a (some info) }

def freeFile (h : ProvHelper) (a : Addr) : ProvHelper := { h with files := Function.update h.files a none }

def freeObj (h : ProvHelper) (a : Addr) : ProvHelper := { h with objs := Function.update h.objs a none }

end ProvHelper

/-! ## File nodes -/

def newFileInfo (fname : Option CStr) (file_no : Nat) : FileInfo :=
  { file_name := fname, file_no := file_no, ref_cnt := 0, opened := fun _ => [], opened_cnt := fun _ => 0
    ds_accessed := 0 }

def ProvHelper.allocFile (h : ProvHelper) (fi : FileInfo) : ProvHelper := { h.setFile h.next fi with next := h.next + 1 }

/-- The search of `rm_file_node` and `_search_home_file`. -/
def searchFile (h : ProvHelper) (file_no : Nat) : List Addr → Except Fault (Option Addr)
  | [] => .ok none
  | cur :: rest => do
    let fi ← h.file cur
    if fi.file_no = file_no then pure (some cur) else searchFile h file_no rest

/-- The search of `add_file_node`, which asserts every number it passes. -/
def searchFileNode (h : ProvHelper) (file_no : Nat) : List Addr → Except Fault (Option Addr)
  | [] => .ok none
  | cur :: rest => do
    let fi ← h.file cur
    cAssert (fi.file_no ≠ 0)
    if fi.file_no = file_no then pure (some cur) else searchFileNode h file_no rest

/-- `ref_cnt++` on a file node. -/
def ProvHelper.refFile (h : ProvHelper) (a : Addr) : Except Fault ProvHelper := do
  let fi ← h.file a
  pure (h.setFile a { fi with ref_cnt := fi.ref_cnt + 1 })

def addFileNode (h : ProvHelper) (file_name : Option CStr) (file_no : Nat) : Except Fault (ProvHelper × Addr) := do
  cAssert (h.opened_files ≠ [] ∨ h.opened_files_cnt = 0)
  match ← searchFileNode h file_no h.opened_files with
  | some cur =>
    let h ← h.refFile cur
    pure (h, cur)
  | none =>
    let h' := { h.allocFile (newFileInfo file_name file_no) with
      opened_files := h.next :: h.opened_files, opened_files_cnt := h.opened_files_cnt + 1 }
    let h' ← h'.refFile h.next
    pure (h', h.next)

def rmFileNode (h : ProvHelper) (file_no : Nat) : Except Fault (ProvHelper × Int) := do
  cAssert (h.opened_files ≠ [])
  cAssert (h.opened_files_cnt ≠ 0)
  cAssert (file_no ≠ 0)
  match ← searchFile h file_no h.opened_files with
  | none => pure (h, h.opened_files_cnt)
  | some cur =>
    let fi ← h.file cur
    if fi.ref_cnt - 1 = 0 then
      cAssert (fi.opened_cnt .dataset = 0)
      cAssert (fi.opened_cnt .grp = 0)
      cAssert (fi.opened_cnt .dtype = 0)
      cAssert (fi.opened_cnt .attr = 0)
      let h' := { h.freeFile cur with
        opened_files := h.opened_files.erase cur, opened_files_cnt := h.opened_files_cnt - 1 }
      cAssert (h'.opened_files_cnt ≠ 0 ∨ h'.opened_files = [])
      pure (h', h'.opened_files_cnt)
    else pure (h.setFile cur { fi with ref_cnt := fi.ref_cnt - 1 }, h.opened_files_cnt)

/-! ## Object nodes -/

/-- The answers of `H5VLtoken_cmp` during one call: `none` is a failure, which leaves `cmp_value` as it was.  `uninit`
is what `cmp_value` holds before the first. -/
structure TokenCmp where
  cmp    : Token → Token → Option Int
  uninit : Int

/-- The search for a token in one list, from a value of `cmp_value`. -/
def findNode (h : ProvHelper) (c : TokenCmp) (token : Token) : Int → List Addr → Except Fault (Option Addr)
  | _, [] => .ok none
  | cmp_value, cur :: rest => do
    let info ← h.obj cur
    if (c.cmp info.token token).getD cmp_value = 0 then pure (some cur)
    else findNode h c token ((c.cmp info.token token).getD cmp_value) rest

def newObjInfo (cls : ObjClass) (root_file : Addr) (name : Option CStr) (token : Token) : ObjInfo :=
  { cls := cls, file_info := root_file, token := token, name := name, ref_cnt := 0, ds := .zero }

def newDatasetInfo := newObjInfo .dataset
def newGroupInfo := newObjInfo .grp
def newDtypeInfo := newObjInfo .dtype
def newAttributeInfo := newObjInfo .attr

/-- What the underlying connector says of an open dataset: its type's size and its dataspace. -/
structure DsShape where
  type_size : BitVec 64
  ds_class  : SpaceClass
  dims      : List (BitVec 64)
  npoints   : BitVec 64
deriving DecidableEq, Repr

def newDsProvInfo (shape : DsShape) (token : Token) (file_info : Addr) (ds_name : Option CStr) : ObjInfo :=
  let ds_info := newDatasetInfo file_info ds_name token
  let ds := { ds_info.ds with dset_type_size := shape.type_size, ds_class := shape.ds_class }
  if shape.ds_class = .simple then
    { ds_info with ds := { ds with
        dimension_cnt := shape.dims.length, dimensions := shape.dims, dset_space_size := shape.npoints } }
  else { ds_info with ds := ds }

/-- A new node at the head of its file's list of class `k`, with the file's reference for it. -/
def ProvHelper.linkObj (h : ProvHelper) (k : ObjClass) (a : Addr) (fi : FileInfo) (info : ObjInfo) : ProvHelper :=
  { (h.setObj h.next info).setFile a { fi with
      ref_cnt := fi.ref_cnt + 1
      opened := Function.update fi.opened k (h.next :: fi.opened k)
      opened_cnt := Function.update fi.opened_cnt k (fi.opened_cnt k + 1) } with
    next := h.next + 1 }

def ProvHelper.refObj (h : ProvHelper) (a : Addr) : Except Fault ProvHelper := do
  let info ← h.obj a
  pure (h.setObj a { info with ref_cnt := info.ref_cnt + 1 })

def addNode (k : ObjClass) (h : ProvHelper) (c : TokenCmp) (file_info : Addr) (token : Token) (new : ObjInfo) :
    Except Fault (ProvHelper × Addr) := do
  let fi ← h.file file_info
  match ← findNode h c token c.uninit (fi.opened k) with
  | some cur =>
    let h ← h.refObj cur
    pure (h, cur)
  | none =>
    let h' ← (h.linkObj k file_info fi new).refObj h.next
    pure (h', h.next)

def addGrpNode (h : ProvHelper) (c : TokenCmp) (file_info : Addr) (obj_name : Option CStr) (token : Token) :
    Except Fault (ProvHelper × Addr) := addNode .grp h c file_info token (newGroupInfo file_info obj_name token)

def addDtypeNode (h : ProvHelper) (c : TokenCmp) (file_info : Addr) (obj_name : Option CStr) (token : Token) :
    Except Fault (ProvHelper × Addr) := addNode .dtype h c file_info token (newDtypeInfo file_info obj_name token)

def addAttrNode (h : ProvHelper) (c : TokenCmp) (file_info : Addr) (obj_name : Option CStr) (token : Token) :
    Except Fault (ProvHelper × Addr) := addNode .attr h c file_info token (newAttributeInfo file_info obj_name token)

/-- The open file with a number, its `ref_cnt` bumped. -/
def searchHomeFile (h : ProvHelper) (obj_file_no : Nat) : Except Fault (ProvHelper × Option Addr) := do
  if h.opened_files_cnt < 1 then pure (h, none)
  else match ← searchFile h obj_file_no h.opened_files with
  | some cur =>
    let h ← h.refFile cur
    pure (h, some cur)
  | none => pure (h, none)

/-- The file a dataset's node goes to: the one it was reached through when it lives there, else its open home file,
else a dummy that no list holds. -/
def homeFile (h : ProvHelper) (obj_file_no : Nat) (file_info_in : Addr) : Except Fault (ProvHelper × Addr) := do
  let fi ← h.file file_info_in
  if obj_file_no ≠ fi.file_no then
    match ← searchHomeFile h obj_file_no with
    | (h, some external_home_file) => pure (h, external_home_file)
    | (h, none) => pure (h.allocFile (newFileInfo (some (cstr "dummy")) obj_file_no), h.next)
  else pure (h, file_info_in)

def addDatasetNode (h : ProvHelper) (c : TokenCmp) (obj_file_no : Nat) (shape : DsShape) (token : Token)
    (file_info_in : Addr) (ds_name : Option CStr) : Except Fault (ProvHelper × Addr) := do
  let (h, file_info) ← homeFile h obj_file_no file_info_in
  addNode .dataset h c file_info token (newDsProvInfo shape token file_info ds_name)

def rmNode (k : ObjClass) (h : ProvHelper) (c : TokenCmp) (info : Addr) : Except Fault (ProvHelper × Int) := do
  let node ← h.obj info
  let h := h.setObj info { node with ref_cnt := node.ref_cnt - 1 }
  if node.ref_cnt - 1 > 0 then pure (h, node.ref_cnt - 1)
  else
    let fi ← h.file node.file_info
    cAssert (fi.opened k ≠ [])
    match ← findNode h c node.token c.uninit (fi.opened k) with
    | none => pure (h, -1)
    | some cur =>
      let fi := { fi with
        opened := Function.update fi.opened k ((fi.opened k).erase cur)
        opened_cnt := Function.update fi.opened_cnt k (fi.opened_cnt k - 1) }
      cAssert (fi.opened_cnt k ≠ 0 ∨ fi.opened k = [])
      let (h, _) ← rmFileNode ((h.freeObj cur).setFile node.file_info fi) fi.file_no
      pure (h, 0)

def rmDatasetNode := rmNode .dataset
def rmGrpNode := rmNode .grp
def rmDtypeNode := rmNode .dtype
def rmAttrNode := rmNode .attr

/-! ## Wrap contexts -/

/-- What `get_wrap_ctx` does to the file of the object it is given. -/
def takeWrapCtx (h : ProvHelper) (file_info : Addr) : Except Fault ProvHelper := h.refFile file_info

/-- What `free_wrap_ctx` and `file_close` do to the file their object points to. -/
def releaseFile (h : ProvHelper) (file_info : Addr) : Except Fault ProvHelper := do
  let fi ← h.file file_info
  let (h, _) ← rmFileNode h fi.file_no
  pure h

end Provio
