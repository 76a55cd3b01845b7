import Mathlib.Data.List.Count
import Provio.Connector
import Provio.Forwarding
import Provio.Objects
/-!
# References — who holds the underlying connector

Every wrapper, wrap context and info of the connector holds a reference to the ID of the connector below, which it takes
when it is allocated and gives back when it is freed.  The library holds what the callbacks hand out to it.  Here the
callbacks do with these blocks what their source does and nothing else: the tracker is in `Connector`, the calls to the
connector below in `Forwarding`.

A pointer to a block is its address with what it was allocated as; reading through one that is freed is the fault
`freed`.
-/
namespace Provio
namespace References

open Forwarding (VolId)

inductive Kind where
  | wrapper
  | wrapCtx
  | info
deriving DecidableEq

/-- What a block is, and the ID that it holds. -/
structure Holder where
  kind         : Kind
  under_vol_id : VolId
deriving DecidableEq

abbrev Block := Nat × Holder

/-- The blocks, the references taken to each ID, and the helper's count of wrappers. -/
structure Refs where
  heap    : Objects.Heap Holder
  count   : VolId → Int
  ptr_cnt : Int

def Refs.start : Refs := ⟨.empty, fun _ => 0, 0⟩

/-- `H5Iinc_ref`. -/
def incRef (s : Refs) (v : VolId) : Refs := { s with count := Function.update s.count v (s.count v + 1) }

/-- `H5Idec_ref`. -/
def decRef (s : Refs) (v : VolId) : Refs := { s with count := Function.update s.count v (s.count v - 1) }

/-- Reading through a pointer. -/
def access (s : Refs) (b : Block) : Except Fault Unit :=
  if s.heap.read b.1 = some b.2 then .ok () else .error .freed

/-- `o ? o->under_object : NULL`. -/
def accessAny (s : Refs) : Option Block → Except Fault Unit
  | some o => access s o
  | none   => .ok ()

/-- `calloc` and `H5Iinc_ref`. -/
def take (s : Refs) (kind : Kind) (v : VolId) : Block × Refs :=
  let (a, heap) := s.heap.alloc ⟨kind, v⟩
  ((a, ⟨kind, v⟩), incRef { s with heap := heap } v)

/-- `H5Idec_ref` and `free`. -/
def give (s : Refs) (b : Block) : Except Fault Refs := do
  access s b
  let s := decRef s b.2.under_vol_id
  match s.heap.free b.1 with
  | some heap => pure { s with heap := heap }
  | none      => .error .freed

/-- `H5VL_provenance_new_obj`; `helper` is whether it gets one. -/
def newObj (s : Refs) (helper : Bool) (under_vol_id : VolId) : Except Fault (Block × Refs) := do
  cAssert helper
  let (b, s) := take s .wrapper under_vol_id
  pure (b, { s with ptr_cnt := s.ptr_cnt + 1 })

def freeObj (s : Refs) (obj : Block) : Except Fault Refs := do
  access s obj
  give { s with ptr_cnt := s.ptr_cnt - 1 } obj

/-! ## Requests -/

/-- A request pointer: NULL, to NULL, to a token of the connector below, to a wrapper. -/
inductive Req where
  | sync
  | null
  | token
  | wrapper (b : Block)

/-- The request pointer of a callback, which points to NULL when there is one. -/
def Req.fresh (async : Bool) : Req := if async then .null else .sync

/-- A call below leaves `*req` as it is, or stores a token there. -/
def Req.answer : Req → Bool → Req
  | .sync, _  => .sync
  | r, false  => r
  | _, true   => .token

/-- What the library gets. -/
def Req.handed : Req → List Block
  | .wrapper b => [b]
  | _          => []

/-- `*req = H5VL_provenance_new_obj(*req, under_vol_id, o->prov_helper);` -/
def wrapReq (s : Refs) (o : Option Block) (under_vol_id : VolId) : Except Fault (Refs × Req) :=
  match o with
  | none   => .error .null
  | some o => do
    access s o
    let (b, s) ← newObj s true under_vol_id
    pure (s, .wrapper b)

/-- `if(req && *req)` before it. -/
def checkAsync (s : Refs) (o : Option Block) (under_vol_id : VolId) : Req → Except Fault (Refs × Req)
  | .sync      => .ok (s, .sync)
  | .null      => .ok (s, .null)
  | .token     => wrapReq s o under_vol_id
  | .wrapper _ => wrapReq s o under_vol_id

def forward (s : Refs) (o : Block) (async token : Bool) : Except Fault (Refs × List Block) := do
  access s o
  let (s, req) ← checkAsync s (some o) o.2.under_vol_id ((Req.fresh async).answer token)
  pure (s, req.handed)

/-- `H5VL_provenance_group_specific` that mounts a file. -/
def groupMount (s : Refs) (o child_file : Block) (async token : Bool) : Except Fault (Refs × List Block) := do
  access s child_file
  forward s o async token

/-- `H5VL_provenance_request_wait`; the request stays while the operation is in progress. -/
def requestWait (s : Refs) (o : Block) (ret in_progress : Bool) : Except Fault Refs := do
  access s o
  if ret && !in_progress then freeObj s o else pure s

/-- A request callback that releases the request if it succeeds. -/
def requestRelease (s : Refs) (o : Block) (ret : Bool) : Except Fault Refs := do
  access s o
  if ret then freeObj s o else pure s

def requestNotify := requestRelease
def requestCancel := requestRelease
def requestFree := requestRelease

/-! ## Infos and wrap contexts -/

/-- `H5VL_provenance_str_to_info`; registering the connector by its value takes the reference. -/
def strToInfo (s : Refs) (under_vol_id : VolId) : Block × Refs := take s .info under_vol_id

def infoCopy (s : Refs) (info : Block) : Except Fault (Block × Refs) := do
  access s info
  pure (take s .info info.2.under_vol_id)

def infoFree := give

def getWrapCtx (s : Refs) (o : Block) : Except Fault (Block × Refs) := do
  access s o
  pure (take s .wrapCtx o.2.under_vol_id)

def freeWrapCtx := give

def objWrapUnder (s : Refs) (upper_o : Block) (req : Req) : Except Fault (Block × Refs × Req) := do
  access s upper_o
  let (obj, s) ← newObj s true upper_o.2.under_vol_id
  let (s, req) ← checkAsync s (some upper_o) upper_o.2.under_vol_id req
  pure (obj, s, req)

/-- `H5VL_provenance_wrap_object`; `under` is whether the object wraps underneath. -/
def wrapObject (s : Refs) (wrap_ctx : Block) (under : Bool) : Except Fault (Refs × List Block) := do
  access s wrap_ctx
  if under then
    let (fake_upper_o, s) ← newObj s true wrap_ctx.2.under_vol_id
    let (new_obj, s, _) ← objWrapUnder s fake_upper_o .sync
    let s ← freeObj s fake_upper_o
    pure (s, [new_obj])
  else pure (s, [])

def unwrapObject (s : Refs) (o : Block) (under : Bool) : Except Fault Refs := do
  access s o
  if under then freeObj s o else pure s

/-! ## Objects -/

/-- What one call below answers: a request token, and whether there is an object. -/
structure Answer where
  token : Bool
  under : Bool

/-- The callbacks that make an object. -/
def make (s : Refs) (o : Block) (async : Bool) (b : Answer) : Except Fault (Refs × List Block) := do
  access s o
  let req := (Req.fresh async).answer b.token
  if b.under then
    let (obj, s, req) ← objWrapUnder s o req
    pure (s, obj :: req.handed)
  else pure (s, req.handed)

/-- The callbacks that close an object. -/
def closeObj (s : Refs) (o : Block) (ret async token : Bool) : Except Fault (Refs × List Block) := do
  let (s, out) ← forward s o async token
  if ret then
    let s ← freeObj s o
    pure (s, out)
  else pure (s, out)

/-- The last read of a datatype's or a group's refresh is through the wrapper that it was given: NULL after a success, and
freed where the connector below has had it unwrapped. -/
def accessLast (s : Refs) (specific : Specific) (o : Block) (ret : Bool) : Except Fault Unit :=
  match specific with
  | .dataset | .object => .ok ()
  | .datatype | .group => if ret then .error .null else access s o

/-- The end of a refresh, with the ID that its wrapper `o` had before it. -/
def refreshEnd (s : Refs) (specific : Specific) (o : Block) (ret async token : Bool) : Except Fault (Refs × List Block) := do
  accessLast s specific o ret
  match (Req.fresh async).answer token with
  | .sync | .null => pure (s, [])
  | _ => do
    let (b, s) ← newObj s true o.2.under_vol_id
    pure (s, [b])

/-- `H5VL_provenance_link_create`, with the target of a hard link. -/
def linkCreate (s : Refs) (curr_obj o : Option Block) (async token : Bool) : Except Fault (Refs × List Block) := do
  accessAny s curr_obj
  match o with
  | some o => forward s o async token
  | none   =>
    match (Req.fresh async).answer token with
    | .sync | .null => pure (s, [])
    | _             => .error .null

/-- A callback on two objects, either of which may be NULL. -/
def linkTwo (s : Refs) (o_src o_dst : Option Block) (async token : Bool) : Except Fault (Refs × List Block) := do
  accessAny s o_src
  accessAny s o_dst
  match o_src.or o_dst with
  | none   => .error .assert
  | some o => do
    let (s, req) ← checkAsync s o_dst o.2.under_vol_id ((Req.fresh async).answer token)
    pure (s, req.handed)

def linkCopy := linkTwo
def linkMove := linkTwo

def objectCopy (s : Refs) (o_src o_dst : Block) := linkTwo s (some o_src) (some o_dst)

/-! ## Files -/

def fileOpenCommon := newObj

/-- What the calls of a file create or open answer, in their order. -/
structure FileAnswers where
  file        : Answer
  group       : Answer
  attr_path   : Answer
  path_write  : Bool
  path_close  : Bool
  attr_time   : Answer
  time_write  : Bool
  time_close  : Bool
  group_close : Bool

/-- An attribute of the group is made, written and closed; its wrapper is forgotten. -/
def markAttr (s : Refs) (group : Block) (create : Answer) (write close : Bool) (req : Req) : Except Fault (Refs × Req) := do
  access s group
  let req := req.answer create.token
  if create.under then
    let (attr, s, req) ← objWrapUnder s group req
    access s attr
    pure (s, (req.answer write).answer close)
  else .error .null

/-- The group "Provenance" with its attributes "Path" and "Creation time". -/
def markFile (s : Refs) (file : Block) (b : FileAnswers) (req : Req) : Except Fault (Refs × Req) := do
  access s file
  let req := req.answer b.group.token
  if b.group.under then
    let (group, s, req) ← objWrapUnder s file req
    let (s, req) ← markAttr s group b.attr_path b.path_write b.path_close req
    let (s, req) ← markAttr s group b.attr_time b.time_write b.time_close req
    access s group
    let s ← freeObj s group
    pure (s, req.answer b.group_close)
  else .error .null

/-- File create and open with the info of the FAPL, which the library copies for it; `helper` is whether `PROV_HELPER` is
set once the file is there. -/
def fileCall (s : Refs) (info : Option Block) (helper rank_zero async : Bool) (b : FileAnswers) :
    Except Fault (Refs × List Block) :=
  match info with
  | none      => .error .null
  | some info => do
    let (copy, s) ← infoCopy s info
    let req := (Req.fresh async).answer b.file.token
    if b.file.under then
      let (file, s) ← fileOpenCommon s helper copy.2.under_vol_id
      let (s, req) ← checkAsync s (some file) copy.2.under_vol_id req
      let (s, req) ← if rank_zero then markFile s file b req else pure (s, req)
      let s ← infoFree s copy
      pure (s, file :: req.handed)
    else if rank_zero then .error .null
    else
      let s ← infoFree s copy
      pure (s, req.handed)

/-- `H5VL_provenance_file_specific` on a file name, with the info of the FAPL. -/
def fileByName (s : Refs) (file info : Option Block) (async token : Bool) : Except Fault (Refs × List Block) :=
  match info with
  | none      => .ok (s, [])
  | some info => do
    let (copy, s) ← infoCopy s info
    let (s, req) ← checkAsync s file copy.2.under_vol_id ((Req.fresh async).answer token)
    let s ← infoFree s copy
    pure (s, req.handed)

/-- `H5VL_provenance_file_specific` that reopens a file; `reopened` is whether the call gave one. -/
def fileReopen (s : Refs) (o : Block) (ret reopened async token : Bool) : Except Fault (Refs × List Block) := do
  let (s, out) ← forward s o async token
  if ret && reopened then
    let (file, s) ← fileOpenCommon s true o.2.under_vol_id
    pure (s, file :: out)
  else pure (s, out)

/-! ## Runs -/

inductive Op where
  | strToInfo (under_vol_id : VolId)
  | infoCopy (info : Block)
  | infoFree (info : Block)
  | getWrapCtx (o : Block)
  | freeWrapCtx (wrap_ctx : Block)
  | wrapObject (wrap_ctx : Block) (under : Bool)
  | unwrapObject (o : Block) (under : Bool)
  | make (o : Block) (async : Bool) (b : Answer)
  | forward (o : Block) (async token : Bool)
  | groupMount (o child_file : Block) (async token : Bool)
  /-- The start of a refresh, `H5VL_provenance_optional`, the queries of a request: they read through the wrapper. -/
  | query (o : Block)
  | refreshEnd (specific : Specific) (o : Block) (ret async token : Bool)
  | close (o : Block) (ret async token : Bool)
  | linkCreate (curr_obj o : Option Block) (async token : Bool)
  | linkTwo (o_src o_dst : Option Block) (async token : Bool)
  | fileCall (info : Option Block) (helper rank_zero async : Bool) (b : FileAnswers)
  | fileByName (file info : Option Block) (async token : Bool)
  | fileReopen (o : Block) (ret reopened async token : Bool)
  | requestWait (o : Block) (ret in_progress : Bool)
  | requestRelease (o : Block) (ret : Bool)

namespace Op

def run (s : Refs) : Op → Except Fault (Refs × List Block)
  | strToInfo v                => .ok ((References.strToInfo s v).2, [(References.strToInfo s v).1])
  | infoCopy info              => References.infoCopy s info >>= fun r => .ok (r.2, [r.1])
  | infoFree info              => References.infoFree s info >>= fun s => .ok (s, [])
  | getWrapCtx o               => References.getWrapCtx s o >>= fun r => .ok (r.2, [r.1])
  | freeWrapCtx ctx            => References.freeWrapCtx s ctx >>= fun s => .ok (s, [])
  | wrapObject ctx under       => References.wrapObject s ctx under
  | unwrapObject o under       => References.unwrapObject s o under >>= fun s => .ok (s, [])
  | make o async b             => References.make s o async b
  | forward o async t          => References.forward s o async t
  | groupMount o c async t     => References.groupMount s o c async t
  | query o                    => access s o >>= fun _ => .ok (s, [])
  | refreshEnd k o ret async t => References.refreshEnd s k o ret async t
  | close o ret async t        => closeObj s o ret async t
  | linkCreate c o async t     => References.linkCreate s c o async t
  | linkTwo o o' async t       => References.linkTwo s o o' async t
  | fileCall i h zero async b  => References.fileCall s i h zero async b
  | fileByName f i async t     => References.fileByName s f i async t
  | fileReopen o r r' async t  => References.fileReopen s o r r' async t
  | requestWait o ret going    => References.requestWait s o ret going >>= fun s => .ok (s, [])
  | requestRelease o ret       => References.requestRelease s o ret >>= fun s => .ok (s, [])

/-- The pointers that a callback is given, and what to; the end of a refresh is given none, and has its own. -/
def args : Op → List (Block × Kind)
  | strToInfo _ | refreshEnd _ _ _ _ _ => []
  | infoCopy info | infoFree info      => [(info, .info)]
  | freeWrapCtx ctx | wrapObject ctx _ => [(ctx, .wrapCtx)]
  | getWrapCtx o | unwrapObject o _ | make o _ _ | forward o _ _ | query o | close o _ _ _ | fileReopen o _ _ _ _
  | requestWait o _ _ | requestRelease o _ => [(o, .wrapper)]
  | groupMount o child_file _ _            => [(o, .wrapper), (child_file, .wrapper)]
  | linkCreate o o' _ _ | linkTwo o o' _ _ => (o.toList ++ o'.toList).map fun b => (b, .wrapper)
  | fileCall info _ _ _ _                  => info.toList.map fun b => (b, .info)
  | fileByName file info _ _ => (file.toList.map fun b => (b, .wrapper)) ++ info.toList.map fun b => (b, .info)

/-- The wrapper that the end of a refresh reads although the library may not hold it any more. -/
def rereads : Op → Option Block
  | refreshEnd .datatype o false _ _ | refreshEnd .group o false _ _ => some o
  | _                                                                => none

def gone : Op → Option Block
  | infoFree b | freeWrapCtx b                                       => some b
  | unwrapObject o ret | close o ret _ _ | requestRelease o ret      => if ret then some o else none
  | requestWait o ret in_progress                                    => if ret && !in_progress then some o else none
  | _                                                                => none

end Op

/-- The connector and the blocks that the library holds. -/
structure Holding where
  refs : Refs
  held : List Block

def Holding.start : Holding := ⟨.start, []⟩

/-- The library keeps what it is handed, and drops what was freed. -/
def Holding.step (w : Holding) (op : Op) : Except Fault Holding :=
  op.run w.refs >>= fun r => .ok ⟨r.1, r.2 ++ match op.gone with
    | some b => w.held.erase b
    | none   => w.held⟩

def runSteps : List Op → Holding → Except Fault Holding
  | [], w        => .ok w
  | op :: ops, w => w.step op >>= runSteps ops

/-- The library passes only pointers that it holds. -/
def Proper (w : Holding) (op : Op) : Prop := ∀ x ∈ op.args, x.1 ∈ w.held ∧ x.1.2.kind = x.2

instance (w : Holding) (op : Op) : Decidable (Proper w op) :=
  inferInstanceAs (Decidable (∀ x ∈ op.args, x.1 ∈ w.held ∧ x.1.2.kind = x.2))

def Throughout : List Op → Holding → Prop
  | [], _        => True
  | op :: ops, w => Proper w op ∧ ∀ w', w.step op = .ok w' → Throughout ops w'

/-- A refresh of a group or a datatype has failed, and ends after its wrapper was freed. -/
def Outlived (ops : List Op) (w : Holding) : Prop :=
  ∃ pre op post w' o, ops = pre ++ op :: post ∧ runSteps pre w = .ok w' ∧ o ∈ op.rereads ∧ access w'.refs o = .error .freed

end References
end Provio
