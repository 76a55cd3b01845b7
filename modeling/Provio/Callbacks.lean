import Provio.Connector
/-!
# Callbacks — runs of the connector

A run is a list of callbacks with what the underlying connector answers each.  The application (with the library between
them) keeps what callbacks hand it: wrappers, wrap contexts, refreshes under way.  `history` pairs each record with the
callback that added it.  A refresh is two steps, so that other callbacks can come between.
-/
namespace Provio

/-- The callbacks that make an object and record the name they were given. -/
inductive Maker where
  | attrCreate
  | datasetCreate
  | datasetOpen
  | datatypeCommit
  | datatypeOpen
  | groupCreate
  | groupOpen
deriving DecidableEq, Repr

inductive FileOp where
  | create
  | open
deriving DecidableEq, Repr

inductive Callback where
  | make (f : Maker) (o : ProvObj) (name : Option CStr) (m : Made) (t : Ticks)
  | attrOpen (o : ProvObj) (name queried : Option CStr) (m : Made) (t : Ticks)
  | attrAccess (x : Xfer) (o : ProvObj) (ret : Bool) (name : Option CStr) (t : Ticks)
  | datasetAccess (x : Xfer) (o : ProvObj) (name : Option CStr) (stack : CStr) (ret : Bool) (npoints : Option (BitVec 64))
      (elapsed : BitVec 64) (t : Ticks)
  | fileCall (f : FileOp) (info : VolInfo) (name : Option CStr) (under : Option Under) (m : Marking) (t : Ticks)
  | fileReopen (o : ProvObj) (ret : Bool) (under : Option Under)
  | fileClose (o : ProvObj) (ret : Bool)
  | close (k : ObjClass) (c : TokenCmp) (o : ProvObj) (ret : Bool)
  | objectOpen (o : ProvObj) (obj_name : Option CStr) (obj_to_open_type : ObjType) (m : Made)
  | getWrapCtx (o : ProvObj)
  | wrapObject (wrap_ctx : Addr) (obj_type : ObjType) (m : Made)
  | unwrapObject (c : TokenCmp) (o : ProvObj) (under : Bool)
  | freeWrapCtx (wrap_ctx : Addr)
  | setExtent (o : ProvObj) (ret : Bool) (new_size : List (BitVec 64))
  | refreshBegin (specific : Specific) (o : ProvObj)
  | refreshEnd (c : TokenCmp) (hold : Hold) (ret : Bool) (extent : Extent)
  /-- Any callback that only calls the underlying connector: the `get`, `optional`, link, blob and token ones, and
  `specific` for any other operation. -/
  | forward

/-- What the application holds. -/
structure App where
  handles : List ProvObj
  ctxs    : List Addr
  holds   : List Hold

def App.init : App := ⟨[], [], []⟩

def App.take (app : App) (obj : Option ProvObj) : App := { app with handles := obj.toList ++ app.handles }

/-- A wrapper given back, if the call succeeded. -/
def App.give (app : App) (o : ProvObj) (ret : Bool) : App :=
  if ret then { app with handles := app.handles.erase o } else app

def App.Closed (app : App) : Prop := app.handles = [] ∧ app.ctxs = [] ∧ app.holds = []

def Maker.run : Maker → Conn → ProvObj → Option CStr → Made → Ticks → Except Fault (Conn × Option ProvObj)
  | .attrCreate     => Provio.attrCreate
  | .datasetCreate  => Provio.datasetCreate
  | .datasetOpen    => Provio.datasetOpen
  | .datatypeCommit => Provio.datatypeCommit
  | .datatypeOpen   => Provio.datatypeOpen
  | .groupCreate    => Provio.groupCreate
  | .groupOpen      => Provio.groupOpen

def closeOf : ObjClass → Conn → TokenCmp → ProvObj → Bool → Except Fault (Conn × Bool)
  | .attr    => attrClose
  | .dataset => datasetClose
  | .dtype   => datatypeClose
  | .grp     => groupClose

def Callback.run (s : Conn) (app : App) : Callback → Except Fault (Conn × App)
  | .make f o name m t => do
    let (s, obj) ← f.run s o name m t
    pure (s, app.take obj)
  | .attrOpen o name queried m t => do
    let (s, attr) ← Provio.attrOpen s o name queried m t
    pure (s, app.take attr)
  | .attrAccess .read _ ret name t => do
    let (s, _) ← attrRead s ret name t
    pure (s, app)
  | .attrAccess .write _ ret name t => do
    let (s, _) ← attrWrite s ret name t
    pure (s, app)
  | .datasetAccess .read o name stack ret npoints elapsed t => do
    let (s, _) ← datasetRead s o name stack ret npoints elapsed t
    pure (s, app)
  | .datasetAccess .write o name stack ret npoints elapsed t => do
    let (s, _) ← datasetWrite s o name stack ret npoints elapsed t
    pure (s, app)
  | .fileCall .create info name under m t => do
    let (s, file) ← fileCreate s info name under m t
    pure (s, app.take file)
  | .fileCall .open info name under m t => do
    let (s, file) ← fileOpen s info name under m t
    pure (s, app.take file)
  | .fileReopen o ret under => do
    let (s, file) ← Provio.fileReopen s o ret under
    pure (s, app.take file)
  | .fileClose o ret => do
    let (s, ret) ← Provio.fileClose s o ret
    pure (s, app.give o ret)
  | .close k c o ret => do
    let (s, ret) ← closeOf k s c o ret
    pure (s, app.give o ret)
  | .objectOpen o obj_name obj_to_open_type m => do
    let (s, obj) ← Provio.objectOpen s o obj_name obj_to_open_type m
    pure (s, app.take obj)
  | .getWrapCtx o => do
    let (s, wrap_ctx) ← Provio.getWrapCtx s o
    pure (s, { app with ctxs := wrap_ctx :: app.ctxs })
  | .wrapObject wrap_ctx obj_type m => do
    let (s, obj) ← Provio.wrapObject s wrap_ctx obj_type m
    pure (s, app.take obj)
  | .unwrapObject c o under => do
    let (s, ret) ← Provio.unwrapObject s c o under
    pure (s, app.give o ret)
  | .freeWrapCtx wrap_ctx => do
    let s ← Provio.freeWrapCtx s wrap_ctx
    pure (s, { app with ctxs := app.ctxs.erase wrap_ctx })
  | .setExtent o ret new_size => do
    let s ← Provio.setExtent s o ret new_size
    pure (s, app)
  | .refreshBegin specific o => do
    let (s, hold) ← Provio.refreshBegin s specific o
    pure (s, { app with holds := hold :: app.holds })
  | .refreshEnd c hold ret extent => do
    let s ← Provio.refreshEnd s c hold ret extent
    pure (s, { app with holds := app.holds.erase hold })
  | .forward => .ok (s, app)

/-- A callback is given what the application holds, of the type it is for. -/
def Callback.Valid (app : App) : Callback → Prop
  | .make _ o _ _ _                  => o ∈ app.handles
  | .attrOpen o _ _ _ _              => o ∈ app.handles
  | .attrAccess _ o _ _ _            => o ∈ app.handles ∧ o.my_type = .obj .attr
  | .datasetAccess _ o _ _ _ _ _ _   => o ∈ app.handles ∧ o.my_type = .obj .dataset
  | .fileCall _ _ _ _ _ _            => True
  | .fileReopen o _ _                => o ∈ app.handles ∧ o.my_type = .file
  | .fileClose o _                   => o ∈ app.handles ∧ o.my_type = .file
  | .close k _ o _                   => o ∈ app.handles ∧ o.my_type = .obj k
  | .objectOpen o _ _ _              => o ∈ app.handles
  | .getWrapCtx o                    => o ∈ app.handles
  | .wrapObject wrap_ctx _ _         => wrap_ctx ∈ app.ctxs
  | .unwrapObject _ o _              => o ∈ app.handles
  | .freeWrapCtx wrap_ctx            => wrap_ctx ∈ app.ctxs
  | .setExtent o _ _                 => o ∈ app.handles ∧ o.my_type = .obj .dataset
  | .refreshBegin specific o         => o ∈ app.handles ∧ ∀ k, o.my_type = .obj k → Hold.cls ⟨specific, k, 0⟩ = k
  | .refreshEnd _ hold _ _           => hold ∈ app.holds
  | .forward                         => True

/-- A process that runs the connector. -/
structure World where
  conn    : Conn
  app     : App
  history : List (Callback × Entry)

def World.start (inp : SessionInput) : World := ⟨.start inp, .init, []⟩

def Callback.step (w : World) (c : Callback) : Except Fault World := do
  let (conn, app) ← c.run w.conn w.app
  pure ⟨conn, app, w.history ++ (conn.records.drop w.conn.records.length).map (c, ·)⟩

def runCallbacks : List Callback → World → Except Fault World
  | [], w      => .ok w
  | c :: cs, w => c.step w >>= runCallbacks cs

def Throughout (P : World → Callback → Prop) : List Callback → World → Prop
  | [], _      => True
  | c :: cs, w => P w c ∧ ∀ w', c.step w = .ok w' → Throughout P cs w'

end Provio
