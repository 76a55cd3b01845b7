import Provio.Basic
import Provio.Outward
/-!
# Forwarding — what the callbacks hand to the underlying connector

Every callback unwraps the objects it was given, makes its calls with the request pointer it was given, and wraps the
request that a call may have left there.  Queries of the tracker, which get NULL for the request, count only where the
pointer that they get is in question.  The connector below must never see a provenance wrapper: the callbacks that carry
objects in their arguments, or take none, are where this goes wrong (`only_under_iff`).
-/
namespace Provio
namespace Forwarding

open Outward (Traced)

/-! ## Wrappers, requests and calls -/

abbrev VolId := { id : Int // 0 < id }

/-- `H5VL_provenance_t` around an object of the underlying connector. -/
structure Wrapper where
  addr         : Nat
  under_object : Nat
  under_vol_id : VolId
deriving DecidableEq

/-- What a `void *` to an object points to. -/
inductive VoidPtr where
  | null
  | under (object : Nat)
  | wrapper (o : Wrapper)
deriving DecidableEq

def VoidPtr.isWrapper : VoidPtr → Bool
  | .wrapper _ => true
  | _          => false

/-- `o ? o->under_object : NULL`. -/
def underOf : Option Wrapper → VoidPtr
  | some o => .under o.under_object
  | none   => .null

/-- What `*req` is: NULL, a token of the underlying connector, or a wrapper of one of these. -/
inductive Req where
  | null
  | token (t : Nat)
  | wrapper (addr : Nat) (under_object : Req)
deriving DecidableEq

def Req.isWrapper : Req → Bool
  | .wrapper _ _ => true
  | _            => false

/-- One call to the underlying connector: the objects that it gets, as arguments and inside its argument structure, and
what `*req` holds (`none` when `req` is NULL). -/
structure Handed where
  objects      : List VoidPtr
  under_vol_id : Int
  req          : Option Req

/-- The request pointer of a callback, the wrappers that are allocated, the helper's count of them, and the wrappers in
`*req` that a call wrote over. -/
structure ReqState where
  req     : Option Req
  live    : List Nat
  next    : Nat
  ptr_cnt : Int
  lost    : List Nat

/-- `req && *req`. -/
def ReqState.pending (s : ReqState) : Bool :=
  match s.req with
  | none | some .null => false
  | some _            => true

abbrev Down := Traced Handed Fault

/-- The underlying connector leaves `*req` as it is, or stores a token there. -/
def ReqState.answer (s : ReqState) (token : Option Nat) : ReqState :=
  match s.req, token with
  | some (.wrapper a _), some t => { s with req := some (.token t), lost := a :: s.lost }
  | some _, some t              => { s with req := some (.token t) }
  | _, _                        => s

/-- A call that gets the request pointer. -/
def under (objects : List VoidPtr) (under_vol_id : Int) (token : Option Nat) (s : ReqState) : Down ReqState := do
  Traced.call ⟨objects, under_vol_id, s.req⟩
  pure (s.answer token)

def deref : Option Wrapper → Down Wrapper
  | some o => pure o
  | none   => Traced.stop .null

/-- `H5VL_provenance_new_obj`; `helper` is whether it gets one. -/
def newObj (helper : Bool) (under_vol_id : Int) (s : ReqState) : Down (Nat × ReqState) := do
  Traced.quiet (cAssert (decide (under_vol_id ≠ 0)))
  Traced.quiet (cAssert helper)
  pure (s.next, { s with next := s.next + 1, live := s.next :: s.live, ptr_cnt := s.ptr_cnt + 1 })

def freeObj (o : Wrapper) (s : ReqState) : ReqState := { s with live := s.live.erase o.addr, ptr_cnt := s.ptr_cnt - 1 }

/-- `if(req && *req) *req = H5VL_provenance_new_obj(*req, under_vol_id, o->prov_helper);` -/
def checkAsync (o : Option Wrapper) (under_vol_id : Int) (s : ReqState) : Down ReqState :=
  match s.req with
  | none | some .null => pure s
  | some r => do
    let _ ← deref o
    let (a, s) ← newObj true under_vol_id s
    pure { s with req := some (.wrapper a r) }

/-! ## One call on one object -/

def forward (o : Wrapper) (token : Option Nat) (s : ReqState) : Down ReqState := do
  let s ← under [.under o.under_object] o.under_vol_id token s
  checkAsync (some o) o.under_vol_id s

def attrRead := forward
def attrWrite := forward
def attrGet := forward
def attrSpecific := forward
def attrOptional := forward
def datasetRead := forward
def datasetWrite := forward
def datasetGet := forward
def datasetSpecific := forward
def datasetOptional := forward
def datatypeGet := forward
def datatypeOptional := forward
def fileGet := forward
def fileOptional := forward
def groupGet := forward
def groupOptional := forward
def linkGet := forward
def linkSpecific := forward
def linkOptional := forward
def objectGet := forward
def objectSpecific := forward
def objectOptional := forward

/-- The wrapper goes with the object that was closed. -/
def closeObj (o : Wrapper) (ret : Bool) (token : Option Nat) (s : ReqState) : Down ReqState := do
  let s ← forward o token s
  pure (if ret then freeObj o s else s)

def attrClose := closeObj
def datasetClose := closeObj
def datatypeClose := closeObj
def fileClose := closeObj
def groupClose := closeObj

/-- `H5VL_provenance_optional` leaves `*req` as the call left it. -/
def optional (o : Wrapper) (token : Option Nat) (s : ReqState) : Down ReqState :=
  under [.under o.under_object] o.under_vol_id token s

/-- After a refresh that succeeded `o` is NULL, and `rm_dtype_node` gets `o->under_object`. -/
def datatypeSpecific (o : Wrapper) (refresh ret : Bool) (token : Option Nat) (s : ReqState) : Down ReqState := do
  let s ← under [.under o.under_object] o.under_vol_id token s
  if refresh then
    let o ← deref (if ret then none else some o)
    Traced.call ⟨[.under o.under_object], o.under_vol_id, none⟩
  checkAsync (some o) o.under_vol_id s

/-! ## Links and copies -/

/-- `H5VL_link_create_args_t`. -/
inductive LinkArgs (ρ : Type) where
  | hard (curr_obj : ρ)
  | soft
  | ud
deriving DecidableEq

def LinkArgs.objects : LinkArgs VoidPtr → List VoidPtr
  | .hard curr_obj => [curr_obj]
  | _              => []

def linkCreate (args : LinkArgs (Option Wrapper)) (o : Option Wrapper) (token : Option Nat) (s : ReqState) :
    Down ReqState := do
  let under_vol_id : Int := match o with
    | some o => o.under_vol_id
    | none   => -1
  let (new_args, under_vol_id) : LinkArgs VoidPtr × Int := match args with
    | .hard (some curr_obj) =>
      (.hard (.under curr_obj.under_object), if under_vol_id < 0 then curr_obj.under_vol_id else under_vol_id)
    | .hard none => (.hard .null, under_vol_id)
    | .soft      => (.soft, under_vol_id)
    | .ud        => (.ud, under_vol_id)
  let s ← under (underOf o :: new_args.objects) under_vol_id token s
  checkAsync o under_vol_id s

/-- A callback on two objects, either of which may be NULL. -/
def linkTwo (o_src o_dst : Option Wrapper) (token : Option Nat) (s : ReqState) : Down ReqState := do
  let under_vol_id : Int := match o_src, o_dst with
    | some o, _      => o.under_vol_id
    | none, some o   => o.under_vol_id
    | none, none     => -1
  Traced.quiet (cAssert (decide (under_vol_id > 0)))
  let s ← under [underOf o_src, underOf o_dst] under_vol_id token s
  checkAsync o_dst under_vol_id s

def linkCopy := linkTwo

def linkMove := linkTwo

def objectCopy (o_src o_dst : Wrapper) (token : Option Nat) (s : ReqState) : Down ReqState := do
  let s ← under [.under o_src.under_object, .under o_dst.under_object] o_src.under_vol_id token s
  checkAsync (some o_dst) o_src.under_vol_id s

/-! ## Groups and files -/

/-- `H5VL_group_specific_args_t`. -/
inductive GroupArgs (ρ : Type) where
  | mount (child_file : ρ)
  | unmount
  | flush
  | refresh
deriving DecidableEq

def GroupArgs.objects : GroupArgs VoidPtr → List VoidPtr
  | .mount child_file => [child_file]
  | _                 => []

def GroupArgs.map {ρ σ : Type} (f : ρ → σ) : GroupArgs ρ → GroupArgs σ
  | .mount child_file => .mount (f child_file)
  | .unmount          => .unmount
  | .flush            => .flush
  | .refresh          => .refresh

def groupSpecific (o : Wrapper) (args : GroupArgs Wrapper) (ret : Bool) (token : Option Nat) (s : ReqState) :
    Down ReqState := do
  let _new_args : GroupArgs VoidPtr := args.map fun child_file => .under child_file.under_object
  -- the call gets `args`, not `new_args`
  let s ← under (.under o.under_object :: (args.map VoidPtr.wrapper).objects) o.under_vol_id token s
  if args = .refresh then
    -- a success has set `o` to NULL before `rm_grp_node` gets `o->under_object`
    let o ← deref (if ret then none else some o)
    Traced.call ⟨[.under o.under_object], o.under_vol_id, none⟩
  checkAsync (some o) o.under_vol_id s

def fileOpenCommon (helper : Bool) (file : Nat) (vol_id : VolId) (s : ReqState) : Down (Wrapper × ReqState) := do
  let (a, s) ← newObj helper vol_id s
  Traced.call ⟨[.under file], vol_id, none⟩
  pure (⟨a, file, vol_id⟩, s)

/-- The operations of `H5VL_provenance_file_specific`: those on a file name come with the connector's info from the FAPL
and, mostly, without a file; the others with a file. -/
inductive FileSpecific where
  | isAccessible (file : Option Wrapper) (info : Option VolId)
  | delete (file : Option Wrapper) (info : Option VolId)
  | reopen (file : Wrapper)
  | other (file : Wrapper)
deriving DecidableEq

def byName (file : Option Wrapper) (info : Option VolId) (token : Option Nat) (s : ReqState) : Down ReqState :=
  match info with
  | none => pure s
  | some under_vol_id => do
    let s ← under [.null] under_vol_id token s
    checkAsync file under_vol_id s

/-- `reopened` is what the call puts into `args->args.reopen.file`. -/
def fileSpecific (args : FileSpecific) (ret : Bool) (reopened : Option Nat) (token : Option Nat) (s : ReqState) :
    Down ReqState :=
  match args with
  | .isAccessible file info => byName file info token s
  | .delete file info       => byName file info token s
  | .other o                => forward o token s
  | .reopen o => do
    let s ← forward o token s
    match ret, reopened with
    | true, some file => do
      let (_, s) ← fileOpenCommon true file o.under_vol_id s
      pure s
    | _, _ => pure s

/-! ## Only underlying objects -/

/-- The callbacks that carry other objects than their own, or may go without. -/
inductive Forward where
  | linkCreate (args : LinkArgs (Option Wrapper)) (o : Option Wrapper)
  | linkCopy (o_src o_dst : Option Wrapper)
  | linkMove (o_src o_dst : Option Wrapper)
  | objectCopy (o_src o_dst : Wrapper)
  | groupSpecific (o : Wrapper) (args : GroupArgs Wrapper) (ret : Bool)
  | fileSpecific (args : FileSpecific) (ret : Bool) (reopened : Option Nat)

def Forward.run : Forward → Option Nat → ReqState → Down ReqState
  | .linkCreate args o              => Forwarding.linkCreate args o
  | .linkCopy o_src o_dst           => Forwarding.linkCopy o_src o_dst
  | .linkMove o_src o_dst           => Forwarding.linkMove o_src o_dst
  | .objectCopy o_src o_dst         => Forwarding.objectCopy o_src o_dst
  | .groupSpecific o args ret       => Forwarding.groupSpecific o args ret
  | .fileSpecific args ret reopened => Forwarding.fileSpecific args ret reopened

def Handed.NoWrapper (c : Handed) : Prop := ∀ p ∈ c.objects, p.isWrapper = false

/-- **No call gets a wrapper for an object, and no NULL wrapper is read.** -/
def OnlyUnder {α : Type} (m : Down α) : Prop := m.Meets Handed.NoWrapper (· ≠ .null) fun _ => True

/-- The arguments with which a callback does: no file mounts, no group refresh that succeeds, and an object to take the
helper from where a request is pending. -/
def Forward.Sound (f : Forward) (pending : Bool) : Prop :=
  match f with
  | .linkCreate _ o                                             => o = none → pending = false
  | .linkCopy o_src o_dst | .linkMove o_src o_dst               => o_src.isSome → o_dst = none → pending = false
  | .objectCopy _ _                                             => True
  | .groupSpecific _ args ret                                   => (∀ c, args ≠ .mount c) ∧ (args = .refresh → ret = false)
  | .fileSpecific (.isAccessible file info) _ _                 => info.isSome → file = none → pending = false
  | .fileSpecific (.delete file info) _ _                       => info.isSome → file = none → pending = false
  | .fileSpecific (.reopen _) _ _ | .fileSpecific (.other _) _ _ => True

/-! ## What a step needs -/

section

variable {P : Handed → Prop} {F : Fault → Prop}

@[simp] theorem meets_cAssert (b : Bool) {Q : Unit → Prop} :
    (Traced.quiet (cAssert b) : Down Unit).Meets P F Q ↔ if b then Q () else F .assert := by
  cases b <;> simp [cAssert, Traced.Meets, Traced.quiet]

@[simp] theorem meets_deref (o : Option Wrapper) {Q : Wrapper → Prop} :
    (deref o).Meets P F Q ↔ match o with
      | some o => Q o
      | none   => F .null := by
  cases o <;> simp [deref]

@[simp] theorem meets_under (objects : List VoidPtr) (under_vol_id : Int) (token : Option Nat) (s : ReqState)
    {Q : ReqState → Prop} : (under objects under_vol_id token s).Meets P F Q ↔
      P ⟨objects, under_vol_id, s.req⟩ ∧ Q (s.answer token) := by
  simp [under]

def ReqState.made (s : ReqState) : ReqState :=
  { s with next := s.next + 1, live := s.next :: s.live, ptr_cnt := s.ptr_cnt + 1 }

@[simp] theorem meets_newObj (helper : Bool) (under_vol_id : VolId) (s : ReqState) {Q : Nat × ReqState → Prop} :
    (newObj helper under_vol_id s).Meets P F Q ↔ if helper then Q (s.next, s.made) else F .assert := by
  have hid : decide ((under_vol_id : Int) ≠ 0) = true := decide_eq_true (Int.ne_of_gt under_vol_id.2)
  rw [newObj, Traced.meets_bind, hid, meets_cAssert, if_pos rfl]
  simp [ReqState.made]

end

/-- **Only reading the helper can go wrong when a request is wrapped.** -/
theorem checkAsync_only (o : Option Wrapper) (under_vol_id : Int) (s : ReqState) :
    OnlyUnder (checkAsync o under_vol_id s) ↔ (o = none → s.pending = false) := by
  unfold OnlyUnder checkAsync ReqState.pending
  cases o with
  | none => split <;> simp_all
  | some o => split <;> simp [newObj]

/-! ## The callbacks -/

theorem under_checkAsync_only {objects : List VoidPtr} (hobjects : ∀ p ∈ objects, p.isWrapper = false)
    (under_vol_id : Int) (o : Option Wrapper) (token : Option Nat) (s : ReqState) :
    OnlyUnder (under objects under_vol_id token s >>= checkAsync o under_vol_id) ↔
      (o = none → (s.answer token).pending = false) := by
  unfold OnlyUnder
  rw [Traced.meets_bind, meets_under]
  exact (and_iff_right hobjects).trans (checkAsync_only o under_vol_id _)

theorem underOf_isWrapper (o : Option Wrapper) : (underOf o).isWrapper = false := by
  cases o <;> rfl

theorem forward_only (o : Wrapper) (token : Option Nat) (s : ReqState) : OnlyUnder (forward o token s) :=
  (under_checkAsync_only (by simp [VoidPtr.isWrapper]) o.under_vol_id (some o) token s).2 nofun

theorem linkCreate_only (args : LinkArgs (Option Wrapper)) (o : Option Wrapper) (token : Option Nat) (s : ReqState) :
    OnlyUnder (linkCreate args o token s) ↔ (o = none → (s.answer token).pending = false) := by
  unfold linkCreate
  apply under_checkAsync_only
  intro p hp
  obtain rfl | hp := List.mem_cons.1 hp
  · exact underOf_isWrapper o
  · -- the target is replaced in the copy of the arguments
    cases args with
    | hard curr_obj =>
      cases curr_obj with
      | none =>
        obtain rfl := List.mem_singleton.1 hp
        rfl
      | some curr_obj =>
        obtain rfl := List.mem_singleton.1 hp
        rfl
    | soft => cases hp
    | ud => cases hp

theorem linkTwo_only (o_src o_dst : Option Wrapper) (token : Option Nat) (s : ReqState) :
    OnlyUnder (linkTwo o_src o_dst token s) ↔
      (o_src.isSome → o_dst = none → (s.answer token).pending = false) := by
  have hobjects : ∀ p ∈ [underOf o_src, underOf o_dst], p.isWrapper = false := by
    intro p hp
    simp only [List.mem_cons, List.not_mem_nil, or_false] at hp
    obtain rfl | rfl := hp <;> exact underOf_isWrapper _
  have hpass : ∀ id : VolId, OnlyUnder (do
      Traced.quiet (cAssert (decide ((id : Int) > 0)))
      let s ← under [underOf o_src, underOf o_dst] id token s
      checkAsync o_dst id s) ↔ (o_dst = none → (s.answer token).pending = false) := by
    intro id
    rw [OnlyUnder, Traced.meets_bind, meets_cAssert, decide_eq_true id.2, if_pos rfl]
    exact under_checkAsync_only hobjects id o_dst token s
  unfold linkTwo
  cases o_src with
  | some o => simpa using hpass o.under_vol_id
  | none =>
    cases o_dst with
    | some o => simpa using hpass o.under_vol_id
    | none => simp [OnlyUnder]

theorem objectCopy_only (o_src o_dst : Wrapper) (token : Option Nat) (s : ReqState) :
    OnlyUnder (objectCopy o_src o_dst token s) :=
  (under_checkAsync_only (by simp [VoidPtr.isWrapper]) o_src.under_vol_id (some o_dst) token s).2 nofun

/-- A mounted file goes down as it came. -/
theorem groupSpecific_only (o : Wrapper) (args : GroupArgs Wrapper) (ret : Bool) (token : Option Nat) (s : ReqState) :
    OnlyUnder (groupSpecific o args ret token s) ↔ (∀ c, args ≠ .mount c) ∧ (args = .refresh → ret = false) := by
  have hwrap : ∀ s, OnlyUnder (checkAsync (some o) o.under_vol_id s) := fun s => (checkAsync_only _ _ s).2 nofun
  unfold OnlyUnder at *
  unfold groupSpecific
  cases args with
  | mount c => simp [Handed.NoWrapper, GroupArgs.map, GroupArgs.objects, VoidPtr.isWrapper]
  | unmount => simp [Handed.NoWrapper, GroupArgs.map, GroupArgs.objects, VoidPtr.isWrapper, hwrap]
  | flush => simp [Handed.NoWrapper, GroupArgs.map, GroupArgs.objects, VoidPtr.isWrapper, hwrap]
  | refresh => cases ret <;> simp [Handed.NoWrapper, GroupArgs.map, GroupArgs.objects, VoidPtr.isWrapper, hwrap]

theorem byName_only (file : Option Wrapper) (info : Option VolId) (token : Option Nat) (s : ReqState) :
    OnlyUnder (byName file info token s) ↔ (info.isSome → file = none → (s.answer token).pending = false) := by
  unfold byName
  cases info with
  | none => simp [OnlyUnder]
  | some under_vol_id =>
    simpa using under_checkAsync_only (by simp [VoidPtr.isWrapper]) under_vol_id file token s

theorem fileOpenCommon_only (file : Nat) (vol_id : VolId) (s : ReqState) : OnlyUnder (fileOpenCommon true file vol_id s) := by
  simp [OnlyUnder, fileOpenCommon, Handed.NoWrapper, VoidPtr.isWrapper]

theorem reopen_only (o : Wrapper) (ret : Bool) (reopened token : Option Nat) (s : ReqState) :
    OnlyUnder (fileSpecific (.reopen o) ret reopened token s) := by
  refine (Traced.meets_bind _ _).2 ((forward_only o token s).mono fun s' _ => ?_)
  cases ret with
  | false => simp
  | true =>
    cases reopened with
    | none => simp
    | some file => exact (Traced.meets_bind _ _).2 ((fileOpenCommon_only file o.under_vol_id s').mono fun _ _ => by simp)

/-- **Only underlying objects reach the connector below, and no NULL wrapper is read, exactly if the callback is no file
mount, no group refresh that succeeds, and with a request pending gets the object that it takes the helper from.** -/
theorem only_under_iff (f : Forward) (token : Option Nat) (s : ReqState) :
    OnlyUnder (f.run token s) ↔ f.Sound (s.answer token).pending := by
  cases f with
  | linkCreate args o => exact linkCreate_only args o token s
  | linkCopy o_src o_dst => exact linkTwo_only o_src o_dst token s
  | linkMove o_src o_dst => exact linkTwo_only o_src o_dst token s
  | objectCopy o_src o_dst => exact iff_of_true (objectCopy_only o_src o_dst token s) trivial
  | groupSpecific o args ret => exact groupSpecific_only o args ret token s
  | fileSpecific args ret reopened =>
    cases args with
    | isAccessible file info => exact byName_only file info token s
    | delete file info => exact byName_only file info token s
    | reopen o => exact iff_of_true (reopen_only o ret reopened token s) trivial
    | other o => exact iff_of_true (forward_only o token s) trivial

/-- **A file is mounted on a group**: the connector below gets the wrapper of the file. -/
theorem mount_hands_wrapper : ∃ (o child : Wrapper) (s : ReqState), s.req = none ∧
    ¬ OnlyUnder (Forward.run (.groupSpecific o (.mount child) true) none s) := by
  refine ⟨⟨0, 0, 1, by decide⟩, ⟨1, 1, 1, by decide⟩, ⟨none, [0, 1], 2, 2, []⟩, rfl, fun honly => ?_⟩
  exact ((groupSpecific_only _ _ _ _ _).1 honly).1 _ rfl

end Forwarding
end Provio
