import Provio.Forwarding
/-!
# Requests — what the callbacks leave in the request pointer

A callback whose one underlying call stores a request token wraps it.  Those that make an object do so only if the call
gave one, the generic optional callback never does, and file create and open pass the pointer that they have already
wrapped to every further call that marks the file (`request_wrapped_iff`).
-/
namespace Provio
namespace Forwarding

open Outward (Traced)

/-! ## Callbacks that make an object -/

/-- `_obj_wrap_under`, which asks for the object's info with NULL for the request. -/
def objWrapUnder (under : Nat) (upper_o : Wrapper) (s : ReqState) : Down (Wrapper × ReqState) := do
  let (a, s) ← newObj true upper_o.under_vol_id s
  let s ← checkAsync (some upper_o) upper_o.under_vol_id s
  Traced.call ⟨[.under under], upper_o.under_vol_id, none⟩
  pure (⟨a, under, upper_o.under_vol_id⟩, s)

/-- `if(under) attr = _obj_wrap_under(under, o, …); else attr = NULL;` -/
def wrapMade (under : Option Nat) (o : Wrapper) (s : ReqState) : Down (Option Wrapper × ReqState) :=
  match under with
  | some under => do
    let (obj, s) ← objWrapUnder under o s
    pure (some obj, s)
  | none => pure (none, s)

/-- What a call stores in `*req`, and the object it gives. -/
structure Answer where
  token : Option Nat
  under : Option Nat

def make (o : Wrapper) (b : Answer) (s : ReqState) : Down ReqState := do
  let s ← under [.under o.under_object] o.under_vol_id b.token s
  let (_, s) ← wrapMade b.under o s
  pure s

def attrCreate := make
def attrOpen := make
def datasetCreate := make
def datasetOpen := make
def datatypeCommit := make
def datatypeOpen := make
def groupCreate := make
def groupOpen := make
def objectOpen := make

/-! ## File create and open -/

/-- What the calls of a file create or open answer, in their order; a write or close gives no object. -/
structure FileAnswers where
  file        : Answer
  group       : Answer
  attr_path   : Answer
  path_write  : Option Nat
  path_close  : Option Nat
  attr_time   : Answer
  time_write  : Option Nat
  time_close  : Option Nat
  group_close : Option Nat

def markAttr (group : Option Wrapper) (create : Answer) (write close : Option Nat) (s : ReqState) : Down ReqState := do
  let group ← deref group
  let s ← under [.under group.under_object] group.under_vol_id create.token s
  let (attr, s) ← wrapMade create.under group s
  let attr ← deref attr
  let s ← under [.under attr.under_object] attr.under_vol_id write s
  under [.under attr.under_object] attr.under_vol_id close s

def markFile (file : Option Wrapper) (b : FileAnswers) (s : ReqState) : Down ReqState := do
  let file ← deref file
  let s ← under [.under file.under_object] file.under_vol_id b.group.token s
  let (group, s) ← wrapMade b.group.under file s
  let s ← markAttr group b.attr_path b.path_write b.path_close s
  let s ← markAttr group b.attr_time b.time_write b.time_close s
  let group ← deref group
  let s ← under [.under group.under_object] group.under_vol_id b.group_close s
  pure (freeObj group s)

/-- `helper` is whether `PROV_HELPER` is set once the file is there. -/
def fileCall (under_vol_id : VolId) (helper : Bool) (mpi_rank_int : Int) (b : FileAnswers) (s : ReqState) :
    Down ReqState := do
  let s ← under [] under_vol_id b.file.token s
  match b.file.under with
  | some file => do
    let (file, s) ← fileOpenCommon helper file under_vol_id s
    let s ← checkAsync (some file) under_vol_id s
    if mpi_rank_int = 0 then markFile (some file) b s else pure s
  | none => if mpi_rank_int = 0 then markFile none b s else pure s

def fileCreate := fileCall
def fileOpen := fileCall

/-! ## Every callback with a request pointer -/

inductive Forwarded where
  | attrRead | attrWrite | attrGet | attrSpecific | attrOptional
  | datasetRead | datasetWrite | datasetGet | datasetSpecific | datasetOptional
  | datatypeGet | datatypeOptional
  | fileGet | fileOptional
  | groupGet | groupOptional
  | linkGet | linkSpecific | linkOptional
  | objectGet | objectSpecific | objectOptional
deriving DecidableEq

def Forwarded.run : Forwarded → Wrapper → Option Nat → ReqState → Down ReqState
  | .attrRead         => Forwarding.attrRead
  | .attrWrite        => Forwarding.attrWrite
  | .attrGet          => Forwarding.attrGet
  | .attrSpecific     => Forwarding.attrSpecific
  | .attrOptional     => Forwarding.attrOptional
  | .datasetRead      => Forwarding.datasetRead
  | .datasetWrite     => Forwarding.datasetWrite
  | .datasetGet       => Forwarding.datasetGet
  | .datasetSpecific  => Forwarding.datasetSpecific
  | .datasetOptional  => Forwarding.datasetOptional
  | .datatypeGet      => Forwarding.datatypeGet
  | .datatypeOptional => Forwarding.datatypeOptional
  | .fileGet          => Forwarding.fileGet
  | .fileOptional     => Forwarding.fileOptional
  | .groupGet         => Forwarding.groupGet
  | .groupOptional    => Forwarding.groupOptional
  | .linkGet          => Forwarding.linkGet
  | .linkSpecific     => Forwarding.linkSpecific
  | .linkOptional     => Forwarding.linkOptional
  | .objectGet        => Forwarding.objectGet
  | .objectSpecific   => Forwarding.objectSpecific
  | .objectOptional   => Forwarding.objectOptional

inductive Closing where
  | attr | dataset | datatype | file | group
deriving DecidableEq

def Closing.run : Closing → Wrapper → Bool → Option Nat → ReqState → Down ReqState
  | .attr     => attrClose
  | .dataset  => datasetClose
  | .datatype => datatypeClose
  | .file     => fileClose
  | .group    => groupClose

inductive Making where
  | attrCreate | attrOpen | datasetCreate | datasetOpen | datatypeCommit | datatypeOpen | groupCreate | groupOpen
  | objectOpen
deriving DecidableEq

def Making.run : Making → Wrapper → Answer → ReqState → Down ReqState
  | .attrCreate     => Forwarding.attrCreate
  | .attrOpen       => Forwarding.attrOpen
  | .datasetCreate  => Forwarding.datasetCreate
  | .datasetOpen    => Forwarding.datasetOpen
  | .datatypeCommit => Forwarding.datatypeCommit
  | .datatypeOpen   => Forwarding.datatypeOpen
  | .groupCreate    => Forwarding.groupCreate
  | .groupOpen      => Forwarding.groupOpen
  | .objectOpen     => Forwarding.objectOpen

inductive FileMaking where
  | create | open
deriving DecidableEq

def FileMaking.run : FileMaking → VolId → Bool → Int → FileAnswers → ReqState → Down ReqState
  | .create => fileCreate
  | .open   => fileOpen

/-- A callback with its objects and what its underlying calls answer. -/
inductive ReqCallback where
  | forwarded (f : Forwarded) (o : Wrapper) (token : Option Nat)
  | closing (f : Closing) (o : Wrapper) (ret : Bool) (token : Option Nat)
  | forward (f : Forward) (token : Option Nat)
  | datatypeSpecific (o : Wrapper) (refresh ret : Bool) (token : Option Nat)
  | making (f : Making) (o : Wrapper) (b : Answer)
  | fileMaking (f : FileMaking) (under_vol_id : VolId) (helper : Bool) (mpi_rank_int : Int) (b : FileAnswers)
  | optional (o : Wrapper) (token : Option Nat)

def ReqCallback.run : ReqCallback → ReqState → Down ReqState
  | .forwarded f o token                                 => f.run o token
  | .closing f o ret token                               => f.run o ret token
  | .forward f token                                     => f.run token
  | .datatypeSpecific o refresh ret token                => Forwarding.datatypeSpecific o refresh ret token
  | .making f o b                                        => f.run o b
  | .fileMaking f under_vol_id helper mpi_rank_int b     => f.run under_vol_id helper mpi_rank_int b
  | .optional o token                                    => Forwarding.optional o token

/-! ## Requests that are wrapped once -/

/-- The wrappers are counted, and `newObj` gives none twice. -/
structure ReqState.Counted (s : ReqState) : Prop where
  count : s.ptr_cnt = s.live.length
  fresh : ∀ a ∈ s.live, a < s.next

/-- `*req` is as it was, or the wrapper of a token. -/
def Wrapped (req req' : Option Req) (live : List Nat) : Prop :=
  req' = req ∨ ∃ a t, req' = some (.wrapper a (.token t)) ∧ a ∈ live

/-- What a callback leaves behind. -/
structure ReqState.Settled (s s' : ReqState) : Prop where
  wrapped : Wrapped s.req s'.req s'.live
  lost    : s'.lost = s.lost
  counted : s'.Counted

def Handed.PlainReq (c : Handed) : Prop := ∀ r, c.req = some r → r.isWrapper = false

/-- **No call gets a wrapper for its request**, and on return `*req` is as it was or wraps a token, no wrapper was
written over, and the wrappers are counted. -/
def RequestSafe (m : Down ReqState) (s : ReqState) : Prop := m.Meets Handed.PlainReq (fun _ => True) s.Settled

/-- On rank 0 nothing is stored, but for what comes after the last object that was made when a missing one ends the
callback. -/
def FileAnswers.Quiet (b : FileAnswers) : Prop :=
  b.file.token = none ∧ (b.group.under = none ∨ b.group.token = none ∧
    (b.attr_path.under = none ∨ b.attr_path.token = none ∧
      (b.attr_time.under = none ∨ b.attr_time.token = none ∧ b.path_write = none ∧ b.path_close = none ∧
        b.time_write = none ∧ b.time_close = none ∧ b.group_close = none)))

def ReqCallback.Fits : ReqCallback → Prop
  | .forwarded _ _ _ | .closing _ _ _ _ | .forward _ _ | .datatypeSpecific _ _ _ _ => True
  | .making _ _ b => b.token.isSome → b.under.isSome
  | .fileMaking _ _ helper mpi_rank_int b =>
    if mpi_rank_int = 0 then b.file.under = none ∨ helper = false ∨ b.Quiet else b.file.token.isSome → b.file.under.isSome
  | .optional _ token => token = none

def ReqCallback.closes : ReqCallback → Option Wrapper
  | .closing _ o _ _ => some o
  | _                => none

/-! ## What every step does to the state -/

/-- `*req` wrapped, if it is not NULL. -/
def ReqState.async (s : ReqState) : ReqState :=
  match s.req with
  | none | some .null => s
  | some r            => { s.made with req := some (.wrapper s.next r) }

section

variable {P : Handed → Prop} {F : Fault → Prop} {Q : ReqState → Prop} {s : ReqState}

@[simp] theorem meets_checkAsync (o : Wrapper) (under_vol_id : VolId) :
    (checkAsync (some o) under_vol_id s).Meets P F Q ↔ Q s.async := by
  unfold checkAsync ReqState.async
  split <;> simp [*]

@[simp] theorem meets_forward (o : Wrapper) (token : Option Nat) :
    (forward o token s).Meets P F Q ↔
      P ⟨[.under o.under_object], o.under_vol_id, s.req⟩ ∧ Q (s.answer token).async := by
  simp [forward]

@[simp] theorem meets_objWrapUnder (under : Nat) (o : Wrapper) {Q : Wrapper × ReqState → Prop} :
    (objWrapUnder under o s).Meets P F Q ↔
      P ⟨[.under under], o.under_vol_id, none⟩ ∧ Q (⟨s.next, under, o.under_vol_id⟩, s.made.async) := by
  simp [objWrapUnder]

end

/-! ### Counting -/

section

variable {s : ReqState} {token : Option Nat}

@[simp] theorem answer_live : (s.answer token).live = s.live := by
  unfold ReqState.answer
  split <;> rfl

@[simp] theorem answer_next : (s.answer token).next = s.next := by
  unfold ReqState.answer
  split <;> rfl

@[simp] theorem answer_ptr_cnt : (s.answer token).ptr_cnt = s.ptr_cnt := by
  unfold ReqState.answer
  split <;> rfl

@[simp] theorem made_live : s.made.live = s.next :: s.live := rfl

@[simp] theorem made_req : s.made.req = s.req := rfl

@[simp] theorem made_lost : s.made.lost = s.lost := rfl

theorem ReqState.Counted.answer (h : s.Counted) : (s.answer token).Counted :=
  ⟨by simpa using h.count, by simpa using h.fresh⟩

theorem ReqState.Counted.made (h : s.Counted) : s.made.Counted := by
  constructor
  · show s.ptr_cnt + 1 = ((s.next :: s.live).length : Int)
    rw [h.count]
    simp
  · intro a ha
    show a < s.next + 1
    obtain rfl | ha := List.mem_cons.1 ha
    · exact Nat.lt_succ_self _
    · exact Nat.lt_succ_of_lt (h.fresh a ha)

theorem ReqState.Counted.async (h : s.Counted) : s.async.Counted := by
  unfold ReqState.async
  split
  · exact h
  · exact h
  · exact ⟨h.made.count, h.made.fresh⟩

theorem ReqState.Counted.free (h : s.Counted) {o : Wrapper} (ho : o.addr ∈ s.live) : (freeObj o s).Counted := by
  have hpos := List.length_pos_of_mem ho
  constructor
  · show s.ptr_cnt - 1 = ((s.live.erase o.addr).length : Int)
    rw [h.count, List.length_erase_of_mem ho]
    omega
  · exact fun a ha => h.fresh a (List.mem_of_mem_erase ha)

end

/-! ### The request of one call -/

def Left (req : Option Req) (token : Option Nat) : Prop := req = none ∨ token = none

section

variable {s : ReqState} {token : Option Nat}

/-- HDF5 hands down NULL, or the address of a NULL. -/
def ReqState.Idle (s : ReqState) : Prop := s.req = none ∨ s.req = some .null

theorem answer_left (h : Left s.req token) : s.answer token = s := by
  unfold ReqState.answer
  obtain h | h := h
  · rw [h]
  · rw [h]
    split <;> simp_all

theorem ReqState.Idle.answer_stored (hs : s.Idle) (h : ¬ Left s.req token) :
    ∃ t, token = some t ∧ s.answer token = { s with req := some (.token t) } := by
  obtain hs | hs := hs
  · exact absurd (.inl hs) h
  · cases token with
    | none => exact absurd (.inr rfl) h
    | some t => exact ⟨t, rfl, by simp [ReqState.answer, hs]⟩

theorem ReqState.Idle.async (hs : s.Idle) : s.async = s := by
  obtain hs | hs := hs <;> simp [ReqState.async, hs]

theorem ReqState.Idle.plain (hs : s.Idle) (objects : List VoidPtr) (under_vol_id : Int) :
    Handed.PlainReq ⟨objects, under_vol_id, s.req⟩ := by
  intro r hr
  obtain hs | hs := hs
  · rw [hs] at hr
    cases hr
  · rw [hs] at hr
    cases hr
    rfl

theorem plainReq_none (objects : List VoidPtr) (under_vol_id : Int) : Handed.PlainReq ⟨objects, under_vol_id, none⟩ := nofun

theorem plainReq_token {req : Option Req} {t : Nat} (h : req = some (.token t)) (objects : List VoidPtr)
    (under_vol_id : Int) : Handed.PlainReq ⟨objects, under_vol_id, req⟩ := by
  intro r hr
  rw [h] at hr
  cases hr
  rfl

theorem not_plainReq {req : Option Req} {a : Nat} {r : Req} (h : req = some (.wrapper a r)) (objects : List VoidPtr)
    (under_vol_id : Int) : ¬ Handed.PlainReq ⟨objects, under_vol_id, req⟩ :=
  fun hplain => absurd (hplain _ h) (by simp [Req.isWrapper])

end

/-! ## Callbacks with one call -/

section

variable {s : ReqState}

theorem async_settled (hs : s.Idle) (hc : s.Counted) (token : Option Nat) : s.Settled (s.answer token).async := by
  by_cases hleft : Left s.req token
  · rw [answer_left hleft, hs.async]
    exact ⟨.inl rfl, rfl, hc⟩
  · obtain ⟨t, -, heq⟩ := hs.answer_stored hleft
    have hcounted := (show (s.answer token).Counted from hc.answer).async
    rw [heq] at hcounted ⊢
    exact ⟨.inr ⟨s.next, t, rfl, List.mem_cons_self⟩, rfl, hcounted⟩

/-- Wrapping may end the callback, for want of a helper or an ID. -/
theorem checkAsync_meets {P : Handed → Prop} {Q : ReqState → Prop} (o : Option Wrapper) (under_vol_id : Int)
    (h : Q s.async) : (checkAsync o under_vol_id s).Meets P (fun _ => True) Q := by
  unfold checkAsync
  unfold ReqState.async at h
  split
  · simp_all
  · simp_all
  · rename_i r hnull hreq
    cases o with
    | none => simp
    | some o =>
      by_cases hid : under_vol_id = 0
      · simp [newObj, hid]
      · rw [hreq] at h
        simpa [newObj, hid, ReqState.made] using h

theorem under_checkAsync_safe (hs : s.Idle) (hc : s.Counted) (objects : List VoidPtr) (under_vol_id : Int)
    (o : Option Wrapper) (token : Option Nat) :
    RequestSafe (under objects under_vol_id token s >>= checkAsync o under_vol_id) s := by
  rw [RequestSafe, Traced.meets_bind, meets_under]
  exact ⟨hs.plain objects under_vol_id, checkAsync_meets o under_vol_id (async_settled hs hc token)⟩

theorem forward_safe (hs : s.Idle) (hc : s.Counted) (o : Wrapper) (token : Option Nat) :
    RequestSafe (forward o token s) s :=
  under_checkAsync_safe hs hc _ _ _ _

theorem closeObj_safe (hs : s.Idle) (hc : s.Counted) {o : Wrapper} (ho : o.addr ∈ s.live) (ret : Bool)
    (token : Option Nat) : RequestSafe (closeObj o ret token s) s := by
  rw [RequestSafe, closeObj, Traced.meets_bind, meets_forward]
  refine ⟨hs.plain _ _, (Traced.meets_pure _).2 ?_⟩
  have hsettled := async_settled hs hc token
  cases ret with
  | false => exact hsettled
  | true =>
    have hmem : o.addr ∈ ((s.answer token).async).live := by
      unfold ReqState.async
      split <;> simp [ho]
    refine ⟨?_, hsettled.lost, hsettled.counted.free hmem⟩
    by_cases hleft : Left s.req token
    · left
      rw [answer_left hleft, hs.async]
      rfl
    · -- the wrapper of the request is not the one that goes
      obtain ⟨t, -, heq⟩ := hs.answer_stored hleft
      right
      rw [heq]
      refine ⟨s.next, t, rfl, ?_⟩
      have hne : o.addr ≠ s.next := Nat.ne_of_lt (hc.fresh _ ho)
      exact (List.mem_erase_of_ne hne.symm).2 List.mem_cons_self

theorem linkTwo_safe (hs : s.Idle) (hc : s.Counted) (o_src o_dst : Option Wrapper) (token : Option Nat) :
    RequestSafe (linkTwo o_src o_dst token s) s := by
  have hpass : ∀ id : Int, RequestSafe (do
      Traced.quiet (cAssert (decide (id > 0)))
      let s ← under [underOf o_src, underOf o_dst] id token s
      checkAsync o_dst id s) s := by
    intro id
    rw [RequestSafe, Traced.meets_bind, meets_cAssert]
    by_cases hid : id > 0
    · rw [if_pos (decide_eq_true hid)]
      exact under_checkAsync_safe hs hc _ _ _ _
    · rw [if_neg (by simpa using hid)]
      trivial
  exact hpass _

theorem byName_safe (hs : s.Idle) (hc : s.Counted) (file : Option Wrapper) (info : Option VolId) (token : Option Nat) :
    RequestSafe (byName file info token s) s := by
  unfold byName
  cases info with
  | none => exact (Traced.meets_pure _).2 ⟨.inl rfl, rfl, hc⟩
  | some under_vol_id => exact under_checkAsync_safe hs hc _ _ _ _

theorem ReqState.Settled.made {s' : ReqState} (h : s.Settled s') : s.Settled s'.made := by
  refine ⟨?_, h.lost, h.counted.made⟩
  obtain hsame | ⟨a, t, hreq, ha⟩ := h.wrapped
  · exact .inl hsame
  · exact .inr ⟨a, t, hreq, List.mem_cons_of_mem _ ha⟩

theorem reopen_safe (hs : s.Idle) (hc : s.Counted) (o : Wrapper) (ret : Bool) (reopened token : Option Nat) :
    RequestSafe (fileSpecific (.reopen o) ret reopened token s) s := by
  refine (Traced.meets_bind _ _).2 ((forward_safe hs hc o token).mono fun s' hsettled => ?_)
  cases ret with
  | false => simpa using hsettled
  | true =>
    cases reopened with
    | none => simpa using hsettled
    | some file => simpa [fileOpenCommon, plainReq_none] using hsettled.made

/-- The read of `o->under_object` after a refresh may end the callback. -/
theorem refresh_safe (hs : s.Idle) (hc : s.Counted) (objects : List VoidPtr) (o : Wrapper) (refresh ret : Bool)
    (token : Option Nat) : RequestSafe (do
      let s ← under objects o.under_vol_id token s
      if refresh then
        let o ← deref (if ret then none else some o)
        Traced.call ⟨[.under o.under_object], o.under_vol_id, none⟩
      checkAsync (some o) o.under_vol_id s) s := by
  rw [RequestSafe, Traced.meets_bind, meets_under]
  refine ⟨hs.plain _ _, ?_⟩
  cases refresh with
  | false => simpa using async_settled hs hc token
  | true =>
    cases ret with
    | false => simpa [plainReq_none] using async_settled hs hc token
    | true => simp

theorem groupSpecific_safe (hs : s.Idle) (hc : s.Counted) (o : Wrapper) (args : GroupArgs Wrapper) (ret : Bool)
    (token : Option Nat) : RequestSafe (groupSpecific o args ret token s) s := by
  have h := refresh_safe hs hc (.under o.under_object :: (args.map VoidPtr.wrapper).objects) o (decide (args = .refresh))
    ret token
  simpa [groupSpecific] using h

theorem Forward.safe (hs : s.Idle) (hc : s.Counted) (f : Forward) (token : Option Nat) : RequestSafe (f.run token s) s := by
  cases f with
  | linkCreate args o => exact under_checkAsync_safe hs hc _ _ _ _
  | linkCopy o_src o_dst => exact linkTwo_safe hs hc o_src o_dst token
  | linkMove o_src o_dst => exact linkTwo_safe hs hc o_src o_dst token
  | objectCopy o_src o_dst => exact under_checkAsync_safe hs hc _ _ _ _
  | groupSpecific o args ret => exact groupSpecific_safe hs hc o args ret token
  | fileSpecific args ret reopened =>
    cases args with
    | isAccessible file info => exact byName_safe hs hc file info token
    | delete file info => exact byName_safe hs hc file info token
    | reopen o => exact reopen_safe hs hc o ret reopened token
    | other o => exact forward_safe hs hc o token

end

/-! ## Requests that stay bare -/

section

variable {s : ReqState}

/-- **What is stored and not wrapped is no wrapper.** -/
theorem settled_answer_iff (hs : s.Idle) (hc : s.Counted) (token : Option Nat) :
    s.Settled (s.answer token) ↔ Left s.req token := by
  constructor
  · intro hsettled
    by_contra hleft
    obtain ⟨t, -, heq⟩ := hs.answer_stored hleft
    obtain hsame | ⟨a, t', hreq, -⟩ := hsettled.wrapped
    · rw [heq] at hsame
      obtain hs | hs := hs <;> rw [hs] at hsame <;> simp at hsame
    · rw [heq] at hreq
      simp at hreq
  · intro hleft
    rw [answer_left hleft]
    exact ⟨.inl rfl, rfl, hc⟩

theorem optional_safe_iff (hs : s.Idle) (hc : s.Counted) (o : Wrapper) (token : Option Nat) :
    RequestSafe (optional o token s) s ↔ Left s.req token := by
  rw [RequestSafe, optional, meets_under, settled_answer_iff hs hc]
  exact and_iff_right (hs.plain _ _)

theorem made_async_settled (hs : s.Idle) (hc : s.Counted) (token : Option Nat) :
    s.Settled ((s.answer token).made.async) := by
  by_cases hleft : Left s.req token
  · have hidle : s.made.Idle := hs
    rw [answer_left hleft, hidle.async]
    exact ⟨.inl rfl, rfl, hc.made⟩
  · obtain ⟨t, -, heq⟩ := hs.answer_stored hleft
    have hcounted := (show (s.answer token).Counted from hc.answer).made.async
    rw [heq] at hcounted ⊢
    exact ⟨.inr ⟨_, t, rfl, List.mem_cons_self⟩, rfl, hcounted⟩

/-- **A request is wrapped together with the object.** -/
theorem make_safe_iff (hs : s.Idle) (hc : s.Counted) (o : Wrapper) (b : Answer) :
    RequestSafe (make o b s) s ↔ Left s.req b.token ∨ b.under.isSome := by
  rw [RequestSafe, make, Traced.meets_bind, meets_under]
  refine (and_iff_right (hs.plain _ _)).trans ?_
  cases hunder : b.under with
  | none => simpa [wrapMade] using settled_answer_iff hs hc b.token
  | some u => simpa [wrapMade, plainReq_none] using made_async_settled hs hc b.token

end

/-! ## File create and open -/

section

variable {s s' : ReqState}

/-- A state on the way, with `*req` as it was. -/
structure ReqState.Still (s s' : ReqState) : Prop where
  req     : s'.req = s.req
  lost    : s'.lost = s.lost
  counted : s'.Counted

theorem ReqState.Still.idle (h : s.Still s') (hs : s.Idle) : s'.Idle := by
  unfold ReqState.Idle
  rw [h.req]
  exact hs

theorem ReqState.Still.made (h : s.Still s') : s.Still s'.made := ⟨h.req, h.lost, h.counted.made⟩

theorem ReqState.Still.left (h : s.Still s') {token : Option Nat} (hleft : Left s.req token) : s'.answer token = s' := by
  rw [← h.req] at hleft
  exact answer_left hleft

theorem ReqState.Still.stored (h : s.Still s') (hs : s.Idle) {token : Option Nat} (hleft : ¬ Left s.req token) :
    ∃ t, s'.answer token = { s' with req := some (.token t) } := by
  rw [← h.req] at hleft
  obtain ⟨t, -, heq⟩ := (h.idle hs).answer_stored hleft
  exact ⟨t, heq⟩

def ReqState.Bare (s : ReqState) : Prop := ∃ t, s.req = some (.token t)

theorem ReqState.Bare.answer (hs : s.Bare) (token : Option Nat) : (s.answer token).Bare := by
  obtain ⟨t, ht⟩ := hs
  cases token with
  | none => exact ⟨t, by simp [ReqState.answer, ht]⟩
  | some t' => exact ⟨t', by simp [ReqState.answer, ht]⟩

theorem ReqState.Bare.plain (hs : s.Bare) (objects : List VoidPtr) (under_vol_id : Int) :
    Handed.PlainReq ⟨objects, under_vol_id, s.req⟩ := by
  obtain ⟨t, ht⟩ := hs
  exact plainReq_token ht objects under_vol_id

/-- **A bare token is wrapped where an object is, and the next call would get the wrapper.** -/
theorem ReqState.Bare.not_plain (hs : s.Bare) (objects : List VoidPtr) (under_vol_id : Int) :
    ¬ Handed.PlainReq ⟨objects, under_vol_id, s.made.async.req⟩ := by
  obtain ⟨t, ht⟩ := hs
  apply not_plainReq (a := s.made.next) (r := .token t)
  simp [ReqState.async, ht]

theorem ReqState.Still.bare (h : s.Still s') (hs : s.Idle) {token : Option Nat} (hleft : ¬ Left s.req token) :
    (s'.answer token).Bare := by
  obtain ⟨t, heq⟩ := h.stored hs hleft
  rw [heq]
  exact ⟨t, rfl⟩

theorem meets_markAttr (group : Wrapper) (create : Answer) (write close : Option Nat) {Q : ReqState → Prop} :
    (markAttr (some group) create write close s).Meets Handed.PlainReq (fun _ => True) Q ↔
      Handed.PlainReq ⟨[.under group.under_object], group.under_vol_id, s.req⟩ ∧
      ∀ u, create.under = some u →
        Handed.PlainReq ⟨[.under u], group.under_vol_id, (s.answer create.token).made.async.req⟩ ∧
        Handed.PlainReq ⟨[.under u], group.under_vol_id, ((s.answer create.token).made.async.answer write).req⟩ ∧
        Q (((s.answer create.token).made.async.answer write).answer close) := by
  simp only [markAttr, Traced.meets_bind, meets_deref, meets_under]
  cases create.under <;> simp [wrapMade, plainReq_none]

theorem markAttr_still (h : s.Still s') (hs : s.Idle) (group : Wrapper) (create : Answer) (write close : Option Nat)
    {Q : ReqState → Prop} : (markAttr (some group) create write close s').Meets Handed.PlainReq (fun _ => True) Q ↔
      create.under = none ∨ Left s.req create.token ∧ Q ((s'.made.answer write).answer close) := by
  have hidle := h.idle hs
  rw [meets_markAttr, and_iff_right (hidle.plain _ _)]
  cases hunder : create.under with
  | none => simp
  | some u =>
    simp only [Option.some.injEq, forall_eq', reduceCtorEq, false_or]
    by_cases hleft : Left s.req create.token
    · have hmade : s'.made.Idle := h.made.idle hs
      have hwrite : Handed.PlainReq ⟨[.under u], group.under_vol_id, (s'.made.answer write).req⟩ := by
        by_cases hw : Left s.req write
        · rw [h.made.left hw]
          exact hmade.plain _ _
        · exact (h.made.bare hs hw).plain _ _
      rw [h.left hleft, hmade.async]
      exact ⟨fun hall => ⟨hleft, hall.2.2⟩, fun hall => ⟨hmade.plain _ _, hwrite, hall.2⟩⟩
    · have hnot := (h.bare hs hleft).not_plain [.under u] group.under_vol_id
      exact ⟨fun hall => absurd hall.1 hnot, fun hall => absurd hall.1 hleft⟩

theorem markAttr_bare (h : s'.Bare) (group : Wrapper) (create : Answer) (write close : Option Nat) {Q : ReqState → Prop} :
    (markAttr (some group) create write close s').Meets Handed.PlainReq (fun _ => True) Q ↔ create.under = none := by
  rw [meets_markAttr, and_iff_right (h.plain _ _)]
  cases hunder : create.under with
  | none => simp
  | some u =>
    have hnot := (h.answer create.token).not_plain [.under u] group.under_vol_id
    simp only [Option.some.injEq, forall_eq', reduceCtorEq, iff_false]
    exact fun hall => hnot hall.1

def closeGroup (group : Wrapper) (token : Option Nat) (s : ReqState) : Down ReqState := do
  let s ← under [.under group.under_object] group.under_vol_id token s
  pure (freeObj group s)

theorem closeGroup_still (h : s.Still s') (hs : s.Idle) {group : Wrapper} (hgroup : group.addr ∈ s'.live)
    (token : Option Nat) : (closeGroup group token s').Meets Handed.PlainReq (fun _ => True) s.Settled ↔
      Left s.req token := by
  rw [closeGroup, Traced.meets_bind, meets_under, and_iff_right ((h.idle hs).plain _ _), Traced.meets_pure]
  by_cases hleft : Left s.req token
  · rw [h.left hleft]
    exact iff_of_true ⟨.inl h.req, h.lost, h.counted.free hgroup⟩ hleft
  · refine iff_of_false (fun hsettled => ?_) hleft
    obtain ⟨t, heq⟩ := h.stored hs hleft
    have hwrapped := hsettled.wrapped
    rw [heq] at hwrapped
    obtain hsame | ⟨a, t', hreq, -⟩ := hwrapped
    · obtain hs | hs := hs <;> rw [hs] at hsame <;> simp [freeObj] at hsame
    · simp [freeObj] at hreq

theorem closeGroup_bare (h : s'.Bare) (hs : s.Idle) (group : Wrapper) (token : Option Nat) :
    ¬ (closeGroup group token s').Meets Handed.PlainReq (fun _ => True) s.Settled := by
  rw [closeGroup, Traced.meets_bind, meets_under, Traced.meets_pure]
  intro hmeets
  obtain ⟨t, ht⟩ := h.answer token
  obtain hsame | ⟨a, t', hreq, -⟩ := hmeets.2.wrapped
  · have hreq : some (.token t) = s.req := ht.symm.trans hsame
    obtain hs | hs := hs <;> rw [hs] at hreq <;> simp at hreq
  · have hreq : some (Req.token t) = some (.wrapper a (.token t')) := ht.symm.trans hreq
    simp at hreq

/-- **The second attribute and the end.** -/
theorem markRest_iff (h : s.Still s') (hs : s.Idle) {group : Wrapper} (hgroup : group.addr ∈ s'.live) (b : FileAnswers) :
    (markAttr (some group) b.attr_time b.time_write b.time_close s').Meets Handed.PlainReq (fun _ => True)
      (fun s'' => (closeGroup group b.group_close s'').Meets Handed.PlainReq (fun _ => True) s.Settled) ↔
      b.attr_time.under = none ∨ Left s.req b.attr_time.token ∧ Left s.req b.time_write ∧ Left s.req b.time_close ∧
        Left s.req b.group_close := by
  rw [markAttr_still h hs]
  refine or_congr_right (and_congr_right fun _ => ?_)
  by_cases hwrite : Left s.req b.time_write
  · rw [h.made.left hwrite, and_iff_right hwrite]
    by_cases hclose : Left s.req b.time_close
    · rw [h.made.left hclose, and_iff_right hclose]
      exact closeGroup_still h.made hs (List.mem_cons_of_mem _ hgroup) b.group_close
    · exact iff_of_false (closeGroup_bare (h.made.bare hs hclose) hs group _) fun hall => hclose hall.1
  · exact iff_of_false (closeGroup_bare ((h.made.bare hs hwrite).answer _) hs group _) fun hall => hwrite hall.1

/-- The conditions under which a file is marked without a wrapper going down. -/
def FileAnswers.Marks (b : FileAnswers) (req : Option Req) : Prop :=
  b.group.under = none ∨ Left req b.group.token ∧ (b.attr_path.under = none ∨ Left req b.attr_path.token ∧
    (b.attr_time.under = none ∨ Left req b.attr_time.token ∧ Left req b.path_write ∧ Left req b.path_close ∧
      Left req b.time_write ∧ Left req b.time_close ∧ Left req b.group_close))

theorem markAttrs_iff (h : s.Still s') (hs : s.Idle) {group : Wrapper} (hgroup : group.addr ∈ s'.live) (b : FileAnswers) :
    (markAttr (some group) b.attr_path b.path_write b.path_close s').Meets Handed.PlainReq (fun _ => True)
      (fun s'' => (markAttr (some group) b.attr_time b.time_write b.time_close s'').Meets Handed.PlainReq (fun _ => True)
        fun s''' => (closeGroup group b.group_close s''').Meets Handed.PlainReq (fun _ => True) s.Settled) ↔
      b.attr_path.under = none ∨ Left s.req b.attr_path.token ∧ (b.attr_time.under = none ∨
        Left s.req b.attr_time.token ∧ Left s.req b.path_write ∧ Left s.req b.path_close ∧ Left s.req b.time_write ∧
          Left s.req b.time_close ∧ Left s.req b.group_close) := by
  rw [markAttr_still h hs]
  refine or_congr_right (and_congr_right fun _ => ?_)
  by_cases hwrite : Left s.req b.path_write
  · rw [h.made.left hwrite, and_iff_right hwrite]
    by_cases hclose : Left s.req b.path_close
    · rw [h.made.left hclose, and_iff_right hclose]
      exact markRest_iff h.made hs (List.mem_cons_of_mem _ hgroup) b
    · rw [markAttr_bare (h.made.bare hs hclose)]
      simp [hclose]
  · rw [markAttr_bare ((h.made.bare hs hwrite).answer _)]
    simp [hwrite]

theorem markFile_iff (h : s.Still s') (hs : s.Idle) (file : Wrapper) (b : FileAnswers) :
    (markFile (some file) b s').Meets Handed.PlainReq (fun _ => True) s.Settled ↔ b.Marks s.req := by
  unfold FileAnswers.Marks
  simp only [markFile, Traced.meets_bind, meets_deref, meets_under]
  rw [and_iff_right ((h.idle hs).plain _ _)]
  cases hunder : b.group.under with
  | none => simp [wrapMade, markAttr]
  | some u =>
    simp only [wrapMade, Traced.meets_bind, meets_objWrapUnder, Traced.meets_pure, reduceCtorEq, false_or]
    rw [and_iff_right (plainReq_none _ _)]
    by_cases hleft : Left s.req b.group.token
    · have hmade : s'.made.Idle := h.made.idle hs
      have hgroup : (⟨s'.next, u, file.under_vol_id⟩ : Wrapper).addr ∈ s'.made.live := List.mem_cons_self
      rw [h.left hleft, hmade.async, and_iff_right hleft, ← markAttrs_iff h.made hs hgroup b]
      simp only [closeGroup, Traced.meets_bind, meets_under, Traced.meets_pure]
    · refine iff_of_false (fun hmeets => ?_) fun hall => hleft hall.1
      have hplain := ((meets_markAttr _ _ _ _).1 hmeets).1
      exact (h.bare hs hleft).not_plain _ _ hplain

theorem fileCall_safe_iff (hs : s.Idle) (hc : s.Counted) (under_vol_id : VolId) (helper : Bool) (mpi_rank_int : Int)
    (b : FileAnswers) : RequestSafe (fileCall under_vol_id helper mpi_rank_int b s) s ↔
      if mpi_rank_int = 0 then b.file.under = none ∨ helper = false ∨ Left s.req b.file.token ∧ b.Marks s.req
      else Left s.req b.file.token ∨ b.file.under.isSome := by
  rw [RequestSafe, fileCall, Traced.meets_bind, meets_under, and_iff_right (hs.plain _ _)]
  cases hfile : b.file.under with
  | none =>
    by_cases hrank : mpi_rank_int = 0
    · simp [hrank, markFile]
    · simpa [hrank] using settled_answer_iff hs hc b.file.token
  | some u =>
    cases helper with
    | false => simp [fileOpenCommon]
    | true =>
      simp only [fileOpenCommon, Traced.meets_bind, meets_newObj, if_true, Traced.meets_call, Traced.meets_pure,
        meets_checkAsync]
      rw [and_iff_right (plainReq_none _ _)]
      by_cases hrank : mpi_rank_int = 0
      · rw [if_pos hrank, if_pos hrank]
        simp only [reduceCtorEq, Bool.true_eq_false, false_or]
        by_cases hleft : Left s.req b.file.token
        · have hmade : s.made.Idle := hs
          have hstill : s.Still s.made := ⟨rfl, rfl, hc.made⟩
          rw [answer_left hleft, hmade.async, and_iff_right hleft]
          exact markFile_iff hstill hs _ b
        · have hstill : s.Still s := ⟨rfl, rfl, hc⟩
          refine iff_of_false (fun hmeets => ?_) fun hall => hleft hall.1
          simp only [markFile, Traced.meets_bind, meets_deref, meets_under] at hmeets
          exact (hstill.bare hs hleft).not_plain _ _ hmeets.1
      · rw [if_neg hrank, if_neg hrank]
        exact iff_of_true (by simpa using made_async_settled hs hc b.file.token) (.inr rfl)

end

/-! ## Every callback -/

theorem forwarded_eq (f : Forwarded) : f.run = forward := by
  cases f <;> rfl

theorem closing_eq (f : Closing) : f.run = closeObj := by
  cases f <;> rfl

theorem making_eq (f : Making) : f.run = make := by
  cases f <;> rfl

theorem fileMaking_eq (f : FileMaking) : f.run = fileCall := by
  cases f <;> rfl

/-- **The request pointer comes back untouched or with one wrapper of a token exactly if there is none, or**: a generic
optional call stores nothing, a call that stores gives its object, and on rank 0 file create and open see nothing
stored. -/
theorem request_wrapped_iff (cb : ReqCallback) (s : ReqState) (hs : s.Idle) (hc : s.Counted)
    (hlive : ∀ o, cb.closes = some o → o.addr ∈ s.live) : RequestSafe (cb.run s) s ↔ s.req = none ∨ cb.Fits := by
  cases cb with
  | forwarded f o token =>
    rw [ReqCallback.run, forwarded_eq]
    exact iff_of_true (forward_safe hs hc o token) (.inr trivial)
  | closing f o ret token =>
    rw [ReqCallback.run, closing_eq]
    exact iff_of_true (closeObj_safe hs hc (hlive o rfl) ret token) (.inr trivial)
  | forward f token => exact iff_of_true (f.safe hs hc token) (.inr trivial)
  | datatypeSpecific o refresh ret token =>
    exact iff_of_true (refresh_safe hs hc _ o refresh ret token) (.inr trivial)
  | making f o b =>
    rw [ReqCallback.run, making_eq, make_safe_iff hs hc]
    cases htoken : b.token <;> simp [Left, ReqCallback.Fits, htoken]
  | fileMaking f under_vol_id helper mpi_rank_int b =>
    rw [ReqCallback.run, fileMaking_eq, fileCall_safe_iff hs hc]
    by_cases hnone : s.req = none
    · simp [Left, FileAnswers.Marks, hnone]
    · have hleft : ∀ token, Left s.req token ↔ token = none := fun token => or_iff_right hnone
      simp only [ReqCallback.Fits, FileAnswers.Quiet, FileAnswers.Marks, hleft, hnone, false_or]
      by_cases hrank : mpi_rank_int = 0
      · rw [if_pos hrank, if_pos hrank]
      · rw [if_neg hrank, if_neg hrank]
        cases b.file.token <;> simp
  | optional o token => exact optional_safe_iff hs hc o token

def oneWrapper : ReqState := ⟨some .null, [0], 1, 1, []⟩

theorem oneWrapper_counted : oneWrapper.Counted := ⟨rfl, by decide⟩

/-- A file is made whose call stores a token; nothing else does. -/
def storesFirst : FileAnswers :=
  ⟨⟨some 5, some 1⟩, ⟨none, some 2⟩, ⟨none, some 3⟩, none, none, ⟨none, some 4⟩, none, none, none⟩

/-- On every other rank than 0. -/
theorem request_wrapped_rank_one : RequestSafe
    (ReqCallback.run (.fileMaking .create ⟨1, by decide⟩ true 1 storesFirst) oneWrapper) oneWrapper :=
  (request_wrapped_iff (.fileMaking .create ⟨1, by decide⟩ true 1 storesFirst) oneWrapper (.inr rfl) oneWrapper_counted
    nofun).2 (.inr fun _ => rfl)

/-- **A file is created on rank 0 and the call stores a request**: the group that marks the file is made with the wrapper
for its request. -/
theorem file_create_hands_wrapper : ¬ RequestSafe
    (ReqCallback.run (.fileMaking .create ⟨1, by decide⟩ true 0 storesFirst) oneWrapper) oneWrapper := by
  intro hsafe
  have hmarks := (fileCall_safe_iff (.inr rfl) oneWrapper_counted ⟨1, by decide⟩ true 0 storesFirst).1 hsafe
  rw [if_pos rfl] at hmarks
  simp [storesFirst, oneWrapper, Left] at hmarks

end Forwarding
end Provio
