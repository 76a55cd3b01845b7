import Mathlib.Data.BitVec
import Provio.Refresh
/-!
# Totals — the bytes that a dataset's node counts

A dataset's node keeps the element count of its dataspace, which set-extent and the two refreshes renew and every
transfer of all elements multiplies with the element size.  What it adds up is what was transferred, for a simple and
for a null dataspace; a scalar one counts no elements until it is refreshed, so what all-element transfers move before
that is missing (`totals_iff`).
-/
namespace Provio

/-- A set-extent, refresh, read or write of one dataset. -/
inductive DsOp where
  | setExtent (o : ProvObj) (ret : Bool) (new_size : List (BitVec 64))
  | refresh (specific : Specific) (o : ProvObj) (wrap_ctx : Addr) (pairs : List Rewrap) (c : TokenCmp) (ret : Bool)
      (extent : Extent)
  | access (x : Xfer) (o : ProvObj) (name : Option CStr) (stack : CStr) (ret : Bool) (npoints : Option (BitVec 64))
      (elapsed : BitVec 64) (t : Ticks)

namespace DsOp

def run (s : Conn) : DsOp → Except Fault Conn
  | .setExtent o ret new_size => Provio.setExtent s o ret new_size
  | .refresh specific o wrap_ctx pairs c ret extent => refreshCall s specific o wrap_ctx pairs c ret extent
  | .access .read o name stack ret npoints elapsed t => do
    let (s, _) ← datasetRead s o name stack ret npoints elapsed t
    pure s
  | .access .write o name stack ret npoints elapsed t => do
    let (s, _) ← datasetWrite s o name stack ret npoints elapsed t
    pure s

def ret : DsOp → Bool
  | .setExtent _ ret _ | .refresh _ _ _ _ _ ret _ | .access _ _ _ _ ret _ _ _ => ret

def On (a : Addr) (info : ObjInfo) (fi : FileInfo) : DsOp → Prop
  | .setExtent o _ _ | .access _ o _ _ _ _ _ _ => o.generic_prov_info = a ∧ o.my_type = .obj .dataset
  | .refresh specific o wrap_ctx pairs _ _ _ => (o.generic_prov_info = a ∧ o.my_type = .obj .dataset) ∧
      specific.readsObject = false ∧ wrap_ctx = info.file_info ∧ ∀ p ∈ pairs, p.Same info fi

end DsOp

def runDsOps : List DsOp → Conn → Except Fault Conn
  | [], s        => .ok s
  | op :: ops, s => op.run s >>= runDsOps ops

/-! ## What is transferred -/

/-- The element count of a dataspace. -/
def pointsOf (ds_class : SpaceClass) (dims : List (BitVec 64)) : BitVec 64 :=
  match ds_class with
  | .scalar         => 1
  | .simple         => dims.foldl (· * ·) 1
  | .null | .noClass => 0

/-- HDF5 tells of a dataset what it is: its rank and class stay. -/
def DsShape.Honest (shape : DsShape) : Prop := shape.npoints = pointsOf shape.ds_class shape.dims

def DsOp.Honest (shape : DsShape) : DsOp → Prop
  | .setExtent _ _ new_size          => shape.ds_class = .simple → new_size.length = shape.dims.length
  | .refresh _ _ _ _ _ _ extent      => extent.npoints = pointsOf shape.ds_class extent.dimensions
  | .access _ _ _ _ _ _ _ _          => True

def DsOp.dims (ds_class : SpaceClass) (dims : List (BitVec 64)) : DsOp → List (BitVec 64)
  | .setExtent _ ret new_size     => if ret ∧ ds_class = .simple then new_size else dims
  | .refresh _ _ _ _ _ ret extent => if ret then extent.dimensions else dims
  | .access _ _ _ _ _ _ _ _       => dims

def DsOp.moves (x : Xfer) (shape : DsShape) (dims : List (BitVec 64)) : DsOp → BitVec 64
  | .access y _ _ _ ret npoints _ _ =>
    if ret ∧ y = x then shape.type_size * npoints.getD (pointsOf shape.ds_class dims) else 0
  | _ => 0

def moved (x : Xfer) (shape : DsShape) : List (BitVec 64) → List DsOp → BitVec 64
  | _, []           => 0
  | dims, op :: ops => op.moves x shape dims + moved x shape (op.dims shape.ds_class dims) ops

def DsOp.isTransfer (x : Xfer) : DsOp → Bool
  | .access y _ _ _ ret _ _ _ => ret && y = x
  | _                         => false

def transfers (x : Xfer) (ops : List DsOp) : Nat := ops.countP (DsOp.isTransfer x)

def DsOp.isRefresh : DsOp → Bool
  | .refresh _ _ _ _ _ ret _ => ret
  | _                        => false

def DsOp.isWhole (x : Xfer) : DsOp → Bool
  | .access y _ _ _ ret npoints _ _ => ret && y = x && npoints.isNone
  | _                               => false

/-- The successful transfers of all elements before the first successful refresh. -/
def blind (x : Xfer) (ops : List DsOp) : Nat := (ops.takeWhile (!·.isRefresh)).countP (DsOp.isWhole x)

/-! ## What is counted -/

def DsInfo.bytes (ds : DsInfo) : Xfer → BitVec 64
  | .read  => ds.total_bytes_read
  | .write => ds.total_bytes_written

def DsInfo.cnt (ds : DsInfo) : Xfer → Int
  | .read  => ds.dataset_read_cnt
  | .write => ds.dataset_write_cnt

def Conn.ds (s : Conn) (a : Addr) : Option DsInfo := (s.PROV_HELPER.bind fun h => h.objs a).map ObjInfo.ds

/-- No failed callback of a run changes a total or a count. -/
def FailuresQuiet (a : Addr) : List DsOp → Conn → Prop
  | [], _        => True
  | op :: ops, s => ∀ s', op.run s = .ok s' →
    (op.ret = false → ∃ ds ds', s.ds a = some ds ∧ s'.ds a = some ds' ∧ ∀ x, ds'.bytes x = ds.bytes x ∧ ds'.cnt x = ds.cnt x) ∧
      FailuresQuiet a ops s'

/-- **The totals are the bytes moved and the counts the transfers that succeeded.** -/
structure TotalsRight (a : Addr) (shape : DsShape) (ops : List DsOp) (s s' : Conn) : Prop where
  totals : ∃ ds, s'.ds a = some ds ∧ ∀ x, ds.bytes x = moved x shape shape.dims ops ∧ ds.cnt x = transfers x ops
  quiet  : FailuresQuiet a ops s

def DsOp.apply (ds : DsInfo) : DsOp → DsInfo
  | .setExtent _ ret new_size               => if ret ∧ ds.ds_class = .simple then ds.setExtent new_size else ds
  | .refresh _ _ _ _ _ ret extent           => if ret then ds.refresh extent else ds
  | .access x _ _ _ ret npoints elapsed _   => if ret then ds.count npoints elapsed x else ds

/-! ## One callback -/

section

variable {a : Addr} {h₀ : ProvHelper} {r : Int} {ds : DsInfo} {info : ObjInfo} {fi : FileInfo} {s s' : Conn}

theorem Conn.Steady.ds_eq (hs : s.Steady a h₀ r ds) (hinfo : h₀.objs a = some info) : s.ds a = some ds := by
  obtain ⟨h, hh, hst⟩ := hs
  rw [Conn.ds, hh, Option.bind_some, hst.node info hinfo]
  rfl

theorem Conn.Steady.of_helper (hs : s.Steady a h₀ r ds) (hh : s'.PROV_HELPER = s.PROV_HELPER) : s'.Steady a h₀ r ds := by
  obtain ⟨h, hsome, hst⟩ := hs
  exact ⟨h, hh.trans hsome, hst⟩

theorem fill_helper {name : Option CStr} {type relation : CStr} (hr : s.fill name type relation = .ok s') :
    s'.PROV_HELPER = s.PROV_HELPER := by
  obtain ⟨_, -, rfl⟩ := fill_eq_ok.1 hr
  rfl

theorem record_helper {io_api func : CStr} {t : Ticks} (hr : s.record io_api func t = .ok s') :
    s'.PROV_HELPER = s.PROV_HELPER := by
  obtain ⟨_, -, rfl⟩ := record_ok hr
  rfl

theorem onSuccess_steady (hs : s.Steady a h₀ r ds) {ret : Bool} {f : ProvHelper → Except Fault ProvHelper} {g : DsInfo}
    (hf : ∀ h h', Steady a h₀ h r ds → f h = .ok h' → Steady a h₀ h' r g) (hr : s.onSuccess ret f = .ok s') :
    s'.Steady a h₀ r (if ret then g else ds) := by
  rcases onSuccess_eq_ok.1 hr with ⟨rfl, hr⟩ | ⟨rfl, rfl⟩
  · obtain ⟨h, h', hh, hrun, rfl⟩ := updHelper_eq_ok.1 hr
    obtain ⟨h₁, hh₁, hst⟩ := hs
    rw [hh] at hh₁
    cases hh₁
    exact ⟨h', rfl, hf h h' hst hrun⟩
  · exact hs

theorem updateDs_ok {h₁ h₁' : ProvHelper} (hst : Steady a h₀ h₁ r ds) (hinfo : h₀.objs a = some info) {f : DsInfo → DsInfo}
    (hr : updateDs h₁ a f = .ok h₁') : Steady a h₀ h₁' r (f ds) := by
  obtain ⟨h₂, hrun, hst'⟩ := hst.updateDs hinfo f
  rw [hr] at hrun
  cases hrun
  exact hst'

theorem countXfer_steady (hs : s.Steady a h₀ r ds) (hinfo : h₀.objs a = some info) {o : ProvObj}
    (ha : o.generic_prov_info = a) {ret : Bool} {npoints : Option (BitVec 64)} {elapsed : BitVec 64} {x : Xfer}
    (hr : s.countXfer o ret npoints elapsed x = .ok s') :
    s'.Steady a h₀ r (if ret then ds.count npoints elapsed x else ds) := by
  refine onSuccess_steady hs (fun h h' hst hrun => ?_) hr
  rw [ha] at hrun
  exact updateDs_ok hst hinfo hrun

theorem DsOp.run_steady (hs : s.Steady a h₀ r ds) (hl : Listed h₀ a .dataset info fi) (hr : 0 < r) {op : DsOp}
    (hon : op.On a info fi) (hrun : op.run s = .ok s') : s'.Steady a h₀ r (op.apply ds) := by
  cases op with
  | setExtent o ret new_size =>
    obtain ⟨rfl, -⟩ := hon
    have hstep := onSuccess_steady hs (g := if ds.ds_class = .simple then ds.setExtent new_size else ds)
      (fun h h' hst hf => ?_) hrun
    · have happly : (if ret then (if ds.ds_class = .simple then ds.setExtent new_size else ds) else ds) =
          (DsOp.setExtent o ret new_size).apply ds := by
        unfold DsOp.apply
        by_cases hret : ret = true <;> by_cases hsimple : ds.ds_class = .simple <;> simp [hret, hsimple]
      rwa [happly] at hstep
    · rw [obj_eq_ok.2 (hst.node info hl.obj), ok_bind] at hf
      dsimp only at hf
      by_cases hsimple : ds.ds_class = .simple
      · rw [if_pos hsimple] at hf ⊢
        split at hf
        · cases hf
        · exact updateDs_ok hst hl.obj hf
      · rw [if_neg hsimple] at hf ⊢
        cases hf
        exact hst
  | refresh specific o wrap_ctx pairs c ret extent =>
    obtain ⟨⟨ha, hk⟩, hspec, rfl, hps⟩ := hon
    have hcls : Hold.cls ⟨specific, .dataset, a⟩ = .dataset := by
      cases specific with
      | dataset | object => rfl
      | group | datatype => cases hspec
    have hread : specific.readsObject = true → ret = false ∧ pairs = [] := by
      intro hread
      rw [hspec] at hread
      cases hread
    obtain ⟨s₁, h1, hs₁⟩ := refreshCall_steady hs hl hr ha hk hcls hps c hread extent
    rw [DsOp.run, h1] at hrun
    cases hrun
    have happly : Specific.refreshed .dataset ret extent ds =
        (DsOp.refresh specific o info.file_info pairs c ret extent).apply ds := by
      simp [Specific.refreshed, DsOp.apply]
    rwa [happly] at hs₁
  | access x o name stack ret npoints elapsed t =>
    obtain ⟨ha, -⟩ := hon
    cases x with
    | read =>
      obtain ⟨⟨s₁, b⟩, h1, hpure⟩ := bind_eq_ok.1 hrun
      cases hpure
      obtain ⟨s₂, h2, h1⟩ := bind_eq_ok.1 h1
      obtain ⟨s₃, h3, h1⟩ := bind_eq_ok.1 h1
      obtain ⟨s₄, h4, hpure⟩ := bind_eq_ok.1 h1
      cases hpure
      exact (countXfer_steady (hs.of_helper (fill_helper h2)) hl.obj ha h3).of_helper (record_helper h4)
    | write =>
      obtain ⟨⟨s₁, b⟩, h1, hpure⟩ := bind_eq_ok.1 hrun
      cases hpure
      obtain ⟨s₂, h2, h1⟩ := bind_eq_ok.1 h1
      obtain ⟨s₃, h3, h1⟩ := bind_eq_ok.1 h1
      obtain ⟨s₄, h4, hpure⟩ := bind_eq_ok.1 h1
      cases hpure
      exact ((countXfer_steady hs hl.obj ha h2).of_helper (fill_helper h3)).of_helper (record_helper h4)

theorem DsOp.apply_failed {op : DsOp} (hret : op.ret = false) (ds : DsInfo) : op.apply ds = ds := by
  cases op with
  | setExtent o ret new_size =>
    obtain rfl : ret = false := hret
    rfl
  | refresh specific o wrap_ctx pairs c ret extent =>
    obtain rfl : ret = false := hret
    rfl
  | access x o name stack ret npoints elapsed t =>
    obtain rfl : ret = false := hret
    rfl

/-- **A run folds what its callbacks do, and what fails does nothing.** -/
theorem runDsOps_steady (hl : Listed h₀ a .dataset info fi) (hr : 0 < r) : ∀ (ops : List DsOp) {s s' : Conn} {ds : DsInfo},
    s.Steady a h₀ r ds → (∀ op ∈ ops, op.On a info fi) → runDsOps ops s = .ok s' →
    s'.Steady a h₀ r (ops.foldl DsOp.apply ds)
  | [], s, s', ds, hs, _, hrun => by
    cases hrun
    exact hs
  | op :: ops, s, s', ds, hs, hon, hrun => by
    obtain ⟨s₁, h1, hrun⟩ := bind_eq_ok.1 hrun
    exact runDsOps_steady hl hr ops (op.run_steady hs hl hr (hon op List.mem_cons_self) h1)
      (fun o ho => hon o (List.mem_cons_of_mem _ ho)) hrun

theorem failuresQuiet (hl : Listed h₀ a .dataset info fi) (hr : 0 < r) : ∀ (ops : List DsOp) {s : Conn} {ds : DsInfo},
    s.Steady a h₀ r ds → (∀ op ∈ ops, op.On a info fi) → FailuresQuiet a ops s
  | [], _, _, _, _ => trivial
  | op :: ops, s, ds, hs, hon => by
    intro s' h1
    have hs' := op.run_steady hs hl hr (hon op List.mem_cons_self) h1
    refine ⟨fun hret => ?_, failuresQuiet hl hr ops hs' fun o ho => hon o (List.mem_cons_of_mem _ ho)⟩
    refine ⟨ds, op.apply ds, hs.ds_eq hl.obj, hs'.ds_eq hl.obj, fun x => ?_⟩
    rw [DsOp.apply_failed hret]
    exact ⟨rfl, rfl⟩

end

/-! ## The totals -/

/-- What a node caches of a dataspace of the given dimensions; of a scalar one nothing until it was refreshed. -/
structure Caches (shape : DsShape) (dims : List (BitVec 64)) (refreshed : Bool) (ds : DsInfo) : Prop where
  cls    : ds.ds_class = shape.ds_class
  rank   : shape.ds_class = .simple → ds.dimension_cnt = shape.dims.length
  size   : ds.dset_type_size = shape.type_size
  points : ds.dset_space_size = if shape.ds_class = .scalar ∧ refreshed = false then 0 else pointsOf shape.ds_class dims

theorem caches_new {shape : DsShape} (hshape : shape.Honest) (token : Token) (file_info : Addr) (name : Option CStr) :
    Caches shape shape.dims false (newDsProvInfo shape token file_info name).ds := by
  unfold newDsProvInfo
  by_cases hsimple : shape.ds_class = .simple
  · rw [if_pos hsimple]
    refine ⟨rfl, fun _ => rfl, rfl, ?_⟩
    rw [if_neg (by rw [hsimple]; simp)]
    exact hshape
  · rw [if_neg hsimple]
    refine ⟨rfl, fun hs => absurd hs hsimple, rfl, ?_⟩
    cases hc : shape.ds_class with
    | simple => exact absurd hc hsimple
    | _ => rfl

theorem Caches.apply {shape : DsShape} {dims : List (BitVec 64)} {refreshed : Bool} {ds : DsInfo}
    (hc : Caches shape dims refreshed ds) {op : DsOp} (hop : op.Honest shape) :
    Caches shape (op.dims shape.ds_class dims) (refreshed || op.isRefresh) (op.apply ds) := by
  cases op with
  | setExtent o ret new_size =>
    rw [show (DsOp.setExtent o ret new_size).isRefresh = false from rfl, Bool.or_false]
    dsimp only [DsOp.apply, DsOp.dims]
    rw [hc.cls]
    by_cases hset : ret = true ∧ shape.ds_class = .simple
    · rw [if_pos hset, if_pos hset]
      refine ⟨hc.cls, hc.rank, hc.size, ?_⟩
      have htake : new_size.take ds.dimension_cnt = new_size := by
        rw [hc.rank hset.2, ← hop hset.2, List.take_length]
      rw [if_neg (by rw [hset.2]; simp), hset.2]
      simp only [DsInfo.setExtent, htake, pointsOf]
    · rw [if_neg hset, if_neg hset]
      exact hc
  | refresh specific o wrap_ctx pairs c ret extent =>
    cases ret with
    | false =>
      rw [show (DsOp.refresh specific o wrap_ctx pairs c false extent).isRefresh = false from rfl, Bool.or_false]
      exact hc
    | true =>
      refine ⟨hc.cls, hc.rank, hc.size, ?_⟩
      rw [DsOp.isRefresh, Bool.or_true, if_neg (by simp)]
      exact hop
  | access x o name stack ret npoints elapsed t =>
    rw [show (DsOp.access x o name stack ret npoints elapsed t).isRefresh = false from rfl, Bool.or_false]
    dsimp only [DsOp.apply, DsOp.dims]
    by_cases hret : ret = true
    · rw [if_pos hret]
      cases x <;> exact ⟨hc.cls, hc.rank, hc.size, hc.points⟩
    · rw [if_neg hret]
      exact hc

/-- What the node does not see of one callback. -/
def DsOp.misses (x : Xfer) (shape : DsShape) (refreshed : Bool) (op : DsOp) : BitVec 64 :=
  if shape.ds_class = .scalar ∧ refreshed = false ∧ op.isWhole x then shape.type_size else 0

theorem Caches.bytes_apply {shape : DsShape} {dims : List (BitVec 64)} {refreshed : Bool} {ds : DsInfo}
    (hc : Caches shape dims refreshed ds) (op : DsOp) (x : Xfer) :
    (op.apply ds).bytes x + op.misses x shape refreshed = ds.bytes x + op.moves x shape dims ∧
      (op.apply ds).cnt x = ds.cnt x + (if op.isTransfer x then 1 else 0) := by
  cases op with
  | setExtent o ret new_size =>
    dsimp only [DsOp.apply]
    split <;> cases x <;> simp [DsOp.misses, DsOp.isWhole, DsOp.moves, DsOp.isTransfer, DsInfo.setExtent, DsInfo.bytes, DsInfo.cnt]
  | refresh specific o wrap_ctx pairs c ret extent =>
    dsimp only [DsOp.apply]
    split <;> cases x <;> simp [DsOp.misses, DsOp.isWhole, DsOp.moves, DsOp.isTransfer, DsInfo.refresh, DsInfo.bytes, DsInfo.cnt]
  | access y o name stack ret npoints elapsed t =>
    by_cases hmoves : ret = true ∧ y = x
    · obtain ⟨rfl, rfl⟩ := hmoves
      have hmiss : shape.type_size * npoints.getD ds.dset_space_size +
          DsOp.misses y shape refreshed (.access y o name stack true npoints elapsed t) =
          shape.type_size * npoints.getD (pointsOf shape.ds_class dims) := by
        rw [hc.points]
        cases npoints with
        | some n => simp [DsOp.misses, DsOp.isWhole]
        | none =>
          by_cases hblind : shape.ds_class = .scalar ∧ refreshed = false
          · rw [if_pos hblind]
            simp [DsOp.misses, DsOp.isWhole, hblind, pointsOf]
          · rw [if_neg hblind, DsOp.misses, if_neg fun h => hblind ⟨h.1, h.2.1⟩, add_zero]
      have hmoved : DsOp.moves y shape dims (.access y o name stack true npoints elapsed t) =
          shape.type_size * npoints.getD (pointsOf shape.ds_class dims) := if_pos ⟨rfl, rfl⟩
      have hsize := hc.size
      rw [hmoved, ← hmiss, ← add_assoc]
      cases y <;> simp [DsOp.apply, DsInfo.count, DsInfo.bytes, DsInfo.cnt, DsOp.isTransfer, hsize]
    · have hstill : (DsOp.access y o name stack ret npoints elapsed t).moves x shape dims = 0 := if_neg hmoves
      have hnone : (DsOp.access y o name stack ret npoints elapsed t).isTransfer x = false := by
        simpa [DsOp.isTransfer] using hmoves
      have hseen : (DsOp.access y o name stack ret npoints elapsed t).misses x shape refreshed = 0 := by
        refine if_neg fun h => hmoves ?_
        have hwhole := h.2.2
        simp only [DsOp.isWhole, Bool.and_eq_true, decide_eq_true_eq] at hwhole
        exact hwhole.1
      rw [hstill, hseen, hnone]
      cases ret with
      | false => simp [DsOp.apply]
      | true =>
        have hyx : y ≠ x := fun h => hmoves ⟨rfl, h⟩
        cases y <;> cases x <;> first | exact absurd rfl hyx | simp [DsOp.apply, DsInfo.count, DsInfo.bytes, DsInfo.cnt]

def missing (x : Xfer) (shape : DsShape) : Bool → List DsOp → BitVec 64
  | _, []                => 0
  | refreshed, op :: ops => op.misses x shape refreshed + missing x shape (refreshed || op.isRefresh) ops

theorem missing_refreshed (x : Xfer) (shape : DsShape) : ∀ ops : List DsOp, missing x shape true ops = 0
  | [] => rfl
  | op :: ops => by
    rw [missing, DsOp.misses, if_neg (by simp), Bool.true_or, missing_refreshed x shape ops, add_zero]

/-- **What a run misses are the transfers of all elements that a scalar dataset sees before its first refresh.** -/
theorem missing_eq (x : Xfer) (shape : DsShape) : ∀ ops : List DsOp, missing x shape false ops =
    if shape.ds_class = .scalar then (blind x ops : BitVec 64) * shape.type_size else 0
  | [] => by simp [missing, blind]
  | op :: ops => by
    have ih := missing_eq x shape ops
    rw [missing, Bool.false_or]
    by_cases hscalar : shape.ds_class = .scalar
    · rw [if_pos hscalar] at ih ⊢
      cases href : op.isRefresh with
      | true =>
        have hwhole : op.isWhole x = false := by
          cases op <;> first | rfl | cases href
        rw [missing_refreshed, DsOp.misses, hwhole]
        simp [blind, href]
      | false =>
        rw [ih, DsOp.misses, blind, blind, List.takeWhile_cons_of_pos (by simp [href]), List.countP_cons]
        cases hwhole : op.isWhole x <;> simp [hscalar, add_mul, add_comm]
    · rw [if_neg hscalar] at ih ⊢
      have hrest : missing x shape op.isRefresh ops = 0 := by
        cases op.isRefresh with
        | true => exact missing_refreshed x shape ops
        | false => exact ih
      rw [hrest, DsOp.misses, if_neg fun h => hscalar h.1, add_zero]

/-- **What a run adds up, and what it misses.** -/
theorem foldl_apply_bytes {shape : DsShape} (x : Xfer) : ∀ {ops : List DsOp} {dims : List (BitVec 64)} {refreshed : Bool}
    {ds : DsInfo}, Caches shape dims refreshed ds → (∀ op ∈ ops, op.Honest shape) →
    (ops.foldl DsOp.apply ds).bytes x + missing x shape refreshed ops = ds.bytes x + moved x shape dims ops ∧
      (ops.foldl DsOp.apply ds).cnt x = ds.cnt x + transfers x ops
  | [], _, _, _, _, _ => by simp [missing, moved, transfers]
  | op :: ops, dims, refreshed, ds, hc, hops => by
    obtain ⟨hbytes, hcnt⟩ := hc.bytes_apply op x
    obtain ⟨ihbytes, ihcnt⟩ := foldl_apply_bytes x (hc.apply (hops op List.mem_cons_self))
      fun o ho => hops o (List.mem_cons_of_mem _ ho)
    rw [List.foldl_cons, missing, moved]
    constructor
    · calc (ops.foldl DsOp.apply (op.apply ds)).bytes x +
            (op.misses x shape refreshed + missing x shape (refreshed || op.isRefresh) ops)
          = ((ops.foldl DsOp.apply (op.apply ds)).bytes x + missing x shape (refreshed || op.isRefresh) ops) +
              op.misses x shape refreshed := by ac_rfl
        _ = (op.apply ds).bytes x + moved x shape (op.dims shape.ds_class dims) ops + op.misses x shape refreshed := by
              rw [ihbytes]
        _ = ((op.apply ds).bytes x + op.misses x shape refreshed) + moved x shape (op.dims shape.ds_class dims) ops := by
              ac_rfl
        _ = ds.bytes x + (op.moves x shape dims + moved x shape (op.dims shape.ds_class dims) ops) := by
              rw [hbytes]
              ac_rfl
    · rw [ihcnt, hcnt, transfers, transfers, List.countP_cons]
      push_cast
      ring

/-- **Totals and counts of every run are right exactly if the dataset is not scalar, or its transfers of all elements
before the first refresh come to no bytes.** -/
theorem totals_iff (s : Conn) (h : ProvHelper) (hh : s.PROV_HELPER = some h) (a : Addr) (info : ObjInfo) (fi : FileInfo)
    (hl : Listed h a .dataset info fi) (shape : DsShape) (hshape : shape.Honest)
    (hnew : info.ds = (newDsProvInfo shape info.token info.file_info info.name).ds) (ops : List DsOp)
    (hon : ∀ op ∈ ops, op.On a info fi) (hops : ∀ op ∈ ops, op.Honest shape) (s' : Conn)
    (hrun : runDsOps ops s = .ok s') :
    TotalsRight a shape ops s s' ↔
      (shape.ds_class = .scalar → ∀ x, (blind x ops : BitVec 64) * shape.type_size = 0) := by
  have hs : s.Steady a h info.ref_cnt info.ds := ⟨h, hh, .refl hl.obj⟩
  have hfinal := (runDsOps_steady hl hl.ref ops hs hon hrun).ds_eq hl.obj
  have hcaches := caches_new hshape info.token info.file_info info.name
  have hzero : ∀ x, (newDsProvInfo shape info.token info.file_info info.name).ds.bytes x = 0 ∧
      (newDsProvInfo shape info.token info.file_info info.name).ds.cnt x = 0 := by
    intro x
    unfold newDsProvInfo
    split <;> cases x <;> exact ⟨rfl, rfl⟩
  have hsum : ∀ x, (ops.foldl DsOp.apply info.ds).bytes x +
      (if shape.ds_class = .scalar then (blind x ops : BitVec 64) * shape.type_size else 0) = moved x shape shape.dims ops ∧
      (ops.foldl DsOp.apply info.ds).cnt x = transfers x ops := by
    intro x
    obtain ⟨hbytes, hcnt⟩ := foldl_apply_bytes x hcaches hops
    rw [missing_eq, (hzero x).1, zero_add] at hbytes
    rw [(hzero x).2, zero_add] at hcnt
    rw [hnew]
    exact ⟨hbytes, hcnt⟩
  constructor
  · rintro ⟨⟨ds, hds, htotals⟩, -⟩ hscalar x
    rw [hfinal] at hds
    cases hds
    have hx := (hsum x).1
    rw [if_pos hscalar, ← (htotals x).1] at hx
    exact add_eq_left.1 hx
  · intro hblind
    refine ⟨⟨_, hfinal, fun x => ⟨?_, (hsum x).2⟩⟩, failuresQuiet hl hl.ref ops hs hon⟩
    rw [← (hsum x).1]
    by_cases hscalar : shape.ds_class = .scalar
    · rw [if_pos hscalar, hblind hscalar x, add_zero]
    · rw [if_neg hscalar, add_zero]

/-! ## A dataset of ten elements, and one of a single one -/

def dsHandle (u : Under) : ProvObj := ⟨some u, .obj .dataset, 1⟩

/-- A successful transfer with H5S_ALL for both spaces. -/
def accessAll (x : Xfer) (u : Under) : DsOp := .access x (dsHandle u) (some (cstr "d")) (cstr "") true none 5 someTicks

/-- The elements are written, the dataset grows, and they are written again. -/
theorem totals_iff_grown : ∃ w h, runCallbacks [createFile, createDataset (cstr "/d") (some (objUnder 7))]
      (.start rankOneInput) = .ok w ∧ w.conn.PROV_HELPER = some h ∧ dsHandle (objUnder 7) ∈ w.app.handles ∧
    ∃ s', runDsOps [accessAll .write (objUnder 7), .setExtent (dsHandle (objUnder 7)) true [30],
        accessAll .write (objUnder 7)] w.conn = .ok s' ∧
      TotalsRight 1 someShape [accessAll .write (objUnder 7), .setExtent (dsHandle (objUnder 7)) true [30],
        accessAll .write (objUnder 7)] w.conn s' := by
  obtain ⟨w, h, hw, hh, ho, hobj, ⟨fi, hfi, hopened⟩, s', hrun⟩ : ∃ w h, runCallbacks [createFile,
      createDataset (cstr "/d") (some (objUnder 7))] (.start rankOneInput) = .ok w ∧ w.conn.PROV_HELPER = some h ∧
      dsHandle (objUnder 7) ∈ w.app.handles ∧
      h.objs 1 = some { newDsProvInfo someShape 7 0 (some (cstr "/d")) with ref_cnt := 1 } ∧
      (∃ fi, h.files 0 = some fi ∧ fi.opened .dataset = [1]) ∧
      ∃ s', runDsOps [accessAll .write (objUnder 7), .setExtent (dsHandle (objUnder 7)) true [30],
        accessAll .write (objUnder 7)] w.conn = .ok s' := by
    exact ⟨_, _, rfl, rfl, .head _, rfl, ⟨_, rfl, rfl⟩, _, rfl⟩
  have hl : Listed h 1 .dataset { newDsProvInfo someShape 7 0 (some (cstr "/d")) with ref_cnt := 1 } fi := by
    refine .of_tokens hobj hfi ?_ (fun x hx => ?_) (by decide) rfl
    · rw [hopened]
      exact List.mem_singleton_self 1
    · rw [hopened] at hx
      obtain rfl := List.mem_singleton.1 hx
      exact ⟨_, hobj, fun _ => rfl⟩
  refine ⟨w, h, hw, hh, ho, s', hrun, (totals_iff w.conn h hh 1 _ fi hl someShape rfl rfl _ ?_ ?_ s' hrun).2 nofun⟩
  · simp [DsOp.On, accessAll, dsHandle]
  · simp [DsOp.Honest, accessAll, someShape]

def scalarUnder : Under := ⟨some (1, 7), none, ⟨4, .scalar, [], 1⟩⟩

/-- **A scalar dataset is read once**: four bytes, and none are counted. -/
theorem scalar_read_uncounted : ∃ w, runCallbacks [createFile, createDataset (cstr "/d") (some scalarUnder)]
      (.start rankOneInput) = .ok w ∧ dsHandle scalarUnder ∈ w.app.handles ∧ scalarUnder.shape.Honest ∧
    ∃ s', runDsOps [accessAll .read scalarUnder] w.conn = .ok s' ∧
      ¬ TotalsRight 1 scalarUnder.shape [accessAll .read scalarUnder] w.conn s' := by
  refine ⟨_, rfl, .head _, rfl, _, rfl, fun hright => ?_⟩
  obtain ⟨ds, hds, htotals⟩ := hright.totals
  have hzero : ds.bytes .read = 0 := by
    cases hds
    rfl
  rw [(htotals .read).1] at hzero
  exact absurd hzero (by decide)

end Provio
