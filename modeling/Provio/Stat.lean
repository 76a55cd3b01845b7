import Mathlib.Algebra.Group.Int.Defs
import Mathlib.Algebra.Group.Nat.Defs
import Mathlib.Data.Finset.Card
import Mathlib.Data.Finset.Dedup
import Mathlib.Data.Int.Basic
import Provio.Basic
import Provio.Probing
/-!
# Stat — the duration table of `stat.c`

`FUNC_DIC`, `genHash` and the open-addressing table `duration_ht` that `accumulate_duration` sums a function's time in.
The two probe loops (`stat_get`, `stat_set_entry`) are the walk of `Probing`, from the slot `hash & (capacity - 1)`; a
probe past the array is the fault `bounds` and a probe that never ends is `spin`.  A `value` pointer is the slot
whose cell it points to.  The table is generic in the cell; the code's cell is eight bytes (`Cell`).
-/
namespace Provio

def statFuncMod : Nat := 733

/-- `FUNC_DIC`: the first string hashed to each index. -/
abbrev FuncDic := Nat → Option CStr

def dicInitInt : FuncDic := fun _ => none

/-- The SDBM loop, from `hash`; a `char` is signed. -/
def sdbm : BitVec 64 → CStr → BitVec 64
  | hash, [] => hash
  | hash, c :: msg => sdbm (c.toBitVec.signExtend 64 + (hash <<< 6) + (hash <<< 16) - hash) msg

def funcIndex (msg : CStr) : Nat := (sdbm 0 msg).toNat % statFuncMod

def genHash (dic : FuncDic) (msg : CStr) : FuncDic × Nat :=
  (if dic (funcIndex msg) = none then Function.update dic (funcIndex msg) (some msg) else dic, funcIndex msg)

structure DurationHt (V : Type) where
  entries  : Probing.Slots CStr V
  capacity : Nat
  length   : Nat

/-- An `int` as a `size_t`. -/
def sizeT (n : Int) : Nat := (n % 2 ^ 64).toNat

/-- `capacity - 1` in `size_t`. -/
def mask (capacity : Nat) : Nat := (capacity + (2 ^ 64 - 1)) % 2 ^ 64

def statCreate {V : Type} (capacity : Int) : FuncDic × DurationHt V :=
  (dicInitInt, { entries := List.replicate (sizeT capacity) none, capacity := sizeT capacity, length := 0 })

def startSlot (capacity : Nat) (key : CStr) : Nat := funcIndex key &&& mask capacity

section Table

variable {V : Type}

/-- The probe loop of `stat_get` and of `stat_set_entry`. -/
def probe (fuel : Nat) (entries : Probing.Slots CStr V) (capacity : Nat) (key : CStr) : Probing.Walk V :=
  Probing.walk entries capacity key fuel (startSlot capacity key)

/-- The value pointer of a key, with what it points to. -/
def statGet (fuel : Nat) (dic : FuncDic) (table : DurationHt V) (key : CStr) :
    Except Fault (FuncDic × Option (Nat × V)) :=
  match probe fuel table.entries table.capacity key with
  | .hit i v  => .ok ((genHash dic key).1, some (i, v))
  | .vacant _ => .ok ((genHash dic key).1, none)
  | .wild _   => .error .bounds
  | .spin     => .error .spin

def statSetEntry (fuel : Nat) (dic : FuncDic) (table : DurationHt V) (key : CStr) (value : V) :
    Except Fault (FuncDic × DurationHt V) :=
  match probe fuel table.entries table.capacity key with
  | .hit i _  => .ok ((genHash dic key).1, { table with entries := table.entries.set i (some (key, value)) })
  | .vacant i => .ok ((genHash dic key).1,
      { table with entries := table.entries.set i (some (key, value)), length := table.length + 1 })
  | .wild _   => .error .bounds
  | .spin     => .error .spin

/-- `accumulate_duration` for any cell: a new cell starts as `fresh`, a found one is bumped in place. -/
def accumulate (fuel : Nat) (fresh : V) (bump : V → V) (st : FuncDic × DurationHt V) (func_name : CStr) :
    Except Fault (FuncDic × DurationHt V) := do
  let (dic, accumulated_duration) ← statGet fuel st.1 st.2 func_name
  match accumulated_duration with
  | some (i, v) => pure (dic, { st.2 with entries := st.2.entries.set i (some (func_name, bump v)) })
  | none => statSetEntry fuel dic st.2 func_name fresh

/-- The loop of `stat_next`: the next entry from a slot on, and the index the iterator is left at. -/
def statNextLoop (table : DurationHt V) : Nat → Nat → Option (CStr × V) × Nat
  | 0, index => (none, index)
  | n + 1, index =>
    match table.entries[index]? with
    | some (some entry) => (some entry, index + 1)
    | _ => statNextLoop table n (index + 1)

def statIterator : Nat := 0

/-- `none` is the answer `false`. -/
def statNext (table : DurationHt V) (index : Nat) : Option (CStr × V) × Nat :=
  statNextLoop table (table.capacity - index) index

/-- `while (stat_next(&it))`: the entries it yields, and where the iterator ends. -/
def statPass (table : DurationHt V) : Nat → Nat → List (CStr × V) × Nat
  | 0, index => ([], index)
  | n + 1, index =>
    match statNext table index with
    | (none, index')       => ([], index')
    | (some entry, index') => (entry :: (statPass table n index').1, (statPass table n index').2)

end Table

/-! ## The cells of `accumulate_duration` and what `stat_print_` reads -/

/-- The eight bytes behind a `value` pointer, little-endian. -/
abbrev Cell := BitVec 64

/-- `*(int *)p = elapsed` on eight malloc'd bytes: the upper four stay as they were. -/
def storeInt (malloced : Cell) (elapsed : BitVec 64) : Cell :=
  (malloced.extractLsb' 32 32 : BitVec 32) ++ elapsed.setWidth 32

/-- `*(int *)p`. -/
def loadInt (c : Cell) : Int := (c.setWidth 32).toInt

/-- One call of `accumulate_duration`, with the bytes `malloc` would hand it. -/
structure Call where
  func_name : CStr
  elapsed   : BitVec 64
  malloced  : Cell
deriving DecidableEq

def accumulateDuration (fuel : Nat) (counts : FuncDic × DurationHt Cell) (c : Call) :
    Except Fault (FuncDic × DurationHt Cell) :=
  accumulate fuel (storeInt c.malloced c.elapsed) (· + c.elapsed) counts c.func_name

def accumulateAll (fuel : Nat) : FuncDic × DurationHt Cell → List Call → Except Fault (FuncDic × DurationHt Cell)
  | counts, []      => .ok counts
  | counts, c :: cs => accumulateDuration fuel counts c >>= fun counts => accumulateAll fuel counts cs

/-- `Stat`: the totals printed above the table, in microseconds. -/
structure Stat where
  TOTAL_PROV_OVERHEAD   : BitVec 64
  TOTAL_NATIVE_H5_TIME  : BitVec 64
  PROV_WRITE_TOTAL_TIME : BitVec 64
  FILE_LL_TOTAL_TIME    : BitVec 64
  DS_LL_TOTAL_TIME      : BitVec 64
  GRP_LL_TOTAL_TIME     : BitVec 64
  DT_LL_TOTAL_TIME      : BitVec 64
  ATTR_LL_TOTAL_TIME    : BitVec 64
  PROV_SERIALIZE_TIME   : BitVec 64
deriving DecidableEq, Repr

/-- What `stat_print_` writes: the header, when it is given the totals, and one line a function. -/
structure StatReport where
  header : Option (Int × Stat)
  lines  : List (CStr × Int)
deriving DecidableEq

def statPrint_ (MPI_RANK : Int) (prov_stat : Option Stat) (counts : DurationHt Cell) : StatReport :=
  { header := prov_stat.map (fun s => (MPI_RANK, s))
    lines := (statPass counts (counts.capacity + 1) statIterator).1.map (fun e => (e.1, loadInt e.2)) }

end Provio
