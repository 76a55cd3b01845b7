import Provio.Objects
import Provio.StatTable
/-!
# StatMemory — `stat.c` with its memory

The same functions as in `Stat`, on pointers: `FUNC_DIC`, its strings, the table, its entries, their keys and their
values are blocks of their own, which `malloc` and `strdup` give and `free` takes back.  Allocation succeeds.  Nothing
frees `FUNC_DIC`.
-/
namespace Provio
namespace Memory

/-- What a block holds; a NULL pointer is `none`. -/
inductive Item where
  | str (s : CStr)
  | cell (c : Cell)
  /-- `duration_entry[]`: keys and values. -/
  | slots (entries : List (Option (Nat × Nat)))
  /-- `duration_ht`. -/
  | table (entries capacity length : Nat)
  /-- What `FUNC_DIC` points to. -/
  | dic (strs : Nat → Option Nat)

/-- The blocks, and the global `FUNC_DIC`. -/
structure Mem where
  heap     : Objects.Heap Item
  FUNC_DIC : Option Nat

def Mem.start : Mem := ⟨.empty, none⟩

/-! ## Reading and writing -/

namespace Mem

variable (m : Mem) (p : Nat)

def str : Except Fault CStr :=
  match m.heap.read p with
  | some (.str s) => .ok s
  | _             => .error .freed

def cell : Except Fault Cell :=
  match m.heap.read p with
  | some (.cell c) => .ok c
  | _              => .error .freed

def slots : Except Fault (List (Option (Nat × Nat))) :=
  match m.heap.read p with
  | some (.slots entries) => .ok entries
  | _                     => .error .freed

def table : Except Fault (Nat × Nat × Nat) :=
  match m.heap.read p with
  | some (.table entries capacity length) => .ok (entries, capacity, length)
  | _                                     => .error .freed

def dic : Except Fault (Nat × (Nat → Option Nat)) :=
  match m.FUNC_DIC with
  | none   => .error .null
  | some p =>
    match m.heap.read p with
    | some (.dic strs) => .ok (p, strs)
    | _                => .error .freed

def store (x : Item) : Except Fault Mem :=
  match m.heap.write p x with
  | some heap => .ok { m with heap := heap }
  | none      => .error .freed

/-- `malloc`, with what is written to the block first. -/
def malloc (x : Item) : Nat × Mem :=
  let (p, heap) := m.heap.alloc x
  (p, { m with heap := heap })

def free : Except Fault Mem :=
  match m.heap.free p with
  | some heap => .ok { m with heap := heap }
  | none      => .error .freed

end Mem

/-! ## The functions -/

/-- `func_dic_alloc` and `_dic_init_int`. -/
def funcDicAlloc (m : Mem) : Mem :=
  let (p, m) := m.malloc (.dic fun _ => none)
  { m with FUNC_DIC := some p }

def genHash (m : Mem) (msg : CStr) : Except Fault (Mem × Nat) := do
  let (p, strs) ← m.dic
  let func_index := funcIndex msg
  match strs func_index with
  | some _ => pure (m, func_index)
  | none =>
    let (s, m) := m.malloc (.str msg)
    let m ← m.store p (.dic (Function.update strs func_index (some s)))
    pure (m, func_index)

def statCreate (m : Mem) (capacity : Int) : Except Fault (Mem × Nat) := do
  let m := funcDicAlloc m
  let (table, m) := m.malloc (.table 0 (sizeT capacity) 0)
  let (entries, m) := m.malloc (.slots (List.replicate (sizeT capacity) none))
  let m ← m.store table (.table entries (sizeT capacity) 0)
  pure (m, table)

/-- Where a probe ends: at the key, whose value pointer it has then, or at an empty slot. -/
inductive Found where
  | hit (index value : Nat)
  | vacant (index : Nat)

/-- `while (entries[index].key != NULL)`. -/
def walk (m : Mem) (entries : List (Option (Nat × Nat))) (capacity : Nat) (key : CStr) : Nat → Nat → Except Fault Found
  | 0, _ => .error .spin
  | fuel + 1, index =>
    match entries[index]? with
    | none                   => .error .bounds
    | some none              => .ok (.vacant index)
    | some (some (k, value)) => do
      let s ← m.str k
      if key = s then .ok (.hit index value)
      else walk m entries capacity key fuel (if index + 1 ≥ capacity then 0 else index + 1)

def statGet (fuel : Nat) (m : Mem) (table : Nat) (key : CStr) : Except Fault (Mem × Option Nat) := do
  let (m, _) ← genHash m key
  let (p, capacity, _) ← m.table table
  let entries ← m.slots p
  match ← walk m entries capacity key fuel (startSlot capacity key) with
  | .hit _ value => pure (m, some value)
  | .vacant _    => pure (m, none)

def statSetEntry (fuel : Nat) (m : Mem) (table : Nat) (key : CStr) (value : Nat) : Except Fault Mem := do
  let (m, _) ← genHash m key
  let (p, capacity, length) ← m.table table
  let entries ← m.slots p
  match ← walk m entries capacity key fuel (startSlot capacity key) with
  | .hit index _ =>
    match entries[index]? with
    | some (some (k, _)) => m.store p (.slots (entries.set index (some (k, value))))
    | _                  => .error .bounds
  | .vacant index => do
    let (k, m) := m.malloc (.str key)
    let m ← m.store table (.table p capacity (length + 1))
    m.store p (.slots (entries.set index (some (k, value))))

def accumulateDuration (fuel : Nat) (m : Mem) (counts : Nat) (c : Call) : Except Fault Mem := do
  let (m, accumulated_duration) ← statGet fuel m counts c.func_name
  match accumulated_duration with
  | some p => do
    let v ← m.cell p
    m.store p (.cell (v + c.elapsed))
  | none =>
    let (p, m) := m.malloc (.cell (storeInt c.malloced c.elapsed))
    statSetEntry fuel m counts c.func_name p

def accumulateAll (fuel : Nat) (counts : Nat) : Mem → List Call → Except Fault Mem
  | m, []      => .ok m
  | m, c :: cs => accumulateDuration fuel m counts c >>= fun m => accumulateAll fuel counts m cs

/-- The loop over the entries in `stat_print_`, from a slot on: a line for each, whose value is then freed. -/
def printLoop (counts : Nat) : Nat → Nat → Mem → Except Fault (Mem × List (CStr × Int))
  | 0, _, m => .ok (m, [])
  | n + 1, index, m => do
    let (p, capacity, _) ← m.table counts
    if index < capacity then
      let entries ← m.slots p
      match entries[index]? with
      | none                   => .error .bounds
      | some none              => printLoop counts n (index + 1) m
      | some (some (k, value)) => do
        let s ← m.str k
        let v ← m.cell value
        let m ← m.free value
        let (m, lines) ← printLoop counts n (index + 1) m
        pure (m, (s, loadInt v) :: lines)
    else pure (m, [])

/-- `stat_print_`, with the lines it prints. -/
def statPrint_ (m : Mem) (counts : Nat) : Except Fault (Mem × List (CStr × Int)) := do
  let (_, capacity, _) ← m.table counts
  printLoop counts (capacity + 1) 0 m

/-- The loop of `stat_destroy` that frees the keys. -/
def freeKeys (table : Nat) : Nat → Nat → Mem → Except Fault Mem
  | 0, _, m => .ok m
  | n + 1, index, m => do
    let (p, capacity, _) ← m.table table
    if index < capacity then
      let entries ← m.slots p
      match entries[index]? with
      | none               => .error .bounds
      | some none          => freeKeys table n (index + 1) m
      | some (some (k, _)) => do
        let m ← m.free k
        freeKeys table n (index + 1) m
    else pure m

def statDestroy (m : Mem) (table : Nat) : Except Fault Mem := do
  let (p, capacity, _) ← m.table table
  let m ← freeKeys table (capacity + 1) 0 m
  let m ← m.free p
  m.free table

/-! ## Sessions -/

/-- What a session asks of `stat.c`: the table is made, its calls are summed, and rank 0 prints it, if there is a file for
it, and destroys it. -/
structure StatSession where
  num_of_apis : Int
  calls       : List Call
  rank_zero   : Bool
  stat_file   : Bool

namespace StatSession

def fuel (s : StatSession) : Nat := sizeT s.num_of_apis + 1

def run (m : Mem) (s : StatSession) : Except Fault (Mem × Option (List (CStr × Int))) := do
  let (m, counts) ← statCreate m s.num_of_apis
  let m ← accumulateAll s.fuel counts m s.calls
  if s.rank_zero then
    if s.stat_file then
      let (m, lines) ← statPrint_ m counts
      let m ← statDestroy m counts
      pure (m, some lines)
    else
      let m ← statDestroy m counts
      pure (m, none)
  else pure (m, none)

end StatSession

def runStats : Mem → List StatSession → Except Fault (Mem × List (Option (List (CStr × Int))))
  | m, []      => .ok (m, [])
  | m, s :: ss => do
    let (m, out) ← s.run m
    let (m, outs) ← runStats m ss
    pure (m, out :: outs)

end Memory
end Provio
