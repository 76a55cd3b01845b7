import Provio.StatMemory
/-!
# StatFreed — `stat.c` frees nothing twice

A heap that holds a table is described block by block (`Shape`, `Rep`), and each function of `stat.c` on it does what the
same function of `Stat` does on the table that the blocks spell out (`accumulateAll_rep`), so the sessions of a process
read and free no freed block, whatever they sum (`runStats_safe`), and print what `Stat` says.  What they leave allocated
is known, too (`runStats_leaves`): `FUNC_DIC` with its strings for each session, the values where rank 0 has no file to
print to, and everything on the other ranks.
-/
namespace Provio
namespace Memory

open Objects (Inventory)

/-! ## Blocks in an inventory -/

namespace Mem

variable {m : Mem} {items : List (Nat × Item)}

theorem table_of (h : Inventory m.heap items) {p entries capacity length : Nat}
    (hmem : (p, .table entries capacity length) ∈ items) : m.table p = .ok (entries, capacity, length) := by
  rw [table, h.read hmem]

theorem slots_of (h : Inventory m.heap items) {p : Nat} {entries : List (Option (Nat × Nat))}
    (hmem : (p, .slots entries) ∈ items) : m.slots p = .ok entries := by
  rw [slots, h.read hmem]

theorem str_of (h : Inventory m.heap items) {p : Nat} {s : CStr} (hmem : (p, .str s) ∈ items) : m.str p = .ok s := by
  rw [str, h.read hmem]

theorem cell_of (h : Inventory m.heap items) {p : Nat} {c : Cell} (hmem : (p, .cell c) ∈ items) : m.cell p = .ok c := by
  rw [cell, h.read hmem]

theorem free_of {items₁ items₂ : List (Nat × Item)} {p : Nat} {x : Item}
    (h : Inventory m.heap (items₁ ++ (p, x) :: items₂)) :
    ∃ m', m.free p = .ok m' ∧ Inventory m'.heap (items₁ ++ items₂) := by
  obtain ⟨heap, hfree, h'⟩ := h.freeAt
  exact ⟨⟨heap, m.FUNC_DIC⟩, by rw [free, hfree], h'⟩

end Mem

/-! ## What a heap spells out -/

/-- A slot that is taken, with where its key and its value are. -/
structure Slot where
  key_ptr   : Nat
  key       : CStr
  value_ptr : Nat
  value     : Cell

namespace Slot

def ptrs (s : Slot) : Nat × Nat := (s.key_ptr, s.value_ptr)

def content (s : Slot) : CStr × Cell := (s.key, s.value)

def keyItem (s : Slot) : Nat × Item := (s.key_ptr, .str s.key)

def valueItem (s : Slot) : Nat × Item := (s.value_ptr, .cell s.value)

def items (s : Slot) : List (Nat × Item) := [s.keyItem, s.valueItem]

end Slot

abbrev Cells := List (Option Slot)

namespace Cells

variable (cells : Cells)

def taken : List Slot := cells.filterMap id

def ptrs : List (Option (Nat × Nat)) := cells.map (Option.map Slot.ptrs)

def content : Probing.Slots CStr Cell := cells.map (Option.map Slot.content)

def items : List (Nat × Item) := cells.taken.flatMap Slot.items

def keyItems : List (Nat × Item) := cells.taken.map Slot.keyItem

def valueItems : List (Nat × Item) := cells.taken.map Slot.valueItem

end Cells

/-- A string of `FUNC_DIC`. -/
structure Filled where
  index : Nat
  addr  : Nat
  str   : CStr

def strsOf (filled : List Filled) : Nat → Option Nat := fun i => (filled.find? (·.index = i)).map Filled.addr

def dicOf (filled : List Filled) : FuncDic := fun i => (filled.find? (·.index = i)).map Filled.str

/-- Where the blocks of `stat.c` are, and what is in them. -/
structure Shape where
  dic_ptr     : Nat
  filled      : List Filled
  table_ptr   : Nat
  entries_ptr : Nat
  cells       : Cells
  capacity    : Nat
  length      : Nat

namespace Shape

variable (g : Shape)

def dicItems : List (Nat × Item) :=
  (g.dic_ptr, .dic (strsOf g.filled)) :: g.filled.map fun f => (f.addr, .str f.str)

def headItems : List (Nat × Item) :=
  [(g.table_ptr, .table g.entries_ptr g.capacity g.length), (g.entries_ptr, .slots g.cells.ptrs)]

/-- The table that the blocks spell out. -/
def ht : DurationHt Cell := ⟨g.cells.content, g.capacity, g.length⟩

end Shape

/-- **The heap holds these blocks and `rest`.** -/
structure Rep (m : Mem) (g : Shape) (rest : List (Nat × Item)) : Prop where
  inventory : Inventory m.heap (g.dicItems ++ (g.headItems ++ (g.cells.items ++ rest)))
  FUNC_DIC  : m.FUNC_DIC = some g.dic_ptr
  indices   : (g.filled.map Filled.index).Nodup
  size      : g.cells.length = g.capacity
  count     : g.length = g.cells.taken.length

section

variable {m : Mem} {g : Shape} {rest : List (Nat × Item)}

/-! ## Reading -/

theorem Rep.table (h : Rep m g rest) : m.table g.table_ptr = .ok (g.entries_ptr, g.capacity, g.length) :=
  Mem.table_of h.inventory (List.mem_append_right _ (List.mem_append_left _ (.head _)))

theorem Rep.slots (h : Rep m g rest) : m.slots g.entries_ptr = .ok g.cells.ptrs :=
  Mem.slots_of h.inventory (List.mem_append_right _ (List.mem_append_left _ (.tail _ (.head _))))

theorem Rep.dic (h : Rep m g rest) : m.dic = .ok (g.dic_ptr, strsOf g.filled) := by
  have hread := h.inventory.read (a := g.dic_ptr) (b := .dic (strsOf g.filled)) (List.mem_append_left _ (.head _))
  rw [Mem.dic, h.FUNC_DIC]
  dsimp only
  rw [hread]

theorem Cells.mem_items {cells : Cells} {s : Slot} (hs : s ∈ cells.taken) :
    s.keyItem ∈ cells.items ∧ s.valueItem ∈ cells.items :=
  ⟨List.mem_flatMap.2 ⟨s, hs, .head _⟩, List.mem_flatMap.2 ⟨s, hs, .tail _ (.head _)⟩⟩

theorem Rep.str (h : Rep m g rest) {s : Slot} (hs : s ∈ g.cells.taken) : m.str s.key_ptr = .ok s.key :=
  Mem.str_of h.inventory (List.mem_append_right _ (List.mem_append_right _ (List.mem_append_left _
    (Cells.mem_items hs).1)))

theorem Rep.cell (h : Rep m g rest) {s : Slot} (hs : s ∈ g.cells.taken) : m.cell s.value_ptr = .ok s.value :=
  Mem.cell_of h.inventory (List.mem_append_right _ (List.mem_append_right _ (List.mem_append_left _
    (Cells.mem_items hs).2)))

theorem Rep.malloc (h : Rep m g rest) (x : Item) : Rep (m.malloc x).2 g (((m.malloc x).1, x) :: rest) := by
  refine ⟨(h.inventory.alloc x).perm ?_, h.FUNC_DIC, h.indices, h.size, h.count⟩
  rw [← List.append_assoc, ← List.append_assoc, ← List.append_assoc, ← List.append_assoc]
  exact List.perm_middle.symm

/-! ## `genHash` -/

theorem strsOf_eq_none {filled : List Filled} {i : Nat} : strsOf filled i = none ↔ dicOf filled i = none := by
  simp [strsOf, dicOf]

theorem dicOf_ne_none {filled : List Filled} {i : Nat} : dicOf filled i ≠ none ↔ i ∈ filled.map Filled.index := by
  simp [dicOf, List.find?_eq_none]

theorem find_cons (f : Filled) (filled : List Filled) {α : Type} (r : Filled → α) :
    (fun i => ((f :: filled).find? (·.index = i)).map r) =
      Function.update (fun i => (filled.find? (·.index = i)).map r) f.index (some (r f)) := by
  funext i
  rw [List.find?_cons]
  by_cases hi : f.index = i
  · subst hi
    simp
  · simp [hi, Ne.symm hi]

/-- **`genHash` copies the first string of each index into `FUNC_DIC`.** -/
theorem genHash_rep (h : Rep m g rest) (msg : CStr) : ∃ m' filled,
    genHash m msg = .ok (m', funcIndex msg) ∧ Rep m' { g with filled := filled } rest ∧
      dicOf filled = (Provio.genHash (dicOf g.filled) msg).1 := by
  unfold genHash Provio.genHash
  rw [h.dic, ok_bind]
  dsimp only
  cases hs : strsOf g.filled (funcIndex msg) with
  | some a =>
    refine ⟨m, g.filled, rfl, h, ?_⟩
    rw [if_neg]
    rw [← strsOf_eq_none, hs]
    exact Option.some_ne_none a
  | none =>
    have hnone := strsOf_eq_none.1 hs
    have hi := h.inventory.alloc (.str msg)
    obtain ⟨heap, hwrite, hi'⟩ := (hi.perm (.swap ..)).write
      (.dic (Function.update (strsOf g.filled) (funcIndex msg) (some (m.heap.alloc (.str msg)).1)))
    let filled := Filled.mk (funcIndex msg) (m.heap.alloc (.str msg)).1 msg :: g.filled
    have hstrs : strsOf filled = Function.update (strsOf g.filled) (funcIndex msg) (some (m.heap.alloc (.str msg)).1) :=
      find_cons ..
    have hdic : dicOf filled = Function.update (dicOf g.filled) (funcIndex msg) (some msg) := find_cons ..
    refine ⟨⟨heap, m.FUNC_DIC⟩, filled, ?_, ⟨?_, h.FUNC_DIC, ?_, h.size, h.count⟩, ?_⟩
    · dsimp only
      rw [Mem.store, show (m.malloc (.str msg)).2.heap = (m.heap.alloc (.str msg)).2 from rfl,
        show (m.malloc (.str msg)).1 = (m.heap.alloc (.str msg)).1 from rfl, hwrite]
      rfl
    · rw [← hstrs] at hi'
      exact hi'
    · refine List.nodup_cons.2 ⟨?_, h.indices⟩
      rw [← dicOf_ne_none]
      exact not_not.2 hnone
    · rw [hdic, if_pos hnone]

/-! ## Probing -/

/-- What a walk comes to, on pointers and on what they point to. -/
inductive Agree (cells : Cells) (key : CStr) : Except Fault Found → Probing.Walk Cell → Prop
  | hit {i : Nat} {s : Slot} (hi : cells[i]? = some (some s)) (hk : s.key = key) :
    Agree cells key (.ok (.hit i s.value_ptr)) (.hit i s.value)
  | vacant {i : Nat} (hi : cells[i]? = some none) : Agree cells key (.ok (.vacant i)) (.vacant i)
  | wild (i : Nat) : Agree cells key (.error .bounds) (.wild i)
  | spin : Agree cells key (.error .spin) .spin

theorem Cells.mem_taken {cells : Cells} {i : Nat} {s : Slot} (hi : cells[i]? = some (some s)) : s ∈ cells.taken :=
  List.mem_filterMap.2 ⟨some s, List.mem_of_getElem? hi, rfl⟩

theorem walk_agree {m : Mem} {cells : Cells} (hstr : ∀ s ∈ cells.taken, m.str s.key_ptr = .ok s.key) (capacity : Nat)
    (key : CStr) : ∀ (fuel index : Nat), Agree cells key (walk m cells.ptrs capacity key fuel index)
      (Probing.walk cells.content capacity key fuel index)
  | 0, _ => .spin
  | fuel + 1, index => by
    have hptrs : cells.ptrs[index]? = cells[index]?.map (Option.map Slot.ptrs) := List.getElem?_map ..
    have hcontent : cells.content[index]? = cells[index]?.map (Option.map Slot.content) := List.getElem?_map ..
    rw [walk, Probing.walk, hptrs, hcontent]
    cases hi : cells[index]? with
    | none => exact .wild index
    | some o =>
      cases o with
      | none => exact .vacant hi
      | some s =>
        show Agree cells key (m.str s.key_ptr >>= fun _ => _) (if key = s.key then _ else _)
        rw [hstr s (Cells.mem_taken hi), ok_bind]
        by_cases hk : key = s.key
        · rw [if_pos hk, if_pos hk]
          exact .hit hi hk.symm
        · rw [if_neg hk, if_neg hk]
          exact walk_agree hstr capacity key fuel _

end

/-! ## One slot -/

namespace Cells

theorem split {cells : Cells} {i : Nat} {o : Option Slot} (hi : cells[i]? = some o) :
    ∃ before after : Cells, cells = before ++ o :: after ∧ before.length = i := by
  obtain ⟨hlt, rfl⟩ := List.getElem?_eq_some_iff.1 hi
  refine ⟨cells.take i, cells.drop (i + 1), ?_, List.length_take_of_le (Nat.le_of_lt hlt)⟩
  rw [← List.drop_eq_getElem_cons hlt, List.take_append_drop]

theorem set_split (before after : Cells) (o o' : Option Slot) :
    (before ++ o :: after).set before.length o' = before ++ o' :: after := by
  simp

theorem taken_append (cells cells' : Cells) : taken (cells ++ cells') = cells.taken ++ cells'.taken :=
  List.filterMap_append ..

theorem items_append (cells cells' : Cells) : items (cells ++ cells') = cells.items ++ cells'.items := by
  rw [items, taken_append, List.flatMap_append]
  rfl

theorem items_some (s : Slot) (cells : Cells) : items (some s :: cells) = s.keyItem :: s.valueItem :: cells.items := rfl

theorem items_none (cells : Cells) : items (none :: cells) = cells.items := rfl

theorem content_set (cells : Cells) (i : Nat) (s : Slot) :
    content (cells.set i (some s)) = cells.content.set i (some s.content) :=
  List.map_set ..

end Cells

section

variable {m : Mem} {g : Shape} {rest : List (Nat × Item)}

/-- **A value is written in place.** -/
theorem Rep.bump (h : Rep m g rest) {i : Nat} {s : Slot} (hi : g.cells[i]? = some (some s)) (v : Cell) :
    ∃ m', m.store s.value_ptr (.cell v) = .ok m' ∧
      Rep m' { g with cells := g.cells.set i (some { s with value := v }) } rest := by
  obtain ⟨dic_ptr, filled, table_ptr, entries_ptr, cells, capacity, length⟩ := g
  obtain ⟨before, after, rfl, rfl⟩ := Cells.split hi
  have hinv := h.inventory
  have hitems : ∀ s : Slot, Cells.items (before ++ some s :: after) ++ rest =
      (before.items ++ [s.keyItem]) ++ s.valueItem :: (after.items ++ rest) := by
    intro s
    rw [Cells.items_append, Cells.items_some]
    simp
  rw [hitems, ← List.append_assoc, ← List.append_assoc] at hinv
  obtain ⟨heap, hwrite, hinv'⟩ := hinv.writeAt (.cell v)
  refine ⟨⟨heap, m.FUNC_DIC⟩, by rw [Mem.store, hwrite], ⟨?_, h.FUNC_DIC, h.indices, ?_, ?_⟩⟩
  · dsimp only
    rw [Cells.set_split, hitems, ← List.append_assoc, ← List.append_assoc]
    have hptrs : Cells.ptrs (before ++ some { s with value := v } :: after) = Cells.ptrs (before ++ some s :: after) := by
      simp [Cells.ptrs, Slot.ptrs]
    have hhead : Shape.headItems ⟨dic_ptr, filled, table_ptr, entries_ptr, before ++ some { s with value := v } :: after,
        capacity, length⟩ = Shape.headItems ⟨dic_ptr, filled, table_ptr, entries_ptr, before ++ some s :: after, capacity,
        length⟩ := by
      unfold Shape.headItems
      rw [hptrs]
    rw [hhead]
    exact hinv'
  · simpa using h.size
  · have hcount := h.count
    dsimp only at hcount ⊢
    rw [Cells.set_split, Cells.taken_append, List.length_append]
    rw [Cells.taken_append, List.length_append] at hcount
    exact hcount

/-- What `stat_set_entry` does at an empty slot. -/
def fillSlot (m : Mem) (table p capacity length : Nat) (entries : List (Option (Nat × Nat))) (index : Nat) (key : CStr)
    (value : Nat) : Except Fault Mem := do
  let (k, m) := m.malloc (.str key)
  let m ← m.store table (.table p capacity (length + 1))
  m.store p (.slots (entries.set index (some (k, value))))

theorem perm_pair {α : Type} (front before after rest : List α) (x y : α) :
    (x :: (front ++ (before ++ after ++ y :: rest))).Perm (front ++ ((before ++ x :: y :: after) ++ rest)) := by
  have hy : (before ++ after ++ y :: rest).Perm (before ++ (y :: after ++ rest)) := by
    rw [List.append_assoc]
    exact List.perm_middle.append_left before
  calc (x :: (front ++ (before ++ after ++ y :: rest))).Perm (x :: (front ++ (before ++ (y :: after ++ rest)))) :=
        (hy.append_left front).cons x
    _ = x :: ((front ++ before) ++ (y :: after ++ rest)) := by rw [List.append_assoc]
    List.Perm _ ((front ++ before) ++ x :: (y :: after ++ rest)) := List.perm_middle.symm
    _ = front ++ ((before ++ x :: y :: after) ++ rest) := by simp

/-- **An empty slot is filled** with a copy of the key and a value that was allocated before. -/
theorem Rep.fill {value_ptr : Nat} {v : Cell} (h : Rep m g ((value_ptr, .cell v) :: rest)) {i : Nat}
    (hi : g.cells[i]? = some none) (key : CStr) : ∃ m' key_ptr,
      fillSlot m g.table_ptr g.entries_ptr g.capacity g.length g.cells.ptrs i key value_ptr = .ok m' ∧
      Rep m' { g with cells := g.cells.set i (some ⟨key_ptr, key, value_ptr, v⟩), length := g.length + 1 } rest := by
  obtain ⟨dic_ptr, filled, table_ptr, entries_ptr, cells, capacity, length⟩ := g
  obtain ⟨before, after, rfl, rfl⟩ := Cells.split hi
  have hinv := h.inventory.alloc (.str key)
  generalize hk : (m.heap.alloc (.str key)).1 = k at hinv
  generalize hheap : (m.heap.alloc (.str key)).2 = heap at hinv
  rw [← List.cons_append] at hinv
  obtain ⟨heap₁, hwrite₁, hinv₁⟩ := hinv.writeAt (.table entries_ptr capacity (length + 1))
  have hfront : ∀ items : List (Nat × Item), ((k, Item.str key) :: Shape.dicItems ⟨dic_ptr, filled, table_ptr, entries_ptr,
      before ++ none :: after, capacity, length⟩) ++ (table_ptr, Item.table entries_ptr capacity (length + 1)) :: items =
    (((k, Item.str key) :: Shape.dicItems ⟨dic_ptr, filled, table_ptr, entries_ptr, before ++ none :: after, capacity,
      length⟩) ++ [(table_ptr, Item.table entries_ptr capacity (length + 1))]) ++ items := by
    intro items
    simp
  rw [hfront] at hinv₁
  obtain ⟨heap₂, hwrite₂, hinv₂⟩ := hinv₁.writeAt
    (.slots ((Cells.ptrs (before ++ none :: after)).set before.length (some (k, value_ptr))))
  refine ⟨⟨heap₂, m.FUNC_DIC⟩, k, ?_, ⟨?_, h.FUNC_DIC, h.indices, ?_, ?_⟩⟩
  · unfold fillSlot Mem.malloc Mem.store
    dsimp only
    rw [hk, hheap, hwrite₁]
    dsimp only
    rw [ok_bind, hwrite₂]
  · have hptrs : Cells.ptrs (before ++ some ⟨k, key, value_ptr, v⟩ :: after) =
        (Cells.ptrs (before ++ none :: after)).set before.length (some (k, value_ptr)) := by
      simp [Cells.ptrs, Slot.ptrs]
    have hperm := perm_pair (Shape.dicItems ⟨dic_ptr, filled, table_ptr, entries_ptr, before ++ none :: after, capacity,
      length⟩ ++ Shape.headItems ⟨dic_ptr, filled, table_ptr, entries_ptr, before ++ some ⟨k, key, value_ptr, v⟩ :: after,
      capacity, length + 1⟩) before.items (Cells.items after) rest (k, .str key) (value_ptr, .cell v)
    dsimp only
    rw [Cells.set_split, Cells.items_append, Cells.items_some]
    rw [Cells.items_append, Cells.items_none] at hinv₂
    refine hinv₂.perm (List.Perm.trans ?_ (hperm.trans ?_))
    · rw [← hptrs]
      simp [Shape.headItems]
    · rw [List.append_assoc (Shape.dicItems _)]
      exact List.Perm.refl _
  · simpa using h.size
  · have hcount := h.count
    dsimp only at hcount ⊢
    rw [Cells.set_split, Cells.taken_append, List.length_append]
    rw [Cells.taken_append, List.length_append] at hcount
    show length + 1 = _ + ((Cells.taken after).length + 1)
    rw [hcount, Nat.add_assoc]
    rfl

end

/-! ## `accumulate_duration` -/

/-- A run on pointers and the same run on what they point to: the blocks spell out where the other one ends, or both
fail alike. -/
inductive Follows (table_ptr : Nat) (rest : List (Nat × Item)) : Except Fault Mem →
    Except Fault (FuncDic × DurationHt Cell) → Prop
  | ok {m : Mem} {g : Shape} (h : Rep m g rest) (hp : g.table_ptr = table_ptr) :
    Follows table_ptr rest (.ok m) (.ok (dicOf g.filled, g.ht))
  | error (e : Fault) : Follows table_ptr rest (.error e) (.error e)

section

variable {m : Mem} {g : Shape} {rest : List (Nat × Item)}

theorem Rep.walk_agree (h : Rep m g rest) (key : CStr) (fuel index : Nat) :
    Agree g.cells key (walk m g.cells.ptrs g.capacity key fuel index)
      (Probing.walk g.cells.content g.capacity key fuel index) :=
  Memory.walk_agree (fun _ hs => h.str hs) ..

/-- **`stat_set_entry` with a key that its probe does not meet.** -/
theorem statSetEntry_rep {value_ptr : Nat} {v : Cell} (h : Rep m g ((value_ptr, .cell v) :: rest)) {fuel i : Nat}
    {key : CStr} (hw : Probing.walk g.cells.content g.capacity key fuel (startSlot g.capacity key) = .vacant i) :
    Follows g.table_ptr rest (statSetEntry fuel m g.table_ptr key value_ptr)
      (Provio.statSetEntry fuel (dicOf g.filled) g.ht key v) := by
  obtain ⟨m₁, filled, hgen, h₁, hdic⟩ := genHash_rep h key
  have hagree := h₁.walk_agree key fuel (startSlot g.capacity key)
  dsimp only at hagree
  rw [hw] at hagree
  generalize hx : walk m₁ g.cells.ptrs g.capacity key fuel (startSlot g.capacity key) = x at hagree
  cases hagree with
  | vacant hi =>
    obtain ⟨m₂, key_ptr, hfill, h₂⟩ := h₁.fill hi key
    have hok : statSetEntry fuel m g.table_ptr key value_ptr = .ok m₂ := by
      rw [← hfill]
      unfold statSetEntry fillSlot
      rw [hgen, ok_bind]
      dsimp only
      rw [h₁.table, ok_bind]
      dsimp only
      rw [h₁.slots, ok_bind, hx, ok_bind]
    have hok' : Provio.statSetEntry fuel (dicOf g.filled) g.ht key v = .ok ((Provio.genHash (dicOf g.filled) key).1,
        { g.ht with entries := g.ht.entries.set i (some (key, v)), length := g.ht.length + 1 }) := by
      unfold Provio.statSetEntry probe Shape.ht
      rw [hw]
    rw [hok, hok', ← hdic]
    have hht : Shape.ht { g with
        filled := filled
        cells := g.cells.set i (some ⟨key_ptr, key, value_ptr, v⟩)
        length := g.length + 1 } =
        { g.ht with entries := g.ht.entries.set i (some (key, v)), length := g.ht.length + 1 } := by
      unfold Shape.ht
      rw [Cells.content_set]
      rfl
    rw [← hht]
    exact .ok h₂ rfl

theorem accumulate_rep (h : Rep m g rest) (fuel : Nat) (c : Call) : Follows g.table_ptr rest
    (accumulateDuration fuel m g.table_ptr c) (Provio.accumulateDuration fuel (dicOf g.filled, g.ht) c) := by
  obtain ⟨m₁, filled, hgen, h₁, hdic⟩ := genHash_rep h c.func_name
  have hagree := h₁.walk_agree c.func_name fuel (startSlot g.capacity c.func_name)
  dsimp only at hagree
  unfold accumulateDuration statGet Provio.accumulateDuration accumulate Provio.statGet probe
  rw [hgen, ok_bind]
  dsimp only
  rw [h₁.table, ok_bind]
  dsimp only
  rw [h₁.slots, ok_bind, ← hdic, show g.ht.entries = g.cells.content from rfl, show g.ht.capacity = g.capacity from rfl]
  dsimp only
  generalize hx : walk m₁ g.cells.ptrs g.capacity c.func_name fuel (startSlot g.capacity c.func_name) = x at hagree
  generalize hy : Probing.walk g.cells.content g.capacity c.func_name fuel (startSlot g.capacity c.func_name) = y
    at hagree
  cases hagree with
  | hit hi hk =>
    rename_i i s
    obtain ⟨m₂, hstore, h₂⟩ := h₁.bump hi (s.value + c.elapsed)
    have hcell := h₁.cell (Cells.mem_taken hi)
    have hht : Shape.ht { g with filled := filled, cells := g.cells.set i (some { s with value := s.value + c.elapsed }) } =
        { g.ht with entries := g.ht.entries.set i (some (c.func_name, s.value + c.elapsed)) } := by
      unfold Shape.ht
      rw [Cells.content_set, ← hk]
      rfl
    show Follows g.table_ptr rest (m₁.cell s.value_ptr >>= fun v => m₁.store s.value_ptr (.cell (v + c.elapsed)))
      (.ok (dicOf filled, { g.ht with entries := g.ht.entries.set i (some (c.func_name, s.value + c.elapsed)) }))
    rw [hcell, ok_bind, hstore, ← hht]
    exact .ok h₂ rfl
  | vacant hi =>
    exact statSetEntry_rep (h₁.malloc (.cell (storeInt c.malloced c.elapsed))) hy
  | wild i => exact .error .bounds
  | spin => exact .error .spin

end

theorem accumulateAll_rep (fuel : Nat) {rest : List (Nat × Item)} : ∀ (calls : List Call) {m : Mem} {g : Shape},
    Rep m g rest → Follows g.table_ptr rest (accumulateAll fuel g.table_ptr m calls)
      (Provio.accumulateAll fuel (dicOf g.filled, g.ht) calls)
  | [], m, g, h => .ok h rfl
  | c :: calls, m, g, h => by
    have hstep := accumulate_rep h fuel c
    rw [accumulateAll, Provio.accumulateAll]
    generalize hx : accumulateDuration fuel m g.table_ptr c = x at hstep
    generalize hy : Provio.accumulateDuration fuel (dicOf g.filled, g.ht) c = y at hstep
    cases hstep with
    | ok h' hp =>
      rw [ok_bind, ok_bind, ← hp]
      exact accumulateAll_rep fuel calls h'
    | error e => exact .error e

/-! ## What a run leaves in `FUNC_DIC` -/

theorem genHash_ne_none (dic : FuncDic) (msg : CStr) (i : Nat) :
    (Provio.genHash dic msg).1 i ≠ none ↔ dic i ≠ none ∨ i = funcIndex msg := by
  unfold Provio.genHash
  by_cases hnone : dic (funcIndex msg) = none
  · rw [if_pos hnone]
    by_cases hi : i = funcIndex msg
    · simp [hi]
    · simp [hi]
  · rw [if_neg hnone]
    constructor
    · exact .inl
    · rintro (h | rfl)
      · exact h
      · exact hnone

theorem accumulate_dic {fuel : Nat} {dic : FuncDic} {t : DurationHt Cell} {c : Call} {r : FuncDic × DurationHt Cell}
    (h : Provio.accumulateDuration fuel (dic, t) c = .ok r) (i : Nat) :
    r.1 i ≠ none ↔ dic i ≠ none ∨ i = funcIndex c.func_name := by
  unfold Provio.accumulateDuration accumulate Provio.statGet at h
  dsimp only at h
  cases hw : probe fuel t.entries t.capacity c.func_name with
  | hit j v =>
    rw [hw] at h
    obtain rfl := Except.ok.inj h
    exact genHash_ne_none ..
  | vacant j =>
    rw [hw] at h
    dsimp only at h
    rw [ok_bind] at h
    dsimp only at h
    rw [Provio.statSetEntry, hw] at h
    obtain rfl := Except.ok.inj h
    rw [genHash_ne_none, genHash_ne_none, or_assoc, or_self]
  | wild j =>
    rw [hw] at h
    cases h
  | spin =>
    rw [hw] at h
    cases h

/-- The indices that the names of some calls hash to. -/
def dicIndices (calls : List Call) : Finset Nat := (calls.map fun c => funcIndex c.func_name).toFinset

theorem accumulateAll_dic {fuel : Nat} (i : Nat) : ∀ (calls : List Call) {dic : FuncDic} {t : DurationHt Cell}
    {r : FuncDic × DurationHt Cell}, Provio.accumulateAll fuel (dic, t) calls = .ok r →
      (r.1 i ≠ none ↔ dic i ≠ none ∨ i ∈ dicIndices calls)
  | [], dic, t, r, h => by
    obtain rfl := Except.ok.inj h
    simp [dicIndices]
  | c :: calls, dic, t, r, h => by
    obtain ⟨⟨dic', t'⟩, hstep, hrest⟩ := bind_eq_ok.1 h
    rw [accumulateAll_dic i calls hrest, accumulate_dic hstep, or_assoc]
    simp [dicIndices]

/-! ## Making a table, printing it and destroying it -/

section

variable {m : Mem} {rest : List (Nat × Item)}

theorem statCreate_rep (h : Inventory m.heap rest) (capacity : Int) : ∃ m' g,
    statCreate m capacity = .ok (m', g.table_ptr) ∧ Rep m' g rest ∧ g.filled = [] ∧
      g.ht = (Provio.statCreate capacity).2 := by
  let c := sizeT capacity
  have h₁ := h.alloc (.dic fun _ => none)
  generalize hm₁ : (m.heap.alloc (.dic fun _ => none)).2 = heap₁ at h₁
  generalize hd : (m.heap.alloc (.dic fun _ => none)).1 = d at h₁
  have h₂ := h₁.alloc (.table 0 c 0)
  generalize hm₂ : (heap₁.alloc (.table 0 c 0)).2 = heap₂ at h₂
  generalize ht : (heap₁.alloc (.table 0 c 0)).1 = t at h₂
  have h₃ := (h₂.alloc (.slots (List.replicate c none))).perm (.swap ..)
  generalize hm₃ : (heap₂.alloc (.slots (List.replicate c none))).2 = heap₃ at h₃
  generalize he : (heap₂.alloc (.slots (List.replicate c none))).1 = e at h₃
  obtain ⟨heap₄, hwrite, h₄⟩ := h₃.write (.table e c 0)
  refine ⟨⟨heap₄, some d⟩, ⟨d, [], t, e, List.replicate c none, c, 0⟩, ?_, ⟨h₄.perm ?_, rfl, List.nodup_nil, ?_, ?_⟩, rfl,
    ?_⟩
  · unfold statCreate funcDicAlloc Mem.malloc Mem.store
    dsimp only
    rw [hm₁, hd, hm₂, ht, hm₃, he, hwrite]
    rfl
  · have hitems : Cells.items (List.replicate c none) = [] := by simp [Cells.items, Cells.taken]
    have hptrs : Cells.ptrs (List.replicate c none) = List.replicate c none := by simp [Cells.ptrs]
    dsimp only [Shape.dicItems, Shape.headItems]
    rw [hitems, hptrs]
    exact @List.perm_middle _ _ [_, _] rest
  · exact List.length_replicate ..
  · simp [Cells.taken]
  · simp [Shape.ht, Cells.content, Provio.statCreate, c]

theorem Cells.taken_drop_some {cells : Cells} {i : Nat} {s : Slot} (hi : cells[i]? = some (some s)) :
    taken (cells.drop i) = s :: taken (cells.drop (i + 1)) := by
  obtain ⟨hlt, hget⟩ := List.getElem?_eq_some_iff.1 hi
  rw [List.drop_eq_getElem_cons hlt, hget]
  rfl

theorem Cells.taken_drop_none {cells : Cells} {i : Nat} (hi : cells[i]? = some none) :
    taken (cells.drop i) = taken (cells.drop (i + 1)) := by
  obtain ⟨hlt, hget⟩ := List.getElem?_eq_some_iff.1 hi
  rw [List.drop_eq_getElem_cons hlt, hget]
  rfl

def Slot.line (s : Slot) : CStr × Int := (s.key, loadInt s.value)

variable {cells : Cells} {table_ptr entries_ptr length : Nat} {front : List (Nat × Item)}

/-- **The loop of `stat_print_` prints a line for each slot that is taken and frees its value.** -/
theorem printLoop_of (htable : (table_ptr, .table entries_ptr cells.length length) ∈ front)
    (hslots : (entries_ptr, .slots cells.ptrs) ∈ front) (hkeys : ∀ s ∈ cells.taken, s.keyItem ∈ front) :
    ∀ (n index : Nat) (m : Mem), cells.length < n + index →
      Inventory m.heap (front ++ ((Cells.valueItems (cells.drop index)) ++ rest)) →
      ∃ m', printLoop table_ptr n index m = .ok (m', (Cells.taken (cells.drop index)).map Slot.line) ∧
        Inventory m'.heap (front ++ rest)
  | 0, index, m, hn, h => by
    have hdrop : cells.drop index = [] := List.drop_eq_nil_of_le (by omega)
    rw [hdrop] at h ⊢
    exact ⟨m, rfl, h⟩
  | n + 1, index, m, hn, h => by
    rw [printLoop, Mem.table_of h (List.mem_append_left _ htable), ok_bind]
    dsimp only
    by_cases hlt : index < cells.length
    · rw [if_pos hlt, Mem.slots_of h (List.mem_append_left _ hslots), ok_bind,
        show cells.ptrs[index]? = cells[index]?.map (Option.map Slot.ptrs) from List.getElem?_map ..]
      have hnext : cells.length < n + (index + 1) := by omega
      cases hi : cells[index]? with
      | none =>
        rw [List.getElem?_eq_none_iff] at hi
        omega
      | some o =>
        cases o with
        | none =>
          rw [Cells.valueItems, Cells.taken_drop_none hi] at h
          rw [Cells.taken_drop_none hi]
          exact printLoop_of htable hslots hkeys n (index + 1) m hnext h
        | some s =>
          have hs := Cells.mem_taken hi
          rw [Cells.valueItems, Cells.taken_drop_some hi, List.map_cons, List.cons_append] at h
          have hkey := Mem.str_of h (List.mem_append_left _ (hkeys s hs))
          have hcell := Mem.cell_of h (List.mem_append_right _ (List.mem_cons_self ..))
          obtain ⟨m₁, hfree, h₁⟩ := Mem.free_of h
          obtain ⟨m₂, hloop, h₂⟩ := printLoop_of htable hslots hkeys n (index + 1) m₁ hnext h₁
          refine ⟨m₂, ?_, h₂⟩
          show (m.str s.key_ptr >>= fun _ => m.cell s.value_ptr >>= fun _ => m.free s.value_ptr >>= fun _ => _) = _
          rw [hkey, ok_bind, hcell, ok_bind, hfree, ok_bind, hloop, Cells.taken_drop_some hi]
          rfl
    · have hdrop : cells.drop index = [] := List.drop_eq_nil_of_le (by omega)
      rw [hdrop] at h ⊢
      rw [if_neg hlt]
      exact ⟨m, rfl, h⟩

/-- **The loop of `stat_destroy` frees each key.** -/
theorem freeKeys_of (htable : (table_ptr, .table entries_ptr cells.length length) ∈ front)
    (hslots : (entries_ptr, .slots cells.ptrs) ∈ front) :
    ∀ (n index : Nat) (m : Mem), cells.length < n + index →
      Inventory m.heap (front ++ ((Cells.keyItems (cells.drop index)) ++ rest)) →
      ∃ m', freeKeys table_ptr n index m = .ok m' ∧ Inventory m'.heap (front ++ rest)
  | 0, index, m, hn, h => by
    have hdrop : cells.drop index = [] := List.drop_eq_nil_of_le (by omega)
    rw [hdrop] at h
    exact ⟨m, rfl, h⟩
  | n + 1, index, m, hn, h => by
    rw [freeKeys, Mem.table_of h (List.mem_append_left _ htable), ok_bind]
    dsimp only
    by_cases hlt : index < cells.length
    · rw [if_pos hlt, Mem.slots_of h (List.mem_append_left _ hslots), ok_bind,
        show cells.ptrs[index]? = cells[index]?.map (Option.map Slot.ptrs) from List.getElem?_map ..]
      have hnext : cells.length < n + (index + 1) := by omega
      cases hi : cells[index]? with
      | none =>
        rw [List.getElem?_eq_none_iff] at hi
        omega
      | some o =>
        cases o with
        | none =>
          rw [Cells.keyItems, Cells.taken_drop_none hi] at h
          exact freeKeys_of htable hslots n (index + 1) m hnext h
        | some s =>
          rw [Cells.keyItems, Cells.taken_drop_some hi, List.map_cons, List.cons_append] at h
          obtain ⟨m₁, hfree, h₁⟩ := Mem.free_of h
          show ∃ m', (m.free s.key_ptr >>= fun _ => _) = .ok m' ∧ _
          rw [hfree, ok_bind]
          exact freeKeys_of htable hslots n (index + 1) m₁ hnext h₁
    · have hdrop : cells.drop index = [] := List.drop_eq_nil_of_le (by omega)
      rw [hdrop] at h
      rw [if_neg hlt]
      exact ⟨m, rfl, h⟩

end

theorem Cells.items_perm : ∀ cells : Cells, cells.items.Perm (cells.keyItems ++ cells.valueItems) := by
  intro cells
  unfold items keyItems valueItems
  induction cells.taken with
  | nil => exact List.Perm.refl _
  | cons s taken ih =>
    calc (s.keyItem :: s.valueItem :: taken.flatMap Slot.items).Perm
          (s.keyItem :: s.valueItem :: (taken.map Slot.keyItem ++ taken.map Slot.valueItem)) := (ih.cons _).cons _
      List.Perm _ (s.keyItem :: (taken.map Slot.keyItem ++ s.valueItem :: taken.map Slot.valueItem)) :=
        (List.perm_middle.symm).cons _

theorem Cells.entries_content : ∀ cells : Cells, Probing.entries cells.content = cells.taken.map Slot.content
  | [] => rfl
  | none :: cells => Cells.entries_content cells
  | some s :: cells => congrArg (s.content :: ·) (Cells.entries_content cells)

section

variable {m : Mem} {g : Shape} {rest : List (Nat × Item)}

theorem Rep.inventory_values (h : Rep m g rest) :
    Inventory m.heap (g.dicItems ++ (g.headItems ++ (g.cells.keyItems ++ (g.cells.valueItems ++ rest)))) := by
  refine h.inventory.perm (.append_left _ (.append_left _ ?_))
  rw [← List.append_assoc]
  exact (Cells.items_perm g.cells).append_right rest

theorem statPrint_rep (h : Rep m g rest) (rank : Int) (prov_stat : Option Stat) : ∃ m',
    statPrint_ m g.table_ptr = .ok (m', (Provio.statPrint_ rank prov_stat g.ht).lines) ∧
      Inventory m'.heap (g.dicItems ++ (g.headItems ++ (g.cells.keyItems ++ rest))) := by
  have hinv := h.inventory_values
  rw [← List.append_assoc, ← List.append_assoc] at hinv
  have hhead : ∀ x ∈ g.headItems, x ∈ (g.dicItems ++ g.headItems) ++ g.cells.keyItems := fun x hx =>
    List.mem_append_left _ (List.mem_append_right _ hx)
  have hlines : (Provio.statPrint_ rank prov_stat g.ht).lines = (Cells.taken (g.cells.drop 0)).map Slot.line := by
    have hsize : g.ht.entries.length = g.ht.capacity := (List.length_map ..).trans h.size
    have hpass := statPass_eq g.ht hsize (g.ht.capacity + 1) 0 (Nat.zero_le _) (Nat.lt_succ_self _)
    unfold Provio.statPrint_ statIterator
    rw [hpass, List.drop_zero, List.drop_zero]
    dsimp only
    rw [show g.ht.entries = g.cells.content from rfl, Cells.entries_content, List.map_map]
    rfl
  have htable : (g.table_ptr, Item.table g.entries_ptr g.cells.length g.length) ∈ g.headItems := by
    rw [h.size]
    exact .head _
  obtain ⟨m', hloop, hinv'⟩ := printLoop_of (hhead _ htable) (hhead _ (.tail _ (.head _)))
    (fun s hs => List.mem_append_right _ (List.mem_map.2 ⟨s, hs, rfl⟩)) (g.capacity + 1) 0 m
    (by rw [h.size]; exact Nat.lt_succ_self _) hinv
  refine ⟨m', ?_, ?_⟩
  · rw [statPrint_, h.table, ok_bind, hlines]
    exact hloop
  · rw [← List.append_assoc, ← List.append_assoc]
    exact hinv'

theorem statDestroy_rep (hsize : g.cells.length = g.capacity)
    (h : Inventory m.heap (g.dicItems ++ (g.headItems ++ (g.cells.keyItems ++ rest)))) :
    ∃ m', statDestroy m g.table_ptr = .ok m' ∧ Inventory m'.heap (g.dicItems ++ rest) := by
  rw [← List.append_assoc] at h
  have htable : (g.table_ptr, Item.table g.entries_ptr g.cells.length g.length) ∈ g.dicItems ++ g.headItems := by
    rw [hsize]
    exact List.mem_append_right _ (.head _)
  obtain ⟨m₁, hkeys, h₁⟩ := freeKeys_of htable (List.mem_append_right _ (.tail _ (.head _))) (g.capacity + 1) 0 m
    (by rw [hsize]; exact Nat.lt_succ_self _) h
  have hsplit : g.dicItems ++ g.headItems ++ rest = (g.dicItems ++ [(g.table_ptr, Item.table g.entries_ptr g.capacity
      g.length)]) ++ (g.entries_ptr, Item.slots g.cells.ptrs) :: rest := by
    simp [Shape.headItems]
  rw [hsplit] at h₁
  obtain ⟨m₂, hentries, h₂⟩ := Mem.free_of h₁
  rw [List.append_assoc] at h₂
  obtain ⟨m₃, hfree, h₃⟩ := Mem.free_of h₂
  refine ⟨m₃, ?_, h₃⟩
  rw [hsize] at htable
  rw [statDestroy, Mem.table_of h (List.mem_append_left _ htable), ok_bind]
  dsimp only
  rw [hkeys, ok_bind, hentries, ok_bind, hfree]

end

/-! ## Sessions -/

namespace StatSession

variable (s : StatSession)

/-- How many blocks of a session are left when its table had `length` entries. -/
def left (length : Nat) : Nat :=
  1 + (dicIndices s.calls).card + if s.rank_zero then (if s.stat_file then 0 else length) else 2 + 2 * length

/-- What a session prints and how many blocks it leaves, without its memory. -/
def report : Except Fault (Option (List (CStr × Int)) × Nat) := do
  let (_, t) ← Provio.accumulateAll s.fuel (Provio.statCreate s.num_of_apis) s.calls
  pure (if s.rank_zero && s.stat_file then some (Provio.statPrint_ 0 none t).lines else none, s.left t.length)

end StatSession

def reports : List StatSession → Except Fault (List (Option (List (CStr × Int))) × Nat)
  | []      => .ok ([], 0)
  | s :: ss => do
    let (out, n) ← s.report
    let (outs, n') ← reports ss
    pure (out :: outs, n + n')

/-- A session or a run on pointers comes to what it comes to without them, over blocks of which `before` were there. -/
inductive Reaches (α : Type) (before : List (Nat × Item)) : Except Fault (Mem × α) → Except Fault (α × Nat) → Prop
  | ok {m : Mem} {out : α} {items : List (Nat × Item)} {n : Nat} (h : Inventory m.heap items)
    (hn : items.length = n + before.length) : Reaches α before (.ok (m, out)) (.ok (out, n))
  | error (e : Fault) : Reaches α before (.error e) (.error e)

theorem Rep.filled_length {m : Mem} {g : Shape} {rest : List (Nat × Item)} (h : Rep m g rest) {calls : List Call}
    (hdic : ∀ i, dicOf g.filled i ≠ none ↔ i ∈ dicIndices calls) : g.filled.length = (dicIndices calls).card := by
  have hset : (g.filled.map Filled.index).toFinset = dicIndices calls := by
    ext i
    rw [List.mem_toFinset, ← dicOf_ne_none, hdic]
  rw [← hset, List.toFinset_card_of_nodup h.indices, List.length_map]

/-- **A session on pointers is a session on the table.** -/
theorem StatSession.run_reaches {m : Mem} {rest : List (Nat × Item)} (h : Inventory m.heap rest) (s : StatSession) :
    Reaches _ rest (s.run m) s.report := by
  obtain ⟨m₁, g₁, hcreate, h₁, hfilled, hht⟩ := statCreate_rep h s.num_of_apis
  have hdic₁ : dicOf g₁.filled = (Provio.statCreate (V := Cell) s.num_of_apis).1 := by
    rw [hfilled]
    rfl
  have hrun := accumulateAll_rep s.fuel s.calls h₁
  rw [hdic₁, hht] at hrun
  unfold StatSession.run StatSession.report
  rw [hcreate, ok_bind]
  dsimp only
  generalize hx : accumulateAll s.fuel g₁.table_ptr m₁ s.calls = x at hrun
  generalize hy : Provio.accumulateAll s.fuel ((Provio.statCreate s.num_of_apis).1, (Provio.statCreate s.num_of_apis).2)
    s.calls = y at hrun
  cases hrun with
  | error e => exact .error e
  | ok h₂ hp =>
    rename_i m₂ g₂
    have hlen : g₂.filled.length = (dicIndices s.calls).card := by
      refine h₂.filled_length fun i => ?_
      rw [accumulateAll_dic i s.calls hy]
      simp [Provio.statCreate, dicInitInt]
    have hdicItems : g₂.dicItems.length = 1 + (dicIndices s.calls).card := by
      rw [Shape.dicItems, List.length_cons, List.length_map, hlen, Nat.add_comm]
    have hcount : g₂.ht.length = g₂.cells.taken.length := h₂.count
    rw [← hp, ok_bind, ok_bind]
    dsimp only
    unfold StatSession.left
    cases s.rank_zero with
    | false =>
      refine .ok h₂.inventory ?_
      simp [Cells.items, Slot.items, Shape.headItems, hdicItems, hcount]
      omega
    | true =>
      cases s.stat_file with
      | false =>
        have hinv := h₂.inventory_values
        obtain ⟨m₃, hdestroy, h₃⟩ := statDestroy_rep h₂.size hinv
        rw [if_pos rfl, if_neg Bool.false_ne_true, hdestroy, ok_bind]
        refine .ok h₃ ?_
        simp [Cells.valueItems, hdicItems, hcount]
        omega
      | true =>
        obtain ⟨m₃, hprint, h₃⟩ := statPrint_rep h₂ 0 none
        obtain ⟨m₄, hdestroy, h₄⟩ := statDestroy_rep h₂.size h₃
        rw [if_pos rfl, if_pos rfl, hprint, ok_bind]
        dsimp only
        rw [hdestroy, ok_bind]
        refine .ok h₄ ?_
        simp [hdicItems]

theorem runStats_reaches : ∀ (ss : List StatSession) {m : Mem} {rest : List (Nat × Item)}, Inventory m.heap rest →
    Reaches _ rest (runStats m ss) (reports ss)
  | [], m, rest, h => .ok h (Nat.zero_add _).symm
  | s :: ss, m, rest, h => by
    have hrun := s.run_reaches h
    rw [runStats, reports]
    generalize hx : s.run m = x at hrun
    generalize hy : s.report = y at hrun
    cases hrun with
    | error e => exact .error e
    | ok h₁ hn =>
      rename_i m₁ out items n
      have hrest := runStats_reaches ss h₁
      rw [ok_bind, ok_bind]
      dsimp only
      generalize hx' : runStats m₁ ss = x' at hrest
      generalize hy' : reports ss = y' at hrest
      cases hrest with
      | error e => exact .error e
      | ok h₂ hn' =>
        refine .ok h₂ ?_
        rw [hn', hn]
        omega

/-- The only faults of a run of calls are a probe that leaves the table and one that never ends. -/
theorem accumulateAll_fault {fuel : Nat} {e : Fault} : ∀ (calls : List Call) {counts : FuncDic × DurationHt Cell},
    Provio.accumulateAll fuel counts calls = .error e → e = .bounds ∨ e = .spin
  | [], counts, h => by cases h
  | c :: calls, counts, h => by
    rw [Provio.accumulateAll] at h
    cases hstep : Provio.accumulateDuration fuel counts c with
    | ok r =>
      rw [hstep, ok_bind] at h
      exact accumulateAll_fault calls h
    | error e' =>
      rw [hstep, error_bind] at h
      obtain rfl := Except.error.inj h
      unfold Provio.accumulateDuration accumulate Provio.statGet at hstep
      cases hw : probe fuel counts.2.entries counts.2.capacity c.func_name with
      | hit j v =>
        rw [hw] at hstep
        cases hstep
      | vacant j =>
        rw [hw] at hstep
        dsimp only at hstep
        rw [ok_bind] at hstep
        dsimp only at hstep
        rw [Provio.statSetEntry, hw] at hstep
        cases hstep
      | wild j =>
        rw [hw] at hstep
        exact .inl (Except.error.inj hstep).symm
      | spin =>
        rw [hw] at hstep
        exact .inr (Except.error.inj hstep).symm

theorem reports_fault {e : Fault} : ∀ ss : List StatSession, reports ss = .error e → e = .bounds ∨ e = .spin
  | [], h => by cases h
  | s :: ss, h => by
    rw [reports] at h
    cases hs : s.report with
    | error e' =>
      rw [hs, error_bind] at h
      obtain rfl := Except.error.inj h
      unfold StatSession.report at hs
      cases hrun : Provio.accumulateAll s.fuel (Provio.statCreate s.num_of_apis) s.calls with
      | ok r =>
        rw [hrun] at hs
        cases hs
      | error e'' =>
        rw [hrun, error_bind] at hs
        obtain rfl := Except.error.inj hs
        exact accumulateAll_fault s.calls hrun
    | ok r =>
      rw [hs, ok_bind] at h
      cases hss : reports ss with
      | error e' =>
        dsimp only at h
        rw [hss, error_bind] at h
        obtain rfl := Except.error.inj h
        exact reports_fault ss hss
      | ok r' =>
        dsimp only at h
        rw [hss] at h
        cases h

/-- **`stat.c` reads and frees no freed block**, and no `FUNC_DIC` that is not there: whatever the sessions of a process
sum, and whether they end or fail. -/
theorem runStats_safe (ss : List StatSession) :
    runStats .start ss ≠ .error .freed ∧ runStats .start ss ≠ .error .null := by
  have hrun := runStats_reaches ss (m := .start) .empty
  have hfault := fun e => @reports_fault e ss
  generalize hx : runStats .start ss = x at hrun
  generalize hy : reports ss = y at hrun hfault
  cases hrun with
  | ok h hn => exact ⟨by simp, by simp⟩
  | error e =>
    rcases hfault e rfl with rfl | rfl
    · exact ⟨by simp, by simp⟩
    · exact ⟨by simp, by simp⟩

def StatSession.Fits (s : StatSession) : Prop :=
  1 ≤ s.num_of_apis ∧ s.num_of_apis < 2 ^ 31 ∧ ((used s.calls).card : Int) ≤ s.num_of_apis

instance (s : StatSession) : Decidable s.Fits := inferInstanceAs (Decidable (_ ∧ _ ∧ _))

/-- Rank 0 prints the lines of the session's table: each name once, with the low half of the sum of its calls. -/
def StatSession.Prints (s : StatSession) (out : Option (List (CStr × Int))) : Prop :=
  (∃ r, Provio.accumulateAll s.fuel (Provio.statCreate s.num_of_apis) s.calls = .ok r ∧
    out = if s.rank_zero && s.stat_file then some (Provio.statPrint_ 0 none r.2).lines else none) ∧
  ∀ lines ∈ out, (lines.map Prod.fst).Nodup ∧
    ∀ k n, (k, n) ∈ lines ↔ k ∈ used s.calls ∧ n = (low (accumulators s.calls) k).toInt

theorem StatSession.report_fits {s : StatSession} (hfits : s.Fits) :
    ∃ out, s.report = .ok (out, s.left (used s.calls).card) ∧ s.Prints out := by
  obtain ⟨hpos, hbound, hcard⟩ := hfits
  obtain ⟨c, hc⟩ := Int.eq_ofNat_of_zero_le (Int.le_trans Int.one_nonneg hpos)
  have hfuel : c ≤ s.fuel := by
    unfold StatSession.fuel sizeT
    omega
  obtain ⟨dic, t, hrun, ht, -⟩ := accumulateAll_statCreate (c := c) (by omega) (by omega)
    (show (used s.calls).card ≤ c by omega) hfuel
  rw [← hc] at hrun
  have hset : stored t = used s.calls := by
    ext k
    rw [ht.mem_stored, accumulators_ne_none]
  have hlen : t.length = (used s.calls).card := by rw [← ht.card_stored, hset]
  refine ⟨_, by rw [report, hrun, ok_bind, ← hlen]; rfl, ⟨_, hrun, rfl⟩, fun lines hlines => ?_⟩
  obtain rfl : (Provio.statPrint_ 0 none t).lines = lines := by
    cases hprint : s.rank_zero && s.stat_file with
    | false =>
      rw [hprint] at hlines
      cases hlines
    | true =>
      rw [hprint] at hlines
      exact Option.some.inj hlines
  refine ⟨?_, fun k n => ?_⟩
  · rw [Provio.statPrint_, ht.statPass, List.map_map]
    exact ht.nodup
  · rw [ht.mem_lines, accumulators_ne_none]

theorem reports_fits : ∀ ss : List StatSession, (∀ s ∈ ss, s.Fits) → ∃ outs,
    reports ss = .ok (outs, (ss.map fun s => s.left (used s.calls).card).sum) ∧ List.Forall₂ StatSession.Prints ss outs
  | [], _ => ⟨[], rfl, .nil⟩
  | s :: ss, h => by
    obtain ⟨out, hs, hprints⟩ := StatSession.report_fits (h s (.head _))
    obtain ⟨outs, hss, hall⟩ := reports_fits ss fun s' hs' => h s' (.tail _ hs')
    refine ⟨out :: outs, ?_, .cons hprints hall⟩
    rw [reports, hs, ok_bind]
    dsimp only
    rw [hss, ok_bind, List.map_cons, List.sum_cons]
    rfl

/-- **What the sessions of a process leave allocated**: for each `FUNC_DIC` and a string for each index that its names
hash to, on rank 0 with no file to print to a value for each name, and on any other rank its whole table. -/
theorem runStats_leaves {ss : List StatSession} (hfits : ∀ s ∈ ss, s.Fits) : ∃ m outs items,
    runStats .start ss = .ok (m, outs) ∧ List.Forall₂ StatSession.Prints ss outs ∧ Inventory m.heap items ∧
      items.length = (ss.map fun s => s.left (used s.calls).card).sum := by
  obtain ⟨outs, hreports, hall⟩ := reports_fits ss hfits
  have hrun := runStats_reaches ss (m := .start) .empty
  rw [hreports] at hrun
  generalize hx : runStats .start ss = x at hrun
  cases hrun with
  | ok h hn => exact ⟨_, outs, _, rfl, hall, h, hn⟩

/-- Rank 0 with a file, and a later session on another rank. -/
def twoRanks : List StatSession :=
  [⟨62, [⟨cstr "H5Dread", 40, 0⟩, ⟨cstr "H5Dwrite", 2, 0⟩, ⟨cstr "H5Dread", 2, 0⟩], true, true⟩,
    ⟨62, [⟨cstr "H5Dread", 40, 0⟩], false, false⟩]

theorem runStats_leaves_ranks : ∃ m outs items,
    runStats .start twoRanks = .ok (m, outs) ∧ Inventory m.heap items ∧ items.length = 9 := by
  obtain ⟨m, outs, items, hrun, -, hinv, hlen⟩ := runStats_leaves (show ∀ s ∈ twoRanks, s.Fits by decide)
  refine ⟨m, outs, items, hrun, hinv, hlen.trans ?_⟩
  decide

end Memory
end Provio
