import Provio.Blocks
import Provio.Names
/-!
# Naming — the string a record copies its data object from

Ten callbacks give `prov_fill_data_object` a name that it copies unchecked: the caller's own, which is NULL for an
anonymous object, or a block that the callback has the attribute's name written into.  `H5VL_provenance_attr_open` frees
that block first.  The copy succeeds exactly for a name the caller gave, and for a read or a write whose attribute tells
its name (`records_iff`).
-/
namespace Provio

open Blocks (Heap Ptr Stray)

/-- `attr_get_name` with what `H5VLattr_get` answers, a name or a failure. -/
def attrGetName (h : Heap UInt8) (answer : Option CStr) (buf_size : Nat) (buf : Ptr) : Except Stray (Heap UInt8 × Int) :=
  match answer with
  | none => .ok (h, -1)
  | some name =>
    match buf with
    | none   => .ok (h, name.length)
    | some _ => do
      let h ← h.write buf 0 (cutTo buf_size name ++ [0])
      pure (h, name.length)

/-- Asks for the length, then for the name: `attr_name` and `name`. -/
def askName (h : Heap UInt8) (length name : Option CStr) : Except Stray (Heap UInt8 × Ptr × Ptr) := do
  let (h, size_ret) ← attrGetName h length 0 none
  if 0 < size_ret then
    let buf_len := size_ret.toNat + 1
    let (h, attr_name) := h.malloc buf_len
    let (h, size_ret) ← attrGetName h name buf_len attr_name
    pure (h, attr_name, if 0 ≤ size_ret then attr_name else none)
  else pure (h, none, none)

/-- A callback that fills in a data object, with the name argument or the two answers it gets, and what the underlying
call came to. -/
inductive NameUse where
  | make (f : Maker) (name : Ptr) (under : Bool)
  | attrOpen (name : Ptr) (under : Bool) (length answer : Option CStr)
  | attrAccess (x : Xfer) (ret : Bool) (length answer : Option CStr)

/-- The pointer `prov_fill_data_object` is given, and the heap then. -/
def NameUse.name (h : Heap UInt8) : NameUse → Except Stray (Heap UInt8 × Ptr)
  | .make _ name _ => .ok (h, name)
  | .attrOpen name under length answer =>
    if under then do
      let (h, attr_name, name) ← if name = none then askName h length answer else pure (h, none, name)
      let h ← h.free attr_name
      pure (h, name)
    else .ok (h, name)
  | .attrAccess _ _ length answer => do
    let (h, _, name) ← askName h length answer
    pure (h, name)

def NameUse.copied (h : Heap UInt8) (u : NameUse) : Except Stray CStr := do
  let (h, name) ← u.name h
  h.string 0 name

/-- A name argument is NULL or the caller's string. -/
def NameUse.Passed (h : Heap UInt8) : NameUse → Prop
  | .make _ name _ | .attrOpen name _ _ _ => name ≠ none → ∃ s, h.string 0 name = .ok s
  | .attrAccess _ _ _ _                   => True

/-- `s` is recorded; of an attribute opened by index it is the name. -/
def NameUse.Records (h : Heap UInt8) (u : NameUse) (s : CStr) : Prop :=
  u.copied h = .ok s ∧
    match u with
    | .attrOpen none _ _ answer => answer = some s
    | _                         => True

/-- The caller gave a name, or the attribute told it. -/
def NameUse.Named : NameUse → Prop
  | .make _ name _ | .attrOpen name _ _ _ => name ≠ none
  | .attrAccess _ _ length answer         => (∃ n ∈ length, n ≠ []) ∧ answer ≠ none

/-! ## What asking for the name leaves -/

def askedName (length answer : Option CStr) : Option CStr :=
  match length, answer with
  | some (c :: n), some name => some ((cutTo ((c :: n).length + 1) name).takeWhile (· ≠ 0))
  | _, _                     => none

theorem askedName_isSome (length answer : Option CStr) :
    (askedName length answer).isSome ↔ (∃ n ∈ length, n ≠ []) ∧ answer ≠ none := by
  unfold askedName
  split
  · simp
  · rename_i h
    simp only [Option.isSome_none, Bool.false_eq_true, false_iff, not_and, not_not]
    rintro ⟨n, hn, hne⟩
    obtain ⟨c, n, rfl⟩ := List.exists_cons_of_ne_nil hne
    by_contra ha
    obtain ⟨name, rfl⟩ := Option.ne_none_iff_exists'.1 ha
    exact h c n name (Option.mem_def.1 hn) rfl

/-- The result of asking for a name. -/
structure Asked (h h' : Heap UInt8) (attr_name name : Ptr) (asked : Option CStr) : Prop where
  /-- A block that is still allocated, if any. -/
  live  : attr_name ≠ none → ∃ cs, h'.cells attr_name = .ok cs
  name  : name = none ∧ asked = none ∨ name = attr_name ∧ name ≠ none ∧ ∃ s, asked = some s ∧ h'.string 0 name = .ok s
  /-- Nothing else is touched. -/
  other : ∀ q cs, h.cells q = .ok cs → h'.cells q = .ok cs

theorem askName_spec (h : Heap UInt8) (length answer : Option CStr) :
    ∃ h' attr_name name, askName h length answer = .ok (h', attr_name, name) ∧
      Asked h h' attr_name name (askedName length answer) := by
  have hnone : ∀ {l : Option CStr}, (l = none ∨ l = some []) → askName h l answer = .ok (h, none, none) ∧
      askedName l answer = none := by
    rintro l (rfl | rfl)
    · exact ⟨rfl, rfl⟩
    · exact ⟨rfl, rfl⟩
  cases length with
  | none => exact ⟨h, none, none, (hnone (.inl rfl)).1, fun hn => absurd rfl hn, .inl ⟨rfl, rfl⟩, fun _ _ hq => hq⟩
  | some n =>
    cases n with
    | nil => exact ⟨h, none, none, (hnone (.inr rfl)).1, fun hn => absurd rfl hn, .inl ⟨rfl, rfl⟩, fun _ _ hq => hq⟩
    | cons c n =>
      have hfirst : attrGetName h (some (c :: n)) 0 none = .ok (h, ((c :: n).length : Int)) := rfl
      have hpos : (0 : Int) < (c :: n).length := by simp
      rw [askName, hfirst, ok_bind]
      dsimp only
      rw [if_pos hpos, Int.toNat_natCast]
      cases answer with
      | none =>
        exact ⟨_, _, _, rfl, fun _ => ⟨_, Blocks.cells_malloc h _⟩, .inl ⟨rfl, rfl⟩,
          fun q cs hq => (Blocks.cells_malloc_of_cells hq _).1⟩
      | some name =>
        have hfit : (cutTo ((c :: n).length + 1) name).length + 1 ≤ (c :: n).length + 1 := by
          simp only [cutTo, List.length_take]
          omega
        obtain ⟨h', hw, hstring, hlive, hother⟩ := Blocks.string_write 0 h hfit
        have hsecond : attrGetName (h.malloc ((c :: n).length + 1)).1 (some name) ((c :: n).length + 1)
            (h.malloc ((c :: n).length + 1)).2 = .ok (h', (name.length : Int)) := by
          show (do
            let h ← (h.malloc ((c :: n).length + 1)).1.write (h.malloc ((c :: n).length + 1)).2 0
              (cutTo ((c :: n).length + 1) name ++ [0])
            pure (h, (name.length : Int))) = _
          rw [hw]
          rfl
        rw [hsecond, ok_bind]
        dsimp only
        rw [if_pos (by simp)]
        exact ⟨h', _, _, rfl, fun _ => hlive, .inr ⟨rfl, nofun, _, rfl, hstring⟩, hother⟩

/-! ## When a name is recorded -/

/-- **The name of an attribute opened by index is read after it was freed**, or is NULL. -/
theorem attrOpen_unnamed (h : Heap UInt8) (under : Bool) (length answer : Option CStr) :
    (NameUse.attrOpen none under length answer).copied h
      = .error (if under ∧ (askedName length answer).isSome then .freed else .null) := by
  cases under with
  | false => rfl
  | true =>
    obtain ⟨h', attr_name, name, hask, hasked⟩ := askName_spec h length answer
    rw [NameUse.copied, NameUse.name, if_pos rfl, if_pos rfl, hask, ok_bind]
    dsimp only
    cases attr_name with
    | none =>
      rcases hasked.name with ⟨rfl, hnone⟩ | ⟨rfl, hne, -⟩
      · rw [hnone]
        rfl
      · exact absurd rfl hne
    | some p =>
      obtain ⟨cs, hcs⟩ := hasked.live nofun
      obtain ⟨h'', hfree, hfreed, -⟩ := Blocks.free_eq hcs
      rw [hfree, ok_bind]
      rcases hasked.name with ⟨rfl, hnone⟩ | ⟨rfl, -, s, hsome, -⟩
      · rw [hnone]
        rfl
      · rw [hsome]
        exact Blocks.string_of_error 0 hfreed

theorem attrAccess_copied (h : Heap UInt8) (x : Xfer) (ret : Bool) (length answer : Option CStr) :
    (NameUse.attrAccess x ret length answer).copied h
      = match askedName length answer with
        | none   => .error .null
        | some s => .ok s := by
  obtain ⟨h', attr_name, name, hask, hasked⟩ := askName_spec h length answer
  rw [NameUse.copied, NameUse.name, hask, ok_bind]
  rcases hasked.name with ⟨rfl, hnone⟩ | ⟨rfl, -, s, hsome, hstring⟩
  · rw [hnone]
    rfl
  · rw [hsome]
    exact hstring

theorem given_copied {h : Heap UInt8} {name : Ptr} {s : CStr} (hname : name ≠ none) (hs : h.string 0 name = .ok s) :
    (∀ f under, (NameUse.make f name under).copied h = .ok s) ∧
    ∀ under length answer, (NameUse.attrOpen name under length answer).copied h = .ok s := by
  refine ⟨fun _ _ => hs, fun under length answer => ?_⟩
  cases under with
  | false => exact hs
  | true =>
    rw [NameUse.copied, NameUse.name, if_pos rfl, if_neg hname]
    exact hs

/-- **A string is copied, and of an attribute opened by index its name, exactly when the caller gave a name or the
attribute told it.** -/
theorem records_iff (h : Heap UInt8) (u : NameUse) (hu : u.Passed h) : (∃ s, u.Records h s) ↔ u.Named := by
  cases u with
  | make f name under =>
    constructor
    · rintro ⟨s, hs, -⟩ rfl
      cases hs
    · intro hname
      obtain ⟨s, hs⟩ := hu hname
      exact ⟨s, (given_copied hname hs).1 f under, trivial⟩
  | attrOpen name under length answer =>
    constructor
    · rintro ⟨s, hs, -⟩ rfl
      rw [attrOpen_unnamed] at hs
      cases hs
    · intro hname
      obtain ⟨s, hs⟩ := hu hname
      refine ⟨s, (given_copied hname hs).2 under length answer, ?_⟩
      cases name with
      | none => exact absurd rfl hname
      | some p => trivial
  | attrAccess x ret length answer =>
    show _ ↔ (∃ n ∈ length, n ≠ []) ∧ answer ≠ none
    rw [← askedName_isSome]
    simp only [NameUse.Records, attrAccess_copied, and_true]
    cases askedName length answer <;> simp

/-- A dataset is created under a name. -/
theorem records_dataset_create :
    (∃ s, (NameUse.make .datasetCreate (some 0) true).Records ⟨[some [some 100, some 0]]⟩ s) ↔
      (NameUse.make .datasetCreate (some 0) true).Named :=
  records_iff ⟨[some [some 100, some 0]]⟩ (.make .datasetCreate (some 0) true) fun _ => ⟨[100], rfl⟩

/-- An attribute is opened by index: its name is freed before it is copied. -/
theorem attr_open_by_index_freed :
    ¬ ∃ s, (NameUse.attrOpen none true (some (cstr "units")) (some (cstr "units"))).Records ⟨[]⟩ s := by
  rintro ⟨s, hs, -⟩
  rw [attrOpen_unnamed] at hs
  cases hs

/-! ## The callbacks -/

/-- The callback of the connector, its name read through the pointer. -/
def NameUse.Runs (u : NameUse) (c : Callback) : Prop :=
  match u, c with
  | .make f name _, .make f' _ name' _ _              => f = f' ∧ (name = none → name' = none)
  | .attrOpen name under length answer, .attrOpen _ name' queried m _ =>
      m.under.isSome = under ∧ (name = none → name' = none ∧ queried = askedName length answer)
  | .attrAccess x _ length answer, .attrAccess x' _ _ name _ => x = x' ∧ name = askedName length answer
  | _, _ => False

/-- **The connector does not get past an unnamed record.** -/
theorem Callback.run_unnamed {u : NameUse} {c : Callback} (hc : u.Runs c) (hu : ¬ u.Named) (s : Conn)
    (app : App) : ∀ r, c.run s app ≠ .ok r := by
  have hmake : ∀ {k : ObjClass} {type relation io_api func : CStr} {o : ProvObj} {m : Made} {t : Ticks} {r},
      makeObject k type relation io_api func s o none m t ≠ .ok r := by
    intro k type relation io_api func o m t r hr
    obtain ⟨p, -, hp⟩ := bind_eq_ok.1 hr
    cases hp
  intro r hr
  cases u with
  | make f name under =>
    cases c with
    | make f' o name' m t =>
      obtain ⟨rfl, hname⟩ := hc
      obtain rfl := hname (not_not.1 hu)
      obtain ⟨q, hq, -⟩ := bind_eq_ok.1 hr
      cases f <;> exact hmake hq
    | _ => exact hc.elim
  | attrOpen name under length answer =>
    cases c with
    | attrOpen o name' queried m t =>
      obtain ⟨hunder, hname⟩ := hc
      obtain ⟨rfl, rfl⟩ := hname (not_not.1 hu)
      obtain ⟨q, hq, -⟩ := bind_eq_ok.1 hr
      obtain ⟨p, -, hp⟩ := bind_eq_ok.1 hq
      dsimp only at hp
      split at hp
      · -- the name it asked for is freed by now
        split at hp <;> cases hp
      · cases hp
    | _ => exact hc.elim
  | attrAccess x ret length answer =>
    cases c with
    | attrAccess x' o ret' name t =>
      obtain ⟨rfl, rfl⟩ := hc
      have hnone : askedName length answer = none := by
        rw [← Option.not_isSome_iff_eq_none, askedName_isSome]
        exact hu
      rw [hnone] at hr
      cases x <;> obtain ⟨q, hq, -⟩ := bind_eq_ok.1 hr <;> cases hq
    | _ => exact hc.elim

end Provio
