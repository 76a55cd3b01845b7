import Mathlib.Algebra.Ring.Nat
import Mathlib.Data.Finset.Card
import Mathlib.Data.Finset.Lattice.Basic
import Provio.Stat
/-!
# StatTable — the duration table is a finite map, and what it prints

`Refines` ties a table to a map from function names to accumulators.  One call of `accumulate_duration` keeps it as
long as the table has room for a new name (`accumulate_step`); a run keeps it while its distinct names number no more
than the slots, a completely full table included (`accumulateAll_refines`).  A pass of `stat_next` lists the entries in
slot order and stops (`statPass_eq`).  The low half of an accumulator is the sum of its calls modulo `2 ^ 32`
(`low_accumulators`), which is all `stat_print_` reads.
-/
namespace Provio

open Probing (At Linear keys entries)

theorem mask_eq {c : Nat} (h0 : 0 < c) (h1 : c < 2 ^ 64) : mask c = c - 1 := by
  unfold mask; omega

theorem startSlot_lt {c : Nat} (h0 : 0 < c) (h1 : c < 2 ^ 64) (key : CStr) : startSlot c key < c := by
  unfold startSlot
  rw [mask_eq h0 h1]
  have := Nat.and_le_right (n := funcIndex key) (m := c - 1)
  omega

section Refinement

variable {V : Type}

/-- The abstract table: a finite map from names to accumulators. -/
abbrev Accumulators (V : Type) := CStr → Option V

def Accumulators.add (m : Accumulators V) (fresh : V) (bump : V → V) (name : CStr) : Accumulators V :=
  Function.update m name (some (match m name with | none => fresh | some v => bump v))

structure Refines (t : DurationHt V) (m : Accumulators V) : Prop where
  size    : t.entries.length = t.capacity
  pos     : 0 < t.capacity
  bound   : t.capacity < 2 ^ 64
  linear  : Linear (startSlot t.capacity) t.entries
  count   : t.length = (keys t.entries).length
  content : ∀ k v, (∃ i, At t.entries i k v) ↔ m k = some v

theorem Refines.start {t : DurationHt V} {m : Accumulators V} (h : Refines t m) (k : CStr) :
    startSlot t.capacity k < t.entries.length := by
  rw [h.size]; exact startSlot_lt h.pos h.bound k

theorem Refines.mem_keys {t : DurationHt V} {m : Accumulators V} (h : Refines t m) (k : CStr) :
    k ∈ keys t.entries ↔ m k ≠ none := by
  rw [Probing.mem_keys, Option.ne_none_iff_exists']
  constructor
  · rintro ⟨i, v, hi⟩; exact ⟨v, (h.content k v).1 ⟨i, hi⟩⟩
  · rintro ⟨v, hv⟩
    obtain ⟨i, hi⟩ := (h.content k v).2 hv
    exact ⟨i, v, hi⟩

theorem Refines.nodup {t : DurationHt V} {m : Accumulators V} (h : Refines t m) : (keys t.entries).Nodup :=
  h.linear.nodup_keys h.start

theorem statCreate_refines {c : Nat} (h0 : 1 ≤ c) (h1 : c < 2 ^ 31) :
    (statCreate (V := V) c).2.capacity = c ∧ Refines (statCreate (V := V) c).2 (fun _ => none) := by
  have hs : sizeT c = c := by unfold sizeT; omega
  refine ⟨hs, ?_, ?_, ?_, Probing.linear_replicate _, ?_, ?_⟩
  · simp [statCreate]
  · show 0 < sizeT c; omega
  · show sizeT c < 2 ^ 64; omega
  · simp [statCreate, keys, entries]
  · intro k v
    simp [statCreate, At, List.getElem?_replicate]

theorem statGet_hit {t : DurationHt V} {m : Accumulators V} (h : Refines t m) {fuel : Nat} (hf : t.capacity ≤ fuel)
    (dic : FuncDic) {i : Nat} {k : CStr} {v : V} (hi : At t.entries i k v) :
    statGet fuel dic t k = .ok ((genHash dic k).1, some (i, v)) := by
  have hf' : t.entries.length ≤ fuel := by rw [h.size]; exact hf
  have := Probing.walk_hit h.linear h.start hi hf'
  rw [h.size] at this
  rw [statGet, probe, this]

theorem content_store {t : DurationHt V} {m : Accumulators V} (h : Refines t m) {i : Nat} {k : CStr} (w : V)
    (hi : i < t.entries.length) (hown : ∀ k' v, At t.entries i k' v → k' = k)
    (honly : ∀ j v, At t.entries j k v → j = i) (k' : CStr) (v' : V) :
    (∃ j, At (t.entries.set i (some (k, w))) j k' v') ↔ Function.update m k (some w) k' = some v' := by
  rw [Probing.exists_at_set w hi hown honly, h.content]
  by_cases hk : k' = k
  · subst hk; simp [eq_comm]
  · simp [hk]

theorem accumulate_hit {t : DurationHt V} {m : Accumulators V} (h : Refines t m) {fuel : Nat} (hf : t.capacity ≤ fuel)
    (fresh : V) (bump : V → V) (dic : FuncDic) {k : CStr} {v : V} (hv : m k = some v) :
    ∃ dic' t', accumulate fuel fresh bump (dic, t) k = .ok (dic', t') ∧ Refines t' (m.add fresh bump k) ∧
      t'.capacity = t.capacity := by
  obtain ⟨i, hi⟩ := (h.content k v).2 hv
  refine ⟨(genHash dic k).1, { t with entries := t.entries.set i (some (k, bump v)) }, ?_, ?_, rfl⟩
  · rw [accumulate, statGet_hit h hf dic hi]
    rfl
  · refine ⟨?_, h.pos, h.bound, h.linear.put (bump v) hi, ?_, ?_⟩
    · simpa using h.size
    · simpa [Probing.keys_put _ i k v (bump v) hi] using h.count
    · intro k' v'
      rw [content_store h (bump v) hi.lt (fun k'' v'' hat => by rw [At, hi] at hat; simp_all)
        (fun j w hj => h.linear.unique h.start hj hi), Accumulators.add, hv]

/-- **A call on a new name fills the empty slot its probe meets**, while the table has one. -/
theorem accumulate_miss {t : DurationHt V} {m : Accumulators V} (h : Refines t m) {fuel : Nat} (hf : t.capacity ≤ fuel)
    (fresh : V) (bump : V → V) (dic : FuncDic) {k : CStr} (hv : m k = none) (hroom : t.length < t.capacity) :
    ∃ dic' t', accumulate fuel fresh bump (dic, t) k = .ok (dic', t') ∧ Refines t' (m.add fresh bump k) ∧
      t'.capacity = t.capacity := by
  have habs : ∀ i v, ¬ At t.entries i k v := fun i v hi => by
    rw [(h.content k v).1 ⟨i, hi⟩] at hv; cases hv
  have hlen : (entries t.entries).length < t.entries.length := by
    rw [← Probing.length_keys, ← h.count, h.size]; exact hroom
  have hf' : t.entries.length ≤ fuel := by rw [h.size]; exact hf
  obtain ⟨d, hd, hempty, hpass, hw⟩ := Probing.walk_vacant h.start habs (Probing.exists_empty _ hlen) hf'
  have hlin := h.linear.fill fresh hd hempty hpass
  have hlt := Probing.pos_lt (show 0 < t.entries.length by omega) (startSlot t.capacity k) d
  generalize Probing.pos t.entries.length (startSlot t.capacity k) d = i at hempty hlin hlt hw
  rw [h.size] at hw
  refine ⟨(genHash (genHash dic k).1 k).1,
    { t with entries := t.entries.set i (some (k, fresh)), length := t.length + 1 }, ?_, ?_, rfl⟩
  · rw [accumulate, statGet, probe, hw]
    simp only [ok_bind]
    rw [statSetEntry, probe, hw]
  · refine ⟨by simpa using h.size, h.pos, h.bound, hlin, ?_, ?_⟩
    · show t.length + 1 = _
      rw [Probing.length_keys, (Probing.entries_fill _ _ (k, fresh) hempty).length_eq, List.length_cons,
        ← Probing.length_keys, h.count]
    · intro k' v'
      rw [content_store h fresh hlt (fun k'' v'' hat => by rw [At, hempty] at hat; cases hat)
        (fun j w hj => absurd hj (habs j w)), Accumulators.add, hv]

theorem accumulate_step {t : DurationHt V} {m : Accumulators V} (h : Refines t m) {fuel : Nat} (hf : t.capacity ≤ fuel)
    (fresh : V) (bump : V → V) (dic : FuncDic) (k : CStr) (hroom : m k = none → t.length < t.capacity) :
    ∃ dic' t', accumulate fuel fresh bump (dic, t) k = .ok (dic', t') ∧ Refines t' (m.add fresh bump k) ∧
      t'.capacity = t.capacity := by
  cases hv : m k with
  | some v => exact accumulate_hit h hf fresh bump dic hv
  | none => exact accumulate_miss h hf fresh bump dic hv (hroom hv)

/-! ## A pass of the iterator -/

theorem statNextLoop_cases (t : DurationHt V) : ∀ (n index : Nat), index + n = t.entries.length →
    (statNextLoop t n index = (none, t.entries.length) ∧ entries (t.entries.drop index) = []) ∨
    ∃ e j, statNextLoop t n index = (some e, j) ∧ index < j ∧ j ≤ t.entries.length ∧
      entries (t.entries.drop index) = e :: entries (t.entries.drop j)
  | 0, index, hn => by
    left
    simp only [Nat.add_zero] at hn
    exact ⟨by rw [statNextLoop, hn], by rw [hn, List.drop_length]; rfl⟩
  | n + 1, index, hn => by
    have hlt : index < t.entries.length := by omega
    have hdrop := List.drop_eq_getElem_cons hlt
    have hget := List.getElem?_eq_getElem hlt
    generalize t.entries[index] = o at hdrop hget
    rw [statNextLoop, hget, hdrop]
    cases o with
    | some e => exact .inr ⟨e, index + 1, rfl, by omega, by omega, rfl⟩
    | none =>
      rcases statNextLoop_cases t n (index + 1) (by omega) with ⟨h1, h2⟩ | ⟨e, j, h1, h2, h3, h4⟩
      · exact .inl ⟨h1, by simpa [entries] using h2⟩
      · exact .inr ⟨e, j, h1, by omega, h3, by simpa [entries] using h4⟩

theorem statPass_eq (t : DurationHt V) (hs : t.entries.length = t.capacity) : ∀ (n index : Nat), index ≤ t.capacity →
    t.capacity < n + index → statPass t n index = (entries (t.entries.drop index), t.capacity)
  | 0, index, h1, h2 => by omega
  | n + 1, index, h1, h2 => by
    rw [statPass, statNext]
    rcases statNextLoop_cases t (t.capacity - index) index (by omega) with ⟨h3, h4⟩ | ⟨e, j, h3, h4, h5, h6⟩
    · rw [h3, h4, hs]
    · rw [h3, h6]
      simp only
      rw [statPass_eq t hs n j (by omega) (by omega)]

theorem statNext_end (t : DurationHt V) : statNext t t.capacity = (none, t.capacity) := by
  rw [statNext, Nat.sub_self, statNextLoop]

theorem Refines.statPass {t : DurationHt V} {m : Accumulators V} (h : Refines t m) :
    statPass t (t.capacity + 1) statIterator = (entries t.entries, t.capacity) :=
  statPass_eq t h.size _ 0 (Nat.zero_le _) (by omega)

end Refinement

/-! ## Runs -/

def used (calls : List Call) : Finset CStr := (calls.map Call.func_name).toFinset

theorem used_cons (c : Call) (calls : List Call) : used (c :: calls) = insert c.func_name (used calls) := by
  simp [used]

def Accumulators.call (m : Accumulators Cell) (c : Call) : Accumulators Cell :=
  m.add (storeInt c.malloced c.elapsed) (· + c.elapsed) c.func_name

/-- The map a run of calls leaves, from the empty one. -/
def accumulators (calls : List Call) : Accumulators Cell := calls.foldl Accumulators.call (fun _ => none)

theorem Accumulators.call_ne_none (m : Accumulators Cell) (c : Call) (k : CStr) :
    m.call c k ≠ none ↔ k = c.func_name ∨ m k ≠ none := by
  unfold Accumulators.call Accumulators.add
  by_cases hk : k = c.func_name
  · subst hk; simp
  · simp [hk]

theorem foldl_call_ne_none (k : CStr) : ∀ (calls : List Call) (m : Accumulators Cell),
    calls.foldl Accumulators.call m k ≠ none ↔ m k ≠ none ∨ k ∈ used calls
  | [], m => by simp [used]
  | c :: calls, m => by
    rw [List.foldl_cons, foldl_call_ne_none k calls, Accumulators.call_ne_none, used_cons, Finset.mem_insert]
    constructor
    · rintro ((h | h) | h)
      · exact .inr (.inl h)
      · exact .inl h
      · exact .inr (.inr h)
    · rintro (h | h | h)
      · exact .inl (.inr h)
      · exact .inl (.inl h)
      · exact .inr h

theorem accumulators_ne_none (calls : List Call) (k : CStr) : accumulators calls k ≠ none ↔ k ∈ used calls := by
  rw [accumulators, foldl_call_ne_none]
  simp

def stored (t : DurationHt Cell) : Finset CStr := (keys t.entries).toFinset

theorem Refines.card_stored {t : DurationHt Cell} {m : Accumulators Cell} (h : Refines t m) :
    (stored t).card = t.length := by
  rw [stored, List.toFinset_card_of_nodup h.nodup, h.count]

theorem Refines.mem_stored {t : DurationHt Cell} {m : Accumulators Cell} (h : Refines t m) (k : CStr) :
    k ∈ stored t ↔ m k ≠ none := by
  rw [stored, List.mem_toFinset, h.mem_keys]

theorem accumulateAll_refines {fuel : Nat} : ∀ (calls : List Call) (dic : FuncDic) (t : DurationHt Cell)
    (m : Accumulators Cell), Refines t m → t.capacity ≤ fuel → (stored t ∪ used calls).card ≤ t.capacity →
    ∃ dic' t', accumulateAll fuel (dic, t) calls = .ok (dic', t') ∧ Refines t' (calls.foldl Accumulators.call m) ∧
      t'.capacity = t.capacity
  | [], dic, t, m, h, _, _ => ⟨dic, t, rfl, h, rfl⟩
  | c :: calls, dic, t, m, h, hf, hc => by
    have hroom : m c.func_name = none → t.length < t.capacity := by
      intro hm
      have hnot : c.func_name ∉ stored t := by rw [h.mem_stored]; exact not_not.2 hm
      have hsub : insert c.func_name (stored t) ⊆ stored t ∪ used (c :: calls) := by
        rw [used_cons]
        intro k hk
        rcases Finset.mem_insert.1 hk with rfl | hk
        · exact Finset.mem_union_right _ (Finset.mem_insert_self _ _)
        · exact Finset.mem_union_left _ hk
      have hle := Finset.card_le_card hsub
      rw [Finset.card_insert_of_notMem hnot, h.card_stored] at hle
      omega
    obtain ⟨dic', t', hok, h', hcap⟩ :=
      accumulate_step h hf (storeInt c.malloced c.elapsed) (· + c.elapsed) dic c.func_name hroom
    have hstored : stored t' ∪ used calls ⊆ stored t ∪ used (c :: calls) := by
      rw [used_cons]
      intro k hk
      rw [Finset.mem_union, h'.mem_stored] at hk
      rw [Finset.mem_union, Finset.mem_insert, h.mem_stored]
      rcases hk with hk | hk
      · rcases (Accumulators.call_ne_none m c k).1 hk with hk | hk
        · exact .inr (.inl hk)
        · exact .inl hk
      · exact .inr (.inr hk)
    have hf' : t'.capacity ≤ fuel := by rw [hcap]; exact hf
    have hc' : (stored t' ∪ used calls).card ≤ t'.capacity := by
      rw [hcap]
      exact Nat.le_trans (Finset.card_le_card hstored) hc
    obtain ⟨dic'', t'', hok', h'', hcap'⟩ := accumulateAll_refines calls dic' t' (m.call c) h' hf' hc'
    refine ⟨dic'', t'', ?_, h'', hcap'.trans hcap⟩
    rw [accumulateAll, accumulateDuration, hok, ok_bind, hok']

theorem accumulateAll_statCreate {c fuel : Nat} (h0 : 1 ≤ c) (h1 : c < 2 ^ 31) {calls : List Call}
    (hd : (used calls).card ≤ c) (hf : c ≤ fuel) :
    ∃ dic t, accumulateAll fuel (statCreate c) calls = .ok (dic, t) ∧ Refines t (accumulators calls) ∧
      t.capacity = c := by
  obtain ⟨hcap, href⟩ := statCreate_refines (V := Cell) h0 h1
  have hempty : stored (statCreate (V := Cell) c).2 = ∅ := by
    simp [stored, statCreate, keys, entries]
  have hf' : (statCreate (V := Cell) c).2.capacity ≤ fuel := by rw [hcap]; exact hf
  have hc : (stored (statCreate (V := Cell) c).2 ∪ used calls).card ≤ (statCreate (V := Cell) c).2.capacity := by
    rw [hempty, hcap, Finset.empty_union]
    exact hd
  obtain ⟨dic, t, hok, h, hcap'⟩ := accumulateAll_refines calls (statCreate (V := Cell) c).1 _ _ href hf' hc
  exact ⟨dic, t, hok, h, hcap'.trans hcap⟩

/-- **`duration_ht` refines a finite map**: a run on a fresh table with at most `c` distinct names ends within `c`
probes a search and inside the array, and leaves exactly the used names, each in one slot that `stat_get` reaches and
a pass of `stat_next` yields once. -/
theorem accumulateDuration_refines_map {c fuel : Nat} (h0 : 1 ≤ c) (h1 : c < 2 ^ 31) {calls : List Call}
    (hd : (used calls).card ≤ c) (hf : c ≤ fuel) :
    ∃ dic t, accumulateAll fuel (statCreate c) calls = .ok (dic, t) ∧
      t.length = (used calls).card ∧
      (∀ k v, (∃ i, At t.entries i k v) ↔ accumulators calls k = some v) ∧
      (∀ k, k ∈ used calls → ∃ i v, i < c ∧ At t.entries i k v ∧ (∀ j w, At t.entries j k w → j = i) ∧
        ∀ dic', statGet fuel dic' t k = .ok ((genHash dic' k).1, some (i, v))) ∧
      (∀ i k v, At t.entries i k v → k ∈ used calls) ∧
      ((statPass t (c + 1) statIterator).1.map Prod.fst).Nodup ∧
      (∀ k, k ∈ (statPass t (c + 1) statIterator).1.map Prod.fst ↔ k ∈ used calls) ∧
      (statNext t (statPass t (c + 1) statIterator).2).1 = none := by
  obtain ⟨dic, t, hok, h, rfl⟩ := accumulateAll_statCreate h0 h1 hd hf
  have hkeys : ∀ k, k ∈ keys t.entries ↔ k ∈ used calls := fun k =>
    (h.mem_keys k).trans (accumulators_ne_none calls k)
  have hset : stored t = used calls := by
    ext k
    rw [stored, List.mem_toFinset, hkeys]
  refine ⟨dic, t, hok, ?_, h.content, ?_, ?_, ?_, ?_, ?_⟩
  · rw [← h.card_stored, hset]
  · intro k hk
    obtain ⟨i, v, hi⟩ := Probing.mem_keys.1 ((hkeys k).2 hk)
    refine ⟨i, v, ?_, hi, fun j w hj => h.linear.unique h.start hj hi, fun dic' => statGet_hit h hf dic' hi⟩
    rw [← h.size]
    exact hi.lt
  · intro i k v hi
    exact (hkeys k).1 (Probing.mem_keys.2 ⟨i, v, hi⟩)
  · rw [h.statPass]
    exact h.nodup
  · intro k
    rw [h.statPass]
    exact hkeys k
  · rw [h.statPass, statNext_end]

theorem accumulateDuration_refines_map_full : ∃ dic t,
    accumulateAll 3 (statCreate (3 : Nat)) [⟨cstr "a", 5, 0⟩, ⟨cstr "b", 1, 0⟩, ⟨cstr "c", 2, 7⟩, ⟨cstr "a", 5, 0⟩] =
      .ok (dic, t) ∧ t.length = 3 := by
  obtain ⟨dic, t, hok, hlen, _⟩ := accumulateDuration_refines_map (show 1 ≤ 3 by decide) (by decide)
    (show (used [⟨cstr "a", 5, 0⟩, ⟨cstr "b", 1, 0⟩, ⟨cstr "c", 2, 7⟩, ⟨cstr "a", 5, 0⟩]).card ≤ 3 by decide)
    (Nat.le_refl 3)
  exact ⟨dic, t, hok, hlen⟩

/-! ## What `stat_print_` reads back -/

/-- The sum of the elapsed values of a name's calls. -/
def total (calls : List Call) (k : CStr) : Nat :=
  ((calls.filter (fun c => c.func_name = k)).map (fun c => c.elapsed.toNat)).sum

/-- The half of an accumulator that `stat_print_` reads. -/
def low (m : Accumulators Cell) (k : CStr) : BitVec 32 := (m k).elim 0 (BitVec.setWidth 32)

theorem setWidth_storeInt (malloced : Cell) (elapsed : BitVec 64) :
    (storeInt malloced elapsed).setWidth 32 = elapsed.setWidth 32 := by
  rw [storeInt, BitVec.setWidth_append_eq_right]

theorem low_call (m : Accumulators Cell) (c : Call) (k : CStr) :
    low (m.call c) k = low m k + if c.func_name = k then c.elapsed.setWidth 32 else 0 := by
  unfold low Accumulators.call Accumulators.add
  by_cases hk : c.func_name = k
  · subst hk
    cases hm : m c.func_name with
    | none => simp [setWidth_storeInt]
    | some v => simp [BitVec.setWidth_add]
  · simp [hk, Ne.symm hk]

theorem total_cons (c : Call) (calls : List Call) (k : CStr) :
    total (c :: calls) k = (if c.func_name = k then c.elapsed.toNat else 0) + total calls k := by
  unfold total
  by_cases hk : c.func_name = k
  · simp [hk]
  · simp [hk]

/-- **The low half of an accumulator is the sum of its calls modulo `2 ^ 32`**, whatever `malloc` left above it. -/
theorem low_accumulators (k : CStr) : ∀ (calls : List Call) (m : Accumulators Cell),
    low (calls.foldl Accumulators.call m) k = low m k + BitVec.ofNat 32 (total calls k)
  | [], m => by simp [total]
  | c :: calls, m => by
    have hc : (if c.func_name = k then c.elapsed.setWidth 32 else 0) =
        BitVec.ofNat 32 (if c.func_name = k then c.elapsed.toNat else 0) := by
      split
      · exact (BitVec.ofNat_toNat 32 c.elapsed).symm
      · rfl
    rw [List.foldl_cons, low_accumulators k calls, low_call, hc, total_cons, BitVec.ofNat_add, BitVec.add_assoc]

/-- A sum is read back as itself exactly when it fits a positive `int`. -/
theorem toInt_ofNat_iff (n : Nat) : ((BitVec.ofNat 32 n).toInt = n) ↔ n < 2 ^ 31 := by
  rw [BitVec.toInt_eq_toNat_cond, BitVec.toNat_ofNat]
  split <;> omega

theorem Refines.mem_lines {t : DurationHt Cell} {m : Accumulators Cell} (h : Refines t m) (rank : Int)
    (prov_stat : Option Stat) (k : CStr) (n : Int) :
    (k, n) ∈ (statPrint_ rank prov_stat t).lines ↔ m k ≠ none ∧ n = (low m k).toInt := by
  rw [statPrint_, h.statPass, List.mem_map]
  constructor
  · rintro ⟨⟨k', v⟩, he, heq⟩
    obtain ⟨rfl, rfl⟩ := Prod.mk.inj heq
    have hm := (h.content k' v).1 (Probing.mem_entries.1 he)
    exact ⟨by rw [hm]; exact Option.some_ne_none v, by rw [low, hm]; rfl⟩
  · rintro ⟨hm, rfl⟩
    obtain ⟨v, hv⟩ := Option.ne_none_iff_exists'.1 hm
    refine ⟨(k, v), Probing.mem_entries.2 ((h.content k v).2 hv), ?_⟩
    rw [low, hv]
    rfl

/-- **The line printed for a name shows the sum of its calls exactly when the sum is below `2 ^ 31`.** -/
theorem statPrint_total_iff {c fuel : Nat} (h0 : 1 ≤ c) (h1 : c < 2 ^ 31) {calls : List Call}
    (hd : (used calls).card ≤ c) (hf : c ≤ fuel) (rank : Int) (prov_stat : Option Stat) :
    ∃ dic t, accumulateAll fuel (statCreate c) calls = .ok (dic, t) ∧ ∀ k ∈ used calls, ∃ n,
      (∀ n', (k, n') ∈ (statPrint_ rank prov_stat t).lines ↔ n' = n) ∧ (n = total calls k ↔ total calls k < 2 ^ 31) := by
  obtain ⟨dic, t, hok, h, _⟩ := accumulateAll_statCreate h0 h1 hd hf
  refine ⟨dic, t, hok, fun k hk => ⟨(low (accumulators calls) k).toInt, ?_, ?_⟩⟩
  · intro n'
    rw [h.mem_lines]
    exact and_iff_right ((accumulators_ne_none calls k).2 hk)
  · rw [accumulators, low_accumulators]
    have : low (fun _ => none) k + BitVec.ofNat 32 (total calls k) = BitVec.ofNat 32 (total calls k) := by
      simp [low]
    rw [this, toInt_ofNat_iff]

theorem statPrint_total_iff_small : ∃ dic t,
    accumulateAll 62 (statCreate (62 : Nat)) [⟨cstr "H5Dread", 40, 0⟩, ⟨cstr "H5Dread", 2, 0⟩] = .ok (dic, t) ∧
      (cstr "H5Dread", 42) ∈ (statPrint_ 0 none t).lines := by
  obtain ⟨dic, t, hok, hall⟩ := statPrint_total_iff (show 1 ≤ 62 by decide) (by decide)
    (show (used [⟨cstr "H5Dread", 40, 0⟩, ⟨cstr "H5Dread", 2, 0⟩]).card ≤ 62 by decide) (Nat.le_refl 62) 0 none
  obtain ⟨n, hn, hiff⟩ := hall (cstr "H5Dread") (by decide)
  exact ⟨dic, t, hok, (hn 42).2 (hiff.2 (by decide)).symm⟩

/-- One call of `2 ^ 31` microseconds, about 36 minutes, prints as a negative number. -/
theorem statPrint_wraps : ∃ dic t,
    accumulateAll 62 (statCreate (62 : Nat)) [⟨cstr "H5Dwrite", 2147483648, 0⟩] = .ok (dic, t) ∧
      total [⟨cstr "H5Dwrite", 2147483648, 0⟩] (cstr "H5Dwrite") = 2147483648 ∧
      (statPrint_ 0 none t).lines = [(cstr "H5Dwrite", -2147483648)] := by
  refine ⟨_, _, rfl, by decide, by decide⟩

end Provio
