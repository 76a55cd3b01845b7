import Mathlib.Data.List.Nodup
import Mathlib.Data.Nat.Find
/-!
# Probing — open addressing with linear probing on a fixed array of slots

A key is searched from its start slot onwards, one slot at a time, wrapping at the end, until its own slot or an empty
one is met.  Nothing is ever deleted, so the array is *linear* (`Linear`): between a key's start and its slot every
slot is taken by another key.  On a linear array the walk finds every stored key (`walk_hit`), stops for an absent key
at an empty slot while there is one (`walk_vacant`), and filling that slot keeps the array linear (`Linear.fill`).
The number of slots need not be a power of two and the array may be completely full.

A walk ends at the key's slot (`hit`), at an empty one (`vacant`), at a read past the array (`wild`), or not within its
fuel (`spin`).  `pos n a j` is the `j`-th slot of the walk from `a`; `At s i k v` says that slot `i` holds `k` with `v`,
`Other s k i` that it holds another key.
-/
namespace Probing

variable {K V : Type}

abbrev Slots (K V : Type) := List (Option (K × V))

inductive Walk (V : Type) where
  | hit (i : Nat) (v : V)
  | vacant (i : Nat)
  | wild (i : Nat)
  | spin
deriving DecidableEq, Repr

def next (n i : Nat) : Nat := if n ≤ i + 1 then 0 else i + 1

/-- The linear walk for `k` from slot `i`, looking at no more than `fuel` slots. -/
def walk [DecidableEq K] (s : Slots K V) (n : Nat) (k : K) : Nat → Nat → Walk V
  | 0, _ => .spin
  | fuel + 1, i =>
    match s[i]? with
    | none => .wild i
    | some none => .vacant i
    | some (some e) => if k = e.1 then .hit i e.2 else walk s n k fuel (next n i)

def pos (n a j : Nat) : Nat := (a + j) % n

theorem pos_lt {n : Nat} (hn : 0 < n) (a j : Nat) : pos n a j < n := Nat.mod_lt _ hn

theorem pos_zero {n a : Nat} (ha : a < n) : pos n a 0 = a := Nat.mod_eq_of_lt ha

theorem next_pos {n : Nat} (hn : 0 < n) (a j : Nat) : next n (pos n a j) = pos n a (j + 1) := by
  have hlt := pos_lt hn a j
  have hsucc : pos n a (j + 1) = (pos n a j + 1) % n := by simp [pos, ← Nat.add_assoc]
  rw [hsucc, next]
  split
  · have : pos n a j + 1 = n := by omega
    rw [this, Nat.mod_self]
  · exact (Nat.mod_eq_of_lt (by omega)).symm

theorem pos_inj {n a i j : Nat} (hi : i < n) (hj : j < n) (h : pos n a i = pos n a j) : i = j := by
  have key : ∀ {i j : Nat}, j < n → pos n a i = pos n a j → ¬ i < j := by
    intro i j hj h hlt
    have h0 : (a + j - (a + i)) % n = 0 := Nat.sub_mod_eq_zero_of_mod_eq h.symm
    rw [show a + j - (a + i) = j - i by omega, Nat.mod_eq_of_lt (by omega)] at h0
    omega
  have h1 := key hj h
  have h2 := key hi h.symm
  omega

theorem exists_pos {n a i : Nat} (ha : a < n) (hi : i < n) : ∃ j, j < n ∧ pos n a j = i := by
  have hn : 0 < n := by omega
  refine ⟨(i + (n - a)) % n, Nat.mod_lt _ hn, ?_⟩
  unfold pos
  rw [Nat.add_mod_mod]
  have : a + (i + (n - a)) = i + n := by omega
  rw [this, Nat.add_mod_right, Nat.mod_eq_of_lt hi]

def Other (s : Slots K V) (k : K) (i : Nat) : Prop := ∃ e, s[i]? = some (some e) ∧ e.1 ≠ k

/-- **A walk passes the slots of other keys**, one unit of fuel each. -/
theorem walk_pass [DecidableEq K] (s : Slots K V) {n : Nat} (hn : 0 < n) (k : K) (a : Nat) :
    ∀ (d fuel j : Nat), (∀ m, j ≤ m → m < j + d → Other s k (pos n a m)) →
      walk s n k (fuel + d) (pos n a j) = walk s n k fuel (pos n a (j + d))
  | 0, _, _, _ => rfl
  | d + 1, fuel, j, h => by
    obtain ⟨e, he, hne⟩ := h j (Nat.le_refl j) (by omega)
    have hstep : walk s n k (fuel + d + 1) (pos n a j) = walk s n k (fuel + d) (next n (pos n a j)) := by
      rw [walk, he]
      simp only
      rw [if_neg (Ne.symm hne)]
    rw [← Nat.add_assoc, hstep, next_pos hn, walk_pass s hn k a d fuel (j + 1) (fun m h1 h2 => h m (by omega) (by omega))]
    congr 2
    omega

/-- **More fuel changes no answer.** -/
theorem walk_mono [DecidableEq K] (s : Slots K V) (n : Nat) (k : K) (d : Nat) : ∀ (fuel i : Nat),
    walk s n k fuel i ≠ .spin → walk s n k (fuel + d) i = walk s n k fuel i
  | 0, _, h => absurd rfl h
  | fuel + 1, i, h => by
    rw [Nat.add_right_comm, walk, walk]
    rw [walk] at h
    split <;> try rfl
    rename_i e he
    simp only [he] at h
    split
    · rfl
    · rename_i hne
      rw [if_neg hne] at h
      exact walk_mono s n k d fuel _ h

def At (s : Slots K V) (i : Nat) (k : K) (v : V) : Prop := s[i]? = some (some (k, v))

theorem At.lt {s : Slots K V} {i : Nat} {k : K} {v : V} (h : At s i k v) : i < s.length := by
  rcases Nat.lt_or_ge i s.length with hi | hi
  · exact hi
  · rw [At, List.getElem?_eq_none hi] at h; cases h

/-- **Linear**: every slot the walk of a stored key passes before its own is taken by another key. -/
def Linear (start : K → Nat) (s : Slots K V) : Prop :=
  ∀ d k v, d < s.length → At s (pos s.length (start k) d) k v →
    ∀ m, m < d → Other s k (pos s.length (start k) m)

section Table

variable {start : K → Nat} {s : Slots K V}

theorem Linear.unique (h : Linear start s) (hst : ∀ k, start k < s.length) {i j : Nat} {k : K} {v w : V}
    (hi : At s i k v) (hj : At s j k w) : i = j := by
  obtain ⟨di, hdi, rfl⟩ := exists_pos (hst k) hi.lt
  obtain ⟨dj, hdj, rfl⟩ := exists_pos (hst k) hj.lt
  have key : ∀ {d d' : Nat} {x y : V}, d < s.length → d' < s.length → At s (pos s.length (start k) d) k x →
      At s (pos s.length (start k) d') k y → ¬ d < d' := by
    intro d d' x y hd hd' hx hy hlt
    obtain ⟨e, he, hne⟩ := h d' k y hd' hy d hlt
    rw [At, he] at hx
    simp only [Option.some.injEq] at hx
    exact hne (by rw [hx])
  have h1 := key hdi hdj hi hj
  have h2 := key hdj hdi hj hi
  rw [show di = dj by omega]

theorem Linear.value (h : Linear start s) (hst : ∀ k, start k < s.length) {i j : Nat} {k : K} {v w : V}
    (hi : At s i k v) (hj : At s j k w) : v = w := by
  have := h.unique hst hi hj
  subst this
  rw [At] at hi hj
  rw [hi] at hj
  simpa using hj

/-- **The walk reaches the slot of a stored key and no other.** -/
theorem walk_hit [DecidableEq K] (h : Linear start s) (hst : ∀ k, start k < s.length) {i : Nat} {k : K} {v : V} (hi : At s i k v)
    {fuel : Nat} (hf : s.length ≤ fuel) : walk s s.length k fuel (start k) = .hit i v := by
  have hn : 0 < s.length := Nat.lt_of_le_of_lt (Nat.zero_le _) (hst k)
  obtain ⟨d, hd, rfl⟩ := exists_pos (hst k) hi.lt
  obtain ⟨m, rfl⟩ : ∃ m, fuel = m + 1 + d := ⟨fuel - 1 - d, by omega⟩
  have := walk_pass s hn k (start k) d (m + 1) 0 (fun j _ hj => h d k v hd hi j (by omega))
  rw [pos_zero (hst k), Nat.zero_add] at this
  rw [this, walk, hi]
  simp

/-- **The walk for an absent key stops at an empty slot**, while there is one, having passed only other keys. -/
theorem walk_vacant [DecidableEq K] (hst : ∀ k, start k < s.length) {k : K} (hk : ∀ i v, ¬ At s i k v)
    (hfree : ∃ i : Nat, s[i]? = some none) {fuel : Nat} (hf : s.length ≤ fuel) :
    ∃ d, d < s.length ∧ s[pos s.length (start k) d]? = some none ∧
      (∀ m, m < d → Other s k (pos s.length (start k) m)) ∧
      walk s s.length k fuel (start k) = .vacant (pos s.length (start k) d) := by
  have hn : 0 < s.length := Nat.lt_of_le_of_lt (Nat.zero_le _) (hst k)
  have hex : ∃ d, d < s.length ∧ s[pos s.length (start k) d]? = some none := by
    obtain ⟨i, hi⟩ := hfree
    have hil : i < s.length := by
      rcases Nat.lt_or_ge i s.length with h | h
      · exact h
      · rw [List.getElem?_eq_none h] at hi; cases hi
    obtain ⟨d, hd, hp⟩ := exists_pos (hst k) hil
    exact ⟨d, hd, by rw [hp]; exact hi⟩
  classical
  obtain ⟨hd, hempty⟩ := Nat.find_spec hex
  generalize hdef : Nat.find hex = d at hd hempty
  have hpass : ∀ m, m < d → Other s k (pos s.length (start k) m) := by
    intro m hm
    have hml : m < s.length := Nat.lt_trans hm hd
    cases hs : s[pos s.length (start k) m]? with
    | none =>
      have := pos_lt hn (start k) m
      rw [List.getElem?_eq_none_iff] at hs
      omega
    | some o =>
      cases o with
      | none => exact absurd ⟨hml, hs⟩ (Nat.find_min hex (by rw [hdef]; exact hm))
      | some e =>
        refine ⟨e, hs, fun hek => hk (pos s.length (start k) m) e.2 ?_⟩
        rw [At, hs, ← hek]
  refine ⟨d, hd, hempty, hpass, ?_⟩
  obtain ⟨m, rfl⟩ : ∃ m, fuel = m + 1 + d := ⟨fuel - 1 - d, by omega⟩
  have := walk_pass s hn k (start k) d (m + 1) 0 (fun j _ hj => hpass j (by omega))
  rw [pos_zero (hst k), Nat.zero_add] at this
  rw [this, walk, hempty]

/-- **On a full array the walk for an absent key never ends.** -/
theorem walk_spin [DecidableEq K] (hst : ∀ k, start k < s.length) {k : K} (hk : ∀ i v, ¬ At s i k v)
    (hfull : ∀ i : Nat, s[i]? ≠ some none) (fuel : Nat) : walk s s.length k fuel (start k) = .spin := by
  have hn : 0 < s.length := Nat.lt_of_le_of_lt (Nat.zero_le _) (hst k)
  have hother : ∀ i, i < s.length → Other s k i := by
    intro i hi
    cases he : s[i] with
    | none => exact absurd (by rw [List.getElem?_eq_getElem hi, he]) (hfull i)
    | some e =>
      have hget : s[i]? = some (some e) := by rw [List.getElem?_eq_getElem hi, he]
      exact ⟨e, hget, fun hek => hk i e.2 (by rw [At, hget, ← hek])⟩
  have := walk_pass s hn k (start k) fuel 0 0 (fun m _ _ => hother _ (pos_lt hn (start k) m))
  rw [pos_zero (hst k), Nat.zero_add] at this
  rw [this, walk]

theorem at_set {i : Nat} {e : K × V} (hi : i < s.length) (j : Nat) (k : K) (v : V) :
    At (s.set i (some e)) j k v ↔ (j = i ∧ e = (k, v)) ∨ (j ≠ i ∧ At s j k v) := by
  unfold At
  by_cases hj : j = i
  · subst hj; simp [hi]
  · simp [hj, List.getElem?_set_ne (Ne.symm hj)]

/-- **What an array holds after a store at `i`**, when `i` held no other key and `k` sat nowhere else. -/
theorem exists_at_set {i : Nat} {k : K} (w : V) (hi : i < s.length) (hown : ∀ k' v, At s i k' v → k' = k)
    (honly : ∀ j v, At s j k v → j = i) (k' : K) (v' : V) :
    (∃ j, At (s.set i (some (k, w))) j k' v') ↔ (k' = k ∧ v' = w) ∨ (k' ≠ k ∧ ∃ j, At s j k' v') := by
  simp only [at_set hi, Prod.mk.injEq]
  constructor
  · rintro ⟨j, ⟨_, rfl, rfl⟩ | ⟨hj, hat⟩⟩
    · exact .inl ⟨rfl, rfl⟩
    · exact .inr ⟨fun hk => hj (honly j v' (hk ▸ hat)), j, hat⟩
  · rintro (⟨rfl, rfl⟩ | ⟨hk, j, hat⟩)
    · exact ⟨i, .inl ⟨rfl, rfl, rfl⟩⟩
    · exact ⟨j, .inr ⟨fun hj => hk (hown k' v' (hj ▸ hat)), hat⟩⟩

/-- **Filling the empty slot a walk stopped at keeps the array linear.** -/
theorem Linear.fill (h : Linear start s) {k : K} {d : Nat} (v : V) (hd : d < s.length)
    (hempty : s[pos s.length (start k) d]? = some none)
    (hpass : ∀ m, m < d → Other s k (pos s.length (start k) m)) :
    Linear start (s.set (pos s.length (start k) d) (some (k, v))) := by
  have hn : 0 < s.length := by omega
  have hlt := pos_lt hn (start k) d
  intro d' k' v' hd' hat m hm
  rw [List.length_set] at hd' hat ⊢
  rcases (at_set hlt _ k' v').1 hat with ⟨hp, he⟩ | ⟨_, hat'⟩
  · simp only [Prod.mk.injEq] at he
    obtain ⟨rfl, rfl⟩ := he
    obtain rfl := pos_inj hd' hd hp
    obtain ⟨e, h1, h2⟩ := hpass m hm
    refine ⟨e, ?_, h2⟩
    rw [List.getElem?_set_ne (fun hc => by rw [hc, h1] at hempty; cases hempty)]
    exact h1
  · obtain ⟨e, h1, h2⟩ := h d' k' v' hd' hat' m hm
    refine ⟨e, ?_, h2⟩
    rw [List.getElem?_set_ne (fun hc => by rw [hc, h1] at hempty; cases hempty)]
    exact h1

/-- **Storing a new value under a stored key keeps the array linear.** -/
theorem Linear.put (h : Linear start s) {i : Nat} {k : K} {v : V} (w : V) (hi : At s i k v) :
    Linear start (s.set i (some (k, w))) := by
  have other : ∀ {k' : K} {j : Nat}, Other s k' j → Other (s.set i (some (k, w))) k' j := by
    intro k' j hj
    by_cases hji : j = i
    · subst hji
      obtain ⟨e, h1, h2⟩ := hj
      rw [At, h1] at hi
      simp only [Option.some.injEq] at hi
      subst hi
      exact ⟨(k, w), by simp [List.getElem?_eq_some_iff.1 h1 |>.1], h2⟩
    · obtain ⟨e, h1, h2⟩ := hj
      exact ⟨e, by rw [List.getElem?_set_ne (Ne.symm hji)]; exact h1, h2⟩
  intro d k' v' hd hat m hm
  rw [List.length_set] at hd hat ⊢
  rcases (at_set hi.lt _ k' v').1 hat with ⟨hp, he⟩ | ⟨_, hat'⟩
  · simp only [Prod.mk.injEq] at he
    obtain ⟨rfl, rfl⟩ := he
    exact other (h d k v hd (by rw [hp]; exact hi) m hm)
  · exact other (h d k' v' hd hat' m hm)

theorem linear_replicate (n : Nat) : Linear start (List.replicate n (none : Option (K × V))) := by
  intro d k v _ hat
  rw [At, List.getElem?_replicate] at hat
  split at hat <;> cases hat

/-! ## The entries, as a list -/

def entries (s : Slots K V) : List (K × V) := s.filterMap id

def keys (s : Slots K V) : List K := (entries s).map Prod.fst

theorem mem_entries {e : K × V} : e ∈ entries s ↔ ∃ i, At s i e.1 e.2 := by
  unfold entries At
  rw [List.mem_filterMap]
  constructor
  · rintro ⟨o, ho, rfl⟩
    exact List.mem_iff_getElem?.1 ho
  · rintro ⟨i, hi⟩
    exact ⟨some e, List.mem_iff_getElem?.2 ⟨i, hi⟩, rfl⟩

theorem mem_keys {k : K} : k ∈ keys s ↔ ∃ i v, At s i k v := by
  unfold keys
  rw [List.mem_map]
  constructor
  · rintro ⟨e, he, rfl⟩
    obtain ⟨i, hi⟩ := mem_entries.1 he
    exact ⟨i, e.2, hi⟩
  · rintro ⟨i, v, hi⟩
    exact ⟨(k, v), mem_entries.2 ⟨i, hi⟩, rfl⟩

theorem Linear.nodup_keys (h : Linear start s) (hst : ∀ k, start k < s.length) : (keys s).Nodup := by
  unfold keys entries
  rw [List.nodup_iff_pairwise_ne, List.pairwise_map, List.pairwise_filterMap, List.pairwise_iff_getElem]
  intro i j hi hj hij a ha b hb hab
  simp only [id_eq] at ha hb
  have h1 : At s i a.1 a.2 := by rw [At, List.getElem?_eq_getElem hi, ha]
  have h2 : At s j a.1 b.2 := by rw [At, List.getElem?_eq_getElem hj, hb, hab]
  exact absurd (h.unique hst h1 h2) (by omega)

theorem exists_empty : ∀ (s : Slots K V), (entries s).length < s.length → ∃ i : Nat, s[i]? = some none
  | [], h => by simp [entries] at h
  | none :: _, _ => ⟨0, rfl⟩
  | some e :: s, h => by
    obtain ⟨i, hi⟩ := exists_empty s (by simpa [entries] using h)
    exact ⟨i + 1, by simpa using hi⟩

/-- **An array with as many entries as slots has no empty slot.** -/
theorem no_empty : ∀ (s : Slots K V), (entries s).length = s.length → ∀ i : Nat, s[i]? ≠ some none
  | [], _, i => by simp
  | none :: s, h, _ => by
    have hle : (entries s).length ≤ s.length := List.length_filterMap_le id s
    have h' : (entries s).length = s.length + 1 := h
    omega
  | some e :: s, h, 0 => by simp
  | some e :: s, h, i + 1 => by
    have := no_empty s (by simpa [entries] using h) i
    simpa using this

theorem length_keys (s : Slots K V) : (keys s).length = (entries s).length := List.length_map ..

theorem entries_fill : ∀ (s : Slots K V) (i : Nat) (e : K × V), s[i]? = some none →
    (entries (s.set i (some e))).Perm (e :: entries s)
  | [], _, _, h => by simp at h
  | o :: s, 0, e, h => by
    simp only [List.getElem?_cons_zero, Option.some.injEq] at h
    subst h
    exact List.Perm.refl _
  | none :: s, i + 1, e, h => by
    simpa [entries] using entries_fill s i e (by simpa using h)
  | some a :: s, i + 1, e, h => by
    have ih := entries_fill s i e (by simpa using h)
    simp only [entries, List.set_cons_succ, List.filterMap_cons, id_eq] at ih ⊢
    exact (ih.cons a).trans (List.Perm.swap e a _)

theorem keys_put : ∀ (s : Slots K V) (i : Nat) (k : K) (v w : V), At s i k v → keys (s.set i (some (k, w))) = keys s
  | [], _, _, _, _, h => by simp [At] at h
  | o :: s, 0, k, v, w, h => by
    simp only [At, List.getElem?_cons_zero, Option.some.injEq] at h
    subst h
    rfl
  | o :: s, i + 1, k, v, w, h => by
    have ih := keys_put s i k v w (by simpa [At] using h)
    cases o <;> simpa [keys, entries] using ih

end Table

section Mapping

variable {W : Type}

/-! ## Mapping the values -/

def Walk.map (f : V → W) : Walk V → Walk W
  | .hit i v  => .hit i (f v)
  | .vacant i => .vacant i
  | .wild i   => .wild i
  | .spin     => .spin

def mapValues (f : V → W) (s : Slots K V) : Slots K W := s.map (Option.map (Prod.map id f))

theorem walk_mapValues [DecidableEq K] (f : V → W) (s : Slots K V) (n : Nat) (k : K) : ∀ (fuel i : Nat),
    walk (mapValues f s) n k fuel i = (walk s n k fuel i).map f
  | 0, _ => rfl
  | fuel + 1, i => by
    have hget : (mapValues f s)[i]? = s[i]?.map (Option.map (Prod.map id f)) := List.getElem?_map ..
    rw [walk, walk, hget]
    cases s[i]? with
    | none => rfl
    | some o =>
      cases o with
      | none => rfl
      | some e =>
        simp only [Option.map_some, Prod.map_fst, Prod.map_snd, id_eq]
        split
        · rfl
        · exact walk_mapValues f s n k fuel _

theorem mapValues_set (f : V → W) (s : Slots K V) (i : Nat) (k : K) (v : V) :
    mapValues f (s.set i (some (k, v))) = (mapValues f s).set i (some (k, f v)) := by
  simp [mapValues, List.map_set]

end Mapping

end Probing
