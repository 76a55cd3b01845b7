import Provio.Graph
import Provio.Settings
import Provio.StatTable
/-!
# Slots — the statistics table against the configuration

`provio_helper_init` makes the table with as many slots as `NUM_OF_APIS` says, without looking at the number, and the
table never grows.  The calls of `func_stat` end, within the table, exactly when the table was made and has a slot for
every name (`funcStats_end_iff`).
-/
namespace Provio

/-! ## `stat_create` when `calloc` may fail -/

/-- `sizeof(duration_entry)`: two pointers. -/
def sizeofEntry : Nat := 16

/-- `calloc n size` is whether the allocation succeeds; `stat_create` returns NULL when it does not. -/
def statCreateCalloc {V : Type} (calloc : Nat → Nat → Bool) (capacity : Int) : FuncDic × Option (DurationHt V) :=
  (dicInitInt, if calloc (sizeT capacity) sizeofEntry then some (statCreate capacity).2 else none)

/-- Whether `provio_helper_init` gets past the check of the paths, to `stat_create`. -/
def makesTable (config : ProvConfig) : Bool :=
  !(config.prov_level ≥ 2 && config.new_graph_path.isNone && config.legacy_graph_path.isNone)

/-- `provio_helper_init` with that `stat_create`, whose result nobody checks. -/
def provioHelperInitCalloc (calloc : Nat → Nat → Bool) (p : Process) (inp : SessionInput) : Except Fault Process := do
  let q ← provioHelperInit p inp
  if makesTable p.config then
    let (dic, counts) := statCreateCalloc calloc p.config.num_of_apis
    pure { q with FUNC_DIC := dic, FUNCTION_FREQUENCY := counts }
  else pure q

/-- `func_stat` for a number of probes. -/
def funcStatFor (fuel : Nat) (p : Process) (c : Call) : Except Fault Process :=
  match p.FUNCTION_FREQUENCY with
  | none => .error .null
  | some counts =>
    accumulateDuration fuel (p.FUNC_DIC, counts) c >>= fun r =>
      .ok { p with FUNC_DIC := r.1, FUNCTION_FREQUENCY := some r.2 }

def funcStatsFor (fuel : Nat) : Process → List Call → Except Fault Process
  | p, []      => .ok p
  | p, c :: cs => funcStatFor fuel p c >>= fun p => funcStatsFor fuel p cs

theorem funcStat_eq (p : Process) {counts : DurationHt Cell} (h : p.FUNCTION_FREQUENCY = some counts) (c : Call) :
    funcStat p c = funcStatFor (counts.capacity + 1) p c := by
  unfold funcStat funcStatFor
  rw [h]
  rfl

/-! ## The number of slots -/

def IsInt (n : Int) : Prop := -2 ^ 31 ≤ n ∧ n < 2 ^ 31

theorem atoi_isInt (s : CStr) : IsInt (atoi s) := ⟨BitVec.le_toInt _, BitVec.toInt_lt⟩

theorem assignPiece_isInt {c : ParsedConfig} (h : IsInt c.num_of_apis) (l : CStr) :
    IsInt (assignPiece c l).num_of_apis := by
  have hget := get_assignPiece c l .numOfApis
  unfold meant at hget
  cases hl : lineOf l with
  | setting key val =>
    simp only [hl, Key.read] at hget
    by_cases hkey : key = Key.text .numOfApis
    · by_cases hpos : 0 < (val.headD 0).toInt8
      · rw [if_pos hkey, if_pos hpos] at hget
        rw [show (assignPiece c l).num_of_apis = atoi val from Value.number.inj hget]
        exact atoi_isInt val
      · rw [if_pos hkey, if_neg hpos] at hget
        rw [show (assignPiece c l).num_of_apis = c.num_of_apis from Value.number.inj hget]
        exact h
    · rw [if_neg hkey] at hget
      rw [show (assignPiece c l).num_of_apis = c.num_of_apis from Value.number.inj hget]
      exact h
  | _ =>
    simp only [hl] at hget
    rw [show (assignPiece c l).num_of_apis = c.num_of_apis from Value.number.inj hget]
    exact h

theorem foldl_assignPiece_isInt : ∀ (ls : List CStr) (c : ParsedConfig), IsInt c.num_of_apis →
    IsInt (ls.foldl assignPiece c).num_of_apis
  | [], _, h => h
  | l :: ls, _, h => foldl_assignPiece_isInt ls _ (assignPiece_isInt h l)

theorem readConfig_isInt {path file : CStr} {r : Int} {p : Parse} (h : readConfig path (some file) = .ok (r, p)) :
    IsInt p.config.num_of_apis := by
  rw [readConfig_eq, runPieces_eq] at h
  split at h
  · cases h
  · rw [ok_bind] at h
    obtain ⟨-, rfl⟩ := Prod.mk.inj (Except.ok.inj h)
    exact foldl_assignPiece_isInt _ _ (show IsInt INITIAL_CAPACITY from ⟨by decide, by decide⟩)

/-! ## Calls on a table -/

theorem accumulate_mono {V : Type} {fuel : Nat} (d : Nat) {fresh : V} {bump : V → V} {st r : FuncDic × DurationHt V}
    {k : CStr} (h : accumulate fuel fresh bump st k = .ok r) : accumulate (fuel + d) fresh bump st k = .ok r := by
  have hspin : probe fuel st.2.entries st.2.capacity k ≠ .spin := by
    intro e
    rw [accumulate, statGet, e] at h
    cases h
  have hprobe : probe (fuel + d) st.2.entries st.2.capacity k = probe fuel st.2.entries st.2.capacity k :=
    Probing.walk_mono _ _ _ d fuel _ hspin
  rw [← h, accumulate, accumulate, statGet, statGet, hprobe]
  simp only [statSetEntry, hprobe]

theorem funcStatFor_ok {fuel : Nat} {p q : Process} {c : Call} (h : funcStatFor fuel p c = .ok q) :
    ∃ counts r, p.FUNCTION_FREQUENCY = some counts ∧ accumulateDuration fuel (p.FUNC_DIC, counts) c = .ok r ∧
      q = { p with FUNC_DIC := r.1, FUNCTION_FREQUENCY := some r.2 } := by
  unfold funcStatFor at h
  cases hf : p.FUNCTION_FREQUENCY with
  | none => rw [hf] at h; cases h
  | some counts =>
    simp only [hf] at h
    obtain ⟨r, hr, hq⟩ := bind_eq_ok.1 h
    exact ⟨counts, r, rfl, hr, (Except.ok.inj hq).symm⟩

/-- **A call that ends found its name or an empty slot**: on a full table a new name has neither. -/
theorem room_of_accumulate {V : Type} {t : DurationHt V} {m : Accumulators V} (h : Refines t m) {fuel : Nat}
    {fresh : V} {bump : V → V} {dic : FuncDic} {k : CStr} {r : FuncDic × DurationHt V}
    (hok : accumulate fuel fresh bump (dic, t) k = .ok r) : m k = none → t.length < t.capacity := by
  intro hm
  rcases Nat.lt_or_ge t.length t.capacity with hlt | hge
  · exact hlt
  exfalso
  have habs : ∀ i v, ¬ Probing.At t.entries i k v := by
    intro i v hi
    rw [(h.content k v).1 ⟨i, hi⟩] at hm
    cases hm
  have hcount := h.count
  have hsize := h.size
  rw [Probing.length_keys] at hcount
  have hle : (Probing.entries t.entries).length ≤ t.entries.length := List.length_filterMap_le id t.entries
  have hfull := Probing.no_empty t.entries (by omega)
  have hspin := Probing.walk_spin h.start habs hfull fuel
  rw [h.size] at hspin
  rw [accumulate, statGet, probe, hspin] at hok
  cases hok

theorem funcStats_refines {fuel : Nat} : ∀ (calls : List Call) (p q : Process) (t : DurationHt Cell)
    (m : Accumulators Cell), p.FUNCTION_FREQUENCY = some t → Refines t m → funcStatsFor fuel p calls = .ok q →
    ∃ t', q.FUNCTION_FREQUENCY = some t' ∧ Refines t' (calls.foldl Accumulators.call m) ∧ t'.capacity = t.capacity
  | [], p, q, t, m, ht, href, hok => ⟨t, by rw [← Except.ok.inj hok]; exact ht, href, rfl⟩
  | c :: calls, p, q, t, m, ht, href, hok => by
    obtain ⟨p', hc, hrest⟩ := bind_eq_ok.1 hok
    obtain ⟨counts, r, hcounts, hacc, rfl⟩ := funcStatFor_ok hc
    obtain rfl : t = counts := Option.some.inj (ht.symm.trans hcounts)
    obtain ⟨dic', t', hacc', href', hcap⟩ := accumulate_step href (Nat.le_add_left t.capacity fuel)
      (storeInt c.malloced c.elapsed) (· + c.elapsed) p.FUNC_DIC c.func_name (room_of_accumulate href hacc)
    have hr : r = (dic', t') := Except.ok.inj ((accumulate_mono t.capacity hacc).symm.trans hacc')
    obtain ⟨t'', hq, href'', hcap'⟩ := funcStats_refines calls _ q t' (m.call c) (by rw [hr]) href' hrest
    exact ⟨t'', hq, href'', hcap'.trans hcap⟩

theorem funcStats_of_accumulateAll {fuel : Nat} : ∀ (calls : List Call) (p : Process) (t : DurationHt Cell)
    (r : FuncDic × DurationHt Cell), p.FUNCTION_FREQUENCY = some t →
    accumulateAll fuel (p.FUNC_DIC, t) calls = .ok r → ∃ q, funcStatsFor fuel p calls = .ok q
  | [], p, _, _, _, _ => ⟨p, rfl⟩
  | c :: calls, p, t, r, ht, hall => by
    obtain ⟨r', hc, hrest⟩ := bind_eq_ok.1 hall
    have hcall : funcStatFor fuel p c = .ok { p with FUNC_DIC := r'.1, FUNCTION_FREQUENCY := some r'.2 } := by
      simp only [funcStatFor, ht, hc, ok_bind]
    obtain ⟨q, hq⟩ := funcStats_of_accumulateAll calls { p with FUNC_DIC := r'.1, FUNCTION_FREQUENCY := some r'.2 } r'.2 r
      rfl hrest
    exact ⟨q, by rw [funcStatsFor, hcall]; exact hq⟩

/-! ## After `provio_helper_init` -/

theorem provioHelperInit_no_table {p q : Process} {inp : SessionInput} (h : provioHelperInit p inp = .ok q)
    (hno : makesTable p.config = false) : q.FUNCTION_FREQUENCY = p.FUNCTION_FREQUENCY := by
  have hcond : p.config.prov_level ≥ 2 ∧ p.config.new_graph_path = none ∧ p.config.legacy_graph_path = none := by
    simpa [makesTable, Option.isNone_iff_eq_none, and_assoc] using hno
  unfold provioHelperInit at h
  obtain ⟨-, -, h⟩ := bind_eq_ok.1 h
  dsimp only at h
  rw [if_pos hcond] at h
  rw [← Except.ok.inj h]

theorem provioHelperInitCalloc_table {calloc : Nat → Nat → Bool} {p q : Process} {inp : SessionInput}
    (h : provioHelperInitCalloc calloc p inp = .ok q)
    (hfresh : makesTable p.config = false → p.FUNCTION_FREQUENCY = none) :
    q.FUNCTION_FREQUENCY = (if makesTable p.config && calloc (sizeT p.config.num_of_apis) sizeofEntry
      then some (statCreate p.config.num_of_apis).2 else none) ∧
    (makesTable p.config → q.FUNC_DIC = dicInitInt) := by
  obtain ⟨q', hq', hrest⟩ := bind_eq_ok.1 h
  cases hm : makesTable p.config with
  | false =>
    rw [if_neg (by simp [hm])] at hrest
    rw [← Except.ok.inj hrest, provioHelperInit_no_table hq' hm, hfresh hm]
    exact ⟨rfl, nofun⟩
  | true =>
    rw [if_pos hm] at hrest
    rw [← Except.ok.inj hrest]
    exact ⟨rfl, fun _ => rfl⟩

theorem accumulate_no_slots {V : Type} {fuel : Nat} {fresh : V} {bump : V → V} {dic : FuncDic} {t : DurationHt V}
    {k : CStr} {r : FuncDic × DurationHt V} (ht : t.entries = []) : accumulate fuel fresh bump (dic, t) k ≠ .ok r := by
  intro h
  rw [accumulate, statGet, probe, ht] at h
  cases fuel with
  | zero => cases h
  | succ fuel => cases h

theorem card_used_le {c : Nat} (hpos : 1 ≤ c) (hbound : c < 2 ^ 31) {fuel : Nat} {p q : Process} {calls : List Call}
    (ht : p.FUNCTION_FREQUENCY = some (statCreate (c : Int)).2) (hok : funcStatsFor fuel p calls = .ok q) :
    (used calls).card ≤ c := by
  obtain ⟨hcap, href⟩ := statCreate_refines (V := Cell) hpos hbound
  obtain ⟨t', -, href', hcap'⟩ := funcStats_refines calls p q _ _ ht href hok
  have hsub : used calls ⊆ stored t' := by
    intro k hk
    rw [href'.mem_stored]
    exact (foldl_call_ne_none k calls _).2 (.inr hk)
  have hle : (Probing.entries t'.entries).length ≤ t'.entries.length := List.length_filterMap_le id t'.entries
  have hcount := href'.count
  have hsize := href'.size
  rw [Probing.length_keys] at hcount
  calc (used calls).card ≤ (stored t').card := Finset.card_le_card hsub
    _ = t'.length := href'.card_stored
    _ ≤ c := by omega

/-- A negative number of slots is a size that `calloc` refuses. -/
theorem nonneg_of_calloc {calloc : Nat → Nat → Bool} (hcalloc : ∀ n size, 2 ^ 64 ≤ n * size → calloc n size = false)
    {n : Int} (hint : IsInt n) (halloc : calloc (sizeT n) sizeofEntry = true) : 0 ≤ n := by
  by_contra hneg
  have hbig : 2 ^ 64 ≤ sizeT n * sizeofEntry := by
    unfold sizeT sizeofEntry
    have := hint.1
    omega
  rw [hcalloc _ _ hbig] at halloc
  cases halloc

/-- **When every call of `func_stat` ends, within the slots of the table**: there is no call, or the table was made and
the calls have no more names than `NUM_OF_APIS` says.  Where `provio_helper_init` gives up before it, the process has no
table from before. -/
theorem funcStats_end_iff (calloc : Nat → Nat → Bool) (hcalloc : ∀ n size, 2 ^ 64 ≤ n * size → calloc n size = false)
    (path file : CStr) (r : Int) (parse : Parse) (hread : readConfig path (some file) = .ok (r, parse)) (p q : Process)
    (hconfig : p.config = parse.config.toProvConfig) (hfresh : makesTable p.config = false → p.FUNCTION_FREQUENCY = none)
    (inp : SessionInput) (hinit : provioHelperInitCalloc calloc p inp = .ok q) (calls : List Call) :
    (∃ fuel q', funcStatsFor fuel q calls = .ok q') ↔
      calls = [] ∨ makesTable p.config = true ∧ calloc (sizeT p.config.num_of_apis) sizeofEntry = true ∧
        ((used calls).card : Int) ≤ p.config.num_of_apis := by
  obtain ⟨htable, hdic⟩ := provioHelperInitCalloc_table hinit hfresh
  have hint := readConfig_isInt hread
  rw [show parse.config.num_of_apis = p.config.num_of_apis by rw [hconfig]] at hint
  generalize hn : p.config.num_of_apis = n at *
  constructor
  · rintro ⟨fuel, q', hok⟩
    cases calls with
    | nil => exact .inl rfl
    | cons c calls =>
      right
      obtain ⟨p', hcall, -⟩ := bind_eq_ok.1 hok
      obtain ⟨counts, r', hcounts, hacc, -⟩ := funcStatFor_ok hcall
      cases hmade : makesTable p.config && calloc (sizeT n) sizeofEntry with
      | false => rw [hmade, hcounts] at htable; cases htable
      | true =>
        obtain ⟨hmakes, halloc⟩ := Bool.and_eq_true_iff.1 hmade
        rw [hmade, if_pos rfl] at htable
        refine ⟨hmakes, halloc, ?_⟩
        obtain ⟨k, rfl⟩ := Int.eq_ofNat_of_zero_le (nonneg_of_calloc hcalloc hint halloc)
        rcases Nat.eq_zero_or_pos k with rfl | hpos
        · exfalso
          rw [hcounts] at htable
          rw [Option.some.inj htable] at hacc
          exact accumulate_no_slots rfl hacc
        · have hbound : k < 2 ^ 31 := by
            have := hint.2
            omega
          exact_mod_cast card_used_le hpos hbound htable hok
  · rintro (rfl | ⟨hmakes, halloc, hcard⟩)
    · exact ⟨0, q, rfl⟩
    · cases calls with
      | nil => exact ⟨0, q, rfl⟩
      | cons c calls =>
        have hone : 0 < (used (c :: calls)).card := Finset.card_pos.2 ⟨c.func_name, by rw [used_cons]; simp⟩
        obtain ⟨k, rfl⟩ := Int.eq_ofNat_of_zero_le (show 0 ≤ n by omega)
        have hcard' : (used (c :: calls)).card ≤ k := by exact_mod_cast hcard
        have hbound : k < 2 ^ 31 := by
          have := hint.2
          omega
        rw [hmakes, halloc, Bool.and_self, if_pos rfl] at htable
        obtain ⟨dic, t, hall, -, -⟩ := accumulateAll_statCreate (show 1 ≤ k by omega) hbound hcard' (Nat.le_refl k)
        have hall' : accumulateAll k (q.FUNC_DIC, (statCreate (k : Int)).2) (c :: calls) = .ok (dic, t) := by
          rw [hdic hmakes]
          exact hall
        obtain ⟨q', hq'⟩ := funcStats_of_accumulateAll (c :: calls) q _ _ htable hall'
        exact ⟨k, q', hq'⟩

def slotsFile (n : CStr) : CStr := cstr "PROV_LEVEL=1\nENABLE_STAT_FILE=T\nFORMAT=rdf\nNUM_OF_APIS=" ++ n ++ cstr "\n"

def slotsConfig (n : Int) : ParsedConfig :=
  { initConfig with stat_file_path := some (cstr "/p.cfg"), prov_level := 1, enable_stat_file := true
                    prov_line_format := some (cstr "rdf"), num_of_apis := n }

def slotsProcess (n : Int) : Process := { Process.start with config := (slotsConfig n).toProvConfig }

def twoNames : List Call := [⟨cstr "a", 1, 0⟩, ⟨cstr "b", 1, 0⟩]

/-- Allocations that fit the address space succeed. -/
def plainCalloc (n size : Nat) : Bool := n * size < 2 ^ 64

theorem plainCalloc_overflow (n size : Nat) (h : 2 ^ 64 ≤ n * size) : plainCalloc n size = false := by
  simp only [plainCalloc, decide_eq_false_iff_not]
  omega

/-- Two names fit two slots. -/
theorem funcStats_end_two_slots : ∃ q, provioHelperInitCalloc plainCalloc (slotsProcess 2) rankZeroInput = .ok q ∧
    ∃ fuel q', funcStatsFor fuel q twoNames = .ok q' := by
  have hread : readConfig (cstr "/p.cfg") (some (slotsFile (cstr "2"))) = .ok (0, ⟨slotsConfig 2, []⟩) := by decide
  obtain ⟨q, hq⟩ : ∃ q, provioHelperInitCalloc plainCalloc (slotsProcess 2) rankZeroInput = .ok q := ⟨_, rfl⟩
  exact ⟨q, hq, (funcStats_end_iff plainCalloc plainCalloc_overflow (cstr "/p.cfg") (slotsFile (cstr "2")) 0
    ⟨slotsConfig 2, []⟩ hread (slotsProcess 2) q rfl (fun _ => rfl) rankZeroInput hq twoNames).2 (.inr (by decide))⟩

/-- The second name never finds the one slot empty, nor its own. -/
theorem second_name_never_ends : ∃ q,
    readConfig (cstr "/p.cfg") (some (slotsFile (cstr "1"))) = .ok (0, ⟨slotsConfig 1, []⟩) ∧
    provioHelperInitCalloc plainCalloc (slotsProcess 1) rankZeroInput = .ok q ∧
    ¬ ∃ fuel q', funcStatsFor fuel q twoNames = .ok q' := by
  obtain ⟨q, hq⟩ : ∃ q, provioHelperInitCalloc plainCalloc (slotsProcess 1) rankZeroInput = .ok q := ⟨_, rfl⟩
  refine ⟨q, by decide, hq, ?_⟩
  rintro ⟨fuel, q', hok⟩
  obtain ⟨htable, -⟩ := provioHelperInitCalloc_table hq fun _ => rfl
  exact absurd (card_used_le (Nat.le_refl 1) (by decide) htable hok) (by decide)

end Provio
