import Provio.Keeping
import Provio.Outcomes
/-!
# Dangling — the connector when `calloc` may fail and `provio_helper` may dangle

The connector of `Connector` makes its table with an allocation that succeeds, and forgets the helper it tears down.  Here
the allocation may fail, and `provio_helper` points to what an earlier load has freed until a file of the new load is made:
the record of a file call that fails underneath before that passes the assertion on the helper (`Conn.recordWith`).  With
neither, a call is the one of `Connector` (`fileCallWith_eq`).
-/
namespace Provio

/-! ## The call when `calloc` may fail and `provio_helper` may dangle -/

def provHelperInitCalloc (calloc : Nat → Nat → Bool) (p : Process) (inp : SessionInput) (info : VolInfo) :
    Except Fault (Process × Option ProvHelper) := do
  if info.prov_level ≥ 2 ∧ info.prov_file_path = none then pure (p, none)
  else
    let p ← provioHelperInitCalloc calloc p inp
    -- the two `strdup`
    let _ ← strcpy info.prov_file_path
    let _ ← strcpy info.prov_line_format
    pure (p, some .init)

def Conn.ensureHelperCalloc (calloc : Nat → Nat → Bool) (s : Conn) (info : VolInfo) : Except Fault Conn :=
  match s.PROV_HELPER with
  | some _ => .ok s
  | none => do
    let (p, h) ← provHelperInitCalloc calloc s.process s.input info
    pure { s with process := p, PROV_HELPER := h }

def wrapFileCalloc (calloc : Nat → Nat → Bool) (s : Conn) (info : VolInfo) (name : Option CStr) (under : Option Under) :
    Except Fault (Conn × Option ProvObj) :=
  match under with
  | none => .ok (s, none)
  | some under => do
    let s ← s.ensureHelperCalloc calloc info
    let (s, file) ← s.onHelper fun h => fileOpenCommon h under name
    pure (s, some file)

/-- `add_prov_record` with a helper that was freed: it passes the assertion, and only a line in another format than RDF
reads it. -/
def addProvRecordFreed (p : Process) (uuid : CStr) (elapsed : BitVec 64) : Except Fault Process := do
  let rdf ← isRdf p.config
  let p ← if p.config.prov_level = File_only ∨ p.config.prov_level = File_and_print then
      if rdf then pure (addProvRecordRedland p uuid (decimal p.fields.duration.toNat))
      else .error .freed
    else pure p
  let write := p.prov_stat.PROV_WRITE_TOTAL_TIME + elapsed
  pure { p with prov_stat := { p.prov_stat with PROV_WRITE_TOTAL_TIME := write } }

def Conn.recordFreed (s : Conn) (io_api func : CStr) (t : Ticks) : Except Fault Conn := do
  let p := provFillIoApi s.process io_api t.duration
  let q ← addProvRecordFreed p t.uuid t.write_elapsed
  let q ← funcStat q ⟨func, t.stat_elapsed, t.malloced⟩
  let f := p.fields
  let records := s.records ++ [⟨f.data_object, f.type, f.relation, f.io_api⟩]
  pure { s with process := addOverhead q t.overhead, records := records }

/-- `freed` says whether an earlier load has torn its helper down; `provio_helper` points there until a file is opened. -/
def Conn.recordWith (freed : Bool) (s : Conn) (io_api func : CStr) (t : Ticks) : Except Fault Conn :=
  if freed && s.PROV_HELPER.isNone then s.recordFreed io_api func t else s.record io_api func t

def fileCallWith (calloc : Nat → Nat → Bool) (freed : Bool) (func : CStr) (s : Conn) (info : VolInfo) (name : Option CStr)
    (under : Option Under) (m : Marking) (t : Ticks) : Except Fault (Conn × Option ProvObj) := do
  let (s, file) ← wrapFileCalloc calloc s info name under
  let s ← s.fill name (cstr "provio:Datatype") (cstr "provio:wasOpenedBy")
  let s ← s.recordWith freed (cstr "H5Topen2") func t
  if s.process.fields.mpi_rank_int = 0 then
    let s ← markFile s info name file m
    pure (s, file)
  else pure (s, file)

def Callback.runWith (calloc : Nat → Nat → Bool) (freed : Bool) (s : Conn) (app : App) :
    Callback → Except Fault (Conn × App)
  | .fileCall .create info name under m t => do
    let (s, file) ← fileCallWith calloc freed (cstr "H5VL_provenance_file_create") s info name under m t
    pure (s, app.take file)
  | .fileCall .open info name under m t => do
    let (s, file) ← fileCallWith calloc freed (cstr "H5VL_provenance_file_open") s info name under m t
    pure (s, app.take file)
  | c => c.run s app

def runCallbacksWith (calloc : Nat → Nat → Bool) (freed : Bool) : List Callback → Conn → App → Except Fault (Conn × App)
  | [], s, app      => .ok (s, app)
  | c :: cs, s, app => c.runWith calloc freed s app >>= fun r => runCallbacksWith calloc freed cs r.1 r.2

/-- A load, with what `calloc` answers it.  The helper that it tears down stays where `provio_helper` points to. -/
def Load.runWith (calloc : Nat → Nat → Bool) (l : Load) (p : Process) (freed : Bool) : Except Fault (Process × Bool) := do
  let (s, _) ← runCallbacksWith calloc freed l.callbacks (.init p l.input) .init
  let (p, _) ← s.term
  pure (p, if s.PROV_HELPER.isSome then s.process.helper.isSome else freed)

theorem makesTable_iff {config : ProvConfig} : makesTable config = true ↔
    ¬ (config.prov_level ≥ 2 ∧ config.new_graph_path = none ∧ config.legacy_graph_path = none) := by
  simp [makesTable, Option.isSome_iff_ne_none, imp_iff_not_or, or_assoc]

theorem provioHelperInitCalloc_eq (p : Process) (inp : SessionInput) :
    provioHelperInitCalloc (fun _ _ => true) p inp = provioHelperInit p inp := by
  unfold provioHelperInitCalloc provioHelperInit
  cases checkConfig p.config with
  | error e => rfl
  | ok u =>
    rw [ok_bind]
    dsimp only
    by_cases hnone : p.config.prov_level ≥ 2 ∧ p.config.new_graph_path = none ∧ p.config.legacy_graph_path = none
    · rw [if_pos hnone, pure_bind, if_neg fun h => makesTable_iff.1 h hnone]
    · rw [if_neg hnone]
      cases isRdf p.config with
      | error e => rfl
      | ok rdf =>
        rw [ok_bind, pure_bind, if_pos (makesTable_iff.2 hnone)]
        rfl

/-- **Where the table is allocated and no helper was freed, it is the call.** -/
theorem fileCallWith_eq (func : CStr) (s : Conn) (info : VolInfo) (name : Option CStr) (under : Option Under) (m : Marking)
    (t : Ticks) : fileCallWith (fun _ _ => true) false func s info name under m t = fileCall func s info name under m t := by
  have hinit : provHelperInitCalloc (fun _ _ => true) s.process s.input info = provHelperInit s.process s.input info := by
    unfold provHelperInitCalloc provHelperInit
    rw [provioHelperInitCalloc_eq]
  have hensure : s.ensureHelperCalloc (fun _ _ => true) info = s.ensureHelper info := by
    unfold Conn.ensureHelperCalloc Conn.ensureHelper
    cases s.PROV_HELPER with
    | some h => rfl
    | none =>
      dsimp only
      rw [hinit]
  have hwrap : wrapFileCalloc (fun _ _ => true) s info name under = wrapFile s info name under := by
    unfold wrapFileCalloc wrapFile
    cases under with
    | none => rfl
    | some under =>
      dsimp only
      rw [hensure]
  unfold fileCallWith fileCall
  rw [hwrap]
  rfl

/-! ## The table -/

namespace DurationHt

/-- A name that is stored, or an empty slot. -/
def HasSlot (t : DurationHt Cell) (func : CStr) : Prop := func ∈ Probing.keys t.entries ∨ t.length < t.capacity

/-- A table without slots, or one that is a finite map. -/
def Sound (t : DurationHt Cell) : Prop := (t.entries = [] ∧ t.length = 0 ∧ t.capacity = 0) ∨ ∃ m, Refines t m

theorem sound_statCreate (n : Int) : Sound (statCreate n).2 := by
  rcases Nat.eq_zero_or_pos (sizeT n) with hzero | hpos
  · exact .inl ⟨by simp [statCreate, hzero], rfl, hzero⟩
  · refine .inr ⟨fun _ => none, by simp [statCreate], hpos, ?_, Probing.linear_replicate _, ?_, fun k v => ?_⟩
    · show sizeT n < 2 ^ 64
      unfold sizeT
      omega
    · simp [statCreate, Probing.keys, Probing.entries]
    · simp [statCreate, Probing.At, List.getElem?_replicate]

end DurationHt

section

variable {t t' : DurationHt Cell} {fuel : Nat} {dic dic' : FuncDic} {c : Call}

theorem DurationHt.Sound.step (hs : t.Sound) (hr : accumulateDuration fuel (dic, t) c = .ok (dic', t')) : t'.Sound := by
  rcases hs with ⟨hnil, -, -⟩ | ⟨m, href⟩
  · exact absurd hr (accumulate_no_slots hnil)
  · obtain ⟨dic₁, t₁, hacc, href', -⟩ := accumulate_step href (Nat.le_add_left t.capacity fuel)
      (storeInt c.malloced c.elapsed) (· + c.elapsed) dic c.func_name (room_of_accumulate href hr)
    cases (accumulate_mono t.capacity hr).symm.trans hacc
    exact .inr ⟨_, href'⟩

theorem DurationHt.Sound.all : ∀ (calls : List Call) {dic dic' : FuncDic} {t t' : DurationHt Cell}, t.Sound →
    accumulateAll fuel (dic, t) calls = .ok (dic', t') → t'.Sound
  | [], _, _, _, _, hs, hr => by
    cases hr
    exact hs
  | c :: calls, _, _, _, _, hs, hr => by
    obtain ⟨⟨dic₁, t₁⟩, hc, hr⟩ := bind_eq_ok.1 hr
    exact DurationHt.Sound.all calls (hs.step hc) hr

theorem funcStat_slot_iff {p : Process} (ht : p.FUNCTION_FREQUENCY = some t) (hs : t.Sound) (c : Call) :
    (∃ q, funcStat p c = .ok q) ↔ t.HasSlot c.func_name := by
  constructor
  · rintro ⟨q, hq⟩
    obtain ⟨t', -, -, hacc⟩ := funcStat_ok ht hq
    rcases hs with ⟨hnil, -, -⟩ | ⟨m, href⟩
    · exact absurd hacc (accumulate_no_slots hnil)
    · by_cases hm : m c.func_name = none
      · exact .inr (room_of_accumulate href hacc hm)
      · exact .inl ((href.mem_keys _).2 hm)
  · intro hslot
    rcases hs with ⟨hnil, hlength, hcap⟩ | ⟨m, href⟩
    · rcases hslot with hmem | hlt
      · rw [hnil] at hmem
        cases hmem
      · omega
    · obtain ⟨dic', t', hacc, -, -⟩ := accumulate_step href (Nat.le_succ t.capacity) (storeInt c.malloced c.elapsed)
        (· + c.elapsed) p.FUNC_DIC c.func_name fun hnone => hslot.resolve_left fun hmem => (href.mem_keys _).1 hmem hnone
      unfold funcStat
      rw [ht]
      dsimp only
      rw [show accumulateDuration (t.capacity + 1) (p.FUNC_DIC, t) c = .ok (dic', t') from hacc]
      exact ⟨_, rfl⟩

end

/-- What `add_prov_record` and `func_stat` use: a format, which is RDF where records go to a file, and a slot. -/
structure TakesRecord (config : ProvConfig) (counts : Option (DurationHt Cell)) (func : CStr) : Prop where
  format : config.prov_line_format ≠ none
  rdf    : isFileLevel config → rdfFormat config
  slot   : ∃ t, counts = some t ∧ t.HasSlot func

/-! ## The process -/

/-- The helper of `provio.c` and its table, as far as they are there. -/
structure Recording (p : Process) : Prop where
  opened : ∀ helper, p.helper = some helper → Opened p helper
  table  : ∀ t, p.FUNCTION_FREQUENCY = some t → t.Sound

section

variable {p q : Process}

theorem SessionOp.run_recording {op : SessionOp} (hp : Recording p) (hr : op.run p = .ok q) :
    Recording q ∧ q.helper = p.helper := by
  cases op with
  | fillDataObject obj_name type =>
    cases hr
    exact ⟨⟨fun helper hh => ⟨hh, (hp.opened helper hh).format, (hp.opened helper hh).lines⟩, hp.table⟩, rfl⟩
  | fillRelation relation =>
    cases hr
    exact ⟨⟨fun helper hh => ⟨hh, (hp.opened helper hh).format, (hp.opened helper hh).lines⟩, hp.table⟩, rfl⟩
  | fillIoApi io_api duration =>
    cases hr
    exact ⟨⟨fun helper hh => ⟨hh, (hp.opened helper hh).format, (hp.opened helper hh).lines⟩, hp.table⟩, rfl⟩
  | addProvRecord uuid elapsed =>
    have hr' : Provio.addProvRecord p uuid elapsed = .ok q := hr
    cases hh : p.helper with
    | none =>
      unfold Provio.addProvRecord at hr'
      rw [hh] at hr'
      cases hr'
    | some helper =>
      have ho := hp.opened helper hh
      obtain ⟨-, rfl⟩ := (addProvRecord_eq_ok ho).1 hr'
      rw [addProvRecordRedland_eq]
      split
      · exact ⟨⟨fun helper' hh' => by cases ho.opened.symm.trans hh'; exact ⟨hh', ho.format, ho.lines⟩, hp.table⟩, hh⟩
      · exact ⟨⟨fun helper' hh' => by cases ho.opened.symm.trans hh'; exact ⟨hh', ho.format, ho.lines⟩, hp.table⟩, hh⟩
  | funcStat c =>
    have hr' : Provio.funcStat p c = .ok q := hr
    unfold Provio.funcStat at hr'
    split at hr'
    · cases hr'
    · rename_i t ht
      obtain ⟨⟨dic, t'⟩, hacc, hpure⟩ := bind_eq_ok.1 hr'
      cases hpure
      refine ⟨⟨fun helper hh => ⟨hh, (hp.opened helper hh).format, (hp.opened helper hh).lines⟩, fun u hu => ?_⟩, rfl⟩
      cases hu
      exact (hp.table t ht).step hacc

theorem openGraphs_spec (config : ProvConfig) (mpi_rank_int : Int) (inp : SessionInput) (rdf : Bool) :
    ∃ path, (openGraphs config mpi_rank_int inp rdf).1 = { config with new_graph_path := path } ∧
      (rdf = false → (openGraphs config mpi_rank_int inp rdf).2.2 = none) := by
  unfold openGraphs
  split
  · rename_i hboth
    have hrdf : rdf ≠ false := by
      rintro rfl
      simp at hboth
    dsimp only
    split
    · split
      · exact ⟨config.new_graph_path, rfl, fun h => absurd h hrdf⟩
      · exact ⟨_, rfl, fun h => absurd h hrdf⟩
    · exact ⟨config.new_graph_path, rfl, fun _ => rfl⟩
  · exact ⟨config.new_graph_path, rfl, fun _ => rfl⟩

/-- **What `provio_helper_init` makes**: nothing, or the helper and the table. -/
theorem provioHelperInit_makes {inp : SessionInput} (hr : provioHelperInit p inp = .ok q) :
    q.fields.mpi_rank_int = p.fields.mpi_rank_int ∧
    (makesTable p.config = false ∧ q.helper = none ∧ q.FUNCTION_FREQUENCY = p.FUNCTION_FREQUENCY ∨
     makesTable p.config = true ∧ (∃ helper, Opened q helper) ∧ (∃ path, q.config = { p.config with new_graph_path := path }) ∧
      q.FUNCTION_FREQUENCY = some (statCreate p.config.num_of_apis).2) := by
  obtain ⟨_, hcheck, hr⟩ := bind_eq_ok.1 hr
  have hformat : p.config.prov_line_format.isSome = true := by
    obtain ⟨-, -, hcheck⟩ := bind_eq_ok.1 hcheck
    obtain ⟨-, -, hcheck⟩ := bind_eq_ok.1 hcheck
    obtain ⟨-, -, hcheck⟩ := bind_eq_ok.1 hcheck
    exact cAssert_eq_ok.1 hcheck
  dsimp only at hr
  split at hr
  · rename_i hnone
    cases hr
    exact ⟨rfl, .inl ⟨Bool.eq_false_iff.2 fun h => makesTable_iff.1 h hnone, rfl, rfl⟩⟩
  · rename_i hsome
    obtain ⟨rdf, hrdf, hr⟩ := bind_eq_ok.1 hr
    obtain ⟨-, rfl⟩ := isRdf_eq_ok.1 hrdf
    cases hr
    obtain ⟨path, hpath, hlines⟩ := openGraphs_spec p.config p.fields.mpi_rank_int inp (rdfFormat p.config)
    refine ⟨rfl, .inr ⟨makesTable_iff.2 hsome, ⟨_, rfl, ?_, fun hno => ?_⟩, ⟨path, hpath⟩, rfl⟩⟩
    · rw [hpath]
      exact hformat
    · refine hlines ?_
      rw [hpath] at hno
      exact hno

theorem provioHelperInitCalloc_makes {calloc : Nat → Nat → Bool} {inp : SessionInput}
    (hr : provioHelperInitCalloc calloc p inp = .ok q) : q.fields.mpi_rank_int = p.fields.mpi_rank_int ∧
    (makesTable p.config = false ∧ q.helper = none ∧ q.FUNCTION_FREQUENCY = p.FUNCTION_FREQUENCY ∨
     makesTable p.config = true ∧ (∃ helper, Opened q helper) ∧ (∃ path, q.config = { p.config with new_graph_path := path }) ∧
      q.FUNCTION_FREQUENCY = if calloc (sizeT p.config.num_of_apis) sizeofEntry
        then some (statCreate p.config.num_of_apis).2 else none) := by
  obtain ⟨q₁, hq₁, hr⟩ := bind_eq_ok.1 hr
  obtain ⟨hrank, ⟨hno, hhelper, htable⟩ | ⟨hyes, ⟨helper, ho⟩, hpath, -⟩⟩ := provioHelperInit_makes hq₁
  · rw [if_neg (by simp [hno])] at hr
    cases hr
    exact ⟨hrank, .inl ⟨hno, hhelper, htable⟩⟩
  · rw [if_pos hyes] at hr
    cases hr
    exact ⟨hrank, .inr ⟨hyes, ⟨helper, ho.opened, ho.format, ho.lines⟩, hpath, rfl⟩⟩

theorem provioHelperInitCalloc_recording {calloc : Nat → Nat → Bool} {inp : SessionInput} (hp : Recording p)
    (hr : provioHelperInitCalloc calloc p inp = .ok q) : Recording q := by
  obtain ⟨-, ⟨-, hhelper, htable⟩ | ⟨-, ⟨helper, ho⟩, -, htable⟩⟩ := provioHelperInitCalloc_makes hr
  · exact ⟨fun helper hh => absurd (hhelper.symm.trans hh) (Option.some_ne_none helper).symm, by rw [htable]; exact hp.table⟩
  · refine ⟨fun helper' hh => by cases ho.opened.symm.trans hh; exact ho, fun t ht => ?_⟩
    rw [htable] at ht
    split at ht
    · cases ht
      exact DurationHt.sound_statCreate _
    · cases ht

end

/-! ## The states that are reached -/

/-- A state in the middle of a callback. -/
structure Midway (s : Conn) : Prop where
  tracker : Intact s.tracker
  process : Recording s.process
  begun   : s.PROV_HELPER = none → s.process.helper = none

/-- A state between two callbacks of a load. -/
structure Reached (s : Conn) : Prop extends Midway s where
  helped : s.process.helper = none → s.PROV_HELPER = none

section

variable {s s' : Conn}

/-! ## The record -/

theorem funcStat_after {p q : Process} (hsame : q.FUNCTION_FREQUENCY = p.FUNCTION_FREQUENCY)
    (htable : ∀ t, p.FUNCTION_FREQUENCY = some t → t.Sound) (c : Call) :
    (∃ r, funcStat q c = .ok r) ↔ ∃ t, p.FUNCTION_FREQUENCY = some t ∧ t.HasSlot c.func_name := by
  cases hf : p.FUNCTION_FREQUENCY with
  | none =>
    refine iff_of_false ?_ fun h => by obtain ⟨t, ht, -⟩ := h; cases ht
    rintro ⟨r, hr⟩
    unfold funcStat at hr
    rw [hsame, hf] at hr
    cases hr
  | some t =>
    rw [funcStat_slot_iff (hsame.trans hf) (htable t hf)]
    exact ⟨fun h => ⟨t, rfl, h⟩, fun ⟨t', ht', h⟩ => by cases ht'; exact h⟩

theorem funcStat_fields {p q : Process} {c : Call} (hr : funcStat p c = .ok q) : q.fields = p.fields := by
  unfold funcStat at hr
  split at hr
  · cases hr
  · obtain ⟨⟨dic, t⟩, -, hpure⟩ := bind_eq_ok.1 hr
    cases hpure
    rfl

/-- What stays of the process when statements are added. -/
structure Adds (p q : Process) : Prop where
  table  : q.FUNCTION_FREQUENCY = p.FUNCTION_FREQUENCY
  rank   : q.fields.mpi_rank_int = p.fields.mpi_rank_int
  helper : q.helper = p.helper
  config : q.config = p.config

theorem Adds.recording {p q : Process} (h : Adds p q) (hp : Recording p) : Recording q := by
  refine ⟨fun helper hh => ?_, by rw [h.table]; exact hp.table⟩
  have ho := hp.opened helper (h.helper.symm.trans hh)
  exact ⟨hh, by rw [h.config]; exact ho.format, by rw [h.config]; exact ho.lines⟩

theorem adds_redland (p : Process) (uuid : CStr) :
    Adds p (addProvRecordRedland p uuid (decimal p.fields.duration.toNat)) := by
  rw [addProvRecordRedland_eq]
  exact ⟨rfl, rfl, rfl, rfl⟩

theorem addProvRecord_iff {p : Process} {helper : ProvioHelper} (ho : Opened p helper) (uuid : CStr) (elapsed : BitVec 64) :
    ((∃ q, addProvRecord p uuid elapsed = .ok q) ↔
      p.config.prov_line_format ≠ none ∧ (isFileLevel p.config → rdfFormat p.config)) ∧
      ∀ q, addProvRecord p uuid elapsed = .ok q → Adds p q := by
  refine ⟨⟨fun ⟨q, hq⟩ => ?_, fun ⟨_, hrdf⟩ => ⟨_, (addProvRecord_eq_ok ho).2 ⟨hrdf, rfl⟩⟩⟩, fun q hq => ?_⟩
  · exact ⟨Option.isSome_iff_ne_none.1 ho.format, ((addProvRecord_eq_ok ho).1 hq).1⟩
  · obtain ⟨-, rfl⟩ := (addProvRecord_eq_ok ho).1 hq
    have h := adds_redland p uuid
    split
    · exact ⟨h.table, h.rank, h.helper, h.config⟩
    · exact ⟨rfl, rfl, rfl, rfl⟩

theorem addProvRecordFreed_iff (p : Process) (uuid : CStr) (elapsed : BitVec 64) :
    ((∃ q, addProvRecordFreed p uuid elapsed = .ok q) ↔
      p.config.prov_line_format ≠ none ∧ (isFileLevel p.config → rdfFormat p.config)) ∧
      ∀ q, addProvRecordFreed p uuid elapsed = .ok q → Adds p q := by
  have hlevel : (p.config.prov_level = File_only ∨ p.config.prov_level = File_and_print) ↔ isFileLevel p.config := by
    simp [isFileLevel]
  have hfront : ∀ q, addProvRecordFreed p uuid elapsed = .ok q →
      (p.config.prov_line_format ≠ none ∧ (isFileLevel p.config → rdfFormat p.config)) ∧ Adds p q := by
    intro q hq
    obtain ⟨rdf, hrdf, hq⟩ := bind_eq_ok.1 hq
    obtain ⟨hformat, rfl⟩ := isRdf_eq_ok.1 hrdf
    refine and_assoc.2 ⟨Option.isSome_iff_ne_none.1 hformat, ?_⟩
    have h := adds_redland p uuid
    dsimp only at hq
    split at hq
    · split at hq
      · cases hq
        exact ⟨fun _ => ‹_›, h.table, h.rank, h.helper, h.config⟩
      · cases hq
    · cases hq
      exact ⟨fun hfile => absurd (hlevel.2 hfile) ‹_›, rfl, rfl, rfl, rfl⟩
  refine ⟨⟨fun hreturns => hreturns.elim fun q hq => (hfront q hq).1, fun hready => ?_⟩, fun q hq => (hfront q hq).2⟩
  obtain ⟨hformat, hrdf⟩ := hready
  unfold addProvRecordFreed
  rw [isRdf_eq_ok.2 ⟨Option.isSome_iff_ne_none.2 hformat, rfl⟩, ok_bind]
  split
  · rw [if_pos (hrdf (hlevel.1 ‹_›))]
    exact ⟨_, rfl⟩
  · exact ⟨_, rfl⟩

def Conn.recorded (s : Conn) (io_api : CStr) (t : Ticks) (r : Process) : Conn :=
  let f := (provFillIoApi s.process io_api t.duration).fields
  { s with
    process := addOverhead r t.overhead
    records := s.records ++ [⟨f.data_object, f.type, f.relation, f.io_api⟩] }

theorem record_eq_ok {io_api func : CStr} {t : Ticks} : s.record io_api func t = .ok s' ↔
    ∃ q r, addProvRecord (provFillIoApi s.process io_api t.duration) t.uuid t.write_elapsed = .ok q ∧
      funcStat q ⟨func, t.stat_elapsed, t.malloced⟩ = .ok r ∧ s' = s.recorded io_api t r := by
  constructor
  · intro hr
    obtain ⟨s₁, h1, hr⟩ := bind_eq_ok.1 hr
    obtain ⟨q, hq, h1⟩ := bind_eq_ok.1 h1
    cases h1
    obtain ⟨r, hstat, hpure⟩ := bind_eq_ok.1 hr
    cases hpure
    exact ⟨q, r, hq, hstat, rfl⟩
  · rintro ⟨q, r, hq, hstat, rfl⟩
    unfold Conn.record Conn.addProvRecord
    dsimp only
    rw [hq]
    show (funcStat q _ >>= fun p => _) = _
    rw [hstat]
    rfl

theorem recordFreed_eq_ok {io_api func : CStr} {t : Ticks} : s.recordFreed io_api func t = .ok s' ↔
    ∃ q r, addProvRecordFreed (provFillIoApi s.process io_api t.duration) t.uuid t.write_elapsed = .ok q ∧
      funcStat q ⟨func, t.stat_elapsed, t.malloced⟩ = .ok r ∧ s' = s.recorded io_api t r := by
  constructor
  · intro hr
    obtain ⟨q, hq, hr⟩ := bind_eq_ok.1 hr
    obtain ⟨r, hstat, hpure⟩ := bind_eq_ok.1 hr
    cases hpure
    exact ⟨q, r, hq, hstat, rfl⟩
  · rintro ⟨q, r, hq, hstat, rfl⟩
    unfold Conn.recordFreed
    dsimp only
    rw [hq, ok_bind, hstat]
    rfl

/-- **What a record of a file call leaves**: the lists, the helpers, the rank. -/
structure Leaves (s s' : Conn) : Prop where
  midway  : Midway s'
  tracker : s'.PROV_HELPER = s.PROV_HELPER
  helper  : s'.process.helper = s.process.helper
  rank    : s'.process.fields.mpi_rank_int = s.process.fields.mpi_rank_int

theorem recorded_iff {io_api : CStr} {t : Ticks} {c : Call} {run : Except Fault Conn} {add : Except Fault Process} {R : Prop}
    (hrun : ∀ s', run = .ok s' ↔ ∃ q r, add = .ok q ∧ funcStat q c = .ok r ∧ s' = s.recorded io_api t r)
    (hadd : ((∃ q, add = .ok q) ↔ R) ∧ ∀ q, add = .ok q → Adds (provFillIoApi s.process io_api t.duration) q)
    (hs : Midway s) :
    ((∃ s', run = .ok s') ↔ R ∧ ∃ t, s.process.FUNCTION_FREQUENCY = some t ∧ t.HasSlot c.func_name) ∧
      ∀ s', run = .ok s' → Leaves s s' := by
  obtain ⟨hiff, hadds⟩ := hadd
  have hfill : Recording (provFillIoApi s.process io_api t.duration) :=
    (SessionOp.run_recording hs.process (show SessionOp.run s.process (.fillIoApi io_api t.duration) = _ from rfl)).1
  refine ⟨⟨fun ⟨s', hr⟩ => ?_, fun ⟨hR, hslot⟩ => ?_⟩, fun s' hr => ?_⟩
  · obtain ⟨q, r, hq, hstat, -⟩ := (hrun s').1 hr
    exact ⟨hiff.1 ⟨q, hq⟩, (funcStat_after (hadds q hq).table hs.process.table c).1 ⟨r, hstat⟩⟩
  · obtain ⟨q, hq⟩ := hiff.2 hR
    obtain ⟨r, hstat⟩ := (funcStat_after (hadds q hq).table hs.process.table c).2 hslot
    exact ⟨_, (hrun _).2 ⟨q, r, hq, hstat, rfl⟩⟩
  · obtain ⟨q, r, hq, hstat, rfl⟩ := (hrun s').1 hr
    obtain ⟨hr, hhelper⟩ := SessionOp.run_recording ((hadds q hq).recording hfill)
      (show SessionOp.run q (.funcStat c) = .ok r from hstat)
    have hsame : r.helper = s.process.helper := hhelper.trans (hadds q hq).helper
    refine ⟨⟨hs.tracker, ⟨fun helper hh => ⟨hh, (hr.opened helper hh).format, (hr.opened helper hh).lines⟩, hr.table⟩,
      fun hnone => hsame.trans (hs.begun hnone)⟩, rfl, hsame, ?_⟩
    exact (congrArg (·.mpi_rank_int) (funcStat_fields hstat)).trans (hadds q hq).rank

/-- **When the record of a file call goes through**: there is a helper, or one that was freed. -/
theorem recordWith_iff (hs : Midway s) (freed : Bool) (io_api func : CStr) (t : Ticks) :
    ((∃ s', s.recordWith freed io_api func t = .ok s') ↔
      (s.process.helper ≠ none ∨ freed = true ∧ s.PROV_HELPER = none) ∧
        TakesRecord s.process.config s.process.FUNCTION_FREQUENCY func) ∧
      ∀ s', s.recordWith freed io_api func t = .ok s' → Leaves s s' := by
  have htakes : TakesRecord s.process.config s.process.FUNCTION_FREQUENCY func ↔
      (s.process.config.prov_line_format ≠ none ∧ (isFileLevel s.process.config → rdfFormat s.process.config)) ∧
        ∃ t, s.process.FUNCTION_FREQUENCY = some t ∧ t.HasSlot func :=
    ⟨fun h => ⟨⟨h.format, h.rdf⟩, h.slot⟩, fun h => ⟨h.1.1, h.1.2, h.2⟩⟩
  rw [htakes]
  by_cases hdangles : freed = true ∧ s.PROV_HELPER = none
  · have heq : s.recordWith freed io_api func t = s.recordFreed io_api func t := by
      unfold Conn.recordWith
      rw [if_pos (by simp [hdangles])]
    have hhas : s.process.helper ≠ none ∨ freed = true ∧ s.PROV_HELPER = none := .inr hdangles
    rw [heq, and_iff_right hhas]
    exact recorded_iff (fun _ => recordFreed_eq_ok)
      (addProvRecordFreed_iff (provFillIoApi s.process io_api t.duration) t.uuid t.write_elapsed) hs
  · have heq : s.recordWith freed io_api func t = s.record io_api func t := by
      unfold Conn.recordWith
      rw [if_neg (by simpa using hdangles)]
    rw [heq, or_iff_left hdangles]
    cases hh : s.process.helper with
    | none =>
      have hstop : ∀ s', s.record io_api func t ≠ .ok s' := by
        intro s' hr
        obtain ⟨q, -, hq, -⟩ := record_eq_ok.1 hr
        unfold addProvRecord at hq
        rw [show (provFillIoApi s.process io_api t.duration).helper = none from hh] at hq
        cases hq
      exact ⟨iff_of_false (fun ⟨s', hr⟩ => hstop s' hr) fun h => h.1 rfl, fun s' hr => absurd hr (hstop s')⟩
    | some helper =>
      have ho := hs.process.opened helper hh
      have ho' : Opened (provFillIoApi s.process io_api t.duration) helper := ⟨ho.opened, ho.format, ho.lines⟩
      rw [and_iff_right (Option.some_ne_none helper)]
      exact recorded_iff (fun _ => record_eq_ok) (addProvRecord_iff ho' t.uuid t.write_elapsed) hs

theorem named_iff (hs : Midway s) (freed : Bool) (name : Option CStr) (type relation io_api func : CStr) (t : Ticks) :
    ((∃ s₁ s', s.fill name type relation = .ok s₁ ∧ s₁.recordWith freed io_api func t = .ok s') ↔
      name ≠ none ∧ (s.process.helper ≠ none ∨ freed = true ∧ s.PROV_HELPER = none) ∧
        TakesRecord s.process.config s.process.FUNCTION_FREQUENCY func) ∧
      ∀ s₁ s', s.fill name type relation = .ok s₁ → s₁.recordWith freed io_api func t = .ok s' → Leaves s s' := by
  have hfill : ∀ n, Midway { s with process := { s.process with
      fields := { s.process.fields with data_object := n, type := type, relation := relation } } } := by
    intro n
    refine ⟨hs.tracker, ⟨fun helper hh => ?_, hs.process.table⟩, hs.begun⟩
    have ho := hs.process.opened helper hh
    exact ⟨hh, ho.format, ho.lines⟩
  refine ⟨⟨fun ⟨s₁, s', hname, hr⟩ => ?_, fun ⟨hname, hrest⟩ => ?_⟩, fun s₁ s' hname hr => ?_⟩
  · obtain ⟨n, rfl, rfl⟩ := fill_eq_ok.1 hname
    exact ⟨Option.some_ne_none n, (recordWith_iff (hfill n) freed io_api func t).1.1 ⟨s', hr⟩⟩
  · obtain ⟨n, rfl⟩ := Option.ne_none_iff_exists'.1 hname
    obtain ⟨s', hr⟩ := (recordWith_iff (hfill n) freed io_api func t).1.2 hrest
    exact ⟨_, s', fill_eq_ok.2 ⟨n, rfl, rfl⟩, hr⟩
  · obtain ⟨n, rfl, rfl⟩ := fill_eq_ok.1 hname
    obtain ⟨hmidway, htracker, hhelper, hrank⟩ := (recordWith_iff (hfill n) freed io_api func t).2 s' hr
    exact ⟨hmidway, htracker, hhelper, hrank⟩

end

end Provio
