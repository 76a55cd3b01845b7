import Mathlib.Data.BitVec
import Provio.Loads
import Provio.Slots
/-!
# Outcomes — what the connector leaves behind

A load of the connector hands out a graph and a report of the statistics.  Both are read off its callbacks and off what
the loads before it left in the process: three once-only flags and the totals (`Past`), which nothing resets.  A run of
loads keeps these (`runLoads_past`), so the graph of every load (`runLoads_graphs`) and its report (`runLoads_report`)
are known.  The table behind the report never fills up: the connector has fourteen functions that record
(`funcStat_room`).
-/
namespace Provio

/-- What a load finds of the loads before it. -/
structure Past where
  user    : Bool
  rank    : Bool
  program : Bool
  totals  : Stat

def Process.past (p : Process) : Past := ⟨p.USER_TRACKED, p.MPI_RANK_TRACKED, p.PROC_NAME_TRACKED, p.prov_stat⟩

namespace Load

variable (l : Load)

def records : List Record := l.noted.map Noted.record

def calls : List Call := l.noted.map Noted.call

/-- The statements a load hands to librdf, if it records anything. -/
def graph (past : Past) : List Statement :=
  loadedGraph l.input ++
    (once past.user (userPart l.input.config l.input.fields.user_name) ++
      once past.rank (rankPart l.input.config l.input.fields.mpi_rank l.input.fields.user_name)) ++
    l.records.flatMap (Record.statements l.input.config l.input.fields.proc_name) ++
    once past.program (programPart l.input.config l.input.fields.proc_name l.input.fields.mpi_rank l.input.start_time) ++
    endPart l.input.config l.input.fields.proc_name l.input.end_time

def totals (st : Stat) : Stat :=
  l.input.serialized { st with
    TOTAL_PROV_OVERHEAD := st.TOTAL_PROV_OVERHEAD + l.overhead
    PROV_WRITE_TOTAL_TIME := st.PROV_WRITE_TOTAL_TIME + (l.noted.map (·.ticks.write_elapsed)).sum }

def leaves (past : Past) : Past :=
  if l.noted = [] then past
  else
    { user := past.user || (isGraph l.input.config && l.input.config.enable_user_prov)
      rank := past.rank || (isGraph l.input.config && l.input.config.enable_thread_prov)
      program := past.program || l.input.config.enable_program_prov
      totals := l.totals past.totals }

end Load

def pastOf (ls : List Load) : Past := ls.foldl (fun past l => l.leaves past) Process.start.past

/-! ## The session of a load -/

section

variable {config : ProvConfig}

theorem emitted_noted (hg : isGraph config = true) : ∀ (ns : List Noted) (fields : ProvFields),
    emitted config fields (ns.flatMap Noted.ops) =
      (ns.map Noted.record).flatMap (Record.statements config fields.proc_name)
  | [], _ => rfl
  | n :: ns, fields => by
    simp only [List.flatMap_cons, Noted.ops, Record.ops, List.cons_append, List.nil_append, List.map_cons, emitted,
      SessionOp.part, SessionOp.fields, hg, if_true]
    rw [emitted_noted hg ns]
    rfl

theorem tracksAgents_noted {ns : List Noted} (hne : ns ≠ []) :
    tracksAgents config (ns.flatMap Noted.ops) = isGraph config := by
  obtain ⟨n, ns, rfl⟩ := List.exists_cons_of_ne_nil hne
  simp [tracksAgents, Noted.ops, Record.ops, SessionOp.isRecord]

theorem writeTime_noted : ∀ ns : List Noted,
    writeTime (ns.flatMap Noted.ops) = (ns.map (·.ticks.write_elapsed)).sum
  | [] => rfl
  | n :: ns => by
    have ih := writeTime_noted ns
    unfold writeTime at ih ⊢
    rw [List.flatMap_cons, List.map_append, List.sum_append, ih, List.map_cons, List.sum_cons]
    simp [Noted.ops, Record.ops, Noted.record, SessionOp.elapsed]

theorem calls_noted : ∀ ns : List Noted, (ns.flatMap Noted.ops).filterMap SessionOp.call = ns.map Noted.call
  | [] => rfl
  | n :: ns => by
    rw [List.flatMap_cons, List.filterMap_append, calls_noted ns]
    rfl

end

theorem serialized_overhead (inp : SessionInput) (st : Stat) (x : BitVec 64) :
    { inp.serialized st with TOTAL_PROV_OVERHEAD := (inp.serialized st).TOTAL_PROV_OVERHEAD + x } =
      inp.serialized { st with TOTAL_PROV_OVERHEAD := st.TOTAL_PROV_OVERHEAD + x } := by
  unfold SessionInput.serialized
  split <;> rfl

namespace Load

variable {l : Load} {p q : Process} {out : SessionOutput}

theorem session_totals (st : Stat) :
    { l.session.totals st with TOTAL_PROV_OVERHEAD := (l.session.totals st).TOTAL_PROV_OVERHEAD + l.overhead } =
      l.totals st := by
  unfold Session.totals
  rw [serialized_overhead, totals, show l.session.ops = l.noted.flatMap Noted.ops from rfl, writeTime_noted]
  rfl

theorem session_graph (hne : l.noted ≠ []) (hg : isGraph l.input.config = true) (p : Process) :
    l.session.graph p = l.graph p.past := by
  unfold Session.graph
  rw [show l.session.ops = l.noted.flatMap Noted.ops from rfl, show l.session.input = l.input from rfl,
    tracksAgents_noted hne, hg, if_pos rfl, emitted_noted hg]
  rfl

theorem legacyOpened_isGraph {inp : SessionInput} (h : inp.legacyOpened = true) : isGraph inp.config = true := by
  simp only [SessionInput.legacyOpened, Bool.and_eq_true] at h
  exact h.1.1.1

theorem newOpened_isGraph {inp : SessionInput} (h : inp.newOpened = true) : isGraph inp.config = true := by
  simp only [SessionInput.newOpened, Bool.and_eq_true] at h
  exact h.1.1.1

theorem serialized_congr {opened : Bool} {g g' : List Statement} (h : opened = true → g = g') :
    (if opened then some g else none) = if opened then some g' else none := by
  cases opened with
  | false => rfl
  | true => rw [h rfl]

theorem run_recorded (hp : p.helper = none) (hne : l.noted ≠ []) (hr : l.run p = .ok (q, out)) :
    q.helper = none ∧ q.past = l.leaves p.past ∧
    ∃ dic t, accumulateAll (sizeT l.input.config.num_of_apis + 1) (statCreate l.input.config.num_of_apis) l.calls =
        .ok (dic, t) ∧
      out = { legacy_graph := if l.input.legacyOpened then some (librdfKeeps (l.graph p.past)) else none
              new_graph := if l.input.newOpened then some (librdfKeeps (l.graph p.past)) else none
              stat := if l.input.statOpened then some (statPrint_ 0 (some (l.totals p.prov_stat)) t) else none } := by
  obtain ⟨hnone, -⟩ | ⟨-, q', out', hs, rfl, rfl⟩ := run_cases hp hr
  · exact absurd hnone hne
  obtain ⟨huser, hrank, hprogram, hstat, dic, t, hacc, hout⟩ := Session.run_ok hs
  rw [show l.session.ops.filterMap SessionOp.call = l.calls from calls_noted l.noted] at hacc
  refine ⟨Session.run_helper (q := q') hs, ?_, dic, t, hacc, ?_⟩
  · rw [leaves, if_neg hne, Process.past, ← session_totals]
    unfold Session.tracksUser Session.tracksRank at *
    rw [show l.session.ops = l.noted.flatMap Noted.ops from rfl, tracksAgents_noted hne] at huser hrank
    simp only [addOverhead, huser, hrank, hprogram, hstat]
    rfl
  · rw [hout]
    simp only [SessionOutput.addOverhead, show l.session.input = l.input from rfl]
    congr 1
    · exact serialized_congr fun hopen => congrArg librdfKeeps (session_graph hne (legacyOpened_isGraph hopen) p)
    · exact serialized_congr fun hopen => congrArg librdfKeeps (session_graph hne (newOpened_isGraph hopen) p)
    · rw [← session_totals]
      cases l.input.statOpened <;> rfl

theorem run_leaves (hp : p.helper = none) (hr : l.run p = .ok (q, out)) : q.helper = none ∧ q.past = l.leaves p.past := by
  by_cases hne : l.noted = []
  · obtain ⟨-, rfl, -⟩ | ⟨habs, -⟩ := run_cases hp hr
    · exact ⟨hp, by rw [leaves, if_pos hne]; rfl⟩
    · exact absurd hne habs
  · obtain ⟨hq, hpast, -⟩ := run_recorded hp hne hr
    exact ⟨hq, hpast⟩

end Load

/-! ## Runs of loads -/

theorem foldl_leaves : ∀ (ls : List Load) {p q : Process}, p.helper = none → runLoads p ls = .ok q →
    q.helper = none ∧ q.past = ls.foldl (fun past l => l.leaves past) p.past
  | [], p, q, hp, hr => by
    cases hr
    exact ⟨hp, rfl⟩
  | l :: ls, p, q, hp, hr => by
    obtain ⟨⟨p₁, out⟩, hl, hr⟩ := bind_eq_ok.1 hr
    obtain ⟨hp₁, hpast⟩ := Load.run_leaves hp hl
    rw [List.foldl_cons, ← hpast]
    exact foldl_leaves ls hp₁ hr

/-- **A run of loads leaves the flags and the totals of its records.** -/
theorem runLoads_past {ls : List Load} {p : Process} (hls : runLoads .start ls = .ok p) :
    p.helper = none ∧ p.past = pastOf ls :=
  foldl_leaves ls rfl hls

section

variable {ls : List Load} {l : Load} {p q : Process} {out : SessionOutput}

/-- **The graph of a load, after any loads**: what librdf keeps of what was read, the user and the rank that no load before
it has added, its records in order, its program if no load before it has added one, and its end.  It goes to the file that
was opened, and nowhere if nothing was recorded. -/
theorem runLoads_graphs (hls : runLoads .start ls = .ok p) (hl : l.run p = .ok (q, out)) :
    out.legacy_graph =
      (if l.noted ≠ [] ∧ l.input.legacyOpened then some (librdfKeeps (l.graph (pastOf ls))) else none) ∧
    out.new_graph = (if l.noted ≠ [] ∧ l.input.newOpened then some (librdfKeeps (l.graph (pastOf ls))) else none) := by
  obtain ⟨hp, hpast⟩ := runLoads_past hls
  rw [← hpast]
  by_cases hne : l.noted = []
  · obtain ⟨-, -, rfl⟩ | ⟨habs, -⟩ := Load.run_cases hp hl
    · simp [hne, SessionOutput.none]
    · exact absurd hne habs
  · obtain ⟨-, -, dic, t, -, rfl⟩ := Load.run_recorded hp hne hl
    simp [hne]

end

theorem datasetLoad_noted : datasetLoad.noted ≠ [] := List.cons_ne_nil _ _

/-- The second load's graph, in which no agent is typed. -/
theorem runLoads_graphs_again : ∃ p q out, runLoads .start [datasetLoad] = .ok p ∧ datasetLoad.run p = .ok (q, out) ∧
    out.legacy_graph = none ∧ out.new_graph = some (librdfKeeps (datasetLoad.graph (pastOf [datasetLoad]))) := by
  obtain ⟨p, q, out, hp, hq⟩ := datasetLoad_twice
  obtain ⟨hlegacy, hnew⟩ := runLoads_graphs hp hq
  exact ⟨p, q, out, hp, hq, hlegacy.trans (if_neg fun h => by cases h.2), hnew.trans (if_pos ⟨datasetLoad_noted, rfl⟩)⟩

/-! ## The report -/

/-- A report of a load's calls under totals. -/
structure Reports (calls : List Call) (totals : Stat) (report : StatReport) : Prop where
  header : report.header = some (0, totals)
  nodup  : (report.lines.map Prod.fst).Nodup
  lines  : ∀ k n, (k, n) ∈ report.lines ↔ k ∈ used calls ∧ n = (BitVec.ofNat 32 (total calls k)).toInt

theorem Refines.reports {calls : List Call} {t : DurationHt Cell} (h : Refines t (accumulators calls)) (totals : Stat) :
    Reports calls totals (statPrint_ 0 (some totals) t) := by
  refine ⟨rfl, ?_, fun k n => ?_⟩
  · have hkeys : (statPrint_ 0 (some totals) t).lines.map Prod.fst = Probing.keys t.entries := by
      rw [statPrint_, h.statPass, List.map_map]
      rfl
    rw [hkeys]
    exact h.nodup
  · rw [h.mem_lines, accumulators_ne_none, accumulators, low_accumulators]
    simp [low]

/-- **A table that took the calls had room for their names.** -/
theorem refines_of_accumulateAll {n : Int} (h0 : 0 ≤ n) (h1 : n < 2 ^ 31) {calls : List Call} (hne : calls ≠ [])
    {r : FuncDic × DurationHt Cell} (hr : accumulateAll (sizeT n + 1) (statCreate n) calls = .ok r) :
    Refines r.2 (accumulators calls) ∧ (r.2.capacity : Int) = n := by
  obtain ⟨k, rfl⟩ := Int.eq_ofNat_of_zero_le h0
  obtain ⟨c, cs, rfl⟩ := List.exists_cons_of_ne_nil hne
  have hpos : 1 ≤ k := by
    rcases Nat.eq_zero_or_pos k with rfl | hpos
    · obtain ⟨s, hs, -⟩ := bind_eq_ok.1 hr
      exact absurd hs (accumulate_no_slots rfl)
    · exact hpos
  have hbound : k < 2 ^ 31 := by omega
  have hsize : sizeT (k : Int) = k := by unfold sizeT; omega
  have htable : ({ Process.start with FUNCTION_FREQUENCY := some (statCreate (k : Int)).2 } : Process).FUNCTION_FREQUENCY =
    some (statCreate (k : Int)).2 := rfl
  obtain ⟨q, hq⟩ := funcStats_of_accumulateAll (c :: cs) _ _ _ htable hr
  have hcard := card_used_le hpos hbound htable hq
  obtain ⟨dic, t, hok, href, hcap⟩ := accumulateAll_statCreate hpos hbound hcard (show k ≤ sizeT (k : Int) + 1 by omega)
  rw [hr] at hok
  cases hok
  exact ⟨href, by rw [hcap]⟩

section

variable {ls : List Load} {l : Load} {p q : Process} {out : SessionOutput}

/-- **The report of a load, after any loads**: the header shows the totals of all the loads so far, and there is one line
for each function that has recorded in this one, with the sum of its times modulo `2 ^ 32`, read as an `int`. -/
theorem runLoads_report (h0 : 0 ≤ l.input.config.num_of_apis) (h1 : l.input.config.num_of_apis < 2 ^ 31)
    (hls : runLoads .start ls = .ok p) (hl : l.run p = .ok (q, out)) :
    if l.noted ≠ [] ∧ l.input.statOpened then
      ∃ report, out.stat = some report ∧ Reports l.calls (pastOf (ls ++ [l])).totals report
    else out.stat = none := by
  obtain ⟨hp, hpast⟩ := runLoads_past hls
  by_cases hne : l.noted = []
  · obtain ⟨-, -, rfl⟩ | ⟨habs, -⟩ := Load.run_cases hp hl
    · rw [if_neg (by simp [hne])]
      rfl
    · exact absurd hne habs
  · obtain ⟨-, -, dic, t, hacc, rfl⟩ := Load.run_recorded hp hne hl
    by_cases hopen : l.input.statOpened = true
    · have hcalls : l.calls ≠ [] := by simpa [Load.calls] using hne
      have htotals : (pastOf (ls ++ [l])).totals = l.totals p.prov_stat := by
        rw [pastOf, List.foldl_append, ← pastOf, ← hpast, List.foldl_cons, List.foldl_nil, Load.leaves, if_neg hne]
        rfl
      rw [if_pos ⟨hne, hopen⟩, htotals]
      exact ⟨_, if_pos hopen, (refines_of_accumulateAll h0 h1 hcalls hacc).1.reports _⟩
    · rw [if_neg fun h => hopen h.2]
      exact if_neg hopen

end

/-- The second report: its totals are of both loads, its lines of the second. -/
theorem runLoads_report_again : ∃ p q out, runLoads .start [datasetLoad] = .ok p ∧ datasetLoad.run p = .ok (q, out) ∧
    ∃ report, out.stat = some report ∧ Reports datasetLoad.calls (pastOf [datasetLoad, datasetLoad]).totals report := by
  obtain ⟨p, q, out, hp, hq⟩ := datasetLoad_twice
  have hslots : datasetLoad.input.config.num_of_apis = 62 := rfl
  have hreport := runLoads_report (by rw [hslots]; decide) (by rw [hslots]; decide) hp hq
  rw [if_pos ⟨datasetLoad_noted, rfl⟩] at hreport
  exact ⟨p, q, out, hp, hq, hreport⟩

/-! ## Room in the table -/

def recorders : List CStr :=
  [cstr "H5VL_provenance_attr_create", cstr "H5VL_provenance_attr_open", cstr "H5VL_provenance_attr_read",
    cstr "H5VL_provenance_attr_write", cstr "H5VL_provenance_dataset_create", cstr "H5VL_provenance_dataset_open",
    cstr "H5VL_provenance_dataset_read", cstr "H5VL_provenance_dataset_write", cstr "H5VL_provenance_datatype_commit",
    cstr "H5VL_provenance_datatype_open", cstr "H5VL_provenance_file_create", cstr "H5VL_provenance_file_open",
    cstr "H5VL_provenance_group_create", cstr "H5VL_provenance_group_open"]

theorem Callback.timed_recorders {c : Callback} {f : CStr} {t : Ticks} (h : c.timed = some (f, t)) : f ∈ recorders := by
  cases c with
  | make m o name made t' =>
    cases h
    cases m <;> decide
  | attrOpen o name queried m t' => cases h; decide
  | attrAccess x o ret name t' => cases x <;> cases h <;> decide
  | datasetAccess x o name stack ret npoints elapsed t' => cases x <;> cases h <;> decide
  | fileCall f' info name under m t' => cases f' <;> cases h <;> decide
  | _ => cases h

theorem Callback.noted_recorders {c : Callback} {n : Noted} (h : c.noted = some n) : n.func ∈ recorders := by
  unfold Callback.noted at h
  split at h
  · rename_i e func t he ht
    cases h
    exact timed_recorders ht
  · cases h

theorem Load.used_recorders (l : Load) : used l.calls ⊆ recorders.toFinset := by
  intro k hk
  simp only [used, Load.calls, List.map_map, List.mem_toFinset, List.mem_map] at hk
  obtain ⟨n, hn, rfl⟩ := hk
  obtain ⟨c, -, hc⟩ := List.mem_filterMap.1 hn
  exact List.mem_toFinset.2 (Callback.noted_recorders hc)

theorem runCallbacks_table {l : Load} {p : Process} {w : World} (hp : p.helper = none) (hne : l.noted ≠ [])
    (h0 : 0 ≤ l.input.config.num_of_apis) (h1 : l.input.config.num_of_apis < 2 ^ 31)
    (hr : runCallbacks l.callbacks ⟨.init p l.input, .init, []⟩ = .ok w) :
    ∃ t, w.conn.process.FUNCTION_FREQUENCY = some t ∧ (t.capacity : Int) = l.input.config.num_of_apis ∧
      Refines t (accumulators l.calls) := by
  obtain ⟨hnone, -⟩ | ⟨-, h⟩ := runCallbacks_started l.callbacks rfl hp hr
  · exact absurd hnone hne
  obtain ⟨p₀, p₁, hinit, hops, hproc⟩ := h.process
  rw [opsOf_eq] at hops
  obtain ⟨ho, path, hp₀⟩ := (provioHelperInit_ok hinit).resolve_left (Noted.helper_of_all hne hops)
  have htable : p₀.FUNCTION_FREQUENCY = some (statCreate l.input.config.num_of_apis).2 := by rw [hp₀]
  obtain ⟨t, hacc, ht⟩ := runSessionOps_table _ ho htable hops
  rw [calls_noted, show p₀.FUNC_DIC = dicInitInt by rw [hp₀]] at hacc
  have hcalls : l.calls ≠ [] := by simpa [Load.calls] using hne
  obtain ⟨href, hcap⟩ := refines_of_accumulateAll h0 h1 hcalls hacc
  exact ⟨t, by rw [hproc]; exact ht, hcap, href⟩

/-- **When the next recording callback's `func_stat` ends**: its function has recorded before, or the table has an empty
slot. -/
theorem funcStat_iff {l : Load} {p : Process} {w : World} (hp : p.helper = none) (hne : l.noted ≠ [])
    (h0 : 0 ≤ l.input.config.num_of_apis) (h1 : l.input.config.num_of_apis < 2 ^ 31)
    (hr : runCallbacks l.callbacks ⟨.init p l.input, .init, []⟩ = .ok w) (c : Call) :
    (∃ q, funcStat w.conn.process c = .ok q) ↔
      c.func_name ∈ used l.calls ∨ ((used l.calls).card : Int) < l.input.config.num_of_apis := by
  obtain ⟨t, ht, hcap, href⟩ := runCallbacks_table hp hne h0 h1 hr
  have hused : accumulators l.calls c.func_name = none ↔ c.func_name ∉ used l.calls := by
    rw [← accumulators_ne_none, Ne, not_not]
  have hcard : (used l.calls).card = t.length := by
    rw [← href.card_stored]
    congr 1
    ext k
    rw [href.mem_stored, accumulators_ne_none]
  constructor
  · rintro ⟨q, hq⟩
    obtain ⟨t', -, -, hacc⟩ := funcStat_ok ht hq
    by_cases hmem : c.func_name ∈ used l.calls
    · exact .inl hmem
    · right
      have hroom := room_of_accumulate href hacc (hused.2 hmem)
      omega
  · intro h
    have hroom : accumulators l.calls c.func_name = none → t.length < t.capacity := by
      intro hnone
      have := h.resolve_left (hused.1 hnone)
      omega
    obtain ⟨dic', t', hacc, -, -⟩ := accumulate_step href (Nat.le_succ t.capacity) (storeInt c.malloced c.elapsed)
      (· + c.elapsed) w.conn.process.FUNC_DIC c.func_name hroom
    unfold funcStat
    rw [ht]
    dsimp only
    rw [show accumulateDuration (t.capacity + 1) (w.conn.process.FUNC_DIC, t) c = .ok (dic', t') from hacc]
    exact ⟨_, rfl⟩

/-- **With a slot for each of the fourteen functions, no recording callback ever overruns the table**, in any load and
after any callbacks. -/
theorem funcStat_room {ls : List Load} {l : Load} {p : Process} {w : World} (hls : runLoads .start ls = .ok p)
    (hslots : 14 ≤ l.input.config.num_of_apis) (h1 : l.input.config.num_of_apis < 2 ^ 31)
    (hr : runCallbacks l.callbacks ⟨.init p l.input, .init, []⟩ = .ok w) (hne : l.noted ≠ []) {c : Callback} {n : Noted}
    (hc : c.noted = some n) : ∃ q, funcStat w.conn.process n.call = .ok q := by
  rw [funcStat_iff (runLoads_past hls).1 hne (by omega) h1 hr]
  by_cases hmem : n.call.func_name ∈ used l.calls
  · exact .inl hmem
  right
  have hsub : insert n.call.func_name (used l.calls) ⊆ recorders.toFinset :=
    Finset.insert_subset (List.mem_toFinset.2 (Callback.noted_recorders hc)) l.used_recorders
  have hle := Finset.card_le_card hsub
  rw [Finset.card_insert_of_notMem hmem, show recorders.toFinset.card = 14 by decide] at hle
  omega

def groupNoted : Noted := ⟨entryOf .group .create (cstr "g"), cstr "H5VL_provenance_group_create", someTicks⟩

/-- Two of sixty-two slots are taken when a group is created. -/
theorem funcStat_room_group : ∃ w, runCallbacks datasetLoad.callbacks ⟨.init .start datasetLoad.input, .init, []⟩ = .ok w ∧
    ∃ q, funcStat w.conn.process groupNoted.call = .ok q := by
  obtain ⟨w, hw⟩ : ∃ w, runCallbacks datasetLoad.callbacks ⟨.init .start datasetLoad.input, .init, []⟩ = .ok w := ⟨_, rfl⟩
  have hls : runLoads .start [] = .ok .start := rfl
  have hgroup : createGroup.noted = some groupNoted := rfl
  have hslots : datasetLoad.input.config.num_of_apis = 62 := rfl
  exact ⟨w, hw, funcStat_room hls (by rw [hslots]; decide) (by rw [hslots]; decide) hw datasetLoad_noted hgroup⟩

end Provio
