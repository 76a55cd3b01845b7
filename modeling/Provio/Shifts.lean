import Provio.Connector
import Provio.Emitted
/-!
# Shifts — what a session carries and never looks at

The statements that a session loads stay in front of its model, and the overhead that the connector adds stays in the
totals.  Nothing in `provio.c` asks for either before the end, where both are printed: so every user function does the same
on a process that is shifted by them (`SessionOp.run_shift`), and what the teardown writes is shifted by the same
(`provioHelperTeardown_shift`).
-/
namespace Provio

/-- The model with `g` in front and the overhead larger by `x`. -/
def Process.shift (p : Process) (g : List Statement) (x : BitVec 64) : Process :=
  addOverhead { p with model_prov := g ++ p.model_prov } x

def StatReport.addOverhead (report : StatReport) (elapsed : BitVec 64) : StatReport :=
  { report with header := report.header.map fun h =>
      (h.1, { h.2 with TOTAL_PROV_OVERHEAD := h.2.TOTAL_PROV_OVERHEAD + elapsed }) }

def SessionOutput.addOverhead (out : SessionOutput) (elapsed : BitVec 64) : SessionOutput :=
  { out with stat := out.stat.map (·.addOverhead elapsed) }

/-- Each graph with `g` in front. -/
def SessionOutput.load (out : SessionOutput) (g : List Statement) : SessionOutput :=
  { out with legacy_graph := out.legacy_graph.map fun k => librdfKeeps (g ++ k)
             new_graph := out.new_graph.map fun k => librdfKeeps (g ++ k) }

def SessionOutput.shift (out : SessionOutput) (g : List Statement) (x : BitVec 64) : SessionOutput :=
  (out.load g).addOverhead x

theorem SessionOutput.addOverhead_add (out : SessionOutput) (x y : BitVec 64) :
    (out.addOverhead x).addOverhead y = out.addOverhead (x + y) := by
  unfold SessionOutput.addOverhead StatReport.addOverhead
  cases out.stat with
  | none => rfl
  | some report =>
    obtain ⟨header, lines⟩ := report
    cases header with
    | none => rfl
    | some h => simp [BitVec.add_assoc]

@[simp] theorem SessionOutput.addOverhead_zero (out : SessionOutput) : out.addOverhead 0 = out := by
  unfold SessionOutput.addOverhead StatReport.addOverhead
  obtain ⟨legacy, new, stat⟩ := out
  cases stat with
  | none => rfl
  | some report =>
    obtain ⟨header, lines⟩ := report
    cases header <;> simp

section

variable (p : Process) (g : List Statement) (x : BitVec 64)

@[simp] theorem addOverhead_zero : addOverhead p 0 = p := by
  simp [addOverhead]

theorem addOverhead_add (y : BitVec 64) : addOverhead (addOverhead p x) y = addOverhead p (x + y) := by
  simp [addOverhead, BitVec.add_assoc]

theorem Process.shift_nil : p.shift [] x = addOverhead p x := rfl

/-! ## The user functions -/

theorem addProvRecordRedland_shift (uuid : CStr) :
    addProvRecordRedland (p.shift g x) uuid (decimal p.fields.duration.toNat) =
      (addProvRecordRedland p uuid (decimal p.fields.duration.toNat)).shift g x := by
  rw [addProvRecordRedland_eq p, show decimal p.fields.duration.toNat = decimal (p.shift g x).fields.duration.toNat
    from rfl, addProvRecordRedland_eq]
  simp [Process.shift, addOverhead, List.append_assoc]

theorem putRecordLine_shift (helper : ProvioHelper) (pline : CStr) :
    putRecordLine (p.shift g x) helper pline = (putRecordLine p helper pline).map (·.shift g x) := by
  unfold putRecordLine
  rw [show (p.shift g x).config = p.config from rfl]
  split
  · cases fputs pline helper.legacy_prov_file_handle with
    | error e => rfl
    | ok legacy => cases fputs pline helper.new_prov_file_handle <;> rfl
  · cases fputs pline helper.new_prov_file_handle <;> rfl

theorem addProvRecord_shift (uuid : CStr) (elapsed : BitVec 64) :
    addProvRecord (p.shift g x) uuid elapsed = (addProvRecord p uuid elapsed).map (·.shift g x) := by
  unfold addProvRecord
  rw [show (p.shift g x).helper = p.helper from rfl, show (p.shift g x).config = p.config from rfl,
    show (p.shift g x).fields = p.fields from rfl]
  cases p.helper with
  | none => rfl
  | some helper =>
    cases isRdf p.config with
    | error e => rfl
    | ok rdf =>
      simp only [ok_bind]
      split
      · cases rdf with
        | true =>
          rw [if_pos rfl, if_pos rfl, addProvRecordRedland_shift]
          rfl
        | false =>
          rw [if_neg Bool.false_ne_true, if_neg Bool.false_ne_true, putRecordLine_shift]
          cases putRecordLine p helper _ <;> rfl
      · rfl

theorem funcStat_shift (c : Call) : funcStat (p.shift g x) c = (funcStat p c).map (·.shift g x) := by
  unfold funcStat
  rw [show (p.shift g x).FUNCTION_FREQUENCY = p.FUNCTION_FREQUENCY from rfl,
    show (p.shift g x).FUNC_DIC = p.FUNC_DIC from rfl]
  cases p.FUNCTION_FREQUENCY with
  | none => rfl
  | some counts =>
    dsimp only
    cases accumulateDuration (counts.capacity + 1) (p.FUNC_DIC, counts) c <;> rfl

theorem SessionOp.run_shift (op : SessionOp) : op.run (p.shift g x) = (op.run p).map (·.shift g x) := by
  cases op with
  | fillDataObject obj_name type => rfl
  | fillRelation relation => rfl
  | fillIoApi io_api duration => rfl
  | addProvRecord uuid elapsed => exact addProvRecord_shift p g x uuid elapsed
  | funcStat c => exact funcStat_shift p g x c

end

theorem runSessionOps_shift (g : List Statement) (x : BitVec 64) : ∀ (ops : List SessionOp) (p : Process),
    runSessionOps (p.shift g x) ops = (runSessionOps p ops).map (·.shift g x)
  | [], _ => rfl
  | op :: ops, p => by
    rw [runSessionOps, runSessionOps, SessionOp.run_shift]
    cases op.run p with
    | error e => rfl
    | ok q => exact runSessionOps_shift g x ops q

theorem runSessionOps_addOverhead (x : BitVec 64) (ops : List SessionOp) (p : Process) :
    runSessionOps (addOverhead p x) ops = (runSessionOps p ops).map (addOverhead · x) :=
  runSessionOps_shift [] x ops p

/-! ## The teardown -/

section

variable (p : Process) (g l : List Statement) (x : BitVec 64) (inp : SessionInput)

theorem serializeGraphs_shift (helper : ProvioHelper) :
    serializeGraphs (p.shift g x) helper { inp with legacy_graph := l } =
      (serializeGraphs p helper inp).map fun r => (r.1.shift g x, r.2.shift g x) := by
  unfold serializeGraphs
  rw [show (p.shift g x).config = p.config from rfl]
  split
  · cases isRdf p.config with
    | error e => rfl
    | ok rdf =>
      have hmodel : librdfKeeps (p.shift g x).model_prov = librdfKeeps (g ++ librdfKeeps p.model_prov) :=
        (librdfKeeps_append_keeps g p.model_prov).symm
      simp only [serializeModel, hmodel]
      cases p.config.enable_legacy_graph <;> cases rdf <;> cases helper.legacy_prov_file_handle <;>
        cases helper.new_prov_file_handle <;> rfl
  · rfl

theorem printStat_shift (helper : ProvioHelper) (out : SessionOutput) :
    printStat (p.shift g x) helper (out.shift g x) =
      (printStat p helper out).map fun r => (r.1.shift g x, r.2.shift g x) := by
  unfold printStat
  rw [show (p.shift g x).fields = p.fields from rfl,
    show (p.shift g x).FUNCTION_FREQUENCY = p.FUNCTION_FREQUENCY from rfl]
  split
  · cases p.FUNCTION_FREQUENCY with
    | none => rfl
    | some counts => cases helper.stat_file_handle <;> rfl
  · rfl

/-- **The teardown writes what was loaded and the overhead that was added, and the rest as without them.** -/
theorem provioHelperTeardown_shift : provioHelperTeardown (p.shift g x) { inp with legacy_graph := l } =
    (provioHelperTeardown p inp).map fun r => (r.1.shift g x, r.2.shift g x) := by
  have hprogram : addProgramRecord { p.shift g x with
        fields := { (p.shift g x).fields with proc_end_time := inp.end_time } } =
      (addProgramRecord { p with fields := { p.fields with proc_end_time := inp.end_time } }).shift g x := by
    simp [addProgramRecord, addProgramRecordRedland_eq, Process.shift, addOverhead, List.append_assoc]
  unfold provioHelperTeardown
  simp only [hprogram]
  generalize addProgramRecord { p with fields := { p.fields with proc_end_time := inp.end_time } } = q
  rw [show (q.shift g x).helper = q.helper from rfl]
  cases q.helper with
  | none => rfl
  | some helper =>
    dsimp only
    rw [serializeGraphs_shift]
    cases serializeGraphs q helper inp with
    | error e => rfl
    | ok r =>
      obtain ⟨q, out⟩ := r
      show printStat (q.shift g x) helper (out.shift g x) >>= _ = Except.map _ (printStat q helper out >>= _)
      rw [printStat_shift]
      cases printStat q helper out <;> rfl

theorem provioHelperTeardown_addOverhead : provioHelperTeardown (addOverhead p x) inp =
    (provioHelperTeardown p inp).map fun r => (addOverhead r.1 x, r.2.addOverhead x) := by
  have h := provioHelperTeardown_shift p [] inp.legacy_graph x inp
  -- shifted by nothing, a graph is what librdf holds of it: it is that already
  have hnil := provioHelperTeardown_shift p [] inp.legacy_graph 0 inp
  rw [Process.shift_nil, addOverhead_zero] at hnil
  rw [Process.shift_nil] at h
  rw [h]
  cases hr : provioHelperTeardown p inp with
  | error e => rfl
  | ok r =>
    rw [hr] at hnil
    have hload : r.2.load [] = r.2 := by
      rw [← SessionOutput.addOverhead_zero (r.2.load [])]
      exact (congrArg Prod.snd (Except.ok.inj hnil)).symm
    rw [Except.map, Except.map, SessionOutput.shift, hload]
    rfl

end

end Provio
