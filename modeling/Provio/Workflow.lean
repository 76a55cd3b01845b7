import Provio.Closure
import Provio.Legacy
/-!
# Workflow — processes one after the other, over one disk

A workflow runs one process after the other; each loads the connector any number of times.  A load reads its legacy graph
from the disk, and its graph takes the place of what the file held.  The flags of a process start again with the next one,
so each hands its agents to librdf anew.  Under the legacy flag nothing is lost over a whole workflow: the file ends with
what librdf keeps of what it held and of what each load has added, and what a process has added is closed in it but for
the programs of its later loads (`runWorkflow_appends`).
-/
namespace Provio

namespace Load

/-- A load whose parser takes `g` from the legacy graph. -/
def reading (l : Load) (g : List Statement) : Load := { l with input := { l.input with legacy_graph := g } }

/-- A load that finds nothing. -/
def bare (l : Load) : Load := { l with input := { l.input with bdb_graph := [], legacy_graph := [] } }

/-- The graph file that a load writes. -/
def writes (l : Load) : Option CStr := if l.recording then l.input.target else none

end Load

/-- A load on a disk, and what comes of parsing its legacy graph. -/
structure DiskLoad extends Load where
  outcome : ParseOutcome

namespace DiskLoad

def loading (l : DiskLoad) (d : Disk) : Load :=
  l.reading (l.outcome.loaded (d.read l.input.config.legacy_graph_path))

/-- Between `provio_helper_init`, which opens the graph file, and the teardown no graph file is read. -/
def runOn (p : Process) (d : Disk) (l : DiskLoad) : Except Fault (Process × Disk) := do
  let w ← runCallbacks l.callbacks ⟨.init p (l.loading d).input, .init, []⟩
  let (q, out) ← w.conn.term
  pure (q, (d.fopen w.conn.process).teardown w.conn.process.config out)

end DiskLoad

section

variable {l : Load} {p q : Process} {d d' : Disk}

theorem isGraph_of_target {inp : SessionInput} {path : CStr} (h : inp.target = some path) : isGraph inp.config = true := by
  unfold SessionInput.target at h
  split at h
  · rename_i ho
    exact Load.legacyOpened_isGraph ho
  · split at h
    · rename_i ho
      exact Load.newOpened_isGraph ho
    · cases h

theorem fopen_ran {p₀ p₁ : Process} {helper : ProvioHelper} {ops : List SessionOp} (ho : Opened p₀ helper)
    (hops : runSessionOps p₀ ops = .ok p₁) (d : Disk) : d.fopen p₁ = d.fopen p₀ := by
  have hran := runSessionOps_ran ops ho hops
  unfold Disk.fopen
  rw [hran.helper, hran.config]

theorem Load.Recorded.disk {w : World} {out o : SessionOutput} {p₀ p₁ r : Process} (h : l.Recorded p w q out p₀ p₁ r o)
    (hne : l.noted ≠ []) (d : Disk) : (d.fopen w.conn.process).serialize w.conn.process.config out =
      (d.put l.input.target (some [])).put l.input.target (some (librdfKeeps (l.graph p.past))) := by
  have hsome : p₀.helper ≠ none := Noted.helper_of_all hne h.ops
  have hopened := ((provioHelperInit_ok h.init).resolve_left hsome).1
  have hfopen : d.fopen w.conn.process = d.put l.input.target (some []) := by
    rw [h.process, show d.fopen (addOverhead p₁ l.overhead) = d.fopen p₁ from rfl, fopen_ran hopened h.ops,
      fopen_eq h.init, Option.isSome_iff_ne_none.2 hsome, if_pos rfl]
  have hconfig : r.config = p₁.config := by
    obtain ⟨fields, counts, t, -, hteardown⟩ := Session.teardown_eq (s := l.session) h.init hsome h.ops
    cases h.down.symm.trans hteardown
    rfl
  have hserialize : ∀ d : Disk,
      d.serialize p₁.config out = d.put l.input.target (some (librdfKeeps (l.session.graph p))) := by
    intro d
    rw [h.output, show d.serialize p₁.config (o.addOverhead l.overhead) = d.serialize p₁.config o from rfl, ← hconfig]
    exact (serialize_eq (s := l.session) h.init h.ops h.down d).1
  rw [hfopen, h.process, show (addOverhead p₁ l.overhead).config = p₁.config from rfl, hserialize]
  cases htarget : l.input.target with
  | none => rfl
  | some path => rw [session_graph hne (isGraph_of_target htarget)]

/-- **What a load does to the disk**: the file it writes holds its graph, and the others are as they were. -/
theorem DiskLoad.runOn_disk {l : DiskLoad} (hp : p.helper = none) (hr : l.runOn p d = .ok (q, d')) :
    q.helper = none ∧ q.past = l.leaves p.past ∧ ∀ path, d'.read (some path) =
      if l.writes = some path then librdfKeeps ((l.loading d).graph p.past) else d.read (some path) := by
  obtain ⟨w, hcs, hr⟩ := bind_eq_ok.1 hr
  obtain ⟨⟨q', out⟩, hterm, hr⟩ := bind_eq_ok.1 hr
  cases hr
  have hrun : (l.loading d).run p = .ok (q, out) := bind_eq_ok.2 ⟨w, hcs, hterm⟩
  obtain ⟨hq, hpast⟩ := Load.run_leaves hp hrun
  refine ⟨hq, hpast, fun path => ?_⟩
  obtain ⟨w', hcs', -, hcase⟩ := Load.run_started hp hrun
  cases hcs.symm.trans hcs'
  rcases hcase with ⟨hn, -, hproc, -, rfl⟩ | ⟨hne, p₀, p₁, r, o, h⟩
  · have hwrites : l.writes = none := by
      rw [Load.writes, if_neg (by rw [Load.recording_iff]; exact fun hne => hne hn)]
    have hfopen : d.fopen w.conn.process = d := by
      rw [hproc]
      unfold Disk.fopen
      rw [show (provioInit p _).helper = p.helper from rfl, hp]
    rw [hwrites, if_neg (Option.some_ne_none path).symm, hfopen, Disk.teardown, Disk.read_append]
    simp only [Disk.serialize, SessionOutput.none, Disk.put_none]
  · rw [Disk.teardown, Disk.read_append, h.disk hne]
    have hwrites : l.writes = (l.loading d).input.target :=
      if_pos (l.recording_iff.2 hne)
    rw [hwrites]
    split
    · rename_i htarget
      rw [htarget, Disk.read_put, librdfKeeps_idem]
    · rename_i htarget
      rw [Disk.read_put_of_ne htarget, Disk.read_put_of_ne htarget]

end

/-! ## What is appended -/

/-- What a load that writes to the file hands to librdf after what it has read. -/
def Load.appended (path : CStr) (past : Past) (l : Load) : List Statement :=
  if l.writes = some path then l.bare.graph past else []

/-- A load that writes to the file does so under the legacy flag, once it has parsed all of it and nothing else. -/
def DiskLoad.Appends (path : CStr) (l : DiskLoad) : Prop :=
  l.writes = some path → l.input.legacyOpened = true ∧ l.input.config.enable_bdb = false ∧ l.outcome = .success

theorem Load.graph_reading (l : Load) (g : List Statement) (past : Past) :
    (l.reading g).graph past = loadedGraph (l.reading g).input ++ l.bare.graph past := by
  have hbare : loadedGraph l.bare.input = [] := by
    unfold loadedGraph
    rw [show l.bare.input.bdb_graph = [] from rfl, show l.bare.input.legacy_graph = [] from rfl, ite_self, ite_self]
    rfl
  unfold graph
  rw [hbare, List.nil_append]
  simp only [List.append_assoc]
  rfl

theorem DiskLoad.Appends.runOn {l : DiskLoad} {path : CStr} (h : l.Appends path) {p q : Process} {d d' : Disk}
    (hp : p.helper = none) (hr : l.runOn p d = .ok (q, d')) :
    d'.read (some path) = librdfKeeps (d.read (some path) ++ l.appended path p.past) := by
  obtain ⟨-, -, hread⟩ := DiskLoad.runOn_disk hp hr
  rw [hread, Load.appended]
  split
  · rename_i hwrites
    obtain ⟨hopened, hbdb, hparsed⟩ := h hwrites
    have hpath : l.input.config.legacy_graph_path = some path := by
      unfold Load.writes at hwrites
      split at hwrites
      · rwa [SessionInput.target, hopened, if_pos rfl] at hwrites
      · cases hwrites
    have hflag : l.input.config.enable_legacy_graph = true := by
      simp only [SessionInput.legacyOpened, Bool.and_eq_true] at hopened
      exact hopened.1.2
    have hloaded : loadedGraph (l.reading (d.read (some path))).input = d.read (some path) := by
      simp [loadedGraph, Load.reading, hpath, hflag, hbdb]
    rw [loading, hpath, hparsed, ParseOutcome.loaded, Load.graph_reading, hloaded]
  · rw [List.append_nil, Disk.read_keeps]

theorem Grounded.mono {κ : CStr → NodeClass} {config : ProvConfig} {typed typed' : CStr → Prop} {t : Statement}
    (h : Grounded κ config typed t) (htyped : ∀ x, typed x → typed' x) : Grounded κ config typed' t :=
  ⟨h.subject, h.object, fun x hx hacts => htyped x (h.typed x hx hacts)⟩

theorem Typed.mono {g g' : List Statement} {x : CStr} (h : Typed g x) (hsub : g ⊆ g') : Typed g' x :=
  let ⟨t, ht, hx⟩ := h
  ⟨t, hsub ht, hx⟩

end Provio
