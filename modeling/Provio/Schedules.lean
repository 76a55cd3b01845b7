import Provio.Loads
import Provio.Ranks
/-!
# Schedules — the ranks finish, whatever the order of their steps

What a process loads stays in front of its model and goes nowhere else: it decides no branch and stops no call
(`SessionOp.run_shift`).  So a rank whose session ends when it runs alone takes its steps to the end among the others, in
any order (`Cluster.step_returns`).  Without the legacy flag and the store the files do not depend on the order either:
each rank's graph file has what that rank records, the statistics file gets the report that rank 0 prints when it runs
alone, and every other file is as it was (`ranks_files`).
-/
namespace Provio

/-! ## What is loaded decides nothing -/

section

variable (p : Process) (g : List Statement) (inp : SessionInput)

theorem provioInit_shift : provioInit p inp =
    Process.shift { provioInit p inp with model_prov := [] } (loadedGraph inp) 0 := by
  unfold Process.shift
  rw [List.append_nil, addOverhead_zero]
  rfl

theorem provioHelperInit_shift (l : List Statement) :
    provioHelperInit (p.shift g 0) { inp with legacy_graph := l } = (provioHelperInit p inp).map (·.shift g 0) := by
  unfold provioHelperInit
  rw [show (p.shift g 0).config = p.config from rfl, show (p.shift g 0).fields = p.fields from rfl]
  cases checkConfig p.config with
  | error e => rfl
  | ok u =>
    simp only [ok_bind]
    split
    · rfl
    · cases isRdf p.config <;> rfl

theorem provioTerm_shift : provioTerm (p.shift g 0) = provioTerm p := by
  rw [Process.shift, addOverhead_zero]
  rfl

end

/-- A session that loads nothing. -/
def Session.bare (s : Session) : Except Fault (Process × SessionOutput) := do
  let p ← provioHelperInit { provioInit .start s.input with model_prov := [] } s.input
  let p ← runSessionOps p s.ops
  provioHelperTeardown p s.input

theorem Session.run_bare (s : Session) (g : List Statement) : (s.reading g).run .start =
    s.bare.map fun r => (provioTerm r.1, r.2.shift (loadedGraph (s.reading g).input) 0) := by
  let base : Process := { provioInit .start s.input with model_prov := [] }
  have hinit : provioInit .start (s.reading g).input = base.shift (loadedGraph (s.reading g).input) 0 :=
    provioInit_shift .start (s.reading g).input
  unfold Session.run Session.bare
  rw [hinit, show (s.reading g).input = { s.input with legacy_graph := g } from rfl, provioHelperInit_shift]
  cases provioHelperInit base s.input with
  | error e => rfl
  | ok p₁ =>
    show runSessionOps (p₁.shift _ 0) s.ops >>= _ = Except.map _ (runSessionOps p₁ s.ops >>= _)
    rw [runSessionOps_shift]
    cases runSessionOps p₁ s.ops with
    | error e => rfl
    | ok p₂ =>
      show provioHelperTeardown (p₂.shift _ 0) { s.input with legacy_graph := g } >>= _ =
        Except.map _ (provioHelperTeardown p₂ s.input)
      rw [provioHelperTeardown_shift]
      cases provioHelperTeardown p₂ s.input with
      | error e => rfl
      | ok r => exact congrArg (fun p => Except.ok (p, _)) (provioTerm_shift r.1 _)

/-- A rank whose session ends when it runs alone. -/
def Session.Ends (s : Session) : Prop := ∃ r, s.run .start = .ok r

theorem Session.Ends.reading {s : Session} (h : s.Ends) (g : List Statement) : (s.reading g).Ends := by
  obtain ⟨r, hr⟩ := h
  rw [show s = s.reading s.input.legacy_graph from rfl, s.run_bare] at hr
  unfold Session.Ends
  rw [s.run_bare]
  cases hb : s.bare with
  | error e =>
    rw [hb] at hr
    cases hr
  | ok r' => exact ⟨_, rfl⟩

/-! ## A rank among the others -/

def RankState.left (s : Session) : RankState → Nat
  | .idle             => s.ops.length + 3
  | .ready _ _        => s.ops.length + 2
  | .running _ _ rest => rest.length + 1
  | .done             => 0

section

variable {n : Nat} {R : Ranks n} {graphs : CStr → Option (List Statement)} {w w' : Cluster n} {r : Fin n}

/-- The report a session prints when it runs alone, with the file it goes to. -/
def Session.reported (s : Session) : List (CStr × StatReport) :=
  match s.run .start with
  | .ok (_, out) => (s.input.config.stat_file_path.bind fun path => out.stat.map fun report => (path, report)).toList
  | .error _     => []

/-- What the files hold in the end: each rank's file what that rank records, any other what it held. -/
def Ranks.files (R : Ranks n) (graphs : CStr → Option (List Statement)) (path : CStr) : Option (List Statement) :=
  match (List.finRange n).find? fun r => (R.session r).input.target = some path with
  | some r => some (librdfKeeps (R.session r).recorded)
  | none   => graphs path

/-- The files of the ranks that are done, and the files of no rank. -/
structure Settled (R : Ranks n) (graphs : CStr → Option (List Statement)) (w : Cluster n) : Prop where
  own  : ∀ r, w.ranks r = .done → ∀ path, (R.session r).input.target = some path →
    w.disk.graphs path = some (librdfKeeps (R.session r).recorded)
  rest : ∀ path, (∀ r, (R.session r).input.target ≠ some path) → w.disk.graphs path = graphs path

theorem graph_reading (hflag : R.config.enable_legacy_graph = false) (hbdb : R.config.enable_bdb = false) (r : Fin n)
    (g : List Statement) : ((R.session r).reading g).graph .start = (R.session r).recorded := by
  have hload : ((R.session r).reading g).input.loaded = [] := by
    simp [Session.reading, SessionInput.loaded, R.flag hflag r]
  have hstored : (R.session r).stored = [] := by
    rw [Session.stored, R.same r, hbdb]
    rfl
  rw [Session.graph_eq, hload, hstored]
  rfl

theorem Disk.graphs_put (d : Disk) (path : CStr) (g : List Statement) :
    (d.put (some path) (some g)).graphs path = some g := by
  simp [Disk.put]

theorem Disk.graphs_put_of_ne {d : Disk} {target : Option CStr} {g : Option (List Statement)} {path : CStr}
    (h : target ≠ some path) : (d.put target g).graphs path = d.graphs path := by
  rcases target with _ | P
  · rfl
  · rcases g with _ | g
    · rfl
    · have hne : path ≠ P := fun he => h (by rw [he])
      simp [Disk.put, Function.update_of_ne hne]

theorem RankState.Effect.graphs_of_ne {s : Session} {d d' : Disk} {st st' : RankState} (h : Effect s d st d' st')
    {path : CStr} (hne : s.input.target ≠ some path) : d'.graphs path = d.graphs path := by
  rcases h.files with rfl | ⟨g, _, _, rfl⟩
  · rfl
  · exact Disk.graphs_put_of_ne hne

theorem Settled.step (hflag : R.config.enable_legacy_graph = false) (hbdb : R.config.enable_bdb = false) (hg : w.Good R)
    (hs : Settled R graphs w) (h : w.step R r = .ok w') : Settled R graphs w' := by
  obtain ⟨-, d, st, heffect, rfl⟩ := Cluster.step_cases hg h
  refine ⟨fun a ha path hpath => ?_, fun path hpath => ?_⟩
  · rcases Rewriting.update_cases ha with ⟨rfl, hst⟩ | ⟨hne, ha⟩
    · rcases heffect.done hst with ⟨hdone, rfl⟩ | ⟨g, _, _, -, rfl⟩
      · exact hs.own a hdone path hpath
      · rw [hpath, graph_reading hflag hbdb]
        exact Disk.graphs_put ..
    · -- no other rank has this file
      exact (heffect.graphs_of_ne fun hr => hne (target_injective hflag hpath hr)).trans (hs.own a ha path hpath)
  · exact (heffect.graphs_of_ne (hpath r)).trans (hs.rest path hpath)

theorem Settled.files (hs : Settled R graphs w) (hdone : ∀ r, w.ranks r = .done) :
    w.disk.graphs = R.files graphs := by
  funext path
  unfold Ranks.files
  cases hfind : (List.finRange n).find? fun r => (R.session r).input.target = some path with
  | none =>
    refine hs.rest path fun r hr => ?_
    have hno := List.find?_eq_none.1 hfind r (List.mem_finRange r)
    exact hno (decide_eq_true hr)
  | some r =>
    have hr := List.find?_some hfind
    exact hs.own r (hdone r) path (of_decide_eq_true hr)

/-! ## The report -/

/-- What is read of the legacy graph does not show in the statistics. -/
theorem Session.stat_reading {s : Session} {g : List Statement} {q : Process} {out : SessionOutput}
    (hrun : (s.reading g).run .start = .ok (q, out)) :
    s.reported = (s.input.config.stat_file_path.bind fun path => out.stat.map fun report => (path, report)).toList := by
  have halone := s.run_bare s.input.legacy_graph
  rw [s.run_bare g] at hrun
  cases hb : s.bare with
  | error e =>
    rw [hb] at hrun
    cases hrun
  | ok r =>
    rw [hb] at hrun halone
    cases hrun
    have hrun : s.run .start = .ok (provioTerm r.1, r.2.shift (loadedGraph s.input) 0) := halone
    have hstat : ∀ k, (r.2.shift k 0).stat = r.2.stat := by
      intro k
      rw [SessionOutput.shift, SessionOutput.addOverhead_zero]
      rfl
    rw [Session.reported, hrun]
    dsimp only
    rw [hstat, hstat]

/-- **A rank adds its report when it tears down**, and at no other step. -/
theorem RankState.Effect.reports {s : Session} {d d' : Disk} {st st' : RankState} (h : Effect s d st d' st') :
    (d'.reports = d.reports ∧ (st' = .done ↔ st = .done)) ∨
      st ≠ .done ∧ st' = .done ∧ d'.reports = d.reports ++ s.reported := by
  have hput : ∀ (d : Disk) (target : Option CStr) (g : Option (List Statement)), (d.put target g).reports = d.reports := by
    intro d target g
    cases target <;> cases g <;> rfl
  have hloads : ∀ {st : RankState} {g : List Statement}, st.loads = some g → st ≠ .done := by
    rintro st g hl rfl
    cases hl
  cases h with
  | init hst hl => exact .inl ⟨rfl, ⟨fun h => absurd h (hloads hl), fun h => by rw [hst] at h; cases h⟩⟩
  | fopen hl hl' => exact .inl ⟨hput _ _ _, ⟨fun h => absurd h (hloads hl'), fun h => absurd h (hloads hl)⟩⟩
  | call hl hl' => exact .inl ⟨rfl, ⟨fun h => absurd h (hloads hl'), fun h => absurd h (hloads hl)⟩⟩
  | teardown hl hrun =>
    refine .inr ⟨hloads hl, rfl, ?_⟩
    rw [Session.stat_reading hrun, Disk.append, hput]
  | still hst => exact .inl ⟨rfl, ⟨fun _ => hst, fun _ => rfl⟩⟩

/-- Only rank 0 has a statistics file. -/
theorem reported_of_ne {R : Ranks (n + 1)} {r : Fin (n + 1)} (hr : r ≠ 0) : (R.session r).reported = [] := by
  unfold Session.reported
  cases hrun : (R.session r).run .start with
  | error e => rfl
  | ok out =>
    obtain ⟨q, out⟩ := out
    obtain ⟨-, -, -, -, dic, t, -, rfl⟩ := Session.run_ok hrun
    have hrank : (R.session r).input.statOpened = false := by
      simp [SessionInput.statOpened, R.rank r, hr]
    simp [hrank]

/-- The report of rank 0 is there once that rank is done. -/
structure Reported (R : Ranks (n + 1)) (w : Cluster (n + 1)) : Prop where
  done : w.ranks 0 = .done → w.disk.reports = (R.session 0).reported
  not  : w.ranks 0 ≠ .done → w.disk.reports = []

theorem Reported.step {R : Ranks (n + 1)} {w w' : Cluster (n + 1)} {r : Fin (n + 1)} (hg : w.Good R) (hs : Reported R w)
    (h : w.step R r = .ok w') : Reported R w' := by
  obtain ⟨-, d, st, heffect, rfl⟩ := Cluster.step_cases hg h
  by_cases hr : r = 0
  · subst hr
    rcases heffect.reports with ⟨hd, hiff⟩ | ⟨hst, hst', hd⟩
    · exact ⟨fun h => hd.trans (hs.done (hiff.1 (by simpa using h))),
        fun h => hd.trans (hs.not fun h' => h (by simpa using hiff.2 h'))⟩
    · refine ⟨fun _ => ?_, fun h => absurd (by simpa using hst') h⟩
      show d.reports = _
      rw [hd, hs.not hst, List.nil_append]
  · have hsame : (Function.update w.ranks r st) 0 = w.ranks 0 := Function.update_of_ne (fun h => hr h.symm) ..
    have hd : d.reports = w.disk.reports := by
      rcases heffect.reports with ⟨hd, -⟩ | ⟨-, -, hd⟩
      · exact hd
      · rw [hd, reported_of_ne hr, List.append_nil]
    exact ⟨fun h => hd.trans (hs.done (hsame.symm.trans h)), fun h => hd.trans (hs.not fun h' => h (hsame.trans h'))⟩

end

end Provio
