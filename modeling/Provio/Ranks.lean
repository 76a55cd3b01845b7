import Provio.Independence
import Provio.InfoStr
import Provio.Persist
import Provio.Rewriting
/-!
# Ranks — the graph files of several MPI ranks

The ranks load one configuration and share a file system; each runs `provio_init`, `provio_helper_init`, its user
functions and `provio_helper_teardown`, in any interleaving of the single steps.  `provio_init` parses the legacy graph
as it is at that moment, `fopen` with `"w"` empties a file, and a serialised model takes the place of what the file holds.

Under the legacy flag every rank writes to the one legacy file, and the ranks are agents that rewrite it
(`Cluster.step_rewrites`).  Otherwise each has a file of its own (`target_injective`).  `ranks_kept` says when nothing
that was recorded, or that the legacy graph held, is lost.
-/
namespace Provio

/-- The graph files, the paths that were opened for writing, and what was appended to the statistics files. -/
structure Disk where
  graphs  : CStr → Option (List Statement)
  written : List CStr
  reports : List (CStr × StatReport)

/-- Graph files that no rank has written yet. -/
def Disk.holding (graphs : CStr → Option (List Statement)) : Disk := ⟨graphs, [], []⟩

/-- What a parser puts into a model; nothing where there is no file. -/
def Disk.read (d : Disk) (path : Option CStr) : List Statement := librdfKeeps ((path.bind d.graphs).getD [])

def Disk.put (d : Disk) (path : Option CStr) (g : Option (List Statement)) : Disk :=
  match path, g with
  | some path, some g => { d with graphs := Function.update d.graphs path (some g), written := path :: d.written }
  | _, _              => d

def Disk.append (d : Disk) (path : Option CStr) (stat : Option StatReport) : Disk :=
  { d with reports := d.reports ++ (path.bind fun path => stat.map fun report => (path, report)).toList }

def Disk.fopen (d : Disk) (p : Process) : Disk :=
  match p.helper with
  | none => d
  | some helper =>
    (d.put p.config.legacy_graph_path (helper.legacy_prov_file_handle.map fun _ => [])).put p.config.new_graph_path
      (helper.new_prov_file_handle.map fun _ => [])

/-- What `provio_helper_teardown` serialises. -/
def Disk.serialize (d : Disk) (config : ProvConfig) (out : SessionOutput) : Disk :=
  (d.put config.legacy_graph_path out.legacy_graph).put config.new_graph_path out.new_graph

def Disk.teardown (d : Disk) (config : ProvConfig) (out : SessionOutput) : Disk :=
  (d.serialize config out).append config.stat_file_path out.stat

/-- How far a rank is, with what `provio_init` read and the user functions still to come. -/
inductive RankState where
  | idle
  | ready (inp : SessionInput) (p : Process)
  | running (inp : SessionInput) (p : Process) (rest : List SessionOp)
  | done

def RankState.step (s : Session) (d : Disk) : RankState → Except Fault (Disk × RankState)
  | .idle =>
    let inp := { s.input with legacy_graph := d.read s.input.config.legacy_graph_path }
    .ok (d, .ready inp (provioInit .start inp))
  | .ready inp p => do
    let p ← provioHelperInit p inp
    pure (d.fopen p, .running inp p s.ops)
  | .running inp p (op :: rest) => do
    let p ← op.run p
    pure (d, .running inp p rest)
  | .running inp p [] => do
    let (p, out) ← provioHelperTeardown p inp
    pure (d.teardown p.config out, .done)
  | .done => .ok (d, .done)

/-- The ranks `0`, `1`, … of one program, with the same configuration. -/
structure Ranks (n : Nat) where
  config  : ProvConfig
  session : Fin n → Session
  same    : ∀ r, (session r).input.config = config
  rank    : ∀ r, (session r).input.MPI_RANK = (r : Nat)

structure Cluster (n : Nat) where
  disk  : Disk
  ranks : Fin n → RankState

def Cluster.start {n : Nat} (graphs : CStr → Option (List Statement)) : Cluster n := ⟨.holding graphs, fun _ => .idle⟩

def Cluster.step {n : Nat} (R : Ranks n) (w : Cluster n) (r : Fin n) : Except Fault (Cluster n) := do
  let (disk, st) ← (w.ranks r).step (R.session r) w.disk
  pure ⟨disk, Function.update w.ranks r st⟩

/-- A schedule names the rank that takes each step. -/
def runRanks {n : Nat} (R : Ranks n) : List (Fin n) → Cluster n → Except Fault (Cluster n)
  | [], w         => .ok w
  | r :: sched, w => w.step R r >>= runRanks R sched

/-! ## What is to be kept -/

/-- The statements a session finds in the store `prov`.  It is part of the session's input: with `enable_bdb` the ranks
share it, and what one puts there between two steps of another is not followed. -/
def Session.stored (s : Session) : List Statement := if s.input.config.enable_bdb then s.input.bdb_graph else []

/-- The statements a session records in a process with these flags: its graph when nothing was loaded. -/
def Session.recordedAfter (s : Session) (p : Process) : List Statement :=
  ({ s with input := { s.input with bdb_graph := [], legacy_graph := [] } } : Session).graph p

def Session.recorded (s : Session) : List Statement :=
  ({ s with input := { s.input with bdb_graph := [], legacy_graph := [] } } : Session).graph .start

/-- A statement is in a file that was written. -/
def Disk.Holds (d : Disk) (t : Statement) : Prop := ∃ path ∈ d.written, t ∈ d.read (some path)

instance (d : Disk) (t : Statement) : Decidable (d.Holds t) :=
  inferInstanceAs (Decidable (∃ path ∈ d.written, t ∈ d.read (some path)))

/-- **No lost update**: the files written have all that the ranks recorded and all that the legacy graph held. -/
def Cluster.Kept {n : Nat} (R : Ranks n) (graphs : CStr → Option (List Statement)) (w : Cluster n) : Prop :=
  (∀ r, ∀ t ∈ librdfKeeps (R.session r).recorded, w.disk.Holds t) ∧
    ∀ t ∈ (Disk.holding graphs).read R.config.legacy_graph_path, w.disk.Holds t

/-- Between `provio_init` and the end of `provio_helper_teardown`. -/
def RankState.Active : RankState → Prop
  | .ready _ _ | .running _ _ _ => True
  | .idle | .done               => False

instance (st : RankState) : Decidable st.Active :=
  match st with
  | .ready _ _ | .running _ _ _ => .isTrue trivial
  | .idle | .done               => .isFalse id

instance (st : RankState) : Decidable (st = .idle) :=
  match st with
  | .idle                               => .isTrue rfl
  | .ready _ _ | .running _ _ _ | .done => .isFalse nofun

/-- Every `provio_init` of a schedule finds no other rank active. -/
def Separate {n : Nat} (R : Ranks n) : List (Fin n) → Cluster n → Prop
  | [], _         => True
  | r :: sched, w => (w.ranks r = .idle → ∀ a, a ≠ r → ¬ (w.ranks a).Active) ∧
      ∀ w', w.step R r = .ok w' → Separate R sched w'

/-- A schedule is checked along its run. -/
instance decidableSeparate {n : Nat} (R : Ranks n) : ∀ (sched : List (Fin n)) (w : Cluster n),
    Decidable (Separate R sched w)
  | [], _         => .isTrue trivial
  | r :: sched, w =>
    match h : w.step R r with
    | .ok w₁ =>
      have := decidableSeparate R sched w₁
      decidable_of_iff ((w.ranks r = .idle → ∀ a, a ≠ r → ¬ (w.ranks a).Active) ∧ Separate R sched w₁)
        (by simp [Separate, h])
    | .error _ =>
      decidable_of_iff (w.ranks r = .idle → ∀ a, a ≠ r → ¬ (w.ranks a).Active) (by simp [Separate, h])

/-- **When a run keeps everything**: each rank has a graph file open, and under the legacy flag one comes after the other;
without it the legacy graph says nothing that no rank says. -/
def Ranks.Safe {n : Nat} (R : Ranks n) (graphs : CStr → Option (List Statement)) (sched : List (Fin n)) : Prop :=
  (∀ r, (R.session r).input.legacyOpened = true ∨ (R.session r).input.newOpened = true) ∧
    if R.config.enable_legacy_graph then Separate R sched (.start graphs)
    else ∀ t ∈ (Disk.holding graphs).read R.config.legacy_graph_path,
      ∃ r, t ∈ (R.session r).stored ∨ t ∈ (R.session r).recorded

/-- Each rank records a statement that no other rank has and the legacy graph does not. -/
def Ranks.Marked {n : Nat} (R : Ranks n) (graphs : CStr → Option (List Statement)) : Prop :=
  ∀ r, ∃ t ∈ librdfKeeps (R.session r).recorded, t ∉ (Disk.holding graphs).read R.config.legacy_graph_path ∧
    ∀ a, a ≠ r → t ∉ (R.session a).stored ∧ t ∉ (R.session a).recorded

/-! ## One session -/

/-- The session of a rank that finds `g` in the legacy graph. -/
def Session.reading (s : Session) (g : List Statement) : Session := { s with input := { s.input with legacy_graph := g } }

/-- Where the rank of a new graph is appended. -/
def SessionInput.newPath (inp : SessionInput) : Option CStr :=
  inp.config.new_graph_path.map fun path => path ++ cstr ".RANK-" ++ decimalInt inp.MPI_RANK

/-- The one file a session writes. -/
def SessionInput.target (inp : SessionInput) : Option CStr :=
  if inp.legacyOpened then inp.config.legacy_graph_path else if inp.newOpened then inp.newPath else none

def SessionInput.loaded (inp : SessionInput) : List Statement :=
  if inp.config.legacy_graph_path.isSome && inp.config.enable_legacy_graph then inp.legacy_graph else []

theorem Session.graph_eq_after (s : Session) (g : List Statement) (p : Process) :
    (s.reading g).graph p = s.stored ++ (s.reading g).input.loaded ++ s.recordedAfter p := by
  have hnone : loadedGraph { s.input with bdb_graph := [], legacy_graph := [] } = [] := by simp [loadedGraph]
  have hload : loadedGraph (s.reading g).input = s.stored ++ (s.reading g).input.loaded := rfl
  unfold Session.recordedAfter Session.graph
  rw [hnone, hload]
  simp only [List.nil_append, List.append_assoc]
  rfl

theorem Session.graph_eq (s : Session) (g : List Statement) :
    (s.reading g).graph .start = s.stored ++ (s.reading g).input.loaded ++ s.recorded := s.graph_eq_after g .start

theorem Disk.put_none (d : Disk) (path : Option CStr) : d.put path none = d := by
  cases path <;> rfl

section

variable {p q : Process} {inp : SessionInput}

theorem provioHelperInit_newPath (hr : provioHelperInit (provioInit p inp) inp = .ok q) (hq : q.helper ≠ none)
    (hnew : inp.newOpened = true) : q.config.new_graph_path = inp.newPath := by
  unfold provioHelperInit at hr
  obtain ⟨_, -, hr⟩ := bind_eq_ok.1 hr
  dsimp only at hr
  split at hr
  · cases hr
    exact absurd rfl hq
  · obtain ⟨rdf, hrdf, hr⟩ := bind_eq_ok.1 hr
    obtain ⟨-, rfl⟩ := isRdf_eq_ok.1 hrdf
    cases hr
    simp only [SessionInput.newOpened, isGraph, Bool.and_eq_true, Bool.not_eq_true'] at hnew
    obtain ⟨⟨⟨⟨hlevel, hformat⟩, hpath⟩, hflag⟩, -⟩ := hnew
    obtain ⟨path, hpath⟩ := Option.isSome_iff_exists.1 hpath
    simp [openGraphs, SessionInput.newPath, provioInit, hlevel, hformat, hpath, hflag, initFields, allocProcUuid]

theorem fopen_eq (hr : provioHelperInit (provioInit p inp) inp = .ok q) (d : Disk) :
    d.fopen q = if q.helper.isSome then d.put inp.target (some []) else d := by
  rcases provioHelperInit_ok hr with hq | ⟨ho, path, hq⟩
  · simp [Disk.fopen, hq]
  · have hlegacy : q.config.legacy_graph_path = inp.config.legacy_graph_path := by rw [hq]
    rw [ho.opened, Option.isSome_some, if_pos rfl]
    unfold Disk.fopen SessionInput.target
    rw [ho.opened]
    simp only [SessionInput.helper, hlegacy]
    cases hl : inp.legacyOpened with
    | true => simp [SessionInput.newOpened_of_legacy hl, Disk.put_none]
    | false =>
      cases hn : inp.newOpened with
      | true =>
        rw [provioHelperInit_newPath hr (by rw [ho.opened]; exact Option.some_ne_none _) hn]
        simp [Disk.put_none]
      | false => simp [Disk.put]

theorem serialize_eq {s : Session} {r : Process} {out : SessionOutput} {p' : Process}
    (hr : provioHelperInit (provioInit p s.input) s.input = .ok q) (hops : runSessionOps q s.ops = .ok p')
    (hdown : provioHelperTeardown p' s.input = .ok (r, out)) (d : Disk) :
    d.serialize r.config out = d.put s.input.target (some (librdfKeeps (s.graph p))) ∧
      r.config.stat_file_path = s.input.config.stat_file_path := by
  have hq : q.helper ≠ none := by
    intro hq
    have hnone := runSessionOps_no_helper s.ops hq hops
    unfold provioHelperTeardown addProgramRecord at hdown
    simp only [addProgramRecordRedland_eq, hnone] at hdown
    cases hdown
  obtain ⟨fields, counts, t, -, hteardown⟩ := Session.teardown_eq hr hq hops
  rw [hteardown] at hdown
  cases hdown
  rcases provioHelperInit_ok hr with h | ⟨ho, path, hpath⟩
  · exact absurd h hq
  have hconfig : p'.config = q.config := (runSessionOps_ran s.ops ho hops).config
  have hlegacy : q.config.legacy_graph_path = s.input.config.legacy_graph_path := by rw [hpath]
  have hstat : q.config.stat_file_path = s.input.config.stat_file_path := by rw [hpath]
  refine ⟨?_, hconfig ▸ hstat⟩
  unfold Disk.serialize SessionInput.target
  simp only [hconfig, hlegacy]
  cases hl : s.input.legacyOpened with
  | true => simp [SessionInput.newOpened_of_legacy hl, Disk.put_none]
  | false =>
    cases hn : s.input.newOpened with
    | true =>
      rw [provioHelperInit_newPath hr hq hn]
      simp [Disk.put_none]
    | false => simp [Disk.put]

end

/-! ## One rank -/

namespace RankState

def loads : RankState → Option (List Statement)
  | .ready inp _ | .running inp _ _ => some inp.legacy_graph
  | .idle | .done                   => none

/-- A rank is where its own calls have brought it. -/
def Good (s : Session) : RankState → Prop
  | .idle | .done           => True
  | .ready inp p            => ∃ g, inp = (s.reading g).input ∧ p = provioInit .start inp
  | .running inp p rest     => ∃ g p₁ ops, inp = (s.reading g).input ∧
      provioHelperInit (provioInit .start inp) inp = .ok p₁ ∧ runSessionOps p₁ ops = .ok p ∧ ops ++ rest = s.ops

/-- What one step does to the files and to what the rank has loaded. -/
inductive Effect (s : Session) (d : Disk) (st : RankState) : Disk → RankState → Prop where
  | init {st' : RankState} (hst : st = .idle) (h : st'.loads = some (d.read s.input.config.legacy_graph_path)) :
    Effect s d st d st'
  | fopen {st' : RankState} {g : List Statement} (h : st.loads = some g) (h' : st'.loads = some g) :
    Effect s d st (d.put s.input.target (some [])) st'
  | call {st' : RankState} {g : List Statement} (h : st.loads = some g) (h' : st'.loads = some g) : Effect s d st d st'
  | teardown {g : List Statement} {q : Process} {out : SessionOutput} (h : st.loads = some g)
      (hrun : (s.reading g).run .start = .ok (q, out)) :
    Effect s d st ((d.put s.input.target (some (librdfKeeps ((s.reading g).graph .start)))).append
      s.input.config.stat_file_path out.stat) .done
  | still (hst : st = .done) : Effect s d st d .done

end RankState

theorem runSessionOps_append : ∀ (ops more : List SessionOp) {p q r : Process}, runSessionOps p ops = .ok q →
    runSessionOps q more = .ok r → runSessionOps p (ops ++ more) = .ok r
  | [], more, p, q, r, hq, hr => by
    cases hq
    exact hr
  | op :: ops, more, p, q, r, hq, hr => by
    obtain ⟨p', hop, hq⟩ := bind_eq_ok.1 hq
    rw [List.cons_append, runSessionOps]
    exact bind_eq_ok.2 ⟨p', hop, runSessionOps_append ops more hq hr⟩

/-- **A step of a rank keeps it good and has one of the effects.** -/
theorem RankState.step_cases {s : Session} {d d' : Disk} {st st' : RankState} (hg : st.Good s)
    (h : st.step s d = .ok (d', st')) : st'.Good s ∧ Effect s d st d' st' := by
  cases st with
  | idle =>
    cases h
    exact ⟨⟨_, rfl, rfl⟩, .init rfl rfl⟩
  | ready inp p =>
    obtain ⟨g, rfl, rfl⟩ := hg
    obtain ⟨q, hq, h⟩ := bind_eq_ok.1 h
    cases h
    refine ⟨⟨g, q, [], rfl, hq, rfl, rfl⟩, ?_⟩
    rw [fopen_eq hq]
    cases q.helper with
    | none => exact .call rfl rfl
    | some helper => exact .fopen rfl rfl
  | running inp p rest =>
    obtain ⟨g, p₁, ops, rfl, hinit, hops, hrest⟩ := hg
    cases rest with
    | nil =>
      obtain ⟨⟨q, out⟩, hdown, h⟩ := bind_eq_ok.1 h
      cases h
      rw [List.append_nil] at hrest
      subst hrest
      refine ⟨trivial, ?_⟩
      obtain ⟨hserialize, hstat⟩ := serialize_eq (s := s.reading g) hinit hops hdown d
      rw [Disk.teardown, hserialize, hstat]
      exact .teardown rfl (bind_eq_ok.2 ⟨p₁, hinit, bind_eq_ok.2 ⟨p, hops, bind_eq_ok.2 ⟨_, hdown, rfl⟩⟩⟩)
    | cons op rest =>
      obtain ⟨q, hop, h⟩ := bind_eq_ok.1 h
      cases h
      have hone : runSessionOps p [op] = .ok q := bind_eq_ok.2 ⟨q, hop, rfl⟩
      refine ⟨⟨g, p₁, ops ++ [op], rfl, hinit, runSessionOps_append ops [op] hops hone, ?_⟩, .call rfl rfl⟩
      rw [List.append_assoc]
      exact hrest
  | done =>
    cases h
    exact ⟨trivial, .still rfl⟩

/-! ## All ranks -/

theorem Disk.mem_written_put {d : Disk} {target : Option CStr} {g : List Statement} {path : CStr} :
    path ∈ (d.put target (some g)).written ↔ target = some path ∨ path ∈ d.written := by
  cases target with
  | none => simp [Disk.put]
  | some P => simp [Disk.put, eq_comm]

theorem Disk.read_put (d : Disk) (path : CStr) (g : List Statement) :
    (d.put (some path) (some g)).read (some path) = librdfKeeps g := by
  simp [Disk.put, Disk.read]

theorem Disk.append_none (d : Disk) : d.append none none = d := by
  simp [Disk.append]

theorem Disk.read_append (d : Disk) (path : Option CStr) (stat : Option StatReport) (P : Option CStr) :
    (d.append path stat).read P = d.read P := rfl

theorem Disk.read_keeps (d : Disk) (path : Option CStr) : librdfKeeps (d.read path) = d.read path := librdfKeeps_idem _

theorem Disk.read_put_of_ne {d : Disk} {target : Option CStr} {g : Option (List Statement)} {path : CStr}
    (h : target ≠ some path) : (d.put target g).read (some path) = d.read (some path) := by
  rcases target with _ | P
  · rfl
  · rcases g with _ | g
    · rfl
    · have hne : path ≠ P := fun he => h (by rw [he])
      simp [Disk.put, Disk.read, Function.update_of_ne hne]

namespace RankState.Effect

variable {s : Session} {d d' : Disk} {st st' : RankState}

theorem files (h : Effect s d st d' st') :
    d' = d ∨ ∃ g path stat, d' = (d.put s.input.target (some g)).append path stat := by
  cases h with
  | init _ _ | call _ _ | still _ => exact .inl rfl
  | fopen _ _ => exact .inr ⟨_, none, none, (Disk.append_none _).symm⟩
  | teardown _ _ => exact .inr ⟨_, _, _, rfl⟩

theorem written (h : Effect s d st d' st') {path : CStr} (hp : path ∈ d'.written) :
    path ∈ d.written ∨ s.input.target = some path := by
  rcases h.files with rfl | ⟨g, _, _, rfl⟩
  · exact .inl hp
  · exact (Disk.mem_written_put.1 hp).symm

theorem written_of (h : Effect s d st d' st') {path : CStr} (hp : path ∈ d.written) : path ∈ d'.written := by
  rcases h.files with rfl | ⟨g, _, _, rfl⟩
  · exact hp
  · exact Disk.mem_written_put.2 (.inr hp)

theorem read_of_ne (h : Effect s d st d' st') {path : CStr} (hne : s.input.target ≠ some path) :
    d'.read (some path) = d.read (some path) := by
  rcases h.files with rfl | ⟨g, _, _, rfl⟩
  · rfl
  · exact Disk.read_put_of_ne hne

theorem done (h : Effect s d st d' st') (hst : st' = .done) :
    (st = .done ∧ d' = d) ∨ ∃ g q out, (s.reading g).run .start = .ok (q, out) ∧
      d' = (d.put s.input.target (some (librdfKeeps ((s.reading g).graph .start)))).append
        s.input.config.stat_file_path out.stat := by
  cases h with
  | init _ hl | fopen _ hl | call _ hl =>
    rw [hst] at hl
    cases hl
  | teardown _ hrun => exact .inr ⟨_, _, _, hrun, rfl⟩
  | still hdone => exact .inl ⟨hdone, rfl⟩

end RankState.Effect

section

variable {n : Nat} {R : Ranks n} {graphs : CStr → Option (List Statement)} {sched : List (Fin n)} {w w' : Cluster n}
  {r : Fin n}

def Cluster.Good (R : Ranks n) (w : Cluster n) : Prop := ∀ r, (w.ranks r).Good (R.session r)

theorem Cluster.step_cases (hg : w.Good R) (h : w.step R r = .ok w') : w'.Good R ∧ ∃ d st,
    RankState.Effect (R.session r) w.disk (w.ranks r) d st ∧ w' = ⟨d, Function.update w.ranks r st⟩ := by
  obtain ⟨⟨d, st⟩, hstep, h⟩ := bind_eq_ok.1 h
  cases h
  obtain ⟨hgood, heffect⟩ := RankState.step_cases (hg r) hstep
  exact ⟨(Function.forall_update_iff w.ranks _).2 ⟨hgood, fun a _ => hg a⟩, d, st, heffect, rfl⟩

theorem good_start : (Cluster.start graphs).Good R := fun _ => trivial

/-- **What every step keeps holds at the end of a schedule.** -/
theorem runRanks_keeps {P : Cluster n → Prop} (hstep : ∀ {w w' : Cluster n} {r : Fin n}, w.Good R → P w →
    w.step R r = .ok w' → P w') : ∀ (sched : List (Fin n)) {w w' : Cluster n}, w.Good R → P w →
    runRanks R sched w = .ok w' → w'.Good R ∧ P w'
  | [], w, w', hg, hp, hr => by
    cases hr
    exact ⟨hg, hp⟩
  | r :: sched, w, w', hg, hp, hr => by
    obtain ⟨w₁, h₁, hr⟩ := bind_eq_ok.1 hr
    exact runRanks_keeps hstep sched (Cluster.step_cases hg h₁).1 (hstep hg hp h₁) hr

/-- The files that were written are those of the ranks; a rank that is done has written its own. -/
structure Filed (R : Ranks n) (w : Cluster n) : Prop where
  whose : ∀ path ∈ w.disk.written, ∃ r, (R.session r).input.target = some path
  wrote : ∀ r, w.ranks r = .done → ∀ path, (R.session r).input.target = some path → path ∈ w.disk.written

theorem filed_start : Filed R (.start graphs) := by
  refine ⟨fun path h => ?_, fun r h => ?_⟩
  · cases h
  · cases h

theorem Filed.step (hg : w.Good R) (hf : Filed R w) (h : w.step R r = .ok w') : Filed R w' := by
  obtain ⟨-, d, st, heffect, rfl⟩ := Cluster.step_cases hg h
  refine ⟨fun path hp => ?_, fun a ha path hpath => ?_⟩
  · rcases heffect.written hp with hp | hp
    · exact hf.whose path hp
    · exact ⟨r, hp⟩
  · rcases Rewriting.update_cases ha with ⟨rfl, hst⟩ | ⟨_, ha⟩
    · rcases heffect.done hst with ⟨hdone, rfl⟩ | ⟨g, _, _, -, rfl⟩
      · exact hf.wrote a hdone path hpath
      · exact Disk.mem_written_put.2 (.inl hpath)
    · exact heffect.written_of (hf.wrote a ha path hpath)

/-! ## A file for each rank -/

theorem decimalInt_inj {m k : Nat} (h : decimalInt m = decimalInt k) : m = k := by
  have hval := congrArg digitsVal (show decimal m = decimal k from h)
  rwa [digitsVal_decimal, digitsVal_decimal] at hval

theorem SessionInput.legacyOpened_off {inp : SessionInput} (h : inp.config.enable_legacy_graph = false) :
    inp.legacyOpened = false := by
  simp [SessionInput.legacyOpened, h]

theorem SessionInput.newOpened_on {inp : SessionInput} (h : inp.config.enable_legacy_graph = true) :
    inp.newOpened = false := by
  simp [SessionInput.newOpened, h]

theorem Ranks.flag {b : Bool} (h : R.config.enable_legacy_graph = b) (r : Fin n) :
    (R.session r).input.config.enable_legacy_graph = b := by
  rw [R.same r]
  exact h

/-- **Without the legacy flag no two ranks write to one file.** -/
theorem target_injective (hflag : R.config.enable_legacy_graph = false) {a b : Fin n} {path : CStr}
    (ha : (R.session a).input.target = some path) (hb : (R.session b).input.target = some path) : a = b := by
  have hkey : ∀ r, (R.session r).input.target = some path →
      ∃ name, R.config.new_graph_path = some name ∧ name ++ cstr ".RANK-" ++ decimalInt (r : Nat) = path := by
    intro r hr
    simp only [SessionInput.target, SessionInput.legacyOpened_off (R.flag hflag r), Bool.false_eq_true, if_false] at hr
    split at hr
    · obtain ⟨name, hname, hpath⟩ := Option.map_eq_some_iff.1 hr
      rw [R.same r] at hname
      rw [R.rank r] at hpath
      exact ⟨name, hname, hpath⟩
    · cases hr
  obtain ⟨name, hname, rfl⟩ := hkey a ha
  obtain ⟨name', hname', hpath⟩ := hkey b hb
  obtain rfl := Option.some.inj (hname.symm.trans hname')
  exact Fin.ext (decimalInt_inj (List.append_cancel_left hpath.symm))

def Owned (R : Ranks n) (w : Cluster n) : Prop := ∀ r, w.ranks r = .done →
  ∀ path, (R.session r).input.target = some path →
    ∃ g, w.disk.read (some path) = librdfKeeps (((R.session r).reading g).graph .start)

theorem Owned.step (hflag : R.config.enable_legacy_graph = false) (hg : w.Good R) (ho : Owned R w)
    (h : w.step R r = .ok w') : Owned R w' := by
  obtain ⟨-, d, st, heffect, rfl⟩ := Cluster.step_cases hg h
  intro a ha path hpath
  rcases Rewriting.update_cases ha with ⟨rfl, hst⟩ | ⟨hne, ha⟩
  · rcases heffect.done hst with ⟨hdone, rfl⟩ | ⟨g, _, _, -, rfl⟩
    · exact ho a hdone path hpath
    · exact ⟨g, by rw [Disk.read_append, hpath, Disk.read_put, librdfKeeps_idem]⟩
  · -- the others write elsewhere
    obtain ⟨g, hread⟩ := ho a ha path hpath
    exact ⟨g, (heffect.read_of_ne fun hr => hne (target_injective hflag hpath hr)).trans hread⟩

/-- **What the files hold after a run without the legacy flag**: what the ranks with a file found in the store and
recorded. -/
theorem holds_iff_new (hflag : R.config.enable_legacy_graph = false) (hr : runRanks R sched (.start graphs) = .ok w)
    (hdone : ∀ r, w.ranks r = .done) (t : Statement) :
    w.disk.Holds t ↔ ∃ r, (R.session r).input.newOpened = true ∧
      (t ∈ (R.session r).stored ∨ t ∈ (R.session r).recorded) ∧ t.complete := by
  obtain ⟨-, hfiled⟩ := runRanks_keeps Filed.step sched good_start filed_start hr
  have hstart : Owned R (Cluster.start graphs) := fun r h => by cases h
  obtain ⟨-, howned⟩ := runRanks_keeps (Owned.step hflag) sched good_start hstart hr
  have hgraph : ∀ r g, t ∈ librdfKeeps (((R.session r).reading g).graph .start) ↔
      (t ∈ (R.session r).stored ∨ t ∈ (R.session r).recorded) ∧ t.complete := by
    intro r g
    have hload : ((R.session r).reading g).input.loaded = [] := by
      simp [Session.reading, SessionInput.loaded, R.flag hflag r]
    rw [mem_librdfKeeps, Session.graph_eq, hload, List.append_nil, List.mem_append]
  have htarget : ∀ r, (∃ path, (R.session r).input.target = some path) ↔ (R.session r).input.newOpened = true := by
    intro r
    have hpath : (R.session r).input.newOpened = true → (R.session r).input.newPath.isSome = true := by
      simp only [SessionInput.newOpened, SessionInput.newPath, Bool.and_eq_true, Option.isSome_map]
      exact fun h => h.1.1.2
    simp only [SessionInput.target, SessionInput.legacyOpened_off (R.flag hflag r), Bool.false_eq_true, if_false]
    cases hn : (R.session r).input.newOpened with
    | false => simp
    | true => simpa [Option.isSome_iff_exists] using hpath hn
  constructor
  · rintro ⟨path, hwritten, hread⟩
    obtain ⟨r, hpath⟩ := hfiled.whose path hwritten
    obtain ⟨g, hg⟩ := howned r (hdone r) path hpath
    rw [hg] at hread
    exact ⟨r, (htarget r).1 ⟨path, hpath⟩, (hgraph r g).1 hread⟩
  · rintro ⟨r, hopen, ht⟩
    obtain ⟨path, hpath⟩ := (htarget r).2 hopen
    obtain ⟨g, hg⟩ := howned r (hdone r) path hpath
    refine ⟨path, hfiled.wrote r (hdone r) path hpath, ?_⟩
    rw [hg]
    exact (hgraph r g).2 ht

/-! ## One file for all ranks -/

/-- A rank as an agent: it holds what it has loaded. -/
def RankState.agent : RankState → Rewriting.Agent Statement
  | .idle                           => .idle
  | .ready inp _ | .running inp _ _ => .holds {t | t ∈ librdfKeeps inp.legacy_graph}
  | .done                           => .done

/-- The legacy file, and the ranks as agents that rewrite it; a rank with no file is one that never begins. -/
def Cluster.rewriting (R : Ranks n) (w : Cluster n) : Rewriting.State (Fin n) Statement where
  file     := {t | t ∈ w.disk.read R.config.legacy_graph_path}
  agents r := if (R.session r).input.legacyOpened then (w.ranks r).agent else .idle

def Ranks.own (R : Ranks n) (r : Fin n) : Set Statement :=
  {t | (t ∈ (R.session r).stored ∨ t ∈ (R.session r).recorded) ∧ t.complete}

theorem recorded_own {t : Statement} (ht : t ∈ librdfKeeps (R.session r).recorded) : t ∈ R.own r :=
  ⟨.inr (mem_librdfKeeps.1 ht).1, (mem_librdfKeeps.1 ht).2⟩

theorem RankState.agent_loads {st : RankState} {g : List Statement} (h : st.loads = some g) :
    st.agent = .holds {t | t ∈ librdfKeeps g} := by
  cases st with
  | idle | done => cases h
  | ready inp p | running inp p rest =>
    cases h
    rfl

theorem agents_update {d : Disk} {st : RankState} (hopen : (R.session r).input.legacyOpened = true) :
    (⟨d, Function.update w.ranks r st⟩ : Cluster n).rewriting R =
      (w.rewriting R).put {t | t ∈ d.read R.config.legacy_graph_path} r st.agent := by
  unfold Cluster.rewriting Rewriting.State.put
  congr 1
  funext a
  by_cases ha : a = r
  · subst ha
    simp [hopen]
  · simp [Function.update_of_ne ha]

theorem target_legacy (hopen : (R.session r).input.legacyOpened = true) :
    (R.session r).input.target = R.config.legacy_graph_path ∧ R.config.legacy_graph_path.isSome = true ∧
      R.config.enable_legacy_graph = true := by
  have h := hopen
  simp only [SessionInput.legacyOpened, R.same r, Bool.and_eq_true] at h
  refine ⟨?_, h.1.1.2, h.1.2⟩
  rw [SessionInput.target, if_pos hopen, R.same r]

/-- **A step of a rank with a file is a step of an agent that rewrites the legacy file**. -/
theorem Cluster.step_rewrites (hopen : (R.session r).input.legacyOpened = true) (hg : w.Good R)
    (hactive : w.ranks r ≠ .done) (h : w.step R r = .ok w') :
    Rewriting.Step R.own r (w.rewriting R) (w'.rewriting R) := by
  obtain ⟨-, d, st, heffect, rfl⟩ := Cluster.step_cases hg h
  obtain ⟨htarget, hsome, hflag⟩ := target_legacy hopen
  obtain ⟨path, hpath⟩ := Option.isSome_iff_exists.1 hsome
  have hagent : (w.rewriting R).agents r = (w.ranks r).agent := by simp [Cluster.rewriting, hopen]
  rw [agents_update hopen]
  -- an agent that goes on holding what it holds
  have hsame : ∀ {g : List Statement} (F : Set Statement), (w.ranks r).loads = some g → st.loads = some g →
      (w.rewriting R).put F r st.agent = ⟨F, (w.rewriting R).agents⟩ := by
    intro g F hl hl'
    rw [Rewriting.State.put, RankState.agent_loads hl', ← RankState.agent_loads hl, ← hagent, Function.update_eq_self]
  cases heffect with
  | init hst hl =>
    rw [R.same r] at hl
    rw [RankState.agent_loads hl, Disk.read, librdfKeeps_idem]
    exact .read (by rw [hagent, hst]; rfl)
  | fopen hl hl' =>
    have hempty : {t | t ∈ (w.disk.put (R.session r).input.target (some [])).read R.config.legacy_graph_path} = ∅ := by
      rw [htarget, hpath, Disk.read_put]
      simp
    rw [hsame _ hl hl', hempty]
    exact .empty (hagent.trans (RankState.agent_loads hl))
  | call hl hl' =>
    rw [hsame _ hl hl']
    exact .work (hagent.trans (RankState.agent_loads hl))
  | @teardown g _ out hl =>
    have hall : {t | t ∈ ((w.disk.put (R.session r).input.target
        (some (librdfKeeps (((R.session r).reading g).graph .start)))).append (R.session r).input.config.stat_file_path
          out.stat).read R.config.legacy_graph_path} = {t | t ∈ librdfKeeps g} ∪ R.own r := by
      have hload : ((R.session r).reading g).input.loaded = g := by
        simp [Session.reading, SessionInput.loaded, R.same r, hsome, hflag]
      rw [Disk.read_append, htarget, hpath, Disk.read_put, librdfKeeps_idem, Session.graph_eq, hload]
      ext t
      simp only [Set.mem_ofPred_eq, Set.mem_union, mem_librdfKeeps, List.mem_append, Ranks.own]
      tauto
    rw [hall]
    exact .write (hagent.trans (RankState.agent_loads hl))
  | still hst => exact absurd hst hactive

/-- **Any other step leaves the legacy file as it is.** -/
theorem Cluster.step_still (hflag : R.config.enable_legacy_graph = true) (hg : w.Good R)
    (h : (R.session r).input.legacyOpened = false ∨ w.ranks r = .done) (hr : w.step R r = .ok w') :
    w'.rewriting R = w.rewriting R := by
  rcases h with hclosed | hdone
  · obtain ⟨-, d, st, heffect, rfl⟩ := Cluster.step_cases hg hr
    have htarget : (R.session r).input.target = none := by
      simp [SessionInput.target, hclosed, SessionInput.newOpened_on (R.flag hflag r)]
    have hd : d.read R.config.legacy_graph_path = w.disk.read R.config.legacy_graph_path := by
      rcases heffect.files with rfl | ⟨g, _, _, rfl⟩
      · rfl
      · rw [htarget]
        rfl
    unfold Cluster.rewriting
    rw [hd]
    congr 1
    funext a
    by_cases ha : a = r
    · subst ha
      simp [hclosed]
    · simp [Function.update_of_ne ha]
  · unfold Cluster.step at hr
    rw [hdone] at hr
    cases hr
    rw [← hdone, Function.update_eq_self]

theorem rewriting_start : (Cluster.start graphs).rewriting R =
    Rewriting.State.start {t | t ∈ (Disk.holding graphs).read R.config.legacy_graph_path} := by
  unfold Cluster.rewriting Rewriting.State.start Cluster.start
  congr 1
  funext r
  simp [RankState.agent]

theorem Cluster.step_any (hflag : R.config.enable_legacy_graph = true) (hg : w.Good R) (h : w.step R r = .ok w') :
    Relation.ReflTransGen (Rewriting.AnyStep R.own) (w.rewriting R) (w'.rewriting R) := by
  by_cases hstill : (R.session r).input.legacyOpened = false ∨ w.ranks r = .done
  · rw [Cluster.step_still hflag hg hstill h]
  · rw [not_or, Bool.not_eq_false] at hstill
    exact .single ⟨r, Cluster.step_rewrites hstill.1 hg hstill.2 h⟩

theorem runRanks_any (hflag : R.config.enable_legacy_graph = true) : ∀ (sched : List (Fin n)) {w w' : Cluster n},
    w.Good R → runRanks R sched w = .ok w' →
    Relation.ReflTransGen (Rewriting.AnyStep R.own) (w.rewriting R) (w'.rewriting R)
  | [], w, w', _, hr => by
    cases hr
    exact .refl
  | r :: sched, w, w', hg, hr => by
    obtain ⟨w₁, h₁, hr⟩ := bind_eq_ok.1 hr
    exact (Cluster.step_any hflag hg h₁).trans (runRanks_any hflag sched (Cluster.step_cases hg h₁).1 hr)

theorem RankState.agent_holds_iff {st : RankState} : (∃ L, st.agent = .holds L) ↔ st.Active := by
  cases st <;> simp [RankState.agent, RankState.Active]

theorem runRanks_serial (hflag : R.config.enable_legacy_graph = true) : ∀ (sched : List (Fin n)) {w w' : Cluster n},
    w.Good R → Separate R sched w → runRanks R sched w = .ok w' →
    Relation.ReflTransGen (Rewriting.SerialStep R.own) (w.rewriting R) (w'.rewriting R)
  | [], w, w', _, _, hr => by
    cases hr
    exact .refl
  | r :: sched, w, w', hg, hsep, hr => by
    obtain ⟨w₁, h₁, hr⟩ := bind_eq_ok.1 hr
    have hrest := runRanks_serial hflag sched (Cluster.step_cases hg h₁).1 (hsep.2 w₁ h₁) hr
    by_cases hstill : (R.session r).input.legacyOpened = false ∨ w.ranks r = .done
    · rw [Cluster.step_still hflag hg hstill h₁] at hrest
      exact hrest
    · rw [not_or, Bool.not_eq_false] at hstill
      refine .head ⟨r, Cluster.step_rewrites hstill.1 hg hstill.2 h₁, fun hidle a ha L hL => ?_⟩ hrest
      have hr' : w.ranks r = .idle := by
        simp only [Cluster.rewriting, hstill.1, if_true] at hidle
        cases hst : w.ranks r with
        | idle => rfl
        | _ => rw [hst] at hidle; cases hidle
      refine hsep.1 hr' a ha (RankState.agent_holds_iff.1 ⟨L, ?_⟩)
      dsimp only [Cluster.rewriting] at hL
      split at hL
      · exact hL
      · cases hL

theorem holds_iff_legacy (hflag : R.config.enable_legacy_graph = true) (hf : Filed R w) (hdone : ∀ r, w.ranks r = .done)
    (t : Statement) : w.disk.Holds t ↔ (∃ r, (R.session r).input.legacyOpened = true) ∧ t ∈ (w.rewriting R).file := by
  constructor
  · rintro ⟨path, hwritten, hread⟩
    obtain ⟨r, htarget⟩ := hf.whose path hwritten
    have hopen : (R.session r).input.legacyOpened = true := by
      by_contra hclosed
      simp [SessionInput.target, hclosed, SessionInput.newOpened_on (R.flag hflag r)] at htarget
    refine ⟨⟨r, hopen⟩, ?_⟩
    rw [(target_legacy hopen).1] at htarget
    rw [Cluster.rewriting, htarget]
    exact hread
  · rintro ⟨⟨r, hopen⟩, hread⟩
    obtain ⟨htarget, hsome, -⟩ := target_legacy hopen
    obtain ⟨path, hpath⟩ := Option.isSome_iff_exists.1 hsome
    refine ⟨path, hf.wrote r (hdone r) path (htarget.trans hpath), ?_⟩
    rw [Cluster.rewriting, hpath] at hread
    exact hread

/-- **The ranks of a run in which every mark reaches the legacy file came one after the other.** -/
theorem separate_of_marks (hflag : R.config.enable_legacy_graph = true)
    (hopen : ∀ r, (R.session r).input.legacyOpened = true) {F : Set Statement} {mark : Fin n → Statement}
    (hm : Rewriting.Marks R.own F mark) : ∀ (sched : List (Fin n)) {w w' : Cluster n}, w.Good R →
    Rewriting.Unsaved mark (w.rewriting R) → runRanks R sched w = .ok w' →
    (∀ r, mark r ∈ (w'.rewriting R).file) → Separate R sched w
  | [], _, _, _, _, _, _ => trivial
  | r :: sched, w, w', hg, hu, hr, hmarks => by
    obtain ⟨w₁, h₁, hr⟩ := bind_eq_ok.1 hr
    have hg₁ := (Cluster.step_cases hg h₁).1
    constructor
    · intro hidle a _ hactive
      have hstep := Cluster.step_rewrites (hopen r) hg (by rw [hidle]; nofun) h₁
      obtain ⟨L, hL⟩ := RankState.agent_holds_iff.2 hactive
      have ha : (w.rewriting R).agents a = .holds L := by simp [Cluster.rewriting, hopen, hL]
      have hb : (w.rewriting R).agents r = .idle := by simp [Cluster.rewriting, hidle, RankState.agent]
      exact Rewriting.overlap_loses hm hu ha hb hstep (runRanks_any hflag sched hg₁ hr) ⟨hmarks a, hmarks r⟩
    · intro w₂ h₂
      obtain rfl := Except.ok.inj (h₁.symm.trans h₂)
      exact separate_of_marks hflag hopen hm sched hg₁ (hu.run hm (Cluster.step_any hflag hg h₁)) hr hmarks

/-! ## No lost update -/

theorem kept_of_separate {R : Ranks (n + 1)} {sched : List (Fin (n + 1))} {w : Cluster (n + 1)}
    (hflag : R.config.enable_legacy_graph = true) (hr : runRanks R sched (.start graphs) = .ok w)
    (hdone : ∀ r, w.ranks r = .done) (hopen : ∀ r, (R.session r).input.legacyOpened = true)
    (hsep : Separate R sched (.start graphs)) : w.Kept R graphs := by
  obtain ⟨-, hf⟩ := runRanks_keeps Filed.step sched good_start filed_start hr
  have hserial := runRanks_serial hflag sched good_start hsep hr
  rw [rewriting_start] at hserial
  obtain ⟨hfirst, hown⟩ := Rewriting.serial_keeps hserial fun r => by
    simp [Cluster.rewriting, hopen r, hdone r, RankState.agent]
  refine ⟨fun r t ht => ?_, fun t ht => ?_⟩
  · exact (holds_iff_legacy hflag hf hdone t).2 ⟨⟨0, hopen 0⟩, hown r (recorded_own ht)⟩
  · exact (holds_iff_legacy hflag hf hdone t).2 ⟨⟨0, hopen 0⟩, hfirst ht⟩

theorem separate_of_kept {R : Ranks n} (hflag : R.config.enable_legacy_graph = true) (hm : R.Marked graphs)
    (hr : runRanks R sched (.start graphs) = .ok w) (hdone : ∀ r, w.ranks r = .done) (hk : w.Kept R graphs) :
    (∀ r, (R.session r).input.legacyOpened = true) ∧ Separate R sched (.start graphs) := by
  choose mark hrecorded hfresh hothers using hm
  have hmarks : Rewriting.Marks R.own {t | t ∈ (Disk.holding graphs).read R.config.legacy_graph_path} mark := by
    refine ⟨fun r => recorded_own (hrecorded r), fun r a ha => ?_, hfresh⟩
    by_contra hne
    rcases ha.1 with ha | ha
    · exact (hothers r a hne).1 ha
    · exact (hothers r a hne).2 ha
  have hunsaved : Rewriting.Unsaved mark ((Cluster.start graphs).rewriting R) := by
    rw [rewriting_start]
    exact Rewriting.unsaved_start hmarks
  obtain ⟨-, hf⟩ := runRanks_keeps Filed.step sched good_start filed_start hr
  have hfile : ∀ r, mark r ∈ (w.rewriting R).file := fun r =>
    ((holds_iff_legacy hflag hf hdone (mark r)).1 (hk.1 r _ (hrecorded r))).2
  have hopen : ∀ r, (R.session r).input.legacyOpened = true := by
    intro r
    by_contra hclosed
    have hidle : (w.rewriting R).agents r ≠ .done := by simp [Cluster.rewriting, hclosed]
    exact ((hunsaved.run hmarks (runRanks_any hflag sched good_start hr)) r hidle).1 (hfile r)
  exact ⟨hopen, separate_of_marks hflag hopen hmarks sched good_start hunsaved hr hfile⟩

/-- **When no update is lost between ranks**, in any interleaving of their steps: if the run is safe, and, where each
rank has a mark, only then. -/
theorem ranks_kept (R : Ranks (n + 1)) (graphs : CStr → Option (List Statement)) (sched : List (Fin (n + 1)))
    {w : Cluster (n + 1)} (hr : runRanks R sched (.start graphs) = .ok w) (hdone : ∀ r, w.ranks r = .done) :
    (R.Safe graphs sched → w.Kept R graphs) ∧ (R.Marked graphs → w.Kept R graphs → R.Safe graphs sched) := by
  unfold Ranks.Safe
  cases hflag : R.config.enable_legacy_graph with
  | true =>
    have hopens : ∀ r, ((R.session r).input.legacyOpened = true ∨ (R.session r).input.newOpened = true) ↔
        (R.session r).input.legacyOpened = true := by
      intro r
      simp [SessionInput.newOpened_on (R.flag hflag r)]
    simp only [hopens, if_true]
    exact ⟨fun hs => kept_of_separate hflag hr hdone hs.1 hs.2, fun hm hk => separate_of_kept hflag hm hr hdone hk⟩
  | false =>
    have hopens : ∀ r, ((R.session r).input.legacyOpened = true ∨ (R.session r).input.newOpened = true) ↔
        (R.session r).input.newOpened = true := by
      intro r
      simp [SessionInput.legacyOpened_off (R.flag hflag r)]
    simp only [hopens, Bool.false_eq_true, if_false]
    have hholds := holds_iff_new hflag hr hdone
    constructor
    · rintro ⟨hopen, hlegacy⟩
      refine ⟨fun r t ht => (hholds t).2 ⟨r, hopen r, recorded_own ht⟩, fun t ht => ?_⟩
      obtain ⟨r, hmem⟩ := hlegacy t ht
      exact (hholds t).2 ⟨r, hopen r, hmem, (mem_librdfKeeps.1 ht).2⟩
    · rintro hm ⟨hrecorded, hlegacy⟩
      refine ⟨fun r => ?_, fun t ht => ?_⟩
      · obtain ⟨t, ht, -, hothers⟩ := hm r
        obtain ⟨a, hopen, hmem, -⟩ := (hholds t).1 (hrecorded r t ht)
        by_cases har : a = r
        · rw [← har]
          exact hopen
        · rcases hmem with hmem | hmem
          · exact absurd hmem (hothers a har).1
          · exact absurd hmem (hothers a har).2
      · obtain ⟨r, -, hmem, -⟩ := (hholds t).1 (hlegacy t ht)
        exact ⟨r, hmem⟩

end

def twoRanks (config : ProvConfig) : Ranks 2 where
  config    := config
  session r := ⟨{ rankZeroInput with config := config, MPI_RANK := (r : Nat), legacy_opens := true },
    [.addProvRecord (cstr "80") 3]⟩
  same _    := rfl
  rank _    := rfl

def inTurns : List (Fin 2) := [0, 1, 0, 1, 0, 1, 0, 1]

def legacyConfig : ProvConfig :=
  { fullConfig with legacy_graph_path := some (cstr "old.ttl"), enable_legacy_graph := true }

/-- Two ranks that take turns, each with a file of its own; and under the legacy flag, one after the other. -/
theorem ranks_kept_two : (twoRanks fullConfig).Marked (fun _ => none) ∧
    (∃ w, runRanks (twoRanks fullConfig) inTurns (.start fun _ => none) = .ok w ∧
      w.Kept (twoRanks fullConfig) fun _ => none) ∧
    ∃ w, runRanks (twoRanks legacyConfig) [0, 0, 0, 0, 1, 1, 1, 1] (.start fun _ => none) = .ok w ∧
      w.Kept (twoRanks legacyConfig) fun _ => none := by
  have hmarked : (twoRanks fullConfig).Marked (fun _ => none) := by
    unfold Ranks.Marked
    decide
  have hnew : ∃ w, runRanks (twoRanks fullConfig) inTurns (.start fun _ => none) = .ok w ∧ ∀ r, w.ranks r = .done := by
    exact ⟨_, rfl, Fin.forall_fin_two.2 ⟨rfl, rfl⟩⟩
  have hlegacy : ∃ w, runRanks (twoRanks legacyConfig) [0, 0, 0, 0, 1, 1, 1, 1] (.start fun _ => none) = .ok w ∧
      ∀ r, w.ranks r = .done := by
    exact ⟨_, rfl, Fin.forall_fin_two.2 ⟨rfl, rfl⟩⟩
  obtain ⟨w, hw, hdone⟩ := hnew
  obtain ⟨w', hw', hdone'⟩ := hlegacy
  refine ⟨hmarked, ⟨w, hw, (ranks_kept _ _ _ hw hdone).1 ⟨fun r => .inr rfl, fun t ht => ?_⟩⟩,
    ⟨w', hw', (ranks_kept _ _ _ hw' hdone').1 ⟨fun r => .inl rfl, ?_⟩⟩⟩
  · cases ht
  · show Separate (twoRanks legacyConfig) [0, 0, 0, 0, 1, 1, 1, 1] (.start fun _ => none)
    decide

/-- **Two ranks that take turns under the legacy flag lose what the first one recorded.** -/
theorem legacy_ranks_lose : ∃ w, runRanks (twoRanks legacyConfig) inTurns (.start fun _ => none) = .ok w ∧
    (∀ r, w.ranks r = .done) ∧ ¬ w.Kept (twoRanks legacyConfig) fun _ => none := by
  let t : Statement := ⟨cstr "MPI_rank_0", cstr "prov:type", .uri (cstr "prov:Agent")⟩
  have hrecorded : t ∈ ((twoRanks legacyConfig).session 0).recorded := by decide
  have hrun : ∃ w, runRanks (twoRanks legacyConfig) inTurns (.start fun _ => none) = .ok w ∧ (∀ r, w.ranks r = .done) ∧
      ¬ w.disk.Holds t := by
    exact ⟨_, rfl, Fin.forall_fin_two.2 ⟨rfl, rfl⟩, by decide⟩
  obtain ⟨w, hw, hdone, hlost⟩ := hrun
  exact ⟨w, hw, hdone, fun hk => hlost (hk.1 0 t hrecorded)⟩

end Provio
