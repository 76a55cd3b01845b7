import Provio.Graph
import Provio.StatTable
/-!
# Independence — what a session owes to the sessions before it

A session's graph and statistics depend on the process only through the three once-only flags and the totals, which
nothing resets (`Session.run_ok`); the bytes `malloc` hands out never show (`lines_forget`).  So two runs that end in the
same session hand out the same exactly when their earlier sessions agree on what the session shows of these
(`sessions_independent_iff`).
-/
namespace Provio

open Probing (mapValues walk_mapValues mapValues_set)

/-! ## The bytes of `malloc` never show -/

section Mapping

variable {V W : Type}

def DurationHt.map (f : V → W) (t : DurationHt V) : DurationHt W :=
  { entries := mapValues f t.entries, capacity := t.capacity, length := t.length }

theorem statGet_map (f : V → W) (fuel : Nat) (dic : FuncDic) (t : DurationHt V) (key : CStr) :
    statGet fuel dic (t.map f) key =
      (statGet fuel dic t key).map (fun r => (r.1, r.2.map (fun e => (e.1, f e.2)))) := by
  unfold statGet probe DurationHt.map
  simp only [walk_mapValues]
  cases Probing.walk t.entries t.capacity key fuel (startSlot t.capacity key) <;> rfl

theorem statSetEntry_map (f : V → W) (fuel : Nat) (dic : FuncDic) (t : DurationHt V) (key : CStr) (value : V) :
    statSetEntry fuel dic (t.map f) key (f value) =
      (statSetEntry fuel dic t key value).map (fun r => (r.1, r.2.map f)) := by
  unfold statSetEntry probe DurationHt.map
  simp only [walk_mapValues]
  cases Probing.walk t.entries t.capacity key fuel (startSlot t.capacity key) <;>
    simp [Except.map, Probing.Walk.map, mapValues_set]

/-- **What a call does to a table commutes with a map of its cells.** -/
theorem accumulate_map {f : V → W} {bump : V → V} (bump' : W → W) (hf : ∀ v, f (bump v) = bump' (f v)) (fuel : Nat)
    (fresh : V) (dic : FuncDic) (t : DurationHt V) (key : CStr) :
    accumulate fuel (f fresh) bump' (dic, t.map f) key =
      (accumulate fuel fresh bump (dic, t) key).map (fun r => (r.1, r.2.map f)) := by
  unfold accumulate
  rw [statGet_map]
  cases statGet fuel dic t key with
  | error e => rfl
  | ok r =>
    obtain ⟨dic', found⟩ := r
    cases found with
    | none => exact statSetEntry_map f fuel dic' t key fresh
    | some e => simp [Except.map, bind, Except.bind, pure, Except.pure, DurationHt.map, mapValues_set, hf]

theorem statNextLoop_map (f : V → W) (t : DurationHt V) : ∀ (n index : Nat),
    statNextLoop (t.map f) n index = ((statNextLoop t n index).1.map (Prod.map id f), (statNextLoop t n index).2)
  | 0, _ => rfl
  | n + 1, index => by
    have hget : (t.map f).entries[index]? = t.entries[index]?.map (Option.map (Prod.map id f)) := List.getElem?_map ..
    rw [statNextLoop, statNextLoop, hget]
    cases t.entries[index]? with
    | none => exact statNextLoop_map f t n (index + 1)
    | some o =>
      cases o with
      | none => exact statNextLoop_map f t n (index + 1)
      | some e => rfl

theorem statPass_map (f : V → W) (t : DurationHt V) : ∀ (n index : Nat),
    (statPass (t.map f) n index).1 = (statPass t n index).1.map (Prod.map id f)
  | 0, _ => rfl
  | n + 1, index => by
    rw [statPass, statPass, statNext, statNext, statNextLoop_map]
    have hcap : (t.map f).capacity = t.capacity := rfl
    rw [hcap]
    obtain ⟨found, j⟩ := statNextLoop t (t.capacity - index) index
    cases found with
    | none => rfl
    | some e => simp [statPass_map f t n j]

end Mapping

/-- The half of a cell that is printed. -/
def lowHalf (c : Cell) : BitVec 32 := c.setWidth 32

def Call.forget (c : Call) : Call := { c with malloced := 0 }

theorem accumulateDuration_low {fuel : Nat} (dic : FuncDic) {t t' : DurationHt Cell} {c c' : Call}
    (hc : c.forget = c'.forget) (ht : t.map lowHalf = t'.map lowHalf) :
    (accumulateDuration fuel (dic, t) c).map (fun r => (r.1, r.2.map lowHalf)) =
      (accumulateDuration fuel (dic, t') c').map (fun r => (r.1, r.2.map lowHalf)) := by
  have hname : c.func_name = c'.func_name := (Call.mk.inj hc).1
  have hel : c.elapsed = c'.elapsed := (Call.mk.inj hc).2.1
  have hb : ∀ v : Cell, lowHalf (v + c.elapsed) = lowHalf v + lowHalf c.elapsed := fun v =>
    BitVec.setWidth_add v c.elapsed (by decide)
  have h1 : ∀ m : Cell, lowHalf (storeInt m c.elapsed) = lowHalf c.elapsed := fun m => setWidth_storeInt m c.elapsed
  have hmap := fun m t => accumulate_map (· + lowHalf c.elapsed) hb fuel (storeInt m c.elapsed) dic t c.func_name
  unfold accumulateDuration
  rw [← hname, ← hel, ← hmap, ← hmap, ht, h1, h1]

theorem ok_of_map_eq {α β : Type} {f : α → β} {x y : Except Fault α} {a : α} (h : x.map f = y.map f) (hx : x = .ok a) :
    ∃ b, y = .ok b ∧ f a = f b := by
  subst hx
  cases y with
  | error e => cases h
  | ok b => exact ⟨b, rfl, Except.ok.inj h⟩

/-- **A run of calls leaves the same printed halves whatever `malloc` hands out.** -/
theorem accumulateAll_low {fuel : Nat} : ∀ (calls calls' : List Call) {dic : FuncDic} {t t' : DurationHt Cell}
    {r r' : FuncDic × DurationHt Cell}, calls.map Call.forget = calls'.map Call.forget → t.map lowHalf = t'.map lowHalf →
    accumulateAll fuel (dic, t) calls = .ok r → accumulateAll fuel (dic, t') calls' = .ok r' →
    r.2.map lowHalf = r'.2.map lowHalf
  | [], [], _, _, _, _, _, _, ht, h, h' => by cases h; cases h'; exact ht
  | [], _ :: _, _, _, _, _, _, hc, _, _, _ => by simp at hc
  | _ :: _, [], _, _, _, _, _, hc, _, _, _ => by simp at hc
  | c :: calls, c' :: calls', dic, t, t', r, r', hc, ht, h, h' => by
    simp only [List.map_cons, List.cons.injEq] at hc
    obtain ⟨s, hs, h⟩ := bind_eq_ok.1 h
    obtain ⟨s', hs', h'⟩ := bind_eq_ok.1 h'
    obtain ⟨b, hb, hlow⟩ := ok_of_map_eq (accumulateDuration_low dic hc.1 ht) hs
    rw [hs'] at hb
    cases hb
    simp only [Prod.mk.injEq] at hlow
    obtain ⟨dic₁, t₁⟩ := s
    obtain ⟨dic₁', t₁'⟩ := s'
    simp only at hlow
    rw [hlow.1] at h
    exact accumulateAll_low calls calls' hc.2 hlow.2 h h'

theorem statPrint_low {t t' : DurationHt Cell} (h : t.map lowHalf = t'.map lowHalf) (rank : Int) (prov_stat : Option Stat) :
    statPrint_ rank prov_stat t = statPrint_ rank prov_stat t' := by
  have hcap : t.capacity = t'.capacity := (DurationHt.mk.inj h).2.1
  have hlines : ∀ t : DurationHt Cell, ∀ n, (statPass t n statIterator).1.map (fun e => (e.1, loadInt e.2)) =
      (statPass (t.map lowHalf) n statIterator).1.map (fun e => (e.1, e.2.toInt)) := by
    intro t n
    rw [statPass_map, List.map_map]
    rfl
  unfold statPrint_
  rw [hlines t, hlines t', hcap, h]

/-! ## What a session reads of the process -/

theorem SessionOp.run_no_helper {p q : Process} {op : SessionOp} (hp : p.helper = none) (hq : op.run p = .ok q) :
    q.helper = none := by
  cases op with
  | addProvRecord uuid elapsed => rw [SessionOp.run, Provio.addProvRecord, hp] at hq; cases hq
  | funcStat c =>
    cases hf : p.FUNCTION_FREQUENCY with
    | none => rw [SessionOp.run, Provio.funcStat, hf] at hq; cases hq
    | some t =>
      rw [SessionOp.run, Provio.funcStat, hf] at hq
      obtain ⟨⟨dic, t'⟩, -, hq⟩ := bind_eq_ok.1 hq
      cases hq
      exact hp
  | fillDataObject obj_name type => cases hq; exact hp
  | fillRelation relation => cases hq; exact hp
  | fillIoApi io_api duration => cases hq; exact hp

theorem runSessionOps_no_helper : ∀ (ops : List SessionOp) {p p' : Process}, p.helper = none →
    runSessionOps p ops = .ok p' → p'.helper = none
  | [], _, _, hp, hr => by cases hr; exact hp
  | op :: ops, p, p', hp, hr => by
    obtain ⟨q, hq, hr⟩ := bind_eq_ok.1 hr
    exact runSessionOps_no_helper ops (SessionOp.run_no_helper hp hq) hr

namespace Session

variable (s : Session)

def tracksUser : Bool := tracksAgents s.input.config s.ops && s.input.config.enable_user_prov

def tracksRank : Bool := tracksAgents s.input.config s.ops && s.input.config.enable_thread_prov

def tracksProgram : Bool := s.input.config.enable_program_prov

end Session

theorem Session.run_ok {s : Session} {p q : Process} {out : SessionOutput} (h : s.run p = .ok (q, out)) :
    q.USER_TRACKED = (p.USER_TRACKED || s.tracksUser) ∧ q.MPI_RANK_TRACKED = (p.MPI_RANK_TRACKED || s.tracksRank) ∧
    q.PROC_NAME_TRACKED = (p.PROC_NAME_TRACKED || s.tracksProgram) ∧ q.prov_stat = s.totals p.prov_stat ∧
    ∃ dic t, accumulateAll (sizeT s.input.config.num_of_apis + 1) (statCreate s.input.config.num_of_apis)
        (s.ops.filterMap SessionOp.call) = .ok (dic, t) ∧
      out = { legacy_graph := if s.input.legacyOpened then some (librdfKeeps (s.graph p)) else none
              new_graph := if s.input.newOpened then some (librdfKeeps (s.graph p)) else none
              stat := if s.input.statOpened then some (statPrint_ 0 (some (s.totals p.prov_stat)) t) else none } := by
  unfold Session.run at h
  obtain ⟨p₁, hinit, h⟩ := bind_eq_ok.1 h
  obtain ⟨p₂, hops, h⟩ := bind_eq_ok.1 h
  obtain ⟨⟨p₃, o⟩, hdown, h⟩ := bind_eq_ok.1 h
  cases h
  have hne : p₁.helper ≠ none := by
    intro hnone
    have hnone' := runSessionOps_no_helper s.ops hnone hops
    unfold provioHelperTeardown addProgramRecord at hdown
    simp only [addProgramRecordRedland_eq, hnone'] at hdown
    cases hdown
  obtain ⟨fields, counts, t, hacc, hdown'⟩ := Session.teardown_eq hinit hne hops
  rw [hdown'] at hdown
  cases hdown
  exact ⟨rfl, rfl, rfl, rfl, p₂.FUNC_DIC, t, hacc, rfl⟩

def totalsAfter (prov_stat : Stat) (hs : List Session) : Stat := hs.foldl (fun st s => s.totals st) prov_stat

theorem runSessions_ok : ∀ (hs : List Session) {p q : Process}, runSessions p hs = .ok q →
    q.USER_TRACKED = (p.USER_TRACKED || hs.any Session.tracksUser) ∧
    q.MPI_RANK_TRACKED = (p.MPI_RANK_TRACKED || hs.any Session.tracksRank) ∧
    q.PROC_NAME_TRACKED = (p.PROC_NAME_TRACKED || hs.any Session.tracksProgram) ∧
    q.prov_stat = totalsAfter p.prov_stat hs
  | [], p, q, h => by cases h; simp [totalsAfter]
  | s :: hs, p, q, h => by
    obtain ⟨⟨p₁, out⟩, hs₁, h⟩ := bind_eq_ok.1 h
    obtain ⟨hu, hr, hp, ht, -⟩ := Session.run_ok hs₁
    obtain ⟨hu', hr', hp', ht'⟩ := runSessions_ok hs h
    simp only at hu' hr' hp' ht'
    rw [hu', hr', hp', ht', hu, hr, hp, ht]
    simp [Bool.or_assoc, totalsAfter]

/-! ## Which graphs are the same -/

/-- What a process introduces once. -/
inductive Agent where
  | user
  | rank
  | program

def Process.tracked (p : Process) : Agent → Bool
  | .user    => p.USER_TRACKED
  | .rank    => p.MPI_RANK_TRACKED
  | .program => p.PROC_NAME_TRACKED

namespace Session

variable (s : Session)

def tracks : Agent → Bool
  | .user    => s.tracksUser
  | .rank    => s.tracksRank
  | .program => s.tracksProgram

/-- The statements that introduce an agent, if the session tracks it. -/
def introduces : Agent → List Statement
  | .user    => if tracksAgents s.input.config s.ops then userPart s.input.config s.input.fields.user_name else []
  | .rank    =>
    if tracksAgents s.input.config s.ops then
      rankPart s.input.config s.input.fields.mpi_rank s.input.fields.user_name
    else []
  | .program => programPart s.input.config s.input.fields.proc_name s.input.fields.mpi_rank s.input.start_time

/-- What the session hands to its model whoever is tracked: what it loads, records and ends with. -/
def others : List Statement :=
  loadedGraph s.input ++ emitted s.input.config s.input.fields s.ops ++
    endPart s.input.config s.input.fields.proc_name s.input.end_time

/-- The session hands `t` to its model when the agents in `tracked` are introduced already. -/
def Shows (tracked : Agent → Bool) (t : Statement) : Prop :=
  t ∈ s.others ∨ ∃ a, tracked a = false ∧ t ∈ s.introduces a

end Session

theorem mem_once {tracked : Bool} {part : List Statement} {t : Statement} :
    t ∈ once tracked part ↔ tracked = false ∧ t ∈ part := by
  cases tracked <;> simp [once]

theorem Session.mem_graph (s : Session) (p : Process) (t : Statement) : t ∈ s.graph p ↔ s.Shows p.tracked t := by
  have hagents : (∃ a, p.tracked a = false ∧ t ∈ s.introduces a) ↔
      (p.USER_TRACKED = false ∧ t ∈ s.introduces .user) ∨ (p.MPI_RANK_TRACKED = false ∧ t ∈ s.introduces .rank) ∨
      (p.PROC_NAME_TRACKED = false ∧ t ∈ s.introduces .program) := by
    constructor
    · rintro ⟨a, ha⟩
      cases a with
      | user    => exact .inl ha
      | rank    => exact .inr (.inl ha)
      | program => exact .inr (.inr ha)
    · rintro (h | h | h)
      · exact ⟨.user, h⟩
      · exact ⟨.rank, h⟩
      · exact ⟨.program, h⟩
  rw [Session.Shows, hagents]
  unfold Session.graph Session.others Session.introduces
  cases tracksAgents s.input.config s.ops with
  | true =>
    simp only [if_true, List.mem_append, mem_once, or_assoc, or_left_comm, or_comm]
  | false =>
    simp only [Bool.false_eq_true, if_false, List.mem_append, List.not_mem_nil, mem_once, and_false, false_or,
      or_assoc, or_left_comm, or_comm]

/-- An agent that only `tracked` has is shown all the same: librdf refuses what introduces it, or is handed it as well. -/
def Session.Missed (s : Session) (tracked tracked' : Agent → Bool) (a : Agent) : Prop :=
  tracked a = true → tracked' a = false → ∀ t ∈ s.introduces a, t.complete → s.Shows tracked t

/-- **Two processes give one session the same graph exactly when every agent that one of them alone has tracked is shown
all the same.** -/
theorem Session.graph_perm_iff (s : Session) (p₁ p₂ : Process) :
    (librdfKeeps (s.graph p₁)).Perm (librdfKeeps (s.graph p₂)) ↔
      ∀ a, s.Missed p₁.tracked p₂.tracked a ∧ s.Missed p₂.tracked p₁.tracked a := by
  simp only [librdfKeeps_perm, Session.mem_graph]
  constructor
  · intro h a
    refine ⟨fun _ h₂ t ht hc => (h t hc).2 (.inr ⟨a, h₂, ht⟩), fun _ h₁ t ht hc => (h t hc).1 (.inr ⟨a, h₁, ht⟩)⟩
  · have hshow : ∀ {f g : Agent → Bool}, (∀ a, s.Missed f g a) → ∀ t : Statement, t.complete → s.Shows g t →
        s.Shows f t := by
      rintro f g hmiss t hc (ht | ⟨a, ha, ht⟩)
      · exact .inl ht
      · cases hf : f a with
        | false => exact .inr ⟨a, hf, ht⟩
        | true => exact hmiss a hf ha t ht hc
    exact fun h t hc => ⟨hshow (fun a => (h a).2) t hc, hshow (fun a => (h a).1) t hc⟩

/-! ## Two runs that end in the same session -/

/-- The same calls, whatever `malloc` hands out. -/
def SessionOp.forget : SessionOp → SessionOp
  | .funcStat c => .funcStat c.forget
  | op          => op

structure SameSession (s s' : Session) : Prop where
  input : s.input = s'.input
  ops   : s.ops.map SessionOp.forget = s'.ops.map SessionOp.forget

theorem emitted_forget (config : ProvConfig) : ∀ (ops : List SessionOp) (fields : ProvFields),
    emitted config fields (ops.map SessionOp.forget) = emitted config fields ops
  | [], _ => rfl
  | op :: ops, fields => by
    have hpart : op.forget.part config fields = op.part config fields := by cases op <;> rfl
    have hfields : op.forget.fields config fields = op.fields config fields := by cases op <;> rfl
    rw [List.map_cons, emitted, emitted, hpart, hfields, emitted_forget config ops]

theorem tracksAgents_forget (config : ProvConfig) (ops : List SessionOp) :
    tracksAgents config (ops.map SessionOp.forget) = tracksAgents config ops := by
  have hrec : SessionOp.isRecord ∘ SessionOp.forget = SessionOp.isRecord := by funext op; cases op <;> rfl
  rw [tracksAgents, tracksAgents, List.any_map, hrec]

theorem writeTime_forget (ops : List SessionOp) : writeTime (ops.map SessionOp.forget) = writeTime ops := by
  have hel : SessionOp.elapsed ∘ SessionOp.forget = SessionOp.elapsed := by funext op; cases op <;> rfl
  rw [writeTime, writeTime, List.map_map, hel]

theorem calls_forget (ops : List SessionOp) :
    (ops.filterMap SessionOp.call).map Call.forget = (ops.map SessionOp.forget).filterMap SessionOp.call := by
  rw [List.map_filterMap, List.filterMap_map]
  congr 1
  funext op
  cases op <;> rfl

theorem SameSession.graph {s s' : Session} (h : SameSession s s') (p : Process) : s'.graph p = s.graph p := by
  unfold Session.graph
  rw [← h.input, ← tracksAgents_forget _ s.ops, ← tracksAgents_forget _ s'.ops, ← emitted_forget _ s.ops,
    ← emitted_forget _ s'.ops, h.ops]

theorem SameSession.totals {s s' : Session} (h : SameSession s s') (prov_stat : Stat) :
    s'.totals prov_stat = s.totals prov_stat := by
  rw [Session.totals, Session.totals, ← h.input, ← writeTime_forget s.ops, ← writeTime_forget s'.ops, h.ops]

theorem Session.totals_inj (s : Session) {a b : Stat} : s.totals a = s.totals b ↔ a = b := by
  constructor
  · intro h
    unfold Session.totals SessionInput.serialized at h
    cases a
    cases b
    split at h <;> simpa using h
  · rintro rfl
    rfl

theorem statPrint_totals_inj {rank : Int} {a b : Stat} {t : DurationHt Cell} :
    statPrint_ rank (some a) t = statPrint_ rank (some b) t ↔ a = b := by
  simp [statPrint_]

theorem if_some_inj {α : Type} {b : Bool} {x y : α} :
    (if b then some x else none) = (if b then some y else none) ↔ (b = true → x = y) := by
  cases b <;> simp

def trackedBy (h : List Session) (a : Agent) : Bool := h.any fun s => s.tracks a

/-- What a session shows of the sessions before it: the agents they have tracked, if it serialises a graph, and the
totals, if it prints them. -/
structure SameView (s : Session) (h₁ h₂ : List Session) : Prop where
  agents : (s.input.legacyOpened || s.input.newOpened) = true →
    ∀ a, s.Missed (trackedBy h₁) (trackedBy h₂) a ∧ s.Missed (trackedBy h₂) (trackedBy h₁) a
  totals : s.input.statOpened = true →
    totalsAfter Process.start.prov_stat h₁ = totalsAfter Process.start.prov_stat h₂

/-- The same files and the same statistics; the statements of a graph have no order. -/
structure SameOutput (o o' : SessionOutput) : Prop where
  legacy_graph : Option.Rel List.Perm o.legacy_graph o'.legacy_graph
  new_graph    : Option.Rel List.Perm o.new_graph o'.new_graph
  stat         : o.stat = o'.stat

theorem rel_if_some {α : Type} {r : α → α → Prop} {b : Bool} {x y : α} :
    Option.Rel r (if b then some x else none) (if b then some y else none) ↔ (b = true → r x y) := by
  cases b with
  | false => exact ⟨fun _ h => absurd h (by decide), fun _ => .none⟩
  | true => exact ⟨fun h _ => by cases h; assumption, fun h => .some (h rfl)⟩

theorem runSessions_tracked {h : List Session} {p : Process} (r : runSessions .start h = .ok p) :
    p.tracked = trackedBy h := by
  obtain ⟨hu, hr, hp, -⟩ := runSessions_ok h r
  funext a
  cases a with
  | user    => exact hu
  | rank    => exact hr
  | program => exact hp

/-- **Two runs that end in the same session hand out the same there exactly when their earlier sessions look the same to
it.** -/
theorem sessions_independent_iff {h₁ h₂ : List Session} {s s' : Session} (hs : SameSession s s')
    {p₁ p₂ q₁ q₂ : Process} {o₁ o₂ : SessionOutput} (r₁ : runSessions .start h₁ = .ok p₁)
    (r₂ : runSessions .start h₂ = .ok p₂) (e₁ : s.run p₁ = .ok (q₁, o₁)) (e₂ : s'.run p₂ = .ok (q₂, o₂)) :
    SameOutput o₁ o₂ ↔ SameView s h₁ h₂ := by
  obtain ⟨-, -, -, ht₁⟩ := runSessions_ok h₁ r₁
  obtain ⟨-, -, -, ht₂⟩ := runSessions_ok h₂ r₂
  obtain ⟨-, -, -, -, dic₁, t₁, hacc₁, rfl⟩ := Session.run_ok e₁
  obtain ⟨-, -, -, -, dic₂, t₂, hacc₂, rfl⟩ := Session.run_ok e₂
  have hlow : t₁.map lowHalf = t₂.map lowHalf := by
    rw [← hs.input] at hacc₂
    exact accumulateAll_low _ _ (by rw [calls_forget, calls_forget, hs.ops]) rfl hacc₁ hacc₂
  have hgraph : (librdfKeeps (s.graph p₁)).Perm (librdfKeeps (s.graph p₂)) ↔
      ∀ a, s.Missed (trackedBy h₁) (trackedBy h₂) a ∧ s.Missed (trackedBy h₂) (trackedBy h₁) a := by
    rw [s.graph_perm_iff, runSessions_tracked r₁, runSessions_tracked r₂]
  have hstat : (if s.input.statOpened then some (statPrint_ 0 (some (s.totals p₁.prov_stat)) t₁) else none) =
      (if s.input.statOpened then some (statPrint_ 0 (some (s.totals p₂.prov_stat)) t₂) else none) ↔
      (s.input.statOpened = true → p₁.prov_stat = p₂.prov_stat) := by
    rw [statPrint_low hlow, if_some_inj, statPrint_totals_inj, s.totals_inj]
  rw [← hs.input, hs.graph, hs.totals]
  constructor
  · rintro ⟨hl, hn, ht⟩
    refine ⟨fun hopen => hgraph.1 ?_, fun h => by rw [← ht₁, ← ht₂]; exact hstat.1 ht h⟩
    exact (Bool.or_eq_true_iff.1 hopen).elim (rel_if_some.1 hl) (rel_if_some.1 hn)
  · intro h
    have hsame : (s.input.legacyOpened || s.input.newOpened) = true →
        (librdfKeeps (s.graph p₁)).Perm (librdfKeeps (s.graph p₂)) := fun ho => hgraph.2 (h.agents ho)
    exact ⟨rel_if_some.2 fun hl => hsame (by rw [hl]; rfl), rel_if_some.2 fun hn => hsame (by rw [hn, Bool.or_true]),
      hstat.2 fun ho => by rw [ht₁, ht₂]; exact h.totals ho⟩

/-- A session that prints no statistics. -/
def quietSession : Session := ⟨{ rankZeroInput with stat_opens := false }, createRecord.ops⟩

theorem sessions_independent_iff_quiet : ∃ p₁ p₂ q₁ q₂ o₁ o₂, runSessions .start [quietSession] = .ok p₁ ∧
    runSessions .start [quietSession, quietSession] = .ok p₂ ∧ quietSession.run p₁ = .ok (q₁, o₁) ∧
    quietSession.run p₂ = .ok (q₂, o₂) ∧ SameOutput o₁ o₂ := by
  obtain ⟨p, r⟩ : ∃ p, runSessions .start [quietSession, quietSession, quietSession] = .ok p := ⟨_, rfl⟩
  obtain ⟨⟨p₁, o₁⟩, e₁, r⟩ := bind_eq_ok.1 r
  obtain ⟨⟨p₂, o₂⟩, e₂, r⟩ := bind_eq_ok.1 r
  obtain ⟨⟨p₃, o₃⟩, e₃, -⟩ := bind_eq_ok.1 r
  have r₁ : runSessions .start [quietSession] = .ok p₁ := by rw [runSessions, e₁]; rfl
  have r₂ : runSessions .start [quietSession, quietSession] = .ok p₂ := by
    rw [runSessions, e₁, ok_bind, runSessions, e₂]; rfl
  have htracked : ∀ a, trackedBy [quietSession] a = trackedBy [quietSession, quietSession] a := by
    intro a
    cases a <;> decide
  have hview : SameView quietSession [quietSession] [quietSession, quietSession] :=
    ⟨fun _ a => ⟨fun h h' => absurd (htracked a) (by rw [h, h']; decide),
      fun h h' => absurd (htracked a) (by rw [h, h']; decide)⟩, fun h => absurd h (by decide)⟩
  exact ⟨p₁, p₂, p₂, p₃, o₂, o₃, r₁, r₂, e₂, e₃, (sessions_independent_iff ⟨rfl, rfl⟩ r₁ r₂ e₂ e₃).2 hview⟩

/-- The same session run twice: the second time its graph has no statement about the user. -/
theorem sessions_not_independent : ∃ s p q₁ q₂ o₁ o₂ g₁ g₂, runSessions .start [s] = .ok p ∧
    s.run .start = .ok (q₁, o₁) ∧ s.run p = .ok (q₂, o₂) ∧ o₁.new_graph = some g₁ ∧ o₂.new_graph = some g₂ ∧
    typings g₁ s.input.fields.user_name = 1 ∧ typings g₂ s.input.fields.user_name = 0 := by
  refine ⟨⟨rankZeroInput, createRecord.ops⟩, _, _, _, _, _, _, _, rfl, rfl, rfl, rfl, rfl, by decide, by decide⟩

end Provio
