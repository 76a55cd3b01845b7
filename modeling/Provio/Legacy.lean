import Provio.Ranks
/-!
# Legacy — reading and rewriting the legacy graph

Under the legacy flag one process reads the legacy graph (`provio_init`), empties its file (`provio_helper_init`) and
writes the model back (`provio_helper_teardown`).  The parser may give up after any part of the file; nothing looks at
that again before the file is emptied, and what was not loaded is gone unless it comes from elsewhere
(`legacy_kept_iff`).
-/
namespace Provio

/-- What `librdf_parser_parse_into_model` came to: it stops at an error with what it has put into the model. -/
inductive ParseOutcome where
  | success
  | failure (part : List Statement)

def ParseOutcome.loaded (held : List Statement) : ParseOutcome → List Statement
  | .success      => held
  | .failure part => part

/-- A failing parser has loaded a part of the file. -/
def ParseOutcome.Of (held : List Statement) : ParseOutcome → Prop
  | .success      => True
  | .failure part => part.Sublist held

/-- A session of one process on its disk, up to the end of `provio_helper_teardown`. -/
def Session.rewrite (p : Process) (d : Disk) (s : Session) (outcome : ParseOutcome) : Except Fault (Process × Disk) := do
  let inp := { s.input with legacy_graph := outcome.loaded (d.read s.input.config.legacy_graph_path) }
  -- a failure is printed, and nothing more
  let p ← provioHelperInit (provioInit p inp) inp
  let d := d.fopen p
  let p ← runSessionOps p s.ops
  let (p, out) ← provioHelperTeardown p inp
  pure (p, d.teardown p.config out)

theorem Session.rewrite_run {s : Session} {p q : Process} {d d' : Disk} {outcome : ParseOutcome}
    (h : s.rewrite p d outcome = .ok (q, d')) :
    ∃ out, (s.reading (outcome.loaded (d.read s.input.config.legacy_graph_path))).run p = .ok (provioTerm q, out) := by
  obtain ⟨p₁, hinit, h⟩ := bind_eq_ok.1 h
  obtain ⟨p₂, hops, h⟩ := bind_eq_ok.1 h
  obtain ⟨⟨p₃, out⟩, hdown, h⟩ := bind_eq_ok.1 h
  obtain ⟨rfl, -⟩ := Prod.mk.inj (Except.ok.inj h)
  refine ⟨out, ?_⟩
  apply bind_eq_ok.2
  refine ⟨p₁, hinit, bind_eq_ok.2 ⟨p₂, hops, bind_eq_ok.2 ⟨_, hdown, rfl⟩⟩⟩

/-- **The disk after a session**: the file it has open is emptied, and holds the model in the end. -/
theorem Session.rewrite_disk {s : Session} {p q : Process} {d d' : Disk} {outcome : ParseOutcome}
    (h : s.rewrite p d outcome = .ok (q, d')) :
    ∃ opened stat, d' = (opened.put s.input.target (some (librdfKeeps
        ((s.reading (outcome.loaded (d.read s.input.config.legacy_graph_path))).graph p)))).append
          s.input.config.stat_file_path stat ∧
      (s.input.target = none → opened = d) := by
  obtain ⟨p₁, hinit, h⟩ := bind_eq_ok.1 h
  obtain ⟨p₂, hops, h⟩ := bind_eq_ok.1 h
  obtain ⟨⟨p₃, out⟩, hdown, h⟩ := bind_eq_ok.1 h
  obtain ⟨rfl, rfl⟩ := Prod.mk.inj (Except.ok.inj h)
  refine ⟨d.fopen p₁, out.stat, ?_, fun htarget => ?_⟩
  · obtain ⟨hserialize, hstat⟩ :=
      serialize_eq (s := s.reading (outcome.loaded (d.read s.input.config.legacy_graph_path))) hinit hops hdown (d.fopen p₁)
    rw [Disk.teardown, hserialize, hstat]
    rfl
  · rw [fopen_eq hinit]
    have hnone : (s.reading (outcome.loaded (d.read s.input.config.legacy_graph_path))).input.target = none := htarget
    have hput : d.put none (some []) = d := rfl
    show (if p₁.helper.isSome then
      d.put (s.reading (outcome.loaded (d.read s.input.config.legacy_graph_path))).input.target (some []) else d) = d
    rw [hnone, hput, ite_self]

/-- **The legacy file still has all its statements exactly when the session does not open it, or each of them was loaded,
is in the store or is recorded anew.** -/
theorem legacy_kept_iff (s : Session) (p q : Process) (d d' : Disk) (outcome : ParseOutcome) (path : CStr)
    (held : List Statement) (hpath : s.input.config.legacy_graph_path = some path)
    (hflag : s.input.config.enable_legacy_graph = true) (hheld : d.read (some path) = held)
    (h : s.rewrite p d outcome = .ok (q, d')) :
    (∀ t ∈ held, t ∈ d'.read (some path)) ↔
      s.input.legacyOpened = false ∨ ∀ t ∈ held, t ∈ outcome.loaded held ∨ t ∈ s.stored ∨ t ∈ s.recordedAfter p := by
  have hread : d.read s.input.config.legacy_graph_path = held := by rw [hpath, hheld]
  obtain ⟨opened, stat, hd', hstill⟩ := Session.rewrite_disk h
  rw [hread] at hd'
  cases hopen : s.input.legacyOpened with
  | false =>
    have htarget : s.input.target = none := by
      rw [SessionInput.target, hopen, SessionInput.newOpened_on hflag]
      rfl
    rw [htarget] at hd'
    have hsame' : d'.read (some path) = held := by
      rw [hd', Disk.read_append, hstill htarget, ← hpath, ← hread]
      rfl
    simp [hsame']
  | true =>
    have htarget : s.input.target = some path := by
      rw [SessionInput.target, hopen, if_pos rfl, hpath]
    have hloaded : (s.reading (outcome.loaded held)).input.loaded = outcome.loaded held := by
      simp [Session.reading, SessionInput.loaded, hpath, hflag]
    have hfinal : d'.read (some path) = librdfKeeps (s.stored ++ outcome.loaded held ++ s.recordedAfter p) := by
      rw [hd', Disk.read_append, htarget, Disk.read_put, librdfKeeps_idem, Session.graph_eq_after, hloaded]
    have hcomplete : ∀ t ∈ held, t.complete := fun t ht => by
      rw [← hheld, Disk.read] at ht
      exact (mem_librdfKeeps.1 ht).2
    rw [hfinal]
    simp only [mem_librdfKeeps, List.mem_append, Bool.true_eq_false, false_or]
    constructor
    · intro hall t ht
      obtain ⟨(hst | hl) | hr, -⟩ := hall t ht
      · exact .inr (.inl hst)
      · exact .inl hl
      · exact .inr (.inr hr)
    · intro hall t ht
      refine ⟨?_, hcomplete t ht⟩
      rcases hall t ht with hl | hst | hr
      · exact .inl (.inr hl)
      · exact .inl (.inl hst)
      · exact .inr hr

def oldStatement : Statement := ⟨cstr "a", cstr "prov:type", .uri (cstr "prov:Entity")⟩

def legacySession : Session :=
  ⟨{ rankZeroInput with config := legacyConfig, legacy_opens := true }, [.addProvRecord (cstr "80") 3]⟩

def oldDisk : Disk := .holding fun path => if path = cstr "old.ttl" then some [oldStatement] else none

/-- A graph that was parsed to its end is kept. -/
theorem legacy_kept_parsed : ∃ r, legacySession.rewrite .start oldDisk .success = .ok r ∧
    ∀ t ∈ [oldStatement], t ∈ r.2.read (some (cstr "old.ttl")) := by
  have hrun : ∃ r, legacySession.rewrite .start oldDisk .success = .ok r := ⟨_, rfl⟩
  obtain ⟨⟨q, d'⟩, hr⟩ := hrun
  refine ⟨_, hr, (legacy_kept_iff legacySession .start q oldDisk d' .success (cstr "old.ttl") [oldStatement] rfl rfl rfl
    hr).2 (.inr fun t ht => .inl ht)⟩

/-- **A parser that fails at once costs the whole file.** -/
theorem legacy_lost : ∃ r, legacySession.rewrite .start oldDisk (.failure []) = .ok r ∧
    ParseOutcome.Of [oldStatement] (.failure []) ∧ oldStatement ∉ r.2.read (some (cstr "old.ttl")) := by
  exact ⟨_, rfl, List.nil_sublist _, by decide⟩

end Provio
