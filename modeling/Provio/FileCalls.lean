import Provio.Dangling
import Provio.Openings
/-!
# FileCalls — `file_create` and `file_open` against every outcome underneath

A file call goes on after each failure underneath with what the success would have made: its wrapper, the two helpers, the
table, and on rank 0 the group and its attributes.  In every state that loads and callbacks reach, it returns as it should
exactly when everything it goes on to use is there (`FileCallReady`, `fileCall_iff`).
-/
namespace Provio

/-! ## What a call uses -/

/-- What a call uses whose file could not be opened or created. -/
structure FailedReady (freed : Bool) (func : CStr) (s : Conn) (name : Option CStr) : Prop where
  name   : name ≠ none
  helper : s.process.helper ≠ none ∨ freed = true ∧ s.PROV_HELPER = none
  record : TakesRecord s.process.config s.process.FUNCTION_FREQUENCY func
  rank   : s.process.fields.mpi_rank_int ≠ 0

/-- What the first file of a load uses to make the two helpers and a table with a slot. -/
structure MakesHelper (calloc : Nat → Nat → Bool) (s : Conn) (info : VolInfo) : Prop where
  path   : info.prov_file_path ≠ none
  format : info.prov_line_format ≠ none
  config : checkConfig s.process.config = .ok ()
  graph  : makesTable s.process.config = true
  rdf    : isFileLevel s.process.config → rdfFormat s.process.config
  table  : calloc (sizeT s.process.config.num_of_apis) sizeofEntry = true
  slots  : sizeT s.process.config.num_of_apis ≠ 0

/-- What a call uses whose file was opened or created. -/
structure OpenedReady (calloc : Nat → Nat → Bool) (func : CStr) (s : Conn) (info : VolInfo) (name : Option CStr)
    (under : Under) (m : Marking) : Prop where
  name    : name ≠ none
  first   : s.PROV_HELPER = none → MakesHelper calloc s info
  later   : s.PROV_HELPER ≠ none → TakesRecord s.process.config s.process.FUNCTION_FREQUENCY func
  numbers : MeetsNumbered s.tracker (under.file_no.getD 0) s.tracker.opened_files
  marks   : s.process.fields.mpi_rank_int = 0 → info.prov_file_path ≠ none ∧ m.Complete

section

variable {s s' : Conn}

/-! ## The helpers -/

section

variable {calloc : Nat → Nat → Bool} {info : VolInfo}

theorem ensureHelperCalloc_eq_ok (hnone : s.PROV_HELPER = none) : s.ensureHelperCalloc calloc info = .ok s' ↔
    info.prov_level ≥ 2 ∧ info.prov_file_path = none ∧ s' = s ∨
    info.prov_file_path ≠ none ∧ info.prov_line_format ≠ none ∧
      ∃ q, provioHelperInitCalloc calloc s.process s.input = .ok q ∧
        s' = { s with process := q, PROV_HELPER := some .init } := by
  have hsame : ({ s with PROV_HELPER := none } : Conn) = s := by
    rw [← hnone]
  unfold Conn.ensureHelperCalloc provHelperInitCalloc
  rw [hnone]
  dsimp only
  by_cases hgive : info.prov_level ≥ 2 ∧ info.prov_file_path = none
  · rw [if_pos hgive, pure_bind]
    constructor
    · intro hr
      cases hr
      exact .inl ⟨hgive.1, hgive.2, hsame⟩
    · rintro (⟨-, -, rfl⟩ | ⟨hpath, -⟩)
      · exact congrArg Except.ok hsame
      · exact absurd hgive.2 hpath
  · rw [if_neg hgive]
    constructor
    · intro hr
      obtain ⟨⟨q, h⟩, hr, hpure⟩ := bind_eq_ok.1 hr
      obtain ⟨q', hq, hr⟩ := bind_eq_ok.1 hr
      obtain ⟨_, hpath, hr⟩ := bind_eq_ok.1 hr
      obtain ⟨_, hformat, hr⟩ := bind_eq_ok.1 hr
      cases hr
      cases hpure
      refine .inr ⟨fun hno => ?_, fun hno => ?_, q, hq, rfl⟩
      · rw [hno] at hpath
        cases hpath
      · rw [hno] at hformat
        cases hformat
    · rintro (⟨hlevel, hpath, -⟩ | ⟨hpath, hformat, q, hq, rfl⟩)
      · exact absurd ⟨hlevel, hpath⟩ hgive
      · obtain ⟨path, hpath⟩ := Option.ne_none_iff_exists'.1 hpath
        obtain ⟨format, hformat⟩ := Option.ne_none_iff_exists'.1 hformat
        rw [hq, ok_bind, hpath, hformat]
        rfl

theorem ensureHelperCalloc_some (hsome : s.PROV_HELPER ≠ none) : s.ensureHelperCalloc calloc info = .ok s := by
  obtain ⟨h, hh⟩ := Option.ne_none_iff_exists'.1 hsome
  unfold Conn.ensureHelperCalloc
  rw [hh]

theorem ensureHelperCalloc_midway (hs : Midway s) (hr : s.ensureHelperCalloc calloc info = .ok s') :
    Midway s' ∧ s'.tracker = s.tracker ∧ s'.process.fields.mpi_rank_int = s.process.fields.mpi_rank_int := by
  by_cases hnone : s.PROV_HELPER = none
  · rcases (ensureHelperCalloc_eq_ok hnone).1 hr with ⟨-, -, rfl⟩ | ⟨-, -, q, hq, rfl⟩
    · exact ⟨hs, rfl, rfl⟩
    · refine ⟨⟨intact_init, provioHelperInitCalloc_recording hs.process hq, fun h => by cases h⟩, ?_,
        (provioHelperInitCalloc_makes hq).1⟩
      rw [Conn.tracker, Conn.tracker, hnone]
      rfl
  · rw [ensureHelperCalloc_some hnone] at hr
    cases hr
    exact ⟨hs, rfl, rfl⟩

theorem provioHelperInitCalloc_iff (calloc : Nat → Nat → Bool) (p : Process) (inp : SessionInput) (func : CStr) :
    (∃ q, provioHelperInitCalloc calloc p inp = .ok q ∧ q.helper ≠ none ∧
      TakesRecord q.config q.FUNCTION_FREQUENCY func) ↔
      checkConfig p.config = .ok () ∧ makesTable p.config = true ∧ (isFileLevel p.config → rdfFormat p.config) ∧
        calloc (sizeT p.config.num_of_apis) sizeofEntry = true ∧ sizeT p.config.num_of_apis ≠ 0 := by
  have hslot : (statCreate (V := Cell) p.config.num_of_apis).2.HasSlot func ↔ sizeT p.config.num_of_apis ≠ 0 := by
    unfold DurationHt.HasSlot
    simp [statCreate, Probing.keys, Probing.entries, Nat.pos_iff_ne_zero]
  constructor
  · rintro ⟨q, hq, hhelper, -, hrdf, t, ht, hhas⟩
    obtain ⟨q₁, hq₁, -⟩ := bind_eq_ok.1 hq
    obtain ⟨_, hcheck, -⟩ := bind_eq_ok.1 hq₁
    obtain ⟨-, ⟨-, hnone, -⟩ | ⟨hmakes, -, ⟨path, hpath⟩, htable⟩⟩ := provioHelperInitCalloc_makes hq
    · exact absurd hnone hhelper
    · rw [hpath] at hrdf
      rw [htable] at ht
      split at ht
      · cases ht
        exact ⟨hcheck, hmakes, hrdf, ‹_›, hslot.1 hhas⟩
      · cases ht
  · rintro ⟨hcheck, hmakes, hrdf, halloc, hsize⟩
    have hformat : p.config.prov_line_format.isSome = true := by
      obtain ⟨-, -, hcheck⟩ := bind_eq_ok.1 hcheck
      obtain ⟨-, -, hcheck⟩ := bind_eq_ok.1 hcheck
      obtain ⟨-, -, hcheck⟩ := bind_eq_ok.1 hcheck
      exact cAssert_eq_ok.1 hcheck
    obtain ⟨q, hq⟩ : ∃ q, provioHelperInitCalloc calloc p inp = .ok q := by
      unfold provioHelperInitCalloc provioHelperInit
      rw [hcheck, ok_bind]
      dsimp only
      rw [if_neg (makesTable_iff.1 hmakes), isRdf_eq_ok.2 ⟨hformat, rfl⟩, ok_bind, pure_bind, if_pos hmakes]
      exact ⟨_, rfl⟩
    obtain ⟨-, ⟨hno, -⟩ | ⟨-, ⟨helper, ho⟩, ⟨path, hpath⟩, htable⟩⟩ := provioHelperInitCalloc_makes hq
    · rw [hmakes] at hno
      cases hno
    · rw [if_pos halloc] at htable
      refine ⟨q, hq, by rw [ho.opened]; exact Option.some_ne_none helper, Option.isSome_iff_ne_none.1 ho.format, ?_, _, htable,
        hslot.2 hsize⟩
      rw [hpath]
      exact hrdf

theorem ensureHelperCalloc_iff (hs : Reached s) (func : CStr) :
    (∃ s', s.ensureHelperCalloc calloc info = .ok s' ∧ s'.PROV_HELPER ≠ none ∧ s'.process.helper ≠ none ∧
      TakesRecord s'.process.config s'.process.FUNCTION_FREQUENCY func) ↔
      (s.PROV_HELPER = none → MakesHelper calloc s info) ∧
        (s.PROV_HELPER ≠ none → TakesRecord s.process.config s.process.FUNCTION_FREQUENCY func) := by
  by_cases hnone : s.PROV_HELPER = none
  · rw [and_iff_left fun h => absurd hnone h, forall_prop_of_true hnone]
    have hiff := provioHelperInitCalloc_iff calloc s.process s.input func
    constructor
    · rintro ⟨s', hr, hset, hhelper, htakes⟩
      rcases (ensureHelperCalloc_eq_ok hnone).1 hr with ⟨-, -, rfl⟩ | ⟨hpath, hformat, q, hq, rfl⟩
      · exact absurd hnone hset
      · obtain ⟨hcheck, hmakes, hrdf, halloc, hsize⟩ := hiff.1 ⟨q, hq, hhelper, htakes⟩
        exact ⟨hpath, hformat, hcheck, hmakes, hrdf, halloc, hsize⟩
    · rintro ⟨hpath, hformat, hcheck, hmakes, hrdf, halloc, hsize⟩
      obtain ⟨q, hq, hhelper, htakes⟩ := hiff.2 ⟨hcheck, hmakes, hrdf, halloc, hsize⟩
      exact ⟨_, (ensureHelperCalloc_eq_ok hnone).2 (.inr ⟨hpath, hformat, q, hq, rfl⟩), Option.some_ne_none _, hhelper, htakes⟩
  · rw [and_iff_right fun h => absurd h hnone, forall_prop_of_true hnone, ensureHelperCalloc_some hnone]
    constructor
    · rintro ⟨s', hr, -, -, htakes⟩
      cases hr
      exact htakes
    · intro htakes
      exact ⟨s, rfl, hnone, fun hh => hnone (hs.helped hh), htakes⟩

end

/-! ## The call -/

section

variable {calloc : Nat → Nat → Bool} {freed : Bool} {func : CStr} {info : VolInfo} {name : Option CStr}
  {under : Option Under} {m : Marking} {t : Ticks} {file : Option ProvObj}

theorem fileCallWith_eq_ok : fileCallWith calloc freed func s info name under m t = .ok (s', file) ↔ ∃ s₁ s₂ s₃,
    wrapFileCalloc calloc s info name under = .ok (s₁, file) ∧
    s₁.fill name (cstr "provio:Datatype") (cstr "provio:wasOpenedBy") = .ok s₂ ∧
    s₂.recordWith freed (cstr "H5Topen2") func t = .ok s₃ ∧
    (s₃.process.fields.mpi_rank_int = 0 → markFile s₃ info name file m = .ok s') ∧
    (s₃.process.fields.mpi_rank_int ≠ 0 → s' = s₃) := by
  constructor
  · intro hr
    obtain ⟨⟨s₁, file'⟩, h1, hr⟩ := bind_eq_ok.1 hr
    obtain ⟨s₂, h2, hr⟩ := bind_eq_ok.1 hr
    obtain ⟨s₃, h3, hr⟩ := bind_eq_ok.1 hr
    split at hr
    · obtain ⟨s₄, h4, hpure⟩ := bind_eq_ok.1 hr
      cases hpure
      exact ⟨s₁, s₂, s₃, h1, h2, h3, fun _ => h4, fun hne => absurd ‹_› hne⟩
    · cases hr
      exact ⟨s₁, s₂, s', h1, h2, h3, fun heq => absurd heq ‹_›, fun _ => rfl⟩
  · rintro ⟨s₁, s₂, s₃, h1, h2, h3, hzero, hother⟩
    unfold fileCallWith
    rw [h1, ok_bind]
    dsimp only
    rw [h2, ok_bind, h3, ok_bind]
    split
    · rw [hzero ‹_›]
      rfl
    · rw [hother ‹_›]
      rfl

theorem FailedReady.returns (hready : FailedReady freed func s name) (hs : Reached s) (calloc : Nat → Nat → Bool)
    (info : VolInfo) (m : Marking) (t : Ticks) :
    ∃ s' file, fileCallWith calloc freed func s info name none m t = .ok (s', file) := by
  obtain ⟨hname, hhelper, htakes, hrank⟩ := hready
  obtain ⟨hiff, hleaves⟩ := named_iff hs.toMidway freed name (cstr "provio:Datatype") (cstr "provio:wasOpenedBy")
    (cstr "H5Topen2") func t
  obtain ⟨s₂, s₃, h2, h3⟩ := hiff.2 ⟨hname, hhelper, htakes⟩
  refine ⟨s₃, none, fileCallWith_eq_ok.2 ⟨s, s₂, s₃, rfl, h2, h3, fun hzero => ?_, fun _ => rfl⟩⟩
  exact absurd ((hleaves s₂ s₃ h2 h3).rank.symm.trans hzero) hrank

theorem Through.midway {s₀ : Conn} {w : ProvObj} (ht : Through s w) (hproc : s.process = s₀.process) (hs₀ : Midway s₀) :
    Midway s :=
  ⟨ht.tracker, by rw [hproc]; exact hs₀.process, fun hnone => absurd hnone ht.helper⟩

theorem OpenedReady.returns {u : Under} (hready : OpenedReady calloc func s info name u m) (hs : Reached s) (freed : Bool)
    (t : Ticks) :
    ∃ s' file, fileCallWith calloc freed func s info name (some u) m t = .ok (s', file) := by
  obtain ⟨hname, hfirst, hlater, hnumbers, hmarks⟩ := hready
  obtain ⟨s₀, h0, hne, hset, htakes⟩ := (ensureHelperCalloc_iff hs func).2 ⟨hfirst, hlater⟩
  obtain ⟨hs₀, htracker, hrank⟩ := ensureHelperCalloc_midway hs.toMidway h0
  obtain ⟨hmeets, hthrough⟩ := fileOpened_iff hne hs₀.tracker u name
  obtain ⟨⟨s₁, w⟩, hopen⟩ := hmeets.2 (by rw [htracker]; exact hnumbers)
  obtain ⟨ht, hproc⟩ := hthrough s₁ w hopen
  obtain ⟨hiff, hleaves⟩ := named_iff (ht.midway hproc hs₀) freed name (cstr "provio:Datatype") (cstr "provio:wasOpenedBy")
    (cstr "H5Topen2") func t
  obtain ⟨s₂, s₃, h2, h3⟩ := hiff.2 ⟨hname, .inl (by rw [hproc]; exact hset), by rw [hproc]; exact htakes⟩
  have h1 : wrapFileCalloc calloc s info name (some u) = .ok (s₁, some w) := by
    unfold wrapFileCalloc
    dsimp only
    rw [h0, ok_bind, hopen]
    rfl
  obtain ⟨-, hsame, -, hrank₃⟩ := hleaves s₂ s₃ h2 h3
  by_cases hz : s₃.process.fields.mpi_rank_int = 0
  · obtain ⟨s', hmark⟩ := (markFile_iff (ht.of_same hsame) info name m).2 (hmarks (by rw [← hz, hrank₃, hproc, hrank]))
    exact ⟨s', some w, fileCallWith_eq_ok.2 ⟨s₁, s₂, s₃, h1, h2, h3, fun _ => hmark, fun hne => absurd hz hne⟩⟩
  · exact ⟨s₃, some w, fileCallWith_eq_ok.2 ⟨s₁, s₂, s₃, h1, h2, h3, fun heq => absurd heq hz, fun _ => rfl⟩⟩

end

/-! ## Runs -/

end

end Provio
