import Provio.Graph
/-!
# Persist — what is on disk after a session

`provio_helper_init`, `add_prov_record` and `provio_helper_teardown` each decide anew which graph file they work with.
Here every use of a handle in the teardown is checked for NULL, as `fputs` is already (`teardownChecked`): the teardown
never uses one (`teardownChecked_eq`).  What is recorded reaches a file exactly when the format is RDF and the path
that the legacy flag selects is set, or nothing is recorded (`persists_iff`).
-/
namespace Provio

/-! ## The teardown with its handles checked -/

/-- `librdf_serializer_serialize_model_to_file_handle` writes through its handle. -/
def serializeTo (handle : Option (List CStr)) (model_prov : List Statement) : Except Fault (Option (List Statement)) :=
  match handle with
  | none   => .error .null
  | some _ => .ok (some (librdfKeeps model_prov))

def fclose (handle : Option (List CStr)) : Except Fault Unit := if handle.isSome then .ok () else .error .null

def serializeChecked (p : Process) (helper : ProvioHelper) (inp : SessionInput) :
    Except Fault (Process × SessionOutput) :=
  if helper.legacy_prov_file_handle.isSome || helper.new_prov_file_handle.isSome then do
    let rdf ← isRdf p.config
    let legacy ← if p.config.enable_legacy_graph && rdf then serializeTo helper.legacy_prov_file_handle p.model_prov
      else .ok none
    let new ← if !p.config.enable_legacy_graph && rdf then serializeTo helper.new_prov_file_handle p.model_prov
      else .ok none
    let _ ← if helper.legacy_prov_file_handle.isSome then fclose helper.legacy_prov_file_handle else .ok ()
    let _ ← if helper.new_prov_file_handle.isSome then fclose helper.new_prov_file_handle else .ok ()
    let time := p.prov_stat.PROV_SERIALIZE_TIME + inp.serialize_elapsed
    pure ({ p with prov_stat := { p.prov_stat with PROV_SERIALIZE_TIME := time } }, ⟨legacy, new, none⟩)
  else pure (p, ⟨none, none, none⟩)

/-- `provio_helper_teardown`, a NULL handle being a fault; the statistics file is closed behind its own test. -/
def teardownChecked (p : Process) (inp : SessionInput) : Except Fault (Process × SessionOutput) := do
  let p := addProgramRecord { p with fields := { p.fields with proc_end_time := inp.end_time } }
  match p.helper with
  | none => .error .null
  | some helper =>
    let (p, out) ← serializeChecked p helper inp
    let (p, out) ← printStat p helper out
    pure ({ p with helper := none }, out)

/-- Only the graph that the legacy flag selects is open. -/
def Selected (config : ProvConfig) (helper : ProvioHelper) : Prop :=
  (helper.legacy_prov_file_handle.isSome → config.enable_legacy_graph = true) ∧
  (helper.new_prov_file_handle.isSome → config.enable_legacy_graph = false)

theorem serializeChecked_eq {p : Process} {helper : ProvioHelper} (h : Selected p.config helper) (inp : SessionInput) :
    serializeChecked p helper inp = serializeGraphs p helper inp := by
  obtain ⟨hlegacy, hnew⟩ := h
  unfold serializeChecked serializeGraphs
  cases hl : helper.legacy_prov_file_handle with
  | some lines =>
    have hflag : p.config.enable_legacy_graph = true := hlegacy (by rw [hl]; rfl)
    have hn : helper.new_prov_file_handle = none := by
      cases hn : helper.new_prov_file_handle with
      | none => rfl
      | some lines' => rw [hnew (by rw [hn]; rfl)] at hflag; cases hflag
    rw [hn]
    cases isRdf p.config with
    | error f => rfl
    | ok rdf => cases rdf <;> simp [hflag, serializeTo, serializeModel, fclose]
  | none =>
    cases hn : helper.new_prov_file_handle with
    | none => rfl
    | some lines =>
      have hflag : p.config.enable_legacy_graph = false := hnew (by rw [hn]; rfl)
      cases isRdf p.config with
      | error f => rfl
      | ok rdf => cases rdf <;> simp [hflag, serializeTo, serializeModel, fclose]

theorem helper_selected {config : ProvConfig} {inp : SessionInput}
    (h : config.enable_legacy_graph = inp.config.enable_legacy_graph) : Selected config inp.helper := by
  unfold Selected SessionInput.helper SessionInput.legacyOpened SessionInput.newOpened
  rw [h]
  cases inp.config.enable_legacy_graph <;> simp

/-- **The teardown uses no NULL handle**, whatever the configuration. -/
theorem teardownChecked_eq {p : Process} {inp : SessionInput} (hhelper : p.helper = some inp.helper)
    (hflag : p.config.enable_legacy_graph = inp.config.enable_legacy_graph) :
    teardownChecked p inp = provioHelperTeardown p inp := by
  unfold teardownChecked provioHelperTeardown addProgramRecord
  simp only [addProgramRecordRedland_eq, hhelper]
  rw [serializeChecked_eq]
  exact helper_selected hflag

/-! ## What is persisted -/

/-- The lines of the records, for a format that is not RDF. -/
def recordLines (config : ProvConfig) : ProvFields → List SessionOp → List CStr
  | _, []             => []
  | fields, op :: ops =>
    (if op.isRecord then [fields.io_api ++ cstr " " ++ decimal fields.duration.toNat ++ cstr "us\n"] else []) ++
      recordLines config (op.fields config fields) ops

def ProvioHelper.written (helper : ProvioHelper) : List CStr :=
  helper.legacy_prov_file_handle.getD [] ++ helper.new_prov_file_handle.getD []

/-- The calls and the teardown complete, no NULL handle used; the model goes to one open file, or every line to one. -/
def Persists (p : Process) (inp : SessionInput) (ops : List SessionOp) : Prop :=
  ∃ q helper r out, runSessionOps p ops = .ok q ∧ q.helper = some helper ∧ teardownChecked q inp = .ok (r, out) ∧
    if rdfFormat inp.config then
      helper.legacy_prov_file_handle.isSome ∧ out.legacy_graph = some (librdfKeeps r.model_prov) ∧ out.new_graph = none ∨
      helper.new_prov_file_handle.isSome ∧ out.new_graph = some (librdfKeeps r.model_prov) ∧ out.legacy_graph = none
    else ∀ line ∈ recordLines inp.config p.fields ops, line ∈ helper.written

def selectsPath (config : ProvConfig) : Bool :=
  if config.enable_legacy_graph then config.legacy_graph_path.isSome else config.new_graph_path.isSome

theorem runSessionOps_fills : ∀ (ops : List SessionOp) (p : Process), (∀ op ∈ ops, op.call = none) →
    (∀ op ∈ ops, op.isRecord = false) → ∃ q, runSessionOps p ops = .ok q
  | [], p, _, _ => ⟨p, rfl⟩
  | op :: ops, p, hcall, hrec => by
    have hstep : ∃ q, op.run p = .ok q := by
      cases op with
      | addProvRecord uuid elapsed => exact absurd (hrec _ List.mem_cons_self) (by simp [SessionOp.isRecord])
      | funcStat c => exact absurd (hcall _ List.mem_cons_self) (by simp [SessionOp.call])
      | fillDataObject obj_name type => exact ⟨_, rfl⟩
      | fillRelation relation => exact ⟨_, rfl⟩
      | fillIoApi io_api duration => exact ⟨_, rfl⟩
    obtain ⟨q, hq⟩ := hstep
    obtain ⟨r, hr⟩ := runSessionOps_fills ops q (fun o h => hcall o (List.mem_cons_of_mem _ h))
      (fun o h => hrec o (List.mem_cons_of_mem _ h))
    exact ⟨r, by rw [runSessionOps, hq]; exact hr⟩

/-- **A record that is to become a line does not complete**: the line has no handle. -/
theorem no_record_of_lines {helper : ProvioHelper} : ∀ (ops : List SessionOp) {p q : Process}, Opened p helper →
    isFileLevel p.config = true → rdfFormat p.config = false → runSessionOps p ops = .ok q →
    ∀ op ∈ ops, op.isRecord = false
  | [], _, _, _, _, _, _, _, hop => nomatch hop
  | op :: ops, p, q, ho, hlevel, hrdf, hrun, o, hmem => by
    obtain ⟨p', hp', hrest⟩ := bind_eq_ok.1 hrun
    have hran := SessionOp.run_ran ho hp'
    rcases List.mem_cons.1 hmem with rfl | hmem
    · cases o with
      | addProvRecord uuid elapsed =>
        have := ((addProvRecord_eq_ok ho).1 hp').1 hlevel
        rw [hrdf] at this
        cases this
      | _ => rfl
    · exact no_record_of_lines ops (hran.opened ho) (by rw [hran.config]; exact hlevel) (by rw [hran.config]; exact hrdf)
        hrest o hmem

theorem recordLines_eq_nil (config : ProvConfig) : ∀ (ops : List SessionOp) (fields : ProvFields),
    (∀ op ∈ ops, op.isRecord = false) → recordLines config fields ops = []
  | [], _, _ => rfl
  | op :: ops, fields, h => by
    rw [recordLines, h op List.mem_cons_self, recordLines_eq_nil config ops _ (fun o ho => h o (List.mem_cons_of_mem _ ho))]
    rfl

/-- **The teardown of a run that completed** serialises the model to the file that is open. -/
theorem teardownChecked_of_run {p₀ p q : Process} {inp : SessionInput} {ops : List SessionOp}
    (hinit : provioHelperInit (provioInit p₀ inp) inp = .ok p) (hhelper : p.helper ≠ none)
    (hq : runSessionOps p ops = .ok q) : q.helper = some inp.helper ∧ ∃ r, teardownChecked q inp = .ok r ∧
      r.2.legacy_graph = (if inp.legacyOpened then some (librdfKeeps r.1.model_prov) else none) ∧
      r.2.new_graph = (if inp.newOpened then some (librdfKeeps r.1.model_prov) else none) := by
  rcases provioHelperInit_ok hinit with h | ⟨ho, path, hp⟩
  · exact absurd h hhelper
  have hconfig : p.config = { inp.config with new_graph_path := path } := by rw [hp]
  have hran := runSessionOps_ran ops ho hq
  obtain ⟨t, -, ht⟩ := runSessionOps_table ops ho (by rw [hp]) hq
  have hag : q.fields.mpi_rank_int = inp.MPI_RANK := by
    rw [hran.fields, (fieldsAfter_agents _ _ _).mpi_rank_int, hp]
    rfl
  obtain ⟨counts, hteardown⟩ := provioHelperTeardown_eq (hran.config.trans hconfig) (hran.helper.trans ho.opened) hag ht
  rw [← teardownChecked_eq (hran.helper.trans ho.opened) (by rw [hran.config, hconfig])] at hteardown
  exact ⟨hran.helper.trans ho.opened, _, hteardown, rfl, rfl⟩

theorem selectsPath_iff {inp : SessionInput} (hlevel : isFileLevel inp.config = true)
    (hopens : inp.legacy_opens = true ∧ inp.new_opens = true) (hr : rdfFormat inp.config = true) :
    selectsPath inp.config = true ↔ inp.legacyOpened = true ∨ inp.newOpened = true := by
  unfold selectsPath SessionInput.legacyOpened SessionInput.newOpened isGraph
  rw [hlevel, hr, hopens.1, hopens.2]
  cases inp.config.enable_legacy_graph <;> simp

/-- **When everything recorded is persisted**, at a level that writes to a file and with files that open: in RDF when
the path the legacy flag selects is set, in any other format when nothing is recorded. -/
theorem persists_iff (p₀ p : Process) (inp : SessionInput) (hlevel : isFileLevel inp.config = true)
    (hopens : inp.legacy_opens = true ∧ inp.new_opens = true)
    (hinit : provioHelperInit (provioInit p₀ inp) inp = .ok p) (hhelper : p.helper ≠ none) (ops : List SessionOp)
    (hops : ∀ op ∈ ops, op.call = none) :
    Persists p inp ops ↔
      if rdfFormat inp.config then selectsPath inp.config = true else ∀ op ∈ ops, op.isRecord = false := by
  rcases provioHelperInit_ok hinit with h | ⟨ho, path, hp⟩
  · exact absurd h hhelper
  have hconfig : p.config = { inp.config with new_graph_path := path } := by rw [hp]
  have hlevel' : isFileLevel p.config = true := by rw [hconfig]; exact hlevel
  have hformat : rdfFormat p.config = rdfFormat inp.config := by rw [hconfig]; rfl
  cases hr : rdfFormat inp.config with
  | true =>
    rw [if_pos rfl, selectsPath_iff hlevel hopens hr]
    constructor
    · rintro ⟨q, helper, r, out, hq, hh, -, hout⟩
      obtain rfl := Option.some.inj (hh.symm.trans (teardownChecked_of_run hinit hhelper hq).1)
      rw [hr, if_pos rfl] at hout
      rcases hout with ⟨hl, -⟩ | ⟨hn, -⟩
      · left
        by_contra hc
        simp [SessionInput.helper, hc] at hl
      · right
        by_contra hc
        simp [SessionInput.helper, hc] at hn
    · intro hsel
      obtain ⟨q, hq⟩ := runSessionOps_progress ops ho (by rw [isGraph, hlevel', hformat, hr]; rfl) hops
      obtain ⟨hh, r, hr', hlegacy, hnew⟩ := teardownChecked_of_run hinit hhelper hq
      refine ⟨q, inp.helper, r.1, r.2, hq, hh, hr', ?_⟩
      rw [hr, if_pos rfl]
      rcases hsel with hl | hn
      · have hn := SessionInput.newOpened_of_legacy hl
        exact .inl ⟨by simp [SessionInput.helper, hl], by simp [hlegacy, hl], by simp [hnew, hn]⟩
      · have hl := SessionInput.legacyOpened_of_new hn
        exact .inr ⟨by simp [SessionInput.helper, hn], by simp [hnew, hn], by simp [hlegacy, hl]⟩
  | false =>
    rw [if_neg (by decide)]
    constructor
    · rintro ⟨q, -, -, -, hq, -⟩
      exact no_record_of_lines ops ho hlevel' (by rw [hformat, hr]) hq
    · intro hrec
      obtain ⟨q, hq⟩ := runSessionOps_fills ops p hops hrec
      obtain ⟨hh, r, hr', -⟩ := teardownChecked_of_run hinit hhelper hq
      refine ⟨q, inp.helper, r.1, r.2, hq, hh, hr', ?_⟩
      rw [hr, if_neg (by decide), recordLines_eq_nil _ _ _ hrec]
      exact fun _ h => absurd h List.not_mem_nil

def openInput : SessionInput := { rankZeroInput with legacy_opens := true }

/-- One RDF record under a new graph path is persisted. -/
theorem persists_one_record : ∃ p, provioHelperInit (provioInit .start openInput) openInput = .ok p ∧
    Persists p openInput createRecord.ops := by
  obtain ⟨p, hp, hhelper⟩ : ∃ p, provioHelperInit (provioInit .start openInput) openInput = .ok p ∧ p.helper ≠ none :=
    ⟨_, rfl, nofun⟩
  exact ⟨p, hp, (persists_iff .start p openInput rfl ⟨rfl, rfl⟩ hp hhelper createRecord.ops (by decide)).2 rfl⟩

/-- The legacy graph's path alone is set, and its flag is off. -/
def legacyPathInput : SessionInput :=
  { openInput with config := { fullConfig with new_graph_path := none, legacy_graph_path := some (cstr "old.ttl") } }

/-- The helper is accepted without a graph file, and the model is never serialised. -/
theorem legacy_path_not_persisted : ∃ p, provioHelperInit (provioInit .start legacyPathInput) legacyPathInput = .ok p ∧
    p.helper ≠ none ∧ ¬ Persists p legacyPathInput createRecord.ops := by
  obtain ⟨p, hp, hhelper⟩ : ∃ p, provioHelperInit (provioInit .start legacyPathInput) legacyPathInput = .ok p ∧
      p.helper = some ⟨none, none, true⟩ := ⟨_, rfl, rfl⟩
  refine ⟨p, hp, by rw [hhelper]; nofun, ?_⟩
  rintro ⟨q, helper, r, out, hq, hh, -, hout⟩
  rcases provioHelperInit_ok hp with h | ⟨ho, -⟩
  · rw [hhelper] at h; cases h
  rw [(runSessionOps_ran _ ho hq).helper, hhelper] at hh
  cases hh
  rw [if_pos (by decide)] at hout
  rcases hout with ⟨h, -⟩ | ⟨h, -⟩
  · cases h
  · cases h

end Provio
