import Provio.Outcomes
/-!
# Returns — the functions under the callbacks return

On a process that can take any record (`Ready`), the user functions return.  On a tracker that agrees with what the
application holds and whose open files have numbers (`FilesNumbered`), its functions do, for what the application holds.
-/
namespace Provio

/-! ## The process -/

/-- A configuration that `provio_helper_init` accepts, whose records have somewhere to go, and with a slot in the table
for each function that records. -/
structure Serves (config : ProvConfig) : Prop where
  checked : checkConfig config = .ok ()
  paths   : 2 ≤ config.prov_level → config.new_graph_path ≠ none ∨ config.legacy_graph_path ≠ none
  rdf     : isFileLevel config → rdfFormat config
  slots   : 14 ≤ config.num_of_apis
  bound   : config.num_of_apis < 2 ^ 31

/-- A process that can take any record. -/
structure Ready (p : Process) : Prop where
  opened : ∃ helper, Opened p helper
  rdf    : isFileLevel p.config → rdfFormat p.config
  table  : ∃ t m, p.FUNCTION_FREQUENCY = some t ∧ Refines t m ∧ 14 ≤ t.capacity ∧ ∀ k, m k ≠ none → k ∈ recorders

theorem Ready.of_eq {p q : Process} (hp : Ready p) (hhelper : q.helper = p.helper) (hconfig : q.config = p.config)
    (htable : q.FUNCTION_FREQUENCY = p.FUNCTION_FREQUENCY) : Ready q := by
  obtain ⟨helper, hopen⟩ := hp.opened
  obtain ⟨t, m, ht, h⟩ := hp.table
  exact ⟨⟨helper, by rw [hhelper]; exact hopen.opened, by rw [hconfig]; exact hopen.format, by rw [hconfig]; exact hopen.lines⟩,
    by rw [hconfig]; exact hp.rdf, t, m, by rw [htable]; exact ht, h⟩

theorem Ready.addProvRecord {p : Process} (hp : Ready p) (uuid : CStr) (elapsed : BitVec 64) :
    ∃ q, Provio.addProvRecord p uuid elapsed = .ok q ∧ Ready q := by
  obtain ⟨helper, hopen⟩ := hp.opened
  refine ⟨_, (addProvRecord_eq_ok hopen).2 ⟨hp.rdf, rfl⟩, ?_⟩
  cases isGraph p.config with
  | false => exact hp.of_eq rfl rfl rfl
  | true =>
    rw [if_pos rfl, addProvRecordRedland_eq]
    exact hp.of_eq rfl rfl rfl

theorem Refines.room {t : DurationHt Cell} {m : Accumulators Cell} (h : Refines t m) (hcap : 14 ≤ t.capacity)
    (hnames : ∀ k, m k ≠ none → k ∈ recorders) {k : CStr} (hk : k ∈ recorders) (hnone : m k = none) :
    t.length < t.capacity := by
  have hnot : k ∉ stored t := by
    rw [h.mem_stored]
    exact not_not.2 hnone
  have hsub : insert k (stored t) ⊆ recorders.toFinset :=
    Finset.insert_subset (List.mem_toFinset.2 hk) fun x hx => List.mem_toFinset.2 (hnames x ((h.mem_stored x).1 hx))
  have hle := Finset.card_le_card hsub
  rw [Finset.card_insert_of_notMem hnot, h.card_stored, show recorders.toFinset.card = 14 by decide] at hle
  omega

theorem Ready.funcStat {p : Process} (hp : Ready p) {c : Call} (hc : c.func_name ∈ recorders) :
    ∃ q, Provio.funcStat p c = .ok q ∧ Ready q := by
  obtain ⟨t, m, ht, href, hcap, hnames⟩ := hp.table
  obtain ⟨dic', t', hacc, href', hcap'⟩ := accumulate_step href (Nat.le_succ t.capacity) (storeInt c.malloced c.elapsed)
    (· + c.elapsed) p.FUNC_DIC c.func_name fun hnone => href.room hcap hnames hc hnone
  refine ⟨{ p with FUNC_DIC := dic', FUNCTION_FREQUENCY := some t' }, ?_, ?_⟩
  · unfold Provio.funcStat
    rw [ht]
    dsimp only
    rw [show accumulateDuration (t.capacity + 1) (p.FUNC_DIC, t) c = .ok (dic', t') from hacc]
    rfl
  · obtain ⟨helper, hopen⟩ := hp.opened
    refine ⟨⟨helper, hopen.opened, hopen.format, hopen.lines⟩, hp.rdf, t', _, rfl, href', by rw [hcap']; exact hcap, ?_⟩
    intro k hk
    rcases (Accumulators.call_ne_none m c k).1 hk with rfl | hk
    · exact hc
    · exact hnames k hk

theorem Serves.format {config : ProvConfig} (hs : Serves config) : config.prov_line_format.isSome = true := by
  have hcheck := hs.checked
  unfold checkConfig at hcheck
  obtain ⟨-, -, hcheck⟩ := bind_eq_ok.1 hcheck
  obtain ⟨-, -, hcheck⟩ := bind_eq_ok.1 hcheck
  obtain ⟨-, -, hcheck⟩ := bind_eq_ok.1 hcheck
  exact cAssert_eq_ok.1 hcheck

/-- **`provio_helper_init` takes a configuration that can be served.** -/
theorem provioHelperInit_ready (p : Process) {inp : SessionInput} (hs : Serves inp.config) : ∃ q,
    provioHelperInit (provioInit p inp) inp = .ok q ∧ Ready q ∧ q.fields.mpi_rank_int = inp.MPI_RANK := by
  obtain ⟨q, hq, hne⟩ : ∃ q, provioHelperInit (provioInit p inp) inp = .ok q ∧ q.helper ≠ none := by
    unfold provioHelperInit
    rw [show (provioInit p inp).config = inp.config from rfl, hs.checked, ok_bind]
    dsimp only
    rw [if_neg (by
      rintro ⟨hlevel, hnew, hlegacy⟩
      exact (hs.paths hlevel).elim (· hnew) (· hlegacy)),
      isRdf_eq_ok.2 ⟨hs.format, rfl⟩, ok_bind]
    exact ⟨_, rfl, Option.some_ne_none _⟩
  obtain ⟨hopen, path, rfl⟩ := (provioHelperInit_ok hq).resolve_left hne
  obtain ⟨c, hc⟩ := Int.eq_ofNat_of_zero_le (Int.le_trans (by decide) hs.slots)
  have hslots := hs.slots
  have hbound := hs.bound
  obtain ⟨hcap, href⟩ := statCreate_refines (V := Cell) (c := c) (by omega) (by omega)
  refine ⟨_, hq, ⟨⟨_, hopen⟩, hs.rdf, _, _, rfl, by rw [hc]; exact href, ?_, fun k hk => absurd rfl hk⟩, rfl⟩
  rw [hc, hcap]
  omega

/-! ## The tracker -/

def FilesNumbered (h : ProvHelper) : Prop := ∀ a ∈ h.opened_files, ∀ fi, h.files a = some fi → fi.file_no ≠ 0

section

variable {h h' : ProvHelper} {L : Ledger} {app : App} {e : Ledger} {n : Nat}

theorem FilesNumbered.keep (hn : FilesNumbered h) (hc : Consistent h L) (hk : Kept h h')
    (hsub : h'.opened_files ⊆ h.opened_files) : FilesNumbered h' := by
  intro a ha fi' hfi'
  obtain ⟨fi, hfi, hno⟩ := hk.files a (hc.lt_next (hsub ha)) fi' hfi'
  rw [← hno]
  exact hn a (hsub ha) fi hfi

theorem addFileNode_returns (hn : FilesNumbered h) (hc : Consistent h L) (name : Option CStr) {no : Nat} (hno : no ≠ 0) :
    ∃ h' a, addFileNode h name no = .ok (h', a) ∧ FilesNumbered h' := by
  obtain ⟨h', a, hr⟩ := addFileNode_progress hc hn name no
  obtain ⟨-, hsub, fi, hfi, hfno⟩ := addFileNode_spec hc hr
  refine ⟨h', a, hr, fun b hb fb hfb => ?_⟩
  rcases List.mem_cons.1 (hsub hb) with rfl | hb
  · rw [hfi] at hfb
    cases hfb
    rw [hfno]
    exact hno
  · obtain ⟨f, hf, he⟩ := (addFileNode_kept hr).files b (hc.lt_next hb) fb hfb
    rw [← he]
    exact hn b hb f hf

theorem releaseFile_returns (hn : FilesNumbered h) {a : Addr} (hc : Consistent h (L.addFile a)) :
    ∃ h', releaseFile h a = .ok h' ∧ FilesNumbered h' := by
  have ha : a ∈ h.opened_files := hc.tracked a (by simp [Ledger.addFile])
  obtain ⟨fi, hfi, _⟩ := hc.files a ha
  obtain ⟨h', m, hr, hc', hsub, _⟩ := rmFileNode_spec hc hfi (hn a ha fi hfi)
  refine ⟨h', ?_, hn.keep hc (rmFileNode_kept hr) hsub⟩
  unfold releaseFile
  rw [file_eq_ok.2 hfi, ok_bind, hr]
  rfl

theorem rmNode_returns (hn : FilesNumbered h) {o : Addr} (hc : Consistent h (L.addObj o)) {k : ObjClass} {c : TokenCmp}
    (hdec : c.Decides) (hcls : ∀ info, h.objs o = some info → info.cls = k) :
    ∃ h' m, rmNode k h c o = .ok (h', m) ∧ FilesNumbered h' := by
  obtain ⟨info, hinfo, ha, fi, hfi, _⟩ := hc.listed o (by simp [Ledger.addObj])
  rcases rmNode_spec hc hdec hinfo (hcls info hinfo) with ⟨h', m, hr, hc', hsub, _⟩ | ⟨⟨f, hf, hz⟩, _⟩
  · exact ⟨h', m, hr, hn.keep hc (rmNode_kept hr) hsub⟩
  · exact absurd hz (hn _ ha f hf)

theorem refObj_returns (hn : FilesNumbered h) (hc : Consistent h L) {o : Addr} (hlive : L.objs o ≠ 0) :
    ∃ h', h.refObj o = .ok h' ∧ FilesNumbered h' := by
  obtain ⟨info, hinfo, _⟩ := hc.listed o hlive
  have hr := refObj_eq_ok.2 ⟨info, hinfo, rfl⟩
  exact ⟨_, hr, hn.keep hc (refObj_kept hr) fun _ hb => hb⟩

theorem refFile_returns (hn : FilesNumbered h) (hc : Consistent h L) {a : Addr} (ha : a ∈ h.opened_files) :
    ∃ h', h.refFile a = .ok h' ∧ FilesNumbered h' := by
  obtain ⟨fi, hfi, _⟩ := hc.files a ha
  have hr := refFile_eq_ok.2 ⟨fi, hfi, rfl⟩
  exact ⟨_, hr, hn.keep hc (refFile_kept hr) fun _ hb => hb⟩

theorem updateDs_returns (hn : FilesNumbered h) (hc : Consistent h L) {o : Addr} (hlive : L.objs o ≠ 0)
    (f : DsInfo → DsInfo) : ∃ h', updateDs h o f = .ok h' ∧ FilesNumbered h' := by
  obtain ⟨info, hinfo, _⟩ := hc.listed o hlive
  refine ⟨h.setObj o { info with ds := f info.ds }, ?_, hn⟩
  unfold updateDs
  rw [obj_eq_ok.2 hinfo]
  rfl

theorem fileDsAccessed_returns (hn : FilesNumbered h) (hc : Consistent h L) {a : Addr} (ha : a ∈ h.opened_files) :
    ∃ h', fileDsAccessed h a = .ok h' ∧ FilesNumbered h' := by
  obtain ⟨fi, hfi, _⟩ := hc.files a ha
  refine ⟨h.setFile a { fi with ds_accessed := fi.ds_accessed + 1 }, ?_, ?_⟩
  · unfold fileDsAccessed
    rw [file_eq_ok.2 hfi]
    rfl
  · exact hn.keep hc (setFile_kept hfi rfl) fun _ hb => hb

/-! ## What the application holds -/

theorem Tracked.fileInfoOf_returns (ht : Tracked h app e n) {o : ProvObj} (ho : o ∈ app.handles) :
    ∃ a, Provio.fileInfoOf h o = .ok a ∧ a ∈ h.opened_files := by
  obtain ⟨a, ha⟩ : ∃ a, Provio.fileInfoOf h o = .ok a := by
    unfold Provio.fileInfoOf
    cases hm : o.my_type with
    | file => exact ⟨_, rfl⟩
    | obj k =>
      obtain ⟨info, hinfo, _⟩ := ht.consistent.listed o.generic_prov_info (mem_live_objs ho (by simp [hm]))
      dsimp only
      rw [obj_eq_ok.2 hinfo]
      exact ⟨_, rfl⟩
  exact ⟨a, ha, ht.fileInfoOf ho ha⟩

theorem homeFile_returns (hc : Consistent h L) {a : Addr} (ha : a ∈ h.opened_files) (no : Nat) :
    ∃ h' b, homeFile h no a = .ok (h', b) := by
  obtain ⟨fa, hfa, _⟩ := hc.files a ha
  unfold homeFile
  rw [file_eq_ok.2 hfa, ok_bind]
  split
  · obtain ⟨r, hsearch⟩ := searchFile_progress (h := h) no fun b hb => (hc.files b hb).imp fun _ hb => hb.1
    unfold searchHomeFile
    split
    · exact ⟨_, _, rfl⟩
    · rw [hsearch, ok_bind]
      have hspec := searchFile_spec hsearch
      cases r with
      | none => exact ⟨_, _, rfl⟩
      | some b =>
        obtain ⟨h', hr⟩ := refFile_progress hspec.2.choose_spec.1
        dsimp only
        rw [hr]
        exact ⟨_, _, rfl⟩
  · exact ⟨_, _, rfl⟩

theorem wrapUnder_returns (ht : Tracked h app e n) (hn : FilesNumbered h) {m : Made} (hdec : m.cmp.Decides) {u : Under}
    {upper_o : ProvObj} {a : Addr} (ha : a ∈ h.opened_files) (hup : Provio.fileInfoOf h upper_o = .ok a)
    (name : Option CStr) {type : ObjType} (hhome : Homed h a u type)
    (hno : type = .file → u.file_no.getD m.stack_no ≠ 0) :
    ∃ h' w, wrapUnder h m u upper_o name type = .ok (h', w) ∧ FilesNumbered h' := by
  have hc := ht.consistent.newObj
  have hn' : FilesNumbered (provenanceNewObj h) := hn
  unfold wrapUnder
  rw [hup, ok_bind]
  cases type with
  | file =>
    obtain ⟨h', o, hr, hn₁⟩ := addFileNode_returns hn' hc name (hno rfl)
    refine ⟨h', ⟨some u, .file, o⟩, ?_, hn₁⟩
    rw [show addTargetNode (provenanceNewObj h) m u a name .file = _ from hr]
    rfl
  | obj k =>
    by_cases hk : k = .dataset
    · subst hk
      obtain ⟨no, t, hu, hfile⟩ := hhome.info (by decide)
      obtain ⟨h₁, b, hhf⟩ := homeFile_returns hc ha no
      obtain ⟨e', hc₁, hk₁, -, hopen₁, hb, -⟩ := homeFile_consistent hc ha (hfile.imp_right And.right) hhf
      obtain ⟨h1, h2, h3, h4⟩ := newDsProvInfo_obj u.shape t b name
      obtain ⟨h₂, o, hadd, hc₂, hopen₂, -⟩ := addNode_spec hc₁ .dataset hdec (by rw [hopen₁]; exact hb) h1 h2 h3
      rw [h4] at hadd
      have hn₁ : FilesNumbered h₁ := hn'.keep hc hk₁ (by rw [hopen₁]; exact fun _ hx => hx)
      have hn₂ : FilesNumbered h₂ := hn₁.keep hc₁ (addNode_kept hadd) (by rw [hopen₂]; exact fun _ hx => hx)
      obtain ⟨h₃, hacc, hn₃⟩ := fileDsAccessed_returns hn₂ hc₂ (a := a) (by rw [hopen₂, hopen₁]; exact ha)
      refine ⟨h₃, ⟨some u, .obj .dataset, o⟩, ?_, hn₃⟩
      unfold addTargetNode addDatasetNode
      dsimp only
      rw [hu, Option.getD_some]
      dsimp only
      rw [hhf, ok_bind]
      dsimp only
      rw [hadd, ok_bind]
      dsimp only
      rw [hacc]
      rfl
    · rw [addTargetNode_eq hk]
      obtain ⟨h', o, hr, -, hopen, -⟩ := addNode_spec hc k hdec ha (show (newObjInfo k a name
        (u.info.getD (m.stack_no, m.stack_token)).2).cls = k from rfl) rfl rfl
      refine ⟨h', ⟨some u, .obj k, o⟩, ?_, hn'.keep hc (addNode_kept hr) (by rw [hopen]; exact fun _ hb => hb)⟩
      rw [show addNode k (provenanceNewObj h) m.cmp a (u.info.getD (m.stack_no, m.stack_token)).2 _ = _ from hr]
      rfl

theorem rmTargetNode_returns (ht : Tracked h app e n) (hn : FilesNumbered h) {w : ProvObj} (hw : w ∈ app.handles)
    {c : TokenCmp} (hdec : c.Decides) : ∃ h', rmTargetNode h c w = .ok h' ∧ FilesNumbered h' := by
  have hc := ht.consistent
  rw [App.ledger_give hw] at hc
  unfold rmTargetNode
  cases hm : w.my_type with
  | file =>
    rw [App.ledger_take_file hm, Ledger.addFile_plus] at hc
    exact releaseFile_returns hn hc
  | obj k =>
    have hf : w.my_type ≠ .file := by simp [hm]
    rw [App.ledger_take_obj hf, Ledger.addObj_plus] at hc
    obtain ⟨h', m, hr, hn'⟩ := rmNode_returns hn hc hdec fun info hinfo => by
      have hcls := (ht.handles w hw hf info hinfo).1
      rw [hm] at hcls
      exact (ObjType.obj.inj hcls).symm
    refine ⟨h', ?_, hn'⟩
    dsimp only
    rw [hr]
    rfl

theorem rmHold_returns (ht : Tracked h app e n) (hn : FilesNumbered h) {x : Hold} (hx : x ∈ app.holds) {c : TokenCmp}
    (hdec : c.Decides) : ∃ h' m, rmNode x.cls h c x.info = .ok (h', m) ∧ FilesNumbered h' := by
  have hc := ht.consistent
  rw [App.ledger_hold_erase hx, Ledger.addObj_plus] at hc
  exact rmNode_returns hn hc hdec (ht.holds x hx)

theorem freeWrapCtx_returns (ht : Tracked h app e n) (hn : FilesNumbered h) {a : Addr} (ha : a ∈ app.ctxs) :
    ∃ h', releaseFile h a = .ok h' ∧ FilesNumbered h' := by
  have hc := ht.consistent
  rw [App.ledger_ctx_erase ha, Ledger.addFile_plus] at hc
  exact releaseFile_returns hn hc

theorem refreshed_returns (ht : Tracked h app e n) (hn : FilesNumbered h) {x : Hold} (hx : x ∈ app.holds)
    (hspecific : ¬ (x.specific = .group ∨ x.specific = .datatype)) (extent : Extent) :
    ∃ h', refreshed h x extent = .ok h' ∧ FilesNumbered h' := by
  have hlive := mem_live_holds (e := e) hx
  obtain ⟨info, hinfo, _⟩ := ht.consistent.listed x.info hlive
  obtain ⟨-, -, -, -, -, hobj⟩ := ht.consistent.home hlive hinfo
  have hpos : info.ref_cnt > 0 := by
    rw [hobj.ref]
    have := hobj.pos
    omega
  unfold refreshed
  rw [obj_eq_ok.2 hinfo, ok_bind, show cAssert (info.ref_cnt > 0) = .ok () from cAssert_eq_ok.2 (decide_eq_true hpos), ok_bind,
    if_neg hspecific]
  split
  · exact updateDs_returns hn ht.consistent hlive _
  · exact ⟨h, rfl, hn⟩

end

/-! ## The connector -/

/-- The connector has begun, and can go on. -/
structure Running (s : Conn) : Prop where
  helper : s.PROV_HELPER ≠ none
  ready  : Ready s.process

/-- A step that leaves the tracker alone, and the rank. -/
structure Passes (s s' : Conn) : Prop where
  running : Running s'
  tracker : s'.tracker = s.tracker
  rank    : s'.process.fields.mpi_rank_int = s.process.fields.mpi_rank_int

section

variable {s : Conn}

theorem Running.onHelper (hs : Running s) {α : Type} {f : ProvHelper → Except Fault (ProvHelper × α)} {k : ProvHelper}
    {a : α} (hf : f s.tracker = .ok (k, a)) : ∃ s', s.onHelper f = .ok (s', a) ∧ Running s' ∧ s'.tracker = k ∧
      s'.process = s.process := by
  obtain ⟨h, hh⟩ := Option.ne_none_iff_exists'.1 hs.helper
  rw [show s.tracker = h by simp [Conn.tracker, hh]] at hf
  exact ⟨_, onHelper_eq_ok.2 ⟨h, k, hh, hf, rfl⟩, ⟨Option.some_ne_none _, hs.ready⟩, rfl, rfl⟩

theorem Running.updHelper (hs : Running s) {f : ProvHelper → Except Fault ProvHelper} {k : ProvHelper}
    (hf : f s.tracker = .ok k) : ∃ s', s.updHelper f = .ok s' ∧ Running s' ∧ s'.tracker = k ∧
      s'.process = s.process := by
  obtain ⟨h, hh⟩ := Option.ne_none_iff_exists'.1 hs.helper
  rw [show s.tracker = h by simp [Conn.tracker, hh]] at hf
  exact ⟨_, updHelper_eq_ok.2 ⟨h, k, hh, hf, rfl⟩, ⟨Option.some_ne_none _, hs.ready⟩, rfl, rfl⟩

theorem Running.onSuccess (hs : Running s) (hn : FilesNumbered s.tracker) (ret : Bool)
    {f : ProvHelper → Except Fault ProvHelper} (hf : ret = true → ∃ h', f s.tracker = .ok h' ∧ FilesNumbered h') :
    ∃ s', s.onSuccess ret f = .ok s' ∧ Running s' ∧ FilesNumbered s'.tracker := by
  cases ret with
  | false => exact ⟨s, rfl, hs, hn⟩
  | true =>
    obtain ⟨h', hr, hn'⟩ := hf rfl
    obtain ⟨s', hs', hrun, hsame, -⟩ := hs.updHelper hr
    exact ⟨s', hs', hrun, by rw [hsame]; exact hn'⟩

theorem Running.fill (hs : Running s) (name type relation : CStr) :
    ∃ s', s.fill (some name) type relation = .ok s' ∧ Passes s s' :=
  ⟨_, fill_eq_ok.2 ⟨name, rfl, rfl⟩, ⟨⟨hs.helper, hs.ready.of_eq rfl rfl rfl⟩, rfl, rfl⟩⟩

theorem Running.record (hs : Running s) (io_api : CStr) {func : CStr} (hfunc : func ∈ recorders) (t : Ticks) :
    ∃ s', s.record io_api func t = .ok s' ∧ Passes s s' := by
  have hfill : Ready (provFillIoApi s.process io_api t.duration) := hs.ready.of_eq rfl rfl rfl
  obtain ⟨p, hp, hp'⟩ := hfill.addProvRecord t.uuid t.write_elapsed
  obtain ⟨q, hq, hq'⟩ := hp'.funcStat (c := ⟨func, t.stat_elapsed, t.malloced⟩) hfunc
  have hrun : s.record io_api func t = .ok { s with
      process := addOverhead q t.overhead
      records := s.records ++ [⟨s.process.fields.data_object, s.process.fields.type, s.process.fields.relation, io_api⟩] } := by
    unfold Conn.record Conn.addProvRecord
    dsimp only
    rw [hp]
    show (Provio.funcStat p _ >>= fun p => _) = _
    rw [hq]
    rfl
  obtain ⟨p', hlog, heq⟩ := record_ok hrun
  refine ⟨_, hrun, ⟨hs.helper, hq'.of_eq rfl rfl rfl⟩, rfl, ?_⟩
  rw [heq]
  exact hlog.rank

end

end Provio
