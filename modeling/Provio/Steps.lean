import Provio.Callbacks
import Provio.Emitted
/-!
# Steps — what a connector function that returned has done

Each lemma takes a call that returned apart.  A function touches the helper, through `onHelper`, or the process and its
records, through `fill` and `record`; the two never meet, except that rank 0 marks a file after recording it.  What a
call does to the process is `Logged`, with the entries it records.
-/
namespace Provio

section

variable {s s' : Conn}

theorem onHelper_eq_ok {α : Type} {f : ProvHelper → Except Fault (ProvHelper × α)} {a : α} :
    s.onHelper f = .ok (s', a) ↔
      ∃ h h', s.PROV_HELPER = some h ∧ f h = .ok (h', a) ∧ s' = { s with PROV_HELPER := some h' } := by
  unfold Conn.onHelper
  cases s.PROV_HELPER with
  | none => simp
  | some h =>
    simp only [bind_eq_ok, Prod.exists, pure, Except.pure, Except.ok.injEq, Prod.mk.injEq, Option.some.injEq]
    constructor
    · rintro ⟨h', b, hf, rfl, rfl⟩
      exact ⟨h, h', rfl, hf, rfl⟩
    · rintro ⟨_, h', rfl, hf, rfl⟩
      exact ⟨h', a, hf, rfl, rfl⟩

theorem updHelper_eq_ok {f : ProvHelper → Except Fault ProvHelper} : s.updHelper f = .ok s' ↔
    ∃ h h', s.PROV_HELPER = some h ∧ f h = .ok h' ∧ s' = { s with PROV_HELPER := some h' } := by
  unfold Conn.updHelper
  constructor
  · intro hr
    obtain ⟨⟨s₁, _⟩, h1, hr⟩ := bind_eq_ok.1 hr
    obtain ⟨h, h', hh, h2, rfl⟩ := onHelper_eq_ok.1 h1
    obtain ⟨_, hf, hpure⟩ := bind_eq_ok.1 h2
    cases hpure
    cases hr
    exact ⟨h, h', hh, hf, rfl⟩
  · rintro ⟨h, h', hh, hf, rfl⟩
    have hon : s.onHelper (fun h => f h >>= fun h => pure (h, ())) = .ok ({ s with PROV_HELPER := some h' }, ()) :=
      onHelper_eq_ok.2 ⟨h, h', hh, by rw [hf]; rfl, rfl⟩
    exact bind_eq_ok.2 ⟨_, hon, rfl⟩

theorem onSuccess_eq_ok {ret : Bool} {f : ProvHelper → Except Fault ProvHelper} : s.onSuccess ret f = .ok s' ↔
    (ret = true ∧ s.updHelper f = .ok s') ∨ (ret = false ∧ s' = s) := by
  cases ret <;> simp [Conn.onSuccess, eq_comm]

/-! ## The process -/

/-- What a record can say was done to its object. -/
def relations : List CStr :=
  [cstr "prov:wasGeneratedBy", cstr "provio:wasOpenedBy", cstr "provio:wasReadBy", cstr "provio:wasWrittenBy",
    cstr "prov:wasCommittedBy"]

/-- The statement relates a record's object as the record does. -/
def Entry.Says (e : Entry) (t : Statement) : Prop := t.subject = e.data_object ∧ t.predicate = e.relation

/-- **What happens to the process while `es` are recorded**: the rank and the settings are kept, and the relations that
the graph gains are those the records say. -/
structure Logged (p q : Process) (es : List Entry) : Prop where
  rank   : q.fields.mpi_rank_int = p.fields.mpi_rank_int
  config : ∃ path, q.config = { p.config with new_graph_path := path }
  kept   : p.model_prov ⊆ q.model_prov
  added  : ∀ t ∈ q.model_prov, t.predicate ∈ relations → t ∈ p.model_prov ∨ ∃ e ∈ es, e.Says t
  said   : isGraph p.config → p.config.enable_api_prov → ∀ e ∈ es, tracksType p.config e.type → ∃ t ∈ q.model_prov, e.Says t

theorem Logged.of_eq {p q : Process} (hrank : q.fields.mpi_rank_int = p.fields.mpi_rank_int)
    (hconfig : q.config = p.config) (hmodel : q.model_prov = p.model_prov) : Logged p q [] :=
  ⟨hrank, ⟨p.config.new_graph_path, hconfig⟩, fun _ ht => hmodel ▸ ht, fun _ ht _ => .inl (hmodel ▸ ht),
    fun _ _ _ he => absurd he List.not_mem_nil⟩

theorem Logged.refl (p : Process) : Logged p p [] := .of_eq rfl rfl rfl

theorem Logged.trans {p q r : Process} {es es' : List Entry} (h : Logged p q es) (h' : Logged q r es') :
    Logged p r (es ++ es') := by
  obtain ⟨path, hpath⟩ := h.config
  obtain ⟨path', hpath'⟩ := h'.config
  refine ⟨h'.rank.trans h.rank, ⟨path', by rw [hpath', hpath]⟩, List.Subset.trans h.kept h'.kept, fun t ht hrel => ?_,
    fun hg ha e he htype => ?_⟩
  · rcases h'.added t ht hrel with ht | ⟨e, he, hsays⟩
    · rcases h.added t ht hrel with ht | ⟨e, he, hsays⟩
      · exact .inl ht
      · exact .inr ⟨e, List.mem_append_left _ he, hsays⟩
    · exact .inr ⟨e, List.mem_append_right _ he, hsays⟩
  · rcases List.mem_append.1 he with he | he
    · obtain ⟨t, ht, hsays⟩ := h.said hg ha e he htype
      exact ⟨t, h'.kept ht, hsays⟩
    · refine h'.said ?_ ?_ e he ?_ <;> rw [hpath] <;> assumption

/-- Fields that no callback reads again may be filled first. -/
theorem Logged.of_fields {p q : Process} {fields : ProvFields} {es : List Entry}
    (h : Logged { p with fields := fields } q es) (hrank : fields.mpi_rank_int = p.fields.mpi_rank_int) :
    Logged p q es :=
  ⟨h.rank.trans hrank, h.config, h.kept, h.added, h.said⟩

theorem putRecordLine_ok {p q : Process} {helper : ProvioHelper} {pline : CStr}
    (hr : putRecordLine p helper pline = .ok q) : ∃ out, q = { p with helper := some out } := by
  simp only [putRecordLine] at hr
  split at hr <;> simp only [bind_eq_ok] at hr
  · obtain ⟨_, _, _, _, hr⟩ := hr
    cases hr
    exact ⟨_, rfl⟩
  · obtain ⟨_, _, _, _, hr⟩ := hr
    cases hr
    exact ⟨_, rfl⟩

theorem Logged.of_no_graph {p q : Process} (hg : isGraph p.config = false) (es : List Entry)
    (hrank : q.fields.mpi_rank_int = p.fields.mpi_rank_int) (hconfig : q.config = p.config)
    (hmodel : q.model_prov = p.model_prov) : Logged p q es := by
  refine ⟨hrank, ⟨p.config.new_graph_path, hconfig⟩, fun _ ht => hmodel ▸ ht, fun _ ht _ => .inl (hmodel ▸ ht), ?_⟩
  intro hg'
  rw [hg] at hg'
  cases hg'

theorem not_mem_relations {t : Statement} (h : t.predicate = cstr "prov:type" ∨ t.predicate = cstr "prov:wasMemberOf" ∨
    t.predicate = cstr "prov:actedOnBehalfOf" ∨ t.predicate = cstr "prov:wasAssociatedWith" ∨
    t.predicate = cstr "prov:wasAttributedTo" ∨ t.predicate = cstr "provio:elapsed") : t.predicate ∉ relations := by
  rcases h with h | h | h | h | h | h <;> rw [h] <;> decide

theorem agents_relations {p : Process} {t : Statement} (ht : t ∈ once p.USER_TRACKED (userPart p.config p.fields.user_name) ++
    once p.MPI_RANK_TRACKED (rankPart p.config p.fields.mpi_rank p.fields.user_name)) : t.predicate ∉ relations := by
  refine not_mem_relations ?_
  unfold once userPart rankPart at ht
  grind

theorem apiPart_relations {config : ProvConfig} {io_api proc_name duration_ : CStr} {t : Statement}
    (ht : t ∈ apiPart config io_api proc_name duration_) : t.predicate ∉ relations := by
  refine not_mem_relations ?_
  unfold apiPart at ht
  grind

theorem dataPart_relations {config : ProvConfig} {data_object type relation io_api proc_name : CStr} {t : Statement}
    (ht : t ∈ dataPart config data_object type relation io_api proc_name) (hrel : t.predicate ∈ relations) :
    t.subject = data_object ∧ t.predicate = relation := by
  have key : t.subject = data_object ∧ (t.predicate = relation ∨ t.predicate = cstr "prov:type" ∨
      t.predicate = cstr "prov:wasMemberOf" ∨ t.predicate = cstr "prov:wasAttributedTo") := by
    unfold dataPart at ht
    grind
  refine ⟨key.1, key.2.resolve_right fun h => not_mem_relations ?_ hrel⟩
  rcases h with h | h | h
  · exact .inl h
  · exact .inr (.inl h)
  · exact .inr (.inr (.inr (.inr (.inl h))))

theorem addProvRecordRedland_logged (p : Process) (uuid : CStr) {e : Entry} (hobj : e.data_object = p.fields.data_object)
    (htype : e.type = p.fields.type) (hrel : e.relation = p.fields.relation) :
    Logged p (addProvRecordRedland p uuid (decimal p.fields.duration.toNat)) [e] := by
  rw [addProvRecordRedland_eq]
  refine ⟨rfl, ⟨p.config.new_graph_path, rfl⟩, fun t ht => ?_, fun t ht hin => ?_, fun _ ha e' he' htr => ?_⟩
  · exact List.mem_append_left _ (List.mem_append_left _ ht)
  · rcases List.mem_append.1 ht with ht | ht
    · rcases List.mem_append.1 ht with ht | ht
      · exact .inl ht
      · exact absurd hin (agents_relations ht)
    · rcases List.mem_append.1 ht with ht | ht
      · exact absurd hin (apiPart_relations ht)
      · obtain ⟨h1, h2⟩ := dataPart_relations ht hin
        exact .inr ⟨e, List.mem_singleton_self e, by rw [h1, hobj], by rw [h2, hrel]⟩
  · obtain rfl := List.mem_singleton.1 he'
    rw [htype] at htr
    refine ⟨⟨p.fields.data_object, p.fields.relation, .uri (activityName p.config p.fields.io_api uuid)⟩,
      List.mem_append_right _ (List.mem_append_right _ ?_), hobj.symm, hrel.symm⟩
    simp [dataPart, htr, ha]

theorem addProvRecord_logged {p q : Process} {uuid : CStr} {elapsed : BitVec 64} {e : Entry}
    (hr : addProvRecord p uuid elapsed = .ok q) (hobj : e.data_object = p.fields.data_object)
    (htype : e.type = p.fields.type) (hrel : e.relation = p.fields.relation) : Logged p q [e] := by
  unfold addProvRecord at hr
  cases hh : p.helper with
  | none => rw [hh] at hr; cases hr
  | some helper =>
    rw [hh] at hr
    obtain ⟨rdf, hrdf, hr⟩ := bind_eq_ok.1 hr
    obtain ⟨-, rfl⟩ := isRdf_eq_ok.1 hrdf
    dsimp only at hr
    split at hr
    · split at hr
      · cases hr
        exact (addProvRecordRedland_logged p uuid hobj htype hrel).trans (.of_eq rfl rfl rfl)
      · rename_i hformat
        obtain ⟨p', hline, hr⟩ := bind_eq_ok.1 hr
        obtain ⟨out, rfl⟩ := putRecordLine_ok hline
        cases hr
        exact .of_no_graph (by simp [isGraph, hformat]) _ rfl rfl rfl
    · rename_i hlevel
      cases hr
      refine .of_no_graph ?_ _ rfl rfl rfl
      simp only [isGraph, isFileLevel, Bool.and_eq_false_iff]
      left
      simpa using hlevel

theorem funcStat_eq_ok {p q : Process} {c : Call} (hr : funcStat p c = .ok q) : ∃ dic counts,
    q = { p with FUNC_DIC := dic, FUNCTION_FREQUENCY := counts } := by
  unfold funcStat at hr
  cases hf : p.FUNCTION_FREQUENCY with
  | none => rw [hf] at hr; cases hr
  | some counts =>
    rw [hf] at hr
    obtain ⟨_, -, hr⟩ := bind_eq_ok.1 hr
    cases hr
    exact ⟨_, _, rfl⟩

theorem openGraphs_config (config : ProvConfig) (rank : Int) (inp : SessionInput) (rdf : Bool) :
    ∃ path, (openGraphs config rank inp rdf).1 = { config with new_graph_path := path } := by
  unfold openGraphs
  split
  · cases hn : config.new_graph_path with
    | none => exact ⟨none, by simp [← hn]⟩
    | some path =>
      simp only
      split
      · exact ⟨some path, by simp [← hn]⟩
      · exact ⟨_, rfl⟩
  · exact ⟨config.new_graph_path, rfl⟩

theorem provioHelperInit_logged {p q : Process} {inp : SessionInput} (hr : provioHelperInit p inp = .ok q) :
    Logged p q [] := by
  unfold provioHelperInit at hr
  obtain ⟨_, -, hr⟩ := bind_eq_ok.1 hr
  split at hr
  · cases hr
    exact .of_eq rfl rfl rfl
  · obtain ⟨rdf, -, hr⟩ := bind_eq_ok.1 hr
    cases hr
    refine ⟨rfl, openGraphs_config .., List.Subset.refl _, fun _ ht _ => .inl ht, fun _ _ _ he => ?_⟩
    cases he

theorem fill_eq_ok {name : Option CStr} {type relation : CStr} : s.fill name type relation = .ok s' ↔
    ∃ n, name = some n ∧ s' = { s with process := { s.process with
      fields := { s.process.fields with data_object := n, type := type, relation := relation } } } := by
  cases name with
  | none => simp [Conn.fill, provFillDataObject, strcpy]
  | some n =>
    simp only [Conn.fill, provFillDataObject, strcpy, provFillRelation, ok_bind, pure, Except.pure, Except.ok.injEq,
      Option.some.injEq, exists_eq_left']
    exact eq_comm

theorem record_ok {io_api func : CStr} {t : Ticks} (hr : s.record io_api func t = .ok s') : ∃ p : Process,
    Logged s.process p [⟨s.process.fields.data_object, s.process.fields.type, s.process.fields.relation, io_api⟩] ∧
      s' = { s with process := p, records := s.records ++
        [⟨s.process.fields.data_object, s.process.fields.type, s.process.fields.relation, io_api⟩] } := by
  obtain ⟨s₁, h1, hr⟩ := bind_eq_ok.1 hr
  obtain ⟨q, h2, hr⟩ := bind_eq_ok.1 hr
  obtain ⟨p, h3, h4⟩ := bind_eq_ok.1 h1
  cases h4
  cases hr
  obtain ⟨dic, counts, rfl⟩ := funcStat_eq_ok h2
  refine ⟨_, ?_, rfl⟩
  have logged : Logged s.process p [⟨s.process.fields.data_object, s.process.fields.type, s.process.fields.relation,
      io_api⟩] := (addProvRecord_logged h3 rfl rfl rfl).of_fields rfl
  exact logged.trans (.of_eq rfl rfl rfl)

theorem fillRecord_ok {name : Option CStr} {type relation io_api func : CStr} {t : Ticks}
    (hr : (s.fill name type relation >>= fun s => s.record io_api func t) = .ok s') :
    ∃ n p, name = some n ∧ Logged s.process p [⟨n, type, relation, io_api⟩] ∧
      s' = { s with process := p, records := s.records ++ [⟨n, type, relation, io_api⟩] } := by
  obtain ⟨s₁, h1, hr⟩ := bind_eq_ok.1 hr
  obtain ⟨n, rfl, rfl⟩ := fill_eq_ok.1 h1
  obtain ⟨p, hp, rfl⟩ := record_ok hr
  exact ⟨n, p, rfl, hp.of_fields rfl, rfl⟩

/-! ## Steps that record nothing -/

/-- Nothing is recorded. -/
structure Quiet (s s' : Conn) : Prop where
  records : s'.records = s.records
  process : Logged s.process s'.process []

theorem Quiet.refl (s : Conn) : Quiet s s := ⟨rfl, .refl _⟩

theorem Quiet.trans {s₁ s₂ s₃ : Conn} (h : Quiet s₁ s₂) (h' : Quiet s₂ s₃) : Quiet s₁ s₃ :=
  ⟨h'.records.trans h.records, h.process.trans h'.process⟩

theorem onHelper_quiet {α : Type} {f : ProvHelper → Except Fault (ProvHelper × α)} {a : α}
    (hr : s.onHelper f = .ok (s', a)) : Quiet s s' := by
  obtain ⟨_, _, _, _, rfl⟩ := onHelper_eq_ok.1 hr
  exact ⟨rfl, .refl _⟩

theorem updHelper_quiet {f : ProvHelper → Except Fault ProvHelper} (hr : s.updHelper f = .ok s') : Quiet s s' := by
  obtain ⟨_, _, _, _, rfl⟩ := updHelper_eq_ok.1 hr
  exact ⟨rfl, .refl _⟩

theorem objWrapUnder_quiet {m : Made} {upper_o : ProvObj} {name : Option CStr} {type : ObjType} {obj : Option ProvObj}
    (hr : objWrapUnder s m upper_o name type = .ok (s', obj)) : Quiet s s' := by
  unfold objWrapUnder at hr
  split at hr
  · cases hr
    exact .refl s
  · obtain ⟨⟨s₁, w⟩, h1, hr⟩ := bind_eq_ok.1 hr
    cases hr
    exact onHelper_quiet h1

theorem onSuccess_quiet {ret : Bool} {f : ProvHelper → Except Fault ProvHelper} (hr : s.onSuccess ret f = .ok s') :
    Quiet s s' := by
  rcases onSuccess_eq_ok.1 hr with ⟨_, hr⟩ | ⟨_, rfl⟩
  · exact updHelper_quiet hr
  · exact .refl _

theorem ensureHelper_quiet {info : VolInfo} (hr : s.ensureHelper info = .ok s') : Quiet s s' := by
  unfold Conn.ensureHelper at hr
  split at hr
  · cases hr
    exact .refl _
  · obtain ⟨⟨p, h⟩, h1, hr⟩ := bind_eq_ok.1 hr
    cases hr
    unfold provHelperInit at h1
    split at h1
    · cases h1
      exact ⟨rfl, .refl _⟩
    · obtain ⟨q, hq, h1⟩ := bind_eq_ok.1 h1
      obtain ⟨_, _, h1⟩ := bind_eq_ok.1 h1
      obtain ⟨_, _, h1⟩ := bind_eq_ok.1 h1
      cases h1
      exact ⟨rfl, provioHelperInit_logged hq⟩

theorem markAttr_quiet {group : ProvObj} {name : Option CStr} {m : Made} (hr : markAttr s group name m = .ok s') :
    Quiet s s' := by
  obtain ⟨⟨s₁, attr⟩, h1, hr⟩ := bind_eq_ok.1 hr
  cases attr with
  | none => cases hr
  | some attr =>
    cases hr
    exact objWrapUnder_quiet h1

theorem markFile_quiet {info : VolInfo} {name : Option CStr} {file : Option ProvObj} {m : Marking}
    (hr : markFile s info name file m = .ok s') : Quiet s s' := by
  unfold markFile at hr
  cases file with
  | none => cases hr
  | some file =>
    obtain ⟨⟨s₁, group⟩, h1, hr⟩ := bind_eq_ok.1 hr
    obtain ⟨_, _, hr⟩ := bind_eq_ok.1 hr
    cases group with
    | none => cases hr
    | some group =>
      obtain ⟨s₂, h2, hr⟩ := bind_eq_ok.1 hr
      obtain ⟨s₃, h3, hr⟩ := bind_eq_ok.1 hr
      exact (((objWrapUnder_quiet h1).trans (markAttr_quiet h2)).trans (markAttr_quiet h3)).trans (updHelper_quiet hr)

theorem wrapObject_quiet {a : Addr} {type : ObjType} {m : Made} {obj : Option ProvObj}
    (hr : wrapObject s a type m = .ok (s', obj)) : Quiet s s' := by
  unfold wrapObject at hr
  split at hr
  · cases hr
    exact .refl s
  · obtain ⟨⟨s₁, fake⟩, h1, hr⟩ := bind_eq_ok.1 hr
    obtain ⟨⟨s₂, w⟩, h2, hr⟩ := bind_eq_ok.1 hr
    obtain ⟨s₃, h3, hr⟩ := bind_eq_ok.1 hr
    cases hr
    exact ((onHelper_quiet h1).trans (objWrapUnder_quiet h2)).trans (updHelper_quiet h3)

theorem wrapFile_quiet {info : VolInfo} {name : Option CStr} {under : Option Under} {file : Option ProvObj}
    (hr : wrapFile s info name under = .ok (s', file)) : Quiet s s' := by
  unfold wrapFile at hr
  split at hr
  · cases hr
    exact .refl _
  · obtain ⟨s₁, h1, hr⟩ := bind_eq_ok.1 hr
    obtain ⟨⟨s₂, w⟩, h2, hr⟩ := bind_eq_ok.1 hr
    cases hr
    exact (ensureHelper_quiet h1).trans (onHelper_quiet h2)

theorem fileReopen_quiet {o : ProvObj} {ret : Bool} {under : Option Under} {file : Option ProvObj}
    (hr : fileReopen s o ret under = .ok (s', file)) : Quiet s s' := by
  unfold fileReopen at hr
  split at hr
  · obtain ⟨⟨s₁, w⟩, h1, hr⟩ := bind_eq_ok.1 hr
    cases hr
    exact onHelper_quiet h1
  · cases hr
    exact .refl _

theorem refreshBegin_quiet {specific : Specific} {o : ProvObj} {hold : Hold}
    (hr : refreshBegin s specific o = .ok (s', hold)) : Quiet s s' := by
  unfold refreshBegin at hr
  split at hr
  · cases hr
  · obtain ⟨_, _, hr⟩ := bind_eq_ok.1 hr
    exact onHelper_quiet hr

theorem closeOf_eq (k : ObjClass) : closeOf k = closeObject (rmNode k) := by
  cases k <;> rfl

/-! ## Callbacks that record -/

theorem makeObject_ok {k : ObjClass} {type relation io_api func : CStr} {o : ProvObj} {name : Option CStr} {m : Made}
    {t : Ticks} {obj : Option ProvObj} (hr : makeObject k type relation io_api func s o name m t = .ok (s', obj)) :
    ∃ s₁ n p, objWrapUnder s m o name (.obj k) = .ok (s₁, obj) ∧ name = some n ∧
      Logged s₁.process p [⟨n, type, relation, io_api⟩] ∧
      s' = { s₁ with process := p, records := s₁.records ++ [⟨n, type, relation, io_api⟩] } := by
  obtain ⟨⟨s₁, w⟩, h1, hr⟩ := bind_eq_ok.1 hr
  obtain ⟨s₂, h2, hr⟩ := bind_eq_ok.1 hr
  obtain ⟨s₃, h3, hr⟩ := bind_eq_ok.1 hr
  cases hr
  obtain ⟨n, p, hn, hp, rfl⟩ := fillRecord_ok (bind_eq_ok.2 ⟨s₂, h2, h3⟩)
  exact ⟨s₁, n, p, h1, hn, hp, rfl⟩

theorem attrOpen_ok {o : ProvObj} {name queried : Option CStr} {m : Made} {t : Ticks} {attr : Option ProvObj}
    (hr : attrOpen s o name queried m t = .ok (s', attr)) :
    ∃ s₁ n p, objWrapUnder s m o name (.obj .attr) = .ok (s₁, attr) ∧ name = some n ∧
      Logged s₁.process p [⟨n, cstr "provio:Attr", cstr "provio:wasOpenedBy", cstr "H5Aopen"⟩] ∧
      s' = { s₁ with process := p, records := s₁.records ++
        [⟨n, cstr "provio:Attr", cstr "provio:wasOpenedBy", cstr "H5Aopen"⟩] } := by
  obtain ⟨⟨s₁, w⟩, h1, hr⟩ := bind_eq_ok.1 hr
  generalize hq : (if m.under.isSome && name.isNone then queried else none) = attr_name at h1 hr
  cases attr_name with
  | some attr_name => cases hr
  | none =>
    obtain ⟨s₂, h2, hr⟩ := bind_eq_ok.1 hr
    obtain ⟨s₃, h3, hr⟩ := bind_eq_ok.1 hr
    cases hr
    obtain ⟨n, p, rfl, hp, rfl⟩ := fillRecord_ok (bind_eq_ok.2 ⟨s₂, h2, h3⟩)
    exact ⟨s₁, n, p, h1, rfl, hp, rfl⟩

theorem attrAccess_ok {relation io_api func : CStr} {ret ret' : Bool} {name : Option CStr} {t : Ticks}
    (hr : attrAccess relation io_api func s ret name t = .ok (s', ret')) :
    ∃ n p, name = some n ∧ Logged s.process p [⟨n, cstr "provio:Attr", relation, io_api⟩] ∧
      s' = { s with process := p, records := s.records ++ [⟨n, cstr "provio:Attr", relation, io_api⟩] } := by
  obtain ⟨s₂, h2, hr⟩ := bind_eq_ok.1 hr
  obtain ⟨s₃, h3, hr⟩ := bind_eq_ok.1 hr
  cases hr
  exact fillRecord_ok (bind_eq_ok.2 ⟨s₂, h2, h3⟩)

/-- The helper is kept, or has the dataset's counters bumped. -/
def Counted (s s' : Conn) (o : ProvObj) : Prop :=
  s'.PROV_HELPER = s.PROV_HELPER ∨ ∃ h h' f, s.PROV_HELPER = some h ∧ updateDs h o.generic_prov_info f = .ok h' ∧
    s'.PROV_HELPER = some h'

theorem countXfer_ok {o : ProvObj} {ret : Bool} {npoints : Option (BitVec 64)} {elapsed : BitVec 64} {x : Xfer}
    (hr : s.countXfer o ret npoints elapsed x = .ok s') : Counted s s' o ∧ s'.process = s.process ∧
      s'.records = s.records := by
  rcases onSuccess_eq_ok.1 hr with ⟨_, hr⟩ | ⟨_, rfl⟩
  · obtain ⟨h, h', hh, hf, rfl⟩ := updHelper_eq_ok.1 hr
    exact ⟨.inr ⟨h, h', _, hh, hf, rfl⟩, rfl, rfl⟩
  · exact ⟨.inl rfl, rfl, rfl⟩

theorem datasetRead_ok {o : ProvObj} {name : Option CStr} {stack : CStr} {ret ret' : Bool} {npoints : Option (BitVec 64)}
    {elapsed : BitVec 64} {t : Ticks} (hr : datasetRead s o name stack ret npoints elapsed t = .ok (s', ret')) :
    Counted s s' o ∧
      Logged s.process s'.process
        [⟨nameBuffer name stack, cstr "provio:Dataset", cstr "provio:wasReadBy", cstr "H5Dread"⟩] ∧
      s'.records = s.records ++
        [⟨nameBuffer name stack, cstr "provio:Dataset", cstr "provio:wasReadBy", cstr "H5Dread"⟩] := by
  obtain ⟨s₁, h1, hr⟩ := bind_eq_ok.1 hr
  obtain ⟨s₂, h2, hr⟩ := bind_eq_ok.1 hr
  obtain ⟨s₃, h3, hr⟩ := bind_eq_ok.1 hr
  cases hr
  obtain ⟨n, hn, rfl⟩ := fill_eq_ok.1 h1
  cases hn
  obtain ⟨hc, hp, hrec⟩ := countXfer_ok h2
  obtain ⟨p, hlog, rfl⟩ := record_ok h3
  rw [hp] at hlog
  exact ⟨hc, hlog.of_fields rfl, by simp only [hrec, hp]⟩

theorem datasetWrite_ok {o : ProvObj} {name : Option CStr} {stack : CStr} {ret ret' : Bool} {npoints : Option (BitVec 64)}
    {elapsed : BitVec 64} {t : Ticks} (hr : datasetWrite s o name stack ret npoints elapsed t = .ok (s', ret')) :
    Counted s s' o ∧
      Logged s.process s'.process
        [⟨nameBuffer name stack, cstr "provio:Dataset", cstr "provio:wasWrittenBy", cstr "H5Dwrite"⟩] ∧
      s'.records = s.records ++
        [⟨nameBuffer name stack, cstr "provio:Dataset", cstr "provio:wasWrittenBy", cstr "H5Dwrite"⟩] := by
  obtain ⟨s₁, h1, hr⟩ := bind_eq_ok.1 hr
  obtain ⟨s₂, h2, hr⟩ := bind_eq_ok.1 hr
  obtain ⟨s₃, h3, hr⟩ := bind_eq_ok.1 hr
  cases hr
  obtain ⟨hc, hp, hrec⟩ := countXfer_ok h1
  obtain ⟨n, p, hn, hlog, rfl⟩ := fillRecord_ok (bind_eq_ok.2 ⟨s₂, h2, h3⟩)
  cases hn
  rw [hp] at hlog
  exact ⟨hc, hlog, by simp only [hrec]⟩

theorem fileCall_ok {func : CStr} {info : VolInfo} {name : Option CStr} {under : Option Under} {m : Marking} {t : Ticks}
    {file : Option ProvObj} (hr : fileCall func s info name under m t = .ok (s', file)) :
    ∃ s₁ s₂ n p, wrapFile s info name under = .ok (s₁, file) ∧ name = some n ∧
      Logged s.process p [⟨n, cstr "provio:Datatype", cstr "provio:wasOpenedBy", cstr "H5Topen2"⟩] ∧
      s₂ = { s₁ with process := p, records := s.records ++
        [⟨n, cstr "provio:Datatype", cstr "provio:wasOpenedBy", cstr "H5Topen2"⟩] } ∧
      (s.process.fields.mpi_rank_int = 0 ∧ markFile s₂ info name file m = .ok s' ∨
        s.process.fields.mpi_rank_int ≠ 0 ∧ s' = s₂) := by
  unfold fileCall at hr
  obtain ⟨⟨s₁, w⟩, h1, hr⟩ := bind_eq_ok.1 hr
  obtain ⟨s₂, h2, hr⟩ := bind_eq_ok.1 hr
  obtain ⟨s₃, h3, hr⟩ := bind_eq_ok.1 hr
  obtain ⟨n, p, hn, hp, rfl⟩ := fillRecord_ok (bind_eq_ok.2 ⟨s₂, h2, h3⟩)
  have hq := wrapFile_quiet h1
  have hlog := hq.process.trans hp
  dsimp only at hr
  rw [hlog.rank] at hr
  split at hr
  · obtain ⟨s₄, h4, hr⟩ := bind_eq_ok.1 hr
    cases hr
    exact ⟨s₁, _, n, p, h1, hn, hlog, rfl, .inl ⟨‹_›, by rw [← hq.records]; exact h4⟩⟩
  · cases hr
    exact ⟨s₁, _, n, p, h1, hn, hlog, rfl, .inr ⟨‹_›, by rw [hq.records]⟩⟩

end

end Provio
