import Provio.ConfigText
import Provio.Objects
import Provio.Outcomes
/-!
# Ownership — the memory that `provio_term` takes back

Loading the connector copies the strings of its configuration, and every statement handed to the model is made first and
kept in the global `statement`; unloading frees what these pointers are then.  A string that a later line replaces is
lost, and so is every statement but the last.  These are the only blocks here: the file that `read_config` never closes,
the names and UUIDs of `provio.c` and what librdf and `stat.c` allocate are not.  No pointer is reset: the next
configuration clears its own, but `statement` keeps the address of what was freed until another statement is made.
-/
namespace Provio
namespace Ownership

open Objects (Inventory)

/-- A string of the configuration, or a statement of librdf. -/
inductive Item where
  | text (s : CStr)
  | statement (t : Statement)

/-- The blocks, the strings that the global `config` points to, and the global `statement`. -/
structure Mem where
  heap      : Objects.Heap Item
  config    : Key → Option Nat
  statement : Option Nat

def Mem.start : Mem := ⟨.empty, fun _ => none, none⟩

/-! ## `config.c` -/

/-- `free`, and `librdf_free_statement`; NULL is nothing to free. -/
def free (m : Mem) : Option Nat → Except Fault Mem
  | none   => .ok m
  | some p =>
    match m.heap.free p with
    | some heap => .ok { m with heap := heap }
    | none      => .error .freed

def strdup (m : Mem) (s : CStr) : Nat × Mem :=
  let (p, heap) := m.heap.alloc (.text s)
  (p, { m with heap := heap })

/-- `_set_params`: `val` is the copy that `_parse_val` makes. -/
def setParams (m : Mem) (key text : CStr) : Except Fault Mem :=
  let (val, m) := strdup m text
  let m := match keyOf key with
    | some k =>
      if k.isText then
        let (p, m) := strdup m text
        { m with config := Function.update m.config k (some p) }
      else m
    | none => m
  free m (some val)

/-- The loop of `read_config`, over the pieces of the file. -/
def readPieces (m : Mem) : List CStr → Except Fault Mem
  | []      => .ok m
  | l :: ls =>
    match lineOf l with
    | .comment         => readPieces m ls
    | .irregular       => .ok m
    | .marks           => .error .null
    | .setting key val => setParams m key val >>= fun m => readPieces m ls

/-- `memset`, `init_config`, and the path of the file as that of the statistics. -/
def readConfig (m : Mem) (file_path file : CStr) : Except Fault Mem :=
  let (p, m) := strdup { m with config := fun _ => none } file_path
  readPieces { m with config := Function.update m.config .statFilePath (some p) } (piecesOf file)

/-- The strings that `free_config` frees, in its order. -/
def texts : List Key := [.baseUri, .provPrefix, .statFilePath, .newGraphPath, .legacyGraphPath, .format]

def freeConfig (m : Mem) : Except Fault Mem := texts.foldlM (fun m k => free m (m.config k)) m

/-! ## `provio.c` -/

/-- `statement = librdf_new_statement_from_nodes(...)`, which is then added to the model as a copy. -/
def newStatement (m : Mem) (t : Statement) : Mem :=
  let (p, heap) := m.heap.alloc (.statement t)
  { m with heap := heap, statement := some p }

def provioTerm (m : Mem) : Except Fault Mem := do
  let m ← free m m.statement
  freeConfig m

/-! ## Loads -/

/-- A load, and the file that its configuration is read from. -/
structure Visit where
  load : Load
  path : CStr
  file : CStr
  read : ∃ r p, Provio.readConfig path (some file) = .ok (r, p) ∧ p.config.toProvConfig = load.input.config

/-- A load with its memory.  Nothing is freed between `provio_init` and `provio_term`, so what is made meanwhile may be
made at the end: the statements that the model has by then, less those it was loaded with. -/
def Visit.run (v : Visit) (p : Process) (m : Mem) : Except Fault (Process × Mem) := do
  let m ← readConfig m v.path v.file
  let w ← runCallbacks v.load.callbacks ⟨.init p v.load.input, .init, []⟩
  let (p, _) ← provHelperTeardown w.conn
  let m := (p.model_prov.drop (loadedGraph v.load.input).length).foldl newStatement m
  let m ← provioTerm m
  pure (Provio.provioTerm p, m)

def runVisits : Process → Mem → List Visit → Except Fault (Process × Mem)
  | p, m, []      => .ok (p, m)
  | p, m, v :: vs => v.run p m >>= fun r => runVisits r.1 r.2 vs

/-! ## What each function keeps -/

/-- The global `statement`, and that what was freed stays so. -/
structure Keeps (m m' : Mem) : Prop where
  statement : m'.statement = m.statement
  stale     : ∀ a, m.heap.Stale a → m'.heap.Stale a

theorem Keeps.refl (m : Mem) : Keeps m m := ⟨rfl, fun _ h => h⟩

section

variable {m m₁ m' : Mem}

theorem Keeps.trans (h : Keeps m m₁) (h' : Keeps m₁ m') : Keeps m m' :=
  ⟨h'.statement.trans h.statement, fun a ha => h'.stale a (h.stale a ha)⟩

theorem keeps_strdup (m : Mem) (s : CStr) : Keeps m (strdup m s).2 := ⟨rfl, fun _ h => h.alloc _⟩

theorem keeps_config (m : Mem) (config : Key → Option Nat) : Keeps m { m with config := config } := ⟨rfl, fun _ h => h⟩

theorem keeps_free {p : Option Nat} (hr : free m p = .ok m') : Keeps m m' := by
  unfold free at hr
  cases p with
  | none =>
    cases hr
    exact .refl m
  | some p =>
    dsimp only at hr
    cases hf : m.heap.free p with
    | none =>
      rw [hf] at hr
      cases hr
    | some heap =>
      rw [hf] at hr
      cases hr
      exact ⟨rfl, fun _ h => h.free hf⟩

theorem free_of {p : Nat} {heap : Objects.Heap Item} (hf : m.heap.free p = some heap) :
    free m (some p) = .ok { m with heap := heap } := by
  unfold free
  dsimp only
  rw [hf]

/-! ## The strings of the configuration -/

/-- The pointers of the keys in `ks` are blocks of their own, the others are NULL, and `lost` are the other blocks. -/
structure Holds (m : Mem) (f : Key → Option (Nat × Item)) (ks : List Key) (lost : List (Nat × Item)) : Prop where
  config : ∀ k, m.config k = (f k).map Prod.fst
  keys   : ∀ k, (f k).isSome ↔ k ∈ ks
  blocks : Inventory m.heap (texts.filterMap f ++ lost)

variable {f : Key → Option (Nat × Item)} {ks : List Key} {lost : List (Nat × Item)} {k : Key}

theorem filterMap_perm (hk : k ∈ texts) (f : Key → Option (Nat × Item)) :
    (texts.filterMap f).Perm ((f k).toList ++ (texts.erase k).filterMap f) := by
  have h := (List.perm_cons_erase hk).filterMap f
  rw [List.filterMap_cons] at h
  cases hf : f k with
  | none =>
    rw [hf] at h
    exact h
  | some x =>
    rw [hf] at h
    exact h

theorem filterMap_update (hk : k ∈ texts) (f : Key → Option (Nat × Item)) (x : Nat × Item) :
    (texts.filterMap (Function.update f k (some x))).Perm (x :: (texts.erase k).filterMap f) := by
  have hnodup : texts.Nodup := by decide
  have hrest : (texts.erase k).filterMap (Function.update f k (some x)) = (texts.erase k).filterMap f := by
    refine List.filterMap_congr fun k' hk' => Function.update_of_ne ?_ _ _
    rintro rfl
    exact hnodup.not_mem_erase hk'
  have h := filterMap_perm hk (Function.update f k (some x))
  rw [Function.update_self, hrest] at h
  exact h

theorem Holds.strdup (h : Holds m f ks lost) (s : CStr) :
    Holds (Ownership.strdup m s).2 f ks (((Ownership.strdup m s).1, .text s) :: lost) :=
  ⟨h.config, h.keys, (h.blocks.alloc (.text s)).perm List.perm_middle.symm⟩

/-- **A string that is set is kept, and the one it replaces is lost.** -/
theorem Holds.assign (h : Holds m f ks lost) (hk : k ∈ texts) (s : CStr) : ∃ f' more,
    Holds { (Ownership.strdup m s).2 with config := Function.update m.config k (some (Ownership.strdup m s).1) } f' (k :: ks)
      (more ++ lost) ∧ (texts.filterMap f').length + more.length = (texts.filterMap f).length + 1 := by
  obtain ⟨p, hp⟩ : ∃ p, p = (Ownership.strdup m s).1 := ⟨_, rfl⟩
  have hperm := filterMap_perm hk f
  have hperm' := filterMap_update hk f (p, .text s)
  refine ⟨Function.update f k (some (p, .text s)), (f k).toList, ⟨fun k' => ?_, fun k' => ?_, ?_⟩, ?_⟩
  · rw [← hp]
    by_cases hk' : k' = k
    · subst hk'
      simp
    · simp [h.config, hk']
  · by_cases hk' : k' = k
    · subst hk'
      simp
    · simp [h.keys, hk']
  · have hblocks := (h.blocks.alloc (.text s)).perm ((hperm.append_right lost).cons _)
    have hswap : ((f k).toList ++ (texts.erase k).filterMap f ++ lost).Perm
        ((texts.erase k).filterMap f ++ ((f k).toList ++ lost)) := by
      rw [← List.append_assoc]
      exact List.perm_append_comm.append_right lost
    refine hblocks.perm ((hswap.cons _).trans ?_)
    rw [show (m.heap.alloc (.text s)).1 = p from hp.symm]
    exact hperm'.symm.append_right _
  · rw [hperm'.length_eq, hperm.length_eq, List.length_append, List.length_cons]
    omega

theorem Holds.free {l : List (Nat × Item)} {x : Nat × Item} (h : Holds m f ks (l ++ x :: lost)) :
    ∃ m', Ownership.free m (some x.1) = .ok m' ∧ Holds m' f ks (l ++ lost) := by
  have hblocks := h.blocks
  rw [← List.append_assoc] at hblocks
  obtain ⟨heap, hf, hi⟩ := hblocks.freeAt
  refine ⟨{ m with heap := heap }, free_of hf, h.config, h.keys, ?_⟩
  rw [← List.append_assoc]
  exact hi

def textKey (l : CStr) : Option Key :=
  match lineOf l with
  | .setting key _ => (keyOf key).filter Key.isText
  | _              => none

theorem isText_iff {k : Key} : k.isText = true ↔ k ∈ texts := by cases k <;> decide

theorem Holds.setParams (h : Holds m f ks lost) (key text : CStr) :
    ∃ m' f' more, Ownership.setParams m key text = .ok m' ∧ Keeps m m' ∧
      Holds m' f' (((keyOf key).filter Key.isText).toList ++ ks) (more ++ lost) ∧
      (texts.filterMap f').length + more.length =
        (texts.filterMap f).length + ((keyOf key).filter Key.isText).toList.length := by
  have hcopy := h.strdup text
  unfold Ownership.setParams
  cases hk : keyOf key with
  | none =>
    obtain ⟨m', hf, hm'⟩ := Holds.free (l := []) hcopy
    exact ⟨m', f, [], hf, (keeps_strdup m text).trans (keeps_free hf), hm', rfl⟩
  | some k =>
    cases ht : k.isText with
    | false =>
      obtain ⟨m', hf, hm'⟩ := Holds.free (l := []) hcopy
      rw [show (some k).filter Key.isText = none by simp [ht]]
      refine ⟨m', f, [], ?_, (keeps_strdup m text).trans (keeps_free hf), hm', rfl⟩
      dsimp only
      rw [ht, if_neg Bool.false_ne_true]
      exact hf
    | true =>
      obtain ⟨f', more, hset, hlen⟩ := hcopy.assign (isText_iff.1 ht) text
      obtain ⟨m', hf, hm'⟩ := hset.free
      rw [show (some k).filter Key.isText = some k by simp [ht]]
      refine ⟨m', f', more, ?_, ?_, hm', hlen⟩
      · dsimp only
        rw [ht, if_pos rfl]
        exact hf
      · have hcopies := (keeps_strdup m text).trans (keeps_strdup _ text)
        exact hcopies.trans ((keeps_config _ _).trans (keeps_free hf))

/-- **The loop keeps the last string of each key**; the others of the file are lost. -/
theorem Holds.readPieces : ∀ (ls : List CStr), (∀ l ∈ readable ls, lineOf l ≠ .marks) → ∀ {m : Mem}
    {f : Key → Option (Nat × Item)} {ks : List Key} {lost : List (Nat × Item)}, Holds m f ks lost →
    ∃ m' f' more ks', Ownership.readPieces m ls = .ok m' ∧ Keeps m m' ∧ Holds m' f' ks' (more ++ lost) ∧
      (∀ k, k ∈ ks' ↔ k ∈ ks ∨ k ∈ (readable ls).filterMap textKey) ∧
      (texts.filterMap f').length + more.length = (texts.filterMap f).length + ((readable ls).filterMap textKey).length
  | [], _, m, f, ks, lost, h => ⟨m, f, [], ks, rfl, .refl m, h, by simp [readable], by simp [readable]⟩
  | l :: ls, hmarks, m, f, ks, lost, h => by
    have hread : lineOf l ≠ .irregular → readable (l :: ls) = l :: readable ls := fun hl => by simp [readable, hl]
    unfold Ownership.readPieces
    cases hl : lineOf l with
    | irregular =>
      have hnone : readable (l :: ls) = [] := by simp [readable, hl]
      rw [hnone]
      exact ⟨m, f, [], ks, rfl, .refl m, h, by simp, by simp⟩
    | marks =>
      rw [hread (by simp [hl])] at hmarks
      exact absurd hl (hmarks l List.mem_cons_self)
    | comment =>
      rw [hread (by simp [hl])] at hmarks ⊢
      rw [List.filterMap_cons_none (by simp [textKey, hl])]
      exact Holds.readPieces ls (fun l' hl' => hmarks l' (List.mem_cons_of_mem _ hl')) h
    | setting key val =>
      rw [hread (by simp [hl])] at hmarks ⊢
      obtain ⟨m₁, f₁, more₁, hset, hkeep₁, h₁, hlen₁⟩ := h.setParams key val
      obtain ⟨m', f', more', ks', hrest, hkeep, h', hks, hlen⟩ :=
        Holds.readPieces ls (fun l' hl' => hmarks l' (List.mem_cons_of_mem _ hl')) h₁
      have hkey : textKey l = (keyOf key).filter Key.isText := by simp [textKey, hl]
      refine ⟨m', f', more' ++ more₁, ks', ?_, hkeep₁.trans hkeep, by rw [List.append_assoc]; exact h', fun k => ?_, ?_⟩
      · dsimp only
        rw [hset]
        exact hrest
      · rw [hks, List.filterMap_cons, hkey]
        cases (keyOf key).filter Key.isText <;> simp [or_assoc, or_left_comm]
      · rw [List.filterMap_cons, hkey, List.length_append]
        cases hf : (keyOf key).filter Key.isText with
        | none =>
          rw [hf] at hlen₁
          simp only [Option.toList_none, List.length_nil] at hlen₁
          dsimp only
          omega
        | some k =>
          rw [hf] at hlen₁
          simp only [Option.toList_some, List.length_singleton] at hlen₁
          simp only [List.length_cons]
          omega

theorem Holds.length (h : Holds m f ks lost) (hks : ∀ k ∈ ks, k ∈ texts) :
    (texts.filterMap f).length = ks.dedup.length := by
  have hperm : (texts.filter (· ∈ ks)).Perm ks.dedup := by
    refine (List.perm_ext_iff_of_nodup (List.Nodup.filter _ (by decide)) ks.nodup_dedup).2 fun k => ?_
    simp only [List.mem_filter, decide_eq_true_eq, List.mem_dedup]
    exact ⟨fun hk => hk.2, fun hk => ⟨hks k hk, hk⟩⟩
  have hkeys : (fun k => (f k).isSome) = fun k => decide (k ∈ ks) := by
    funext k
    rw [Bool.eq_iff_iff, h.keys, decide_eq_true_eq]
  rw [List.length_filterMap_eq_countP, hkeys, List.countP_eq_length_filter]
  exact hperm.length_eq

/-- **`free_config` frees each string that is still held, once.** -/
theorem freeTexts : ∀ (ks : List Key) {m : Mem}, (∀ k, m.config k = (f k).map Prod.fst) →
    Inventory m.heap (ks.filterMap f ++ lost) →
    ∃ m', ks.foldlM (fun m k => free m (m.config k)) m = .ok m' ∧ Keeps m m' ∧ Inventory m'.heap lost
  | [], m, _, hi => ⟨m, rfl, .refl m, hi⟩
  | k :: ks, m, hconfig, hi => by
    rw [List.filterMap_cons] at hi
    rw [List.foldlM_cons]
    cases hk : f k with
    | none =>
      rw [hk] at hi
      obtain ⟨m', hr, hkeep, hi'⟩ := freeTexts ks hconfig hi
      refine ⟨m', ?_, hkeep, hi'⟩
      rw [show m.config k = none by rw [hconfig k, hk]; rfl]
      exact hr
    | some x =>
      rw [hk] at hi
      obtain ⟨heap, hf, hi₁⟩ := hi.free
      have hfree : free m (m.config k) = .ok { m with heap := heap } := by
        rw [show m.config k = some x.1 by rw [hconfig k, hk]; rfl]
        exact free_of hf
      obtain ⟨m', hr, hkeep, hi'⟩ := freeTexts ks (m := { m with heap := heap }) hconfig hi₁
      refine ⟨m', ?_, (keeps_free hfree).trans hkeep, hi'⟩
      rw [hfree]
      exact hr

/-! ## The statements -/

/-- **The last of the statements made is the one `statement` points to.** -/
theorem make_statements : ∀ (ts : List Statement) {m : Mem} {items : List (Nat × Item)}, Inventory m.heap items →
    ∃ made, Inventory (ts.foldl newStatement m).heap (made ++ items) ∧ made.length = ts.length ∧
      (ts.foldl newStatement m).config = m.config ∧ (∀ a, m.heap.Stale a → (ts.foldl newStatement m).heap.Stale a) ∧
      (ts = [] ∨ ∃ x rest, made = x :: rest ∧ (ts.foldl newStatement m).statement = some x.1)
  | [], m, items, hi => ⟨[], hi, rfl, rfl, fun _ h => h, .inl rfl⟩
  | t :: ts, m, items, hi => by
    obtain ⟨made, hi', hlen, hconfig, hstale, hlast⟩ := make_statements ts (m := newStatement m t) (hi.alloc (.statement t))
    refine ⟨made ++ [(m.heap.next, .statement t)], ?_, by simp [hlen], hconfig, fun a ha => hstale a (ha.alloc _), .inr ?_⟩
    · rw [List.append_assoc]
      exact hi'
    · rcases hlast with rfl | ⟨x, rest, rfl, hx⟩
      · obtain rfl := List.length_eq_zero_iff.1 hlen
        exact ⟨_, [], rfl, rfl⟩
      · exact ⟨x, rest ++ [_], rfl, hx⟩

end

/-! ## What a load makes -/

/-- The statements a load makes: none if it records nothing; otherwise those of its records, if they go to a graph, and its
program's. -/
def made (l : Load) (past : Past) : List Statement :=
  if l.noted = [] then []
  else
    (if isGraph l.input.config then
      once past.user (userPart l.input.config l.input.fields.user_name) ++
        once past.rank (rankPart l.input.config l.input.fields.mpi_rank l.input.fields.user_name) ++
        l.records.flatMap (Record.statements l.input.config l.input.fields.proc_name)
    else []) ++
    once past.program (programPart l.input.config l.input.fields.proc_name l.input.fields.mpi_rank l.input.start_time) ++
    endPart l.input.config l.input.fields.proc_name l.input.end_time

def madeBy : Past → List Load → List (List Statement)
  | _, []         => []
  | past, l :: ls => made l past :: madeBy (l.leaves past) ls

theorem emitted_not_graph {config : ProvConfig} (hg : isGraph config = false) : ∀ (ops : List SessionOp) (fields : ProvFields),
    emitted config fields ops = []
  | [], _ => rfl
  | op :: ops, fields => by
    rw [emitted, emitted_not_graph hg ops, List.append_nil]
    cases op <;> simp [SessionOp.part, hg]

theorem session_graph_made {l : Load} (hne : l.noted ≠ []) (p : Process) :
    l.session.graph p = loadedGraph l.input ++ made l p.past := by
  unfold made
  rw [if_neg hne]
  cases hg : isGraph l.input.config with
  | true =>
    rw [Load.session_graph hne hg, Load.graph, if_pos rfl]
    simp only [List.append_assoc]
  | false =>
    unfold Session.graph
    rw [show l.session.ops = l.noted.flatMap Noted.ops from rfl, show l.session.input = l.input from rfl,
      tracksAgents_noted hne, hg, if_neg Bool.false_ne_true, emitted_not_graph hg]
    simp only [List.append_nil, List.nil_append, List.append_assoc, Bool.false_eq_true, if_false]
    rfl

/-- **What the model has been given when it is torn down**: what it was loaded with, and what the load made. -/
theorem model_of_run {l : Load} {p q : Process} {out : SessionOutput} (hp : p.helper = none) (hr : l.run p = .ok (q, out)) :
    ∃ w r, runCallbacks l.callbacks ⟨.init p l.input, .init, []⟩ = .ok w ∧ provHelperTeardown w.conn = .ok (r, out) ∧
      q = Provio.provioTerm r ∧ r.model_prov = loadedGraph l.input ++ made l p.past := by
  obtain ⟨w, hcs, -, ⟨hn, hh, hproc, rfl, rfl⟩ | ⟨hne, p₀, p₁, r, o, h⟩⟩ := Load.run_started hp hr
  · refine ⟨w, provioInit p l.input, hcs, ?_, rfl, ?_⟩
    · unfold provHelperTeardown
      rw [hh, hproc]
    · rw [made, if_pos hn, List.append_nil]
      rfl
  · refine ⟨w, _, hcs, h.teardown, h.term, ?_⟩
    have hsome : p₀.helper ≠ none := Noted.helper_of_all hne h.ops
    obtain ⟨fields, counts, t, -, hteardown⟩ := Session.teardown_eq (s := l.session) h.init hsome h.ops
    cases h.down.symm.trans hteardown
    exact session_graph_made hne p

/-! ## A load with its memory -/

namespace Visit

/-- The text keys that are set, the path of the statistics first. -/
def sets (v : Visit) : List Key := .statFilePath :: (readable (piecesOf v.file)).filterMap textKey

def lost (v : Visit) : Nat := v.sets.length - v.sets.dedup.length

variable {v : Visit} {m : Mem} {items : List (Nat × Item)}

theorem readable_marks (v : Visit) : ∀ l ∈ readable (piecesOf v.file), lineOf l ≠ .marks := by
  obtain ⟨r, p, hr, -⟩ := v.read
  rw [readConfig_eq] at hr
  obtain ⟨c, hc, -⟩ := bind_eq_ok.1 hr
  exact (runPieces_eq_ok.1 hc).1

theorem sets_texts (v : Visit) : ∀ k ∈ v.sets, k ∈ texts := by
  intro k hk
  rcases List.mem_cons.1 hk with rfl | hk
  · decide
  · obtain ⟨l, -, hl⟩ := List.mem_filterMap.1 hk
    unfold textKey at hl
    split at hl
    · exact isText_iff.1 (Option.filter_eq_some_iff.1 hl).2
    · cases hl

theorem readConfig_holds (v : Visit) (hi : Inventory m.heap items) : ∃ m' f more ks,
    Ownership.readConfig m v.path v.file = .ok m' ∧ Keeps m m' ∧ Holds m' f ks (more ++ items) ∧ more.length = v.lost := by
  have hempty : Holds { m with config := fun _ => none } (fun _ => none) [] items :=
    ⟨fun _ => rfl, fun k => by simp, hi⟩
  obtain ⟨f₁, more₁, h₁, hlen₁⟩ := hempty.assign (k := .statFilePath) (by decide) v.path
  obtain ⟨m', f, more, ks, hr, hkeep, h', hks, hlen⟩ := Holds.readPieces (piecesOf v.file) v.readable_marks h₁
  refine ⟨m', f, more ++ more₁, ks, hr, ?_, by rw [List.append_assoc]; exact h', ?_⟩
  · exact (keeps_config m _).trans ((keeps_strdup _ v.path).trans ((keeps_config _ _).trans hkeep))
  · have hsets : ∀ k, (f k).isSome ↔ k ∈ v.sets := by
      intro k
      rw [h'.keys, hks]
      simp [sets]
    have hheld := Holds.length ⟨h'.config, hsets, h'.blocks⟩ v.sets_texts
    have hcount : v.sets.length = ((readable (piecesOf v.file)).filterMap textKey).length + 1 := rfl
    have hnone : (texts.filterMap fun _ => (none : Option (Nat × Item))).length = 0 := by simp
    rw [List.length_append, lost]
    omega

/-- **Unloading frees the strings that are held and the last statement**, -/
theorem provioTerm_last {f : Key → Option (Nat × Item)} {more : List (Nat × Item)} {x : Nat × Item}
    (hconfig : ∀ k, m.config k = (f k).map Prod.fst) (hi : Inventory m.heap (x :: (texts.filterMap f ++ more)))
    (hx : m.statement = some x.1) : ∃ m', Ownership.provioTerm m = .ok m' ∧ Inventory m'.heap more ∧
      m'.statement = some x.1 ∧ m'.heap.Stale x.1 := by
  obtain ⟨heap, hf, hi₁⟩ := hi.free
  have hfree : free m m.statement = .ok { m with heap := heap } := (congrArg (free m) hx).trans (free_of hf)
  obtain ⟨m', hr, hkeep, hi'⟩ := freeTexts texts (m := { m with heap := heap }) hconfig hi₁
  refine ⟨m', ?_, hi', hkeep.statement.trans hx, hkeep.stale _ (Objects.Heap.stale_of_free hi hf)⟩
  unfold Ownership.provioTerm
  rw [hfree]
  exact hr

/-- or only the strings, as long as no statement has been made; -/
theorem provioTerm_first {f : Key → Option (Nat × Item)} {more : List (Nat × Item)}
    (hconfig : ∀ k, m.config k = (f k).map Prod.fst) (hi : Inventory m.heap (texts.filterMap f ++ more))
    (hnone : m.statement = none) : ∃ m', Ownership.provioTerm m = .ok m' ∧ Inventory m'.heap more ∧ m'.statement = none := by
  obtain ⟨m', hr, hkeep, hi'⟩ := freeTexts texts hconfig hi
  refine ⟨m', ?_, hi', hkeep.statement.trans hnone⟩
  unfold Ownership.provioTerm
  rw [hnone]
  exact hr

/-- but a statement that was freed before is freed again. -/
theorem provioTerm_stale {a : Nat} (ha : m.statement = some a) (hs : m.heap.Stale a) :
    Ownership.provioTerm m = .error .freed := by
  unfold Ownership.provioTerm free
  rw [ha]
  dsimp only
  rw [hs.not_free]
  rfl

theorem run_eq {p q : Process} {out : SessionOutput} (hp : p.helper = none) (hr : v.load.run p = .ok (q, out)) (m : Mem) :
    v.run p m = Ownership.readConfig m v.path v.file >>= fun m =>
      Ownership.provioTerm ((made v.load p.past).foldl newStatement m) >>= fun m => pure (q, m) := by
  obtain ⟨w, r, hcs, hdown, rfl, hmodel⟩ := model_of_run hp hr
  unfold Visit.run
  cases Ownership.readConfig m v.path v.file with
  | error e => rfl
  | ok m₁ =>
    rw [ok_bind, ok_bind, hcs, ok_bind, hdown, ok_bind]
    dsimp only
    rw [hmodel, List.drop_left]

end Visit

/-! ## Loads one after the other -/

/-- Between two loads: as many blocks are lost, and `statement` points to nothing, or to what was freed if a load has made
any. -/
structure Between (m : Mem) (before : Bool) (lost : Nat) : Prop where
  blocks    : ∃ items, Inventory m.heap items ∧ items.length = lost
  statement : if before then ∃ a, m.statement = some a ∧ m.heap.Stale a else m.statement = none

theorem between_start : Between .start false 0 := ⟨⟨[], .empty, rfl⟩, rfl⟩

section

variable {v : Visit} {m : Mem} {p q : Process} {out : SessionOutput} {before : Bool} {lost : Nat}

/-- **A load that makes a statement, or none has made any before, frees what it holds.** -/
theorem Between.run (h : Between m before lost) (hp : p.helper = none) (hr : v.load.run p = .ok (q, out))
    (hsafe : before = true → made v.load p.past ≠ []) : ∃ m', v.run p m = .ok (q, m') ∧
      Between m' (before || !(made v.load p.past).isEmpty) (lost + v.lost + ((made v.load p.past).length - 1)) := by
  obtain ⟨⟨items, hi, hitems⟩, hst⟩ := h
  obtain ⟨m₁, f, more, ks, hread, hkeep, hheld, hmore⟩ := v.readConfig_holds hi
  obtain ⟨new, hi₂, hlen, hconfig, -, hlast⟩ := make_statements (made v.load p.past) hheld.blocks
  have hptrs : ∀ k, ((made v.load p.past).foldl newStatement m₁).config k = (f k).map Prod.fst := by
    intro k
    rw [hconfig, hheld.config]
  rw [Visit.run_eq hp hr, hread, ok_bind]
  rcases hlast with hnil | ⟨x, rest, rfl, hx⟩
  · -- nothing is made, and nothing has been
    cases before with
    | true => exact absurd hnil (hsafe rfl)
    | false =>
      rw [hnil] at hptrs hi₂ hlen ⊢
      obtain rfl := List.length_eq_zero_iff.1 hlen
      obtain ⟨m', hterm, hi', hnone⟩ := Visit.provioTerm_first hptrs hi₂ (hkeep.statement.trans hst)
      refine ⟨m', by rw [hterm]; rfl, ⟨more ++ items, hi', ?_⟩, hnone⟩
      simp only [List.length_append, List.length_nil]
      omega
  · have hperm : (x :: rest ++ (texts.filterMap f ++ (more ++ items))).Perm
        (x :: (texts.filterMap f ++ (rest ++ (more ++ items)))) :=
      (List.perm_append_comm_assoc rest _ _).cons x
    obtain ⟨m', hterm, hi', hstat, hstale⟩ := Visit.provioTerm_last hptrs (hi₂.perm hperm) hx
    have hne : (made v.load p.past).isEmpty = false := by
      cases hm : made v.load p.past with
      | nil =>
        rw [hm] at hlen
        cases hlen
      | cons t ts => rfl
    refine ⟨m', by rw [hterm]; rfl, ⟨rest ++ (more ++ items), hi', ?_⟩, ?_⟩
    · rw [List.length_cons] at hlen
      simp only [List.length_append]
      omega
    · rw [hne, Bool.not_false, Bool.or_true, if_pos rfl]
      exact ⟨x.1, hstat, hstale⟩

/-- **A load that makes none after one that did frees a statement again.** -/
theorem Between.run_freed (h : Between m true lost) (hp : p.helper = none) (hr : v.load.run p = .ok (q, out))
    (hnil : made v.load p.past = []) : v.run p m = .error .freed := by
  obtain ⟨⟨items, hi, -⟩, hst⟩ := h
  obtain ⟨a, ha, hstale⟩ := hst
  obtain ⟨m₁, f, more, ks, hread, hkeep, -, -⟩ := v.readConfig_holds hi
  rw [Visit.run_eq hp hr, hread, ok_bind, hnil]
  dsimp only [List.foldl_nil]
  rw [Visit.provioTerm_stale (hkeep.statement.trans ha) (hkeep.stale a hstale)]
  rfl

/-- No load that makes nothing comes after one that made something, nor after any before the first if one has. -/
def Safe (before : Bool) (ms : List (List Statement)) : Prop :=
  (before = true → ∀ ts ∈ ms, ts ≠ []) ∧ ms.Pairwise fun a b => b = [] → a = []

theorem safe_cons {ts : List Statement} {ms : List (List Statement)} :
    Safe before (ts :: ms) ↔ (before = true → ts ≠ []) ∧ Safe (before || !ts.isEmpty) ms := by
  unfold Safe
  rw [List.pairwise_cons]
  cases before <;> cases ts <;> simp

def lostBy (past : Past) (vs : List Visit) : Nat :=
  (vs.map Visit.lost).sum + ((madeBy past (vs.map Visit.load)).map (·.length - 1)).sum

theorem runVisits_safe : ∀ (vs : List Visit) {p q : Process} {m : Mem} {before : Bool} {lost : Nat}, Between m before lost →
    p.helper = none → runLoads p (vs.map Visit.load) = .ok q → Safe before (madeBy p.past (vs.map Visit.load)) →
    ∃ m' after, runVisits p m vs = .ok (q, m') ∧ Between m' after (lost + lostBy p.past vs)
  | [], p, q, m, before, lost, h, _, hr, _ => by
    cases hr
    exact ⟨m, before, rfl, h⟩
  | v :: vs, p, q, m, before, lost, h, hp, hr, hsafe => by
    obtain ⟨⟨p₁, out⟩, hload, hr⟩ := bind_eq_ok.1 hr
    obtain ⟨hp₁, hpast⟩ := Load.run_leaves hp hload
    obtain ⟨hfirst, hrest⟩ := safe_cons.1 hsafe
    obtain ⟨m₁, h₁, hb₁⟩ := h.run hp hload hfirst
    rw [← hpast] at hrest
    obtain ⟨m', after, hvs, hb⟩ := runVisits_safe vs hb₁ hp₁ hr hrest
    refine ⟨m', after, bind_eq_ok.2 ⟨_, h₁, hvs⟩, ?_⟩
    have hlost : lost + lostBy p.past (v :: vs) =
        lost + v.lost + ((made v.load p.past).length - 1) + lostBy p₁.past vs := by
      simp only [lostBy, List.map_cons, madeBy, List.sum_cons, hpast]
      omega
    rw [hlost]
    exact hb

theorem runVisits_unsafe : ∀ (vs : List Visit) {p q : Process} {m : Mem} {before : Bool} {lost : Nat},
    Between m before lost → p.helper = none → runLoads p (vs.map Visit.load) = .ok q →
    ¬ Safe before (madeBy p.past (vs.map Visit.load)) → runVisits p m vs = .error .freed
  | [], p, q, m, before, lost, _, _, _, hsafe => by
    exact absurd ⟨fun _ ts hts => (by cases hts), .nil⟩ hsafe
  | v :: vs, p, q, m, before, lost, h, hp, hr, hsafe => by
    obtain ⟨⟨p₁, out⟩, hload, hr⟩ := bind_eq_ok.1 hr
    obtain ⟨hp₁, hpast⟩ := Load.run_leaves hp hload
    rw [List.map_cons, madeBy, safe_cons, ← hpast] at hsafe
    by_cases hfirst : before = true → made v.load p.past ≠ []
    · obtain ⟨m₁, h₁, hb₁⟩ := h.run hp hload hfirst
      have hrest := runVisits_unsafe vs hb₁ hp₁ hr fun hs => hsafe ⟨hfirst, hs⟩
      rw [runVisits, h₁]
      exact hrest
    · rw [Classical.not_imp, not_not] at hfirst
      obtain ⟨rfl, hnil⟩ := hfirst
      rw [runVisits, h.run_freed hp hload hnil]
      rfl

end

/-- **What the process's loads free.**  The strings of a configuration are freed once each.  The statement that is freed has
been freed before exactly when a load that makes none comes after one that made some; otherwise what is left in the end, of
strings and statements, are those that were replaced in each configuration and all but the last of each load. -/
theorem runVisits_frees {vs : List Visit} {p : Process} (hr : runLoads .start (vs.map Visit.load) = .ok p) :
    if (madeBy Process.start.past (vs.map Visit.load)).Pairwise (fun a b => b = [] → a = []) then
      ∃ m items, runVisits .start .start vs = .ok (p, m) ∧ Inventory m.heap items ∧
        items.length = lostBy Process.start.past vs
    else runVisits .start .start vs = .error .freed := by
  have hsafe : Safe false (madeBy Process.start.past (vs.map Visit.load)) ↔
      (madeBy Process.start.past (vs.map Visit.load)).Pairwise fun a b => b = [] → a = [] :=
    and_iff_right fun h => by cases h
  split
  · rename_i hpair
    obtain ⟨m, after, hvs, ⟨items, hi, hlen⟩, -⟩ := runVisits_safe vs between_start rfl hr (hsafe.2 hpair)
    exact ⟨m, items, hvs, hi, by rw [hlen, Nat.zero_add]⟩
  · rename_i hpair
    exact runVisits_unsafe vs between_start rfl hr fun hs => hpair (hsafe.1 hs)

/-- The configuration of `datasetLoad`, with nothing for the keys that it lacks. -/
def fullParsed : ParsedConfig := { fullConfig with prov_base_uri := none, prov_prefix := none }

theorem fullParsed_writable : fullParsed.Writable := by
  intro k
  cases k with
  | baseUri | provPrefix | legacyGraphPath =>
    intro h
    cases h
  | statFilePath | newGraphPath | format => exact ⟨by decide, by decide, by decide⟩
  | numOfApis => exact ⟨by decide, by decide⟩
  | provLevel => exact (by decide : 2 < 2 ^ 32)
  | _ => trivial

def visitOf {c : ParsedConfig} (hc : c.Writable) (l : Load) (h : l.input.config = c.toProvConfig) : Visit where
  load := l
  path := cstr "/p.cfg"
  file := c.print Key.all
  read := ⟨0, _, readConfig_print hc (fun k => by cases k <;> decide) _, h.symm⟩

def idleVisit : Visit := visitOf fullParsed_writable ⟨rankZeroInput, []⟩ rfl

def datasetVisit : Visit := visitOf fullParsed_writable datasetLoad rfl

/-- A load in which no file is opened, before and after one with a dataset. -/
theorem runVisits_frees_idle :
    (∃ p m items, runVisits .start .start [idleVisit, datasetVisit] = .ok (p, m) ∧
      Inventory m.heap items ∧
      items.length = lostBy Process.start.past [idleVisit, datasetVisit]) ∧
    runVisits .start .start [datasetVisit, idleVisit] = .error .freed := by
  obtain ⟨p, hp⟩ : ∃ p, runLoads .start [⟨rankZeroInput, []⟩, datasetLoad] = .ok p := ⟨_, rfl⟩
  obtain ⟨q, hq⟩ : ∃ q, runLoads .start [datasetLoad, ⟨rankZeroInput, []⟩] = .ok q := ⟨_, rfl⟩
  have hmade : made datasetLoad Process.start.past ≠ [] := List.cons_ne_nil _ _
  have hafter : madeBy Process.start.past [⟨rankZeroInput, []⟩, datasetLoad] = [[], made datasetLoad Process.start.past] :=
    rfl
  have hbefore : madeBy Process.start.past [datasetLoad, ⟨rankZeroInput, []⟩] = [made datasetLoad Process.start.past, []] :=
    rfl
  constructor
  · have h := @runVisits_frees [idleVisit, datasetVisit] p hp
    rw [if_pos] at h
    · obtain ⟨m, items, hvs, hi, hlen⟩ := h
      exact ⟨p, m, items, hvs, hi, hlen⟩
    · show (madeBy Process.start.past [⟨rankZeroInput, []⟩, datasetLoad]).Pairwise _
      rw [hafter]
      simp
  · have h := @runVisits_frees [datasetVisit, idleVisit] q hq
    rw [if_neg] at h
    · exact h
    · show ¬ (madeBy Process.start.past [datasetLoad, ⟨rankZeroInput, []⟩]).Pairwise _
      rw [hbefore]
      simp [hmade]

end Ownership
end Provio
