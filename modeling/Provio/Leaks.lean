import Provio.External
import Provio.HolderRuns
/-!
# Leaks — what is left when the application has closed everything

On a run whose objects are all in the files they were opened through, the tracker is empty after the last close exactly
when rank 0 has opened no file (`tracker_empty_iff`).  The block of `file_create` and `file_open` that marks a file closes
the group and the attributes it makes underneath, without their `rm_*_node`, and frees no attribute's wrapper: the file
stays in `opened_files` for good, and `ptr_cnt` is two too high for each file opened.
-/
namespace Provio

/-- What the application and the underlying connector do in a run: the application gives callbacks what it holds, and
objects are where `P` says. -/
def Proper (P : ProvHelper → Addr → Under → ObjType → Prop) (w : World) (c : Callback) : Prop :=
  c.Valid w.app ∧ c.Placed P w.conn.tracker

/-- `opened_files` is NULL, `opened_files_cnt` and `ptr_cnt` are 0. -/
def Conn.TrackerEmpty (s : Conn) : Prop :=
  ∀ h, s.PROV_HELPER = some h → h.opened_files = [] ∧ h.opened_files_cnt = 0 ∧ h.ptr_cnt = 0

/-- The references nobody holds are on an object, unless there are none at all. -/
structure Leftover (e : Ledger) (n : Nat) : Prop where
  none : n = 0 → e = .empty
  some : n ≠ 0 → ∃ o, e.objs o ≠ 0

theorem leftover_start : Leftover .empty 0 := ⟨fun _ => rfl, fun hn => absurd rfl hn⟩

theorem Leftover.step {e e' : Ledger} {n : Nat} (hl : Leftover e n) {rank : Int} {c : Callback}
    (hc : c.Leaves rank e e') : Leftover e' (n + c.leaked rank) := by
  unfold Callback.Leaves at hc
  unfold Callback.leaked
  split at hc
  · obtain ⟨group, path, time, rfl⟩ := hc
    rw [if_pos ‹_›]
    exact ⟨fun hn => by omega, fun _ => ⟨group, by simp [Ledger.addObj]⟩⟩
  · subst hc
    rw [if_neg ‹_›]
    exact hl

def totalLeaked (rank : Int) : List Callback → Nat
  | []      => 0
  | c :: cs => c.leaked rank + totalLeaked rank cs

theorem totalLeaked_eq_zero {rank : Int} : ∀ {cs : List Callback},
    totalLeaked rank cs = 0 ↔ ∀ c ∈ cs, c.marks rank = false
  | []      => by simp [totalLeaked]
  | c :: cs => by
    rw [totalLeaked, Nat.add_eq_zero_iff, totalLeaked_eq_zero, List.forall_mem_cons]
    simp [Callback.leaked]

theorem Throughout.cons {P : World → Callback → Prop} {c : Callback} {cs : List Callback} {w w' : World}
    (hr : c.step w = .ok w') (hc : P w c) (hcs : Throughout P cs w') : Throughout P (c :: cs) w :=
  ⟨hc, fun w'' hr' => by rw [hr] at hr'; cases hr'; exact hcs⟩

theorem Callback.step_tracked {c : Callback} {w w' : World} (hr : c.step w = .ok w') {e : Ledger} {n : Nat}
    (ht : Tracked w.conn.tracker w.app e n) (hp : Proper Homed w c) :
    ∃ e', Tracked w'.conn.tracker w'.app e' (n + c.leaked w.conn.process.fields.mpi_rank_int) ∧
      (Proper LocalTo w c → c.Leaves w.conn.process.fields.mpi_rank_int e e') := by
  obtain ⟨⟨s, app⟩, h1, hr⟩ := bind_eq_ok.1 hr
  cases hr
  obtain ⟨e', ht', hl⟩ := c.run_tracked h1 ht hp.1 hp.2
  exact ⟨e', ht', fun hloc => hl hloc.2⟩

/-- **In every run the tracker agrees with what the application holds**, apart from references nobody holds. -/
theorem runCallbacks_tracked : ∀ (cs : List Callback) {w w' : World} {e : Ledger} {n : Nat},
    runCallbacks cs w = .ok w' → Tracked w.conn.tracker w.app e n → Throughout (Proper Homed) cs w →
    ∃ e' n', Tracked w'.conn.tracker w'.app e' n'
  | [], w, w', e, n, hr, ht, _ => by
    cases hr
    exact ⟨e, n, ht⟩
  | c :: cs, w, w', e, n, hr, ht, ⟨hc, hcs⟩ => by
    obtain ⟨w₁, h1, hr⟩ := bind_eq_ok.1 hr
    obtain ⟨e₁, ht₁, _⟩ := c.step_tracked h1 ht hc
    exact runCallbacks_tracked cs hr ht₁ (hcs w₁ h1)

/-- **In a local run only rank 0 leaves any.** -/
theorem runCallbacks_leftover : ∀ (cs : List Callback) {w w' : World} {e : Ledger} {n : Nat},
    runCallbacks cs w = .ok w' → Tracked w.conn.tracker w.app e n → Leftover e n → Throughout (Proper LocalTo) cs w →
    ∃ e', Tracked w'.conn.tracker w'.app e' (n + totalLeaked w.conn.process.fields.mpi_rank_int cs) ∧
      Leftover e' (n + totalLeaked w.conn.process.fields.mpi_rank_int cs)
  | [], w, w', e, n, hr, ht, hl, _ => by
    cases hr
    exact ⟨e, ht, hl⟩
  | c :: cs, w, w', e, n, hr, ht, hl, ⟨hc, hcs⟩ => by
    obtain ⟨w₁, h1, hr⟩ := bind_eq_ok.1 hr
    obtain ⟨e₁, ht₁, hleaves⟩ := c.step_tracked h1 ht ⟨hc.1, hc.2.homed⟩
    have hrank := (step_history h1).2.process.rank
    have ih := runCallbacks_leftover cs hr ht₁ (hl.step (hleaves hc)) (hcs w₁ h1)
    rw [hrank, Nat.add_assoc] at ih
    exact ih

/-! ## An empty ledger -/

theorem Consistent.opened_files_eq_nil {h : ProvHelper} (hc : Consistent h .empty) : h.opened_files = [] := by
  refine List.eq_nil_iff_forall_not_mem.2 fun a ha => ?_
  obtain ⟨fi, hfi, hok⟩ := hc.files a ha
  have hnil : ∀ k, fi.opened k = [] := fun k => List.eq_nil_iff_forall_not_mem.2 fun o ho =>
    ((hc.mem_opened ha hfi k o).1 ho).1 rfl
  have hpos := hok.pos
  rw [FileInfo.nodes_eq_zero.2 hnil] at hpos
  exact hpos rfl

theorem Consistent.opened_files_ne_nil {h : ProvHelper} {L : Ledger} (hc : Consistent h L) {o : Addr}
    (ho : L.objs o ≠ 0) : h.opened_files ≠ [] := by
  obtain ⟨info, _, ha, _⟩ := hc.listed o ho
  exact List.ne_nil_of_mem ha

/-- `prov_verify_open_things(0, 0)` compares the counter of open files only. -/
theorem provVerifyOpenThings_zero {s : Conn} : provVerifyOpenThings s 0 0 = .ok () ↔ s.tracker.opened_files_cnt = 0 := by
  unfold provVerifyOpenThings Conn.tracker
  cases s.PROV_HELPER with
  | none => simp [ProvHelper.init]
  | some h => simp [cAssert, eq_comm]

theorem trackerEmpty_iff {s : Conn} : s.TrackerEmpty ↔
    s.tracker.opened_files = [] ∧ s.tracker.opened_files_cnt = 0 ∧ s.tracker.ptr_cnt = 0 := by
  unfold Conn.TrackerEmpty Conn.tracker
  cases s.PROV_HELPER with
  | none => simp [ProvHelper.init]
  | some h => simp

theorem Tracked.closed {h : ProvHelper} {app : App} {e : Ledger} {n : Nat} (ht : Tracked h app e n)
    (hl : Leftover e n) (hc : app.Closed) : (h.opened_files = [] ↔ n = 0) ∧ h.ptr_cnt = n := by
  have hcons := ht.consistent
  rw [App.ledger_closed hc] at hcons
  have hplus : Ledger.empty.plus e = e := by simp [Ledger.plus, Ledger.empty]
  rw [hplus] at hcons
  have hptr := ht.ptr
  rw [hc.1] at hptr
  refine ⟨⟨fun hnil => ?_, fun hn => ?_⟩, by simpa using hptr⟩
  · by_contra hne
    obtain ⟨o, ho⟩ := hl.some hne
    exact hcons.opened_files_ne_nil ho hnil
  · rw [hl.none hn] at hcons
    exact hcons.opened_files_eq_nil

/-- **When the application has closed everything in a run whose objects are in the files they were opened through, the
tracker is empty, and `prov_verify_open_things(0, 0)` passes, exactly if rank 0 has opened no file.** -/
theorem tracker_empty_iff {inp : SessionInput} {cs : List Callback} {w : World}
    (hr : runCallbacks cs (.start inp) = .ok w) (hp : Throughout (Proper LocalTo) cs (.start inp))
    (hc : w.app.Closed) : (w.conn.TrackerEmpty ↔ ∀ c ∈ cs, c.marks inp.MPI_RANK = false) ∧
      (provVerifyOpenThings w.conn 0 0 = .ok () ↔ ∀ c ∈ cs, c.marks inp.MPI_RANK = false) := by
  obtain ⟨e, ht, hl⟩ := runCallbacks_leftover cs hr tracked_init leftover_start hp
  obtain ⟨hnil, hptr⟩ := ht.closed hl hc
  have hcnt : w.conn.tracker.opened_files_cnt = 0 ↔ w.conn.tracker.opened_files = [] := by
    rw [ht.consistent.cnt, Int.natCast_eq_zero, List.length_eq_zero_iff]
  have hrank : (World.start inp).conn.process.fields.mpi_rank_int = inp.MPI_RANK := rfl
  rw [hrank, Nat.zero_add] at hnil hptr
  rw [← totalLeaked_eq_zero, provVerifyOpenThings_zero, trackerEmpty_iff, hcnt, hnil, hptr]
  refine ⟨⟨fun h => h.1, fun h => ⟨h, h, by rw [h]; rfl⟩⟩, Iff.rfl⟩

/-! ## Two runs -/

def closeGroup : Callback := .close .grp exactCmp groupHandle true

def closeFile : Callback := .fileClose fileHandle true

theorem createFile_proper {inp : SessionInput} : Proper LocalTo (.start inp) createFile := by
  refine ⟨trivial, fun u hu => ?_⟩
  cases hu
  exact ⟨exactCmp_decides, exactCmp_decides, exactCmp_decides, fun u hu => by cases hu⟩

/-- On rank 1 nothing is left of a file and a group. -/
theorem tracker_empty_iff_group : ∃ w, runCallbacks [createFile, createGroup, closeGroup, closeFile]
    (.start rankOneInput) = .ok w ∧ w.app.Closed ∧ w.conn.TrackerEmpty := by
  obtain ⟨w, hw, hc⟩ : ∃ w, runCallbacks [createFile, createGroup, closeGroup, closeFile] (.start rankOneInput) = .ok w ∧
    w.app.Closed := ⟨_, rfl, rfl, rfl, rfl⟩
  refine ⟨w, hw, hc, (tracker_empty_iff hw ?_ hc).1.2 ?_⟩
  · refine .cons rfl createFile_proper ?_
    refine .cons rfl ⟨List.mem_cons_self, exactCmp_decides, fun u a hu ha => ?_⟩ ?_
    · cases hu
      cases ha
      exact ⟨_, 5, rfl, rfl⟩
    · exact .cons rfl ⟨⟨List.mem_cons_self, rfl⟩, exactCmp_decides⟩
        (.cons rfl ⟨⟨List.mem_cons_self, rfl⟩, trivial⟩ trivial)
  · simp [createFile, createGroup, closeGroup, closeFile, Callback.marks, rankOneInput]

/-- The group `Provenance` of file 1, with the token that its attributes answer too. -/
def marking : Marking := ⟨made (some (objUnder 96)), made (some (objUnder 96)), made (some (objUnder 96))⟩

def createMarked : Callback := .fileCall .create graphInfo (some (cstr "a.h5")) (some fileUnder) marking someTicks

/-- Rank 0 creates a file and closes it: one file stays open and two wrappers stay. -/
theorem marked_file_stays : ∃ w, runCallbacks [createMarked, closeFile] (.start rankZeroInput) = .ok w ∧
    Throughout (Proper LocalTo) [createMarked, closeFile] (.start rankZeroInput) ∧ w.app.Closed ∧
    w.conn.tracker.opened_files_cnt = 1 ∧ w.conn.tracker.ptr_cnt = 2 ∧
    provVerifyOpenThings w.conn 0 0 = .error .assert := by
  refine ⟨_, rfl, ?_, ⟨rfl, rfl, rfl⟩, rfl, rfl, rfl⟩
  refine .cons rfl ⟨trivial, fun u hu => ?_⟩ ?_
  · cases hu
    refine ⟨exactCmp_decides, exactCmp_decides, exactCmp_decides, fun v hv => ?_⟩
    cases hv
    exact ⟨96, rfl⟩
  · exact .cons rfl ⟨⟨List.mem_cons_self, rfl⟩, trivial⟩ trivial

end Provio
