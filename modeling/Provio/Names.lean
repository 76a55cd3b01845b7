import Provio.Records
/-!
# Names — which dataset a record is about

A dataset is known underneath by its file's number and its token.  Its creation and its openings are recorded under the
name the caller gave, its reads and writes under what a 64-byte buffer holds of its absolute path.  Two records agree on
the name exactly when they are about one dataset, if callers give absolute paths, no name overruns `data_object` and no
path read or written is longer than the buffer (`datasets_named`); a name relative to a group splits a dataset in two
(`relative_name_splits`).
-/
namespace Provio

def Callback.dataset : Callback → Option (Nat × Token)
  | .make .datasetCreate _ _ m _ | .make .datasetOpen _ _ m _ => m.under.bind Under.info
  | .datasetAccess _ o _ _ _ _ _ _                            => o.under_object.bind Under.info
  | _                                                         => none

/-- What `H5VL_OBJECT_GET_NAME` puts into a buffer: the path, cut to make room for the terminator. -/
def cutTo (buf_size : Nat) (path : CStr) : CStr := path.take (buf_size - 1)

/-- A read or write that asks for its dataset's name gets the path. -/
def Callback.Answered (path : Nat → Token → CStr) : Callback → Prop
  | .datasetAccess _ o name _ _ _ _ _ => ∀ no t, o.under_object.bind Under.info = some (no, t) →
      name = some (cutTo 64 (path no t))
  | _ => True

/-- A dataset is created and opened by its path, and read and written only if the path fits the buffer. -/
def Callback.Absolute (path : Nat → Token → CStr) : Callback → Prop
  | .make .datasetCreate _ name m _ | .make .datasetOpen _ name m _ => ∀ no t, m.under.bind Under.info = some (no, t) →
      name = some (path no t)
  | .datasetAccess _ o _ _ _ _ _ _ => ∀ no t, o.under_object.bind Under.info = some (no, t) → (path no t).length < 64
  | _ => True

/-- Also, what is recorded fits `data_object[512]`, which `provio_fill_data_object` copies it to. -/
structure Callback.ByPath (path : Nat → Token → CStr) (c : Callback) : Prop where
  absolute : c.Absolute path
  fits     : ∀ e, c.entry = some e → e.data_object.length < 512

theorem cutTo_eq {buf_size : Nat} {path : CStr} (h : path.length < buf_size) : cutTo buf_size path = path :=
  List.take_of_length_le (by omega)

theorem entry_path {path : Nat → Token → CStr} {c : Callback} {e : Entry} {no : Nat} {t : Token} (ha : c.Answered path)
    (hp : c.Absolute path) (hd : c.dataset = some (no, t)) (he : c.entry = some e) : e.data_object = path no t := by
  cases c with
  | make f o name m ticks =>
    obtain ⟨n, rfl, rfl⟩ := Option.map_eq_some_iff.1 he
    cases f with
    | datasetCreate | datasetOpen => exact Option.some.inj (hp no t hd)
    | _ => cases hd
  | datasetAccess x o name stack ret npoints elapsed ticks =>
    cases he
    have hn := ha no t hd
    have hlen := hp no t hd
    simp only [entryOf, hn, nameBuffer, Option.getD_some, cutTo_eq hlen]
  | _ => cases hd

/-- **In every state of every run whose callers give absolute paths that fit the buffers, two dataset records of one file
carry the same name exactly when they are about the same dataset.** -/
theorem datasets_named {inp : SessionInput} {cs : List Callback} {w : World} (hr : runCallbacks cs (.start inp) = .ok w)
    {path : Nat → Token → CStr} (hinj : ∀ no, Function.Injective (path no)) (ha : ∀ c ∈ cs, c.Answered path)
    (hp : ∀ c ∈ cs, c.ByPath path) : ∀ p ∈ w.history, ∀ q ∈ w.history, ∀ no t t', p.1.dataset = some (no, t) →
      q.1.dataset = some (no, t') → (p.2.data_object = q.2.data_object ↔ t = t') := by
  have hhist : w.history = entries cs := (runCallbacks_history cs hr).history
  rw [hhist]
  intro p hpm q hqm no t t' hpd hqd
  obtain ⟨hpc, hpe⟩ := mem_entries.1 hpm
  obtain ⟨hqc, hqe⟩ := mem_entries.1 hqm
  rw [entry_path (ha _ hpc) (hp _ hpc).absolute hpd hpe,
    entry_path (ha _ hqc) (hp _ hqc).absolute hqd hqe]
  exact (hinj no).eq_iff

def groupPath (_ : Nat) (t : Token) : CStr := cstr "/g/x" ++ List.replicate (t - 7).toNat 120

theorem groupPath_injective (no : Nat) : Function.Injective (groupPath no) := by
  intro t t' h
  have hlen := congrArg List.length h
  simp only [groupPath, List.length_append, List.length_replicate, Nat.add_left_cancel_iff] at hlen
  have hsub : t - 7 = t' - 7 := BitVec.eq_of_toNat_eq hlen
  have h1 := congrArg (· + 7) hsub
  simpa using h1

def datasetHandle : ProvObj := ⟨some (objUnder 7), .obj .dataset, 2⟩

def createInGroup (name : CStr) : Callback :=
  .make .datasetCreate groupHandle (some name) (made (some (objUnder 7))) someTicks

def writeDataset : Callback :=
  .datasetAccess .write datasetHandle (some (cutTo 64 (groupPath 1 7))) [] true none 5 someTicks

theorem datasets_named_write : ∃ w, runCallbacks [createFile, createGroup, createInGroup (cstr "/g/x"), writeDataset]
    (.start rankOneInput) = .ok w ∧ ∀ p ∈ w.history, ∀ q ∈ w.history, ∀ no t t', p.1.dataset = some (no, t) →
      q.1.dataset = some (no, t') → (p.2.data_object = q.2.data_object ↔ t = t') := by
  obtain ⟨w, hw⟩ : ∃ w, runCallbacks [createFile, createGroup, createInGroup (cstr "/g/x"), writeDataset]
    (.start rankOneInput) = .ok w := ⟨_, rfl⟩
  refine ⟨w, hw, datasets_named hw groupPath_injective ?_ ?_⟩
  · simp only [List.forall_mem_cons, List.not_mem_nil, false_implies, implies_true, and_true]
    refine ⟨trivial, trivial, trivial, fun no t h => ?_⟩
    cases h
    rfl
  · simp only [List.forall_mem_cons, List.not_mem_nil, false_implies, implies_true, and_true]
    have hfits : ∀ c ∈ [createFile, createGroup, createInGroup (cstr "/g/x"), writeDataset], ∀ e, c.entry = some e →
        e.data_object.length < 512 := by
      simp only [List.forall_mem_cons, List.not_mem_nil, false_implies, implies_true, and_true]
      refine ⟨fun e h => ?_, fun e h => ?_, fun e h => ?_, fun e h => ?_⟩ <;> cases h <;> decide
    refine ⟨⟨trivial, hfits _ (.head _)⟩, ⟨trivial, hfits _ (.tail _ (.head _))⟩,
      ⟨fun no t h => ?_, hfits _ (.tail _ (.tail _ (.head _)))⟩,
      ⟨fun no t h => ?_, hfits _ (.tail _ (.tail _ (.tail _ (.head _))))⟩⟩
    · cases h
      rfl
    · cases h
      decide

/-- A dataset is created as `x` in group `/g` and then written: its creation and its write are recorded under two
names. -/
theorem relative_name_splits : ∃ cs w, runCallbacks cs (.start rankOneInput) = .ok w ∧ (∀ c ∈ cs, c.Answered groupPath) ∧
    (∀ no, Function.Injective (groupPath no)) ∧ ∃ p ∈ w.history, ∃ q ∈ w.history, p.1.dataset = some (1, 7) ∧
      q.1.dataset = some (1, 7) ∧ p.2.data_object = cstr "x" ∧ q.2.data_object = cstr "/g/x" := by
  obtain ⟨w, hw⟩ : ∃ w, runCallbacks [createFile, createGroup, createInGroup (cstr "x"), writeDataset]
    (.start rankOneInput) = .ok w := ⟨_, rfl⟩
  have hmem : ∀ c ∈ [createInGroup (cstr "x"), writeDataset], ∀ e, c.entry = some e → (c, e) ∈ w.history := by
    intro c hc e he
    rw [(runCallbacks_history _ hw).history]
    exact List.mem_append_right _ (mem_entries.2 ⟨.tail _ (.tail _ hc), he⟩)
  refine ⟨_, w, hw, ?_, groupPath_injective, _, hmem _ (.head _) _ rfl, _, hmem _ (.tail _ (.head _)) _ rfl, rfl, rfl,
    rfl, rfl⟩
  simp only [List.forall_mem_cons, List.not_mem_nil, false_implies, implies_true, and_true]
  refine ⟨trivial, trivial, trivial, fun no t h => ?_⟩
  cases h
  rfl

end Provio
