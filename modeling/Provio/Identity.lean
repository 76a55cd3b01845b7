import Provio.Leaks
/-!
# Identity — handles of one object, and its node

Two handles of one class share a node exactly when they are of one object, in every run whose groups and datatypes are in
the files they were opened through and whose datasets are there or in another open file (`share_node_iff`).  A group
reached through a handle of another file is looked up by its token among that file's groups: `foreign_groups` has one
that shares the node of the file's own group, and not the node of a second handle of itself.
-/
namespace Provio

theorem Tracked.node {h : ProvHelper} {app : App} {e : Ledger} {n : Nat} (ht : Tracked h app e n) {w : ProvObj}
    (hw : w ∈ app.handles) {k : ObjClass} (hk : w.my_type = .obj k) (hattr : k ≠ .attr) :
    ∃ info fi, h.objs w.generic_prov_info = some info ∧ info.file_info ∈ h.opened_files ∧
      h.files info.file_info = some fi ∧ w.generic_prov_info ∈ fi.opened k ∧
      w.identity = some (fi.file_no, info.token) := by
  have hf : w.my_type ≠ .file := by simp [hk]
  have hlive := mem_live_objs (e := e) hw hf
  obtain ⟨info, hinfo, ha, fi, hfi, hmem⟩ := ht.consistent.listed _ hlive
  obtain ⟨hcls, hid⟩ := ht.handles w hw hf info hinfo
  rw [hk] at hcls
  obtain rfl := ObjType.obj.inj hcls
  exact ⟨info, fi, hinfo, ha, hfi, hmem, hid hattr fi hfi⟩

/-- **The tracker tells objects apart as the underlying connector does.** -/
theorem Tracked.share_iff {h : ProvHelper} {app : App} {e : Ledger} {n : Nat} (ht : Tracked h app e n) {x y : ProvObj}
    (hx : x ∈ app.handles) (hy : y ∈ app.handles) {k : ObjClass} (hattr : k ≠ .attr) (hxk : x.my_type = .obj k)
    (hyk : y.my_type = .obj k) : x.generic_prov_info = y.generic_prov_info ↔ x.identity = y.identity := by
  obtain ⟨ix, fx, hix, hax, hfx, hmx, hidx⟩ := ht.node hx hxk hattr
  obtain ⟨iy, fy, hiy, hay, hfy, hmy, hidy⟩ := ht.node hy hyk hattr
  constructor
  · intro heq
    rw [heq, hiy] at hix
    cases hix
    rw [hfy] at hfx
    cases hfx
    rw [hidx, hidy]
  · intro heq
    rw [hidx, hidy] at heq
    obtain ⟨hno, htok⟩ := Prod.mk.inj (Option.some.inj heq)
    have hsame := ht.consistent.numbers _ hax _ hay fx fy hfx hfy hno
    rw [← hsame, hfx] at hfy
    cases hfy
    exact (ht.consistent.fileOk hax hfx).tokens k _ hmx _ hmy ix iy hix hiy htok

/-- **In every state of every run whose objects are `Homed`, two live handles of one class share a node exactly when
they are of the same object.** -/
theorem share_node_iff {inp : SessionInput} {cs : List Callback} {w : World}
    (hr : runCallbacks cs (.start inp) = .ok w) (hp : Throughout (Proper Homed) cs (.start inp)) :
    ∀ x ∈ w.app.handles, ∀ y ∈ w.app.handles, ∀ k, k ≠ .attr → x.my_type = .obj k → y.my_type = .obj k →
      x.identity.isSome ∧ (x.generic_prov_info = y.generic_prov_info ↔ x.identity = y.identity) := by
  obtain ⟨e, n, ht⟩ := runCallbacks_tracked cs hr tracked_init hp
  intro x hx y hy k hattr hxk hyk
  obtain ⟨_, _, _, _, _, _, hid⟩ := ht.node hx hxk hattr
  exact ⟨by rw [hid]; rfl, ht.share_iff hx hy hattr hxk hyk⟩

/-! ## Two files -/

def otherFileUnder : Under := ⟨none, some 2, someShape⟩

def otherObjUnder (token : Token) : Under := ⟨some (2, token), none, someShape⟩

def otherFileHandle : ProvObj := ⟨some otherFileUnder, .file, 1⟩

def openFile : Callback := .fileCall .open graphInfo (some (cstr "a.h5")) (some fileUnder) noMarking someTicks

def openOtherFile : Callback := .fileCall .open graphInfo (some (cstr "b.h5")) (some otherFileUnder) noMarking someTicks

def openThrough (f : Maker) (o : ProvObj) (under : Under) : Callback :=
  .make f o (some (cstr "x")) (made (some under)) someTicks

theorem open_proper (w : World) (name : Option CStr) (under : Option Under) :
    Proper Homed w (.fileCall .open graphInfo name under noMarking someTicks) := by
  refine ⟨trivial, fun _ _ => ⟨exactCmp_decides, exactCmp_decides, exactCmp_decides, fun u hu => ?_⟩⟩
  cases hu

def firstDataset : ProvObj := ⟨some (otherObjUnder 7), .obj .dataset, 2⟩

def secondDataset : ProvObj := ⟨some { otherObjUnder 7 with shape := ⟨4, .simple, [20], 20⟩ }, .obj .dataset, 2⟩

/-- A dataset is opened through a handle of file 1, then through one of its own file. -/
def openDatasetTwice : List Callback :=
  [openFile, openOtherFile, openThrough .datasetOpen fileHandle (otherObjUnder 7),
    openThrough .datasetOpen otherFileHandle { otherObjUnder 7 with shape := ⟨4, .simple, [20], 20⟩ }]

theorem share_node_iff_dataset : ∃ w, runCallbacks openDatasetTwice (.start rankOneInput) = .ok w ∧
    firstDataset ∈ w.app.handles ∧ secondDataset ∈ w.app.handles ∧ firstDataset ≠ secondDataset ∧
      firstDataset.generic_prov_info = secondDataset.generic_prov_info := by
  obtain ⟨w, hw, hh⟩ : ∃ w, runCallbacks openDatasetTwice (.start rankOneInput) = .ok w ∧
    w.app.handles = [secondDataset, firstDataset, otherFileHandle, fileHandle] := ⟨_, rfl, rfl⟩
  have h1 : firstDataset ∈ w.app.handles := by simp [hh]
  have h2 : secondDataset ∈ w.app.handles := by simp [hh]
  refine ⟨w, hw, h1, h2, by decide, (share_node_iff hw ?_ _ h1 _ h2 .dataset (by decide) rfl rfl).2.2 rfl⟩
  refine .cons rfl (open_proper _ _ _) (.cons rfl (open_proper _ _ _) ?_)
  refine .cons rfl ⟨.tail _ (.head _), exactCmp_decides, fun u a hu ha => ?_⟩ ?_
  · cases hu
    cases ha
    exact ⟨2, 7, rfl, .inr ⟨rfl, 1, .head _, _, rfl, rfl⟩⟩
  · refine .cons rfl ⟨.tail _ (.head _), exactCmp_decides, fun u a hu ha => ?_⟩ trivial
    cases hu
    cases ha
    exact ⟨2, 7, rfl, .inl ⟨_, rfl, rfl⟩⟩

/-- A group of file 2 with token 96 and the group of file 1 with that token, both opened through a handle of file 1, then
the former through one of file 2. -/
theorem foreign_groups : ∃ w, runCallbacks [openFile, openOtherFile, openThrough .groupOpen fileHandle (otherObjUnder 96),
      openThrough .groupOpen fileHandle (objUnder 96), openThrough .groupOpen otherFileHandle (otherObjUnder 96)]
      (.start rankOneInput) = .ok w ∧
    ∃ x ∈ w.app.handles, ∃ y ∈ w.app.handles, ∃ z ∈ w.app.handles,
      x.my_type = .obj .grp ∧ y.my_type = .obj .grp ∧ z.my_type = .obj .grp ∧
      x.identity = some (2, 96) ∧ y.identity = some (1, 96) ∧ z.identity = some (2, 96) ∧
      x.generic_prov_info = y.generic_prov_info ∧ x.generic_prov_info ≠ z.generic_prov_info := by
  refine ⟨_, rfl, ⟨some (otherObjUnder 96), .obj .grp, 2⟩, .tail _ (.tail _ (.head _)),
    ⟨some (objUnder 96), .obj .grp, 2⟩, .tail _ (.head _), ⟨some (otherObjUnder 96), .obj .grp, 3⟩, .head _, rfl, rfl,
    rfl, rfl, rfl, rfl, rfl, by decide⟩

end Provio
