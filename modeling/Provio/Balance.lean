import Mathlib.Algebra.Ring.Nat
import Provio.References
/-!
# Balance — every reference is given back

The library holds the blocks that the callbacks hand out to it, passes only blocks that it holds, and holds a block no
longer when the callback has freed it (`Holding.step`).  In every such run a callback reads or frees a freed block only at
the end of a refresh of a group or a datatype that failed after its wrapper was unwrapped (`steps_freed_iff`), and the
references taken to each ID are those of the blocks that the library holds and of the blocks that nobody holds
(`references_held`).  These are what marking a file on rank 0 leaves: the wrappers of two attributes for each, and the
requests that it wraps or overwrites.
-/
namespace Provio
namespace References

open Forwarding (VolId)
open Objects (Inventory)

/-- **The counts are those of the blocks.** -/
structure Balanced (s : Refs) (items : List Block) : Prop where
  inventory : Inventory s.heap items
  count     : ∀ v, s.count v = items.countP (·.2.under_vol_id = v)
  ptr_cnt   : s.ptr_cnt = items.countP (·.2.kind = .wrapper)

/-- It reads no freed block, and what it comes to meets `Q`. -/
def Safely {α : Type} (m : Except Fault α) (Q : α → Prop) : Prop :=
  match m with
  | .ok a    => Q a
  | .error e => e ≠ .freed

section

variable {α β : Type} {Q : α → Prop}

@[simp] theorem safely_ok (a : α) : Safely (.ok a) Q ↔ Q a := Iff.rfl

@[simp] theorem safely_pure (a : α) : Safely (pure a) Q ↔ Q a := Iff.rfl

@[simp] theorem safely_error (e : Fault) : Safely (.error e) Q ↔ e ≠ .freed := Iff.rfl

theorem Safely.bind {m : Except Fault α} {f : α → Except Fault β} {R : β → Prop} (h : Safely m Q)
    (hf : ∀ a, Q a → Safely (f a) R) : Safely (m >>= f) R := by
  cases m with
  | error e => exact h
  | ok a => exact hf a h

theorem Safely.mono {m : Except Fault α} {R : α → Prop} (h : Safely m Q) (hQ : ∀ a, Q a → R a) : Safely m R := by
  cases m with
  | error e => exact h
  | ok a => exact hQ a h

end

/-! ## Blocks -/

section

variable {s : Refs} {items items' : List Block}

theorem balanced_start : Balanced .start [] :=
  ⟨.empty, fun _ => rfl, rfl⟩

theorem Balanced.perm (h : Balanced s items) (hp : items.Perm items') : Balanced s items' :=
  ⟨h.inventory.perm hp, fun v => by rw [h.count, hp.countP_eq], by rw [h.ptr_cnt, hp.countP_eq]⟩

theorem Balanced.access (h : Balanced s items) {b : Block} (hb : b ∈ items) : access s b = .ok () :=
  if_pos (h.inventory.read hb)

/-- **A block that is allocated takes its reference**; the count of wrappers is the caller's. -/
theorem Balanced.take (h : Balanced s items) (kind : Kind) (v : VolId) :
    Balanced { (take s kind v).2 with ptr_cnt := s.ptr_cnt + if kind = .wrapper then 1 else 0 }
      ((take s kind v).1 :: items) := by
  refine ⟨h.inventory.alloc _, fun w => ?_, ?_⟩
  · show Function.update s.count v (s.count v + 1) w = _
    rw [List.countP_cons]
    by_cases hw : w = v
    · subst hw
      simp [References.take, h.count]
    · simp [References.take, h.count, hw, Ne.symm hw]
  · show s.ptr_cnt + _ = _
    rw [List.countP_cons, h.ptr_cnt]
    cases kind <;> simp [References.take]

theorem Balanced.give {b : Block} (h : Balanced s (b :: items)) : ∃ s',
    give { s with ptr_cnt := s.ptr_cnt - if b.2.kind = .wrapper then 1 else 0 } b = .ok s' ∧ Balanced s' items := by
  obtain ⟨heap, hfree, hinv⟩ := h.inventory.free
  have hread : s.heap.read b.1 = some b.2 := h.inventory.read (List.mem_cons_self ..)
  refine ⟨{ decRef s b.2.under_vol_id with
    heap := heap, ptr_cnt := s.ptr_cnt - if b.2.kind = .wrapper then 1 else 0 }, ?_, hinv, fun w => ?_, ?_⟩
  · unfold References.give References.access
    simp only [if_pos hread, ok_bind, decRef, hfree]
    rfl
  · show Function.update s.count b.2.under_vol_id (s.count b.2.under_vol_id - 1) w = _
    by_cases hw : w = b.2.under_vol_id
    · subst hw
      simp [h.count]
    · simp [h.count, hw, Ne.symm hw]
  · show s.ptr_cnt - _ = _
    rw [h.ptr_cnt, List.countP_cons]
    cases hk : b.2.kind <;> simp

theorem newObj_safely (h : Balanced s items) (helper : Bool) (v : VolId) :
    Safely (newObj s helper v) fun r => r.1.2 = ⟨.wrapper, v⟩ ∧ Balanced r.2 (r.1 :: items) := by
  cases helper with
  | false => exact Fault.noConfusion
  | true => exact ⟨rfl, h.take .wrapper v⟩

theorem freeObj_safely {obj : Block} (h : Balanced s (obj :: items)) (hk : obj.2.kind = .wrapper) :
    Safely (freeObj s obj) fun s' => Balanced s' items := by
  obtain ⟨s', hgive, hs'⟩ := h.give
  rw [if_pos hk] at hgive
  unfold freeObj
  rw [h.access (List.mem_cons_self ..), ok_bind, hgive]
  exact hs'

theorem give_safely {b : Block} (h : Balanced s (b :: items)) (hk : b.2.kind ≠ .wrapper) :
    Safely (give s b) fun s' => Balanced s' items := by
  obtain ⟨s', hgive, hs'⟩ := h.give
  rw [if_neg hk, Int.sub_zero] at hgive
  rw [show give s b = .ok s' from hgive]
  exact hs'

theorem take_balanced (h : Balanced s items) {kind : Kind} (hk : kind ≠ .wrapper) (v : VolId) :
    Balanced (take s kind v).2 ((take s kind v).1 :: items) := by
  have htake := h.take kind v
  rw [if_neg hk, Int.add_zero] at htake
  exact htake

/-! ## Requests -/

theorem wrapReq_safely (h : Balanced s items) {o : Option Block} (ho : ∀ b ∈ o, b ∈ items) (v : VolId) :
    Safely (wrapReq s o v) fun r => Balanced r.1 (r.2.handed ++ items) := by
  cases o with
  | none => exact Fault.noConfusion
  | some o =>
    unfold wrapReq
    dsimp only
    rw [h.access (ho o rfl), ok_bind]
    exact (newObj_safely h true v).bind fun r hr => hr.2

/-- **A request that is wrapped is a new block**; any other request pointer stays. -/
theorem checkAsync_safely (h : Balanced s items) {o : Option Block} (ho : ∀ b ∈ o, b ∈ items) (v : VolId) (req : Req) :
    Safely (checkAsync s o v req) fun r =>
      r.2 = req ∧ Balanced r.1 items ∨ req ≠ .sync ∧ Balanced r.1 (r.2.handed ++ items) := by
  cases req with
  | sync => exact .inl ⟨rfl, h⟩
  | null => exact .inl ⟨rfl, h⟩
  | token => exact (wrapReq_safely h ho v).mono fun r hr => .inr ⟨Req.noConfusion, hr⟩
  | wrapper b => exact (wrapReq_safely h ho v).mono fun r hr => .inr ⟨Req.noConfusion, hr⟩

theorem handed_fresh (async token : Bool) : ((Req.fresh async).answer token).handed = [] := by
  cases async <;> cases token <;> rfl

theorem checkAsync_fresh (h : Balanced s items) {o : Option Block} (ho : ∀ b ∈ o, b ∈ items) (v : VolId)
    (async token : Bool) :
    Safely (checkAsync s o v ((Req.fresh async).answer token)) fun r =>
      Balanced r.1 (r.2.handed ++ items) ∧ (async = false → r.2 = .sync) := by
  refine (checkAsync_safely h ho v _).mono fun r hr => ?_
  have hsync : async = false → (Req.fresh async).answer token = .sync := by
    rintro rfl
    rfl
  rcases hr with ⟨hreq, hr⟩ | ⟨hne, hr⟩
  · rw [hreq, handed_fresh]
    exact ⟨hr, hsync⟩
  · exact ⟨hr, fun ha => absurd (hsync ha) hne⟩

theorem forward_safely (h : Balanced s items) {o : Block} (ho : o ∈ items) (async token : Bool) :
    Safely (forward s o async token) fun r => Balanced r.1 (r.2 ++ items) := by
  unfold forward
  rw [h.access ho, ok_bind]
  exact (checkAsync_fresh h (by simpa using ho) _ async token).bind fun r hr => hr.1

/-! ## Objects -/

theorem objWrapUnder_safely (h : Balanced s items) {upper_o : Block} (ho : upper_o ∈ items) (req : Req) :
    Safely (objWrapUnder s upper_o req) fun r => r.1.2 = ⟨.wrapper, upper_o.2.under_vol_id⟩ ∧
      (r.2.2 = req ∧ Balanced r.2.1 (r.1 :: items) ∨
        req ≠ .sync ∧ Balanced r.2.1 (r.2.2.handed ++ r.1 :: items)) := by
  unfold objWrapUnder
  rw [h.access ho, ok_bind]
  refine (newObj_safely h true upper_o.2.under_vol_id).bind fun r hr => ?_
  refine (checkAsync_safely hr.2 ?_ upper_o.2.under_vol_id req).bind fun q hq => ⟨hr.1, hq⟩
  intro b hb
  cases hb
  exact List.mem_cons_of_mem _ ho

theorem wrapObject_safely (h : Balanced s items) {ctx : Block} (hc : ctx ∈ items) (under : Bool) :
    Safely (wrapObject s ctx under) fun r => Balanced r.1 (r.2 ++ items) := by
  unfold wrapObject
  rw [h.access hc, ok_bind]
  cases under with
  | false => exact h
  | true =>
    refine (newObj_safely h true ctx.2.under_vol_id).bind fun fake hfake => ?_
    refine (objWrapUnder_safely hfake.2 (List.mem_cons_self ..) .sync).bind fun r hr => ?_
    have hb : Balanced r.2.1 (r.1 :: fake.1 :: items) := by
      rcases hr.2 with ⟨-, hr⟩ | hr
      · exact hr
      · exact absurd rfl hr.1
    exact (freeObj_safely (hb.perm (.swap ..)) (by rw [hfake.1])).bind fun q hq => hq

/-! ## Marking a file -/

/-- What nobody holds grows by `n` blocks with the ID `v`, and by the requests that are wrapped again or overwritten. -/
structure Grows (v : VolId) (n : Nat) (req req' : Req) (lost lost' : List Block) : Prop where
  least : ∀ w, lost.countP (·.2.under_vol_id = w) + (if w = v then n else 0) ≤ lost'.countP (·.2.under_vol_id = w)
  sync  : req = .sync → req' = .sync ∧
    ∀ w, lost'.countP (·.2.under_vol_id = w) = lost.countP (·.2.under_vol_id = w) + if w = v then n else 0

variable {v : VolId} {n m : Nat} {req req' req'' : Req} {lost lost' lost'' : List Block}

theorem Grows.trans (h : Grows v n req req' lost lost') (h' : Grows v m req' req'' lost' lost'') :
    Grows v (n + m) req req'' lost lost'' := by
  refine ⟨fun w => ?_, fun hreq => ?_⟩
  · have h1 := h.least w
    have h2 := h'.least w
    by_cases hw : w = v
    · simp only [hw, if_true] at *
      omega
    · simp only [hw, if_false] at *
      omega
  · obtain ⟨hreq', h1⟩ := h.sync hreq
    obtain ⟨hreq'', h2⟩ := h'.sync hreq'
    refine ⟨hreq'', fun w => ?_⟩
    rw [h2, h1]
    split <;> omega

theorem Grows.refl (v : VolId) (req : Req) (lost : List Block) : Grows v 0 req req lost lost :=
  ⟨fun w => by simp, fun hreq => ⟨hreq, fun w => by simp⟩⟩

/-- A request that was held is lost; this one cannot happen without a request pointer. -/
theorem Grows.dropped (v : VolId) (hreq : req ≠ .sync) (req' : Req) (blocks lost : List Block) :
    Grows v 0 req req' lost (blocks ++ lost) := by
  refine ⟨fun w => ?_, fun h => absurd h hreq⟩
  rw [List.countP_append]
  split <;> omega

theorem Grows.forgotten {b : Block} (hb : b.2.under_vol_id = v) (req : Req) (lost : List Block) :
    Grows v 1 req req lost (b :: lost) := by
  have hcount : ∀ w, (b :: lost).countP (·.2.under_vol_id = w) =
      lost.countP (·.2.under_vol_id = w) + if w = v then 1 else 0 := by
    intro w
    rw [List.countP_cons, hb]
    by_cases hw : w = v
    · simp [hw]
    · simp [hw, Ne.symm hw]
  exact ⟨fun w => by rw [hcount], fun hreq => ⟨hreq, hcount⟩⟩

theorem answer_grows (h : Balanced s (req.handed ++ lost ++ items)) (v : VolId) (token : Bool) :
    ∃ lost', Balanced s ((req.answer token).handed ++ lost' ++ items) ∧ Grows v 0 req (req.answer token) lost lost' := by
  cases req with
  | sync => exact ⟨lost, h, .refl v _ lost⟩
  | null => cases token <;> exact ⟨lost, h, .dropped v Req.noConfusion _ [] lost⟩
  | token => cases token <;> exact ⟨lost, h, .dropped v Req.noConfusion _ [] lost⟩
  | wrapper b =>
    cases token with
    | false => exact ⟨lost, h, .refl v _ lost⟩
    | true => exact ⟨[b] ++ lost, h, .dropped v Req.noConfusion _ [b] lost⟩

theorem objWrapUnder_grows (h : Balanced s (req.handed ++ lost ++ items)) {upper_o : Block} (ho : upper_o ∈ items) :
    Safely (objWrapUnder s upper_o req) fun r => r.1.2 = ⟨.wrapper, upper_o.2.under_vol_id⟩ ∧
      ∃ lost', Balanced r.2.1 (r.2.2.handed ++ lost' ++ (r.1 :: items)) ∧
        Grows upper_o.2.under_vol_id 0 req r.2.2 lost lost' := by
  refine (objWrapUnder_safely h (List.mem_append_right _ ho) req).mono fun r hr => ⟨hr.1, ?_⟩
  rcases hr.2 with ⟨hreq, hb⟩ | ⟨hreq, hb⟩
  · refine ⟨lost, hb.perm ?_, ?_⟩
    · rw [hreq]
      exact List.perm_middle.symm
    · rw [hreq]
      exact .refl ..
  · refine ⟨req.handed ++ lost, hb.perm ?_, .dropped _ hreq _ _ lost⟩
    rw [List.append_assoc r.2.2.handed]
    exact List.Perm.append_left _ List.perm_middle.symm

theorem markAttr_grows (h : Balanced s (req.handed ++ lost ++ items)) {group : Block} (hg : group ∈ items)
    (create : Answer) (write close : Bool) : Safely (markAttr s group create write close req) fun r =>
      ∃ lost', Balanced r.1 (r.2.handed ++ lost' ++ items) ∧ Grows group.2.under_vol_id 1 req r.2 lost lost' := by
  unfold markAttr
  rw [h.access (List.mem_append_right _ hg), ok_bind]
  obtain ⟨lost₁, h₁, hgrow₁⟩ := answer_grows h group.2.under_vol_id create.token
  cases create.under with
  | false => exact Fault.noConfusion
  | true =>
    refine (objWrapUnder_grows h₁ hg).bind fun r ⟨hattr, lost₂, h₂, hgrow₂⟩ => ?_
    dsimp only
    rw [h₂.access (List.mem_append_right _ (List.mem_cons_self ..)), ok_bind]
    have h₃ : Balanced r.2.1 (r.2.2.handed ++ (r.1 :: lost₂) ++ items) := h₂.perm (by
      rw [List.append_assoc, List.append_assoc]
      exact List.Perm.append_left _ List.perm_middle)
    have hgrow₃ : Grows group.2.under_vol_id 1 r.2.2 r.2.2 lost₂ (r.1 :: lost₂) := .forgotten (by rw [hattr]) ..
    obtain ⟨lost₄, h₄, hgrow₄⟩ := answer_grows h₃ group.2.under_vol_id write
    obtain ⟨lost₅, h₅, hgrow₅⟩ := answer_grows h₄ group.2.under_vol_id close
    exact ⟨lost₅, h₅, (((hgrow₁.trans hgrow₂).trans hgrow₃).trans hgrow₄).trans hgrow₅⟩

/-- **Marking a file forgets the wrappers of its two attributes.** -/
theorem markFile_grows (h : Balanced s (req.handed ++ lost ++ items)) {file : Block} (hf : file ∈ items)
    (b : FileAnswers) : Safely (markFile s file b req) fun r =>
      ∃ lost', Balanced r.1 (r.2.handed ++ lost' ++ items) ∧ Grows file.2.under_vol_id 2 req r.2 lost lost' := by
  unfold markFile
  rw [h.access (List.mem_append_right _ hf), ok_bind]
  obtain ⟨lost₁, h₁, hgrow₁⟩ := answer_grows h file.2.under_vol_id b.group.token
  cases b.group.under with
  | false => exact Fault.noConfusion
  | true =>
    refine (objWrapUnder_grows h₁ hf).bind fun r ⟨hgroup, lost₂, h₂, hgrow₂⟩ => ?_
    have hvol : r.1.2.under_vol_id = file.2.under_vol_id := by rw [hgroup]
    refine (markAttr_grows h₂ (List.mem_cons_self ..) b.attr_path b.path_write b.path_close).bind
      fun q ⟨lost₃, h₃, hgrow₃⟩ => ?_
    refine (markAttr_grows h₃ (List.mem_cons_self ..) b.attr_time b.time_write b.time_close).bind
      fun u ⟨lost₄, h₄, hgrow₄⟩ => ?_
    rw [hvol] at hgrow₃ hgrow₄
    dsimp only
    rw [h₄.access (List.mem_append_right _ (List.mem_cons_self ..)), ok_bind]
    refine (freeObj_safely (h₄.perm List.perm_middle) (by rw [hgroup])).bind fun w hw => ?_
    obtain ⟨lost₅, h₅, hgrow₅⟩ := answer_grows hw file.2.under_vol_id b.group_close
    exact ⟨lost₅, h₅, (((hgrow₁.trans hgrow₂).trans hgrow₃).trans hgrow₄).trans hgrow₅⟩

/-! ## Every callback -/

theorem requestRelease_safely {o : Block} (h : Balanced s (o :: items)) (hk : o.2.kind = .wrapper) (ret : Bool) :
    Safely (requestRelease s o ret) fun s' => Balanced s' (if ret then items else o :: items) := by
  unfold requestRelease
  rw [h.access (List.mem_cons_self ..), ok_bind]
  cases ret with
  | false => exact h
  | true => exact freeObj_safely h hk

theorem closeObj_safely {o : Block} (h : Balanced s (o :: items)) (hk : o.2.kind = .wrapper) (ret async token : Bool) :
    Safely (closeObj s o ret async token) fun r => Balanced r.1 (r.2 ++ if ret then items else o :: items) := by
  refine (forward_safely h (List.mem_cons_self ..) async token).bind fun r hr => ?_
  cases ret with
  | false => exact hr
  | true => exact (freeObj_safely (hr.perm List.perm_middle) hk).bind fun q hq => hq

theorem make_safely (h : Balanced s items) {o : Block} (ho : o ∈ items) (async : Bool) (b : Answer) :
    Safely (make s o async b) fun r => Balanced r.1 (r.2 ++ items) := by
  unfold make
  rw [h.access ho, ok_bind]
  dsimp only
  have hnone := handed_fresh async b.token
  cases b.under with
  | false =>
    show Balanced s (_ ++ items)
    rw [hnone]
    exact h
  | true =>
    refine (objWrapUnder_safely h ho _).bind fun r hr => ?_
    rcases hr.2 with ⟨hreq, hb⟩ | ⟨-, hb⟩
    · show Balanced r.2.1 (r.1 :: r.2.2.handed ++ items)
      rw [hreq, hnone]
      exact hb
    · exact hb.perm List.perm_middle

theorem refreshEnd_safely (h : Balanced s items) {specific : Specific} {o : Block} {ret async token : Bool}
    (ho : ∀ b ∈ (Op.refreshEnd specific o ret async token).rereads, access s b = .ok ()) :
    Safely (refreshEnd s specific o ret async token) fun r => Balanced r.1 (r.2 ++ items) := by
  have hlast : Safely (accessLast s specific o ret) fun _ => True := by
    cases specific with
    | dataset => trivial
    | object => trivial
    | datatype =>
      cases ret with
      | true => exact Fault.noConfusion
      | false =>
        show Safely (access s o) _
        rw [ho o rfl]
        trivial
    | group =>
      cases ret with
      | true => exact Fault.noConfusion
      | false =>
        show Safely (access s o) _
        rw [ho o rfl]
        trivial
  refine hlast.bind fun _ _ => ?_
  dsimp only
  split
  · exact h
  · exact h
  · exact (newObj_safely h true o.2.under_vol_id).bind fun r hr => hr.2

theorem Balanced.accessAny (h : Balanced s items) {o : Option Block} (ho : ∀ b ∈ o, b ∈ items) :
    accessAny s o = .ok () := by
  cases o with
  | none => rfl
  | some o => exact h.access (ho o rfl)

theorem linkCreate_safely (h : Balanced s items) {curr_obj o : Option Block} (hc : ∀ b ∈ curr_obj, b ∈ items)
    (ho : ∀ b ∈ o, b ∈ items) (async token : Bool) :
    Safely (linkCreate s curr_obj o async token) fun r => Balanced r.1 (r.2 ++ items) := by
  unfold linkCreate
  rw [h.accessAny hc, ok_bind]
  cases o with
  | some o => exact forward_safely h (ho o rfl) async token
  | none =>
    dsimp only
    split
    · exact h
    · exact h
    · exact Fault.noConfusion

theorem linkTwo_safely (h : Balanced s items) {o_src o_dst : Option Block} (hs : ∀ b ∈ o_src, b ∈ items)
    (hd : ∀ b ∈ o_dst, b ∈ items) (async token : Bool) :
    Safely (linkTwo s o_src o_dst async token) fun r => Balanced r.1 (r.2 ++ items) := by
  unfold linkTwo
  rw [h.accessAny hs, ok_bind, h.accessAny hd, ok_bind]
  cases o_src.or o_dst with
  | none => exact Fault.noConfusion
  | some o => exact (checkAsync_fresh h hd _ async token).bind fun r hr => hr.1

theorem fileReopen_safely (h : Balanced s items) {o : Block} (ho : o ∈ items) (ret reopened async token : Bool) :
    Safely (fileReopen s o ret reopened async token) fun r => Balanced r.1 (r.2 ++ items) := by
  refine (forward_safely h ho async token).bind fun r hr => ?_
  cases ret && reopened with
  | false => exact hr
  | true => exact (newObj_safely hr true _).bind fun q hq => hq.2

theorem infoCopy_safely (h : Balanced s items) {info : Block} (hi : info ∈ items) (hk : info.2.kind = .info) :
    Safely (infoCopy s info) fun r => r.1.2 = info.2 ∧ Balanced r.2 (r.1 :: items) := by
  unfold infoCopy
  rw [h.access hi, ok_bind]
  exact ⟨by rw [← hk]; rfl, take_balanced h Kind.noConfusion _⟩

theorem fileByName_safely (h : Balanced s items) {file info : Option Block} (hf : ∀ b ∈ file, b ∈ items)
    (hi : ∀ b ∈ info, b ∈ items ∧ b.2.kind = .info) (async token : Bool) :
    Safely (fileByName s file info async token) fun r => Balanced r.1 (r.2 ++ items) := by
  cases info with
  | none => exact h
  | some info =>
    obtain ⟨hmem, hk⟩ := hi info rfl
    refine (infoCopy_safely h hmem hk).bind fun r hr => ?_
    refine (checkAsync_fresh hr.2 (fun b hb => List.mem_cons_of_mem _ (hf b hb)) _ async token).bind fun q hq => ?_
    refine (give_safely (hq.1.perm List.perm_middle) ?_).bind fun u hu => hu
    rw [hr.1, hk]
    exact Kind.noConfusion

def marked (info : Option Block) (rank_zero : Bool) (v : VolId) : Nat :=
  if rank_zero = true ∧ info.map (·.2.under_vol_id) = some v then 2 else 0

theorem fileCall_safely (h : Balanced s items) {info : Option Block} (hi : ∀ b ∈ info, b ∈ items ∧ b.2.kind = .info)
    (helper rank_zero async : Bool) (b : FileAnswers) :
    Safely (fileCall s info helper rank_zero async b) fun r => ∃ lost, Balanced r.1 (r.2 ++ lost ++ items) ∧
      ∀ v, marked info rank_zero v ≤ lost.countP (·.2.under_vol_id = v) ∧
        (async = false ∨ rank_zero = false → lost.countP (·.2.under_vol_id = v) = marked info rank_zero v) := by
  cases info with
  | none => exact Fault.noConfusion
  | some info =>
    obtain ⟨hmem, hk⟩ := hi info rfl
    refine (infoCopy_safely h hmem hk).bind fun r hr => ?_
    have hcopy : r.1.2.kind ≠ .wrapper := by rw [hr.1, hk]; exact Kind.noConfusion
    have hv : r.1.2.under_vol_id = info.2.under_vol_id := by rw [hr.1]
    dsimp only
    cases b.file.under with
    | false =>
      cases rank_zero with
      | true => exact Fault.noConfusion
      | false =>
        refine (give_safely hr.2 hcopy).bind fun q hq => ⟨[], ?_, fun v => ⟨Nat.le_refl _, fun _ => rfl⟩⟩
        rw [handed_fresh]
        exact hq
    | true =>
      refine (newObj_safely hr.2 helper r.1.2.under_vol_id).bind fun q hq => ?_
      have hfile : ∀ b ∈ some q.1, b ∈ q.1 :: r.1 :: items := by
        rintro b ⟨⟩
        exact List.mem_cons_self ..
      refine (checkAsync_fresh hq.2 hfile r.1.2.under_vol_id async b.file.token).bind fun u hu => ?_
      have hlast : ∀ (w : Refs × Req) (lost : List Block), Balanced w.1 (w.2.handed ++ lost ++ (q.1 :: r.1 :: items)) →
          Safely (infoFree w.1 r.1 >>= fun s => pure (s, q.1 :: w.2.handed)) fun x =>
            Balanced x.1 (x.2 ++ lost ++ items) := by
        intro w lost hw
        refine (give_safely (hw.perm ?_) hcopy).bind fun x hx => hx
        exact (List.perm_middle.trans (.cons _ List.perm_middle)).trans (.swap ..)
      cases rank_zero with
      | false =>
        refine (hlast u [] (by simpa using hu.1)).mono fun x hx => ⟨[], hx, fun v => ⟨?_, fun _ => ?_⟩⟩
        · simp [marked]
        · simp [marked]
      | true =>
        have hu₁ : Balanced u.1 (u.2.handed ++ [] ++ (q.1 :: r.1 :: items)) := by simpa using hu.1
        refine (markFile_grows hu₁ (List.mem_cons_self ..) b).bind fun w ⟨lost, hw, hgrow⟩ => ?_
        refine (hlast w lost hw).mono fun x hx => ⟨lost, hx, fun v => ?_⟩
        have hmarked : marked (some info) true v = if v = q.1.2.under_vol_id then 2 else 0 := by
          rw [hq.1, hv]
          simp [marked, eq_comm]
        rw [hmarked]
        refine ⟨by simpa using hgrow.least v, fun ha => ?_⟩
        obtain ha | ha := ha
        · simpa using (hgrow.sync (hu.2 ha)).2 v
        · cases ha

theorem wait_safely {o : Block} (h : Balanced s (o :: items)) (hk : o.2.kind = .wrapper) (ret in_progress : Bool) :
    Safely (requestWait s o ret in_progress) fun s' => Balanced s' (if ret && !in_progress then items else o :: items) := by
  unfold requestWait
  rw [h.access (List.mem_cons_self ..), ok_bind]
  cases ret && !in_progress with
  | false => exact h
  | true => exact freeObj_safely h hk

theorem unwrapObject_safely {o : Block} (h : Balanced s (o :: items)) (hk : o.2.kind = .wrapper) (under : Bool) :
    Safely (unwrapObject s o under) fun s' => Balanced s' (if under then items else o :: items) := by
  unfold unwrapObject
  rw [h.access (List.mem_cons_self ..), ok_bind]
  cases under with
  | false => exact h
  | true => exact freeObj_safely h hk

end

/-! ## Runs -/

def Op.leaves (v : VolId) : Op → Nat
  | .fileCall info _ rank_zero _ _ => marked info rank_zero v
  | _                              => 0

/-- It marks no file asynchronously. -/
def Op.plain : Op → Bool
  | .fileCall _ _ rank_zero async _ => !rank_zero || !async
  | _                               => true

/-- What a step does to the accounts. -/
structure Accounts (op : Op) (lost : List Block) (w' : Holding) (lost' : List Block) : Prop where
  balanced : Balanced w'.refs (w'.held ++ lost')
  least    : ∀ v, lost.countP (·.2.under_vol_id = v) + op.leaves v ≤ lost'.countP (·.2.under_vol_id = v)
  plain    : op.plain = true →
    ∀ v, lost'.countP (·.2.under_vol_id = v) = lost.countP (·.2.under_vol_id = v) + op.leaves v

section

variable {w : Holding} {lost : List Block}

theorem Accounts.of_held {op : Op} (hop : ∀ v, op.leaves v = 0) {s : Refs} {held : List Block}
    (h : Balanced s (held ++ lost)) : Accounts op lost ⟨s, held⟩ lost :=
  ⟨h, fun v => by rw [hop, Nat.add_zero], fun _ v => by rw [hop, Nat.add_zero]⟩

theorem step_keeps {op : Op} (hgone : op.gone = none) (hop : ∀ v, op.leaves v = 0)
    (h : Safely (op.run w.refs) fun r => Balanced r.1 (r.2 ++ (w.held ++ lost))) :
    Safely (w.step op) fun w' => ∃ lost', Accounts op lost w' lost' := by
  refine h.bind fun r hr => ⟨lost, .of_held hop ?_⟩
  rw [hgone, List.append_assoc]
  exact hr

theorem step_frees {op : Op} {b : Block} {freed : Bool} (hb : b ∈ w.held) (hgone : op.gone = if freed then some b else none)
    (hop : ∀ v, op.leaves v = 0) (h : Balanced w.refs (w.held ++ lost))
    (hrun : Balanced w.refs (b :: (w.held.erase b ++ lost)) → Safely (op.run w.refs) fun r =>
      Balanced r.1 (r.2 ++ if freed then w.held.erase b ++ lost else b :: (w.held.erase b ++ lost))) :
    Safely (w.step op) fun w' => ∃ lost', Accounts op lost w' lost' := by
  have hperm : (w.held ++ lost).Perm (b :: (w.held.erase b ++ lost)) :=
    (List.perm_cons_erase hb).append_right lost
  refine (hrun (h.perm hperm)).bind fun r hr => ⟨lost, .of_held hop ?_⟩
  rw [hgone]
  cases freed with
  | false => exact hr.perm ((List.Perm.append_left _ hperm.symm).trans (by simp))
  | true => exact hr.perm (by simp)

/-- **A step keeps the accounts**, unless it reads a wrapper that is freed. -/
theorem step_safely {op : Op} (h : Balanced w.refs (w.held ++ lost)) (hp : Proper w op)
    (hre : ∀ o ∈ op.rereads, access w.refs o = .ok ()) :
    Safely (w.step op) fun w' => ∃ lost', Accounts op lost w' lost' := by
  have held : ∀ {b : Block}, b ∈ w.held → b ∈ w.held ++ lost := fun hb => List.mem_append_left _ hb
  have nothing : ∀ v : VolId, (0 : Nat) = 0 := fun _ => rfl
  cases op with
  | strToInfo v => exact step_keeps rfl nothing (take_balanced h Kind.noConfusion v)
  | infoCopy info =>
    obtain ⟨hb, hk⟩ := hp (info, .info) (.head _)
    exact step_keeps rfl nothing ((infoCopy_safely h (held hb) hk).bind fun r hr => hr.2)
  | infoFree info =>
    obtain ⟨hb, hk⟩ := hp (info, .info) (.head _)
    refine @step_frees w lost (.infoFree info) info true hb rfl nothing h fun h => ?_
    exact (give_safely h (by rw [hk]; exact Kind.noConfusion)).bind fun r hr => hr
  | getWrapCtx o =>
    obtain ⟨hb, -⟩ := hp (o, .wrapper) (.head _)
    refine step_keeps rfl nothing ?_
    rw [Op.run, getWrapCtx, h.access (held hb), ok_bind]
    exact take_balanced h Kind.noConfusion _
  | freeWrapCtx ctx =>
    obtain ⟨hb, hk⟩ := hp (ctx, .wrapCtx) (.head _)
    refine @step_frees w lost (.freeWrapCtx ctx) ctx true hb rfl nothing h fun h => ?_
    exact (give_safely h (by rw [hk]; exact Kind.noConfusion)).bind fun r hr => hr
  | wrapObject ctx under =>
    obtain ⟨hb, -⟩ := hp (ctx, .wrapCtx) (.head _)
    exact step_keeps rfl nothing (wrapObject_safely h (held hb) under)
  | unwrapObject o under =>
    obtain ⟨hb, hk⟩ := hp (o, .wrapper) (.head _)
    exact step_frees hb rfl nothing h fun h => (unwrapObject_safely h hk under).bind fun r hr => hr
  | make o async b =>
    obtain ⟨hb, -⟩ := hp (o, .wrapper) (.head _)
    exact step_keeps rfl nothing (make_safely h (held hb) async b)
  | forward o async token =>
    obtain ⟨hb, -⟩ := hp (o, .wrapper) (.head _)
    exact step_keeps rfl nothing (forward_safely h (held hb) async token)
  | groupMount o child_file async token =>
    obtain ⟨hb, -⟩ := hp (o, .wrapper) (.head _)
    obtain ⟨hc, -⟩ := hp (child_file, .wrapper) (.tail _ (.head _))
    refine step_keeps rfl nothing ?_
    rw [Op.run, groupMount, h.access (held hc), ok_bind]
    exact forward_safely h (held hb) async token
  | query o =>
    obtain ⟨hb, -⟩ := hp (o, .wrapper) (.head _)
    refine step_keeps rfl nothing ?_
    rw [Op.run, h.access (held hb), ok_bind]
    exact h
  | refreshEnd specific o ret async token => exact step_keeps rfl nothing (refreshEnd_safely h hre)
  | close o ret async token =>
    obtain ⟨hb, hk⟩ := hp (o, .wrapper) (.head _)
    exact step_frees hb rfl nothing h fun h => closeObj_safely h hk ret async token
  | linkCreate curr_obj o async token =>
    refine step_keeps rfl nothing (linkCreate_safely h (fun b hb => held ?_) (fun b hb => held ?_) async token)
    · exact (hp (b, .wrapper) (by rw [Option.mem_def] at hb; simp [Op.args, hb])).1
    · exact (hp (b, .wrapper) (by rw [Option.mem_def] at hb; simp [Op.args, hb])).1
  | linkTwo o_src o_dst async token =>
    refine step_keeps rfl nothing (linkTwo_safely h (fun b hb => held ?_) (fun b hb => held ?_) async token)
    · exact (hp (b, .wrapper) (by rw [Option.mem_def] at hb; simp [Op.args, hb])).1
    · exact (hp (b, .wrapper) (by rw [Option.mem_def] at hb; simp [Op.args, hb])).1
  | fileCall info helper rank_zero async b =>
    have hinfo : ∀ b ∈ info, b ∈ w.held ++ lost ∧ b.2.kind = .info := fun b hb => by
      obtain ⟨hmem, hk⟩ := hp (b, .info) (by rw [Option.mem_def] at hb; simp [Op.args, hb])
      exact ⟨held hmem, hk⟩
    refine (fileCall_safely h hinfo helper rank_zero async b).bind fun r ⟨new, hr, hmarks⟩ => ?_
    refine ⟨new ++ lost, hr.perm ?_, fun v => ?_, fun hplain v => ?_⟩
    · show (r.2 ++ new ++ (w.held ++ lost)).Perm (r.2 ++ w.held ++ (new ++ lost))
      rw [List.append_assoc, List.append_assoc]
      refine List.Perm.append_left _ ?_
      rw [← List.append_assoc, ← List.append_assoc]
      exact List.Perm.append_right _ List.perm_append_comm
    · rw [List.countP_append, Nat.add_comm]
      exact Nat.add_le_add_right (hmarks v).1 _
    · have hor : async = false ∨ rank_zero = false := by
        simpa [Op.plain, or_comm] using hplain
      rw [List.countP_append, (hmarks v).2 hor, Nat.add_comm]
      rfl
  | fileByName file info async token =>
    refine step_keeps rfl nothing (fileByName_safely h (fun b hb => held ?_) (fun b hb => ?_) async token)
    · exact (hp (b, .wrapper) (by rw [Option.mem_def] at hb; simp [Op.args, hb])).1
    · obtain ⟨hmem, hk⟩ := hp (b, .info) (by rw [Option.mem_def] at hb; simp [Op.args, hb])
      exact ⟨held hmem, hk⟩
  | fileReopen o ret reopened async token =>
    obtain ⟨hb, -⟩ := hp (o, .wrapper) (.head _)
    exact step_keeps rfl nothing (fileReopen_safely h (held hb) ret reopened async token)
  | requestWait o ret in_progress =>
    obtain ⟨hb, hk⟩ := hp (o, .wrapper) (.head _)
    exact step_frees hb rfl nothing h fun h => (wait_safely h hk ret in_progress).bind fun r hr => hr
  | requestRelease o ret =>
    obtain ⟨hb, hk⟩ := hp (o, .wrapper) (.head _)
    exact step_frees hb rfl nothing h fun h => (requestRelease_safely h hk ret).bind fun r hr => hr

end

def leavesOf (v : VolId) (ops : List Op) : Nat := (ops.map (Op.leaves v)).sum

theorem access_cases (s : Refs) (b : Block) : access s b = .ok () ∨ access s b = .error .freed := by
  unfold access
  split
  · exact .inl rfl
  · exact .inr rfl

theorem Outlived.cons {op : Op} {ops : List Op} {w w₁ : Holding} (hstep : w.step op = .ok w₁) (h : Outlived ops w₁) :
    Outlived (op :: ops) w := by
  obtain ⟨pre, op', post, w', o, rfl, hpre, ho, hfreed⟩ := h
  refine ⟨op :: pre, op', post, w', o, rfl, ?_, ho, hfreed⟩
  rw [runSteps, hstep]
  exact hpre

/-- A wrapper that is read last is read after nothing else. -/
theorem step_rereads {op : Op} {w : Holding} {o : Block} (ho : o ∈ op.rereads) (hfreed : access w.refs o = .error .freed) :
    w.step op = .error .freed := by
  cases op with
  | refreshEnd specific o' ret async token =>
    cases ret with
    | true => cases specific <;> cases ho
    | false =>
      cases specific with
      | dataset => cases ho
      | object => cases ho
      | datatype =>
        cases ho
        rw [Holding.step, Op.run, refreshEnd, accessLast, if_neg Bool.false_ne_true, hfreed]
        rfl
      | group =>
        cases ho
        rw [Holding.step, Op.run, refreshEnd, accessLast, if_neg Bool.false_ne_true, hfreed]
        rfl
  | _ => cases ho

theorem Outlived.freed : ∀ {ops : List Op} {w : Holding}, Outlived ops w → runSteps ops w = .error .freed := by
  rintro ops w ⟨pre, op, post, w', o, rfl, hpre, ho, hfreed⟩
  induction pre generalizing w with
  | nil =>
    cases hpre
    rw [List.nil_append, runSteps, step_rereads ho hfreed]
    rfl
  | cons op' pre ih =>
    rw [List.cons_append, runSteps]
    rw [runSteps] at hpre
    cases hstep : w.step op' with
    | error e =>
      rw [hstep] at hpre
      cases hpre
    | ok w₁ =>
      rw [hstep] at hpre
      exact ih hpre

/-- **A run keeps the accounts**, unless a refresh outlives its wrapper. -/
theorem steps_safely : ∀ (ops : List Op) {w : Holding} {lost : List Block}, Balanced w.refs (w.held ++ lost) →
    Throughout ops w → ¬ Outlived ops w → Safely (runSteps ops w) fun w' => ∃ lost', Balanced w'.refs (w'.held ++ lost') ∧
      (∀ v, lost.countP (·.2.under_vol_id = v) + leavesOf v ops ≤ lost'.countP (·.2.under_vol_id = v)) ∧
      (ops.all Op.plain = true →
        ∀ v, lost'.countP (·.2.under_vol_id = v) = lost.countP (·.2.under_vol_id = v) + leavesOf v ops)
  | [], w, lost, h, _, _ => ⟨lost, h, fun _ => Nat.le_refl _, fun _ _ => rfl⟩
  | op :: ops, w, lost, h, hp, hout => by
    have hre : ∀ o ∈ op.rereads, access w.refs o = .ok () := fun o ho =>
      (access_cases w.refs o).resolve_right fun hfreed => hout ⟨[], op, ops, w, o, rfl, rfl, ho, hfreed⟩
    have hsafe := step_safely h hp.1 hre
    cases hstep : w.step op with
    | error e =>
      rw [hstep] at hsafe
      rw [runSteps, hstep]
      exact hsafe
    | ok w₁ =>
      rw [hstep] at hsafe
      obtain ⟨lost₁, hacc⟩ := hsafe
      rw [runSteps, hstep, ok_bind]
      refine (steps_safely ops hacc.balanced (hp.2 w₁ hstep) fun hlate => hout (hlate.cons hstep)).mono
        fun w' ⟨lost', hb, hleast, hplain⟩ => ?_
      refine ⟨lost', hb, fun v => ?_, fun hall v => ?_⟩
      · have h1 := hacc.least v
        have h2 := hleast v
        rw [leavesOf, List.map_cons, List.sum_cons, ← leavesOf]
        omega
      · rw [List.all_cons, Bool.and_eq_true] at hall
        rw [hplain hall.2, hacc.plain hall.1, leavesOf, leavesOf, List.map_cons, List.sum_cons, Nat.add_assoc]

def someVol : VolId := ⟨7, by decide⟩

def infoBlock : Block := (0, ⟨.info, someVol⟩)

def fileBlock : Block := (2, ⟨.wrapper, someVol⟩)

def allMade : FileAnswers := ⟨⟨false, true⟩, ⟨false, true⟩, ⟨false, true⟩, false, false, ⟨false, true⟩, false, false, false⟩

/-- A file is opened on rank 0 and closed, and the info is freed. -/
def openAndClose : List Op :=
  [.strToInfo someVol, .fileCall (some infoBlock) true true false allMade, .close fileBlock true false false,
    .infoFree infoBlock]

theorem openAndClose_proper : Throughout openAndClose .start := by
  refine ⟨by decide, ?_⟩
  rintro w₁ ⟨⟩
  refine ⟨by decide, ?_⟩
  rintro w₂ ⟨⟩
  refine ⟨by decide, ?_⟩
  rintro w₃ ⟨⟩
  exact ⟨by decide, fun w₄ _ => trivial⟩

/-- **A callback reads or frees a freed block exactly where a refresh of a group or a datatype that failed ends after its
wrapper was freed**, in any run of pointers that the library holds. -/
theorem steps_freed_iff {ops : List Op} (hp : Throughout ops .start) :
    runSteps ops .start = .error .freed ↔ Outlived ops .start := by
  refine ⟨fun hr => ?_, Outlived.freed⟩
  by_contra hout
  have hsafe := @steps_safely ops .start [] balanced_start hp hout
  rw [hr] at hsafe
  exact hsafe rfl

def groupBlock : Block := (3, ⟨.wrapper, someVol⟩)

/-- A refresh of a group begins, the connector below has the group unwrapped, and the refresh fails. -/
def unwrapAndRefresh : List Op :=
  [.strToInfo someVol, .fileCall (some infoBlock) true false false allMade, .make fileBlock false ⟨false, true⟩,
    .query groupBlock, .unwrapObject groupBlock true, .refreshEnd .group groupBlock false false false]

theorem unwrapAndRefresh_proper : Throughout unwrapAndRefresh .start := by
  refine ⟨by decide, ?_⟩
  rintro w₁ ⟨⟩
  refine ⟨by decide, ?_⟩
  rintro w₂ ⟨⟩
  refine ⟨by decide, ?_⟩
  rintro w₃ ⟨⟩
  refine ⟨by decide, ?_⟩
  rintro w₄ ⟨⟩
  refine ⟨by decide, ?_⟩
  rintro w₅ ⟨⟩
  exact ⟨by decide, fun w₆ _ => trivial⟩

/-- The file that is opened and closed reads no freed block; the refresh that outlives its wrapper does. -/
theorem steps_freed_refresh : ¬ Outlived openAndClose .start ∧ Outlived unwrapAndRefresh .start := by
  refine ⟨fun hout => ?_, (steps_freed_iff unwrapAndRefresh_proper).1 rfl⟩
  have hfreed := (steps_freed_iff openAndClose_proper).2 hout
  cases hfreed

/-- **The references to an ID are those of the blocks that the library holds**, and two for each file that was marked on
rank 0; more only where a file was marked with a request pointer. -/
theorem references_held {ops : List Op} {w : Holding} (hp : Throughout ops .start) (hr : runSteps ops .start = .ok w) :
    (∀ b ∈ w.held, access w.refs b = .ok ()) ∧ ∀ v, ∃ lost : Nat,
      w.refs.count v = w.held.countP (·.2.under_vol_id = v) + lost ∧ leavesOf v ops ≤ lost ∧
      (ops.all Op.plain = true → lost = leavesOf v ops) := by
  have hout : ¬ Outlived ops .start := fun hout => by
    rw [hout.freed] at hr
    cases hr
  have hsafe := @steps_safely ops .start [] balanced_start hp hout
  rw [hr] at hsafe
  obtain ⟨lost, hb, hleast, hplain⟩ := hsafe
  refine ⟨fun b hmem => hb.access (List.mem_append_left _ hmem), fun v => ⟨lost.countP (·.2.under_vol_id = v), ?_, ?_, ?_⟩⟩
  · rw [hb.count, List.countP_append]
    push_cast
    rfl
  · simpa using hleast v
  · intro hall
    simpa using hplain hall v

/-- The library holds nothing any more, and the connector below two references. -/
theorem references_held_marked : ∃ w, runSteps openAndClose .start = .ok w ∧ w.held = [] ∧ w.refs.count someVol = 2 := by
  obtain ⟨w, hw, hheld⟩ : ∃ w, runSteps openAndClose .start = .ok w ∧ w.held = [] := ⟨_, rfl, rfl⟩
  obtain ⟨-, hall⟩ := references_held openAndClose_proper hw
  obtain ⟨lost, hcount, -, hplain⟩ := hall someVol
  refine ⟨w, hw, hheld, ?_⟩
  rw [hcount, hplain (by decide), hheld]
  decide

end References
end Provio
