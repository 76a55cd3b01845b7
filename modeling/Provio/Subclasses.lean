import Provio.Extensible
/-!
# Subclasses — the files of a directory and the dictionary in memory stay in step

A call of `add_subclass` adds to one file exactly the fields that no file has yet, and the same fields to the dictionary
(`addFields_get?`), so the files keep holding every field once and the dictionary stays their union (`InStep.add`).
-/
namespace Provio

open Ordered (Dict)

variable {V : Type}

/-- A `.json` file of the directory and the dictionary it holds. -/
def Holds (json : JsonLib V) (files : Dir) (name : Str) (d : Dict Str V) : Prop :=
  isJson name = true ∧ ∃ text, files.get? name = some text ∧ json.load text = some d

/-- **Disk and memory in step**: every file loads, no field is in two of them, and the dictionary is their union. -/
structure InStep (json : JsonLib V) (files : Dir) (dict : Dict Str V) : Prop where
  loads : ∀ name text, isJson name = true → files.get? name = some text → (json.load text).isSome = true
  once  : ∀ name d name' d', Holds json files name d → Holds json files name' d' →
    ∀ field, field ∈ d → field ∈ d' → name = name'
  union : ∀ field v, dict.get? field = some v ↔ ∃ name d, Holds json files name d ∧ d.get? field = some v

section Files

variable {json : JsonLib V} {files : Dir} {dict : Dict Str V}

theorem Holds.eq {name : Str} {d d' : Dict Str V} (h : Holds json files name d) (h' : Holds json files name d') :
    d = d' := by
  obtain ⟨-, text, htext, hload⟩ := h
  obtain ⟨-, text', htext', hload'⟩ := h'
  rw [htext] at htext'
  obtain rfl := Option.some.inj htext'
  rw [hload] at hload'
  exact Option.some.inj hload'

theorem mem_validDicts {d : Dict Str V} : d ∈ validDicts json files.items ↔ ∃ name, Holds json files name d := by
  unfold validDicts Holds
  rw [List.mem_filterMap]
  constructor
  · rintro ⟨⟨name, text⟩, hmem, hload⟩
    cases hjson : isJson name with
    | false => simp [hjson] at hload
    | true =>
      rw [if_pos hjson] at hload
      exact ⟨name, hjson, text, Dict.get?_eq_some_iff.2 hmem, hload⟩
  · rintro ⟨name, hjson, text, htext, hload⟩
    exact ⟨(name, text), Dict.get?_eq_some_iff.1 htext, by rw [if_pos hjson]; exact hload⟩

/-- **A constructor over files that all load and share no field makes their union.** -/
theorem init_union (hloads : ∀ name text, isJson name = true → files.get? name = some text → (json.load text).isSome = true)
    (honce : ∀ name d name' d', Holds json files name d → Holds json files name' d' →
      ∀ field, field ∈ d → field ∈ d' → name = name') (path : Str) (arg : Option Str) :
    ∃ self out, Extensible.init json path files arg = .ok (self, out) ∧ InStep json files self._subclass_dict := by
  have hfirst : ∀ f, files.items.find? (fun f => isJson f.1) = some f → (json.load f.2).isSome = true := fun f hf =>
    hloads f.1 f.2 (by simpa using List.find?_some hf)
      (Dict.get?_eq_some_iff.2 (List.mem_of_find?_eq_some hf))
  obtain ⟨self, out, hinit, hdict, -⟩ := Extensible.init_ok (Extensible.firstLoads_iff.2 hfirst) path arg
  refine ⟨self, out, hinit, hloads, honce, fun field v => ?_⟩
  have hagree : ∀ d ∈ validDicts json files.items, ∀ e ∈ validDicts json files.items, ∀ k v w,
      d.get? k = some v → e.get? k = some w → v = w := by
    intro d hd e he k v w hv hw
    obtain ⟨name, hd⟩ := mem_validDicts.1 hd
    obtain ⟨name', he⟩ := mem_validDicts.1 he
    obtain rfl := honce name d name' e hd he k (Dict.mem_iff_exists.2 ⟨v, hv⟩) (Dict.mem_iff_exists.2 ⟨w, hw⟩)
    rw [hd.eq he, hw] at hv
    exact (Option.some.inj hv).symm
  rw [hdict, Dict.get?_merge_iff hagree]
  constructor
  · rintro ⟨d, hd, hv⟩
    obtain ⟨name, hd⟩ := mem_validDicts.1 hd
    exact ⟨name, d, hd, hv⟩
  · rintro ⟨name, d, hd, hv⟩
    exact ⟨d, mem_validDicts.2 ⟨name, hd⟩, hv⟩

theorem InStep.mem_iff (h : InStep json files dict) (field : Str) :
    field ∈ dict ↔ ∃ name d, Holds json files name d ∧ field ∈ d := by
  simp only [Dict.mem_iff_exists, h.union]
  constructor
  · rintro ⟨v, name, d, hd, hv⟩
    exact ⟨name, d, hd, v, hv⟩
  · rintro ⟨name, d, hd, v, hv⟩
    exact ⟨v, name, d, hd, hv⟩

end Files

/-! ## One call -/

def Fields.names : Fields → List Str
  | .list fields => fields
  | .str field   => [field]
  | .other       => []

/-- **A call adds the fields that are not known, to both dictionaries.** -/
theorem addFields_get? (v : V) (k : Str) : ∀ (fields : List Str) (dicts : Dict Str V × Dict Str V),
    (∀ k, k ∈ dicts.2 → k ∈ dicts.1) →
    (fields.foldl (addField v) dicts).1.get? k = (dicts.1.get? k).or (if k ∈ fields then some v else none) ∧
    (fields.foldl (addField v) dicts).2.get? k =
      (dicts.2.get? k).or (if k ∈ fields ∧ k ∉ dicts.1 then some v else none)
  | [], dicts, _ => by simp
  | field :: fields, (dict, new), hsub => by
    rw [List.foldl_cons]
    by_cases hfield : field ∈ dict
    · have hstep : addField v (dict, new) field = (dict, new) := by simp [addField, hfield]
      obtain ⟨hdict, hnew⟩ := addFields_get? v k fields (dict, new) hsub
      rw [hstep, hdict, hnew]
      by_cases hk : k = field
      · subst hk
        obtain ⟨w, hw⟩ := Dict.mem_iff_exists.1 hfield
        simp [hfield, hw]
      · simp [hk]
    · have hstep : addField v (dict, new) field = (dict.set field v, new.set field v) := by simp [addField, hfield]
      have hsub' : ∀ k, k ∈ new.set field v → k ∈ dict.set field v := fun k hk => by
        rw [Dict.mem_set] at hk ⊢
        exact hk.imp_right (hsub k)
      obtain ⟨hdict, hnew⟩ := addFields_get? v k fields (dict.set field v, new.set field v) hsub'
      rw [hstep, hdict, hnew]
      by_cases hk : k = field
      · subst hk
        have hnone : dict.get? k = none := Dict.get?_eq_none.2 hfield
        have hnone' : new.get? k = none := Dict.get?_eq_none.2 (fun h => hfield (hsub k h))
        simp [hnone, hnone', hfield]
      · simp [hk]

section Call

variable {json : JsonLib V} {files : Dir} {self : Extensible V} {_class subclass : Str} {fields : Fields}

/-- What the class's file holds before the call. -/
def classDict (json : JsonLib V) (files : Dir) (_class : Str) : Dict Str V :=
  ((files.get? (_class ++ str ".json")).bind json.load).getD Dict.empty

theorem addSubclass_eq (json : JsonLib V) (self : Extensible V) (files : Dir) (_class subclass : Str) (fields : Fields) :
    self.addSubclass json files _class subclass fields =
      let dicts := fields.names.foldl (addField (json.str subclass)) (self._subclass_dict, classDict json files _class)
      ({ self with _subclass_dict := dicts.1 },
        (files.set (_class ++ str ".json") []).set (_class ++ str ".json") (json.dump dicts.2)) := by
  cases fields <;> rfl

theorem isJson_class (_class : Str) : isJson (_class ++ str ".json") = true :=
  List.isSuffixOf_iff_suffix.2 (List.suffix_append _class _)

theorem Holds.classDict {name : Str} {d : Dict Str V} (h : Holds json files name d)
    (hname : name = _class ++ str ".json") : classDict json files _class = d := by
  obtain ⟨-, text, htext, hload⟩ := h
  rw [Provio.classDict, ← hname, htext, Option.bind_some, hload, Option.getD_some]

theorem holds_of_mem_classDict {field : Str} (h : field ∈ classDict json files _class) :
    Holds json files (_class ++ str ".json") (classDict json files _class) := by
  unfold classDict at h ⊢
  cases htext : files.get? (_class ++ str ".json") with
  | none => simp [htext, Dict.mem_def, Dict.empty] at h
  | some text =>
    cases hload : json.load text with
    | none => simp [htext, hload, Dict.mem_def, Dict.empty] at h
    | some d => exact ⟨isJson_class _class, text, htext, by simp [hload]⟩

theorem holds_addSubclass (hjson : ∀ d, json.load (json.dump d) = some d) {name : Str} {d : Dict Str V} :
    Holds json (self.addSubclass json files _class subclass fields).2 name d ↔
      if name = _class ++ str ".json" then
        d = (fields.names.foldl (addField (json.str subclass)) (self._subclass_dict, classDict json files _class)).2
      else Holds json files name d := by
  rw [addSubclass_eq]
  unfold Holds
  split
  · rename_i hname
    subst hname
    simp only [Dict.get?_set, if_true, isJson_class, true_and, Option.some.injEq, exists_eq_left', hjson]
    exact eq_comm
  · rename_i hname
    simp only [Dict.get?_set, if_neg hname]

theorem InStep.added (h : InStep json files self._subclass_dict) (k : Str) :
    (self.addSubclass json files _class subclass fields).1._subclass_dict.get? k =
      (self._subclass_dict.get? k).or (if k ∈ fields.names then some (json.str subclass) else none) ∧
    (fields.names.foldl (addField (json.str subclass)) (self._subclass_dict, Provio.classDict json files _class)).2.get? k =
      ((Provio.classDict json files _class).get? k).or
        (if k ∈ fields.names ∧ k ∉ self._subclass_dict then some (json.str subclass) else none) := by
  rw [addSubclass_eq]
  exact addFields_get? (json.str subclass) k fields.names (self._subclass_dict, Provio.classDict json files _class)
    (fun k hk => (h.mem_iff k).2 ⟨_, _, holds_of_mem_classDict hk, hk⟩)

/-- **The fields that stay keep their file and their subclass.** -/
theorem InStep.keeps (hjson : ∀ d, json.load (json.dump d) = some d) (h : InStep json files self._subclass_dict)
    {name : Str} {d : Dict Str V} {field : Str} {v : V} (hd : Holds json files name d) (hv : d.get? field = some v) :
    ∃ d', Holds json (self.addSubclass json files _class subclass fields).2 name d' ∧ d'.get? field = some v := by
  by_cases hname : name = _class ++ str ".json"
  · refine ⟨_, (holds_addSubclass hjson).2 (by rw [if_pos hname]), ?_⟩
    rw [(h.added field).2, hd.classDict hname, hv, Option.some_or]
  · exact ⟨d, (holds_addSubclass hjson).2 (by rwa [if_neg hname]), hv⟩

/-- **A field that was not known is stored**, in the file of the class. -/
theorem InStep.stores (hjson : ∀ d, json.load (json.dump d) = some d) (h : InStep json files self._subclass_dict)
    {field : Str} (hfield : field ∈ fields.names) (hnew : field ∉ self._subclass_dict) :
    ∃ d, Holds json (self.addSubclass json files _class subclass fields).2 (_class ++ str ".json") d ∧
      d.get? field = some (json.str subclass) := by
  have hclass : (Provio.classDict json files _class).get? field = none :=
    Dict.get?_eq_none.2 fun hmem => hnew ((h.mem_iff field).2 ⟨_, _, holds_of_mem_classDict hmem, hmem⟩)
  refine ⟨_, (holds_addSubclass hjson).2 (by rw [if_pos rfl]), ?_⟩
  rw [(h.added field).2, hclass, if_pos ⟨hfield, hnew⟩]
  rfl

/-- **The fields known after a call** are those before it and those it names. -/
theorem InStep.mem_added (h : InStep json files self._subclass_dict) (field : Str) :
    field ∈ (self.addSubclass json files _class subclass fields).1._subclass_dict ↔
      field ∈ self._subclass_dict ∨ field ∈ fields.names := by
  rw [Dict.mem_iff_isSome, (h.added field).1, Dict.mem_iff_isSome]
  cases self._subclass_dict.get? field <;> simp

theorem InStep.apart (h : InStep json files self._subclass_dict) {name : Str} {d : Dict Str V} {k : Str}
    (hd : Holds json files name d) (hk : k ∈ d)
    (hnew : k ∈ (fields.names.foldl (addField (json.str subclass))
      (self._subclass_dict, Provio.classDict json files _class)).2) : name = _class ++ str ".json" := by
  have hmem : k ∈ self._subclass_dict := (h.mem_iff k).2 ⟨name, d, hd, hk⟩
  have hold : k ∈ Provio.classDict json files _class := by
    rw [Dict.mem_iff_isSome, (h.added k).2] at hnew
    simpa [hmem, ← Dict.mem_iff_isSome] using hnew
  exact h.once name d _ _ hd (holds_of_mem_classDict hold) k hk hold

theorem InStep.add_once (hjson : ∀ d, json.load (json.dump d) = some d) (h : InStep json files self._subclass_dict)
    {name name' : Str} {d d' : Dict Str V}
    (hd : Holds json (self.addSubclass json files _class subclass fields).2 name d)
    (hd' : Holds json (self.addSubclass json files _class subclass fields).2 name' d') {k : Str} (hk : k ∈ d)
    (hk' : k ∈ d') : name = name' := by
  rw [holds_addSubclass hjson] at hd hd'
  by_cases hname : name = _class ++ str ".json" <;> by_cases hname' : name' = _class ++ str ".json"
  · rw [hname, hname']
  · rw [if_pos hname] at hd
    rw [if_neg hname'] at hd'
    exact absurd (h.apart hd' hk' (hd ▸ hk)) hname'
  · rw [if_neg hname] at hd
    rw [if_pos hname'] at hd'
    exact absurd (h.apart hd hk (hd' ▸ hk')) hname
  · rw [if_neg hname] at hd
    rw [if_neg hname'] at hd'
    exact h.once name d name' d' hd hd' k hk hk'

theorem InStep.add_union (hjson : ∀ d, json.load (json.dump d) = some d) (h : InStep json files self._subclass_dict)
    (k : Str) (v : V) : (self.addSubclass json files _class subclass fields).1._subclass_dict.get? k = some v ↔
      ∃ name d, Holds json (self.addSubclass json files _class subclass fields).2 name d ∧ d.get? k = some v := by
  rw [(h.added k).1]
  constructor
  · intro hv
    cases hold : self._subclass_dict.get? k with
    | some w =>
      rw [hold, Option.some_or] at hv
      obtain ⟨name, d, hd, hw⟩ := (h.union k w).1 hold
      rw [← Option.some.inj hv]
      exact ⟨name, h.keeps hjson hd hw⟩
    | none =>
      have hfresh : k ∉ self._subclass_dict := Dict.get?_eq_none.1 hold
      have hclass : (Provio.classDict json files _class).get? k = none :=
        Dict.get?_eq_none.2 (fun hk => hfresh ((h.mem_iff k).2 ⟨_, _, holds_of_mem_classDict hk, hk⟩))
      refine ⟨_, _, (holds_addSubclass hjson).2 (by rw [if_pos rfl]), ?_⟩
      rw [(h.added k).2, hclass, ← hv, hold]
      simp [hfresh]
  · rintro ⟨name, d, hd, hv⟩
    rw [holds_addSubclass hjson] at hd
    by_cases hname : name = _class ++ str ".json"
    · rw [if_pos hname] at hd
      rw [hd, (h.added k).2] at hv
      cases hclass : (Provio.classDict json files _class).get? k with
      | some w =>
        rw [hclass, Option.some_or] at hv
        have hmem : k ∈ Provio.classDict json files _class := Dict.mem_iff_exists.2 ⟨w, hclass⟩
        rw [(h.union k w).2 ⟨_, _, holds_of_mem_classDict hmem, hclass⟩, Option.some_or, hv]
      | none =>
        rw [hclass, Option.none_or] at hv
        by_cases hk : k ∈ fields.names ∧ k ∉ self._subclass_dict
        · rw [if_pos hk] at hv
          rw [Dict.get?_eq_none.2 hk.2, Option.none_or, if_pos hk.1, hv]
        · rw [if_neg hk] at hv
          cases hv
    · rw [if_neg hname] at hd
      rw [(h.union k v).2 ⟨name, d, hd, hv⟩, Option.some_or]

theorem InStep.add (hjson : ∀ d, json.load (json.dump d) = some d) (h : InStep json files self._subclass_dict) :
    InStep json (self.addSubclass json files _class subclass fields).2
      (self.addSubclass json files _class subclass fields).1._subclass_dict := by
  refine ⟨fun name text hname htext => ?_, fun name d name' d' hd hd' k hk hk' => h.add_once hjson hd hd' hk hk',
    fun k v => h.add_union hjson k v⟩
  rw [addSubclass_eq] at htext
  simp only [Dict.get?_set] at htext
  split at htext
  · rw [← Option.some.inj htext, hjson]
    rfl
  · exact h.loads name text hname htext

end Call

/-! ## A sequence of calls -/

structure AddCall where
  _class   : Str
  subclass : Str
  fields   : Fields

def addSubclasses (json : JsonLib V) : Extensible V → Dir → List AddCall → Extensible V × Dir
  | self, files, []         => (self, files)
  | self, files, c :: calls =>
    let (self, files) := self.addSubclass json files c._class c.subclass c.fields
    addSubclasses json self files calls

section Run

variable {json : JsonLib V}

theorem addSubclasses_append : ∀ (before after : List AddCall) (self : Extensible V) (files : Dir),
    addSubclasses json self files (before ++ after) =
      addSubclasses json (addSubclasses json self files before).1 (addSubclasses json self files before).2 after
  | [], _, _, _                  => rfl
  | _ :: before, after, _, _ => addSubclasses_append before after _ _

theorem InStep.run (hjson : ∀ d, json.load (json.dump d) = some d) : ∀ (calls : List AddCall) {self : Extensible V}
    {files : Dir}, InStep json files self._subclass_dict →
    InStep json (addSubclasses json self files calls).2 (addSubclasses json self files calls).1._subclass_dict
  | [], _, _, h         => h
  | _ :: calls, _, _, h => InStep.run hjson calls (h.add hjson)

theorem InStep.run_keeps (hjson : ∀ d, json.load (json.dump d) = some d) {name : Str} {field : Str} {v : V} :
    ∀ (calls : List AddCall) {self : Extensible V} {files : Dir}, InStep json files self._subclass_dict →
    ∀ {d : Dict Str V}, Holds json files name d → d.get? field = some v →
    ∃ d', Holds json (addSubclasses json self files calls).2 name d' ∧ d'.get? field = some v
  | [], _, _, _, d, hd, hv         => ⟨d, hd, hv⟩
  | _ :: calls, _, _, h, _, hd, hv => by
    obtain ⟨d', hd', hv'⟩ := h.keeps hjson hd hv
    exact InStep.run_keeps hjson calls (h.add hjson) hd' hv'

theorem InStep.run_mem (hjson : ∀ d, json.load (json.dump d) = some d) (field : Str) : ∀ (calls : List AddCall)
    {self : Extensible V} {files : Dir}, InStep json files self._subclass_dict →
    (field ∈ (addSubclasses json self files calls).1._subclass_dict ↔
      field ∈ self._subclass_dict ∨ ∃ c ∈ calls, field ∈ c.fields.names)
  | [], self, files, _ => by simp [addSubclasses]
  | c :: calls, self, files, h => by
    have hstep : InStep json (self.addSubclass json files c._class c.subclass c.fields).2
        (self.addSubclass json files c._class c.subclass c.fields).1._subclass_dict := h.add hjson
    have hmem : field ∈ (self.addSubclass json files c._class c.subclass c.fields).1._subclass_dict ↔
        field ∈ self._subclass_dict ∨ field ∈ c.fields.names := h.mem_added field
    have ih := InStep.run_mem hjson field calls hstep
    rw [hmem] at ih
    rw [addSubclasses]
    simpa [or_assoc] using ih

/-- The listing's order, and a file's place in it, make no difference. -/
theorem InStep.relisted {files listing : Dir} {dict : Dict Str V} (h : InStep json files dict)
    (hsame : ∀ name, listing.get? name = files.get? name) : InStep json listing dict := by
  have hholds : ∀ name d, Holds json listing name d ↔ Holds json files name d := fun name d => by
    unfold Holds
    rw [hsame]
  refine ⟨fun name text hname htext => h.loads name text hname (by rwa [← hsame]), ?_, ?_⟩
  · simpa only [hholds] using h.once
  · simpa only [hholds] using h.union

/-- **Over any sequence of calls the files and the dictionary in memory stay in step**: after each call the files' union
is the dictionary, a fresh instance over the directory, listed in any order, sees the same, no earlier field has changed
its subclass or its file, and every field is in exactly one file.  The fields are those from before and those the calls
name; one that a call is the first to name has its subclass, in the file of its class. -/
theorem addSubclass_run (hjson : ∀ d, json.load (json.dump d) = some d) {files : Dir}
    (hloads : ∀ name text, isJson name = true → files.get? name = some text → (json.load text).isSome = true)
    (honce : ∀ name d name' d', Holds json files name d → Holds json files name' d' →
      ∀ field, field ∈ d → field ∈ d' → name = name') (path : Str) (arg : Option Str) :
    ∃ self out, Extensible.init json path files arg = .ok (self, out) ∧ ∀ before after : List AddCall,
      let held := addSubclasses json self files before
      let last := addSubclasses json self files (before ++ after)
      (∀ field v, last.1._subclass_dict.get? field = some v ↔
        ∃ name d, Holds json last.2 name d ∧ d.get? field = some v) ∧
      (∀ listing : Dir, (∀ name, listing.get? name = last.2.get? name) → ∀ arg, ∃ fresh out,
        Extensible.init json path listing arg = .ok (fresh, out) ∧
        ∀ field, fresh._subclass_dict.get? field = last.1._subclass_dict.get? field) ∧
      (∀ field v, held.1._subclass_dict.get? field = some v → last.1._subclass_dict.get? field = some v) ∧
      (∀ name d field v, Holds json held.2 name d → d.get? field = some v →
        ∃ d', Holds json last.2 name d' ∧ d'.get? field = some v) ∧
      (∀ field ∈ last.1._subclass_dict, ∃! name, ∃ d, Holds json last.2 name d ∧ field ∈ d) ∧
      (∀ field, field ∈ last.1._subclass_dict ↔
        field ∈ held.1._subclass_dict ∨ ∃ c ∈ after, field ∈ c.fields.names) ∧
      (∀ c rest, after = c :: rest → ∀ field ∈ c.fields.names, field ∉ held.1._subclass_dict →
        last.1._subclass_dict.get? field = some (json.str c.subclass) ∧
        ∃ d, Holds json last.2 (c._class ++ str ".json") d ∧ d.get? field = some (json.str c.subclass)) := by
  obtain ⟨self, out, hinit, hstep⟩ := init_union hloads honce path arg
  refine ⟨self, out, hinit, fun before after => ?_⟩
  have hheld := hstep.run hjson before
  have hlast := hstep.run hjson (before ++ after)
  have hkeeps : ∀ name d field v, Holds json (addSubclasses json self files before).2 name d → d.get? field = some v →
      ∃ d', Holds json (addSubclasses json self files (before ++ after)).2 name d' ∧ d'.get? field = some v := by
    intro name d field v hd hv
    rw [addSubclasses_append]
    exact hheld.run_keeps hjson after hd hv
  refine ⟨hlast.union, fun listing hsame arg => ?_, fun field v hv => ?_, hkeeps, fun field hmem => ?_, fun field => ?_, ?_⟩
  · have hlisted := hlast.relisted hsame
    obtain ⟨fresh, out, hfresh, hunion⟩ := init_union hlisted.loads hlisted.once path arg
    refine ⟨fresh, out, hfresh, fun field => Option.ext (fun v => ?_)⟩
    rw [hunion.union, hlisted.union]
  · obtain ⟨name, d, hd, hv⟩ := (hheld.union field v).1 hv
    obtain ⟨d', hd', hv'⟩ := hkeeps name d field v hd hv
    exact (hlast.union field v).2 ⟨name, d', hd', hv'⟩
  · obtain ⟨name, d, hd, hmem⟩ := (hlast.mem_iff field).1 hmem
    refine ⟨name, ⟨d, hd, hmem⟩, ?_⟩
    rintro name' ⟨d', hd', hmem'⟩
    exact hlast.once name' d' name d hd' hd field hmem' hmem
  · rw [addSubclasses_append]
    exact hheld.run_mem hjson field after
  · rintro c rest rfl field hfield hnew
    obtain ⟨d, hd, hv⟩ : ∃ d, Holds json ((addSubclasses json self files before).1.addSubclass json
        (addSubclasses json self files before).2 c._class c.subclass c.fields).2 (c._class ++ str ".json") d ∧
        d.get? field = some (json.str c.subclass) := hheld.stores hjson hfield hnew
    rw [addSubclasses_append] at hlast ⊢
    obtain ⟨d', hd', hv'⟩ := (hheld.add hjson).run_keeps hjson rest hd hv
    exact ⟨(hlast.union field _).2 ⟨_, d', hd', hv'⟩, d', hd', hv'⟩

end Run

/-! ## Two files and a call -/

def metricsDict : Dict Str Str := ⟨[(str "loss", str "Metric")], by decide⟩

def typeDict : Dict Str Str := ⟨[(str "main", str "Program"), (str "node", str "Dataset")], by decide⟩

def twoClasses : Dir :=
  ⟨[(str "Metrics.json", JsonObject.print metricsDict), (str "Type.json", JsonObject.print typeDict)], by decide⟩

theorem twoClasses_text {name text : Str} (h : twoClasses.get? name = some text) :
    name = str "Metrics.json" ∧ text = JsonObject.print metricsDict ∨
    name = str "Type.json" ∧ text = JsonObject.print typeDict := by
  have hmem := Dict.get?_eq_some_iff.1 h
  simpa [twoClasses] using hmem

theorem twoClasses_holds {name : Str} {d : Dict Str Str} (h : Holds jsonText twoClasses name d) :
    name = str "Metrics.json" ∧ d = metricsDict ∨ name = str "Type.json" ∧ d = typeDict := by
  obtain ⟨-, text, htext, hload⟩ := h
  rcases twoClasses_text htext with ⟨rfl, rfl⟩ | ⟨rfl, rfl⟩
  · exact .inl ⟨rfl, Option.some.inj (hload.symm.trans (JsonObject.parse_print metricsDict))⟩
  · exact .inr ⟨rfl, Option.some.inj (hload.symm.trans (JsonObject.parse_print typeDict))⟩

/-- A known field keeps its subclass when a call names it again. -/
theorem addSubclass_run_two : ∃ self out, Extensible.init jsonText (str "classes/") twoClasses none = .ok (self, out) ∧
    (addSubclasses jsonText self twoClasses
      [⟨str "Type", str "Program", .list [str "loss", str "edge", str "edge"]⟩]).1._subclass_dict.get? (str "loss") =
        some (str "Metric") := by
  have hapart : ∀ field, field ∈ metricsDict → field ∉ typeDict := by
    intro field h h'
    obtain rfl := List.mem_singleton.1 (show field ∈ [str "loss"] from h)
    exact absurd h' (by decide)
  obtain ⟨self, out, hinit, hrun⟩ := @addSubclass_run Str jsonText JsonObject.parse_print twoClasses
    (fun name text _ htext => by
      rcases twoClasses_text htext with ⟨-, rfl⟩ | ⟨-, rfl⟩
      · exact Option.isSome_iff_exists.2 ⟨_, JsonObject.parse_print metricsDict⟩
      · exact Option.isSome_iff_exists.2 ⟨_, JsonObject.parse_print typeDict⟩)
    (fun name d name' d' hd hd' field hmem hmem' => by
      rcases twoClasses_holds hd with ⟨rfl, rfl⟩ | ⟨rfl, rfl⟩ <;>
        rcases twoClasses_holds hd' with ⟨rfl, rfl⟩ | ⟨rfl, rfl⟩
      · rfl
      · exact absurd hmem' (hapart field hmem)
      · exact absurd hmem (hapart field hmem')
      · rfl)
    (str "classes/") none
  have hloss : self._subclass_dict.get? (str "loss") = some (str "Metric") :=
    ((hrun [] []).1 _ _).2 ⟨str "Metrics.json", metricsDict,
      ⟨by decide, _, rfl, JsonObject.parse_print metricsDict⟩, rfl⟩
  exact ⟨self, out, hinit, (hrun [] _).2.2.1 _ _ hloss⟩

end Provio
