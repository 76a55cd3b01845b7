import Provio.Basic
import Provio.Json
/-!
# Extensible — the subclass files and the dictionary made of them

The constructor reads every `.json` file of its directory, in listing order, into one dictionary.  A file that does not
load leaves `_dict` as the file before left it, and it is merged once more: with no file before, there is no `_dict`
(`init_iff`).  `add_subclass` reads one file, merges into it under a test against the dictionary in memory, and writes
it back.
-/
namespace Provio

open Ordered (Dict)

abbrev Str := List Char

def str (s : String) : Str := s.toList

/-- The exceptions that leave a function. -/
inductive PyError where
  | TypeError
  | IndexError
  | NameError
  | UnboundLocalError
  | RedlandError
  | OSError
  | Exception
deriving DecidableEq, Repr

/-- `json`, with `V` the values of JSON: `load` is `none` on a text it rejects. -/
structure JsonLib (V : Type) where
  str  : Str → V
  load : Str → Option (Dict Str V)
  dump : Dict Str V → Str

def DEFAULT_SUBCLASS : Str := str "DefaultSubclass"

def DEFAULT_FIELD : Str := str "DefaultField"

/-- A subclass directory: its files by name, in the order `os.listdir` gives them.  `_subclass_path` ends in `/`. -/
abbrev Dir := Dict Str Str

structure Extensible (V : Type) where
  _subclass      : V
  _field         : Str
  _subclass_path : Str
  _subclass_dict : Dict Str V

variable {V : Type}

def mergeTwoDicts (x y : Dict Str V) : Dict Str V := x.update y

/-- `endswith(".json")`. -/
def isJson (subclass_name : Str) : Bool := (str ".json").isSuffixOf subclass_name

def failedMessage (path subclass_name : Str) : Str :=
  str "Failed to load subclass file \"" ++ path ++ subclass_name ++ str "\""

namespace Extensible

/-- The loop over the listing, with what it prints.  The first argument is the local `_dict`. -/
def loadFiles (json : JsonLib V) (path : Str) : Option (Dict Str V) → Dict Str V → List (Str × Str) →
    Except PyError (Dict Str V × List Str)
  | _, dict, []                                 => .ok (dict, [])
  | _dict, dict, (subclass_name, text) :: files =>
    if isJson subclass_name then
      match json.load text with
      | some loaded => loadFiles json path (some loaded) (mergeTwoDicts dict loaded) files
      | none =>
        match _dict with
        | none => .error .UnboundLocalError
        | some before => do
          let (dict, out) ← loadFiles json path (some before) (mergeTwoDicts dict before) files
          pure (dict, failedMessage path subclass_name :: out)
    else loadFiles json path _dict dict files

/-- The constructor, with what it prints. -/
def init (json : JsonLib V) (path : Str) (files : Dir) (arg : Option Str) : Except PyError (Extensible V × List Str) := do
  let (dict, out) ← loadFiles json path none Dict.empty files.items
  match arg.filter (· ≠ []) with
  | none     => pure (⟨json.str DEFAULT_SUBCLASS, DEFAULT_FIELD, path, dict⟩, out ++ [str "warning: blank provenance node"])
  | some arg =>
    match dict.get? arg with
    | some found => pure (⟨found, arg, path, dict⟩, out)
    | none       => pure (⟨json.str DEFAULT_SUBCLASS, arg, path, dict⟩,
        out ++ [str "warning: " ++ arg ++ str " does not belong to any existing subclasses"])

end Extensible

/-- The third parameter of `add_subclass`. -/
inductive Fields where
  | list (fields : List Str)
  | str (field : Str)
  | other

/-- One field goes to the dictionary in memory and to that of the file, unless it is known. -/
def addField (subclass : V) (dicts : Dict Str V × Dict Str V) (field : Str) : Dict Str V × Dict Str V :=
  if field ∉ dicts.1 then (dicts.1.set field subclass, dicts.2.set field subclass) else dicts

/-- `_class` has no path separator, so that `_class` + `.json` is a file of the directory.  What goes to standard output is
left out. -/
def Extensible.addSubclass (json : JsonLib V) (self : Extensible V) (files : Dir) (_class subclass : Str)
    (fields : Fields) : Extensible V × Dir :=
  let name := _class ++ Provio.str ".json"
  let subclass_new := ((files.get? name).bind json.load).getD Dict.empty
  -- opening for writing truncates
  let files := files.set name []
  let (dict, subclass_new) := match fields with
    | .list fields => fields.foldl (addField (json.str subclass)) (self._subclass_dict, subclass_new)
    | .str field   => addField (json.str subclass) (self._subclass_dict, subclass_new) field
    | .other       => (self._subclass_dict, subclass_new)
  ({ self with _subclass_dict := dict }, files.set name (json.dump subclass_new))

/-! ## What the constructor makes of a directory -/

def validDicts (json : JsonLib V) (files : List (Str × Str)) : List (Dict Str V) :=
  files.filterMap (fun f => if isJson f.1 then json.load f.2 else none)

def firstLoads (json : JsonLib V) (files : List (Str × Str)) : Bool :=
  match files.find? (fun f => isJson f.1) with
  | some f => (json.load f.2).isSome
  | none   => true

def failedMessages (json : JsonLib V) (path : Str) (files : List (Str × Str)) : List Str :=
  files.filterMap (fun f => if isJson f.1 && (json.load f.2).isNone then some (failedMessage path f.1) else none)

namespace Extensible

variable {json : JsonLib V} {path : Str}

/-- **Once a file has loaded, a failure changes nothing**: what is merged again is in the dictionary already. -/
theorem loadFiles_some : ∀ (files : List (Str × Str)) {before dict : Dict Str V}, dict.update before = dict →
    loadFiles json path (some before) dict files =
      .ok ((validDicts json files).foldl Dict.update dict, failedMessages json path files)
  | [], _, _, _ => rfl
  | (subclass_name, text) :: files, before, dict, h => by
    rw [loadFiles]
    cases hjson : isJson subclass_name with
    | false =>
      simp only [Bool.false_eq_true, if_false, loadFiles_some files h]
      simp [validDicts, failedMessages, hjson]
    | true =>
      cases hload : json.load text with
      | some loaded =>
        simp only [if_true, mergeTwoDicts, loadFiles_some files (Dict.update_self dict loaded)]
        simp [validDicts, failedMessages, hjson, hload]
      | none =>
        simp only [if_true, mergeTwoDicts, h, loadFiles_some files h, ok_bind]
        simp [validDicts, failedMessages, hjson, hload, pure, Except.pure]

theorem loadFiles_none (dict : Dict Str V) : ∀ files : List (Str × Str), loadFiles json path none dict files =
    if firstLoads json files then
      .ok ((validDicts json files).foldl Dict.update dict, failedMessages json path files)
    else .error .UnboundLocalError
  | [] => rfl
  | (subclass_name, text) :: files => by
    rw [loadFiles]
    cases hjson : isJson subclass_name with
    | false =>
      simp only [Bool.false_eq_true, if_false, loadFiles_none dict files]
      simp [validDicts, failedMessages, firstLoads, hjson]
    | true =>
      cases hload : json.load text with
      | some loaded =>
        simp only [if_true, mergeTwoDicts, loadFiles_some files (Dict.update_self dict loaded)]
        simp [validDicts, failedMessages, firstLoads, hjson, hload]
      | none => simp [firstLoads, hjson, hload]

theorem init_eq (files : Dir) (arg : Option Str) : init json path files arg =
    if firstLoads json files.items then
      let dict := Dict.merge (validDicts json files.items)
      let out := failedMessages json path files.items
      match arg.filter (· ≠ []) with
      | none     => .ok (⟨json.str DEFAULT_SUBCLASS, DEFAULT_FIELD, path, dict⟩, out ++ [str "warning: blank provenance node"])
      | some arg =>
        match dict.get? arg with
        | some found => .ok (⟨found, arg, path, dict⟩, out)
        | none       => .ok (⟨json.str DEFAULT_SUBCLASS, arg, path, dict⟩,
            out ++ [str "warning: " ++ arg ++ str " does not belong to any existing subclasses"])
    else .error .UnboundLocalError := by
  rw [init, loadFiles_none]
  cases firstLoads json files.items <;> rfl

theorem firstLoads_iff {files : List (Str × Str)} : firstLoads json files = true ↔
    ∀ f, files.find? (fun f => isJson f.1) = some f → (json.load f.2).isSome = true := by
  unfold firstLoads
  cases files.find? (fun f => isJson f.1) <;> simp

theorem init_ok {files : Dir} (h : firstLoads json files.items = true) (path : Str) (arg : Option Str) :
    ∃ self out, init json path files arg = .ok (self, out) ∧
      self._subclass_dict = Dict.merge (validDicts json files.items) ∧ failedMessages json path files.items <+: out := by
  rw [init_eq, if_pos h]
  dsimp only
  cases arg.filter (· ≠ []) with
  | none => exact ⟨_, _, rfl, rfl, List.prefix_append _ _⟩
  | some arg =>
    dsimp only
    cases (Dict.merge (validDicts json files.items)).get? arg with
    | some found => exact ⟨_, _, rfl, rfl, List.prefix_refl _⟩
    | none => exact ⟨_, _, rfl, rfl, List.prefix_append _ _⟩

/-- **The constructor merges exactly the valid files, and only prints a message for each other one, if and only if the
first `.json` file of the listing is valid.** -/
theorem init_iff (json : JsonLib V) (path : Str) (files : Dir) (arg : Option Str) :
    (∃ self out, init json path files arg = .ok (self, out) ∧
      self._subclass_dict = Dict.merge (validDicts json files.items) ∧
      failedMessages json path files.items <+: out) ↔
    ∀ f, files.items.find? (fun f => isJson f.1) = some f → (json.load f.2).isSome = true := by
  rw [← firstLoads_iff]
  constructor
  · rintro ⟨self, out, hinit, -⟩
    rw [init_eq] at hinit
    by_contra h
    rw [if_neg h] at hinit
    cases hinit
  · exact fun h => init_ok h path arg

end Extensible

/-- Dictionaries of strings, in the layout of `json.dump`. -/
def jsonText : JsonLib Str := ⟨id, JsonObject.parse, JsonObject.print⟩

/-- **A directory of one file that is not JSON** leaves the constructor without a `_dict`. -/
theorem init_broken_file : ¬ ∃ self out,
    Extensible.init jsonText (str "classes/") ⟨[(str "broken.json", [])], by decide⟩ none = .ok (self, out) := by
  rintro ⟨self, out, h⟩
  cases h

end Provio
