import Provio.Config
/-!
# Settings — the configuration as a map from keys to values

`_set_params` recognises twenty-one keys; each has a field of its own (`ParsedConfig.get`), and a value means one
thing to it (`Key.read`).  `setParams` assigns that meaning to the key's field and to no other (`setParams_eq`,
`get_assign`), and a config is what its keys say (`ParsedConfig.ext_get`).  The loop of `read_config` is a run over
the pieces of the file (`readConfig_eq`).
-/
namespace Provio

/-- The keys of `_set_params`. -/
inductive Key where
  | baseUri
  | provPrefix
  | statFilePath
  | newGraphPath
  | legacyGraphPath
  | format
  | provLevel
  | enableStatFile
  | enableLegacyGraph
  | enableFile
  | enableGroup
  | enableDataset
  | enableAttr
  | enableDtype
  | enableDuration
  | enableThread
  | enableUser
  | enableApi
  | enableProgram
  | numOfApis
  | enableBdb
deriving DecidableEq

def Key.text : Key → CStr
  | .baseUri           => cstr "BASE_URI"
  | .provPrefix        => cstr "PREFIX"
  | .statFilePath      => cstr "STAT_FILE_PATH"
  | .newGraphPath      => cstr "NEW_GRAPH_PATH"
  | .legacyGraphPath   => cstr "LEGACY_GRAPH_PATH"
  | .format            => cstr "FORMAT"
  | .provLevel         => cstr "PROV_LEVEL"
  | .enableStatFile    => cstr "ENABLE_STAT_FILE"
  | .enableLegacyGraph => cstr "ENALBE_LEGACY_GRAPH"
  | .enableFile        => cstr "ENABLE_FILE"
  | .enableGroup       => cstr "ENABLE_GROUP"
  | .enableDataset     => cstr "ENABLE_DATASET"
  | .enableAttr        => cstr "ENABLE_ATTR"
  | .enableDtype       => cstr "ENABLE_DTYPE"
  | .enableDuration    => cstr "ENABLE_DURATION"
  | .enableThread      => cstr "ENABLE_THREAD"
  | .enableUser        => cstr "ENABLE_USER"
  | .enableApi         => cstr "ENABLE_API"
  | .enableProgram     => cstr "ENABLE_PROGRAM"
  | .numOfApis         => cstr "NUM_OF_APIS"
  | .enableBdb         => cstr "ENABLE_BDB"

def Key.all : List Key :=
  [.baseUri, .provPrefix, .statFilePath, .newGraphPath, .legacyGraphPath, .format, .provLevel, .enableStatFile,
    .enableLegacyGraph, .enableFile, .enableGroup, .enableDataset, .enableAttr, .enableDtype, .enableDuration,
    .enableThread, .enableUser, .enableApi, .enableProgram, .numOfApis, .enableBdb]

def keyOf (text : CStr) : Option Key := Key.all.find? (fun k => text = k.text)

/-- What a field holds. -/
inductive Value where
  | text (s : Option CStr)
  | flag (b : Bool)
  | number (n : Int)
  | level (n : Nat)
deriving DecidableEq

def ParsedConfig.get (c : ParsedConfig) : Key → Value
  | .baseUri           => .text c.prov_base_uri
  | .provPrefix        => .text c.prov_prefix
  | .statFilePath      => .text c.stat_file_path
  | .newGraphPath      => .text c.new_graph_path
  | .legacyGraphPath   => .text c.legacy_graph_path
  | .format            => .text c.prov_line_format
  | .provLevel         => .level c.prov_level
  | .enableStatFile    => .flag c.enable_stat_file
  | .enableLegacyGraph => .flag c.enable_legacy_graph
  | .enableFile        => .flag c.enable_file_prov
  | .enableGroup       => .flag c.enable_group_prov
  | .enableDataset     => .flag c.enable_dataset_prov
  | .enableAttr        => .flag c.enable_attr_prov
  | .enableDtype       => .flag c.enable_dtype_prov
  | .enableDuration    => .flag c.enable_duration_prov
  | .enableThread      => .flag c.enable_thread_prov
  | .enableUser        => .flag c.enable_user_prov
  | .enableApi         => .flag c.enable_api_prov
  | .enableProgram     => .flag c.enable_program_prov
  | .numOfApis         => .number c.num_of_apis
  | .enableBdb         => .flag c.enable_bdb

def Key.isText : Key → Bool
  | .baseUri | .provPrefix | .statFilePath | .newGraphPath | .legacyGraphPath | .format => true
  | _ => false

/-- What a value means to the key; `none` is a value it ignores. -/
def Key.read : Key → CStr → Option Value
  | .baseUri, val | .provPrefix, val | .statFilePath, val | .newGraphPath, val | .legacyGraphPath, val
  | .format, val => some (.text (some val))
  | .provLevel, val => some (.level (enumOf (atoi val)))
  | .numOfApis, val => if 0 < (val.headD 0).toInt8 then some (.number (atoi val)) else none
  | _, val => some (.flag (flagOf val))

/-- The assignment `_set_params` makes for a key. -/
def assign (k : Key) (val : CStr) (c : ParsedConfig) : ParsedConfig :=
  match k with
  | .baseUri           => { c with prov_base_uri := some val }
  | .provPrefix        => { c with prov_prefix := some val }
  | .statFilePath      => { c with stat_file_path := some val }
  | .newGraphPath      => { c with new_graph_path := some val }
  | .legacyGraphPath   => { c with legacy_graph_path := some val }
  | .format            => { c with prov_line_format := some val }
  | .provLevel         => { c with prov_level := enumOf (atoi val) }
  | .enableStatFile    => { c with enable_stat_file := flagOf val }
  | .enableLegacyGraph => { c with enable_legacy_graph := flagOf val }
  | .enableFile        => { c with enable_file_prov := flagOf val }
  | .enableGroup       => { c with enable_group_prov := flagOf val }
  | .enableDataset     => { c with enable_dataset_prov := flagOf val }
  | .enableAttr        => { c with enable_attr_prov := flagOf val }
  | .enableDtype       => { c with enable_dtype_prov := flagOf val }
  | .enableDuration    => { c with enable_duration_prov := flagOf val }
  | .enableThread      => { c with enable_thread_prov := flagOf val }
  | .enableUser        => { c with enable_user_prov := flagOf val }
  | .enableApi         => { c with enable_api_prov := flagOf val }
  | .enableProgram     => { c with enable_program_prov := flagOf val }
  | .numOfApis         => if 0 < (val.headD 0).toInt8 then { c with num_of_apis := atoi val } else c
  | .enableBdb         => { c with enable_bdb := flagOf val }

theorem get_assign (k : Key) (val : CStr) (c : ParsedConfig) (k' : Key) :
    (assign k val c).get k' = if k' = k then (k.read val).getD (c.get k) else c.get k' := by
  by_cases h : k' = k
  · subst h
    rw [if_pos rfl]
    cases k' <;> try rfl
    simp only [assign, Key.read]
    split <;> rfl
  · rw [if_neg h]
    cases k <;> cases k' <;> first | rfl | exact absurd rfl h | (simp only [assign]; split <;> rfl)

theorem ParsedConfig.ext_get {c d : ParsedConfig} (h : ∀ k, c.get k = d.get k) : c = d := by
  obtain ⟨⟨⟩, _, _⟩ := c
  obtain ⟨⟨⟩, _, _⟩ := d
  have h1 := h .baseUri; have h2 := h .provPrefix; have h3 := h .statFilePath; have h4 := h .newGraphPath
  have h5 := h .legacyGraphPath; have h6 := h .format; have h7 := h .provLevel; have h8 := h .enableStatFile
  have h9 := h .enableLegacyGraph; have h10 := h .enableFile; have h11 := h .enableGroup
  have h12 := h .enableDataset; have h13 := h .enableAttr; have h14 := h .enableDtype
  have h15 := h .enableDuration; have h16 := h .enableThread; have h17 := h .enableUser; have h18 := h .enableApi
  have h19 := h .enableProgram; have h20 := h .numOfApis; have h21 := h .enableBdb
  simp only [ParsedConfig.get, Value.text.injEq, Value.flag.injEq, Value.number.injEq, Value.level.injEq] at *
  subst_vars
  rfl

theorem keyOf_text (k : Key) : keyOf k.text = some k := by cases k <;> rfl

theorem keyOf_eq_none {text : CStr} : keyOf text = none ↔ ∀ k : Key, text ≠ k.text := by
  have hall : ∀ k : Key, k ∈ Key.all := by intro k; cases k <;> decide
  simp [keyOf, List.find?_eq_none, hall]

theorem keyOf_eq_some {text : CStr} {k : Key} (h : keyOf text = some k) : text = k.text := by
  simpa using List.find?_some h

theorem parseVal_ne_nil {val_in val : CStr} (h : parseVal val_in = .ok val) : val ≠ [] := by
  unfold parseVal at h
  split at h
  · cases h
  · rename_i tok r ht
    cases h
    exact (Lines.token_run ht).1

def assignText (key val : CStr) (c : ParsedConfig) : ParsedConfig :=
  match keyOf key with
  | some k => assign k val c
  | none   => c

theorem assignText_text (k : Key) (val : CStr) (c : ParsedConfig) : assignText k.text val c = assign k val c := by
  rw [assignText, keyOf_text]

theorem assignText_unknown {key : CStr} (h : keyOf key = none) (val : CStr) (c : ParsedConfig) :
    assignText key val c = c := by
  rw [assignText, h]

theorem text_literals : cstr "BASE_URI" = Key.baseUri.text ∧ cstr "PREFIX" = Key.provPrefix.text ∧
    cstr "STAT_FILE_PATH" = Key.statFilePath.text ∧ cstr "NEW_GRAPH_PATH" = Key.newGraphPath.text ∧
    cstr "LEGACY_GRAPH_PATH" = Key.legacyGraphPath.text ∧ cstr "FORMAT" = Key.format.text ∧
    cstr "PROV_LEVEL" = Key.provLevel.text ∧ cstr "ENABLE_STAT_FILE" = Key.enableStatFile.text ∧
    cstr "ENALBE_LEGACY_GRAPH" = Key.enableLegacyGraph.text ∧ cstr "ENABLE_FILE" = Key.enableFile.text ∧
    cstr "ENABLE_GROUP" = Key.enableGroup.text ∧ cstr "ENABLE_DATASET" = Key.enableDataset.text ∧
    cstr "ENABLE_ATTR" = Key.enableAttr.text ∧ cstr "ENABLE_DTYPE" = Key.enableDtype.text ∧
    cstr "ENABLE_DURATION" = Key.enableDuration.text ∧ cstr "ENABLE_THREAD" = Key.enableThread.text ∧
    cstr "ENABLE_USER" = Key.enableUser.text ∧ cstr "ENABLE_API" = Key.enableApi.text ∧
    cstr "ENABLE_PROGRAM" = Key.enableProgram.text ∧ cstr "NUM_OF_APIS" = Key.numOfApis.text ∧
    cstr "ENABLE_BDB" = Key.enableBdb.text :=
  ⟨rfl, rfl, rfl, rfl, rfl, rfl, rfl, rfl, rfl, rfl, rfl, rfl, rfl, rfl, rfl, rfl, rfl, rfl, rfl, rfl, rfl⟩

theorem Key.text_inj {k k' : Key} (h : k.text = k'.text) : k = k' := by
  have h' := keyOf_text k
  rw [h, keyOf_text] at h'
  exact (Option.some.inj h').symm

theorem setParams_eq (key val_in : CStr) (p : Parse) :
    setParams key val_in p
      = parseVal val_in >>= fun val => .ok (1, { p with config := assignText key val p.config }) := by
  unfold setParams
  cases hval : parseVal val_in with
  | error f => rfl
  | ok val =>
    have hblank := parseVal_ne_nil hval
    rw [ok_bind, ok_bind]
    cases hk : keyOf key with
    | none =>
      have hne : ∀ k : Key, (key = k.text) = False := fun k => eq_false (keyOf_eq_none.1 hk k)
      rw [assignText_unknown hk]
      simp only [text_literals, hne, if_false]
      rfl
    | some k =>
      obtain rfl := keyOf_eq_some hk
      have htext : ∀ k' : Key, (k.text = k'.text) = (k = k') := fun k' =>
        propext ⟨Key.text_inj, fun e => by rw [e]⟩
      rw [assignText_text]
      simp only [text_literals, htext, assignUnlessBlank, if_neg hblank]
      cases k with
      | numOfApis =>
        simp only [reduceCtorEq, if_false, if_true, assign]
        split <;> rfl
      | _ =>
        simp only [reduceCtorEq, if_false, if_true, assign]
        rfl

/-! ## The loop as a run over the pieces of the file -/

/-- What the loop makes of a piece. -/
inductive Line where
  | comment
  /-- No key, or no value: the parse ends. -/
  | irregular
  /-- A value of marks only, which `_parse_val` does not survive. -/
  | marks
  | setting (key val : CStr)
deriving DecidableEq

/-- The piece is in the buffer up to its first NUL. -/
def lineOf (piece : CStr) : Line :=
  let cfg_line := piece.takeWhile (· ≠ 0)
  if cfg_line.head? = some star then .comment
  else
    match Lines.token CFG_DELIMS cfg_line with
    | none => .irregular
    | some (key, rest) =>
      match Lines.token CFG_DELIMS rest with
      | none => .irregular
      | some (val_in, _) =>
        match Lines.token (· = star) val_in with
        | none          => .marks
        | some (val, _) => .setting key val

/-- **A piece is a setting when its first two tokens are the key and a value** that is not all marks. -/
theorem lineOf_eq_setting {piece key val : CStr} : lineOf piece = .setting key val ↔
    (piece.takeWhile (· ≠ 0)).head? ≠ some star ∧ ∃ rest val_in rest' rest'',
      Lines.token CFG_DELIMS (piece.takeWhile (· ≠ 0)) = some (key, rest) ∧
      Lines.token CFG_DELIMS rest = some (val_in, rest') ∧ Lines.token (· = star) val_in = some (val, rest'') := by
  unfold lineOf
  dsimp only
  by_cases hstar : (piece.takeWhile (· ≠ 0)).head? = some star
  · rw [if_pos hstar]
    exact ⟨nofun, fun h => absurd hstar h.1⟩
  rw [if_neg hstar, iff_of_eq (congrArg (· ∧ _) (eq_true hstar)), iff_of_eq (true_and _)]
  cases hkey : Lines.token CFG_DELIMS (piece.takeWhile (· ≠ 0)) with
  | none => simp
  | some kr =>
    obtain ⟨k, rest⟩ := kr
    cases hval : Lines.token CFG_DELIMS rest with
    | none => simp [hval]
    | some vr =>
      obtain ⟨val_in, rest'⟩ := vr
      cases hmark : Lines.token (· = star) val_in with
      | none => simp [hval, hmark]
      | some mr => simp [hval, hmark, Prod.ext_iff]

def runPieces : ParsedConfig → List CStr → Except Fault (Int × ParsedConfig)
  | c, []      => .ok (0, c)
  | c, l :: ls =>
    match lineOf l with
    | .comment         => runPieces c ls
    | .irregular       => .ok (-1, c)
    | .marks           => .error .null
    | .setting key val => runPieces (assignText key val c) ls

def piecesOf (file : CStr) : List CStr := Lines.pieces newline (CFG_LINE_LEN_MAX - 1) file

theorem readLoop_eq : ∀ (fuel : Nat) (p : Parse) (file : CStr), file.length < fuel →
    readLoop fuel 1 p file = runPieces p.config (piecesOf file) >>= fun r => .ok (r.1, { p with config := r.2 })
  | 0, _, _, h => absurd h (by simp)
  | fuel + 1, p, [], _ => rfl
  | fuel + 1, p, b :: file, h => by
    obtain ⟨piece, rest, hpiece⟩ : ∃ piece rest, Lines.piece newline (CFG_LINE_LEN_MAX - 1) (b :: file) = (piece, rest) :=
      ⟨_, _, rfl⟩
    have hrest : rest.length < fuel := by
      have := Lines.piece_rest_lt newline (show 0 < CFG_LINE_LEN_MAX - 1 by decide) b file
      rw [hpiece] at this
      exact Nat.lt_of_lt_of_le this (Nat.le_of_lt_succ h)
    have hpieces : piecesOf (b :: file) = piece :: piecesOf rest :=
      Lines.pieces_of_piece newline (by decide) (by simp) hpiece
    have hgets : fgets CFG_LINE_LEN_MAX (b :: file) = some (piece.takeWhile (· ≠ 0), rest) := by
      rw [fgets, if_neg (by simp), hpiece]
    rw [hpieces, readLoop, hgets, runPieces, lineOf]
    dsimp only
    rw [if_pos rfl]
    by_cases hcomment : (piece.takeWhile (· ≠ 0)).head? = some star
    · rw [if_pos hcomment, if_pos hcomment]
      exact readLoop_eq fuel p rest hrest
    · rw [if_neg hcomment, if_neg hcomment]
      cases hkey : Lines.token CFG_DELIMS (piece.takeWhile (· ≠ 0)) with
      | none => rfl
      | some kr =>
        cases hval : Lines.token CFG_DELIMS kr.2 with
        | none => simp [hval]
        | some vr =>
          simp only [hval, setParams_eq, parseVal]
          cases Lines.token (· = star) vr.1 with
          | none => rfl
          | some v => exact readLoop_eq fuel _ rest hrest

theorem readConfig_eq (file_path file : CStr) :
    readConfig file_path (some file)
      = runPieces (startParse file_path).config (piecesOf file) >>= fun r => .ok (r.1, ⟨r.2, []⟩) :=
  readLoop_eq (file.length + 1) (startParse file_path) file (Nat.lt_succ_self _)

/-! ## What a run leaves -/

/-- The pieces before the first irregular one. -/
def readable (ls : List CStr) : List CStr := ls.takeWhile (fun l => lineOf l ≠ .irregular)

def assignPiece (c : ParsedConfig) (l : CStr) : ParsedConfig :=
  match lineOf l with
  | .setting key val => assignText key val c
  | _                => c

theorem runPieces_eq (c : ParsedConfig) (ls : List CStr) :
    runPieces c ls = if ∃ l ∈ readable ls, lineOf l = .marks then .error .null
      else .ok (if ∃ l ∈ ls, lineOf l = .irregular then -1 else 0, (readable ls).foldl assignPiece c) := by
  induction ls generalizing c with
  | nil => rfl
  | cons l ls ih =>
    unfold runPieces readable
    cases hl : lineOf l with
    | irregular => simp [hl]
    | marks => simp [hl]
    | comment => simpa [hl, readable, assignPiece] using ih c
    | setting key val => simpa [hl, readable, assignPiece] using ih (assignText key val c)

theorem readable_append {a : List CStr} (h : ∀ l ∈ a, lineOf l ≠ .irregular) (b : List CStr) :
    readable (a ++ b) = a ++ readable b :=
  List.takeWhile_append_of_pos (by simpa using h)

theorem mem_readable {ls : List CStr} {l : CStr} (h : l ∈ readable ls) : l ∈ ls :=
  (List.takeWhile_subset _) h

theorem runPieces_eq_ok {c : ParsedConfig} {ls : List CStr} {r : Int × ParsedConfig} : runPieces c ls = .ok r ↔
    (∀ l ∈ readable ls, lineOf l ≠ .marks) ∧
      r = (if ∃ l ∈ ls, lineOf l = .irregular then -1 else 0, (readable ls).foldl assignPiece c) := by
  rw [runPieces_eq]
  by_cases hm : ∃ l ∈ readable ls, lineOf l = .marks
  · rw [if_pos hm]
    refine ⟨nofun, fun h => ?_⟩
    obtain ⟨l, hl, e⟩ := hm
    exact absurd e (h.1 l hl)
  · rw [if_neg hm]
    refine ⟨fun h => ⟨fun l hl e => hm ⟨l, hl, e⟩, (Except.ok.inj h).symm⟩, fun h => by rw [h.2]⟩

/-- No piece stops or faults a run. -/
def Regular (ls : List CStr) : Prop := ∀ l ∈ ls, lineOf l ≠ .irregular ∧ lineOf l ≠ .marks

theorem regular_setting {l key val : CStr} (h : lineOf l = .setting key val) : Regular [l] := by
  intro m hm
  rw [List.mem_singleton.1 hm, h]
  exact ⟨nofun, nofun⟩

theorem Regular.append {a b : List CStr} (ha : Regular a) (hb : Regular b) : Regular (a ++ b) := by
  intro l hl
  rcases List.mem_append.1 hl with hl | hl
  · exact ha l hl
  · exact hb l hl

theorem Regular.runPieces_append {a : List CStr} (h : Regular a) (b : List CStr) (c : ParsedConfig) :
    runPieces c (a ++ b) = runPieces (a.foldl assignPiece c) b := by
  induction a generalizing c with
  | nil => rfl
  | cons l a ih =>
    have hl := h l List.mem_cons_self
    have ih := ih (fun m hm => h m (List.mem_cons_of_mem l hm))
    rw [List.cons_append, List.foldl_cons, ← ih, runPieces, assignPiece]
    cases hline : lineOf l with
    | comment => rfl
    | irregular => exact absurd hline hl.1
    | marks => exact absurd hline hl.2
    | setting key val => rfl

theorem Regular.runPieces {ls : List CStr} (h : Regular ls) (c : ParsedConfig) :
    runPieces c ls = .ok (0, ls.foldl assignPiece c) := by
  have := h.runPieces_append [] c
  rwa [List.append_nil] at this

theorem regular_of_runPieces {ls : List CStr} {c d : ParsedConfig} (h : runPieces c ls = .ok (0, d)) : Regular ls := by
  obtain ⟨hm, h0⟩ := runPieces_eq_ok.1 h
  have hirr : ¬ ∃ l ∈ ls, lineOf l = .irregular := by
    intro hirr
    rw [if_pos hirr] at h0
    exact absurd (Prod.mk.inj h0).1 (by decide)
  have hread : readable ls = ls := by
    rw [readable, List.takeWhile_eq_self_iff]
    intro l hl
    simpa using fun e => hirr ⟨l, hl, e⟩
  rw [hread] at hm
  exact fun l hl => ⟨fun e => hirr ⟨l, hl, e⟩, hm l hl⟩

def meant (k : Key) (l : CStr) : Option Value :=
  match lineOf l with
  | .setting key val => if key = k.text then k.read val else none
  | _                => none

def lastMeant (k : Key) (ls : List CStr) : Option Value := (ls.filterMap (meant k)).getLast?

theorem get_assignText (key val : CStr) (c : ParsedConfig) (k : Key) :
    (assignText key val c).get k = (if key = k.text then k.read val else none).getD (c.get k) := by
  cases hk : keyOf key with
  | none => rw [assignText_unknown hk, if_neg (keyOf_eq_none.1 hk k)]; rfl
  | some k' =>
    obtain rfl := keyOf_eq_some hk
    rw [assignText_text, get_assign]
    by_cases h : k = k'
    · subst h; simp
    · rw [if_neg h, if_neg (fun e => h (Key.text_inj e).symm)]; rfl

theorem get_assignPiece (c : ParsedConfig) (l : CStr) (k : Key) :
    (assignPiece c l).get k = (meant k l).getD (c.get k) := by
  unfold assignPiece meant
  cases lineOf l with
  | setting key val => exact get_assignText key val c k
  | _ => rfl

theorem get_foldl (k : Key) : ∀ (ls : List CStr) (c : ParsedConfig),
    (ls.foldl assignPiece c).get k = (lastMeant k ls).getD (c.get k)
  | [], _ => rfl
  | l :: ls, c => by
    rw [List.foldl_cons, get_foldl k ls, get_assignPiece, lastMeant, lastMeant, List.filterMap_cons]
    cases meant k l with
    | none => rfl
    | some v => simp [List.getLast?_cons]

end Provio
