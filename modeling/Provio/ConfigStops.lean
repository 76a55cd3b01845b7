import Provio.ConfigFile
/-!
# ConfigStops — a parse that ends early

The first irregular line ends `read_config` with the settings before it applied, and `load_config` drops the `-1`.
So the lines after it are lost without a word, unless they only repeat what is already set (`loadConfig_complete_iff`).
-/
namespace Provio

/-- The parser takes the line, or a piece of it, for a setting of the key. -/
def Sets (k : Key) (l : CStr) : Prop := ∃ p ∈ piecesOf l, (meant k p).isSome

/-- Every setting line of the file that no later line of its key overrides is in force. -/
def InForce (file : CStr) (c : ParsedConfig) : Prop :=
  ∀ before l after (k : Key) val, linesOf file = before ++ l :: after → IsSetting l k.text val →
    (∀ m ∈ after, ¬ Sets k m) → k.read val = some (c.get k)

/-- What `load_config` must not leave undone: when it returns, the file's settings are in force. -/
def Complete (path : Option CStr) (fopen : CStr → Option CStr) : Prop :=
  ∀ c, loadConfig path fopen = .ok c → ∀ p file, path = some p → fopen p = some file → InForce file c

/-- What a key is set to by the pieces before the first irregular one, or by default. -/
def setBefore (path file : CStr) (k : Key) : Value :=
  (lastMeant k (readable (piecesOf file))).getD ((startParse path).config.get k)

/-- After the first irregular line no setting differs from what its key is already set to. -/
def NothingLost (path file : CStr) : Prop :=
  ∀ before l after (k : Key) val, linesOf file = before ++ l :: after → IsSetting l k.text val →
    (∀ m ∈ after, ¬ Sets k m) → (∃ p ∈ before.flatMap piecesOf, lineOf p = .irregular) →
    k.read val = some (setBefore path file k)

theorem lastMeant_append (k : Key) (a b : List CStr) : lastMeant k (a ++ b) = (lastMeant k b).or (lastMeant k a) := by
  rw [lastMeant, List.filterMap_append, List.getLast?_append]
  rfl

theorem lastMeant_eq_none {k : Key} {ls : List CStr} : lastMeant k ls = none ↔ ∀ l ∈ ls, meant k l = none := by
  rw [lastMeant, List.getLast?_eq_none_iff, List.filterMap_eq_nil_iff]

/-- **When `load_config` returns, and with what.** -/
theorem loadConfig_eq_ok {fopen : CStr → Option CStr} {path file : CStr} (h : fopen path = some file) {c : ParsedConfig} :
    loadConfig (some path) fopen = .ok c ↔
      (∀ l ∈ readable (piecesOf file), lineOf l ≠ .marks) ∧
        c = (readable (piecesOf file)).foldl assignPiece (startParse path).config := by
  unfold loadConfig
  dsimp only
  rw [h, readConfig_eq]
  constructor
  · intro hload
    cases hrun : runPieces (startParse path).config (piecesOf file) with
    | error f => rw [hrun] at hload; cases hload
    | ok r =>
      obtain ⟨hm, rfl⟩ := runPieces_eq_ok.1 hrun
      rw [hrun] at hload
      exact ⟨hm, (Except.ok.inj hload).symm⟩
  · rintro ⟨hm, rfl⟩
    rw [runPieces_eq_ok.2 ⟨hm, rfl⟩]
    rfl

theorem get_loaded (path file : CStr) (k : Key) :
    ((readable (piecesOf file)).foldl assignPiece (startParse path).config).get k = setBefore path file k :=
  get_foldl k _ _

theorem IsSetting.piecesOf {l key val : CStr} (h : IsSetting l key val) {file : CStr} (hl : l ∈ linesOf file) :
    piecesOf l = [l] :=
  piecesOf_short (isLine_of_mem_linesOf hl) (length_le_of_short h.short)

/-- **A setting before the first irregular line, not overridden later, is what its key is set to.** -/
theorem setBefore_of_reached {path file : CStr} {before after : List CStr} {l val : CStr} {k : Key}
    (hfile : linesOf file = before ++ l :: after) (hset : IsSetting l k.text val)
    (hlast : ∀ m ∈ after, ¬ Sets k m) (hreached : ¬ ∃ p ∈ before.flatMap piecesOf, lineOf p = .irregular) :
    k.read val = some (setBefore path file k) := by
  have hpieces : piecesOf file = before.flatMap piecesOf ++ (l :: after.flatMap piecesOf) := by
    rw [piecesOf_eq_flatMap, hfile, List.flatMap_append, List.flatMap_cons,
      hset.piecesOf (show l ∈ linesOf file by rw [hfile]; simp)]
    rfl
  have hread : readable (piecesOf file) = (before.flatMap piecesOf ++ [l]) ++ readable (after.flatMap piecesOf) := by
    rw [hpieces, ← List.singleton_append, ← List.append_assoc]
    refine readable_append (fun p hp => ?_) _
    rcases List.mem_append.1 hp with hp | hp
    · exact fun e => hreached ⟨p, hp, e⟩
    · rw [List.mem_singleton.1 hp, hset.lineOf]; nofun
  have hafter : lastMeant k (readable (after.flatMap piecesOf)) = none := by
    rw [lastMeant_eq_none]
    intro p hp
    obtain ⟨m, hm, hpm⟩ := List.mem_flatMap.1 (mem_readable hp)
    exact Option.not_isSome_iff_eq_none.1 (fun e => hlast m hm ⟨p, hpm, e⟩)
  obtain ⟨v, hv⟩ := Option.isSome_iff_exists.1 (k.read_plain hset.val_ne hset.val_plain)
  have hmeant : meant k l = some v := by rw [meant, hset.lineOf]; simp [hv]
  rw [setBefore, hread, lastMeant_append, hafter, Option.none_or, lastMeant_append]
  simp [lastMeant, hmeant, hv]

/-- **When `load_config` leaves nothing undone**: the file cannot be read, the parser faults before the first irregular
line, or the settings after that line change nothing. -/
theorem loadConfig_complete_iff (path : Option CStr) (fopen : CStr → Option CStr) :
    Complete path fopen ↔ ∀ p file, path = some p → fopen p = some file →
      (∃ l ∈ readable (piecesOf file), lineOf l = .marks) ∨ NothingLost p file := by
  constructor
  · intro hcomplete p file hp hopen
    by_cases hm : ∃ l ∈ readable (piecesOf file), lineOf l = .marks
    · exact .inl hm
    · right
      intro before l after k val hfile hset hlast _
      have hload := (loadConfig_eq_ok hopen).2 ⟨fun l hl e => hm ⟨l, hl, e⟩, rfl⟩
      rw [← get_loaded]
      exact hcomplete _ (by rw [hp, hload]) p file hp hopen before l after k val hfile hset hlast
  · intro hlost c hload p file hp hopen before l after k val hfile hset hlast
    subst hp
    obtain ⟨hm, rfl⟩ := (loadConfig_eq_ok hopen).1 hload
    have hno : ¬ ∃ l ∈ readable (piecesOf file), lineOf l = .marks := fun ⟨l, hl, e⟩ => hm l hl e
    rw [get_loaded]
    by_cases hreached : ∃ q ∈ before.flatMap piecesOf, lineOf q = .irregular
    · exact ((hlost p file rfl hopen).resolve_left hno) before l after k val hfile hset hlast hreached
    · exact setBefore_of_reached hfile hset hlast hreached

def blankLineFile : CStr := cstr "FORMAT=rdf\n\nPROV_LEVEL=2\n"

/-- The setting after the blank line is lost, and the call returns. -/
theorem loadConfig_drops_settings : ¬ Complete (some (cstr "/p.cfg")) (fun _ => some blankLineFile) := by
  intro h
  have hload : loadConfig (some (cstr "/p.cfg")) (fun _ => some blankLineFile)
      = .ok { initConfig with stat_file_path := some (cstr "/p.cfg"), prov_line_format := some (cstr "rdf") } := by
    decide
  have hset : IsSetting (cstr "PROV_LEVEL=2\n") (Key.text .provLevel) (cstr "2") :=
    ⟨by decide, by decide, by decide, by decide, by decide, by decide⟩
  have hlevel := h _ hload _ _ rfl rfl [cstr "FORMAT=rdf\n", cstr "\n"] (cstr "PROV_LEVEL=2\n") [] .provLevel (cstr "2")
    (by decide) hset nofun
  exact absurd hlevel (by decide)

end Provio
