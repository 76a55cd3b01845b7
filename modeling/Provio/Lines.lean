import Mathlib.Data.List.TakeWhile
import Mathlib.Data.List.Basic
/-!
# Lines — reading a text in bounded pieces, and cutting tokens

A reader with a buffer takes a text piece by piece (`piece`): at most `n` symbols, no further than the first `stop`.
`pieces` is the whole text read so, `lines` the text cut after every `stop`.  Since a piece never passes a `stop`, the
pieces of a text are the pieces of its lines (`pieces_eq_flatMap`), and a line that fits the buffer is one piece
(`pieces_of_fits`).  `token` is the search for the next token, delimiters skipped.
-/
namespace Lines

variable {α : Type}

section Cut

variable [DecidableEq α]

/-! ## Pieces -/

/-- What a read of at most `n` symbols gets, and what it leaves. -/
def piece (stop : α) : Nat → List α → List α × List α
  | 0, s => ([], s)
  | _ + 1, [] => ([], [])
  | n + 1, c :: s => if c = stop then ([c], s) else (c :: (piece stop n s).1, (piece stop n s).2)

@[simp] theorem piece_nil (stop : α) (n : Nat) : piece stop n [] = ([], []) := by cases n <;> rfl

theorem piece_append (stop : α) : ∀ (n : Nat) (s : List α), (piece stop n s).1 ++ (piece stop n s).2 = s
  | 0, _ => rfl
  | _ + 1, [] => rfl
  | n + 1, c :: s => by
    unfold piece
    split
    · rfl
    · simp [piece_append stop n s]

theorem piece_rest_lt (stop : α) {n : Nat} (hn : 0 < n) (c : α) (s : List α) :
    (piece stop n (c :: s)).2.length < (c :: s).length := by
  obtain ⟨n, rfl⟩ : ∃ m, n = m + 1 := ⟨n - 1, by omega⟩
  unfold piece
  split
  · simp
  · have := congrArg List.length (piece_append stop n s)
    simp only [List.length_append] at this
    simp only [List.length_cons]
    omega

theorem piece_of_not_mem (stop : α) : ∀ (n : Nat) (b : List α), stop ∉ b →
    piece stop n b = (b.take n, b.drop n)
  | 0, _, _ => rfl
  | _ + 1, [], _ => rfl
  | n + 1, c :: b, h => by
    have hc := List.ne_of_not_mem_cons h
    have hb := List.not_mem_of_not_mem_cons h
    rw [piece, if_neg (fun e => hc e.symm), piece_of_not_mem stop n b hb]
    rfl

theorem piece_of_long (stop : α) : ∀ (n : Nat) (b s : List α), stop ∉ b → n ≤ b.length →
    piece stop n (b ++ s) = (b.take n, b.drop n ++ s)
  | 0, _, _, _, _ => rfl
  | n + 1, [], _, _, hn => absurd hn (by simp)
  | n + 1, c :: b, s, h, hn => by
    have hc := List.ne_of_not_mem_cons h
    have hb := List.not_mem_of_not_mem_cons h
    rw [List.cons_append, piece, if_neg (fun e => hc e.symm),
      piece_of_long stop n b s hb (by simpa using hn)]
    rfl

theorem piece_of_fits (stop : α) : ∀ (n : Nat) (b s : List α), stop ∉ b → b.length < n →
    piece stop n (b ++ stop :: s) = (b ++ [stop], s)
  | 0, _, _, _, hn => absurd hn (by simp)
  | n + 1, [], s, _, _ => by simp [piece]
  | n + 1, c :: b, s, h, hn => by
    have hc := List.ne_of_not_mem_cons h
    have hb := List.not_mem_of_not_mem_cons h
    rw [List.cons_append, piece, if_neg (fun e => hc e.symm),
      piece_of_fits stop n b s hb (by simpa using hn)]
    rfl

/-- Reads until nothing is left, at most `fuel` times. -/
def piecesUpTo (stop : α) (n : Nat) : Nat → List α → List (List α)
  | 0, _ => []
  | _ + 1, [] => []
  | fuel + 1, c :: s => (piece stop n (c :: s)).1 :: piecesUpTo stop n fuel (piece stop n (c :: s)).2

def pieces (stop : α) (n : Nat) (s : List α) : List (List α) := piecesUpTo stop n s.length s

theorem piecesUpTo_eq (stop : α) {n : Nat} (hn : 0 < n) : ∀ (fuel fuel' : Nat) (s : List α), s.length ≤ fuel →
    s.length ≤ fuel' → piecesUpTo stop n fuel s = piecesUpTo stop n fuel' s
  | 0, fuel', s, h, _ => by
    obtain rfl := List.length_eq_zero_iff.1 (Nat.le_zero.1 h)
    cases fuel' <;> rfl
  | fuel + 1, 0, s, _, h => by
    obtain rfl := List.length_eq_zero_iff.1 (Nat.le_zero.1 h)
    rfl
  | fuel + 1, fuel' + 1, [], _, _ => rfl
  | fuel + 1, fuel' + 1, c :: s, h, h' => by
    have hlt := piece_rest_lt stop hn c s
    unfold piecesUpTo
    rw [piecesUpTo_eq stop hn fuel fuel' _ (by omega) (by omega)]

@[simp] theorem pieces_nil (stop : α) (n : Nat) : pieces stop n [] = [] := rfl

theorem pieces_of_piece (stop : α) {n : Nat} (hn : 0 < n) {s p r : List α} (hs : s ≠ []) (h : piece stop n s = (p, r)) :
    pieces stop n s = p :: pieces stop n r := by
  cases s with
  | nil => exact absurd rfl hs
  | cons c s =>
    have hlt := piece_rest_lt stop hn c s
    rw [h] at hlt
    simp only [pieces, piecesUpTo, List.length_cons, h]
    rw [piecesUpTo_eq stop hn s.length r.length r (by simp at hlt; omega) (Nat.le_refl _)]

theorem pieces_line_append (stop : α) {n : Nat} (hn : 0 < n) (s : List α) : ∀ (b : List α), stop ∉ b →
    pieces stop n (b ++ stop :: s) = pieces stop n (b ++ [stop]) ++ pieces stop n s := by
  intro b
  induction hb : b.length using Nat.strong_induction_on generalizing b with
  | h k ih =>
    intro hstop
    by_cases hlt : b.length < n
    · rw [pieces_of_piece stop hn (by simp) (piece_of_fits stop n b s hstop hlt),
        pieces_of_piece stop hn (by simp) (piece_of_fits stop n b [] hstop hlt), pieces_nil]
      rfl
    · -- the buffer ends first: the same piece comes off both, and a shorter line is left
      have hle : n ≤ b.length := by omega
      rw [pieces_of_piece stop hn (by simp) (piece_of_long stop n b (stop :: s) hstop hle),
        pieces_of_piece stop hn (by simp) (piece_of_long stop n b [stop] hstop hle),
        ih (b.drop n).length (by simp; omega) (b.drop n) rfl (fun h => hstop (List.mem_of_mem_drop h))]
      rfl

theorem length_le_of_mem_pieces (stop : α) (n : Nat) {p : List α} : ∀ {fuel : Nat} {s : List α},
    p ∈ piecesUpTo stop n fuel s → p.length ≤ n := by
  have hpiece : ∀ (m : Nat) (s : List α), (piece stop m s).1.length ≤ m := by
    intro m
    induction m with
    | zero => exact fun _ => Nat.le_refl _
    | succ m ih =>
      intro s
      cases s with
      | nil => simp
      | cons c s =>
        unfold piece
        split
        · simp
        · simpa using ih s
  intro fuel
  induction fuel with
  | zero => exact nofun
  | succ fuel ih =>
    intro s h
    cases s with
    | nil => cases h
    | cons c s =>
      rcases List.mem_cons.1 h with rfl | h
      · exact hpiece n _
      · exact ih h

/-! ## Lines -/

/-- The text cut after every `stop`; the last line may lack it. -/
def lines (stop : α) : List α → List (List α)
  | [] => []
  | c :: s =>
    if c = stop then [c] :: lines stop s
    else match lines stop s with
      | [] => [[c]]
      | l :: ls => (c :: l) :: ls

/-- A line with its `stop`, or a last one without. -/
def IsLine (stop : α) (l : List α) : Prop := l ≠ [] ∧ stop ∉ l.dropLast

theorem IsLine.cases {stop : α} {l : List α} (h : IsLine stop l) : stop ∉ l ∨ ∃ b, stop ∉ b ∧ l = b ++ [stop] := by
  by_cases hs : stop ∈ l
  · have hl : l.dropLast ++ [l.getLast h.1] = l := List.dropLast_append_getLast h.1
    have hlast : l.getLast h.1 = stop := by
      rw [← hl, List.mem_append] at hs
      rcases hs with hs | hs
      · exact absurd hs h.2
      · exact (List.mem_singleton.1 hs).symm
    exact .inr ⟨l.dropLast, h.2, by rw [← hlast, hl]⟩
  · exact .inl hs

@[simp] theorem lines_nil (stop : α) : lines stop [] = [] := rfl

theorem lines_line_append (stop : α) (s : List α) : ∀ (b : List α), stop ∉ b →
    lines stop (b ++ stop :: s) = (b ++ [stop]) :: lines stop s
  | [], _ => by simp [lines]
  | c :: b, h => by
    have hc := List.ne_of_not_mem_cons h
    have hb := List.not_mem_of_not_mem_cons h
    rw [List.cons_append, lines, if_neg (fun e => hc e.symm), lines_line_append stop s b hb]
    rfl

theorem lines_of_not_mem (stop : α) : ∀ (b : List α), b ≠ [] → stop ∉ b → lines stop b = [b]
  | [], h, _ => absurd rfl h
  | [c], _, h => by simp [lines, (List.ne_of_not_mem_cons h).symm]
  | c :: d :: b, _, h => by
    have hc := List.ne_of_not_mem_cons h
    have hb := List.not_mem_of_not_mem_cons h
    rw [lines, if_neg (fun e => hc e.symm), lines_of_not_mem stop (d :: b) (by simp) hb]

theorem line_cases (stop : α) (s : List α) :
    s = [] ∨ (s ≠ [] ∧ stop ∉ s) ∨ ∃ b r, stop ∉ b ∧ s = b ++ stop :: r := by
  by_cases h : stop ∈ s
  · obtain ⟨b, r, rfl, hb⟩ := List.eq_append_cons_of_mem h
    exact .inr (.inr ⟨b, r, hb, rfl⟩)
  · by_cases hs : s = []
    · exact .inl hs
    · exact .inr (.inl ⟨hs, h⟩)

theorem line_induction (stop : α) {motive : List α → Prop} (nil : motive [])
    (last : ∀ b, b ≠ [] → stop ∉ b → motive b) (line : ∀ b r, stop ∉ b → motive r → motive (b ++ stop :: r))
    (s : List α) : motive s := by
  induction hs : s.length using Nat.strong_induction_on generalizing s with
  | h k ih =>
    rcases line_cases stop s with rfl | ⟨hne, hb⟩ | ⟨b, r, hb, rfl⟩
    · exact nil
    · exact last s hne hb
    · exact line b r hb (ih r.length (by simp at hs; omega) r rfl)

theorem isLine_of_mem_lines (stop : α) (s : List α) : ∀ l ∈ lines stop s, IsLine stop l := by
  induction s using line_induction stop with
  | nil => simp
  | last b hne hb =>
    rw [lines_of_not_mem stop b hne hb]
    intro l hl
    rw [List.mem_singleton.1 hl]
    exact ⟨hne, fun h => hb (List.dropLast_subset b h)⟩
  | line b r hb ih =>
    rw [lines_line_append stop r b hb]
    intro l hl
    rcases List.mem_cons.1 hl with rfl | hl
    · exact ⟨by simp, by simpa using hb⟩
    · exact ih l hl

theorem lines_of_isLine (stop : α) {l : List α} (h : IsLine stop l) : lines stop l = [l] := by
  rcases h.cases with hs | ⟨b, hb, rfl⟩
  · exact lines_of_not_mem stop l h.1 hs
  · rw [lines_line_append stop [] b hb, lines_nil]

theorem lines_append (stop : α) (t : List α) (s : List α) (h : s = [] ∨ s.getLast? = some stop) :
    lines stop (s ++ t) = lines stop s ++ lines stop t := by
  induction s using line_induction stop with
  | nil => rfl
  | last b hne hb =>
    rcases h with rfl | h
    · rfl
    · exact absurd (List.mem_of_getLast? h) hb
  | line b r hb ih =>
    have hr : r = [] ∨ r.getLast? = some stop := by
      rcases h with h | h
      · simp at h
      · by_cases hr : r = []
        · exact .inl hr
        · right
          rwa [List.getLast?_append, List.getLast?_cons_of_ne_nil hr, List.getLast?_eq_some_getLast hr,
            Option.some_or, ← List.getLast?_eq_some_getLast hr] at h
    rw [List.append_assoc, List.cons_append, lines_line_append stop _ b hb, lines_line_append stop r b hb, ih hr]
    rfl

theorem pieces_eq_flatMap (stop : α) {n : Nat} (hn : 0 < n) (s : List α) :
    pieces stop n s = (lines stop s).flatMap (pieces stop n) := by
  induction s using line_induction stop with
  | nil => rfl
  | last b hne hb => simp [lines_of_not_mem stop b hne hb]
  | line b r hb ih =>
    rw [pieces_line_append stop hn r b hb, lines_line_append stop r b hb, List.flatMap_cons, ih]

theorem piece_of_isLine (stop : α) (n : Nat) {l : List α} (h : IsLine stop l) :
    piece stop n l = (l.take n, l.drop n) := by
  rcases h.cases with hs | ⟨b, hb, rfl⟩
  · exact piece_of_not_mem stop n l hs
  · by_cases hlen : b.length < n
    · rw [piece_of_fits stop n b [] hb hlen, List.take_of_length_le (by simpa using Nat.succ_le_of_lt hlen),
        List.drop_of_length_le (by simpa using Nat.succ_le_of_lt hlen)]
    · have hle : n ≤ b.length := by omega
      rw [piece_of_long stop n b [stop] hb hle, List.take_append_of_le_length hle, List.drop_append_of_le_length hle]

theorem pieces_of_fits (stop : α) {n : Nat} (hn : 0 < n) {l : List α} (h : IsLine stop l) (hlen : l.length ≤ n) :
    pieces stop n l = [l] := by
  have hpiece : piece stop n l = (l, []) := by
    rw [piece_of_isLine stop n h, List.take_of_length_le hlen, List.drop_of_length_le hlen]
  rw [pieces_of_piece stop hn h.1 hpiece, pieces_nil]

end Cut

/-! ## Tokens -/

/-- The next token and where the search goes on, past the delimiter that ends it. -/
def token (delim : α → Bool) (s : List α) : Option (List α × List α) :=
  match s.dropWhile delim with
  | []     => none
  | c :: t => some ((c :: t).takeWhile (!delim ·), ((c :: t).dropWhile (!delim ·)).drop 1)

theorem token_of_run (delim : α → Bool) {w : List α} (hw : w ≠ []) (hrun : ∀ c ∈ w, delim c = false) (s : List α) :
    token delim (w ++ s) = some (w ++ s.takeWhile (!delim ·), (s.dropWhile (!delim ·)).drop 1) := by
  obtain ⟨c, t, rfl⟩ := List.exists_cons_of_ne_nil hw
  have hrun' : ∀ d ∈ c :: t, (!delim d) = true := by simpa using hrun
  have hdrop : (c :: t ++ s).dropWhile delim = c :: t ++ s := by
    simp [hrun c List.mem_cons_self]
  rw [token, hdrop]
  show some ((c :: t ++ s).takeWhile (!delim ·), ((c :: t ++ s).dropWhile (!delim ·)).drop 1) = _
  rw [List.takeWhile_append_of_pos hrun', List.dropWhile_append_of_pos hrun']

theorem token_of_ended_run (delim : α → Bool) {w : List α} (hw : w ≠ []) (hrun : ∀ c ∈ w, delim c = false) (s : List α)
    (hs : ∀ d ∈ s.head?, delim d = true) : token delim (w ++ s) = some (w, s.drop 1) := by
  rw [token_of_run delim hw hrun]
  cases s with
  | nil => simp
  | cons d s => simp [hs d rfl]

/-- **A token is a stretch of the text**, the search goes on one symbol after it. -/
theorem token_stretch {delim : α → Bool} {s w r : List α} (h : token delim s = some (w, r)) :
    ∃ skipped ending, s = skipped ++ (w ++ (ending ++ r)) ∧ (r ≠ [] → ending.length = 1) := by
  unfold token at h
  split at h
  · cases h
  · rename_i c t ht
    obtain ⟨rfl, rfl⟩ := Prod.mk.inj (Option.some.inj h)
    refine ⟨s.takeWhile delim, ((c :: t).dropWhile (!delim ·)).take 1, ?_, fun hr => ?_⟩
    · rw [List.take_append_drop, List.takeWhile_append_dropWhile, ← ht, List.takeWhile_append_dropWhile]
    · cases hd : (c :: t).dropWhile (!delim ·) with
      | nil => rw [hd] at hr; exact absurd rfl hr
      | cons d u => rfl

theorem token_run {delim : α → Bool} {s w r : List α} (h : token delim s = some (w, r)) :
    w ≠ [] ∧ ∀ c ∈ w, delim c = false := by
  unfold token at h
  split at h
  · cases h
  · rename_i c t ht
    obtain ⟨rfl, -⟩ := Prod.mk.inj (Option.some.inj h)
    have hc : delim c = false := by
      have := List.head_dropWhile_not (p := delim) (l := s) (by simp [ht])
      simpa [ht] using this
    refine ⟨by simp [hc], fun d hd => ?_⟩
    simpa using List.mem_takeWhile_imp hd

def tokensUpTo (delim : α → Bool) : Nat → List α → List (List α)
  | 0, _ => []
  | fuel + 1, s =>
    match token delim s with
    | none        => []
    | some (w, r) => w :: tokensUpTo delim fuel r

def tokens (delim : α → Bool) (s : List α) : List (List α) := tokensUpTo delim s.length s

theorem token_rest_lt {delim : α → Bool} {s w r : List α} (h : token delim s = some (w, r)) : r.length < s.length := by
  obtain ⟨a, b, rfl, -⟩ := token_stretch h
  have := List.length_pos_iff.2 (token_run h).1
  simp only [List.length_append]
  omega

theorem tokensUpTo_eq (delim : α → Bool) : ∀ (fuel fuel' : Nat) (s : List α), s.length ≤ fuel → s.length ≤ fuel' →
    tokensUpTo delim fuel s = tokensUpTo delim fuel' s
  | 0, fuel', s, h, _ => by
    obtain rfl := List.length_eq_zero_iff.1 (Nat.le_zero.1 h)
    cases fuel' <;> rfl
  | fuel + 1, 0, s, _, h => by
    obtain rfl := List.length_eq_zero_iff.1 (Nat.le_zero.1 h)
    rfl
  | fuel + 1, fuel' + 1, s, h, h' => by
    unfold tokensUpTo
    cases ht : token delim s with
    | none => rfl
    | some wr =>
      have hlt := token_rest_lt (w := wr.1) (r := wr.2) ht
      simp only [tokensUpTo_eq delim fuel fuel' wr.2 (by omega) (by omega)]

theorem tokens_of_token {delim : α → Bool} {s w r : List α} (h : token delim s = some (w, r)) :
    tokens delim s = w :: tokens delim r := by
  have hlt := token_rest_lt h
  obtain ⟨n, hn⟩ : ∃ n, s.length = n + 1 := ⟨s.length - 1, by omega⟩
  rw [tokens, hn, tokensUpTo, h]
  simp only
  rw [tokensUpTo_eq delim n r.length r (by omega) (Nat.le_refl _), tokens]

/-- **A run of symbols before a delimiter is the first token.** -/
theorem tokens_run_cons (delim : α → Bool) {w : List α} (hw : w ≠ []) (hrun : ∀ c ∈ w, delim c = false) {d : α}
    (hd : delim d = true) (s : List α) : tokens delim (w ++ d :: s) = w :: tokens delim s :=
  tokens_of_token (token_of_ended_run delim hw hrun (d :: s) (by rintro e ⟨⟩; exact hd))

theorem tokens_run (delim : α → Bool) {w : List α} (hw : w ≠ []) (hrun : ∀ c ∈ w, delim c = false) :
    tokens delim w = [w] := by
  have h := token_of_ended_run delim hw hrun [] (by rintro d ⟨⟩)
  rw [List.append_nil] at h
  exact tokens_of_token h

theorem tokens_delim_cons (delim : α → Bool) {d : α} (hd : delim d = true) (s : List α) :
    tokens delim (d :: s) = tokens delim s := by
  have hskip : token delim (d :: s) = token delim s := by
    rw [token, token, List.dropWhile_cons_of_pos hd]
  cases ht : token delim s with
  | none =>
    have hnone : ∀ t : List α, token delim t = none → tokens delim t = [] := by
      intro t h
      unfold tokens
      cases t with
      | nil => rfl
      | cons c t =>
        rw [List.length_cons, tokensUpTo, h]
    rw [hnone _ ht, hnone _ (hskip.trans ht)]
  | some wr => rw [tokens_of_token (w := wr.1) (r := wr.2) ht, tokens_of_token (w := wr.1) (r := wr.2) (hskip.trans ht)]

/-- **The tokens are the non-empty stretches between delimiters.** -/
theorem tokens_eq_splitOnP [DecidableEq α] (stop : α) (s : List α) :
    tokens (· = stop) s = (s.splitOnP (· = stop)).filter (!·.isEmpty) := by
  have hrun : ∀ b : List α, stop ∉ b → ∀ c ∈ b, decide (c = stop) = false := by
    intro b hb c hc
    rw [decide_eq_false_iff_not]
    exact fun e => hb (e ▸ hc)
  induction s using line_induction stop with
  | nil => rfl
  | last b hne hb =>
    rw [tokens_run _ hne (hrun b hb), List.splitOnP_eq_singleton (hrun b hb)]
    simp [hne]
  | line b r hb ih =>
    rw [List.splitOnP_append_cons_of_forall_mem (hrun b hb) stop (by simp), List.filter_cons]
    by_cases hne : b = []
    · rw [hne, List.nil_append, tokens_delim_cons _ (by simp), ih]
      rfl
    · rw [tokens_run_cons _ hne (hrun b hb) (by simp), ih]
      simp [hne]

end Lines
