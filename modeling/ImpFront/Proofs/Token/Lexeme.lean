/-
  ImpFront.Proofs.Token.Lexeme
  ────────────────────────────
  **THE TEXTS OF A SHAPE, AND WHERE THEY END.**

  How far a shape reaches at the start of a text is said by a search.  Here it
  is said without one: which texts are of the shape, and in front of which
  texts such a text has its end.

      shape.measure? cs = some n
        ↔  cs = w ++ rest,  n = |w|,  Spells w,  EndsBefore rest

  Only runs depend on what comes behind them: a run ends where no character
  of it follows.  Quoted texts and fixed ones end by themselves.
-/
import ImpFront.Proofs.Token.Tiling

namespace ImpFront

open Text (isDigit)
open Shape (isSeparator runLength? quoteDistance?)

/-! ## §1. Runs. -/

/-- The text does not begin with a character of the class. -/
def Stops (p : Char → Bool) (rest : List Char) : Prop :=
  ∀ c ∈ rest.head?, p c = false

theorem stops_nil (p : Char → Bool) : Stops p [] := by
  intro c hc
  cases hc

theorem stops_cons_iff {p : Char → Bool} {c : Char} {rest : List Char} :
    Stops p (c :: rest) ↔ p c = false := by
  simp [Stops]

theorem stops_dropWhile (p : Char → Bool) (cs : List Char) : Stops p (cs.dropWhile p) := by
  intro c hc
  have hhead := List.head?_dropWhile_not p cs
  rw [Option.mem_def.1 hc] at hhead
  simpa using hhead

/-- A run ends where the class does. -/
theorem takeWhile_append_of_stops {p : Char → Bool} {w rest : List Char}
    (hw : ∀ c ∈ w, p c) (hrest : Stops p rest) : (w ++ rest).takeWhile p = w := by
  rw [List.takeWhile_append_of_pos hw]
  cases rest with
  | nil => simp
  | cons c more => simp [stops_cons_iff.1 hrest]

theorem dropWhile_append_of_stops {p : Char → Bool} {w rest : List Char}
    (hw : ∀ c ∈ w, p c) (hrest : Stops p rest) : (w ++ rest).dropWhile p = rest := by
  rw [List.dropWhile_append_of_pos hw]
  cases rest with
  | nil => rfl
  | cons c more => simp [stops_cons_iff.1 hrest]

theorem runLength?_eq_some_iff {p : Char → Bool} {cs : List Char} {n : Nat} :
    runLength? p cs = some n ↔ n = (cs.takeWhile p).length ∧ 0 < n := by
  unfold runLength?
  split
  · next hzero =>
    rw [hzero]
    constructor
    · intro h
      cases h
    · intro h
      omega
  · next m hm =>
    rw [hm]
    constructor
    · intro h
      cases h
      omega
    · intro h
      rw [h.1]

/-- A run that is not empty, up to where the class ends. -/
theorem runLength?_iff {p : Char → Bool} {cs : List Char} {n : Nat} :
    runLength? p cs = some n
      ↔ ∃ w rest, cs = w ++ rest ∧ n = w.length
          ∧ (w ≠ [] ∧ ∀ c ∈ w, p c) ∧ Stops p rest := by
  rw [runLength?_eq_some_iff]
  constructor
  · intro h
    refine ⟨cs.takeWhile p, cs.dropWhile p, ?_, h.1, ⟨?_, ?_⟩, stops_dropWhile p cs⟩
    · exact (List.takeWhile_append_dropWhile).symm
    · intro hnil
      have hn := h.1
      rw [hnil] at hn
      simp at hn
      omega
    · intro c hc
      exact List.mem_takeWhile_imp hc
  · rintro ⟨w, rest, rfl, rfl, ⟨hne, hw⟩, hrest⟩
    rw [takeWhile_append_of_stops hw hrest]
    exact ⟨rfl, List.length_pos_iff.2 hne⟩

namespace Shape

/-! ## §2. Words and quoted texts. -/

theorem wordLength_pos {rest : List Char} (h : rest.head?.any isWordStart) :
    0 < wordLength rest := by
  cases rest with
  | nil => simp at h
  | cons d more =>
      have hd : isWordPart d := by
        have hstart : isWordStart d := by simpa using h
        simp [isWordPart, hstart]
      rw [wordLength, if_pos hd]
      omega

/-- A word goes through a text and no further exactly if it does either. -/
theorem wordLength_append_iff {body rest : List Char} :
    wordLength (body ++ rest) = body.length
      ↔ wordLength body = body.length ∧ wordLength rest = 0 := by
  induction body with
  | nil => simp [wordLength]
  | cons c body ih =>
      rw [List.cons_append]
      by_cases hc : isWordPart c
      · simp only [wordLength, hc, if_true, List.length_cons, Nat.add_right_cancel_iff]
        exact ih
      · cases body with
        | nil =>
            -- a point at the end would have to be followed by a letter of the rest
            rw [List.nil_append, List.length_singleton]
            constructor
            · intro h
              rw [wordLength, if_neg hc] at h
              split at h
              · next hpoint =>
                have hpos := wordLength_pos (Bool.and_eq_true_iff.1 hpoint).2
                omega
              · contradiction
            · rintro ⟨h, -⟩
              simp [wordLength, hc] at h
        | cons d body =>
            have hhead : (d :: body ++ rest).head? = (d :: body).head? := rfl
            rw [wordLength, wordLength, hhead, if_neg hc, if_neg hc]
            split
            · rw [List.length_cons, Nat.add_right_cancel_iff, Nat.add_right_cancel_iff]
              exact ih
            · simp

/-- The characters up to the first double quote of the line. -/
theorem quoteDistance?_iff {cs : List Char} {n : Nat} :
    quoteDistance? cs = some n
      ↔ ∃ body rest, cs = body ++ '\x22' :: rest ∧ n = body.length
          ∧ '\x22' ∉ body ∧ '\n' ∉ body := by
  induction cs generalizing n with
  | nil => simp [quoteDistance?]
  | cons c cs ih =>
      unfold quoteDistance?
      by_cases hq : c = '\x22'
      · subst hq
        rw [if_pos rfl]
        constructor
        · intro h
          cases h
          exact ⟨[], cs, rfl, rfl, List.not_mem_nil, List.not_mem_nil⟩
        · rintro ⟨body, rest, hcs, rfl, hbody, -⟩
          cases body with
          | nil => rfl
          | cons d body =>
              obtain ⟨rfl, -⟩ := List.cons.inj hcs
              exact (hbody List.mem_cons_self).elim
      · rw [if_neg hq]
        by_cases hn : c = '\n'
        · subst hn
          rw [if_pos rfl]
          constructor
          · intro h
            cases h
          · rintro ⟨body, rest, hcs, -, -, hfeed⟩
            cases body with
            | nil => cases hcs
            | cons d body =>
                obtain ⟨rfl, -⟩ := List.cons.inj hcs
                exact (hfeed List.mem_cons_self).elim
        · rw [if_neg hn, Option.map_eq_some_iff]
          constructor
          · rintro ⟨m, hm, rfl⟩
            obtain ⟨body, rest, rfl, rfl, hbody, hfeed⟩ := ih.1 hm
            refine ⟨c :: body, rest, rfl, rfl, ?_, ?_⟩
            · simp [Ne.symm hq, hbody]
            · simp [Ne.symm hn, hfeed]
          · rintro ⟨body, rest, hcs, rfl, hbody, hfeed⟩
            cases body with
            | nil => exact (hq (List.cons.inj hcs).1).elim
            | cons d body =>
                obtain ⟨rfl, rfl⟩ := List.cons.inj hcs
                refine ⟨body.length, ih.2 ⟨body, rest, rfl, rfl, ?_, ?_⟩, rfl⟩
                · exact fun hmem => hbody (List.mem_cons_of_mem _ hmem)
                · exact fun hmem => hfeed (List.mem_cons_of_mem _ hmem)

/-! ## §3. The texts of a shape. -/

/-- The text is of the shape. -/
def Spells : Shape → List Char → Prop
  | .attribute, w =>
    ∃ c body, w = '@' :: c :: body ∧ isLetter c ∧ ∀ d ∈ body, isWordPart d
  | .word, w => ∃ c body, w = c :: body ∧ isWordStart c ∧ wordLength body = body.length
  | .decimal, w =>
    ∃ whole part, w = whole ++ '.' :: part ∧ (∀ d ∈ whole, isDigit d)
      ∧ part ≠ [] ∧ ∀ d ∈ part, isDigit d
  | .integer, w => w ≠ [] ∧ ∀ d ∈ w, isDigit d
  | .string, w => ∃ body, w = '\x22' :: (body ++ ['\x22']) ∧ '\x22' ∉ body ∧ '\n' ∉ body
  | .character, w =>
    (∃ c, w = ['\x27', '\\', c, '\x27'] ∧ c ≠ '\n')
      ∨ ∃ c, w = ['\x27', c, '\x27'] ∧ c ≠ '\\' ∧ c ≠ '\x27'
  | .comment, w => ∃ body, w = '#' :: body ∧ '\n' ∉ body
  | .blanks, w => w ≠ [] ∧ ∀ d ∈ w, isSeparator d
  | .exactly lexeme, w => w = lexeme ∧ w ≠ []

/-- In front of the rest a text of the shape is at its end. -/
def EndsBefore : Shape → List Char → Prop
  | .attribute, rest => Stops isWordPart rest
  | .word, rest => wordLength rest = 0
  | .decimal, rest => Stops isDigit rest
  | .integer, rest => Stops isDigit rest
  | .comment, rest => Stops (· != '\n') rest
  | .blanks, rest => Stops isSeparator rest
  | .string, _ | .character, _ | .exactly _, _ => True

/-- The text begins with one of the shape, of `n` characters, that ends there. -/
def Reaches (shape : Shape) (cs : List Char) (n : Nat) : Prop :=
  ∃ w rest, cs = w ++ rest ∧ n = w.length ∧ shape.Spells w ∧ shape.EndsBefore rest

/-! ## §4. The search finds them. -/

theorem attribute_of_measure? {cs : List Char} {n : Nat} (h : attribute.measure? cs = some n) :
    ∃ c rest, cs = '@' :: c :: rest ∧ isLetter c
      ∧ n = (rest.takeWhile isWordPart).length + 2 := by
  unfold measure? at h
  split at h
  all_goals grind

theorem reaches_attribute {cs : List Char} {n : Nat} :
    attribute.measure? cs = some n ↔ attribute.Reaches cs n := by
  constructor
  · intro h
    obtain ⟨c, rest, rfl, hc, rfl⟩ := attribute_of_measure? h
    refine ⟨'@' :: c :: rest.takeWhile isWordPart, rest.dropWhile isWordPart, ?_, rfl,
      ⟨c, _, rfl, hc, ?_⟩, stops_dropWhile _ _⟩
    · simp [List.takeWhile_append_dropWhile]
    · intro d hd
      exact List.mem_takeWhile_imp hd
  · rintro ⟨w, rest, rfl, rfl, ⟨c, body, rfl, hc, hbody⟩, hrest⟩
    show (if isLetter c then some (((body ++ rest).takeWhile isWordPart).length + 2) else none) = _
    rw [if_pos hc, takeWhile_append_of_stops hbody hrest]
    rfl

theorem wordLength_le (cs : List Char) : wordLength cs ≤ cs.length := by
  induction cs with
  | nil => exact Nat.le_refl _
  | cons c rest ih =>
      unfold wordLength
      rw [List.length_cons]
      split
      · omega
      · split
        · omega
        · omega

theorem word_of_measure? {cs : List Char} {n : Nat} (h : word.measure? cs = some n) :
    ∃ c rest, cs = c :: rest ∧ isWordStart c ∧ n = wordLength rest + 1 := by
  unfold measure? at h
  split at h
  all_goals grind

theorem reaches_word {cs : List Char} {n : Nat} :
    word.measure? cs = some n ↔ word.Reaches cs n := by
  constructor
  · intro h
    obtain ⟨c, rest, rfl, hc, rfl⟩ := word_of_measure? h
    have hle := wordLength_le rest
    have hlength : (rest.take (wordLength rest)).length = wordLength rest := by
      rw [List.length_take]
      omega
    have hsplit := List.take_append_drop (wordLength rest) rest
    have hends := wordLength_append_iff.1
      (show wordLength (rest.take (wordLength rest) ++ rest.drop (wordLength rest))
        = (rest.take (wordLength rest)).length by rw [hsplit, hlength])
    refine ⟨c :: rest.take (wordLength rest), rest.drop (wordLength rest), ?_, ?_,
      ⟨c, _, rfl, hc, hends.1⟩, hends.2⟩
    · rw [List.cons_append, hsplit]
    · rw [List.length_cons, hlength]
  · rintro ⟨w, rest, rfl, rfl, ⟨c, body, rfl, hc, hbody⟩, hrest⟩
    show (if isWordStart c then some (wordLength (body ++ rest) + 1) else none) = _
    rw [if_pos hc, wordLength_append_iff.2 ⟨hbody, hrest⟩]
    rfl

theorem measure?_decimal (cs : List Char) :
    decimal.measure? cs = match cs.dropWhile isDigit with
      | '.' :: rest =>
        (runLength? isDigit rest).map fun n => (cs.takeWhile isDigit).length + 1 + n
      | _ => none := rfl

theorem reaches_decimal {cs : List Char} {n : Nat} :
    decimal.measure? cs = some n ↔ decimal.Reaches cs n := by
  rw [measure?_decimal]
  constructor
  · intro h
    split at h
    · next behind hpoint =>
      obtain ⟨m, hm, rfl⟩ := Option.map_eq_some_iff.1 h
      obtain ⟨part, rest, rfl, rfl, ⟨hne, hpart⟩, hrest⟩ := runLength?_iff.1 hm
      have hsplit := List.takeWhile_append_dropWhile (p := isDigit) (l := cs)
      rw [hpoint] at hsplit
      refine ⟨cs.takeWhile isDigit ++ '.' :: part, rest, ?_, ?_,
        ⟨_, part, rfl, ?_, hne, hpart⟩, hrest⟩
      · rw [List.append_assoc, List.cons_append]
        exact hsplit.symm
      · simp
        omega
      · intro d hd
        exact List.mem_takeWhile_imp hd
    · contradiction
  · rintro ⟨w, rest, rfl, rfl, ⟨whole, part, rfl, hwhole, hne, hpart⟩, hrest⟩
    have hpoint : Stops isDigit ('.' :: (part ++ rest)) := stops_cons_iff.2 (by decide)
    have hcs : whole ++ '.' :: part ++ rest = whole ++ '.' :: (part ++ rest) := by simp
    rw [hcs, dropWhile_append_of_stops hwhole hpoint, takeWhile_append_of_stops hwhole hpoint]
    show (runLength? isDigit (part ++ rest)).map (fun n => whole.length + 1 + n) = _
    rw [runLength?_iff.2 ⟨part, rest, rfl, rfl, ⟨hne, hpart⟩, hrest⟩]
    simp
    omega

theorem string_of_measure? {cs : List Char} {n : Nat} (h : string.measure? cs = some n) :
    ∃ rest, cs = '\x22' :: rest ∧ (quoteDistance? rest).map (· + 2) = some n := by
  unfold measure? at h
  split at h
  all_goals grind

theorem reaches_string {cs : List Char} {n : Nat} :
    string.measure? cs = some n ↔ string.Reaches cs n := by
  constructor
  · intro h
    obtain ⟨behind, rfl, hq⟩ := string_of_measure? h
    obtain ⟨m, hm, rfl⟩ := Option.map_eq_some_iff.1 hq
    obtain ⟨body, rest, rfl, rfl, hbody, hfeed⟩ := quoteDistance?_iff.1 hm
    refine ⟨'\x22' :: (body ++ ['\x22']), rest, ?_, ?_, ⟨body, rfl, hbody, hfeed⟩, trivial⟩
    · simp
    · simp
  · rintro ⟨w, rest, rfl, rfl, ⟨body, rfl, hbody, hfeed⟩, -⟩
    show (quoteDistance? (body ++ ['\x22'] ++ rest)).map (· + 2) = _
    have hfound : quoteDistance? (body ++ ['\x22'] ++ rest) = some body.length :=
      quoteDistance?_iff.2 ⟨body, rest, by simp, rfl, hbody, hfeed⟩
    rw [hfound]
    simp

theorem character_of_measure? {cs : List Char} {n : Nat}
    (h : character.measure? cs = some n) :
    (∃ c rest, cs = '\x27' :: '\\' :: c :: '\x27' :: rest ∧ c ≠ '\n' ∧ n = 4)
      ∨ ∃ c rest, cs = '\x27' :: c :: '\x27' :: rest ∧ c ≠ '\\' ∧ c ≠ '\x27' ∧ n = 3 := by
  unfold measure? at h
  split at h
  all_goals grind

theorem reaches_character {cs : List Char} {n : Nat} :
    character.measure? cs = some n ↔ character.Reaches cs n := by
  constructor
  · intro h
    obtain ⟨c, rest, rfl, hc, rfl⟩ | ⟨c, rest, rfl, hslash, hquote, rfl⟩ :=
      character_of_measure? h
    · exact ⟨['\x27', '\\', c, '\x27'], rest, rfl, rfl, .inl ⟨c, rfl, hc⟩, trivial⟩
    · exact ⟨['\x27', c, '\x27'], rest, rfl, rfl, .inr ⟨c, rfl, hslash, hquote⟩, trivial⟩
  · rintro ⟨w, rest, rfl, rfl, ⟨c, rfl, hc⟩ | ⟨c, rfl, hslash, hquote⟩, -⟩
    · show (if c = '\n' then none else some 4) = _
      rw [if_neg hc]
      rfl
    · -- the escaped form would need a backslash here
      unfold measure?
      simp [hslash, hquote]

theorem reaches_comment {cs : List Char} {n : Nat} :
    comment.measure? cs = some n ↔ comment.Reaches cs n := by
  constructor
  · intro h
    obtain ⟨body, rfl, rfl⟩ := comment_of_measure? h
    refine ⟨'#' :: body.takeWhile (· != '\n'), body.dropWhile (· != '\n'), ?_, rfl,
      ⟨_, rfl, ?_⟩, stops_dropWhile _ _⟩
    · rw [List.cons_append, List.takeWhile_append_dropWhile]
    · intro hmem
      have := List.mem_takeWhile_imp hmem
      simp at this
  · rintro ⟨w, rest, rfl, rfl, ⟨body, rfl, hbody⟩, hrest⟩
    show some (((body ++ rest).takeWhile (· != '\n')).length + 1) = _
    rw [takeWhile_append_of_stops ?_ hrest]
    · rfl
    · intro d hd
      have : d ≠ '\n' := fun same => hbody (same ▸ hd)
      simpa using this

theorem reaches_exactly {lexeme cs : List Char} {n : Nat} :
    (exactly lexeme).measure? cs = some n ↔ (exactly lexeme).Reaches cs n := by
  show (if (!lexeme.isEmpty && lexeme.isPrefixOf cs) = true then some lexeme.length else none)
    = some n ↔ _
  by_cases hl : (!lexeme.isEmpty && lexeme.isPrefixOf cs) = true
  · rw [if_pos hl]
    rw [Bool.and_eq_true, Bool.not_eq_true', List.isEmpty_eq_false_iff] at hl
    constructor
    · intro h
      cases h
      obtain ⟨rest, rfl⟩ := List.isPrefixOf_iff_prefix.1 hl.2
      exact ⟨lexeme, rest, rfl, rfl, ⟨rfl, hl.1⟩, trivial⟩
    · rintro ⟨w, rest, -, rfl, ⟨rfl, -⟩, -⟩
      rfl
  · rw [if_neg hl]
    constructor
    · intro h
      cases h
    · rintro ⟨w, rest, rfl, rfl, ⟨rfl, hne⟩, -⟩
      refine (hl ?_).elim
      rw [Bool.and_eq_true, Bool.not_eq_true', List.isEmpty_eq_false_iff]
      exact ⟨hne, List.isPrefixOf_iff_prefix.2 (List.prefix_append w rest)⟩

/-- **A shape reaches as far as a text of it that ends there.** -/
theorem measure?_iff {shape : Shape} {cs : List Char} {n : Nat} :
    shape.measure? cs = some n ↔ shape.Reaches cs n := by
  cases shape with
  | «attribute» => exact reaches_attribute
  | word => exact reaches_word
  | decimal => exact reaches_decimal
  | integer => exact runLength?_iff
  | string => exact reaches_string
  | character => exact reaches_character
  | comment => exact reaches_comment
  | blanks => exact runLength?_iff
  | exactly lexeme => exact reaches_exactly

/-- No text of a shape is empty. -/
theorem Spells.ne_nil {shape : Shape} {w : List Char} (h : shape.Spells w) : w ≠ [] := by
  cases shape with
  | «attribute» =>
      obtain ⟨_, _, rfl, -⟩ := h
      simp
  | word =>
      obtain ⟨_, _, rfl, -⟩ := h
      simp
  | decimal =>
      obtain ⟨_, _, rfl, -⟩ := h
      simp
  | integer => exact h.1
  | string =>
      obtain ⟨_, rfl, -⟩ := h
      simp
  | character =>
      obtain ⟨_, rfl, -⟩ | ⟨_, rfl, -⟩ := h
      · simp
      · simp
  | comment =>
      obtain ⟨_, rfl, -⟩ := h
      simp
  | blanks => exact h.1
  | exactly lexeme => exact h.2

end Shape

end ImpFront
