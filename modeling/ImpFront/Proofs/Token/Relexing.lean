/-
  ImpFront.Proofs.Token.Relexing
  ──────────────────────────────
  **TOKENS WRITTEN WITH BLANKS BETWEEN THEM ARE READ AGAIN.**

  Where a token has its end in a text is decided by the text behind it.  A
  blank decides it for all of them, so that the values of the tokens of a
  text, with blanks between them, are cut into the same tokens again:

      source    a=1⏎⏎'⏎'#c
      values    a = 1 ⏎ ⏎ '⏎'
      cut       a = 1 ⏎⏎ '⏎'      the blank line between has become empty

  Normalization takes nothing of a token away, only blanks between two line
  ends.
-/
import ImpFront.Proofs.Token.LineBreaks

namespace ImpFront

open Shape (isSeparator wordLength)

/-! ## §1. A token in front of a blank. -/

/-- In front of a blank every text is at its end, blanks and comments aside. -/
theorem Shape.endsBefore_blank {shape : Shape} (comment : shape ≠ .comment)
    (blanks : shape ≠ .blanks) (rest : List Char) : shape.EndsBefore (' ' :: rest) := by
  cases shape with
  | «attribute» => exact stops_cons_iff.2 (by decide)
  | word =>
      show wordLength (' ' :: rest) = 0
      simp [wordLength, isWordPart, isWordStart, isLetter, Text.isDigit]
  | decimal => exact stops_cons_iff.2 (by decide)
  | integer => exact stops_cons_iff.2 (by decide)
  | string => trivial
  | character => trivial
  | comment => contradiction
  | blanks => contradiction
  | exactly => trivial

namespace Rule

theorem shape_of_yields :
    ∀ rule ∈ all, rule.yields ≠ .nothing → rule.shape ≠ .comment ∧ rule.shape ≠ .blanks := by
  decide

theorem not_fixes_blank : ∀ rule ∈ all, rule.shape.fixes ' ' = false := by
  decide

theorem eq_of_start_blank :
    ∀ rule ∈ all, rule.shape.start = .blank → rule = ⟨.blanks, .nothing⟩ := by
  decide

/-- Of two rules one is better than the other. -/
theorem outranks_or : ∀ rule ∈ all, ∀ other ∈ all, other ≠ rule →
    rule.shape.outranks other.shape ∨ other.shape.outranks rule.shape := by
  decide +kernel

variable {rule other : Rule} {token : Token}

theorem Cuts.yields_ne_nothing (h : rule.Cuts token) : rule.yields ≠ .nothing := by
  intro hnothing
  have hitem := h.yields
  rw [hnothing] at hitem
  cases hitem

end Rule

/-- What stands behind the token keeps it apart: a blank, if it is no line end. -/
def Token.Apart (token : Token) (rest : List Char) : Prop :=
  token.value = "\n" ∨ rest.head? = some ' '

/-- A longer text in the same place has the blank in it. -/
theorem mem_of_longer {w v rest rest' : List Char} {c : Char} (h : w ++ c :: rest = v ++ rest')
    (hlong : w.length < v.length) : c ∈ v := by
  have hprefix : w ++ [c] <+: v := by
    have hprefix : w ++ [c] <+: v ++ rest' := by
      rw [← h]
      exact ⟨rest, by simp⟩
    refine List.prefix_of_prefix_length_le hprefix (List.prefix_append v rest') ?_
    rw [List.length_append, List.length_singleton]
    omega
  exact hprefix.subset (by simp)

/-- Only blanks and quoted texts could go on over a blank, and a better rule for
the same place is neither. -/
theorem Shape.Reaches.le_of_outranks {shape other : Shape} {w rest : List Char} {m : Nat}
    (hw : shape.Spells w) (h : other.Reaches (w ++ ' ' :: rest) m)
    (rank : other.outranks shape) (hfixes : other.fixes ' ' = false)
    (hstart : other.start = shape.start) : m ≤ w.length := by
  by_contra hlong
  obtain ⟨v, rest', hcs, rfl, hv, -⟩ := h
  have hmem := mem_of_longer hcs (by omega)
  unfold outranks at rank
  split at rank
  · -- no fixed text has a blank
    obtain ⟨rfl, -⟩ := hv
    simp [fixes] at hfixes
    contradiction
  · -- a number has none either
    obtain ⟨whole, part, rfl, hwhole, -, hpart⟩ := hv
    have hwhole := not_mem_of_forall hwhole (c := ' ') (by decide)
    have hpart := not_mem_of_forall hpart (c := ' ') (by decide)
    simp [hwhole, hpart] at hmem
  · rw [hstart] at rank
    simp at rank

namespace Rule.Cuts

variable {rule : Rule} {token : Token} {rest : List Char}

/-- The rule that cuts a token reaches to its end where it is kept apart. -/
theorem reaches (h : rule.Cuts token) (apart : token.Apart rest) :
    rule.shape.Reaches (token.value.toList ++ rest) token.value.toList.length := by
  refine ⟨_, rest, rfl, rfl, h.spells, ?_⟩
  rcases apart with hfeed | hblank
  · have hmem : '\n' ∈ token.value.toList := by
      rw [hfeed]
      decide
    rcases h.spells.of_feed hmem with hshape | ⟨hshape, -⟩
    · rw [hshape]
      trivial
    · rw [hshape]
      trivial
  · obtain ⟨more, rfl⟩ := List.head?_eq_some_iff.1 hblank
    obtain ⟨hcomment, hblanks⟩ := shape_of_yields rule h.listed h.yields_ne_nothing
    exact Shape.endsBefore_blank hcomment hblanks more

end Rule.Cuts

/-- At a line feed only the rule for it matches. -/
theorem Rule.eq_of_reaches_feed {other : Rule} (hother : other ∈ all) {rest : List Char} {m : Nat}
    (h : other.shape.Reaches ('\n' :: rest) m) : other = fixed "\n" .newline := by
  obtain ⟨v, rest', hcs, -, hv, -⟩ := h
  cases v with
  | nil => exact (hv.ne_nil rfl).elim
  | cons c v =>
      obtain rfl : '\n' = c := (List.cons.inj hcs).1
      rcases hv.of_feed List.mem_cons_self with hshape | ⟨-, hquoted⟩
      · exact eq_of_fixes_feed other hother (by simp [hshape, Shape.fixes])
      · cases hquoted

/-- **Kept apart, a token is read as it was.** -/
theorem Rule.Cuts.longest {rule : Rule} {token : Token} {rest : List Char} (h : rule.Cuts token)
    (apart : token.Apart rest) :
    rule.Longest (token.value.toList ++ rest) token.value.toList.length := by
  have hmine := h.reaches apart
  refine ⟨h.listed, Shape.measure?_iff.2 hmine, ?_⟩
  intro other hother hne m hm
  have hreach := Shape.measure?_iff.1 hm
  rcases outranks_or rule h.listed other hother hne with better | worse
  · exact hmine.lt_of_outranks hreach better
  · have hfurther := hreach.lt_of_outranks hmine worse
    rcases apart with hfeed | hblank
    · -- no rule but the one of the token matches here
      rw [hfeed] at hreach hmine
      have hother := eq_of_reaches_feed hother hreach
      have hrule := eq_of_reaches_feed h.listed hmine
      rw [hother, hrule] at hne
      contradiction
    · obtain ⟨more, rfl⟩ := List.head?_eq_some_iff.1 hblank
      have hle := hreach.le_of_outranks h.spells worse (not_fixes_blank other hother)
        (hreach.start_eq hmine)
      omega

/-! ## §2. Tokens with blanks between them. -/

/-- The text is made of the values of the tokens with blanks before, between
and behind them. -/
inductive Spread : List Char → List Token → Prop
  | done {gap : List Char} (hgap : ∀ c ∈ gap, c = ' ') : Spread gap []
  | token {gap rest : List Char} {token : Token} {tokens : List Token}
      (hgap : ∀ c ∈ gap, c = ' ') (apart : token.Apart rest) (hrest : Spread rest tokens) :
      Spread (gap ++ (token.value.toList ++ rest)) (token :: tokens)

theorem Spread.here {token : Token} {rest : List Char} {tokens : List Token}
    (apart : token.Apart rest) (hrest : Spread rest tokens) :
    Spread (token.value.toList ++ rest) (token :: tokens) :=
  @Spread.token [] rest token tokens (List.forall_mem_nil _) apart hrest

theorem Spread.blank {cs : List Char} {tokens : List Token} (h : Spread cs tokens) :
    Spread (' ' :: cs) tokens := by
  cases h with
  | done hgap => exact .done (List.forall_mem_cons.2 ⟨rfl, hgap⟩)
  | token hgap apart hrest => exact .token (List.forall_mem_cons.2 ⟨rfl, hgap⟩) apart hrest

namespace Scanner

/-- Blanks are passed over at once. -/
theorem items_of_gap {s : Scanner} {gap cs : List Char} (hs : s.rest = gap ++ cs)
    (hgap : ∀ c ∈ gap, c = ' ') (hcs : Stops isSeparator cs) :
    ∃ mid : Scanner, mid.rest = cs ∧ s.items = mid.items := by
  by_cases hnil : gap = []
  · subst hnil
    exact ⟨s, hs, rfl⟩
  · have hreach : Shape.blanks.Reaches s.rest gap.length := by
      refine ⟨gap, cs, hs, rfl, ⟨hnil, ?_⟩, hcs⟩
      intro c hc
      rw [hgap c hc]
      rfl
    have hlong : Rule.Longest ⟨.blanks, .nothing⟩ s.rest gap.length := by
      refine ⟨by decide, Shape.measure?_iff.2 hreach, ?_⟩
      intro other hother hne m hm
      have hstart := (Shape.measure?_iff.1 hm).start_eq hreach
      exact (hne (Rule.eq_of_start_blank other hother hstart)).elim
    refine ⟨s.advance gap.length, ?_, ?_⟩
    · show s.rest.drop gap.length = cs
      rw [hs, List.drop_left]
    · exact items_of_step?_none (step?_of_lexeme? (lexeme?_iff_longest.2 hlong))

/-- What becomes of a lexeme does not depend on its place. -/
theorem item?_move {yields : Yield} {lexeme : List Char} {place : Position} {token : Token}
    (h : item? yields lexeme place = some (.token token)) (other : Position) :
    item? yields lexeme other = some (.token { token with position := other }) := by
  cases yields with
  | token kind =>
      cases h
      rfl
  | word =>
      cases h
      rfl
  | nothing => cases h

/-- No token begins with a blank. -/
theorem stops_of_cuts {rule : Rule} {token : Token} (h : rule.Cuts token) (rest : List Char) :
    Stops isSeparator (token.value.toList ++ rest) := by
  intro c hc
  by_contra hblank
  have hblank : isSeparator c := by simpa using hblank
  have hhead := h.spells.startOf_head
  cases hw : token.value.toList with
  | nil => exact h.spells.ne_nil hw
  | cons d more =>
      rw [hw] at hc hhead
      obtain rfl : d = c := Option.some.inj hc
      have hstart : startOf d = rule.shape.start := Option.some.inj hhead
      rw [Shape.startOf_of_isSeparator hblank] at hstart
      have hrule := Rule.eq_of_start_blank rule h.listed hstart.symm
      exact h.yields_ne_nothing (by rw [hrule])

/-- **Tokens with blanks between them** are found again. -/
theorem items_of_spread {s : Scanner} {tokens : List Token} (h : Spread s.rest tokens)
    (hcuts : ∀ token ∈ tokens, ∃ rule, Rule.Cuts rule token) :
    ∃ (found : List Token) (last : Scanner), s.items = (found.map .token, last)
      ∧ found.map (fun token => (token.kind, token.value))
        = tokens.map fun token => (token.kind, token.value) := by
  generalize hs : s.rest = cs at h
  induction h generalizing s with
  | @done gap hgap =>
      have hs : s.rest = gap ++ [] := by rw [hs, List.append_nil]
      obtain ⟨mid, hmid, hitems⟩ := items_of_gap hs hgap (stops_nil _)
      refine ⟨[], mid, ?_, rfl⟩
      rw [hitems]
      exact items_of_atEnd (by simp [step?, hmid])
  | @token gap rest token tokens hgap apart _ ih =>
      obtain ⟨rule, hrule⟩ := hcuts token List.mem_cons_self
      obtain ⟨mid, hmid, hitems⟩ := items_of_gap hs hgap (stops_of_cuts hrule rest)
      have hlong := hrule.longest apart
      rw [← hmid] at hlong
      have hstep := step?_of_lexeme? (lexeme?_iff_longest.2 hlong)
      have htake : mid.rest.take token.value.toList.length = token.value.toList := by
        rw [hmid, List.take_left]
      rw [htake, item?_move hrule.yields mid.position] at hstep
      obtain ⟨found, last, hrest, hsame⟩ :=
        ih (s := mid.advance token.value.toList.length)
          (fun token hmem => hcuts token (List.mem_cons_of_mem _ hmem))
          (by show mid.rest.drop _ = rest; rw [hmid, List.drop_left])
      refine ⟨{ token with position := mid.position } :: found, last, ?_, ?_⟩
      · rw [hitems, items_of_step?_some hstep, hrest]
        rfl
      · rw [List.map_cons, List.map_cons, hsame]

end Scanner

/-! ## §3. The text of the values. -/

/-- The text has no line feed, and more than blanks. -/
def Solid (w : List Char) : Prop :=
  '\n' ∉ w ∧ ∃ c ∈ w, Text.isBlank c = false

theorem isBlank_of_isWordStart {c : Char} (h : isWordStart c) : Text.isBlank c = false := by
  have hcode := isWordStart_iff.1 h
  simp [Text.isBlank]
  omega

theorem isBlank_of_isDigit {c : Char} (h : Text.isDigit c) : Text.isBlank c = false := by
  have hcode := isDigit_iff.1 h
  simp [Text.isBlank]
  omega

/-- The fixed text is more than blanks. -/
def Shape.fixesNonblank : Shape → Bool
  | .exactly lexeme => lexeme.any fun c => !Text.isBlank c
  | _ => true

theorem Rule.fixesNonblank_or :
    ∀ rule ∈ all, rule = fixed "\n" .newline ∨ rule.shape.fixesNonblank := by
  decide +kernel

/-- More than blanks are in a text of any shape but the two that have nothing
else. -/
theorem Shape.Spells.nonblank {shape : Shape} {w : List Char} (h : shape.Spells w)
    (blanks : shape ≠ .blanks) (fixed : shape.fixesNonblank) :
    ∃ c ∈ w, Text.isBlank c = false := by
  cases shape with
  | «attribute» =>
      obtain ⟨c, body, rfl, -⟩ := h
      exact ⟨'@', List.mem_cons_self, rfl⟩
  | word =>
      obtain ⟨c, body, rfl, hc, -⟩ := h
      exact ⟨c, List.mem_cons_self, isBlank_of_isWordStart hc⟩
  | decimal =>
      obtain ⟨whole, part, rfl, -⟩ := h
      exact ⟨'.', by simp, rfl⟩
  | integer =>
      obtain ⟨c, more, rfl⟩ := List.exists_cons_of_ne_nil h.1
      exact ⟨c, List.mem_cons_self, isBlank_of_isDigit (h.2 c List.mem_cons_self)⟩
  | string =>
      obtain ⟨body, rfl, -⟩ := h
      exact ⟨'\x22', List.mem_cons_self, rfl⟩
  | character =>
      obtain ⟨c, rfl, -⟩ | ⟨c, rfl, -⟩ := h
      · exact ⟨'\x27', List.mem_cons_self, rfl⟩
      · exact ⟨'\x27', List.mem_cons_self, rfl⟩
  | comment =>
      obtain ⟨body, rfl, -⟩ := h
      exact ⟨'#', List.mem_cons_self, rfl⟩
  | blanks => contradiction
  | exactly lexeme =>
      obtain ⟨rfl, -⟩ := h
      simpa [fixesNonblank] using fixed

/-- The value of a token is a line feed, or it has more than blanks; and if a
line feed is in it then between quotes. -/
theorem Rule.Cuts.solid {rule : Rule} {token : Token} (h : rule.Cuts token) :
    token.value = "\n" ∨ token.value = "\x27\n\x27" ∨ Solid token.value.toList := by
  by_cases hfeed : '\n' ∈ token.value.toList
  · rcases h.of_feed hfeed with ⟨-, hvalue⟩ | ⟨-, hvalue⟩
    · exact .inl hvalue
    · exact .inr (.inl hvalue)
  · refine .inr (.inr ⟨hfeed, ?_⟩)
    rcases fixesNonblank_or rule h.listed with hrule | hfixed
    · -- its text would be the line feed
      obtain ⟨hvalue, -⟩ : token.value.toList = ['\n'] ∧ _ := hrule ▸ h.spells
      rw [hvalue] at hfeed
      exact (hfeed List.mem_cons_self).elim
    · exact h.spells.nonblank (shape_of_yields rule h.listed h.yields_ne_nothing).2 hfixed

/-- The values of the tokens, each with a blank behind it. -/
def spaced (tokens : List Token) : List Char :=
  tokens.flatMap fun token => token.value.toList ++ [' ']

theorem spaced_cons (token : Token) (tokens : List Token) :
    spaced (token :: tokens) = token.value.toList ++ ' ' :: spaced tokens := by
  simp [spaced]

/-- The values with blanks between them: the last one, of the end token, is
empty. -/
theorem toList_intercalate_values (tokens : List Token) (position : Position) :
    (" ".intercalate ((tokens ++ [(⟨.eof, "", position⟩ : Token)]).map Token.value)).toList
      = spaced tokens := by
  induction tokens with
  | nil => rfl
  | cons token tokens ih =>
      obtain ⟨next, others, hnext⟩ : ∃ next others,
          (tokens ++ [(⟨.eof, "", position⟩ : Token)]).map Token.value = next :: others :=
        List.exists_cons_of_ne_nil (by simp)
      rw [List.cons_append, List.map_cons, hnext, String.intercalate_cons_cons, ← hnext,
        String.toList_append, ih, spaced_cons, String.toList_append, List.append_assoc]
      rfl

open Text (normalLine)

/-- Normalized, the tokens behind a line that is more than blanks are spread. -/
def SpreadBehind (tokens : List Token) : Prop :=
  ∀ line, Solid line →
    ∃ rest, Text.normalize (line ++ spaced tokens) = line ++ rest ∧ Spread rest tokens

/-- A token that is no line end stays as it is, whatever its line begins with. -/
theorem SpreadBehind.token {tokens : List Token} (behind : SpreadBehind tokens) {token : Token}
    (hvalue : token.value = "\x27\n\x27" ∨ Solid token.value.toList) {line : List Char}
    (hline : '\n' ∉ line) :
    ∃ rest, Text.normalize (line ++ spaced (token :: tokens))
        = line ++ (token.value.toList ++ ' ' :: rest)
      ∧ Spread rest tokens := by
  rw [spaced_cons]
  rcases hvalue with hquoted | ⟨hfeed, c, hc, hblank⟩
  · -- the quote behind the line feed is more than a blank
    have hquote : Solid ['\x27', ' '] := ⟨by decide, '\x27', by decide, by decide⟩
    obtain ⟨rest, hrest, hspread⟩ := behind _ hquote
    have hfront : '\n' ∉ line ++ ['\x27'] := by simp [hline]
    have hnormal : normalLine (line ++ ['\x27']) = line ++ ['\x27'] :=
      Text.normalLine_of_mem (c := '\x27') (by simp) (by decide)
    refine ⟨rest, ?_, hspread⟩
    have hsplit : line ++ (token.value.toList ++ ' ' :: spaced tokens)
        = (line ++ ['\x27']) ++ '\n' :: (['\x27', ' '] ++ spaced tokens) := by
      rw [hquoted]
      simp
    rw [hsplit, Text.normalize_append hfront, hnormal, hrest, hquoted]
    simp
  · have hsolid : Solid (line ++ (token.value.toList ++ [' '])) :=
      ⟨by simp [hline, hfeed], c, by simp [hc], hblank⟩
    obtain ⟨rest, hrest, hspread⟩ := behind _ hsolid
    refine ⟨rest, ?_, hspread⟩
    have hsplit : line ++ (token.value.toList ++ ' ' :: spaced tokens)
        = (line ++ (token.value.toList ++ [' '])) ++ spaced tokens := by simp
    rw [hsplit, hrest]
    simp

/-- A line end takes the blanks of an empty line in front of it away. -/
theorem normalize_line_end {token : Token} (hvalue : token.value = "\n") {line : List Char}
    (hline : '\n' ∉ line) (tokens : List Token) :
    Text.normalize (line ++ spaced (token :: tokens))
      = normalLine line ++ (token.value.toList ++ Text.normalize (' ' :: spaced tokens)) := by
  rw [spaced_cons, hvalue]
  exact Text.normalize_append hline (' ' :: spaced tokens)

/-- **The values of tokens, normalized, are spread**, behind a line that stays
as it is and behind blanks. -/
theorem spread_spaced {tokens : List Token} (hvalues : ∀ token ∈ tokens,
      token.value = "\n" ∨ token.value = "\x27\n\x27" ∨ Solid token.value.toList) :
    SpreadBehind tokens
      ∧ ∀ gap, (∀ c ∈ gap, c = ' ') → Spread (Text.normalize (gap ++ spaced tokens)) tokens := by
  have hfeed : ∀ gap : List Char, (∀ c ∈ gap, c = ' ') → '\n' ∉ gap := by
    intro gap hgap hmem
    cases hgap _ hmem
  have hblank : ∀ gap : List Char, (∀ c ∈ gap, c = ' ') → normalLine gap = [] := by
    intro gap hgap
    refine Text.normalLine_of_blank fun c hc => ?_
    rw [hgap c hc]
    rfl
  induction tokens with
  | nil =>
      constructor
      · rintro line ⟨hline, c, hc, hmore⟩
        refine ⟨[], ?_, .done (List.forall_mem_nil _)⟩
        show Text.normalize (line ++ []) = line ++ []
        rw [List.append_nil, Text.normalize_single hline, Text.normalLine_of_mem hc hmore]
      · intro gap hgap
        show Spread (Text.normalize (gap ++ [])) []
        rw [List.append_nil, Text.normalize_single (hfeed gap hgap), hblank gap hgap]
        exact .done (List.forall_mem_nil _)
  | cons token tokens ih =>
      obtain ⟨behind, front⟩ := ih fun token hmem => hvalues token (List.mem_cons_of_mem _ hmem)
      rcases hvalues token List.mem_cons_self with hend | hvalue
      · have hspread : Spread (token.value.toList ++ Text.normalize (' ' :: spaced tokens))
            (token :: tokens) :=
          .here (.inl hend) (front [' '] (by simp))
        constructor
        · rintro line ⟨hline, c, hc, hmore⟩
          refine ⟨_, ?_, hspread⟩
          rw [normalize_line_end hend hline, Text.normalLine_of_mem hc hmore]
        · intro gap hgap
          rw [normalize_line_end hend (hfeed gap hgap), hblank gap hgap]
          exact hspread
      · constructor
        · rintro line ⟨hline, -⟩
          obtain ⟨rest, hrest, hspread⟩ := behind.token hvalue hline
          exact ⟨_, hrest, .here (.inr rfl) hspread.blank⟩
        · intro gap hgap
          obtain ⟨rest, hrest, hspread⟩ := behind.token hvalue (hfeed gap hgap)
          rw [hrest]
          exact .token hgap (.inr rfl) hspread.blank

/-! ## §4. Whole texts. -/

/-- **Relexing is stable.**  The values of the tokens of a text, joined with
single blanks, are cut into tokens of the same kinds with the same values. -/
theorem relexes_of_tokenize {source : String} {tokens : List Token}
    (h : tokenize source = .ok tokens) :
    ∃ again, tokenize (" ".intercalate (tokens.map Token.value)) = .ok again
      ∧ again.map (fun token => (token.kind, token.value))
        = tokens.map fun token => (token.kind, token.value) := by
  obtain ⟨found, last, hitems, rfl⟩ := tokenize_eq_ok_iff.1 h
  have hcuts := Scanner.cuts_of_items hitems
  let joined := " ".intercalate
    ((found ++ [(⟨.eof, "", last.position⟩ : Token)]).map Token.value)
  have hspread : Spread (Scanner.ofText joined).rest found := by
    show Spread (Text.normalize joined.toList) found
    rw [toList_intercalate_values]
    refine (spread_spaced ?_).2 [] (List.forall_mem_nil _)
    intro token hmem
    obtain ⟨rule, hrule⟩ := hcuts token hmem
    exact hrule.solid
  obtain ⟨again, final, hagain, hsame⟩ := Scanner.items_of_spread hspread hcuts
  refine ⟨_, tokenize_eq_ok_iff.2 ⟨again, final, hagain, rfl⟩, ?_⟩
  rw [List.map_append, List.map_append, hsame]
  rfl

/-- `a=1`, a line of blanks, and a line feed in quotes with a comment behind it. -/
def closelyWritten : List Token :=
  [⟨.identifier, "a", ⟨0, 1, 1⟩⟩, ⟨.assign, "=", ⟨1, 1, 2⟩⟩, ⟨.integer, "1", ⟨2, 1, 3⟩⟩,
   ⟨.newline, "\n", ⟨3, 1, 4⟩⟩, ⟨.newline, "\n", ⟨4, 2, 1⟩⟩,
   ⟨.char, "\x27\n\x27", ⟨5, 3, 1⟩⟩, ⟨.newline, "\n", ⟨10, 4, 4⟩⟩, ⟨.eof, "", ⟨11, 5, 1⟩⟩]

theorem tokenize_closelyWritten :
    tokenize "a=1\n \n\x27\n\x27#c\n" = .ok closelyWritten := by
  unfold tokenize
  rw [Scanner.items_eq_itemsWithin (Nat.le_refl _)]
  cbv

theorem relexes_closelyWritten :
    tokenize "a=1\n \n\x27\n\x27#c\n" = .ok closelyWritten
      ∧ ∃ again, tokenize "a = 1 \n \n \x27\n\x27 \n " = .ok again
        ∧ again.map (fun token => (token.kind, token.value))
          = closelyWritten.map fun token => (token.kind, token.value) :=
  ⟨tokenize_closelyWritten, relexes_of_tokenize tokenize_closelyWritten⟩

end ImpFront
