/-
  ImpFront.Proofs.Report.Underline
  ────────────────────────────────
  **CARETS UNDER WHAT IS REPORTED.**

  A report ends in two rows that are laid out apart.  One has the line behind
  its number, without the blanks around it.  The other has the carets behind a
  margin of fixed width, moved to the left by the blanks that are not shown.

      line     indent front cs behind trailing
      rows     ··12 | front cs behind
               ···· |       ^^

  So the carets stand under `cs` if the number fits into the margin, which is
  the case up to line 9999, and if `cs` is shown.  Tokens always are, since
  none begins or ends with a blank.  An unreadable character may be a blank
  itself; at the edge of its line it is taken off, and the carets have nothing
  to stand under.
-/
import Mathlib
import ImpFront.Proofs.Token.SourceLines
import ImpFront.Report.Diagnostic

namespace ImpFront

open Text (isBlank isBlankLine splitLines trimStart trimEnd)

/-! ## §1. Trimming around a part of a line. -/

namespace Text

/-- Trimming from the left does not come beyond more than blanks. -/
theorem trimStart_append {front rest : List Char} (h : isBlankLine (front ++ rest.take 1) = false) :
    trimStart (front ++ rest) = trimStart front ++ rest := by
  unfold trimStart
  rw [List.dropWhile_append]
  split
  · next hempty =>
    rw [List.isEmpty_iff] at hempty
    rw [hempty, List.nil_append]
    cases rest with
    | nil => rfl
    | cons c rest =>
        have hfront : front.all isBlank = true :=
          List.all_eq_true.2 (List.dropWhile_eq_nil_iff.1 hempty)
        have hc : isBlank c = false := by
          simpa [isBlankLine, hfront] using h
        rw [List.dropWhile_cons_of_neg (by simp [hc])]
  · rfl

/-- Nor does trimming from the right. -/
theorem trimEnd_append {front rest : List Char}
    (h : isBlankLine (front.drop (front.length - 1) ++ rest) = false) :
    trimEnd (front ++ rest) = front ++ trimEnd rest := by
  have hmirror : isBlankLine (rest.reverse ++ front.reverse.take 1) = false := by
    rw [List.take_reverse, ← List.reverse_append]
    unfold isBlankLine at h ⊢
    rwa [List.all_reverse]
  show (trimStart (front ++ rest).reverse).reverse = front ++ (trimStart rest.reverse).reverse
  rw [List.reverse_append, trimStart_append hmirror, List.reverse_append, List.reverse_reverse]

/-- The blanks that trimming takes off on the left. -/
theorem exists_trimStart (cs : List Char) :
    ∃ indent, isBlankLine indent ∧ cs = indent ++ trimStart cs :=
  ⟨cs.takeWhile isBlank, List.all_takeWhile, List.takeWhile_append_dropWhile.symm⟩

/-- The blanks that trimming takes off on the right. -/
theorem exists_trimEnd (cs : List Char) :
    ∃ trailing, isBlankLine trailing ∧ cs = trimEnd cs ++ trailing := by
  obtain ⟨indent, hblank, hcs⟩ := exists_trimStart cs.reverse
  refine ⟨indent.reverse, ?_, ?_⟩
  · unfold isBlankLine at hblank ⊢
    rwa [List.all_reverse]
  · rw [trimEnd, ← trimStart, ← List.reverse_append, ← hcs, List.reverse_reverse]

/-! ### Rows of a text -/

/-- A line feed between two texts separates their lines. -/
theorem splitLines_append_feed (cs rest : List Char) :
    splitLines (cs ++ '\n' :: rest) = splitLines cs ++ splitLines rest := by
  induction cs using lines_induction with
  | single line hline => rw [splitLines_append hline, splitLines_single hline]; rfl
  | more line later hline ih =>
      rw [List.append_assoc, List.cons_append, splitLines_append hline, splitLines_append hline, ih]
      rfl

theorem not_mem_feed_of_mem_splitLines {cs line : List Char} (h : line ∈ splitLines cs) :
    '\n' ∉ line := by
  induction cs using lines_induction with
  | single first hfirst =>
      rw [splitLines_single hfirst, List.mem_singleton] at h
      rwa [h]
  | more first rest hfirst ih =>
      rw [splitLines_append hfirst] at h
      rcases List.mem_cons.1 h with rfl | hlater
      · exact hfirst
      · exact ih hlater

/-- A line that is looked up is one line. -/
theorem not_mem_feed_of_sourceLine? {source line : String} {n : Nat}
    (h : sourceLine? source n = some line) : '\n' ∉ line.toList := by
  obtain ⟨given, hgiven, rfl⟩ := Option.map_eq_some_iff.1 h
  rw [String.toList_ofList]
  cases n with
  | zero => cases hgiven
  | succ n =>
      obtain ⟨whole, hwhole, rfl⟩ := Option.map_eq_some_iff.1 hgiven
      have hfeed := not_mem_feed_of_mem_splitLines (List.mem_of_getElem? hwhole)
      intro hmem
      refine hfeed ?_
      unfold dropReturn at hmem
      split at hmem
      · exact List.mem_of_mem_dropLast hmem
      · exact hmem

end Text

/-! ## §2. The two rows. -/

theorem toList_toString (n : Nat) : (toString n).toList = Nat.toDigits 10 n :=
  String.toList_ofList

/-- The columns of a line number beyond the four of the margin. -/
def overhang (n : Nat) : Nat :=
  (toString n).length - 4

/-- The numbers up to 9999 fit into the margin. -/
theorem overhang_eq_zero_iff {n : Nat} : overhang n = 0 ↔ n < 10000 := by
  have hdigits : (Nat.toDigits 10 n).length ≤ 4 ↔ n < 10 ^ 4 :=
    Nat.length_toDigits_le_iff (by decide) (by decide)
  unfold overhang
  rw [Nat.sub_eq_zero_iff_le, ← String.length_toList, toList_toString, hdigits]
  rfl

theorem length_lineNumber (n : Nat) : (lineNumber n).toList.length = 4 + overhang n := by
  unfold lineNumber overhang repeated
  rw [String.toList_append, String.toList_ofList, List.length_append, List.length_replicate,
    String.length_toList]
  omega

theorem not_mem_feed_lineNumber (n : Nat) : '\n' ∉ (lineNumber n).toList := by
  unfold lineNumber repeated
  rw [String.toList_append, String.toList_ofList, toList_toString, List.mem_append, not_or]
  constructor
  · intro hmem
    cases (List.mem_replicate.1 hmem).2
  · intro hmem
    have hdigit := Nat.isDigit_of_mem_toDigits (by decide) (by decide) hmem
    cases hdigit

/-- What stands in front of the line in its row. -/
def gutter (n : Nat) : List Char :=
  (lineNumber n ++ " | ").toList

theorem length_gutter (n : Nat) : (gutter n).length = 7 + overhang n := by
  unfold gutter
  rw [String.toList_append, List.length_append, length_lineNumber]
  show 4 + overhang n + 3 = _
  omega

theorem not_mem_feed_gutter (n : Nat) : '\n' ∉ gutter n := by
  unfold gutter
  rw [String.toList_append, List.mem_append, not_or]
  exact ⟨not_mem_feed_lineNumber n, by decide⟩

/-- The text ends in two rows: one in which `cs` stands between `before` and
`after`, and below it one with as many carets as `cs` has characters, at the
columns of `cs` but for `shift` that they are too far to the left. -/
def CaretsBelow (rendered before cs after : List Char) (shift : Nat) : Prop :=
  ∃ above margin, splitLines rendered
      = above ++ [before ++ cs ++ after, margin ++ List.replicate cs.length '^']
    ∧ '^' ∉ margin ∧ margin.length + shift = before.length

/-- The line of the diagnostic is there in the source and is shown without the
blanks around it, and below it carets for `cs`, which stands in the line at the
column of the diagnostic. -/
def Underlined (source : String) (d : Diagnostic) (cs : List Char) (shift : Nat) : Prop :=
  ∃ line indent front behind trailing,
    Text.sourceLine? source d.line = some line
    ∧ line.toList = indent ++ front ++ cs ++ behind ++ trailing
    ∧ isBlankLine indent ∧ isBlankLine trailing ∧ (indent ++ front).length + 1 = d.column
    ∧ CaretsBelow (d.render (some line) false).toList (gutter d.line ++ front) cs behind shift

namespace Diagnostic

variable {source line : String} {d : Diagnostic} {front cs rest : List Char}

/-- The row of the line. -/
def shownRow (d : Diagnostic) (line : List Char) : List Char :=
  gutter d.line ++ trimEnd (trimStart line)

/-- The part of the row of carets in front of them. -/
def caretMargin (d : Diagnostic) (line : List Char) : List Char :=
  "     | ".toList ++ List.replicate (d.caretOffset line) ' '

theorem mem_caretMargin {c : Char} {cs : List Char} (h : c ∈ d.caretMargin cs) :
    c = ' ' ∨ c = '|' := by
  rcases List.mem_append.1 h with hmargin | hblank
  · simp at hmargin
    rcases hmargin with h | h | h
    · exact .inl h
    · exact .inr h
    · exact .inl h
  · exact .inl (List.mem_replicate.1 hblank).2

theorem toList_sourceRow (d : Diagnostic) (line : List Char) :
    (d.sourceRow line).toList = d.shownRow line := by
  unfold sourceRow numbered shownRow gutter
  rw [String.toList_append, String.toList_ofList]

theorem toList_caretRow (d : Diagnostic) (line : List Char) :
    (d.caretRow line false).toList
      = d.caretMargin line ++ List.replicate (max 1 d.length) '^' := by
  unfold caretRow caretMargin repeated
  simp [Severity.paint]

/-- **The last two rows of a report.** -/
theorem splitLines_render (hfeed : '\n' ∉ line.toList) :
    splitLines (d.render (some line) false).toList
      = splitLines (d.header false).toList
        ++ [d.shownRow line.toList,
          d.caretMargin line.toList ++ List.replicate (max 1 d.length) '^'] := by
  have hrow : '\n' ∉ d.shownRow line.toList := by
    intro hmem
    rcases List.mem_append.1 hmem with hgutter | hshown
    · exact not_mem_feed_gutter d.line hgutter
    · obtain ⟨_, -, hstart⟩ := Text.exists_trimStart line.toList
      obtain ⟨_, -, hend⟩ := Text.exists_trimEnd (trimStart line.toList)
      rw [hstart, hend] at hfeed
      simp [hshown] at hfeed
  have hcarets : '\n' ∉ d.caretMargin line.toList ++ List.replicate (max 1 d.length) '^' := by
    intro hmem
    rcases List.mem_append.1 hmem with hmargin | hcaret
    · cases mem_caretMargin hmargin with
      | inl h => cases h
      | inr h => cases h
    · cases (List.mem_replicate.1 hcaret).2
  have htext : (d.render (some line) false).toList = (d.header false).toList
      ++ '\n' :: (d.shownRow line.toList
        ++ '\n' :: (d.caretMargin line.toList ++ List.replicate (max 1 d.length) '^')) := by
    rw [← toList_sourceRow, ← toList_caretRow]
    unfold render
    simp
  rw [htext, Text.splitLines_append_feed, Text.splitLines_append hrow,
    Text.splitLines_single hcarets]

theorem length_caretMargin (d : Diagnostic) (cs : List Char) :
    (d.caretMargin cs).length = 7 + d.caretOffset cs := by
  unfold caretMargin
  simp
  omega

/-- Of the characters in front of a place the carets skip those that are shown. -/
theorem caretOffset_eq (hstart : trimStart (front ++ rest) = trimStart front ++ rest)
    (hcolumn : front.length + 1 = d.column) :
    d.caretOffset (front ++ rest) = (trimStart front).length := by
  have hle : (trimStart front).length ≤ front.length := (List.dropWhile_sublist _).length_le
  unfold caretOffset
  rw [hstart, List.length_append, List.length_append, ← hcolumn]
  omega

/-- **What is not taken off its line is underlined**, but for the columns by
which the line number exceeds the margin. -/
theorem underlined (hline : Text.sourceLine? source d.line = some line)
    (htext : line.toList = front ++ (cs ++ rest)) (hcolumn : front.length + 1 = d.column)
    (hlength : d.length = cs.length) (hne : cs ≠ [])
    (hstart : isBlankLine (front ++ cs.take 1) = false)
    (hend : isBlankLine (cs.drop (cs.length - 1) ++ rest) = false) :
    Underlined source d cs (overhang d.line) := by
  have hpos : 0 < cs.length := List.length_pos_iff.2 hne
  have hfeed := Text.not_mem_feed_of_sourceLine? hline
  have htake : (cs ++ rest).take 1 = cs.take 1 := by
    rw [List.take_append_of_le_length hpos]
  have htrim : trimStart (front ++ (cs ++ rest)) = trimStart front ++ (cs ++ rest) :=
    Text.trimStart_append (by rwa [htake])
  have htail : trimEnd (trimStart front ++ cs ++ rest) = trimStart front ++ cs ++ trimEnd rest := by
    refine Text.trimEnd_append ?_
    have hlast : (trimStart front ++ cs).length - 1
        = (trimStart front).length + (cs.length - 1) := by
      rw [List.length_append]
      omega
    rwa [hlast, List.drop_length_add_append]
  obtain ⟨indent, hindent, hfront⟩ := Text.exists_trimStart front
  obtain ⟨trailing, htrailing, hrest⟩ := Text.exists_trimEnd rest
  refine ⟨line, indent, trimStart front, trimEnd rest, trailing, hline, ?_, hindent, htrailing,
    ?_, ?_⟩
  · rw [htext, List.append_assoc _ _ trailing, ← hrest, ← hfront, List.append_assoc]
  · rw [← hfront, hcolumn]
  · refine ⟨splitLines (d.header false).toList, d.caretMargin line.toList, ?_, ?_, ?_⟩
    · rw [splitLines_render hfeed, hlength, Nat.max_eq_right hpos]
      unfold shownRow
      rw [htext, htrim, ← List.append_assoc, htail]
      simp only [List.append_assoc]
    · intro hmem
      cases mem_caretMargin hmem with
      | inl h => cases h
      | inr h => cases h
    · rw [htext, length_caretMargin, caretOffset_eq htrim hcolumn, List.length_append,
        length_gutter]
      omega

end Diagnostic

/-! ## §3. What is shown. -/

/-- The `n` characters at the place are shown when their line is: up to the
first of them there is more than blanks in it, and from the last of them on. -/
def ShownAt (source : String) (p : Position) (n : Nat) : Prop :=
  ∃ line, Text.sourceLine? source p.line = some line
    ∧ isBlankLine (line.toList.take p.column) = false
    ∧ isBlankLine (line.toList.drop (p.column - 1 + (n - 1))) = false

/-- The characters of a place split its line. -/
theorem QuotedAt.split {source : String} {p : Position} {cs : List Char}
    (h : QuotedAt source p cs) (hne : cs ≠ []) :
    ∃ line front rest, Text.sourceLine? source p.line = some line
      ∧ line.toList = front ++ (cs ++ rest) ∧ front.length + 1 = p.column := by
  obtain ⟨line, hline, hcolumn, rest, hrest⟩ := h
  refine ⟨line, line.toList.take (p.column - 1), rest, hline, ?_, ?_⟩
  · rw [hrest, List.take_append_drop]
  · have hlength := congrArg List.length hrest
    rw [List.length_append, List.length_drop] at hlength
    have hpos : 0 < cs.length := List.length_pos_iff.2 hne
    rw [List.length_take]
    omega

/-- **Whatever is shown of the source is underlined.** -/
theorem underlined_of_quotedAt {source : String} {p : Position} {cs : List Char}
    (h : QuotedAt source p cs) (hne : cs ≠ []) (hshown : ShownAt source p cs.length)
    (severity : Severity) (file message : String) :
    Underlined source (.on severity file p cs.length message) cs (overhang p.line) := by
  obtain ⟨line, front, rest, hline, htext, hcolumn⟩ := h.split hne
  obtain ⟨line', hline', hstart, hend⟩ := hshown
  obtain rfl := Option.some.inj (hline.symm.trans hline')
  have hpos : 0 < cs.length := List.length_pos_iff.2 hne
  have hlast : p.column - 1 + (cs.length - 1) = front.length + (cs.length - 1) := by
    omega
  rw [htext, ← hcolumn, List.take_length_add_append, List.take_append_of_le_length hpos] at hstart
  rw [htext, hlast, List.drop_length_add_append,
    List.drop_append_of_le_length (Nat.sub_le cs.length 1)] at hend
  exact Diagnostic.underlined (d := .on severity file p cs.length message) hline htext hcolumn
    rfl hne hstart hend

/-- What begins and ends with more than a blank is shown. -/
theorem shownAt_of_edges {source : String} {p : Position} {cs : List Char}
    (h : QuotedAt source p cs) (hne : cs ≠ [])
    (hfirst : ∀ c ∈ cs.head?, isBlank c = false) (hlast : ∀ c ∈ cs.getLast?, isBlank c = false) :
    ShownAt source p cs.length := by
  obtain ⟨line, front, rest, hline, htext, hcolumn⟩ := h.split hne
  have hpos : 0 < cs.length := List.length_pos_iff.2 hne
  have hend : p.column - 1 + (cs.length - 1) = front.length + (cs.length - 1) := by
    omega
  refine ⟨line, hline, ?_, ?_⟩
  · rw [htext, ← hcolumn, List.take_length_add_append, List.take_append_of_le_length hpos]
    obtain ⟨c, more, rfl⟩ := List.exists_cons_of_ne_nil hne
    have hc : isBlank c = false := hfirst c rfl
    simp [isBlankLine, hc]
  · rw [htext, hend, List.drop_length_add_append,
      List.drop_append_of_le_length (Nat.sub_le cs.length 1)]
    have hc : isBlank (cs.getLast hne) = false :=
      hlast _ (List.getLast?_eq_some_getLast hne)
    rw [List.drop_length_sub_one hne]
    simp [isBlankLine, hc]

/-! ### Tokens -/

theorem isWordPart_of_isBlank {c : Char} (h : isBlank c) : isWordPart c = false := by
  unfold isWordPart
  rw [Bool.or_eq_false_iff]
  constructor
  · refine Bool.eq_false_iff.2 fun hstart => ?_
    rw [isBlank_of_isWordStart hstart] at h
    contradiction
  · refine Bool.eq_false_iff.2 fun hdigit => ?_
    rw [isBlank_of_isDigit hdigit] at h
    contradiction

/-- There is a blank in the fixed text. -/
def Shape.fixesBlank : Shape → Bool
  | .exactly lexeme => lexeme.any isBlank
  | _ => false

theorem Rule.not_fixesBlank_or :
    ∀ rule ∈ all, rule = fixed "\n" .newline ∨ rule.shape.fixesBlank = false := by
  decide +kernel

/-- **A token with blanks in it is a literal in quotes**, or it has a line feed. -/
theorem Rule.Cuts.quoted_of_blank {rule : Rule} {token : Token} (h : rule.Cuts token)
    (hfeed : '\n' ∉ token.value.toList) {c : Char} (hc : c ∈ token.value.toList)
    (hblank : isBlank c) :
    ∃ quote body, isBlank quote = false ∧ token.value.toList = quote :: (body ++ [quote]) := by
  have hspells := h.spells
  obtain ⟨hcomment, hblanks⟩ := shape_of_yields rule h.listed h.yields_ne_nothing
  have hpoint : c ≠ '.' := by
    rintro rfl
    contradiction
  have hat : c ≠ '@' := by
    rintro rfl
    contradiction
  rcases hspells.of_foreign hc (isWordPart_of_isBlank hblank) hpoint hat
    with hshape | hshape | hshape | hshape | hshape
  · -- the only fixed text with a blank in it is the line feed
    rcases not_fixesBlank_or rule h.listed with hrule | hfixed
    · obtain ⟨hvalue, -⟩ : token.value.toList = ['\n'] ∧ _ := hrule ▸ hspells
      rw [hvalue] at hfeed
      exact absurd List.mem_cons_self hfeed
    · rw [hshape] at hfixed
      have hnone := List.any_eq_false.1 hfixed c hc
      exact absurd hblank hnone
  · rw [hshape] at hspells
    obtain ⟨d, hvalue, -⟩ | ⟨d, hvalue, -, -⟩ := hspells
    · exact ⟨'\x27', ['\\', d], by decide, hvalue⟩
    · exact ⟨'\x27', [d], by decide, hvalue⟩
  · rw [hshape] at hspells
    obtain ⟨body, hvalue, -, -⟩ := hspells
    exact ⟨'\x22', body, by decide, hvalue⟩
  · exact absurd hshape hcomment
  · exact absurd hshape hblanks

/-- No token of one line begins or ends with a blank. -/
theorem Rule.Cuts.edges {rule : Rule} {token : Token} (h : rule.Cuts token)
    (hfeed : '\n' ∉ token.value.toList) :
    (∀ c ∈ token.value.toList.head?, isBlank c = false)
      ∧ ∀ c ∈ token.value.toList.getLast?, isBlank c = false := by
  constructor
  · intro c hc
    refine Bool.eq_false_iff.2 fun hblank => ?_
    obtain ⟨quote, body, hquote, hvalue⟩ :=
      h.quoted_of_blank hfeed (List.mem_of_mem_head? hc) hblank
    rw [hvalue, List.head?_cons] at hc
    obtain rfl := Option.some.inj hc
    rw [hquote] at hblank
    contradiction
  · intro c hc
    refine Bool.eq_false_iff.2 fun hblank => ?_
    obtain ⟨quote, body, hquote, hvalue⟩ :=
      h.quoted_of_blank hfeed (List.mem_of_getLast? hc) hblank
    rw [hvalue, ← List.cons_append, List.getLast?_concat] at hc
    obtain rfl := Option.some.inj hc
    rw [hquote] at hblank
    contradiction

/-! ## §4. Whole texts. -/

namespace Scanner

variable {source : String}

theorem underlined_of_token {token : Token} (h : .token token ∈ (ofText source).items.1)
    (hfeed : '\n' ∉ token.value.toList) (severity : Severity) (file message : String) :
    Underlined source (.on severity file token.position token.length message)
      token.value.toList (overhang token.position.line) := by
  obtain ⟨rule, hcuts⟩ := cuts_of_mem_items h
  have hquoted := quotedAt_of_token h hfeed
  have hne : token.value.toList ≠ [] := hcuts.value_ne_nil
  have hlength : token.length = token.value.toList.length :=
    Nat.max_eq_right (List.length_pos_iff.2 hne)
  obtain ⟨hfirst, hlast⟩ := hcuts.edges hfeed
  rw [hlength]
  exact underlined_of_quotedAt hquoted hne (shownAt_of_edges hquoted hne hfirst hlast) _ _ _

/-- The errors of a text are one column wide. -/
theorem length_of_tokenize_error {errors : List Error} (h : tokenize source = .error errors)
    {e : Error} (he : e ∈ errors) : e.length = 1 := by
  obtain ⟨-, rfl⟩ := tokenize_error_iff.1 h
  obtain ⟨stray, -, rfl⟩ := List.mem_map.1 he
  rfl

end Scanner

/-- **Carets stand under what is reported.**  Whatever is said about a token of
a text, or about a character of it that begins no token: the report shows the
line of the source, and its carets stand under the text of the token, or under
the character, at their columns in the row above.  For a line number that has
more columns than the margin they are too far to the left by so many, which is
so from line 10000 on.  A character that is a blank is to stand between others,
since at the edge of its line it is not shown. -/
theorem underlined_of_reported (source file message : String) (severity : Severity) :
    (∀ token, .token token ∈ (Scanner.ofText source).items.1 → '\n' ∉ token.value.toList →
      Underlined source (.on severity file token.position token.length message)
        token.value.toList (overhang token.position.line))
    ∧ (∀ tokens, tokenize source = .ok tokens →
      ∀ token ∈ tokens, token.kind ≠ .eof → '\n' ∉ token.value.toList →
        Underlined source (.on severity file token.position token.length message)
          token.value.toList (overhang token.position.line))
    ∧ (∀ errors, tokenize source = .error errors →
      ∀ e ∈ errors, ∃ c, e.cause = .unreadable c
        ∧ (isBlank c = false ∨ ShownAt source e.position 1 →
          Underlined source (.on severity file e.position e.length message)
            [c] (overhang e.position.line)))
    ∧ ∀ line, overhang line = 0 ↔ line < 10000 := by
  refine ⟨?_, ?_, ?_, fun line => overhang_eq_zero_iff⟩
  · intro token htoken hfeed
    exact Scanner.underlined_of_token htoken hfeed severity file message
  · intro tokens h token hmem hkind hfeed
    obtain ⟨found, last, hitems, rfl⟩ := tokenize_eq_ok_iff.1 h
    refine Scanner.underlined_of_token ?_ hfeed severity file message
    rcases List.mem_append.1 hmem with hfound | hend
    · rw [hitems]
      exact List.mem_map_of_mem hfound
    · rw [List.mem_singleton.1 hend] at hkind
      contradiction
  · intro errors h e he
    obtain ⟨c, hcause, hstray⟩ := Scanner.stray_of_tokenize_error h he
    have hquoted := Scanner.quotedAt_of_stray hstray
    refine ⟨c, hcause, fun hkept => ?_⟩
    rw [Scanner.length_of_tokenize_error h he]
    refine underlined_of_quotedAt hquoted (List.cons_ne_nil c []) ?_ severity file message
    rcases hkept with hblank | hshown
    · refine shownAt_of_edges hquoted (List.cons_ne_nil c []) ?_ ?_
      · intro d hd
        obtain rfl := Option.some.inj hd
        exact hblank
      · intro d hd
        obtain rfl := Option.some.inj hd
        exact hblank
    · exact hshown

/-- A tab in front, a return behind, and an unreadable letter between. -/
def indented : List Item :=
  [.token ⟨.identifier, "y", ⟨2, 1, 3⟩⟩, .token ⟨.assign, "=", ⟨4, 1, 5⟩⟩,
   .stray 'é' ⟨6, 1, 7⟩, .token ⟨.char, "\x27q\x27", ⟨9, 1, 9⟩⟩]

theorem items_indented :
    (Scanner.ofText "\t y = é \x27q\x27 \r").items = (indented, ⟨[], ⟨14, 1, 14⟩⟩) := by
  rw [Scanner.items_eq_itemsWithin (Nat.le_refl _)]
  cbv

theorem tokenize_indented :
    tokenize "\t y = é \x27q\x27 \r" = .error [⟨.unreadable 'é', ⟨6, 1, 7⟩, 1, []⟩] := by
  unfold tokenize
  rw [items_indented]
  rfl

/-- Three carets under the literal, and one under the letter. -/
theorem underlined_of_reported_indented :
    Underlined "\t y = é \x27q\x27 \r" ⟨.warning, "a.imp", 1, 9, 3, "literal"⟩
        ['\x27', 'q', '\x27'] 0
      ∧ (∃ c, Underlined "\t y = é \x27q\x27 \r" ⟨.error, "a.imp", 1, 7, 1, "letter"⟩ [c] 0)
      ∧ Underlined "a=1\n \n\x27\n\x27#c\n" ⟨.note, "a.imp", 1, 3, 1, "one"⟩ ['1'] 0 := by
  obtain ⟨tokens, -, -, fits⟩ :=
    underlined_of_reported "\t y = é \x27q\x27 \r" "a.imp" "literal" .warning
  obtain ⟨-, -, errors, -⟩ :=
    underlined_of_reported "\t y = é \x27q\x27 \r" "a.imp" "letter" .error
  obtain ⟨-, cut, -, -⟩ := underlined_of_reported "a=1\n \n\x27\n\x27#c\n" "a.imp" "one" .note
  rw [items_indented] at tokens
  have margin : overhang 1 = 0 := (fits 1).2 (by decide)
  refine ⟨?_, ?_, ?_⟩
  · have literal := tokens ⟨.char, "\x27q\x27", ⟨9, 1, 9⟩⟩ (by decide) (by decide)
    rwa [margin] at literal
  · obtain ⟨c, cause, letter⟩ := errors _ tokenize_indented _ (List.mem_singleton.2 rfl)
    obtain rfl := Cause.unreadable.inj cause
    have letter := letter (.inl (by decide))
    rw [margin] at letter
    exact ⟨_, letter⟩
  · have one := cut _ tokenize_closelyWritten ⟨.integer, "1", ⟨2, 1, 3⟩⟩ (by decide) (by decide)
      (by decide)
    rwa [margin] at one

/-! ### A number that is too long, and a blank that is not shown -/

namespace Underlined

variable {source : String} {d : Diagnostic} {cs : List Char} {shift : Nat}

/-- What the two rows of an underlined report are. -/
theorem rows (h : Underlined source d cs shift) :
    ∃ line indent front behind margin rest, Text.sourceLine? source d.line = some line
      ∧ line.toList = indent ++ rest ∧ isBlankLine indent
      ∧ (indent ++ front).length + 1 = d.column
      ∧ trimEnd (trimStart line.toList) = front ++ cs ++ behind
      ∧ d.caretMargin line.toList ++ List.replicate (max 1 d.length) '^'
        = margin ++ List.replicate cs.length '^'
      ∧ margin.length + shift = 7 + overhang d.line + front.length := by
  obtain ⟨line, indent, front, behind, trailing, hline, htext, hindent, -, hcolumn, above, margin,
    hrows, -, hshift⟩ := h
  rw [Diagnostic.splitLines_render (Text.not_mem_feed_of_sourceLine? hline)] at hrows
  have hlast := (List.append_inj' hrows (by simp)).2
  rw [List.cons.injEq, List.cons.injEq] at hlast
  have hrow := hlast.1
  rw [List.append_assoc, List.append_assoc] at hrow
  refine ⟨line, indent, front, behind, margin, front ++ (cs ++ (behind ++ trailing)), hline, ?_,
    hindent, hcolumn, ?_, hlast.2.1, ?_⟩
  · simp only [htext, List.append_assoc]
  · rw [List.append_assoc]
    exact List.append_cancel_left hrow
  · rw [hshift, List.length_append, length_gutter]

/-- **The carets are never nearer than by what the line number exceeds the
margin.** -/
theorem overhang_le (h : Underlined source d cs shift) (hlength : max 1 d.length = cs.length) :
    overhang d.line ≤ shift := by
  obtain ⟨line, indent, front, _, margin, rest, -, htext, hindent, hcolumn, -, hcarets, hshift⟩ :=
    h.rows
  rw [hlength] at hcarets
  have hmargin : d.caretMargin line.toList = margin := List.append_cancel_right hcarets
  -- of the indentation no more is shown than stands in front of the carets
  have hstart : trimStart line.toList = trimStart rest := by
    rw [htext]
    exact List.dropWhile_append_of_pos (List.all_eq_true.1 hindent)
  have hle : (trimStart rest).length ≤ rest.length := (List.dropWhile_sublist _).length_le
  have hoffset : d.caretOffset line.toList ≤ front.length := by
    unfold Diagnostic.caretOffset
    rw [hstart, htext, List.length_append, ← hcolumn, List.length_append]
    omega
  rw [← hmargin, Diagnostic.length_caretMargin] at hshift
  omega

end Underlined

namespace Scanner

/-- An `x` below some empty lines. -/
def lowered (n : Nat) : List Char :=
  List.replicate n '\n' ++ ['x']

theorem normalize_lowered (n : Nat) : Text.normalize (lowered n) = lowered n := by
  induction n with
  | zero => rfl
  | succ n ih =>
      show Text.normalize ([] ++ '\n' :: lowered n) = _
      rw [Text.normalize_append List.not_mem_nil, ih]
      rfl

theorem lexeme?_feed (rest : List Char) :
    lexeme? ('\n' :: rest) = some (Rule.fixed "\n" .newline, 1) := rfl

theorem step?_feed (rest : List Char) (p : Position) :
    (⟨'\n' :: rest, p⟩ : Scanner).step?
      = some (some (.token ⟨.newline, "\n", p⟩), ⟨rest, p.after '\n'⟩) := by
  unfold step?
  simp only [lexeme?_feed]
  rfl

theorem step?_lowered (p : Position) :
    (⟨['x'], p⟩ : Scanner).step?
      = some (some (.token ⟨.identifier, "x", p⟩), ⟨[], p.after 'x'⟩) := by
  have hlexeme : lexeme? ['x'] = some (⟨.word, .word⟩, 1) := rfl
  unfold step?
  simp only [hlexeme]
  rfl

/-- It is found below as many lines. -/
theorem mem_items_lowered (n offset line : Nat) :
    .token ⟨.identifier, "x", ⟨offset + n, line + n, 1⟩⟩
      ∈ (⟨lowered n, ⟨offset, line, 1⟩⟩ : Scanner).items.1 := by
  induction n generalizing offset line with
  | zero =>
      show _ ∈ (⟨['x'], ⟨offset, line, 1⟩⟩ : Scanner).items.1
      rw [items_of_step?_some (step?_lowered _)]
      exact List.mem_cons_self
  | succ n ih =>
      show _ ∈ (⟨'\n' :: lowered n, ⟨offset, line, 1⟩⟩ : Scanner).items.1
      rw [items_of_step?_some (step?_feed _ _)]
      have found := ih (offset + 1) (line + 1)
      rw [Nat.add_right_comm offset, Nat.add_right_comm line] at found
      exact List.mem_cons_of_mem _ found

end Scanner

/-- A text with an `x` in line 10000. -/
def farDown : String :=
  String.ofList (Scanner.lowered 9999)

theorem mem_items_farDown :
    .token ⟨.identifier, "x", ⟨9999, 10000, 1⟩⟩ ∈ (Scanner.ofText farDown).items.1 := by
  have found := Scanner.mem_items_lowered 9999 0 1
  unfold Scanner.ofText farDown
  rwa [String.toList_ofList, Scanner.normalize_lowered]

theorem items_blankAtEdge :
    (Scanner.ofText "\u00a0x").items
      = ([.stray '\u00a0' ⟨0, 1, 1⟩, .token ⟨.identifier, "x", ⟨2, 1, 2⟩⟩], ⟨[], ⟨3, 1, 3⟩⟩) := by
  rw [Scanner.items_eq_itemsWithin (Nat.le_refl _)]
  cbv

/-- **Not every report is underlined.**  In line 10000 the carets stand one
column to the left of the name, since its number is one column too long for
their margin.  And a blank that begins no token is reported, but in front of
its line it is taken off with the indentation: no carets stand under it. -/
theorem not_underlined_farDown :
    (.token ⟨.identifier, "x", ⟨9999, 10000, 1⟩⟩ ∈ (Scanner.ofText farDown).items.1
      ∧ ¬Underlined farDown (.on .error "a.imp" ⟨9999, 10000, 1⟩ 1 "name") ['x'] 0)
    ∧ .stray '\u00a0' ⟨0, 1, 1⟩ ∈ (Scanner.ofText "\u00a0x").items.1
      ∧ ∀ shift,
        ¬Underlined "\u00a0x" (.on .error "a.imp" ⟨0, 1, 1⟩ 1 "blank") ['\u00a0'] shift := by
  refine ⟨⟨mem_items_farDown, fun h => ?_⟩, ?_, fun shift h => ?_⟩
  · have hle : overhang 10000 ≤ 0 := h.overhang_le rfl
    have hfits := overhang_eq_zero_iff.1 (Nat.le_zero.1 hle)
    exact absurd hfits (by decide)
  · rw [items_blankAtEdge]
    exact List.mem_cons_self
  · obtain ⟨line, _, front, behind, _, _, hline, -, -, -, hrow, -, -⟩ := h.rows
    have hline' : Text.sourceLine? "\u00a0x" 1 = some "\u00a0x" := by cbv
    obtain rfl := Option.some.inj (hline'.symm.trans hline)
    have hshown : trimEnd (trimStart "\u00a0x".toList) = ['x'] := by cbv
    rw [hshown] at hrow
    have hmem : '\u00a0' ∈ ['x'] := by
      rw [hrow]
      simp
    exact absurd hmem (by decide)

end ImpFront
