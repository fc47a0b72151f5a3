/-
  ImpFront.Proofs.Token.SourceLines
  ─────────────────────────────────
  **PLACES OF THE NORMALIZED TEXT, QUOTED FROM THE SOURCE.**

  Places are counted in the normalized text, and a report looks them up in the
  source.  The two differ in emptied lines, and a line that is looked up comes
  without the carriage return at its end.

      normalized    before  value  behind
      source        before  value  behind ⏎      same line, same columns

  No item is lost by this.  A line with an item in it is not empty, so it was
  not emptied; and no item ends in a carriage return, so the one that is taken
  off stood behind it.
-/
import ImpFront.Proofs.Token.Coordinates
import ImpFront.Proofs.Token.Relexing

namespace ImpFront

open Text (lineBefore lineAfter splitLines)

/-! ## §1. Quoting a line. -/

/-- The line of the place is there in the source, and these characters begin
at its column. -/
def QuotedAt (source : String) (p : Position) (cs : List Char) : Prop :=
  ∃ line, Text.sourceLine? source p.line = some line
    ∧ 1 ≤ p.column ∧ cs <+: line.toList.drop (p.column - 1)

/-- A carriage return is only taken off behind what ends in another
character. -/
theorem dropReturn_append (start : List Char) {w : List Char} (hne : w ≠ [])
    (hend : w.getLast? ≠ some '\r') (rest : List Char) :
    ∃ rest', Text.dropReturn (start ++ (w ++ rest)) = start ++ (w ++ rest') := by
  unfold Text.dropReturn
  split
  · next hreturn =>
    have hrest : rest ≠ [] := by
      rintro rfl
      rw [List.append_nil, List.getLast?_append_of_ne_nil _ hne] at hreturn
      exact hend hreturn
    refine ⟨rest.dropLast, ?_⟩
    rw [List.dropLast_append_of_ne_nil (by simp [hrest]), List.dropLast_append_of_ne_nil hrest]
  · exact ⟨rest, rfl⟩

/-- **What stands in a line of the normalized text is quoted from the
source**, unless it ends in a carriage return. -/
theorem quotedAt_of_standsIn {source : String} {item : Item}
    (h : item.StandsIn (Text.normalize source.toList)) (hne : item.text ≠ [])
    (hfeed : '\n' ∉ item.text) (hend : item.text.getLast? ≠ some '\r') :
    QuotedAt source item.position item.text := by
  obtain ⟨before, behind, htext, hposition⟩ := h
  rw [List.append_assoc] at htext
  -- the line of the item is the same in both texts, since it is not empty
  have hline := Text.getElem?_splitLines before (item.text ++ behind)
  rw [← htext, Text.lineAfter_append hfeed] at hline
  have hsource := Text.getElem?_of_normalize hline (by simp [hne])
  obtain ⟨rest, hrest⟩ := dropReturn_append (lineBefore before) hne hend (lineAfter behind)
  refine ⟨String.ofList (lineBefore before ++ (item.text ++ rest)), ?_, ?_, ?_⟩
  · rw [hposition, ← hrest]
    show (Text.line? source.toList (1 + before.count '\n')).map String.ofList = _
    rw [Nat.add_comm]
    show ((splitLines source.toList)[before.count '\n']?.map Text.dropReturn).map _ = _
    rw [hsource]
    rfl
  · rw [hposition]
    exact Nat.le_add_right 1 _
  · have hcolumn : item.position.column - 1 = (lineBefore before).length := by
      rw [hposition]
      show 1 + (lineAfter before.reverse).length - 1 = (lineAfter before.reverse).reverse.length
      rw [List.length_reverse]
      omega
    rw [hcolumn, String.toList_ofList, List.drop_left]
    exact List.prefix_append item.text rest

/-! ## §2. Items of one line. -/

theorem Rule.not_fixes_return : ∀ rule ∈ all, rule.shape.fixes '\r' = false := by
  decide

/-- No token ends in a carriage return: where one may stand, a quote follows. -/
theorem Rule.Cuts.getLast?_ne_return {rule : Rule} {token : Token} (h : rule.Cuts token) :
    token.value.toList.getLast? ≠ some '\r' := by
  intro hlast
  have hspells := h.spells
  obtain ⟨hcomment, hblanks⟩ := shape_of_yields rule h.listed h.yields_ne_nothing
  -- a return stands in a fixed text, in a literal, or in what yields no token
  rcases hspells.of_foreign (List.mem_of_getLast? hlast) (by decide) (by decide) (by decide)
    with hshape | hshape | hshape | hshape | hshape
  · have hfixed := not_fixes_return rule h.listed
    rw [hshape] at hfixed
    simp [Shape.fixes] at hfixed
    exact hfixed (List.mem_of_getLast? hlast)
  · rw [hshape] at hspells
    obtain ⟨c, hvalue, -⟩ | ⟨c, hvalue, -, -⟩ := hspells
    · rw [hvalue] at hlast
      cases hlast
    · rw [hvalue] at hlast
      cases hlast
  · rw [hshape] at hspells
    obtain ⟨body, hvalue, -, -⟩ := hspells
    rw [hvalue, ← List.cons_append, List.getLast?_concat] at hlast
    cases hlast
  · exact hcomment hshape
  · exact hblanks hshape

theorem Rule.Cuts.value_ne_nil {rule : Rule} {token : Token} (h : rule.Cuts token) :
    token.value.toList ≠ [] :=
  h.spells.ne_nil

namespace Scanner

variable {source : String}

/-- At a carriage return a rule matches. -/
theorem lexeme?_return_ne_none (rest : List Char) : lexeme? ('\r' :: rest) ≠ none := by
  intro h
  have hrule := List.findSome?_eq_none_iff.1 h ⟨.blanks, .nothing⟩ (by decide)
  simp [Shape.measure?, Shape.runLength?, Shape.isSeparator] at hrule

/-- An unreadable character is none of those that end a line. -/
theorem stray_ne {s : Scanner} {c : Char} {position : Position}
    (h : .stray c position ∈ s.items.1) : c ≠ '\n' ∧ c ≠ '\r' := by
  obtain ⟨place, after, -, hstep⟩ := (mem_items_iff s _).1 h
  obtain ⟨hhead, -, hnone⟩ := step?_stray_iff.1 ⟨after, hstep⟩
  obtain ⟨tail, hrest⟩ := List.head?_eq_some_iff.1 hhead
  have hlexeme := lexeme?_eq_none_iff.2 hnone
  rw [hrest] at hlexeme
  constructor
  · rintro rfl
    exact lexeme?_feed_ne_none tail hlexeme
  · rintro rfl
    exact lexeme?_return_ne_none tail hlexeme

theorem quotedAt_of_stray {c : Char} {position : Position}
    (h : .stray c position ∈ (ofText source).items.1) : QuotedAt source position [c] := by
  obtain ⟨hfeed, hreturn⟩ := stray_ne h
  have hstands := (ofText source).exhausts_items.1.standsIn (follows_ofText source) h
  refine quotedAt_of_standsIn hstands (List.cons_ne_nil _ _) ?_ ?_
  · simpa [Item.text] using hfeed.symm
  · simpa [Item.text] using hreturn

theorem quotedAt_of_token {token : Token} (h : .token token ∈ (ofText source).items.1)
    (hfeed : '\n' ∉ token.value.toList) :
    QuotedAt source token.position token.value.toList := by
  obtain ⟨rule, hcuts⟩ := cuts_of_mem_items h
  have hstands := (ofText source).exhausts_items.1.standsIn (follows_ofText source) h
  exact quotedAt_of_standsIn hstands hcuts.value_ne_nil hfeed hcuts.getLast?_ne_return

end Scanner

/-! ## §3. Whole texts. -/

/-- **Places of the normalized text are places of the source.**  Of every text
the tokens without a line feed in them, and the unreadable characters, are
spelled in the source at their lines and columns; so are the tokens that the
text is cut into, the end token aside, and the characters of the errors that
it is rejected with.  Normalization keeps the number of lines and every line
with more than blanks, and what it returns it does not change again. -/
theorem places_of_source (source : String) :
    (∀ token, .token token ∈ (Scanner.ofText source).items.1 → '\n' ∉ token.value.toList →
      QuotedAt source token.position token.value.toList)
    ∧ (∀ c position, .stray c position ∈ (Scanner.ofText source).items.1 →
      QuotedAt source position [c])
    ∧ (∀ tokens, tokenize source = .ok tokens →
      ∀ token ∈ tokens, token.kind ≠ .eof → '\n' ∉ token.value.toList →
        QuotedAt source token.position token.value.toList)
    ∧ (∀ errors, tokenize source = .error errors →
      ∀ e ∈ errors, ∃ c, e.cause = .unreadable c ∧ QuotedAt source e.position [c])
    ∧ (splitLines (Text.normalize source.toList)).length = (splitLines source.toList).length
    ∧ (∀ (n : Nat) (line : List Char), (splitLines source.toList)[n]? = some line →
      Text.isBlankLine line = false →
        (splitLines (Text.normalize source.toList))[n]? = some line)
    ∧ Text.normalize (Text.normalize source.toList) = Text.normalize source.toList := by
  refine ⟨?_, ?_, ?_, ?_, ?_, ?_, Text.normalize_normalize _⟩
  · intro token htoken hfeed
    exact Scanner.quotedAt_of_token htoken hfeed
  · intro c position hstray
    exact Scanner.quotedAt_of_stray hstray
  · intro tokens h token hmem hkind hfeed
    obtain ⟨found, last, hitems, rfl⟩ := tokenize_eq_ok_iff.1 h
    refine Scanner.quotedAt_of_token ?_ hfeed
    rcases List.mem_append.1 hmem with hfound | hend
    · rw [hitems]
      exact List.mem_map_of_mem hfound
    · rw [List.mem_singleton.1 hend] at hkind
      contradiction
  · intro errors h e he
    obtain ⟨c, hcause, hstray⟩ := Scanner.stray_of_tokenize_error h he
    exact ⟨c, hcause, Scanner.quotedAt_of_stray hstray⟩
  · rw [Text.splitLines_normalize, List.length_map]
  · intro n line hline hblank
    rw [Text.splitLines_normalize, List.getElem?_map, hline]
    show some (Text.normalLine line) = some line
    unfold Text.normalLine
    rw [if_neg (by simp [hblank])]

/-- Carriage returns at the ends of three lines and in a string, a line of
blanks, and a letter that begins no token. -/
def returned : List Item :=
  [.token ⟨.identifier, "x", ⟨0, 1, 1⟩⟩, .token ⟨.newline, "\n", ⟨3, 1, 4⟩⟩,
   .token ⟨.newline, "\n", ⟨4, 2, 1⟩⟩, .token ⟨.identifier, "y", ⟨5, 3, 1⟩⟩,
   .stray 'é' ⟨6, 3, 2⟩, .token ⟨.string, "\x22\r\x22", ⟨9, 3, 4⟩⟩]

theorem items_returned :
    (Scanner.ofText "x \r\n \t\r\nyé \x22\r\x22\r").items = (returned, ⟨[], ⟨13, 3, 8⟩⟩) := by
  rw [Scanner.items_eq_itemsWithin (Nat.le_refl _)]
  cbv

theorem tokenize_returned :
    tokenize "x \r\n \t\r\nyé \x22\r\x22\r" = .error [⟨.unreadable 'é', ⟨6, 3, 2⟩, 1, []⟩] := by
  unfold tokenize
  rw [items_returned]
  rfl

/-- The emptied line is there to be looked up, and the last return of each
line is not quoted. -/
theorem places_of_source_returned :
    QuotedAt "x \r\n \t\r\nyé \x22\r\x22\r" ⟨9, 3, 4⟩ ['\x22', '\r', '\x22']
      ∧ QuotedAt "x \r\n \t\r\nyé \x22\r\x22\r" ⟨6, 3, 2⟩ ['é']
      ∧ QuotedAt "a=1\n \n\x27\n\x27#c\n" ⟨2, 1, 3⟩ ['1']
      ∧ (∃ c, QuotedAt "x \r\n \t\r\nyé \x22\r\x22\r" ⟨6, 3, 2⟩ [c])
      ∧ splitLines (Text.normalize "x \r\n \t\r\nyé \x22\r\x22\r".toList)
        = [['x', ' ', '\r'], [], ['y', 'é', ' ', '\x22', '\r', '\x22', '\r']]
      ∧ (splitLines (Text.normalize "x \r\n \t\r\nyé \x22\r\x22\r".toList))[0]?
        = some ['x', ' ', '\r'] := by
  obtain ⟨tokens, strays, -, errors, -, lines, -⟩ :=
    places_of_source "x \r\n \t\r\nyé \x22\r\x22\r"
  obtain ⟨-, -, cut, -⟩ := places_of_source "a=1\n \n\x27\n\x27#c\n"
  rw [items_returned] at tokens strays
  refine ⟨?_, ?_, ?_, ?_, by cbv, ?_⟩
  · exact tokens ⟨.string, "\x22\r\x22", ⟨9, 3, 4⟩⟩ (by decide) (by decide)
  · exact strays 'é' ⟨6, 3, 2⟩ (by decide)
  · exact cut _ tokenize_closelyWritten ⟨.integer, "1", ⟨2, 1, 3⟩⟩ (by decide) (by decide)
      (by decide)
  · obtain ⟨c, -, quoted⟩ := errors _ tokenize_returned _ (List.mem_singleton.2 rfl)
    exact ⟨c, quoted⟩
  · exact lines 0 _ (by cbv) (by decide)

end ImpFront
