/-
  ImpFront.Proofs.Token.Coordinates
  ─────────────────────────────────
  **PLACES ARE COUNTED FROM THE TEXT.**

  A scanner keeps three counters and moves them in two ways: over a lexeme
  character by character, and over an unreadable character by one column.
  Wherever a run of it comes by, they are a function of what it has passed:

      offset  =  bytes passed
      line    =  1 + line feeds passed
      column  =  1 + characters passed since the last line feed

  So an item stands at the coordinates of its first character, and the places
  of the items rise, by offset and also by line and column.  No two tokens of a
  text stand at one offset.
-/
import ImpFront.Proofs.Token.LineBreaks

namespace ImpFront

/-! ## §1. Places. -/

namespace Position

/-- The place behind these characters of a text. -/
def behind (cs : List Char) : Position where
  offset := byteLength cs
  line := 1 + cs.count '\n'
  column := 1 + (cs.reverse.takeWhile (· != '\n')).length

/-- Earlier in a text, in bytes and also by line and column. -/
structure Before (p q : Position) : Prop where
  offset : p.offset < q.offset
  place : p.line < q.line ∨ p.line = q.line ∧ p.column < q.column

theorem Before.trans {p q r : Position} (h : p.Before q) (h' : q.Before r) : p.Before r := by
  have hoffset := h.offset
  have hoffset' := h'.offset
  have hplace := h.place
  have hplace' := h'.place
  constructor
  · omega
  · omega

theorem after_behind (cs : List Char) (c : Char) : (behind cs).after c = behind (cs ++ [c]) := by
  have hbytes : byteLength (cs ++ [c]) = byteLength cs + c.utf8Size := by
    rw [byteLength_append, byteLength_cons, byteLength_nil, Nat.add_zero]
  unfold after
  split
  · next hc =>
    -- behind a line feed the columns start again
    subst hc
    simp [behind, hbytes, Nat.add_assoc]
  · next hc =>
    simp [behind, hbytes, hc, Nat.add_comm]

/-- **The counters are a function of the characters that they have passed.** -/
theorem afterAll_behind (passed cs : List Char) :
    (behind passed).afterAll cs = behind (passed ++ cs) := by
  induction cs generalizing passed with
  | nil => rw [afterAll_nil, List.append_nil]
  | cons c cs ih =>
      rw [afterAll_cons, after_behind, ih, List.append_assoc]
      rfl

theorem before_after (p : Position) (c : Char) : p.Before (p.after c) := by
  have hc : 0 < c.utf8Size := c.utf8Size_pos
  constructor
  · rw [offset_after]
    omega
  · unfold after
    split
    · exact .inl (Nat.lt_succ_self p.line)
    · exact .inr ⟨rfl, Nat.lt_succ_self p.column⟩

/-- Every character moves the place on. -/
theorem before_afterAll (p : Position) {cs : List Char} (h : cs ≠ []) :
    p.Before (p.afterAll cs) := by
  induction cs generalizing p with
  | nil => contradiction
  | cons c cs ih =>
      rw [afterAll_cons]
      by_cases hcs : cs = []
      · rw [hcs, afterAll_nil]
        exact p.before_after c
      · exact (p.before_after c).trans (ih (p.after c) hcs)

/-- A place behind some characters of a text is one between two characters. -/
theorem isValid_behind (before rest : List Char) :
    (⟨(behind before).offset⟩ : String.Pos.Raw).IsValid (String.ofList (before ++ rest)) := by
  rw [String.Pos.Raw.isValid_iff_exists_append]
  exact ⟨String.ofList before, String.ofList rest, String.ofList_append, rfl⟩

end Position

/-! ## §2. Runs. -/

/-- The item stands in the text, at the coordinates of its first character. -/
def Item.StandsIn (text : List Char) (item : Item) : Prop :=
  ∃ before behind, text = before ++ item.text ++ behind ∧ item.position = .behind before

namespace Scanner

/-- The scanner after so many searches for the next item. -/
def searched : Nat → Scanner → Scanner
  | 0, s => s
  | n + 1, s => searched n s.next.2

/-- The scanner has passed these characters of the text, and its counters say
so. -/
structure Follows (passed text : List Char) (s : Scanner) : Prop where
  text : text = passed ++ s.rest
  position : s.position = .behind passed

theorem follows_ofText (source : String) :
    (ofText source).Follows [] (Text.normalize source.toList) :=
  ⟨rfl, rfl⟩

section

variable {passed text cs : List Char} {s after last : Scanner} {item : Item} {found : List Item}

theorem Follows.passes (h : s.Follows passed text) (hpass : s.Passes cs after) :
    after.Follows (passed ++ cs) text := by
  constructor
  · rw [h.text, hpass.rest, List.append_assoc]
  · rw [hpass.position, h.position, Position.afterAll_behind]

/-- A search leads from a place of the text to a place of the text. -/
theorem passes_next (s : Scanner) : ∃ cs, s.Passes cs s.next.2 := by
  rcases hn : s.next with ⟨_ | item, after⟩
  · obtain ⟨gap, -, hpass, -⟩ := gap_of_last hn
    exact ⟨gap, hpass⟩
  · obtain ⟨gap, -, hpass, -, -⟩ := gap_of_found hn
    exact ⟨gap ++ item.text, hpass⟩

/-- So do any number of searches. -/
theorem passes_searched (n : Nat) (s : Scanner) : ∃ cs, s.Passes cs (s.searched n) := by
  induction n generalizing s with
  | zero => exact ⟨[], rfl, rfl⟩
  | succ n ih =>
      obtain ⟨cs, hfirst⟩ := s.passes_next
      obtain ⟨ds, hrest⟩ := ih s.next.2
      exact ⟨cs ++ ds, hfirst.trans hrest⟩

/-- The searches give the items of a run, one by one. -/
theorem next_searched (n : Nat) (s : Scanner) : (s.searched n).next.1 = s.items.1[n]? := by
  induction n generalizing s with
  | zero =>
      show s.next.1 = _
      rw [items_eq]
      rcases s.next with ⟨_ | item, after⟩
      · rfl
      · rfl
  | succ n ih =>
      show (s.next.2.searched n).next.1 = _
      rw [ih, items_eq s]
      rcases hn : s.next with ⟨_ | item, after⟩
      · -- behind the last item nothing is left to find
        obtain ⟨-, -, -, hend⟩ := gap_of_last hn
        rw [items_of_atEnd (s := after) (by simp [step?, hend])]
        rfl
      · rfl

/-! ### Where the items stand -/

/-- Each item of a run stands in the text at its coordinates. -/
theorem Exhausts.standsIn (h : s.Exhausts found last) (hs : s.Follows passed text)
    (hitem : item ∈ found) : item.StandsIn text := by
  induction h generalizing passed with
  | done => contradiction
  | @more s after last first found hn _ ih =>
      obtain ⟨gap, -, hpass, -, hposition⟩ := gap_of_found hn
      rcases List.mem_cons.1 hitem with rfl | hlater
      · refine ⟨passed ++ gap, after.rest, ?_, ?_⟩
        · rw [hs.text, hpass.rest]
          simp only [List.append_assoc]
        · rw [hposition, hs.position, Position.afterAll_behind]
      · exact ih (hs.passes hpass) hlater

/-- The scanner behind a run has passed the whole text. -/
theorem Exhausts.passes (h : s.Exhausts found last) : s.Passes s.rest last := by
  induction h with
  | @done s last hn =>
      obtain ⟨gap, -, hpass, hend⟩ := gap_of_last hn
      have hgap : s.rest = gap := by rw [hpass.rest, hend, List.append_nil]
      rwa [hgap]
  | @more s after last first found hn _ ih =>
      obtain ⟨gap, -, hpass, -, -⟩ := gap_of_found hn
      rw [hpass.rest]
      exact hpass.trans ih

/-- No item of a run stands in front of the place where the run starts. -/
theorem Exhausts.position_eq (h : s.Exhausts found last) (hitem : item ∈ found) :
    ∃ cs, item.position = s.position.afterAll cs := by
  induction h with
  | done => contradiction
  | @more s after last first found hn _ ih =>
      obtain ⟨gap, -, hpass, -, hposition⟩ := gap_of_found hn
      rcases List.mem_cons.1 hitem with rfl | hlater
      · exact ⟨gap, hposition⟩
      · obtain ⟨cs, hcs⟩ := ih hlater
        exact ⟨gap ++ first.text ++ cs, by rw [hcs, hpass.position, ← Position.afterAll_append]⟩

/-- **The places of the items rise**, up to the place behind the text. -/
theorem Exhausts.rises (h : s.Exhausts found last) :
    (found.map Item.position ++ [last.position]).Pairwise Position.Before := by
  induction h with
  | done => exact List.pairwise_singleton _ _
  | @more s after last first found hn hrest ih =>
      obtain ⟨gap, -, hpass, hne, hposition⟩ := gap_of_found hn
      -- whatever comes later stands behind the text of the first item
      have hbehind : ∀ cs, first.position.Before (after.position.afterAll cs) := by
        intro cs
        rw [hpass.position, Position.afterAll_append, ← hposition, ← Position.afterAll_append]
        exact first.position.before_afterAll fun hnil => hne (List.append_eq_nil_iff.1 hnil).1
      refine List.Pairwise.cons ?_ ih
      intro place hplace
      rcases List.mem_append.1 hplace with hlater | hlast
      · obtain ⟨later, hmem, rfl⟩ := List.mem_map.1 hlater
        obtain ⟨cs, hcs⟩ := hrest.position_eq hmem
        rw [hcs]
        exact hbehind cs
      · rw [List.mem_singleton.1 hlast, hrest.passes.position]
        exact hbehind after.rest

end

/-! ## §3. Whole texts. -/

/-- The run over a text ends with its counters behind the whole of it. -/
theorem position_items (source : String) :
    (ofText source).items.2.position = .behind (Text.normalize source.toList) := by
  have hpass := (ofText source).exhausts_items.1.passes
  exact ((follows_ofText source).passes hpass).position

/-- The errors of a text are at its unreadable characters. -/
theorem stray_of_tokenize_error {source : String} {errors : List Error}
    (h : tokenize source = .error errors) {e : Error} (he : e ∈ errors) :
    ∃ c, e.cause = .unreadable c ∧ .stray c e.position ∈ (ofText source).items.1 := by
  obtain ⟨-, rfl⟩ := tokenize_error_iff.1 h
  obtain ⟨⟨c, position⟩, hstray, rfl⟩ := List.mem_map.1 he
  obtain ⟨item, hitem, hitem'⟩ := List.mem_filterMap.1 hstray
  cases item with
  | token found => cases hitem'
  | stray =>
      cases hitem'
      exact ⟨c, rfl, hitem⟩

/-- **Coordinates are a function of the text.**  After any number of searches
the counters of the scanner are those of the characters it has passed, and its
offset lies between two characters of the text; the next search gives the next
item of the run.  Every item stands in the text at the coordinates of its first
character.  The end token stands behind the whole text, and the errors are at
unreadable characters.  From item to item, and to the end of the text, offsets
rise, and so do line and column. -/
theorem coordinates_of_text (source : String) :
    let text := Text.normalize source.toList
    let start := ofText source
    (∀ n, let s := start.searched n
      (∃ passed, text = passed ++ s.rest ∧ s.position = .behind passed)
        ∧ (⟨s.position.offset⟩ : String.Pos.Raw).IsValid (String.ofList text)
        ∧ s.position.offset ≤ (String.ofList text).utf8ByteSize
        ∧ s.next.1 = start.items.1[n]?)
    ∧ (∀ item ∈ start.items.1, item.StandsIn text)
    ∧ (∀ tokens, tokenize source = .ok tokens →
        ∃ found, start.items.1 = found.map .token
          ∧ tokens = found ++ [⟨.eof, "", Position.behind text⟩])
    ∧ (∀ errors, tokenize source = .error errors →
        ∀ e ∈ errors, ∃ c, e.cause = .unreadable c ∧ .stray c e.position ∈ start.items.1)
    ∧ (start.items.1.map Item.position ++ [Position.behind text]).Pairwise Position.Before := by
  intro text start
  have hrun := start.exhausts_items.1
  refine ⟨?_, ?_, ?_, ?_, ?_⟩
  · intro n s
    obtain ⟨passed, hpass⟩ := start.passes_searched n
    have hs : s.Follows passed text := (follows_ofText source).passes hpass
    have hvalid := Position.isValid_behind passed s.rest
    rw [← hs.text, ← hs.position] at hvalid
    exact ⟨⟨passed, hs.text, hs.position⟩, hvalid, hvalid.le_rawEndPos, start.next_searched n⟩
  · intro item hitem
    exact hrun.standsIn (follows_ofText source) hitem
  · intro tokens h
    obtain ⟨found, last, hitems, rfl⟩ := tokenize_eq_ok_iff.1 h
    have hlast := position_items source
    rw [hitems] at hlast
    exact ⟨found, congrArg Prod.fst hitems, by rw [← hlast]⟩
  · intro errors h e he
    exact stray_of_tokenize_error h he
  · rw [← position_items source]
    exact hrun.rises

/-- A line feed in single quotes, and behind it a letter that begins no token. -/
def strayBehindFeed : List Item :=
  [.token ⟨.char, "\x27\n\x27", ⟨0, 1, 1⟩⟩, .stray 'é' ⟨4, 2, 3⟩,
   .token ⟨.identifier, "x", ⟨7, 2, 5⟩⟩]

theorem items_strayBehindFeed :
    (ofText "\x27\n\x27 é x").items = (strayBehindFeed, ⟨[], ⟨8, 2, 6⟩⟩) := by
  rw [items_eq_itemsWithin (Nat.le_refl _)]
  cbv

theorem tokenize_strayBehindFeed :
    tokenize "\x27\n\x27 é x" = .error [⟨.unreadable 'é', ⟨4, 2, 3⟩, 1, []⟩] := by
  unfold tokenize
  rw [items_strayBehindFeed]
  rfl

/-- The letter takes up two bytes and one column. -/
theorem coordinates_of_text_strayBehindFeed :
    (∃ c, Item.stray c ⟨4, 2, 3⟩ ∈ strayBehindFeed)
      ∧ Item.StandsIn "\x27\n\x27 é x".toList (.stray 'é' ⟨4, 2, 3⟩)
      ∧ ((ofText "\x27\n\x27 é x").searched 2).next.1
        = some (.token ⟨.identifier, "x", ⟨7, 2, 5⟩⟩)
      ∧ [(⟨0, 1, 1⟩ : Position), ⟨4, 2, 3⟩, ⟨7, 2, 5⟩, ⟨8, 2, 6⟩].Pairwise Position.Before := by
  obtain ⟨runs, stands, -, errors, rises⟩ := coordinates_of_text "\x27\n\x27 é x"
  have normal : Text.normalize "\x27\n\x27 é x".toList = "\x27\n\x27 é x".toList := by
    cbv
  rw [items_strayBehindFeed] at runs stands errors rises
  rw [normal] at stands rises
  obtain ⟨c, -, unreadable⟩ := errors _ tokenize_strayBehindFeed _ (List.mem_singleton.2 rfl)
  exact ⟨⟨c, unreadable⟩, stands _ (by decide), (runs 2).2.2.2, rises⟩

end Scanner

/-! ## §4. Tokens apart. -/

/-- No two tokens stand at one offset. -/
def Scattered (tokens : List Token) : Prop :=
  (tokens.map fun token => token.position.offset).Nodup

instance (tokens : List Token) : Decidable (Scattered tokens) :=
  inferInstanceAs (Decidable (tokens.map fun token => token.position.offset).Nodup)

theorem Scattered.sublist {tokens fewer : List Token} (h : Scattered tokens)
    (hsub : fewer.Sublist tokens) : Scattered fewer :=
  List.Nodup.sublist (hsub.map _) h

theorem Scattered.eq {tokens : List Token} (h : Scattered tokens) {s t : Token} (hs : s ∈ tokens)
    (ht : t ∈ tokens) (same : s.position.offset = t.position.offset) : s = t :=
  List.inj_on_of_nodup_map h hs ht same

/-- **The tokens of a text stand apart.** -/
theorem scattered_of_tokenize {source : String} {tokens : List Token}
    (h : tokenize source = .ok tokens) : Scattered tokens := by
  obtain ⟨found, last, hitems, rfl⟩ := tokenize_eq_ok_iff.1 h
  have hrises := (Scanner.ofText source).exhausts_items.1.rises
  rw [hitems] at hrises
  have hplaces : (found.map Item.token).map Item.position ++ [last.position]
      = (found ++ [(⟨.eof, "", last.position⟩ : Token)]).map Token.position := by
    rw [List.map_map, List.map_append]
    rfl
  rw [hplaces, List.pairwise_map] at hrises
  exact List.pairwise_map.2 (hrises.imp fun hbefore => Nat.ne_of_lt hbefore.offset)

end ImpFront
