/-
  ImpFront.Proofs.Token.Tiling
  ────────────────────────────
  **NOTHING OF A TEXT IS LOST BETWEEN ITS TOKENS.**

  Run to its end, the scanner cuts the normalized text into items and gaps:

      text  =  gap₁ ++ item₁ ++ gap₂ ++ item₂ ++ … ++ gapₙ

  An item is a token or an unreadable character.  It holds the very
  characters that stand in the text at its offset, which counts bytes.  A gap
  is a run of blanks, with a comment behind them if the line has one.

  A step of the scanner takes an item or a part of a gap off the text; a
  search for the next item takes a gap and then the item; the whole run
  repeats that to the end.
-/
import ImpFront.Token.Scanner
import Mathlib.Data.List.TakeWhile

namespace ImpFront

open Shape (isSeparator runLength?)

/-! ## §1. Bytes and positions. -/

/-- The number of bytes of a run of characters in UTF-8. -/
def byteLength (cs : List Char) : Nat :=
  (String.ofList cs).utf8ByteSize

@[simp] theorem byteLength_nil : byteLength [] = 0 := rfl

@[simp] theorem byteLength_append (cs ds : List Char) :
    byteLength (cs ++ ds) = byteLength cs + byteLength ds := by
  simp only [byteLength, String.ofList_append, String.utf8ByteSize_append]

theorem byteLength_cons (c : Char) (cs : List Char) :
    byteLength (c :: cs) = c.utf8Size + byteLength cs := by
  simp only [byteLength, String.ofList_cons, String.utf8ByteSize_append,
    String.utf8ByteSize_singleton]

theorem byteLength_pos {cs : List Char} (h : cs ≠ []) : 0 < byteLength cs := by
  cases cs with
  | nil => contradiction
  | cons c rest =>
      have hc : 0 < c.utf8Size := c.utf8Size_pos
      rw [byteLength_cons]
      omega

theorem Position.offset_after (p : Position) (c : Char) :
    (p.after c).offset = p.offset + c.utf8Size := by
  unfold Position.after
  split <;> rfl

/-- Passing over characters moves the offset by their bytes. -/
theorem Position.offset_afterAll (p : Position) (cs : List Char) :
    (p.afterAll cs).offset = p.offset + byteLength cs := by
  induction cs generalizing p with
  | nil => simp
  | cons c rest ih =>
      rw [afterAll_cons, ih, offset_after, byteLength_cons]
      omega

/-! ## §2. Items and gaps. -/

/-- The characters of an item. -/
def Item.text : Item → List Char
  | .token found => found.value.toList
  | .stray character _ => [character]

/-- Where an item starts. -/
def Item.position : Item → Position
  | .token found => found.position
  | .stray _ position => position

/-- The offset behind an item. -/
def Item.finish (item : Item) : Nat :=
  item.position.offset + byteLength item.text

/-- Characters that only separate, with the text behind them: blanks, and a
comment where it ends at a line feed or with the whole text. -/
inductive Gap (behind : List Char) : List Char → Prop
  | nil : Gap behind []
  | blank {c : Char} {rest : List Char} (hc : c ∈ [' ', '\t', '\r', '\x0c'])
      (hrest : Gap behind rest) : Gap behind (c :: rest)
  | comment {body : List Char} (hbody : '\n' ∉ body)
      (hbehind : behind = [] ∨ behind.head? = some '\n') : Gap behind ('#' :: body)

/-- The text from an offset on is made of these items, in order, with gaps
before, between and after them. -/
inductive Tiles : Nat → List Char → List Item → Prop
  | done {offset : Nat} {gap : List Char} (hgap : Gap [] gap) : Tiles offset gap []
  | item {offset : Nat} {gap rest : List Char} {item : Item} {found : List Item}
      (hgap : Gap (item.text ++ rest) gap) (hitem : item.text ≠ [])
      (hoffset : item.position.offset = offset + byteLength gap)
      (hrest : Tiles item.finish rest found) :
      Tiles offset (gap ++ item.text ++ rest) (item :: found)

namespace Tiles

/-- Every item is a slice of the text, found at its own offset. -/
theorem slice {offset : Nat} {text : List Char} {found : List Item}
    (h : Tiles offset text found) {item : Item} (hitem : item ∈ found) :
    ∃ before behind, text = before ++ item.text ++ behind ∧
      offset + byteLength before = item.position.offset := by
  induction h with
  | done => contradiction
  | @item offset gap rest first found _ _ hoffset _ ih =>
      cases List.mem_cons.1 hitem with
      | inl hfirst =>
          subst hfirst
          exact ⟨gap, rest, rfl, hoffset.symm⟩
      | inr hlater =>
          obtain ⟨before, behind, hrest, hbefore⟩ := ih hlater
          refine ⟨gap ++ first.text ++ before, behind, ?_, ?_⟩
          · rw [hrest]
            simp only [List.append_assoc]
          · rw [← hbefore, Item.finish, hoffset]
            simp only [byteLength_append]
            omega

/-- No item starts before the text does. -/
theorem le_offset {offset : Nat} {text : List Char} {found : List Item}
    (h : Tiles offset text found) {item : Item} (hitem : item ∈ found) :
    offset ≤ item.position.offset := by
  obtain ⟨before, _, _, hbefore⟩ := h.slice hitem
  omega

/-- The items stand one behind the other and do not overlap. -/
theorem ordered {offset : Nat} {text : List Char} {found : List Item}
    (h : Tiles offset text found) :
    found.Pairwise fun earlier later => earlier.finish ≤ later.position.offset := by
  induction h with
  | done => exact List.Pairwise.nil
  | item _ _ _ hrest ih =>
      exact List.Pairwise.cons (fun later hlater => hrest.le_offset hlater) ih

/-- No item is empty. -/
theorem text_ne_nil {offset : Nat} {text : List Char} {found : List Item}
    (h : Tiles offset text found) {item : Item} (hitem : item ∈ found) :
    item.text ≠ [] := by
  induction h with
  | done => contradiction
  | item _ hfirst _ _ ih =>
      cases List.mem_cons.1 hitem with
      | inl hsame => exact hsame ▸ hfirst
      | inr hlater => exact ih hlater

theorem offset_lt_finish {offset : Nat} {text : List Char} {found : List Item}
    (h : Tiles offset text found) {item : Item} (hitem : item ∈ found) :
    item.position.offset < item.finish := by
  have hpos : 0 < byteLength item.text := byteLength_pos (h.text_ne_nil hitem)
  rw [Item.finish]
  omega

end Tiles

/-! ## §3. What the rules skip. -/

/-- Characters that one rule takes without giving an item. -/
def Skipped (behind cs : List Char) : Prop :=
  (∀ c ∈ cs, isSeparator c) ∨
    ∃ body, cs = '#' :: body ∧ '\n' ∉ body ∧ (behind = [] ∨ behind.head? = some '\n')

/-- Only blanks and comments give no item. -/
theorem Rule.shape_of_nothing :
    ∀ rule ∈ all, rule.yields = .nothing → rule.shape = .comment ∨ rule.shape = .blanks := by
  decide

theorem mem_of_isSeparator {c : Char} (h : isSeparator c) :
    c ∈ [' ', '\t', '\r', '\x0c'] := by
  simpa [isSeparator, or_assoc] using h

/-- Cutting at the length of a leading run leaves the run. -/
theorem take_leadingRun (p : Char → Bool) (cs : List Char) :
    cs.take (cs.takeWhile p).length = cs.takeWhile p :=
  (List.prefix_iff_eq_take.1 (List.takeWhile_prefix p)).symm

/-- Dropping the length of a leading run drops the run. -/
theorem drop_leadingRun (p : Char → Bool) (cs : List Char) :
    cs.drop (cs.takeWhile p).length = cs.dropWhile p := by
  have hsplit := List.takeWhile_append_dropWhile (p := p) (l := cs)
  calc cs.drop (cs.takeWhile p).length
      = (cs.takeWhile p ++ cs.dropWhile p).drop (cs.takeWhile p).length := by rw [hsplit]
    _ = cs.dropWhile p := List.drop_left

theorem take_of_runLength? {p : Char → Bool} {cs : List Char} {n : Nat}
    (h : runLength? p cs = some n) : cs.take n = cs.takeWhile p := by
  unfold runLength? at h
  split at h
  · contradiction
  · next m hm =>
    cases h
    show cs.take m.succ = cs.takeWhile p
    rw [← hm, take_leadingRun]

/-- A comment is a number sign and the rest of its line. -/
theorem comment_of_measure? {cs : List Char} {n : Nat}
    (h : Shape.comment.measure? cs = some n) :
    ∃ rest, cs = '#' :: rest ∧ n = (rest.takeWhile (· != '\n')).length + 1 := by
  unfold Shape.measure? at h
  split at h
  all_goals grind

/-- Behind the rest of a line the text ends or goes on with a line feed. -/
theorem dropWhile_restOfLine (cs : List Char) :
    cs.dropWhile (· != '\n') = [] ∨ (cs.dropWhile (· != '\n')).head? = some '\n' := by
  have hhead := List.head?_dropWhile_not (· != '\n') cs
  cases hrest : cs.dropWhile (· != '\n') with
  | nil => exact .inl rfl
  | cons c rest =>
      rw [hrest] at hhead
      exact .inr (by simpa using hhead)

/-- What a rule without an item takes is blanks or a comment. -/
theorem skipped_of_lexeme? {cs : List Char} {rule : Rule} {n : Nat}
    (h : lexeme? cs = some (rule, n)) (hnothing : rule.yields = .nothing) :
    Skipped (cs.drop n) (cs.take n) := by
  obtain ⟨candidate, hmem, hc⟩ := List.exists_of_findSome?_eq_some h
  obtain ⟨m, hm, he⟩ := Option.map_eq_some_iff.1 hc
  cases he
  cases Rule.shape_of_nothing rule hmem hnothing with
  | inl hcomment =>
      rw [hcomment] at hm
      obtain ⟨rest, rfl, rfl⟩ := comment_of_measure? hm
      refine .inr ⟨rest.takeWhile (· != '\n'), ?_, ?_, ?_⟩
      · rw [List.take_succ_cons, take_leadingRun]
      · intro hmem
        have := List.mem_takeWhile_imp hmem
        simp at this
      · rw [List.drop_succ_cons, drop_leadingRun]
        exact dropWhile_restOfLine rest
  | inr hblanks =>
      rw [hblanks] at hm
      have htake : cs.take n = cs.takeWhile isSeparator := take_of_runLength? hm
      rw [htake]
      exact .inl fun c hc => List.mem_takeWhile_imp hc

namespace Gap

/-- In front of a line feed and at the end of the text no gap is left. -/
theorem eq_nil {behind gap : List Char} (h : Gap behind gap)
    (hstart : gap ++ behind = [] ∨ (gap ++ behind).head? = some '\n') : gap = [] := by
  cases h with
  | nil => rfl
  | @blank c rest hc _ =>
      cases hstart with
      | inl hnone => contradiction
      | inr hfeed =>
          have hc' : c = '\n' := by simpa using hfeed
          rw [hc'] at hc
          contradiction
  | comment => simp at hstart

/-- What a rule skips in front of a gap belongs to the gap. -/
theorem skip {behind gap cs : List Char} (h : Gap behind gap)
    (hskip : Skipped (gap ++ behind) cs) : Gap behind (cs ++ gap) := by
  cases hskip with
  | inl hblank =>
      induction cs with
      | nil => exact h
      | cons c rest ih =>
          have hc : c ∈ [' ', '\t', '\r', '\x0c'] :=
            mem_of_isSeparator (hblank c List.mem_cons_self)
          exact .blank hc (ih fun d hd => hblank d (List.mem_cons_of_mem c hd))
  | inr hcomment =>
      obtain ⟨body, rfl, hbody, hstart⟩ := hcomment
      have hnil : gap = [] := h.eq_nil hstart
      subst hnil
      rw [List.append_nil]
      exact .comment hbody hstart

end Gap

/-! ## §4. The scanner. -/

namespace Scanner

theorem text_of_item? {yields : Yield} {lexeme : List Char} {position : Position} {item : Item}
    (h : item? yields lexeme position = some item) :
    item.text = lexeme ∧ item.position = position := by
  cases yields with
  | token kind =>
      cases h
      exact ⟨String.toList_ofList, rfl⟩
  | word =>
      cases h
      exact ⟨String.toList_ofList, rfl⟩
  | nothing => cases h

theorem nothing_of_item? {yields : Yield} {lexeme : List Char} {position : Position}
    (h : item? yields lexeme position = none) : yields = .nothing := by
  cases yields with
  | token kind => cases h
  | word => cases h
  | nothing => rfl

/-- The scanner stands in front of these characters of the text, and `after`
stands behind them. -/
structure Passes (s : Scanner) (cs : List Char) (after : Scanner) : Prop where
  /-- The characters begin what is left. -/
  rest : s.rest = cs ++ after.rest
  /-- The place moves over them. -/
  position : after.position = s.position.afterAll cs

theorem passes_advance (s : Scanner) (n : Nat) : s.Passes (s.rest.take n) (s.advance n) :=
  ⟨(List.take_append_drop n s.rest).symm, rfl⟩

theorem Passes.trans {s mid after : Scanner} {cs ds : List Char} (h : s.Passes cs mid)
    (h' : mid.Passes ds after) : s.Passes (cs ++ ds) after := by
  constructor
  · rw [h.rest, h'.rest, List.append_assoc]
  · rw [h'.position, h.position, Position.afterAll_append]

/-- At a line feed a rule matches. -/
theorem lexeme?_feed_ne_none (rest : List Char) : lexeme? ('\n' :: rest) ≠ none := by
  intro h
  have hrule := List.findSome?_eq_none_iff.1 h (Rule.fixed "\n" .newline) (by decide)
  simp [Rule.fixed, Shape.measure?] at hrule

/-- To count an unreadable character as one column is to pass over it, since
it is no line feed. -/
theorem passStray_eq_advance {s : Scanner} {c : Char} {tail : List Char} (hs : s.rest = c :: tail)
    (h : lexeme? s.rest = none) : s.passStray c = s.advance 1 := by
  have hc : c ≠ '\n' := by
    rintro rfl
    rw [hs] at h
    exact lexeme?_feed_ne_none tail h
  simp [passStray, advance, hs, Position.after, hc]

/-- A step that gives an item takes its characters off the text. -/
theorem passes_of_step? {s after : Scanner} {item : Item}
    (h : s.step? = some (some item, after)) :
    s.Passes item.text after ∧ item.text ≠ [] ∧ item.position = s.position := by
  unfold step? at h
  split at h
  · contradiction
  · next c tail hs =>
    have hne : s.rest ≠ [] := by simp [hs]
    split at h
    · next rule n hl =>
      simp only [Option.some.injEq, Prod.mk.injEq] at h
      obtain ⟨hitem, rfl⟩ := h
      obtain ⟨htext, hposition⟩ := text_of_item? hitem
      have hpos : 0 < n := lexeme?_pos hl
      rw [htext]
      refine ⟨s.passes_advance n, ?_, hposition⟩
      simp [hne]
      omega
    · next hl =>
      cases h
      have hpass := s.passes_advance 1
      rw [← passStray_eq_advance hs hl, hs] at hpass
      exact ⟨hpass, List.cons_ne_nil _ _, rfl⟩

/-- A step that gives no item takes off a part of a gap. -/
theorem skipped_of_step? {s after : Scanner} (h : s.step? = some (none, after)) :
    ∃ cs, s.Passes cs after ∧ Skipped after.rest cs := by
  unfold step? at h
  split at h
  · contradiction
  · split at h
    · next rule n hl =>
      simp only [Option.some.injEq, Prod.mk.injEq] at h
      obtain ⟨hitem, rfl⟩ := h
      exact ⟨s.rest.take n, s.passes_advance n, skipped_of_lexeme? hl (nothing_of_item? hitem)⟩
    · cases h

/-- Without a step the text is at its end. -/
theorem rest_of_step? {s : Scanner} (h : s.step? = none) : s.rest = [] := by
  unfold step? at h
  split at h
  · assumption
  · split at h <;> contradiction

/-- **The search for the next item** takes a gap off the text, and the item
behind it where there is one. -/
theorem next_spec (s : Scanner) :
    match s.next with
    | (some item, after) =>
      ∃ gap, Gap (item.text ++ after.rest) gap ∧ s.Passes (gap ++ item.text) after ∧
        item.text ≠ [] ∧ item.position = s.position.afterAll gap
    | (none, last) => ∃ gap, Gap [] gap ∧ s.Passes gap last ∧ last.rest = [] := by
  fun_induction next s with
  | case1 s hs =>
    exact ⟨[], .nil, ⟨rfl, rfl⟩, rest_of_step? hs⟩
  | case2 s item after hs =>
    obtain ⟨hpass, hne, hposition⟩ := passes_of_step? hs
    exact ⟨[], .nil, hpass, hne, hposition⟩
  | case3 s following hs ih =>
    obtain ⟨cs, hskipped, hskip⟩ := skipped_of_step? hs
    split at ih
    · next item after hn =>
      obtain ⟨gap, hgap, hpass, hne, hposition⟩ := ih
      rw [hpass.rest, List.append_assoc] at hskip
      refine ⟨cs ++ gap, hgap.skip hskip, ?_, hne, ?_⟩
      · rw [List.append_assoc]
        exact hskipped.trans hpass
      · rw [hposition, hskipped.position, Position.afterAll_append]
    · next last hn =>
      obtain ⟨gap, hgap, hpass, hend⟩ := ih
      rw [hpass.rest, hend] at hskip
      exact ⟨cs ++ gap, hgap.skip hskip, hskipped.trans hpass, hend⟩

/-- What stands in front of an item that is found. -/
theorem gap_of_found {s after : Scanner} {item : Item} (h : s.next = (some item, after)) :
    ∃ gap, Gap (item.text ++ after.rest) gap ∧ s.Passes (gap ++ item.text) after ∧
      item.text ≠ [] ∧ item.position = s.position.afterAll gap := by
  have hspec := s.next_spec
  rwa [h] at hspec

/-- What is left of the text where no further item is found. -/
theorem gap_of_last {s last : Scanner} (h : s.next = (none, last)) :
    ∃ gap, Gap [] gap ∧ s.Passes gap last ∧ last.rest = [] := by
  have hspec := s.next_spec
  rwa [h] at hspec

/-- Asking for the next item again and again gives these items and then none. -/
inductive Exhausts : Scanner → List Item → Scanner → Prop
  | done {s last : Scanner} (h : s.next = (none, last)) : Exhausts s [] last
  | more {s after last : Scanner} {item : Item} {found : List Item}
      (h : s.next = (some item, after)) (hrest : Exhausts after found last) :
      Exhausts s (item :: found) last

/-- A run to the end comes to one, and has passed the whole text. -/
theorem exhausts_items (s : Scanner) :
    s.Exhausts s.items.1 s.items.2 ∧ s.items.2.rest = [] := by
  fun_induction items s with
  | case1 s last hn =>
    obtain ⟨_, _, _, hend⟩ := gap_of_last hn
    exact ⟨.done hn, hend⟩
  | case2 s item after hn found last hi ih =>
    rw [hi] at ih
    exact ⟨.more hn ih.1, ih.2⟩

/-- What a run finds tiles the text it ran over. -/
theorem Exhausts.tiles {s last : Scanner} {found : List Item} (h : s.Exhausts found last) :
    Tiles s.position.offset s.rest found := by
  induction h with
  | @done s last hn =>
      obtain ⟨gap, hgap, hpass, hend⟩ := gap_of_last hn
      rw [hpass.rest, hend, List.append_nil]
      exact .done hgap
  | @more s after last item found hn _ ih =>
      obtain ⟨gap, hgap, hpass, hne, hposition⟩ := gap_of_found hn
      have hoffset : item.position.offset = s.position.offset + byteLength gap := by
        rw [hposition, Position.offset_afterAll]
      have hfinish : after.position.offset = item.finish := by
        rw [hpass.position, Position.offset_afterAll, byteLength_append, Item.finish, hoffset]
        omega
      rw [hfinish] at ih
      rw [hpass.rest]
      exact .item hgap hne hoffset ih

/-- **Lossless tiling.**  Over every source text the search for items comes
to an end, behind the last character.  The items it found, with the gaps
between them, make up the normalized text: each is the slice of the text at
its own offset and ends behind its start, and none starts before an earlier one
has ended. -/
theorem items_tile (source : String) :
    let text := Text.normalize source.toList
    let (found, last) := (Scanner.ofText source).items
    (Scanner.ofText source).Exhausts found last ∧ last.rest = [] ∧
      Tiles 0 text found ∧
      (∀ item ∈ found, item.position.offset < item.finish ∧ ∃ before behind,
        text = before ++ item.text ++ behind ∧ byteLength before = item.position.offset) ∧
      found.Pairwise fun earlier later => earlier.finish ≤ later.position.offset := by
  intro text
  obtain ⟨hrun, hend⟩ := (Scanner.ofText source).exhausts_items
  have htiles : Tiles 0 text (Scanner.ofText source).items.1 := hrun.tiles
  refine ⟨hrun, hend, htiles, ?_, htiles.ordered⟩
  intro item hitem
  obtain ⟨before, behind, hslice, hbefore⟩ := htiles.slice hitem
  exact ⟨htiles.offset_lt_finish hitem, before, behind, hslice, by omega⟩

end Scanner

end ImpFront
