/-
  ImpFront.Proofs.Token.LineBreaks
  ────────────────────────────────
  **LINE FEEDS AND THE TOKENS THEY STAND IN.**

  No line feed of a text is lost: between two tokens there is none, and a
  token holds at most one.  So the tokens with a line feed follow the lines.

      text      a ⏎ '⏎' ⏎ b
      breaks      ⏎ '⏎' ⏎
      line        1  2  3

  Two rules take a line feed.  One takes nothing else; the other is that of
  characters in single quotes, which may have one between the quotes.
-/
import Mathlib
import ImpFront.Proofs.Text.Normal
import ImpFront.Proofs.Token.Munch

namespace ImpFront

open Shape (wordLength)
open Text (isDigit)

/-! ## §1. Lines are counted by line feeds. -/

theorem Position.line_after (p : Position) (c : Char) :
    (p.after c).line = p.line + [c].count '\n' := by
  unfold after
  split
  · next h =>
    subst h
    rfl
  · next h =>
    rw [List.count_eq_zero.2]
    · rfl
    · exact fun hmem => h (List.mem_singleton.1 hmem).symm

theorem Position.line_afterAll (p : Position) (cs : List Char) :
    (p.afterAll cs).line = p.line + cs.count '\n' := by
  induction cs generalizing p with
  | nil => rfl
  | cons c cs ih =>
      have hsplit : ([c] ++ cs).count '\n' = [c].count '\n' + cs.count '\n' :=
        List.count_append
      rw [afterAll_cons, ih, line_after]
      show p.line + [c].count '\n' + cs.count '\n' = p.line + ([c] ++ cs).count '\n'
      rw [hsplit]
      omega

theorem Gap.not_mem_feed {behind gap : List Char} (h : Gap behind gap) : '\n' ∉ gap := by
  induction h with
  | nil => exact List.not_mem_nil
  | blank hc _ ih =>
      intro hmem
      cases List.mem_cons.1 hmem with
      | inl hsame =>
          rw [← hsame] at hc
          revert hc
          decide
      | inr hlater => exact ih hlater
  | comment hbody =>
      intro hmem
      cases List.mem_cons.1 hmem with
      | inl hsame => cases hsame
      | inr hlater => exact hbody hlater

/-! ## §2. Line feeds in a run. -/

/-- The item has a line feed in its text. -/
def Item.breaksLine (item : Item) : Bool :=
  item.text.contains '\n'

theorem Item.count_text_of_breaksLine {item : Item} (h : item.breaksLine)
    (single : item.text.count '\n' ≤ 1) : item.text.count '\n' = 1 := by
  have hmem : '\n' ∈ item.text := by simpa [breaksLine] using h
  have hpos := List.count_pos_iff.2 hmem
  omega

theorem Item.count_text_of_not_breaksLine {item : Item} (h : ¬item.breaksLine) :
    item.text.count '\n' = 0 := by
  refine List.count_eq_zero.2 fun hmem => h ?_
  simpa [breaksLine] using hmem

/-- The item stands in the text behind so many line feeds. -/
def Scanner.StandsBehind (s : Scanner) (feeds : Nat) (item : Item) : Prop :=
  ∃ before behind, s.rest = before ++ item.text ++ behind ∧ before.count '\n' = feeds
    ∧ item.position = s.position.afterAll before

namespace Scanner

theorem Passes.standsBehind {s mid : Scanner} {cs : List Char} {feeds : Nat} {item : Item}
    (h : s.Passes cs mid) (hitem : mid.StandsBehind feeds item) :
    s.StandsBehind (cs.count '\n' + feeds) item := by
  obtain ⟨before, behind, hrest, hcount, hposition⟩ := hitem
  refine ⟨cs ++ before, behind, ?_, ?_, ?_⟩
  · rw [h.rest, hrest]
    simp
  · rw [List.count_append, hcount]
  · rw [hposition, h.position, Position.afterAll_append]

/-- **The items with a line feed follow the line feeds.**  If no item has two
of them, then every line feed is in one, and so many stand before an item as
there are such items in front of it. -/
theorem Exhausts.breaks {s last : Scanner} {found : List Item} (h : s.Exhausts found last)
    (single : ∀ item ∈ found, item.text.count '\n' ≤ 1) :
    (found.filter Item.breaksLine).length = s.rest.count '\n'
      ∧ ∀ i item, (found.filter Item.breaksLine)[i]? = some item → s.StandsBehind i item := by
  induction h with
  | @done s last hn =>
      obtain ⟨gap, hgap, hpass, hend⟩ := gap_of_last hn
      constructor
      · rw [hpass.rest, hend, List.append_nil, List.count_eq_zero.2 hgap.not_mem_feed]
        rfl
      · intro i item hi
        cases hi
  | @more s after last first found hn _ ih =>
      obtain ⟨hcount, hstands⟩ := ih fun item hitem => single item (List.mem_cons_of_mem _ hitem)
      have hfirst := single first List.mem_cons_self
      obtain ⟨gap, hgap, hpass, -, hposition⟩ := gap_of_found hn
      have hgap := List.count_eq_zero.2 hgap.not_mem_feed
      have htotal : (gap ++ first.text).count '\n' = first.text.count '\n' := by
        rw [List.count_append, hgap, Nat.zero_add]
      have hrest : s.rest.count '\n' = first.text.count '\n' + after.rest.count '\n' := by
        rw [hpass.rest, List.count_append, htotal]
      by_cases hbreak : first.breaksLine
      · have hone := Item.count_text_of_breaksLine hbreak hfirst
        rw [List.filter_cons_of_pos hbreak]
        refine ⟨by rw [List.length_cons, hcount, hrest, hone]; omega, ?_⟩
        intro i item hi
        cases i with
        | zero =>
            obtain rfl := Option.some.inj hi
            exact ⟨gap, after.rest, hpass.rest, hgap, hposition⟩
        | succ i =>
            have hlater := hpass.standsBehind (hstands i item hi)
            rw [htotal, hone, Nat.add_comm] at hlater
            exact hlater
      · have hnone := Item.count_text_of_not_breaksLine hbreak
        rw [List.filter_cons_of_neg hbreak]
        refine ⟨by rw [hcount, hrest, hnone, Nat.zero_add], ?_⟩
        intro i item hi
        have hlater := hpass.standsBehind (hstands i item hi)
        rwa [htotal, hnone, Nat.zero_add] at hlater

end Scanner

/-! ## §3. Rules that take a line feed. -/

theorem not_mem_of_forall {p : Char → Bool} {cs : List Char} {c : Char} (h : ∀ d ∈ cs, p d)
    (hc : p c = false) : c ∉ cs := by
  intro hmem
  have hp := h c hmem
  rw [hc] at hp
  contradiction

namespace Shape

theorem not_mem_of_wordLength {c : Char} (hpart : isWordPart c = false) (hpoint : c ≠ '.')
    {body : List Char} (h : wordLength body = body.length) : c ∉ body := by
  induction body with
  | nil => exact List.not_mem_nil
  | cons d body ih =>
      unfold wordLength at h
      rw [List.mem_cons, not_or]
      split at h
      · next hd =>
        refine ⟨?_, ih (by simpa using h)⟩
        rintro rfl
        rw [hpart] at hd
        contradiction
      · split at h
        · next hd =>
          refine ⟨?_, ih (by simpa using h)⟩
          rintro rfl
          simp [hpoint] at hd
        · simp at h

/-- A character of no word, no number and no attribute stands only in texts
that are fixed or quoted, in comments and among blanks. -/
theorem Spells.of_foreign {shape : Shape} {w : List Char} {c : Char} (h : shape.Spells w)
    (hmem : c ∈ w) (hpart : isWordPart c = false) (hpoint : c ≠ '.') (hat : c ≠ '@') :
    shape = .exactly w ∨ shape = .character ∨ shape = .string ∨ shape = .comment
      ∨ shape = .blanks := by
  have hstart : isWordStart c = false := (Bool.or_eq_false_iff.1 hpart).1
  have hletter : isLetter c = false := (Bool.or_eq_false_iff.1 hstart).1
  have hdigit : isDigit c = false := (Bool.or_eq_false_iff.1 hpart).2
  cases shape with
  | exactly lexeme => exact .inl (congrArg exactly h.1.symm)
  | character => exact .inr (.inl rfl)
  | string => exact .inr (.inr (.inl rfl))
  | comment => exact .inr (.inr (.inr (.inl rfl)))
  | blanks => exact .inr (.inr (.inr (.inr rfl)))
  | «attribute» =>
      obtain ⟨d, body, rfl, hd, hbody⟩ := h
      have hbody := not_mem_of_forall hbody hpart
      have hd : c ≠ d := by
        rintro rfl
        rw [hletter] at hd
        contradiction
      simp [hat, hd, hbody] at hmem
  | word =>
      obtain ⟨d, body, rfl, hd, hbody⟩ := h
      have hbody := not_mem_of_wordLength hpart hpoint hbody
      have hd : c ≠ d := by
        rintro rfl
        rw [hstart] at hd
        contradiction
      simp [hd, hbody] at hmem
  | decimal =>
      obtain ⟨whole, part, rfl, hwhole, -, hdigits⟩ := h
      have hwhole := not_mem_of_forall hwhole hdigit
      have hdigits := not_mem_of_forall hdigits hdigit
      simp [hpoint, hwhole, hdigits] at hmem
  | integer => exact (not_mem_of_forall h.2 hdigit hmem).elim

/-- A text with a line feed is one that is fixed, or the line feed in single
quotes. -/
theorem Spells.of_feed {shape : Shape} {w : List Char} (h : shape.Spells w) (hfeed : '\n' ∈ w) :
    shape = .exactly w ∨ shape = .character ∧ w = ['\x27', '\n', '\x27'] := by
  rcases h.of_foreign hfeed (by decide) (by decide) (by decide)
    with hfixed | rfl | rfl | rfl | rfl
  · exact .inl hfixed
  · obtain ⟨c, rfl, hc⟩ | ⟨c, rfl, -, -⟩ := h
    · -- behind the backslash there is none
      simp at hfeed
      exact (hc hfeed.symm).elim
    · simp at hfeed
      rw [← hfeed]
      exact .inr ⟨rfl, rfl⟩
  · obtain ⟨body, rfl, -, hbody⟩ := h
    simp [hbody] at hfeed
  · obtain ⟨body, rfl, hbody⟩ := h
    simp [hbody] at hfeed
  · exact (not_mem_of_forall h.2 (by decide) hfeed).elim

/-- The shape is a fixed text with the character in it. -/
def fixes (c : Char) : Shape → Bool
  | .exactly lexeme => lexeme.contains c
  | _ => false

end Shape

namespace Rule

theorem eq_of_fixes_feed :
    ∀ rule ∈ all, rule.shape.fixes '\n' → rule = fixed "\n" .newline := by
  decide

theorem eq_of_character :
    ∀ rule ∈ all, rule.shape = .character → rule = ⟨.character, .token .char⟩ := by
  decide

theorem eq_of_yields_newline :
    ∀ rule ∈ all, rule.yields = .token .newline → rule = fixed "\n" .newline := by
  decide

/-- The kinds of words. -/
def wordKinds : List Kind :=
  [.identifier, .kwIf, .kwElse, .kwWhile, .kwBreak, .kwContinue, .kwFunc, .kwReturn, .kwVar,
   .boolean, .null]

theorem reserved_mem_wordKinds (value : String) :
    (Token.reserved? value).getD .identifier ∈ wordKinds := by
  unfold Token.reserved?
  split <;> decide

variable {rule : Rule} {token : Token}

theorem Cuts.kind_eq {kind : Kind} (h : rule.Cuts token) (hyields : rule.yields = .token kind) :
    token.kind = kind := by
  have hitem := h.yields
  rw [hyields] at hitem
  exact (congrArg Token.kind (Item.token.inj (Option.some.inj hitem))).symm

/-- A token with a line feed is a line feed, bare or in single quotes. -/
theorem Cuts.of_feed (h : rule.Cuts token) (hfeed : '\n' ∈ token.value.toList) :
    token.kind = .newline ∧ token.value = "\n"
      ∨ token.kind = .char ∧ token.value = "\x27\n\x27" := by
  rcases h.spells.of_feed hfeed with hshape | ⟨hshape, hvalue⟩
  · have hrule := eq_of_fixes_feed rule h.listed (by simpa [hshape, Shape.fixes] using hfeed)
    rw [hrule] at hshape
    refine .inl ⟨h.kind_eq (by rw [hrule]; rfl), String.toList_inj.1 ?_⟩
    exact (Shape.exactly.inj hshape).symm
  · have hrule := eq_of_character rule h.listed hshape
    exact .inr ⟨h.kind_eq (by rw [hrule]), String.toList_inj.1 hvalue⟩

/-- A token of another kind than those of words has a rule of its kind. -/
theorem Cuts.yields_of_kind {kind : Kind} (h : rule.Cuts token) (hkind : token.kind = kind)
    (hword : kind ∉ wordKinds) : rule.yields = .token kind := by
  have hitem := h.yields
  cases hy : rule.yields with
  | token other => rw [← hkind, h.kind_eq hy]
  | word =>
      rw [hy] at hitem
      have hsame := congrArg Token.kind (Item.token.inj (Option.some.inj hitem))
      have hmem := reserved_mem_wordKinds token.value
      rw [show (Token.reserved? token.value).getD .identifier = kind by simpa [hkind] using hsame]
        at hmem
      exact (hword hmem).elim
  | nothing =>
      rw [hy] at hitem
      cases hitem

theorem Cuts.of_newline (h : rule.Cuts token) (hkind : token.kind = .newline) :
    token.value = "\n" := by
  have hyields := h.yields_of_kind hkind (by decide)
  have hspells := h.spells
  rw [eq_of_yields_newline rule h.listed hyields] at hspells
  exact String.toList_inj.1 hspells.1

end Rule

/-! ## §4. Whole texts. -/

/-- The token has a line feed in its text. -/
def Token.breaksLine (token : Token) : Bool :=
  (Item.token token).breaksLine

theorem Token.breaksLine_iff {token : Token} : token.breaksLine ↔ '\n' ∈ token.value.toList := by
  unfold breaksLine Item.breaksLine
  exact List.contains_iff_mem

theorem Rule.Cuts.count_le_one {rule : Rule} {token : Token} (h : rule.Cuts token) :
    token.value.toList.count '\n' ≤ 1 := by
  by_cases hfeed : '\n' ∈ token.value.toList
  · rcases h.of_feed hfeed with ⟨-, hvalue⟩ | ⟨-, hvalue⟩
    · rw [hvalue]
      decide
    · rw [hvalue]
      decide
  · rw [List.count_eq_zero.2 hfeed]
    omega

/-- The tokens of a text that have a line feed stand where the scanner found
them, the end token aside. -/
theorem breaks_of_tokens {found : List Token} {last : Scanner} {source : String}
    (hitems : (Scanner.ofText source).items = (found.map .token, last)) :
    let breaks := found.filter Token.breaksLine
    breaks.length = source.toList.count '\n'
    ∧ ∀ i token, breaks[i]? = some token →
        (Scanner.ofText source).StandsBehind i (.token token) := by
  intro breaks
  have hcuts := Scanner.cuts_of_items hitems
  have hrun := (Scanner.ofText source).exhausts_items.1
  rw [hitems] at hrun
  have hbreaks : (found.map Item.token).filter Item.breaksLine = breaks.map .token :=
    List.filter_map
  obtain ⟨hcount, hstands⟩ := hrun.breaks fun item hitem => by
    obtain ⟨token, hmem, rfl⟩ := List.mem_map.1 hitem
    obtain ⟨rule, hrule⟩ := hcuts token hmem
    exact hrule.count_le_one
  rw [hbreaks] at hcount hstands
  constructor
  · rw [List.length_map] at hcount
    rw [hcount]
    exact Text.count_normalize source.toList
  · intro i token hi
    exact hstands i _ (by rw [List.getElem?_map, hi]; rfl)

/-- The tokens that have a line feed follow the line feeds of the text. -/
structure FollowLines (source : String) (tokens : List Token) : Prop where
  /-- There are as many. -/
  counted : (tokens.filter Token.breaksLine).length = source.toList.count '\n'
  /-- The one with `i` of them in front stands on line `i + 1`, behind `i` line
  feeds of the normalized text. -/
  placed : ∀ i token, (tokens.filter Token.breaksLine)[i]? = some token →
    token.position.line = i + 1
      ∧ ∃ before behind, Text.normalize source.toList = before ++ token.value.toList ++ behind
        ∧ before.count '\n' = i ∧ byteLength before = token.position.offset
  /-- They are line ends, and line feeds in single quotes. -/
  alike : ∀ token ∈ tokens, token.breaksLine →
    token.kind = .newline ∧ token.value = "\n" ∨ token.kind = .char ∧ token.value = "\x27\n\x27"
  /-- Line ends are among them. -/
  ends : ∀ token ∈ tokens, token.kind = .newline → token.breaksLine

namespace FollowLines

variable {source : String} {tokens : List Token}

/-- Where no character is a bare line feed, the tokens with a line feed are
the line ends. -/
theorem breaks_eq_newlines (h : FollowLines source tokens)
    (plain : ∀ token ∈ tokens, token.kind = .char → ¬token.breaksLine) :
    tokens.filter Token.breaksLine = tokens.filter fun token => token.kind = .newline := by
  refine List.filter_congr fun token hmem => ?_
  rw [Bool.eq_iff_iff, decide_eq_true_eq]
  constructor
  · intro hbreak
    rcases h.alike token hmem hbreak with hkind | hkind
    · exact hkind.1
    · exact (plain token hmem hkind.1 hbreak).elim
  · exact h.ends token hmem

end FollowLines

/-- **Line feeds and tokens.**  Over every text that is cut into tokens, those
with a line feed follow the line feeds of the text.  They are its line ends,
one for each line feed, unless a character in single quotes is a line feed. -/
theorem followLines_of_tokenize {source : String} {tokens : List Token}
    (h : tokenize source = .ok tokens) :
    FollowLines source tokens
      ∧ ((∀ token ∈ tokens, token.kind = .char → token.value ≠ "\x27\n\x27") →
        tokens.filter Token.breaksLine = tokens.filter fun token => token.kind = .newline) := by
  obtain ⟨found, last, hitems, rfl⟩ := tokenize_eq_ok_iff.1 h
  obtain ⟨hcount, hstands⟩ := breaks_of_tokens hitems
  have hcuts := Scanner.cuts_of_items hitems
  -- the end token has no text
  have hnone : ¬Token.breaksLine ⟨.eof, "", last.position⟩ := by
    rw [Token.breaksLine_iff]
    exact List.not_mem_nil
  have hbreaks : (found ++ [(⟨.eof, "", last.position⟩ : Token)]).filter Token.breaksLine
      = found.filter Token.breaksLine := by
    rw [List.filter_append, List.filter_cons_of_neg hnone, List.filter_nil, List.append_nil]
  have follow : FollowLines source (found ++ [⟨.eof, "", last.position⟩]) := by
    constructor
    · rw [hbreaks, hcount]
    · intro i token hi
      rw [hbreaks] at hi
      obtain ⟨before, behind, hrest, hbefore, hposition⟩ := hstands i token hi
      have hposition : token.position = Position.start.afterAll before := hposition
      refine ⟨?_, before, behind, hrest, hbefore, ?_⟩
      · rw [hposition, Position.line_afterAll, hbefore]
        exact Nat.add_comm 1 i
      · rw [hposition, Position.offset_afterAll]
        exact (Nat.zero_add _).symm
    · intro token hmem hbreak
      rcases List.mem_append.1 hmem with hmem | hmem
      · obtain ⟨rule, hrule⟩ := hcuts token hmem
        exact hrule.of_feed (Token.breaksLine_iff.1 hbreak)
      · obtain rfl := List.mem_singleton.1 hmem
        exact (hnone hbreak).elim
    · intro token hmem hkind
      rcases List.mem_append.1 hmem with hmem | hmem
      · obtain ⟨rule, hrule⟩ := hcuts token hmem
        rw [Token.breaksLine_iff, hrule.of_newline hkind]
        decide
      · obtain rfl := List.mem_singleton.1 hmem
        cases hkind
  refine ⟨follow, fun plain => follow.breaks_eq_newlines ?_⟩
  intro token hmem hchar hbreak
  rcases follow.alike token hmem hbreak with ⟨hline, -⟩ | ⟨-, hvalue⟩
  · rw [hchar] at hline
    cases hline
  · exact plain token hmem hchar hvalue

/-- A line feed in single quotes between two bare ones. -/
def quotedFeed : List Token :=
  [⟨.identifier, "a", ⟨0, 1, 1⟩⟩, ⟨.newline, "\n", ⟨1, 1, 2⟩⟩,
   ⟨.char, "\x27\n\x27", ⟨2, 2, 1⟩⟩, ⟨.newline, "\n", ⟨5, 3, 2⟩⟩,
   ⟨.identifier, "b", ⟨6, 4, 1⟩⟩, ⟨.eof, "", ⟨7, 4, 2⟩⟩]

theorem tokenize_quotedFeed : tokenize "a\n\x27\n\x27\nb" = .ok quotedFeed := by
  unfold tokenize
  rw [Scanner.items_eq_itemsWithin (Nat.le_refl _)]
  cbv

/-- Two names on two lines. -/
def bareFeed : List Token :=
  [⟨.identifier, "a", ⟨0, 1, 1⟩⟩, ⟨.newline, "\n", ⟨1, 1, 2⟩⟩, ⟨.identifier, "b", ⟨2, 2, 1⟩⟩,
   ⟨.eof, "", ⟨3, 2, 2⟩⟩]

theorem tokenize_bareFeed : tokenize "a\nb" = .ok bareFeed := by
  unfold tokenize
  rw [Scanner.items_eq_itemsWithin (Nat.le_refl _)]
  cbv

/-- The line feed in quotes is counted with the others; where there is none,
the line ends are all. -/
theorem followLines_quotedFeed :
    tokenize "a\n\x27\n\x27\nb" = .ok quotedFeed
      ∧ FollowLines "a\n\x27\n\x27\nb" quotedFeed
      ∧ tokenize "a\nb" = .ok bareFeed
      ∧ bareFeed.filter Token.breaksLine = bareFeed.filter fun token => token.kind = .newline :=
  ⟨tokenize_quotedFeed, (followLines_of_tokenize tokenize_quotedFeed).1, tokenize_bareFeed,
    (followLines_of_tokenize tokenize_bareFeed).2 (by decide)⟩

/-- **A line feed without a line end**: in single quotes it is a character. -/
theorem char_of_quotedFeed :
    tokenize "\x27\n\x27"
        = .ok [⟨.char, "\x27\n\x27", ⟨0, 1, 1⟩⟩, ⟨.eof, "", ⟨3, 2, 2⟩⟩]
      ∧ "\x27\n\x27".toList.count '\n' = 1
      ∧ Token.breaksLine ⟨.char, "\x27\n\x27", ⟨0, 1, 1⟩⟩ := by
  refine ⟨?_, by decide, by decide⟩
  unfold tokenize
  rw [Scanner.items_eq_itemsWithin (Nat.le_refl _)]
  cbv

end ImpFront
