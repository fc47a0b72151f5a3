/-
  ImpFront.Proofs.Token.Munch
  ───────────────────────────
  **THE FIRST RULE IS THE LONGEST.**

  The rules are tried in the order of the table, and the first that matches
  takes its lexeme.  That order is as good as trying all of them and taking
  the longest lexeme:

      lexeme? cs = some (rule, n)
        ↔  rule reaches `n` characters, and every other rule fewer or none

  Two rules can match at the same place for two reasons only.  Either both
  are numbers, and then the one with a point is tried first; or both are fixed
  texts, and then none stands behind a text that begins it.
-/
import ImpFront.Proofs.Token.Lexeme

namespace ImpFront

open Text (isDigit)
open Shape (isSeparator)

/-! ## §1. First characters. -/

theorem isDigit_iff {c : Char} : isDigit c ↔ 48 ≤ c.toNat ∧ c.toNat ≤ 57 := by
  simp only [isDigit, Bool.and_eq_true, decide_eq_true_eq, Char.le_def, UInt32.le_iff_toNat_le]
  exact Iff.rfl

theorem isWordStart_iff {c : Char} : isWordStart c
    ↔ 97 ≤ c.toNat ∧ c.toNat ≤ 122 ∨ 65 ≤ c.toNat ∧ c.toNat ≤ 90 ∨ c.toNat = 95 := by
  simp only [isWordStart, isLetter, Bool.or_eq_true, Bool.and_eq_true, decide_eq_true_eq,
    beq_iff_eq, Char.le_def, UInt32.le_iff_toNat_le, or_assoc]
  have hunder : c = '_' ↔ c.toNat = 95 := by
    constructor
    · rintro rfl
      rfl
    · intro h
      exact Char.toNat_inj.1 h
  rw [hunder]
  exact Iff.rfl

/-- What a lexeme can be, from its first character. -/
inductive Start where
  | attribute | word | number | string | character | comment | blank | sign
  deriving DecidableEq

/-- What a lexeme that begins with the character can be. -/
def startOf (c : Char) : Start :=
  if c = '@' then .attribute
  else if isWordStart c then .word
  else if isDigit c || c == '.' then .number
  else if c = '\x22' then .string
  else if c = '\x27' then .character
  else if c = '#' then .comment
  else if isSeparator c then .blank
  else .sign

namespace Shape

/-- What the lexemes of a shape are. -/
def start : Shape → Start
  | .attribute => .attribute
  | .word => .word
  | .decimal | .integer => .number
  | .string => .string
  | .character => .character
  | .comment => .comment
  | .blanks => .blank
  | .exactly [] => .sign
  | .exactly (c :: _) => startOf c

theorem startOf_of_isWordStart {c : Char} (h : isWordStart c) : startOf c = .word := by
  have hat : c ≠ '@' := by
    rintro rfl
    revert h
    decide
  simp [startOf, hat, h]

theorem startOf_of_isDigit {c : Char} (h : isDigit c) : startOf c = .number := by
  have hat : c ≠ '@' := by
    rintro rfl
    revert h
    decide
  have hword : isWordStart c = false := by
    refine Bool.eq_false_iff.2 fun hword => ?_
    have hdigit := isDigit_iff.1 h
    have hletter := isWordStart_iff.1 hword
    omega
  simp [startOf, hat, hword, h]

theorem startOf_of_isSeparator {c : Char} (h : isSeparator c) : startOf c = .blank := by
  simp only [isSeparator, Bool.or_eq_true, beq_iff_eq] at h
  rcases h with ((rfl | rfl) | rfl) | rfl <;> rfl

/-- The first character of a text tells what its shape can be. -/
theorem Spells.startOf_head {shape : Shape} {w : List Char} (h : shape.Spells w) :
    w.head?.map startOf = some shape.start := by
  cases shape with
  | «attribute» =>
      obtain ⟨c, body, rfl, -⟩ := h
      rfl
  | word =>
      obtain ⟨c, body, rfl, hc, -⟩ := h
      exact congrArg some (startOf_of_isWordStart hc)
  | decimal =>
      obtain ⟨whole, part, rfl, hwhole, -⟩ := h
      cases whole with
      | nil => rfl
      | cons c more => exact congrArg some (startOf_of_isDigit (hwhole c List.mem_cons_self))
  | integer =>
      obtain ⟨hne, hw⟩ := h
      cases w with
      | nil => contradiction
      | cons c more => exact congrArg some (startOf_of_isDigit (hw c List.mem_cons_self))
  | string =>
      obtain ⟨body, rfl, -⟩ := h
      rfl
  | character =>
      obtain ⟨c, rfl, -⟩ | ⟨c, rfl, -⟩ := h
      · rfl
      · rfl
  | comment =>
      obtain ⟨body, rfl, -⟩ := h
      rfl
  | blanks =>
      obtain ⟨hne, hw⟩ := h
      cases w with
      | nil => contradiction
      | cons c more => exact congrArg some (startOf_of_isSeparator (hw c List.mem_cons_self))
  | exactly lexeme =>
      obtain ⟨rfl, hne⟩ := h
      cases w with
      | nil => contradiction
      | cons c more => rfl

/-- Shapes that reach into the same text begin in the same way. -/
theorem Reaches.start_eq {shape other : Shape} {cs : List Char} {n m : Nat}
    (h : shape.Reaches cs n) (h' : other.Reaches cs m) : shape.start = other.start := by
  obtain ⟨w, rest, rfl, -, hw, -⟩ := h
  obtain ⟨v, rest', hcs, -, hv, -⟩ := h'
  have hsame : w.head? = v.head? := by
    have hhead := congrArg List.head? hcs
    rwa [List.head?_append, List.head?_append, Option.or_of_isSome, Option.or_of_isSome] at hhead
    · exact List.isSome_head?.2 hv.ne_nil
    · exact List.isSome_head?.2 hw.ne_nil
  have hstart := hw.startOf_head
  rw [hsame, hv.startOf_head] at hstart
  exact (Option.some.inj hstart).symm

/-! ## §2. Two shapes at one place. -/

/-- Wherever both match, the one reaches further than the other: the other
begins in another way, or lacks the point, or is a shorter text. -/
def outranks : Shape → Shape → Bool
  | .exactly lexeme, .exactly other => !lexeme.isPrefixOf other
  | .decimal, .integer => true
  | shape, other => shape.start != other.start

theorem Reaches.lt_of_outranks {shape other : Shape} {cs : List Char} {n m : Nat}
    (h : shape.Reaches cs n) (h' : other.Reaches cs m) (rank : shape.outranks other) :
    m < n := by
  have hstart := h.start_eq h'
  unfold outranks at rank
  split at rank
  · next lexeme text =>
    obtain ⟨w, rest, rfl, rfl, ⟨rfl, -⟩, -⟩ := h
    obtain ⟨v, rest', hcs, rfl, ⟨rfl, -⟩, -⟩ := h'
    by_contra hle
    have hprefix : w <+: v := by
      refine List.prefix_of_prefix_length_le (List.prefix_append w rest) ?_ (by omega)
      rw [hcs]
      exact List.prefix_append v rest'
    rw [List.isPrefixOf_iff_prefix.2 hprefix] at rank
    contradiction
  · obtain ⟨w, rest, rfl, rfl, ⟨whole, part, rfl, hwhole, -⟩, -⟩ := h
    obtain ⟨v, rest', hcs, rfl, ⟨-, hv⟩, hstop⟩ := h'
    -- the digits in front of the point are all that the integer has
    have hpoint : Stops isDigit ('.' :: (part ++ rest)) := stops_cons_iff.2 (by decide)
    have hsame : whole = v := by
      rw [← takeWhile_append_of_stops hwhole hpoint, ← takeWhile_append_of_stops hv hstop, ← hcs]
      simp
    rw [hsame, List.length_append, List.length_cons]
    omega
  · rw [hstart] at rank
    simp at rank

end Shape

/-- The table lists its rules so that an earlier one reaches further. -/
theorem Rule.pairwise_outranks :
    all.Pairwise fun rule other => rule.shape.outranks other.shape := by
  decide +kernel

/-! ## §3. The table at one place. -/

/-- Of all rules this one reaches furthest into the text, namely `n` characters. -/
structure Rule.Longest (rule : Rule) (cs : List Char) (n : Nat) : Prop where
  /-- It is a rule of the table. -/
  listed : rule ∈ all
  /-- It matches. -/
  reaches : rule.shape.measure? cs = some n
  /-- Any other rule that matches falls short of it. -/
  beyond : ∀ other ∈ all, other ≠ rule → ∀ m, other.shape.measure? cs = some m → m < n

theorem Rule.Longest.unique {rule other : Rule} {cs : List Char} {n m : Nat}
    (h : rule.Longest cs n) (h' : other.Longest cs m) : rule = other ∧ n = m := by
  by_cases hsame : rule = other
  · subst hsame
    exact ⟨rfl, Option.some.inj (h.reaches.symm.trans h'.reaches)⟩
  · have hless := h.beyond other h'.listed (Ne.symm hsame) m h'.reaches
    have hmore := h'.beyond rule h.listed hsame n h.reaches
    omega

/-- The first rule that matches reaches furthest. -/
theorem longest_of_lexeme? {cs : List Char} {rule : Rule} {n : Nat}
    (h : lexeme? cs = some (rule, n)) : rule.Longest cs n := by
  obtain ⟨earlier, first, later, hall, hfirst, hnone⟩ := List.findSome?_eq_some_iff.1 h
  obtain ⟨m, hm, he⟩ := Option.map_eq_some_iff.1 hfirst
  obtain ⟨rfl, rfl⟩ := Prod.mk.inj he
  have hrank := Rule.pairwise_outranks
  rw [hall, List.pairwise_append, List.pairwise_cons] at hrank
  constructor
  · rw [hall]
    simp
  · exact hm
  · intro other hother hne k hk
    rw [hall, List.mem_append, List.mem_cons] at hother
    rcases hother with hearlier | rfl | hlater
    · -- the rules in front of it do not match
      have hno := hnone other hearlier
      rw [hk] at hno
      contradiction
    · contradiction
    · exact (Shape.measure?_iff.1 hm).lt_of_outranks (Shape.measure?_iff.1 hk)
        (hrank.2.1.1 other hlater)

theorem lexeme?_eq_none_iff {cs : List Char} :
    lexeme? cs = none ↔ ∀ rule ∈ Rule.all, rule.shape.measure? cs = none := by
  unfold lexeme?
  rw [List.findSome?_eq_none_iff]
  constructor
  · intro h rule hrule
    exact Option.map_eq_none_iff.1 (h rule hrule)
  · intro h rule hrule
    exact Option.map_eq_none_iff.2 (h rule hrule)

/-- **Priority is maximal munch**: the first rule that matches is the one that
reaches furthest. -/
theorem lexeme?_iff_longest {cs : List Char} {rule : Rule} {n : Nat} :
    lexeme? cs = some (rule, n) ↔ rule.Longest cs n := by
  constructor
  · exact longest_of_lexeme?
  · intro h
    cases hfirst : lexeme? cs with
    | none =>
        have hno := lexeme?_eq_none_iff.1 hfirst rule h.listed
        rw [h.reaches] at hno
        contradiction
    | some found =>
        obtain ⟨rfl, rfl⟩ := h.unique (longest_of_lexeme? hfirst)
        rfl

/-! ## §4. The scanner. -/

namespace Scanner

/-! ### Runs, step by step -/

theorem next_eq (s : Scanner) : s.next = match s.step? with
    | none => (none, s)
    | some (some item, after) => (some item, after)
    | some (none, after) => after.next := by
  rw [next.eq_def]
  split <;> simp [*]

theorem items_eq (s : Scanner) : s.items = match s.next with
    | (none, last) => ([], last)
    | (some item, after) => (item :: after.items.1, after.items.2) := by
  rw [items.eq_def]
  split <;> simp [*]

theorem items_of_atEnd {s : Scanner} (h : s.step? = none) : s.items = ([], s) := by
  rw [items_eq, next_eq, h]

theorem items_of_step?_none {s after : Scanner} (h : s.step? = some (none, after)) :
    s.items = after.items := by
  rw [items_eq s, next_eq, h, items_eq after]

theorem items_of_step?_some {s after : Scanner} {item : Item}
    (h : s.step? = some (some item, after)) :
    s.items = (item :: after.items.1, after.items.2) := by
  rw [items_eq, next_eq, h]

/-- The items that so many steps give, and the scanner behind them. -/
def itemsWithin : Nat → Scanner → List Item × Scanner
  | 0, s => ([], s)
  | steps + 1, s =>
    match s.step? with
    | none => ([], s)
    | some (none, after) => itemsWithin steps after
    | some (some item, after) =>
      let (found, last) := itemsWithin steps after
      (item :: found, last)

/-- A run takes no more steps than there are characters. -/
theorem items_eq_itemsWithin {steps : Nat} {s : Scanner} (h : s.rest.length ≤ steps) :
    s.items = itemsWithin steps s := by
  induction steps generalizing s with
  | zero =>
      have hnil := List.eq_nil_of_length_eq_zero (Nat.le_zero.1 h)
      exact items_of_atEnd (by simp [step?, hnil])
  | succ steps ih =>
      unfold itemsWithin
      split
      · next hs => exact items_of_atEnd hs
      · next after hs =>
        have hless := length_lt_of_step? hs
        rw [items_of_step?_none hs, ih (by omega)]
      · next item after hs =>
        have hless := length_lt_of_step? hs
        rw [items_of_step?_some hs, ih (by omega)]

/-! ### What a run comes by -/

/-- The scanner comes by that place when it is run from this one. -/
inductive Visits : Scanner → Scanner → Prop
  | here (s : Scanner) : Visits s s
  | onward {s mid after : Scanner} {item : Option Item} (h : s.step? = some (item, mid))
      (hrest : Visits mid after) : Visits s after

/-- The item is what one step gives, somewhere on the way to the end. -/
def Finds (s : Scanner) (item : Item) : Prop :=
  ∃ place after, s.Visits place ∧ place.step? = some (some item, after)

theorem not_finds_of_atEnd {s : Scanner} (h : s.step? = none) (item : Item) : ¬s.Finds item := by
  rintro ⟨place, after, hvisit, hstep⟩
  cases hvisit with
  | here =>
      rw [h] at hstep
      contradiction
  | onward hs =>
      rw [h] at hs
      contradiction

/-- What a run finds is what its first step gives and what the run finds from
there on. -/
theorem finds_iff_of_step? {s mid : Scanner} {first : Option Item} (h : s.step? = some (first, mid))
    (item : Item) : s.Finds item ↔ first = some item ∨ mid.Finds item := by
  constructor
  · rintro ⟨place, after, hvisit, hstep⟩
    cases hvisit with
    | here =>
        rw [h] at hstep
        exact .inl (congrArg Prod.fst (Option.some.inj hstep))
    | onward hs hrest =>
        rw [h] at hs
        obtain ⟨-, rfl⟩ := Prod.mk.inj (Option.some.inj hs)
        exact .inr ⟨place, after, hrest, hstep⟩
  · rintro (rfl | ⟨place, after, hvisit, hstep⟩)
    · exact ⟨s, mid, .here s, h⟩
    · exact ⟨place, after, .onward h hvisit, hstep⟩

/-- **The items of a run are what its steps give.** -/
theorem mem_items_iff (s : Scanner) (item : Item) : item ∈ s.items.1 ↔ s.Finds item := by
  -- by the length of the text: every step takes some of it
  induction hn : s.rest.length using Nat.strongRecOn generalizing s with
  | _ n ih =>
      cases hs : s.step? with
      | none =>
          rw [items_of_atEnd hs]
          simp [not_finds_of_atEnd hs]
      | some stepped =>
          obtain ⟨first, after⟩ := stepped
          have hrest := ih after.rest.length (hn ▸ length_lt_of_step? hs) after rfl
          rw [finds_iff_of_step? hs, ← hrest]
          cases first with
          | none =>
              rw [items_of_step?_none hs]
              simp
          | some found =>
              rw [items_of_step?_some hs, Option.some.injEq, List.mem_cons]
              exact or_congr_left eq_comm

/-! ### What a step gives -/

/-- Where a rule matches, a step takes the lexeme of the longest. -/
theorem step?_of_lexeme? {s : Scanner} {rule : Rule} {n : Nat}
    (h : lexeme? s.rest = some (rule, n)) :
    s.step? = some (item? rule.yields (s.rest.take n) s.position, s.advance n) := by
  unfold step?
  split
  · next hs =>
    rw [hs] at h
    have hreach := Shape.measure?_iff.1 (longest_of_lexeme? h).reaches
    obtain ⟨w, rest, hnil, -, hw, -⟩ := hreach
    exact absurd (List.append_eq_nil_iff.1 hnil.symm).1 hw.ne_nil
  · rw [h]

/-- Where no rule matches, a step takes one unreadable character. -/
theorem step?_of_lexeme?_none {s : Scanner} {c : Char} {tail : List Char}
    (hs : s.rest = c :: tail) (h : lexeme? s.rest = none) :
    s.step? = some (some (.stray c s.position), s.advance 1) := by
  rw [← passStray_eq_advance hs h]
  unfold step?
  rw [h, hs]

theorem item?_ne_stray {yields : Yield} {lexeme : List Char} {place position : Position}
    {c : Char} : item? yields lexeme place ≠ some (.stray c position) := by
  intro h
  cases yields with
  | token kind => cases h
  | word => cases h
  | nothing => cases h

/-- A step gives a token exactly where a rule that yields one reaches furthest. -/
theorem step?_token_iff {s : Scanner} {found : Token} :
    (∃ after, s.step? = some (some (.token found), after))
      ↔ ∃ rule n, Rule.Longest rule s.rest n
          ∧ item? rule.yields (s.rest.take n) s.position = some (.token found) := by
  constructor
  · rintro ⟨after, hstep⟩
    cases hl : lexeme? s.rest with
    | some hit =>
        obtain ⟨rule, n⟩ := hit
        rw [step?_of_lexeme? hl] at hstep
        exact ⟨rule, n, longest_of_lexeme? hl, congrArg Prod.fst (Option.some.inj hstep)⟩
    | none =>
        cases hs : s.rest with
        | nil => simp [step?, hs] at hstep
        | cons c tail =>
            rw [step?_of_lexeme?_none hs hl] at hstep
            cases hstep
  · rintro ⟨rule, n, hlong, hitem⟩
    refine ⟨s.advance n, ?_⟩
    rw [step?_of_lexeme? (lexeme?_iff_longest.2 hlong), hitem]

/-- A step gives an unreadable character exactly where no rule matches. -/
theorem step?_stray_iff {s : Scanner} {c : Char} {position : Position} :
    (∃ after, s.step? = some (some (.stray c position), after))
      ↔ s.rest.head? = some c ∧ s.position = position
        ∧ ∀ rule ∈ Rule.all, rule.shape.measure? s.rest = none := by
  rw [← lexeme?_eq_none_iff]
  constructor
  · rintro ⟨after, hstep⟩
    cases hl : lexeme? s.rest with
    | some hit =>
        obtain ⟨rule, n⟩ := hit
        rw [step?_of_lexeme? hl] at hstep
        exact absurd (congrArg Prod.fst (Option.some.inj hstep)) item?_ne_stray
    | none =>
        cases hs : s.rest with
        | nil => simp [step?, hs] at hstep
        | cons head tail =>
            rw [step?_of_lexeme?_none hs hl] at hstep
            cases hstep
            exact ⟨rfl, rfl, rfl⟩
  · rintro ⟨hhead, rfl, hl⟩
    obtain ⟨tail, hs⟩ := List.head?_eq_some_iff.1 hhead
    exact ⟨s.advance 1, step?_of_lexeme?_none hs hl⟩

/-- **Maximal munch.**  At any place whatever, the first rule that matches
reaches further than any other that does.  The tokens of a text are the
furthest lexemes at the places its scanner comes by, and its unreadable
characters are those among these places at which no rule matches. -/
theorem munches_maximally (source : String) :
    let start := ofText source
    (∀ (place : Scanner) (rule : Rule) (n : Nat),
      lexeme? place.rest = some (rule, n) ↔ rule.Longest place.rest n)
    ∧ (∀ found, .token found ∈ start.items.1
        ↔ ∃ (place : Scanner) (rule : Rule) (n : Nat),
          start.Visits place ∧ rule.Longest place.rest n
          ∧ item? rule.yields (place.rest.take n) place.position = some (.token found))
    ∧ ∀ c position, .stray c position ∈ start.items.1
        ↔ ∃ place, start.Visits place ∧ place.rest.head? = some c ∧ place.position = position
          ∧ ∀ rule ∈ Rule.all, rule.shape.measure? place.rest = none := by
  intro start
  refine ⟨fun place rule n => lexeme?_iff_longest, ?_, ?_⟩
  · intro found
    rw [mem_items_iff]
    constructor
    · rintro ⟨place, after, hvisit, hstep⟩
      obtain ⟨rule, n, hlong, hitem⟩ := step?_token_iff.1 ⟨after, hstep⟩
      exact ⟨place, rule, n, hvisit, hlong, hitem⟩
    · rintro ⟨place, rule, n, hvisit, hlong, hitem⟩
      obtain ⟨after, hstep⟩ := step?_token_iff.2 ⟨rule, n, hlong, hitem⟩
      exact ⟨place, after, hvisit, hstep⟩
  · intro c position
    rw [mem_items_iff]
    constructor
    · rintro ⟨place, after, hvisit, hstep⟩
      exact ⟨place, hvisit, step?_stray_iff.1 ⟨after, hstep⟩⟩
    · rintro ⟨place, hvisit, hnone⟩
      obtain ⟨after, hstep⟩ := step?_stray_iff.2 hnone
      exact ⟨place, after, hvisit, hstep⟩

end Scanner

/-! ## §5. The tokens of a text. -/

/-- The token is what the rule makes of its text. -/
structure Rule.Cuts (rule : Rule) (token : Token) : Prop where
  /-- It is a rule of the table. -/
  listed : rule ∈ all
  /-- The text is of its shape. -/
  spells : rule.shape.Spells token.value.toList
  /-- Such a text becomes such a token. -/
  yields : Scanner.item? rule.yields token.value.toList token.position = some (.token token)

/-- Every token that is found is cut by a rule. -/
theorem Scanner.cuts_of_mem_items {s : Scanner} {token : Token} (h : .token token ∈ s.items.1) :
    ∃ rule, Rule.Cuts rule token := by
  obtain ⟨place, after, -, hstep⟩ := (mem_items_iff s _).1 h
  obtain ⟨rule, n, hlong, hitem⟩ := step?_token_iff.1 ⟨after, hstep⟩
  obtain ⟨w, rest, hrest, rfl, hw, -⟩ := Shape.measure?_iff.1 hlong.reaches
  have htake : place.rest.take w.length = w := by rw [hrest, List.take_left]
  rw [htake] at hitem
  obtain ⟨htext, hposition⟩ := text_of_item? hitem
  have htext : token.value.toList = w := htext
  have hposition : token.position = place.position := hposition
  exact ⟨rule, hlong.listed, htext ▸ hw, by rw [htext, hposition, hitem]⟩

/-- Where nothing but tokens is found, a rule cuts each of them. -/
theorem Scanner.cuts_of_items {s last : Scanner} {found : List Token}
    (h : s.items = (found.map .token, last)) :
    ∀ token ∈ found, ∃ rule, Rule.Cuts rule token := by
  intro token hmem
  refine cuts_of_mem_items (s := s) ?_
  rw [h]
  exact List.mem_map_of_mem hmem

theorem eq_map_token_of_no_error {found : List Item} (h : found.filterMap Item.error? = []) :
    found = (found.filterMap Item.token?).map .token := by
  induction found with
  | nil => rfl
  | cons item found ih =>
      cases item with
      | token first => exact congrArg (Item.token first :: ·) (ih h)
      | stray c position => cases h

/-- **A text is cut** if nothing but tokens is found in it; an end token
stands behind them. -/
theorem tokenize_eq_ok_iff {source : String} {tokens : List Token} :
    tokenize source = .ok tokens
      ↔ ∃ found last, (Scanner.ofText source).items = (found.map .token, last)
          ∧ tokens = found ++ [⟨.eof, "", last.position⟩] := by
  unfold tokenize
  constructor
  · intro h
    dsimp only at h
    split at h
    · next hclear =>
      cases h
      refine ⟨_, (Scanner.ofText source).items.2, ?_, rfl⟩
      rw [← eq_map_token_of_no_error hclear]
    · cases h
  · rintro ⟨found, last, hitems, rfl⟩
    rw [hitems]
    have herrors : (found.map Item.token).filterMap Item.error? = [] := by
      simp [List.filterMap_map, Item.error?, Function.comp_def]
    have htokens : (found.map Item.token).filterMap Item.token? = found := by
      simp [List.filterMap_map, Item.token?, Function.comp_def]
    dsimp only
    rw [herrors, htokens]

/-! ## §6. The errors of a text. -/

/-- The character of an item that is no token, and its place. -/
def Item.stray? : Item → Option (Char × Position)
  | .token _ => none
  | .stray character position => some (character, position)

/-- The unreadable characters of a text with their places, in order. -/
def strays (source : String) : List (Char × Position) :=
  (Scanner.ofText source).items.1.filterMap Item.stray?

/-- Why a text is refused that has an unreadable character. -/
def strayError (stray : Char × Position) : Error :=
  ⟨.unreadable stray.1, stray.2, 1, []⟩

/-- Cutting a text into tokens fails with its unreadable characters, and with
nothing else. -/
theorem tokenize_error_iff {source : String} {errors : List Error} :
    tokenize source = .error errors
      ↔ strays source ≠ [] ∧ errors = (strays source).map strayError := by
  have same : (Scanner.ofText source).items.1.filterMap Item.error?
      = (strays source).map strayError := by
    rw [strays, List.map_filterMap]
    congr 1
    funext item
    cases item <;> rfl
  unfold tokenize
  dsimp only
  rw [same]
  cases strays source with
  | nil => simp
  | cons first rest => simp [eq_comm]

end ImpFront
