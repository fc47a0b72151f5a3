/-
  ImpFront.Proofs.Grammar.Fork
  ────────────────────────────
  **TWO FILES THAT PART AT A PLACE.**

  Two files have the same tokens up to one behind a place, and foretell the
  same types of functions from every place up to it.  Then they are read alike
  as long as the cursor has not passed that place:

      left    t₀ t₁ … t_last t_last+1 │ …
      right   t₀ t₁ … t_last t_last+1 │ …

      reading from the same place  →  the same outcome, at the same place,
                                      or the left cursor is past the last one

  A reader that looks on behind the cursor and comes back, as a chain of
  conditions does over line ends, is past the place as soon as what it looked
  at is.  What such a reader is behind is measured from the cursor it ends at.
-/
import ImpFront.Proofs.Grammar.Bounds
import ImpFront.Proofs.Grammar.Lookahead

namespace ImpFront

open Parse

/-! ## §1. Places in a list of tokens. -/

/-- The return type of the next declaration of a function from the token of
that index on, in front of which another may announce it. -/
def returnTypeFrom? (tokens : List Token) (start : Nat) (name : String) : Option BaseType :=
  returnTypeAhead? name (tokens.take start).getLast? (tokens.drop start)

namespace Cursor

/-- The tokens up to the final one can be peeked at. -/
theorem getElem?_tokens (c : Cursor) {n : Nat} (h : n ≤ c.remaining) :
    c.tokens[c.index + n]? = some (c.peek n) := by
  unfold tokens index peek
  unfold remaining at h
  rw [List.append_assoc, List.getElem?_append_right (by simp)]
  rw [List.length_reverse, Nat.add_sub_cancel_left]
  by_cases hn : n < c.ahead.length
  · rw [List.getElem?_append_left hn, List.getElem?_eq_getElem hn]
    rfl
  · have hend : n = c.ahead.length := by omega
    subst hend
    simp

theorem getElem?_tokens_index (c : Cursor) : c.tokens[c.index]? = some c.current :=
  c.getElem?_tokens (Nat.zero_le _)

theorem index_le_advance (c : Cursor) : c.index ≤ c.advance.index := by
  unfold advance index
  split
  · exact Nat.le_refl _
  · exact Nat.le_succ _

theorem index_advance {c : Cursor} (h : c.current.kind ≠ .eof) :
    c.advance.index = c.index + 1 := by
  have hahead := c.remaining_pos_of_current h
  unfold remaining at hahead
  unfold advance index
  split
  · next hnil =>
    rw [hnil] at hahead
    contradiction
  · rfl

theorem index_le_skip (c : Cursor) (test : Kind → Bool) : c.index ≤ (c.skip test).index := by
  unfold skip index
  simp

theorem returnTypeAhead?_eq (c : Cursor) (name : String) :
    c.returnTypeAhead? name = returnTypeFrom? c.tokens c.index name := by
  unfold returnTypeFrom? Cursor.returnTypeAhead? tokens index
  have hlength : c.behind.length = c.behind.reverse.length := by rw [List.length_reverse]
  rw [List.append_assoc, hlength, List.take_left, List.drop_left, List.getLast?_reverse]

/-- To skip is to take one token after the other. -/
theorem skip_of_test {c : Cursor} {test : Kind → Bool} (inner : test .eof = false)
    (h : test c.current.kind) : c.skip test = c.advance.skip test := by
  obtain ⟨behind, ahead, final, final_kind⟩ := c
  cases ahead with
  | nil =>
      have hfinal : test final.kind := h
      rw [final_kind, inner] at hfinal
      contradiction
  | cons token rest =>
      have htest : test token.kind := h
      simp [skip, run, advance, htest]

end Cursor

/-! ## §2. Places that stand for each other. -/

/-- Two files that part behind a place. -/
structure Fork where
  /-- The tokens of the one file. -/
  left : List Token
  /-- The tokens of the other. -/
  right : List Token
  /-- The index of the last place that matters. -/
  last : Nat
  /-- Up to one behind it the tokens are the same. -/
  same : ∀ i ≤ last + 1, ∀ token, left[i]? = some token → right[i]? = some token
  /-- Up to it the same types are foretold. -/
  foretold : ∀ i ≤ last, ∀ name, returnTypeFrom? left i name = returnTypeFrom? right i name

namespace Fork

variable (F : Fork)

/-- The cursors stand at the same place of the two files, not past the last one. -/
structure Level (c d : Cursor) : Prop where
  /-- The tokens of the one. -/
  left : c.tokens = F.left
  /-- The tokens of the other. -/
  right : d.tokens = F.right
  /-- The place. -/
  index : d.index = c.index
  /-- It is not past the last. -/
  within : c.index ≤ F.last

variable {F}

namespace Level

variable {c d : Cursor}

theorem current (h : F.Level c d) : d.current = c.current := by
  have hleft := c.getElem?_tokens_index
  rw [h.left] at hleft
  have hright := F.same c.index (Nat.le_succ_of_le h.within) _ hleft
  rw [← h.index, ← h.right, d.getElem?_tokens_index] at hright
  exact Option.some.inj hright

theorem current_ne_eof (h : F.Level c d) (inner : c.current.kind ≠ .eof) :
    d.current.kind ≠ .eof := by
  rw [h.current]
  exact inner

/-- Behind a token that is no end token comes the same one in both. -/
theorem peek (h : F.Level c d) (inner : c.current.kind ≠ .eof) : d.peek 1 = c.peek 1 := by
  have hleft := c.getElem?_tokens (c.remaining_pos_of_current inner)
  rw [h.left] at hleft
  have hwithin := h.within
  have hright := F.same (c.index + 1) (by omega) _ hleft
  rw [← h.index, ← h.right,
    d.getElem?_tokens (d.remaining_pos_of_current (h.current_ne_eof inner))] at hright
  exact Option.some.inj hright

theorem returnTypeAhead? (h : F.Level c d) (name : String) :
    d.returnTypeAhead? name = c.returnTypeAhead? name := by
  rw [Cursor.returnTypeAhead?_eq, Cursor.returnTypeAhead?_eq, h.left, h.right, h.index]
  exact (F.foretold c.index h.within name).symm

/-- One token on they are level again, or past the last place. -/
theorem advance (h : F.Level c d) (inner : c.current.kind ≠ .eof) :
    F.Level c.advance d.advance ∨ F.last < c.advance.index := by
  by_cases hlast : c.advance.index ≤ F.last
  · refine .inl ⟨?_, ?_, ?_, hlast⟩
    · rw [Cursor.tokens_advance, h.left]
    · rw [Cursor.tokens_advance, h.right]
    · rw [Cursor.index_advance inner, Cursor.index_advance (h.current_ne_eof inner), h.index]
  · exact .inr (by omega)

/-- And so they are behind tokens that are passed over. -/
theorem skip {test : Kind → Bool} (ends : test .eof = false) (h : F.Level c d) :
    F.Level (c.skip test) (d.skip test) ∨ F.last < (c.skip test).index := by
  -- by the number of tokens ahead: each that passes the test is taken
  induction hn : c.remaining generalizing c d with
  | zero =>
      have hnil : c.ahead = [] := List.eq_nil_of_length_eq_zero hn
      have hfinal : c.current = c.final := by simp [Cursor.current, Cursor.peek, hnil]
      have hstop : test c.current.kind = false := by rw [hfinal, c.final_kind, ends]
      rw [Cursor.skip_of_not hstop, Cursor.skip_of_not (h.current ▸ hstop)]
      exact .inl h
  | succ n ih =>
      by_cases hpass : test c.current.kind
      · have inner : c.current.kind ≠ .eof := by
          intro hkind
          rw [hkind, ends] at hpass
          contradiction
        have hpass' : test d.current.kind := by rw [h.current, hpass]
        rw [Cursor.skip_of_test ends hpass, Cursor.skip_of_test ends hpass']
        rcases h.advance inner with hlevel | hpast
        · refine ih hlevel ?_
          rw [Cursor.remaining_advance, hn]
          rfl
        · exact .inr (Nat.lt_of_lt_of_le hpast (Cursor.index_le_skip _ _))
      · have hstop : test c.current.kind = false := by simpa using hpass
        rw [Cursor.skip_of_not hstop, Cursor.skip_of_not (h.current ▸ hstop)]
        exact .inl h

end Level

end Fork

/-! ## §3. Steps that stay where they are. -/

/-- The parser at another place. -/
def Parser.moved (p : Parser) (c : Cursor) : Parser :=
  { p with cursor := c }

/-- The step does not move the cursor, and all it reads of the tokens is the
one at the cursor. -/
structure Still {α : Type} (x : Parse α) : Prop where
  /-- Where it ends well, it does so at any place with that token. -/
  ok : ∀ {p r : Parser} {a : α}, x p = .ok a r → r.cursor = p.cursor
    ∧ ∀ c : Cursor, c.current = p.current → x (p.moved c) = .ok a (r.moved c)
  /-- And where it fails. -/
  error : ∀ {p r : Parser} {e : Error}, x p = .error e r → r.cursor = p.cursor
    ∧ ∀ c : Cursor, c.current = p.current → x (p.moved c) = .error e (r.moved c)

section

variable {α β : Type} {x : Parse α}

theorem current_eq_of_cursor {p r : Parser} (h : r.cursor = p.cursor) : r.current = p.current :=
  congrArg Cursor.current h

theorem Still.bind {f : α → Parse β} (hx : Still x) (hf : ∀ a, Still (f a)) :
    Still (x >>= f) := by
  constructor
  · intro p r b h
    obtain ⟨a, t, hxp, hft⟩ := bind_ok_iff.1 h
    obtain ⟨hstay, hmove⟩ := hx.ok hxp
    obtain ⟨hstay', hmove'⟩ := (hf a).ok hft
    refine ⟨hstay'.trans hstay, fun c hc => bind_ok_iff.2 ⟨a, t.moved c, hmove c hc, ?_⟩⟩
    exact hmove' c (hc.trans (current_eq_of_cursor hstay).symm)
  · intro p r e h
    rcases bind_error_iff.1 h with hxp | ⟨a, t, hxp, hft⟩
    · obtain ⟨hstay, hmove⟩ := hx.error hxp
      exact ⟨hstay, fun c hc => bind_error_iff.2 (.inl (hmove c hc))⟩
    · obtain ⟨hstay, hmove⟩ := hx.ok hxp
      obtain ⟨hstay', hmove'⟩ := (hf a).error hft
      refine ⟨hstay'.trans hstay, fun c hc =>
        bind_error_iff.2 (.inr ⟨a, t.moved c, hmove c hc, ?_⟩)⟩
      exact hmove' c (hc.trans (current_eq_of_cursor hstay).symm)

end

/-! ## §4. Outcomes. -/

/-- What is behind a reader is measured from where it ends. -/
def here {α : Type} (_ : α) (c : Cursor) : Nat :=
  c.index

namespace Fork

variable (F : Fork)

/-- The parsers stand at the same place of the two files, and differ in
nothing else. -/
inductive Twin : Parser → Parser → Prop
  | at {p : Parser} {c : Cursor} (level : F.Level p.cursor c) : Twin p (p.moved c)

/-- Reading is past the last place, or has lost track of its own work. -/
def Gone {α : Type} (reach : α → Cursor → Nat) : EStateM.Result Error Parser α → Prop
  | .ok a p => F.last < reach a p.cursor
  | .error e p => F.last < p.cursor.index ∨ e.cause.stage = .internal

/-- Two outcomes of readers: the same, at the same place of the two files,
unless the one on the left is past the last place. -/
inductive Follows {α : Type} (reach : α → Cursor → Nat) :
    EStateM.Result Error Parser α → EStateM.Result Error Parser α → Prop
  | ok {a : α} {p q : Parser} (twin : F.Twin p q) : Follows reach (.ok a p) (.ok a q)
  | error {e : Error} {p q : Parser} (twin : F.Twin p q) :
      Follows reach (.error e p) (.error e q)
  | gone {r r' : EStateM.Result Error Parser α} (gone : F.Gone reach r) : Follows reach r r'
  | lost {r : EStateM.Result Error Parser α} {e : Error} {q : Parser}
      (lost : e.cause.stage = .internal) : Follows reach r (.error e q)

/-- Two readers at two places: what is past the last place stays so, and from
the same place the outcomes follow one another. -/
structure Goes {α : Type} (start : Cursor → Nat) (reach : α → Cursor → Nat) (x x' : Parse α)
    (p q : Parser) : Prop where
  /-- No reader comes back. -/
  gone : F.last < start p.cursor → F.Gone reach (x p)
  /-- Both read the same. -/
  follows : F.Twin p q → F.Follows reach (x p) (x' q)

variable {F} {α β : Type} {p q : Parser}

namespace Twin

theorem current (h : F.Twin p q) : q.current = p.current := by
  obtain ⟨level⟩ := h
  exact level.current

theorem kind (h : F.Twin p q) : q.kind = p.kind :=
  congrArg Token.kind h.current

theorem peek (h : F.Twin p q) (inner : p.kind ≠ .eof) : q.cursor.peek 1 = p.cursor.peek 1 := by
  obtain ⟨level⟩ := h
  exact level.peek inner

theorem next (h : F.Twin p q) (inner : p.kind ≠ .eof) :
    F.Twin p.next q.next ∨ F.last < p.next.cursor.index := by
  obtain ⟨level⟩ := h
  exact (level.advance inner).imp_left Twin.at

theorem past (h : F.Twin p q) {test : Kind → Bool} (ends : test .eof = false) :
    F.Twin (p.past test) (q.past test) ∨ F.last < (p.past test).cursor.index := by
  obtain ⟨level⟩ := h
  exact (level.skip ends).imp_left Twin.at

theorem pastLines (h : F.Twin p q) :
    F.Twin p.pastLines q.pastLines ∨ F.last < p.pastLines.cursor.index :=
  h.past rfl

end Twin

/-! ### Sequences -/

section

variable {start : Cursor → Nat} {mid : α → Cursor → Nat} {reach : β → Cursor → Nat}
  {x x' : Parse α}

theorem Gone.bind {f : α → Parse β} (hx : F.Gone mid (x p))
    (hf : ∀ a r, F.last < mid a r.cursor → F.Gone reach (f a r)) :
    F.Gone reach ((x >>= f) p) := by
  rw [bind_apply]
  cases h : x p with
  | ok a r =>
      rw [h] at hx
      exact hf a r hx
  | error e r =>
      rw [h] at hx
      exact hx

/-- **One reader behind the other.** -/
theorem Goes.bind {f f' : α → Parse β} (hx : F.Goes start mid x x' p q)
    (hf : ∀ a r s, F.Goes (mid a) reach (f a) (f' a) r s) :
    F.Goes start reach (x >>= f) (x' >>= f') p q := by
  have hgone : F.Gone mid (x p) → F.Gone reach ((x >>= f) p) :=
    fun gone => gone.bind fun a r past => (hf a r r).gone past
  refine ⟨fun past => hgone (hx.gone past), fun twin => ?_⟩
  have outcome := hx.follows twin
  generalize hr : x p = r at outcome
  generalize hr' : x' q = r' at outcome
  cases outcome with
  | ok twin =>
      rw [bind_apply, bind_apply, hr, hr']
      exact (hf _ _ _).follows twin
  | error twin =>
      rw [bind_apply, bind_apply, hr, hr']
      exact .error twin
  | gone gone => exact .gone (hgone (hr ▸ gone))
  | lost lost =>
      rw [bind_apply x', hr']
      exact .lost lost

/-- A reader that is past more than is asked for. -/
theorem Goes.weaken {start' : Cursor → Nat} {mid' : α → Cursor → Nat}
    (h : F.Goes start mid x x' p q) (hstart : ∀ c, start' c ≤ start c)
    (hmid : ∀ a c, mid a c ≤ mid' a c) : F.Goes start' mid' x x' p q := by
  have hgone : ∀ r : EStateM.Result Error Parser α, F.Gone mid r → F.Gone mid' r := by
    intro r gone
    cases r with
    | ok a r => exact Nat.lt_of_lt_of_le gone (hmid a r.cursor)
    | error e r => exact gone
  constructor
  · intro past
    exact hgone _ (h.gone (Nat.lt_of_lt_of_le past (hstart _)))
  · intro twin
    generalize hr : x p = r
    generalize hr' : x' q = r'
    have outcome := h.follows twin
    rw [hr, hr'] at outcome
    cases outcome with
    | ok twin => exact .ok twin
    | error twin => exact .error twin
    | gone gone => exact .gone (hgone _ gone)
    | lost lost => exact .lost lost

end

/-! ## §5. Looking and moving. -/

section

variable {start : Cursor → Nat} {reach : β → Cursor → Nat}

/-- Where a step is made on both sides and leads on. -/
theorem Goes.step {start' : Cursor → Nat} {x x' y y' : Parse β} {p' q' : Parser}
    (h : F.Goes start' reach y y' p' q') (left : x p = y p')
    (past : F.last < start p.cursor → F.last < start' p'.cursor)
    (right : F.Twin p q → x' q = y' q' ∧ (F.Twin p' q' ∨ F.last < start' p'.cursor)) :
    F.Goes start reach x x' p q := by
  constructor
  · intro before
    rw [left]
    exact h.gone (past before)
  · intro twin
    obtain ⟨hx', leads⟩ := right twin
    rw [left, hx']
    rcases leads with twin' | gone
    · exact h.follows twin'
    · exact .gone (h.gone gone)

theorem Goes.currentKind {f f' : Kind → Parse β}
    (h : F.Goes start reach (f p.kind) (f' p.kind) p q) :
    F.Goes start reach (Parse.currentKind >>= f) (Parse.currentKind >>= f') p q :=
  h.step rfl id fun twin => ⟨by rw [currentKind_bind, twin.kind], .inl twin⟩

theorem Goes.current {f f' : Token → Parse β}
    (h : F.Goes start reach (f p.current) (f' p.current) p q) :
    F.Goes start reach (Parse.current >>= f) (Parse.current >>= f') p q :=
  h.step rfl id fun twin => ⟨by rw [current_bind, twin.current], .inl twin⟩

theorem Goes.peek {f f' : Token → Parse β} (inner : p.kind ≠ .eof)
    (h : F.Goes start reach (f (p.cursor.peek 1)) (f' (p.cursor.peek 1)) p q) :
    F.Goes start reach (Parse.peek 1 >>= f) (Parse.peek 1 >>= f') p q :=
  h.step rfl id fun twin => ⟨by rw [peek_bind, twin.peek inner], .inl twin⟩

theorem Goes.budget {f f' : Nat → Parse β} (h : ∀ n n', F.Goes start reach (f n) (f' n') p q) :
    F.Goes start reach (Parse.budget >>= f) (Parse.budget >>= f') p q :=
  (h _ _).step rfl id fun twin => ⟨rfl, .inl twin⟩

theorem Goes.next {f f' : Token → Parse β} (inner : p.kind ≠ .eof)
    (h : F.Goes Cursor.index reach (f p.current) (f' p.current) p.next q.next) :
    F.Goes Cursor.index reach (Parse.advance >>= f) (Parse.advance >>= f') p q := by
  refine h.step rfl (fun past => Nat.lt_of_lt_of_le past (Cursor.index_le_advance _)) ?_
  intro twin
  exact ⟨by rw [advance_bind, twin.current], twin.next inner⟩

theorem Goes.pastLines {x x' : Parse β}
    (h : F.Goes Cursor.index reach x x' p.pastLines q.pastLines) :
    F.Goes Cursor.index reach (do let _ ← Parse.skipNewlines; x)
      (do let _ ← Parse.skipNewlines; x') p q := by
  refine h.step rfl (fun past => Nat.lt_of_lt_of_le past (Cursor.index_le_skip _ _)) ?_
  intro twin
  exact ⟨rfl, twin.pastLines⟩

theorem Goes.pastComma {x x' : Parse β}
    (h : F.Goes Cursor.index reach x x' p.pastComma q.pastComma) :
    F.Goes Cursor.index reach
      (do if (← Parse.currentKind) = .comma then let _ ← Parse.advance; x else x)
      (do if (← Parse.currentKind) = .comma then let _ ← Parse.advance; x' else x') p q := by
  refine h.step ?_ ?_ ?_
  · exact optionalComma_bind x
  · intro past
    unfold Parser.pastComma
    split
    · exact Nat.lt_of_lt_of_le past (Cursor.index_le_advance _)
    · exact past
  · intro twin
    refine ⟨optionalComma_bind x', ?_⟩
    unfold Parser.pastComma
    rw [twin.current]
    split
    · next comma => exact twin.next (by show p.current.kind ≠ _; rw [comma]; decide)
    · exact .inl twin

end

end Fork

end ImpFront
