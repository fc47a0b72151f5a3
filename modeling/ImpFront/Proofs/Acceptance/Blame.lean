/-
  ImpFront.Proofs.Acceptance.Blame
  ────────────────────────────────
  **WHAT AN ERROR POINTS AT.**

  An error blames a token of the file it is found in, and each of its notes is
  about one: a place that it gives is the place of a token, with the length of
  that token.  The end token counts as one, also where the reader has put it
  behind the tokens itself.

      read side by side with itself, a file is alike only at its own tokens

  The order in which the table of waiting calls is visited plays a part only
  if a file ends with several calls unanswered, and two of them at one offset.
-/
import ImpFront.Proofs.Acceptance.Soundness
import ImpFront.Proofs.Grammar.StatementLockstep
import ImpFront.Proofs.Token.Coordinates

namespace ImpFront

/-! ## §1. A file and itself. -/

theorem Cursor.current_mem_tokens (c : Cursor) : c.current ∈ c.tokens := by
  unfold current peek tokens
  cases c.ahead with
  | nil => simp
  | cons token rest => simp

/-- The lockstep of a file with itself: every token stands for itself. -/
def Lockstep.diagonal (stream : List Token) : Lockstep where
  token s t := s = t ∧ s ∈ stream
  kind same := congrArg Token.kind same.1
  value same := congrArg Token.value same.1
  order same same' _ _ := by rw [same.1, same'.1]
  cursor c d := c = d ∧ c.tokens = stream
  current := by
    rintro c _ ⟨rfl, rfl⟩
    exact ⟨rfl, c.current_mem_tokens⟩
  advance := by
    rintro c _ ⟨rfl, rfl⟩ -
    exact ⟨rfl, c.tokens_advance⟩
  lines := by
    rintro c _ ⟨rfl, rfl⟩
    exact ⟨rfl, c.tokens_skip _⟩
  separators := by
    rintro c _ ⟨rfl, rfl⟩
    exact ⟨rfl, c.tokens_skip _⟩
  ahead := by
    rintro c _ _ ⟨rfl, -⟩
    rfl

/-! ## §2. The order of visits. -/

section

variable {file : String} {tokens : List Token} {order : Table.Traversal Pending}
  {program : Program} {e : Error} {p q : Parser}

/-- What waits behind the statements of a file waits at tokens of the file. -/
theorem waiting_subset {rounds : Nat}
    (h : Grammar.standard.statementsWithin rounds .empty (.start file tokens) = .ok program q) :
    q.scopes.waiting ⊆ tokens := by
  have start : (Lockstep.diagonal (Cursor.ofTokens tokens).tokens).LikeParser
      (.start file tokens) (.start file tokens) :=
    ⟨⟨rfl, rfl⟩, Likeness.likeScopes_empty, rfl, rfl⟩
  have outcome : (Lockstep.diagonal (Cursor.ofTokens tokens).tokens).InStep Lockstep.LikeProgram
      (Grammar.standard.statementsWithin rounds .empty (.start file tokens))
      (Grammar.standard.statementsWithin rounds .empty (.start file tokens)) :=
    Lockstep.inStep_statementsWithin Grammar.inline_standard rfl start
  rw [h] at outcome
  cases outcome with
  | ok _ parsers =>
      intro token waits
      obtain ⟨call, member, rfl⟩ := List.mem_map.1 waits
      have like := List.forall₂_same.1 parsers.scopes.pending.values call member
      exact Cursor.mem_of_mem_ofTokens like.token.2 (by rw [like.kind]; decide)
  | left stalls => exact stalls.elim
  | right stalls => exact stalls.elim

/-- A refused file is refused in the same way whatever the order of visits, or
it has calls unanswered and the error tells of them. -/
theorem tells_of_refused (h : parse file tokens order = (.error e, p)) :
    (∀ order', parse file tokens order' = (.error e, p))
      ∨ p.scopes.waiting ⊆ tokens ∧ p.scopes.Tells e
        ∧ ∀ order', ∃ e', parse file tokens order' = (.error e', p) ∧ p.scopes.Tells e' := by
  rcases Grammar.program_error_iff.1 (parse_error_iff.1 h) with early | ⟨program, statements, found⟩
  · exact .inl fun order' => parse_error_iff.2 (Grammar.program_error_iff.2 (.inl early))
  · refine .inr ⟨waiting_subset statements, Scopes.tells_of_unresolved? found, ?_⟩
    intro order'
    obtain ⟨e', found'⟩ := Option.isSome_iff_exists.1
      (Scopes.isSome_unresolved? (by rw [found]; rfl) order')
    refine ⟨e', parse_error_iff.2 (Grammar.program_error_iff.2 (.inr ?_)),
      Scopes.tells_of_unresolved? found'⟩
    exact ⟨program, statements, found'⟩

/-- **A file is refused in any order of visits** if it is refused in one, at
the same place, and unless two tokens stand at one offset with the same
error. -/
theorem refused_reordered (h : parse file tokens order = (.error e, p))
    (order' : Table.Traversal Pending) :
    ∃ e', parse file tokens order' = (.error e', p)
      ∧ (Scattered tokens → e' = e) := by
  rcases tells_of_refused h with same | ⟨waits, tells, others⟩
  · exact ⟨e, same order', fun _ => rfl⟩
  · obtain ⟨e', refused, tells'⟩ := others order'
    refine ⟨e', refused, fun scattered => tells.eq tells' fun a ha b hb => ?_⟩
    exact scattered.eq (waits ha) (waits hb)

/-- **A file is accepted in any order of visits** if it is accepted in one. -/
theorem accepted_reordered (h : parse file tokens order = (.ok program, p))
    (order' : Table.Traversal Pending) : parse file tokens order' = (.ok program, p) := by
  obtain ⟨q, accepted, last⟩ := parse_ok_iff.1 h
  obtain ⟨statements, answered⟩ := Grammar.program_ok_iff.1 accepted
  refine parse_ok_iff.2 ⟨q, Grammar.program_ok_iff.2 ⟨statements, ?_⟩, last⟩
  exact Scopes.unresolved?_eq_none_iff.2 (Scopes.unresolved?_eq_none_iff.1 answered)

/-- **The order of visits makes no difference** unless two tokens stand at one
offset. -/
theorem parse_reordered (scattered : Scattered tokens) (order order' : Table.Traversal Pending) :
    parse file tokens order = parse file tokens order' := by
  cases h : parse file tokens order with
  | mk result p =>
      cases result with
      | ok program => rw [accepted_reordered h order']
      | error e =>
          obtain ⟨e', refused, same⟩ := refused_reordered h order'
          rw [refused, same scattered]

/-- So it makes none to a file that comes from a text. -/
theorem parse_reordered_of_text {source : String} (lexed : tokenize source = .ok tokens)
    (order order' : Table.Traversal Pending) :
    parse file tokens order = parse file tokens order' :=
  parse_reordered (scattered_of_tokenize lexed) order order'

end

/-! ## §3. Errors. -/

/-- A token stands at the place, and is of the length. -/
def StandsAt (tokens : List Token) (position : Position) (length : Nat) : Prop :=
  ∃ token ∈ tokens, position = token.position ∧ length = token.length

theorem Lockstep.standsAt_of_place {stream : List Token} {position position' : Position}
    {length length' : Nat}
    (h : (diagonal stream).LikePlace position length position' length') :
    StandsAt stream position length := by
  obtain ⟨token, _, ⟨-, member⟩, at_, long, -⟩ := h
  exact ⟨token, member, at_, long⟩

theorem Lockstep.standsAt_of_note {stream : List Token} {notes notes' : List Note}
    (h : List.Forall₂ (diagonal stream).LikeNote notes notes') :
    ∀ note ∈ notes, StandsAt stream note.position note.length := by
  induction h with
  | nil => simp
  | cons first _ ih =>
      intro note member
      cases List.mem_cons.1 member with
      | inl same => exact same ▸ standsAt_of_place first.place
      | inr later => exact ih note later

/-- An error that tells of calls at tokens of a file points at these. -/
theorem Scopes.Tells.standsAt {s : Scopes} {stream : List Token} {e : Error} (h : s.Tells e)
    (waits : s.waiting ⊆ stream) :
    StandsAt stream e.position e.length
      ∧ ∀ note ∈ e.notes, StandsAt stream note.position note.length := by
  obtain ⟨first, rest, rfl, perm, -⟩ := h
  refine ⟨⟨first, waits (perm.subset List.mem_cons_self), rfl, rfl⟩, fun note member => ?_⟩
  obtain ⟨token, later, rfl⟩ := List.mem_map.1 member
  exact ⟨token, waits (perm.subset (List.mem_cons_of_mem _ later)), rfl, rfl⟩

/-- **Every error points at a token**, and so does every note of it. -/
theorem standsAt_of_refused {file : String} {tokens : List Token}
    {order : Table.Traversal Pending} {e : Error} {p : Parser}
    (h : parse file tokens order = (.error e, p)) :
    StandsAt (Cursor.ofTokens tokens).tokens e.position e.length
      ∧ ∀ note ∈ e.notes, StandsAt (Cursor.ofTokens tokens).tokens note.position note.length := by
  rcases tells_of_refused h with same | ⟨waits, tells, -⟩
  · have start : (Lockstep.diagonal (Cursor.ofTokens tokens).tokens).cursor (.ofTokens tokens)
        (.ofTokens tokens) := ⟨rfl, rfl⟩
    -- the outcome is alike itself, and in this lockstep that is a statement about places
    have outcome := Lockstep.likeOutcome_of_start start file file
    rw [same .entry] at outcome
    cases outcome with
    | refused errors _ =>
        exact ⟨Lockstep.standsAt_of_place errors.place, Lockstep.standsAt_of_note errors.notes⟩
  · exact tells.standsAt fun token waits' => Cursor.subset_ofTokens tokens (waits waits')

/-- `far(); near()`. -/
def twoUnanswered : List Token :=
  [word 0 .identifier "far", word 3 .openParen "(", word 4 .closeParen ")",
    word 5 .semicolon ";", word 7 .identifier "near", word 11 .openParen "(",
    word 12 .closeParen ")"]

/-- The error blames the first call, and its note is about the second. -/
theorem standsAt_twoUnanswered :
    (parse "" twoUnanswered).1 = .error ⟨.notDefined "far", ⟨0, 1, 1⟩, 3,
        [⟨"'near' is not defined", ⟨7, 1, 8⟩, 4⟩]⟩
      ∧ StandsAt (Cursor.ofTokens twoUnanswered).tokens ⟨0, 1, 1⟩ 3
      ∧ StandsAt (Cursor.ofTokens twoUnanswered).tokens ⟨7, 1, 8⟩ 4 := by
  have refused : (parse "" twoUnanswered).1 = .error ⟨.notDefined "far", ⟨0, 1, 1⟩, 3,
      [⟨"'near' is not defined", ⟨7, 1, 8⟩, 4⟩]⟩ := by cbv
  refine ⟨refused, ?_⟩
  cases outcome : parse "" twoUnanswered with
  | mk result p =>
      rw [outcome] at refused
      obtain rfl : result = _ := refused
      obtain ⟨blamed, noted⟩ := standsAt_of_refused outcome
      exact ⟨blamed, noted _ (List.mem_singleton_self _)⟩

end ImpFront
