/-
  ImpFront.Proofs.Acceptance.Attributes
  ─────────────────────────────────────
  **ATTRIBUTES COME FIRST, OUTSIDE OF BLOCKS.**

  A file refuses an attribute behind its first statement of another sort.  A
  block does not: an attribute may stand at any place in it, where it belongs
  to the statements of the block and not to those of the file.

      Reads phrase p q   →  the attributes from p on
                              = those of the phrase, then those from q on

  Each attribute is counted with the number of blocks around it.  Those with
  none are the attributes of the file; all others are inside its statements.
-/
import ImpFront.Proofs.Acceptance.Spelling
import ImpFront.Proofs.Grammar.Visiting
import ImpFront.Proofs.Tree.Placeless

namespace ImpFront

open Cursor (Over Yields)

/-! ## §1. Attributes and the blocks around them. -/

/-- The attributes among some tokens, each with the number of blocks around
it.  In front of the tokens `depth` blocks are open. -/
def attributesIn : Nat → List Token → List (Nat × Token)
  | _, [] => []
  | depth, t :: rest =>
    match t.kind with
    | .openCurly => attributesIn (depth + 1) rest
    | .closeCurly => attributesIn (depth - 1) rest
    | .attribute => (depth, t) :: attributesIn depth rest
    | _ => attributesIn depth rest

mutual

/-- The attributes of a statement with `depth` blocks around it, each with the
number of blocks around the attribute. -/
def Stmt.attributes (depth : Nat) : Stmt → List (Nat × Token)
  | .function _ body => attributesOfAll (depth + 1) body
  | .conditional _ body otherwise =>
    attributesOfAll (depth + 1) body ++ otherwise.attributes depth
  | .repeatWhile _ body => attributesOfAll (depth + 1) body
  | .attribute attached => [(depth, attached.token)]
  | _ => []

/-- The attributes of the rest of a chain of conditions. -/
def Otherwise.attributes (depth : Nat) : Otherwise → List (Nat × Token)
  | .nothing => []
  | .block body => attributesOfAll (depth + 1) body
  | .chain _ body otherwise =>
    attributesOfAll (depth + 1) body ++ otherwise.attributes depth

/-- The attributes of some statements. -/
def attributesOfAll (depth : Nat) : List Stmt → List (Nat × Token)
  | [] => []
  | s :: rest => s.attributes depth ++ attributesOfAll depth rest

end

theorem attributesOfAll_append (depth : Nat) (before behind : List Stmt) :
    attributesOfAll depth (before ++ behind)
      = attributesOfAll depth before ++ attributesOfAll depth behind := by
  induction before with
  | nil => rfl
  | cons s rest ih => rw [List.cons_append, attributesOfAll, ih, attributesOfAll, List.append_assoc]

theorem attributesOfAll_attached (depth : Nat) (attached : List Attribute) :
    attributesOfAll depth (attached.map .attribute)
      = attached.map fun one => (depth, one.token) := by
  induction attached with
  | nil => rfl
  | cons first later ih => rw [List.map_cons, attributesOfAll, ih]; rfl

mutual

/-- What stands in a statement has at least its blocks around it. -/
theorem Stmt.le_of_mem_attributes {depth : Nat} {a : Nat × Token} :
    ∀ s : Stmt, a ∈ s.attributes depth → depth ≤ a.1
  | .function _ body, h | .repeatWhile _ body, h =>
      Nat.le_of_succ_le (le_of_mem_attributesOfAll body h)
  | .conditional _ body otherwise, h =>
      (List.mem_append.1 h).elim
        (fun inside => Nat.le_of_succ_le (le_of_mem_attributesOfAll body inside))
        fun behind => Nat.le_of_lt (otherwise.lt_of_mem_attributes behind)
  | .attribute _, h => by
      rw [List.mem_singleton.1 h]
  | .declare _ _ _, h | .leaveLoop _, h | .nextRound _, h | .giveBack _ _, h
  | .assign _ _, h | .expression _, h => by cases h

/-- What stands in the rest of a chain of conditions is in a block of it. -/
theorem Otherwise.lt_of_mem_attributes {depth : Nat} {a : Nat × Token} :
    ∀ otherwise : Otherwise, a ∈ otherwise.attributes depth → depth < a.1
  | .nothing, h => by cases h
  | .block body, h => le_of_mem_attributesOfAll body h
  | .chain _ body otherwise, h =>
      (List.mem_append.1 h).elim (fun inside => le_of_mem_attributesOfAll body inside)
        fun behind => otherwise.lt_of_mem_attributes behind

theorem le_of_mem_attributesOfAll {depth : Nat} {a : Nat × Token} :
    ∀ ss : List Stmt, a ∈ attributesOfAll depth ss → depth ≤ a.1
  | [], h => by cases h
  | s :: rest, h =>
      (List.mem_append.1 h).elim (fun first => s.le_of_mem_attributes first)
        fun later => le_of_mem_attributesOfAll rest later

end

/-- **An attribute in a statement that is none stands in a block.** -/
theorem Stmt.lt_of_mem_attributes {s : Stmt} (plain : s.attached? = none) {depth : Nat}
    {a : Nat × Token} (h : a ∈ s.attributes depth) : depth < a.1 := by
  cases s with
  | function _ body => exact le_of_mem_attributesOfAll body h
  | repeatWhile _ body => exact le_of_mem_attributesOfAll body h
  | conditional condition body otherwise =>
      -- a condition with its body is the rest of a chain as well
      exact (Otherwise.chain condition body otherwise).lt_of_mem_attributes h
  | «attribute» _ => cases plain
  | _ => cases h

theorem lt_of_mem_attributesOfAll {ss : List Stmt} (plain : ∀ s ∈ ss, s.attached? = none)
    {depth : Nat} {a : Nat × Token} (h : a ∈ attributesOfAll depth ss) : depth < a.1 := by
  induction ss with
  | nil => cases h
  | cons s rest ih =>
      obtain ⟨first, later⟩ := List.forall_mem_cons.1 plain
      cases List.mem_append.1 h with
      | inl here => exact s.lt_of_mem_attributes first here
      | inr there => exact ih later there

/-! ## §2. Attributes ahead. -/

/-- Attributes, and what begins or ends a block or ends a file. -/
def Kind.isMark : Kind → Bool
  | .attribute | .openCurly | .closeCurly | .eof => true
  | _ => false

/-- The token is none of these. -/
def Token.Unmarked (token : Token) : Prop :=
  token.kind.isMark = false

/-- Other tokens make no difference. -/
theorem attributesIn_of_unmarked {token : Token} (h : token.Unmarked) (depth : Nat)
    (rest : List Token) : attributesIn depth (token :: rest) = attributesIn depth rest := by
  unfold Token.Unmarked at h
  rw [attributesIn]
  split
  · next opening => rw [opening] at h; cases h
  · next closing => rw [closing] at h; cases h
  · next attached => rw [attached] at h; cases h
  · rfl

namespace Cursor

variable {c d : Cursor}

/-- The attributes ahead, up to the first end token. -/
def attributesAhead (depth : Nat) (c : Cursor) : List (Nat × Token) :=
  attributesIn depth (inner c.ahead)

theorem inner_ahead (h : c.current.kind ≠ .eof) :
    inner c.ahead = c.current :: inner c.advance.ahead := by
  cases ha : c.ahead with
  | nil =>
      have final : c.current = c.final := by simp [current, peek, ha]
      rw [final, c.final_kind] at h
      exact absurd rfl h
  | cons token rest =>
      have current : c.current = token := by simp [current, peek, ha]
      rw [current] at h ⊢
      simp [inner, advance, ha, h]

theorem inner_ahead_of_eof (h : c.current.kind = .eof) : inner c.ahead = [] := by
  have ending := head?_ahead h
  unfold inner
  cases ha : c.ahead with
  | nil => rfl
  | cons token rest =>
      rw [ha] at ending
      exact List.takeWhile_cons_of_neg (by simpa using ending)

theorem attributesAhead_of_eof (h : c.current.kind = .eof) (depth : Nat) :
    c.attributesAhead depth = [] := by
  rw [attributesAhead, inner_ahead_of_eof h, attributesIn]

theorem attributesAhead_of_openCurly (h : c.current.kind = .openCurly) (depth : Nat) :
    c.attributesAhead depth = c.advance.attributesAhead (depth + 1) := by
  rw [attributesAhead, inner_ahead (by rw [h]; decide), attributesIn, h]
  rfl

theorem attributesAhead_of_closeCurly (h : c.current.kind = .closeCurly) (depth : Nat) :
    c.attributesAhead (depth + 1) = c.advance.attributesAhead depth := by
  rw [attributesAhead, inner_ahead (by rw [h]; decide), attributesIn, h]
  rfl

theorem attributesAhead_of_attribute (h : c.current.kind = .attribute) (depth : Nat) :
    c.attributesAhead depth = (depth, c.current) :: c.advance.attributesAhead depth := by
  rw [attributesAhead, inner_ahead (by rw [h]; decide), attributesIn, h]
  rfl

theorem Over.attributesAhead (h : Over Token.Unmarked c d) (depth : Nat) :
    c.attributesAhead depth = d.attributesAhead depth := by
  refine (h.eq fun e unmarked => ?_).symm
  have inside : e.current.kind ≠ .eof := by
    intro ending
    rw [Token.Unmarked, ending] at unmarked
    cases unmarked
  rw [Cursor.attributesAhead, Cursor.attributesAhead, inner_ahead inside,
    attributesIn_of_unmarked unmarked]

end Cursor

/-! ## §3. Phrases. -/

namespace Parser

variable {p : Parser}

theorem unmarked_of_kind {token : Token} {kind : Kind} (h : token.kind = kind)
    (unmarked : kind.isMark = false) : token.Unmarked := by
  rw [Token.Unmarked, h, unmarked]

theorem unmarked_next {kind : Kind} (h : p.kind = kind) (unmarked : kind.isMark = false) :
    Over Token.Unmarked p.cursor p.next.cursor :=
  .one (unmarked_of_kind h unmarked)

/-- A token is no mark if a table knows its kind and has none of those. -/
theorem unmarked_of_listed {α : Type} {table : Kind → Option α} {entry : α}
    (h : table p.kind = some entry)
    (listed : ∀ kind ∈ Kind.all, (table kind).isSome → kind.isMark = false) :
    Over Token.Unmarked p.cursor p.next.cursor :=
  unmarked_next rfl (listed p.kind (Kind.mem_all p.kind) (by rw [h]; rfl))

theorem unmarked_pastLines (p : Parser) : Over Token.Unmarked p.cursor p.pastLines.cursor :=
  over_pastLines (fun _ h => unmarked_of_kind h rfl) p

theorem unmarked_pastComma (p : Parser) : Over Token.Unmarked p.cursor p.pastComma.cursor :=
  over_pastComma (fun _ h => unmarked_of_kind h rfl) p

theorem unmarked_pastSeparators (p : Parser) :
    Over Token.Unmarked p.cursor p.pastSeparators.cursor := by
  refine over_pastSeparators (fun token h => ?_) p
  rcases Kind.isTerminator_iff.1 h with kind | kind <;> exact unmarked_of_kind kind rfl

theorem unmarked_application (h : p.atApplication = true) :
    Over Token.Unmarked p.cursor p.next.next.cursor := by
  obtain ⟨name, opening⟩ := kind_of_atApplication h
  exact (unmarked_next name rfl).trans (unmarked_next opening rfl)

/-- A name, a colon and a type. -/
theorem unmarked_typing (name : p.kind = .identifier) (colon : p.next.kind = .colon)
    (type : p.next.next.kind = .identifier) :
    Over Token.Unmarked p.cursor p.next.next.next.cursor :=
  ((unmarked_next name rfl).trans (unmarked_next colon rfl)).trans (unmarked_next type rfl)

end Parser

open ImpFront.Parser

/-- **Expressions, parameters and return types have no attributes and no
blocks.** -/
theorem Reads.unmarked {phrase : Phrase} {p q : Parser} (h : Reads phrase p q)
    (quiet : phrase.isQuiet = true) : Over Token.Unmarked p.cursor q.cursor := by
  induction h with
  | literal type => exact unmarked_of_listed type (by decide)
  | unary rule _ _ ih => exact (unmarked_of_listed rule (by decide)).trans (ih rfl)
  | grouping opening _ closing ih =>
      exact ((unmarked_next opening rfl).trans (ih rfl)).trans (unmarked_next closing rfl)
  | builtin name => exact unmarked_next name rfl
  | attached name => exact unmarked_next name rfl
  | reference name => exact unmarked_next name rfl
  | @call p _ _ here _ _ ih =>
      exact ((unmarked_application here).trans (unmarked_pastLines p.next.next)).trans (ih rfl)
  | noArgument closing => exact unmarked_next closing rfl
  | @argument _ q _ _ _ _ _ _ _ ihe ih =>
      exact ((ihe rfl).trans ((unmarked_pastComma q).trans (unmarked_pastLines _))).trans (ih rfl)
  | noOperator => exact .refl _
  | operator sign _ _ _ _ ihr ih =>
      exact ((unmarked_of_listed sign (by decide)).trans (ihr rfl)).trans (ih rfl)
  | expr _ _ ihl ih => exact (ihl rfl).trans (ih rfl)
  | noParameter closing => exact unmarked_next closing rfl
  | @parameter p _ s _ name colon type _ _ ih =>
      have separators := (unmarked_pastComma (p.next.next.next.withScopes s)).trans
        (unmarked_pastLines _)
      exact ((unmarked_typing name colon type).trans separators).trans (ih rfl)
  | noReturn => exact .refl _
  | returns arrow type => exact (unmarked_next arrow rfl).trans (unmarked_next type rfl)
  | _ => cases quiet

/-- A keyword and a condition, up to the block behind them. -/
theorem Reads.unmarked_condition {condition : Expr} {kind : Kind} {p q : Parser}
    (h : Reads (.expr .lowest condition) p.next q) (keyword : p.kind = kind)
    (unmarked : kind.isMark = false) : Over Token.Unmarked p.cursor q.pastLines.cursor :=
  ((unmarked_next keyword unmarked).trans (h.unmarked rfl)).trans (unmarked_pastLines q)

/-- An `else`, up to what it leads to. -/
theorem Parser.unmarked_else {p : Parser} (more : p.pastLines.kind = .kwElse) :
    Over Token.Unmarked p.cursor p.pastLines.next.pastLines.cursor :=
  (unmarked_pastLines p).trans ((unmarked_next more rfl).trans (unmarked_pastLines _))

/-- The head of a function, up to its block. -/
theorem Heads.unmarked {signature : Signature} {p r : Parser} (h : Heads p signature r) :
    Over Token.Unmarked p.cursor r.cursor := by
  cases h with
  | @intro q r _ _ s t keyword name opening _ parameters returns _ =>
      have head := ((unmarked_next keyword rfl).trans (unmarked_next name rfl)).trans
        (unmarked_next opening rfl)
      have lines : Over Token.Unmarked p.next.next.next.cursor
          (p.next.next.next.withScopes s).pastLines.cursor :=
        unmarked_pastLines p.next.next.next
      exact (head.trans (lines.trans (parameters.unmarked rfl))).trans
        ((returns.unmarked rfl).trans (unmarked_pastLines r))

/-- The statement has blocks. -/
def Stmt.hasBody : Stmt → Bool
  | .function _ _ | .conditional _ _ _ | .repeatWhile _ _ => true
  | .declare _ _ _ | .leaveLoop _ | .nextRound _ | .giveBack _ _ | .assign _ _ | .attribute _
  | .expression _ => false

/-- **A statement without blocks has no attributes**, unless it is one. -/
theorem Reads.unmarked_clause {s : Stmt} {p q : Parser} (h : Reads (.clause s) p q)
    (short : s.hasBody = false) (plain : s.attached? = none) :
    Over Token.Unmarked p.cursor q.cursor := by
  cases h with
  | leaveLoop keyword => exact unmarked_next keyword rfl
  | nextRound keyword => exact unmarked_next keyword rfl
  | giveNothingBack keyword => exact unmarked_next keyword rfl
  | giveBack keyword _ value => exact (unmarked_next keyword rfl).trans (value.unmarked rfl)
  | declare keyword name colon type =>
      exact (unmarked_next keyword rfl).trans (unmarked_typing name colon type)
  | initialise keyword name colon type sign value =>
      have head := (unmarked_next keyword rfl).trans (unmarked_typing name colon type)
      exact head.trans ((unmarked_next sign rfl).trans (value.unmarked rfl))
  | assign name sign value =>
      exact (unmarked_next name rfl).trans ((unmarked_next sign rfl).trans (value.unmarked rfl))
  | compound name sign value =>
      exact (unmarked_next name rfl).trans ((unmarked_of_listed sign (by decide)).trans
        (value.unmarked rfl))
  | expression _ value => exact value.unmarked rfl
  | function | conditional | repeatWhile => cases short
  | bareAttribute | attributeValue | imported => cases plain

/-- **The value of an attribute has no attributes and no blocks.** -/
theorem Reads.unmarked_attribute {attached : Attribute} {p q : Parser}
    (h : Reads (.clause (.attribute attached)) p q) : p.kind = .attribute
      ∧ p.current = attached.token ∧ Over Token.Unmarked p.next.cursor q.cursor := by
  cases h with
  | bareAttribute keyword => exact ⟨keyword, rfl, .refl _⟩
  | attributeValue keyword _ _ _ value => exact ⟨keyword, rfl, value.unmarked rfl⟩
  | @imported _ _ _ _ _ _ s _ _ keyword _ _ here _ arguments _ returns =>
      have lines : Over Token.Unmarked p.next.next.next.cursor
          (p.next.next.next.withScopes s).pastLines.cursor :=
        unmarked_pastLines p.next.next.next
      exact ⟨keyword, rfl, ((unmarked_application here).trans
        (lines.trans (arguments.unmarked rfl))).trans (returns.unmarked rfl)⟩

theorem Reads.attributes_clause {s : Stmt} {p q : Parser} (h : Reads (.clause s) p q)
    (short : s.hasBody = false) (depth : Nat) :
    p.cursor.attributesAhead depth = s.attributes depth ++ q.cursor.attributesAhead depth := by
  cases hs : s.attached? with
  | none =>
      have none : s.attributes depth = [] := by
        cases s with
        | function | conditional | repeatWhile => cases short
        | «attribute» => cases hs
        | _ => rfl
      rw [none]
      exact (h.unmarked_clause short hs).attributesAhead depth
  | some attached =>
      cases s with
      | «attribute» =>
          obtain ⟨keyword, same, value⟩ := h.unmarked_attribute
          rw [Cursor.attributesAhead_of_attribute keyword]
          exact congrArg₂ (fun token rest => (depth, token) :: rest) same
            (value.attributesAhead depth)
      | _ => cases hs

/-- The phrase has room for blocks. -/
def Phrase.isLong : Phrase → Bool
  | .clause s => s.hasBody
  | .statement _ | .body _ | .block _ | .framed _ _ | .chain _ _ _ | .file _ => true
  | .operand _ | .operators _ _ _ | .expr _ _ | .arguments _ | .parameters _ | .returns _ => false

/-- The attributes of a phrase, if there are `depth` blocks around it. -/
def Phrase.attributes (depth : Nat) : Phrase → List (Nat × Token)
  | .clause s | .statement s => s.attributes depth
  | .body ss | .file ss => attributesOfAll depth ss
  | .block ss | .framed _ ss => attributesOfAll (depth + 1) ss
  | .chain condition ss otherwise =>
    (Stmt.conditional condition ss otherwise).attributes depth
  | .operand _ | .operators _ _ _ | .expr _ _ | .arguments _ | .parameters _ | .returns _ => []

/-- **The attributes from a place on are those of the phrase that is read
there, then those behind it.** -/
theorem Reads.attributes {phrase : Phrase} {p q : Parser} (h : Reads phrase p q)
    (long : phrase.isLong = true) (depth : Nat) : p.cursor.attributesAhead depth
      = phrase.attributes depth ++ q.cursor.attributesAhead depth := by
  -- on the phrase; readings without blocks are passed over as a whole
  induction h generalizing depth with
  | function keyword name opening he parameters returns hd _ _ _ _ _ ih =>
      have head := Heads.intro keyword name opening he parameters returns hd
      rw [head.unmarked.attributesAhead]
      exact ih rfl depth
  | conditional _ ih => exact ih rfl depth
  | @lastLink _ _ _ _ body keyword condition _ _ _ ih =>
      rw [(condition.unmarked_condition keyword rfl).attributesAhead]
      show _ = (attributesOfAll (depth + 1) body ++ []) ++ _
      rw [List.append_nil]
      exact ih rfl depth
  | elseLink keyword condition _ more _ _ _ ihb ihe =>
      rw [(condition.unmarked_condition keyword rfl).attributesAhead, ihb rfl,
        (unmarked_else more).attributesAhead, ihe rfl, ← List.append_assoc]
      rfl
  | nextLink keyword condition _ more _ _ _ _ _ ihb ihe =>
      rw [(condition.unmarked_condition keyword rfl).attributesAhead, ihb rfl,
        (unmarked_else more).attributesAhead]
      exact (congrArg _ (ihe rfl depth)).trans (List.append_assoc _ _ _).symm
  | repeatWhile keyword condition _ _ ih =>
      rw [(condition.unmarked_condition keyword rfl).attributesAhead]
      exact ih rfl depth
  | @statement _ _ s clause _ ih =>
      cases short : s.hasBody with
      | true => exact ih short depth
      | false => exact clause.attributes_clause short depth
  | emptyBody => rfl
  | @body _ q _ _ _ _ _ _ _ ihs ih =>
      rw [ihs rfl, (unmarked_pastSeparators q).attributesAhead, ih rfl, ← List.append_assoc]
      rfl
  | @block p q _ opening _ closing ih =>
      have start : Over Token.Unmarked p.next.cursor p.next.inBlock.pastSeparators.cursor :=
        unmarked_pastSeparators p.next.inBlock
      -- what is inside has one block more around it, up to the closing brace
      rw [Cursor.attributesAhead_of_openCurly opening]
      refine (start.attributesAhead (depth + 1)).trans ((ih rfl (depth + 1)).trans ?_)
      rw [Cursor.attributesAhead_of_closeCurly closing]
      rfl
  | framed _ _ _ _ ih => exact ih rfl depth
  | @emptyFile p _ => exact (unmarked_pastSeparators p).attributesAhead depth
  | @file p _ _ _ _ _ _ _ ihs ih =>
      rw [(unmarked_pastSeparators p).attributesAhead, ihs rfl, ih rfl, ← List.append_assoc]
      rfl
  | _ => cases long

/-! ## §4. The first statement. -/

/-- What stands behind the tokens that pass a test does not pass it. -/
theorem Cursor.current_skip (c : Cursor) {test : Kind → Bool} (ending : test .eof = false) :
    test (c.skip test).current.kind = false := by
  cases ha : (c.skip test).ahead with
  | nil =>
      have final : (c.skip test).current = c.final := by
        unfold current peek
        rw [ha]
        rfl
      rw [final, c.final_kind, ending]
  | cons token rest =>
      have current : (c.skip test).current = token := by simp [Cursor.current, peek, ha]
      have stop := List.head?_dropWhile_not (fun token => test token.kind) c.ahead
      rw [show c.ahead.dropWhile (fun token => test token.kind) = token :: rest from ha] at stop
      rw [current]
      simpa using stop

theorem Parser.kind_pastSeparators (p : Parser) : p.pastSeparators.kind.isTerminator = false :=
  p.cursor.current_skip rfl

theorem Parser.pastSeparators_pastSeparators (p : Parser) :
    p.pastSeparators.pastSeparators = p.pastSeparators :=
  congrArg (fun cursor => { p with cursor }) (Cursor.skip_of_not p.kind_pastSeparators)

/-- A file may as well be read from behind the separators in front of it. -/
theorem Reads.pastSeparators {ss : List Stmt} {p q : Parser} (h : Reads (.file ss) p q) :
    Reads (.file ss) p.pastSeparators q := by
  cases h with
  | emptyFile ending =>
      have same := p.pastSeparators_pastSeparators
      have read := Reads.emptyFile (p := p.pastSeparators) (by rw [same]; exact ending)
      rw [same] at read
      exact read
  | file more first later =>
      have same := p.pastSeparators_pastSeparators
      exact .file (by rw [same]; exact more) (by rw [same]; exact first) later

/-- Only an attribute begins with one. -/
theorem Reads.isSome_attached? {s : Stmt} {p q : Parser} (h : Reads (.statement s) p q)
    (begins : p.kind = .attribute) : s.attached?.isSome = true := by
  cases h with
  | statement clause _ =>
      cases clause with
      | bareAttribute | attributeValue | imported => rfl
      | conditional chain =>
          cases chain with
          | lastLink keyword | elseLink keyword | nextLink keyword =>
              rw [keyword] at begins
              cases begins
      | expression sign =>
          rcases sign with ⟨name, -⟩ | opening
          · rw [name] at begins
            cases begins
          · rw [opening] at begins
            cases begins
      | function keyword | repeatWhile keyword | leaveLoop keyword | nextRound keyword
      | giveNothingBack keyword | giveBack keyword | declare keyword | initialise keyword
      | assign keyword | compound keyword =>
          rw [keyword] at begins
          cases begins

/-- Behind the separators in front of it a file without statements ends. -/
theorem Reads.inner_ahead_eq_nil_iff {ss : List Stmt} {p q : Parser}
    (h : Reads (.file ss) p q) : ImpFront.inner p.pastSeparators.cursor.ahead = [] ↔ ss = [] := by
  cases h with
  | emptyFile ending => exact iff_of_true (Cursor.inner_ahead_of_eof ending) rfl
  | file more _ _ =>
      rw [Cursor.inner_ahead more]
      exact iff_of_false (List.cons_ne_nil _ _) (List.cons_ne_nil _ _)

/-- The first token of a file that begins with another statement is neither an
attribute nor a separator. -/
theorem Reads.first_of_plain {ss : List Stmt} {p q : Parser} (h : Reads (.file ss) p q)
    (plain : ∀ s ∈ ss, s.attached? = none) :
    ∀ t ∈ (ImpFront.inner p.pastSeparators.cursor.ahead).head?,
      t.kind ≠ .attribute ∧ t.kind.isTerminator = false := by
  intro t ht
  cases h with
  | emptyFile ending =>
      rw [Cursor.inner_ahead_of_eof ending] at ht
      cases ht
  | @file _ _ _ s _ more first _ =>
      rw [Cursor.inner_ahead more] at ht
      obtain rfl := Option.some.inj ht
      refine ⟨fun begins => ?_, p.kind_pastSeparators⟩
      have attached := first.isSome_attached? begins
      rw [plain s List.mem_cons_self] at attached
      cases attached

/-- A file is its attributes and then its statements. -/
theorem Reads.behindAttributes {attached : List Attribute} {ss : List Stmt} {p q : Parser}
    (h : Reads (.file (attached.map .attribute ++ ss)) p q) :
    ∃ r, Yields p.cursor r.cursor (attached.flatMap Attribute.spelling)
      ∧ Over Token.Inner p.cursor r.cursor ∧ Reads (.file ss) r q := by
  induction attached generalizing p with
  | nil => exact ⟨p, .nothing p.cursor, .refl _, h⟩
  | cons first later ih =>
      rw [List.map_cons, List.cons_append] at h
      cases h with
      | file _ one rest =>
          obtain ⟨_, yields, rfl⟩ := one.spelled
          obtain ⟨r, there, inner, read⟩ := ih rest
          exact ⟨r, (drops_pastSeparators p).trans (yields.trans there),
            (inner_pastSeparators p).trans (one.inner.trans inner), read⟩

/-- Inner tokens that are passed come off the inner tokens ahead. -/
theorem Cursor.Yields.inner_ahead {c d : Cursor} {tokens : List Token} (h : Yields c d tokens)
    (inside : Over Token.Inner c d) :
    ∃ passed, inner c.ahead = passed ++ inner d.ahead ∧ kept passed = tokens := by
  obtain ⟨passed, split, kept⟩ := h
  obtain ⟨passed', split', all⟩ := inside.ahead
  obtain rfl : passed' = passed := List.append_cancel_right (split'.symm.trans split)
  refine ⟨passed', ?_, kept⟩
  rw [split]
  exact List.takeWhile_append_of_pos fun token hm => decide_eq_true (all token hm)

/-! ## §5. Files. -/

/-- What is added to a file as a statement is no attribute. -/
theorem Program.plain_append {program longer : Program} {s : Stmt}
    (h : program.append s = .ok longer) (plain : ∀ s ∈ program.statements, s.attached? = none) :
    ∀ s ∈ longer.statements, s.attached? = none := by
  rw [append_eq] at h
  cases hs : s.attached? with
  | some attached =>
      rw [hs] at h
      dsimp only at h
      split at h
      · obtain rfl := Except.ok.inj h
        exact plain
      · cases h
  | none =>
      rw [hs] at h
      obtain rfl := Except.ok.inj h
      exact fun other hm => (List.mem_append.1 hm).elim (plain other) fun last => by
        rw [List.mem_singleton.1 last, hs]

open Parse

theorem Grammar.plain_statementsWithin {g : Grammar} {rounds : Nat} {program longer : Program}
    {p q : Parser} (h : g.statementsWithin rounds program p = .ok longer q)
    (plain : ∀ s ∈ program.statements, s.attached? = none) :
    ∀ s ∈ longer.statements, s.attached? = none := by
  induction rounds generalizing p program with
  | zero => exact (stall_ok_iff.1 h).elim
  | succ rounds ih =>
      simp only [statementsWithin, bind_ok_iff, skipTerminators_ok_iff, currentKind_ok_iff] at h
      obtain ⟨_, _, ⟨-, rfl⟩, _, _, ⟨rfl, rfl⟩, h⟩ := h
      split at h
      · obtain ⟨rfl, -⟩ := pure_ok_iff.1 h
        exact plain
      · rw [bind_ok_iff] at h
        obtain ⟨s, r, -, h⟩ := h
        cases hp : program.append s with
        | error e =>
            simp only [hp] at h
            exact (throw_ok_iff.1 h).elim
        | ok next =>
            simp only [hp] at h
            -- the journal is all that an attribute adds to
            obtain ⟨t, rest⟩ : ∃ t, g.statementsWithin rounds next t = .ok longer q := by
              split at h
              · obtain ⟨_, t, -, rest⟩ := bind_ok_iff.1 h
                exact ⟨t, rest⟩
              · exact ⟨r, h⟩
            exact ih rest (Program.plain_append hp plain)

variable {file : String} {tokens : List Token} {program : Program} {p : Parser}

/-- **No statement of an accepted file is an attribute.** -/
theorem plain_of_accepted (h : parse file tokens = (.ok program, p)) :
    ∀ s ∈ program.statements, s.attached? = none := by
  obtain ⟨q, accepted, -⟩ := parse_ok_iff.1 h
  obtain ⟨statements, -⟩ := Grammar.program_ok_iff.1 accepted
  exact Grammar.plain_statementsWithin statements fun _ hm => (List.not_mem_nil hm).elim

/-- The attributes of a file are the tokens up to some place, and its statements
are the tokens from there on. -/
structure Program.Begins (program : Program) (head body : List Token) : Prop where
  /-- Up to there are the attributes. -/
  attributes : kept head = program.attributes.flatMap Attribute.spelling
  /-- From there on are the statements. -/
  statements : SpelledAll program.statements (kept body)
  /-- If there is a statement the first one begins right there. -/
  empty_iff : body = [] ↔ program.statements = []
  /-- It begins neither with an attribute nor with a separator. -/
  first : ∀ t ∈ body.head?, t.kind ≠ .attribute ∧ t.kind.isTerminator = false
  /-- From there on every attribute stands in a block. -/
  inBlocks : ∀ a ∈ attributesIn 0 body, 0 < a.1

/-- Attributes come first, outside of blocks. -/
structure Program.AttributesFirst (program : Program) (tokens : List Token) : Prop where
  /-- All attributes are in the tree, in order and in as many blocks. -/
  everywhere : attributesIn 0 tokens = attributesOfAll 0 program.clauses
  /-- Those of the file are the ones outside of blocks, in order. -/
  outside : (attributesIn 0 tokens).filter (fun a => a.1 = 0)
    = program.attributes.map fun attached => (0, attached.token)
  /-- No statement of the file is one. -/
  plain : ∀ s ∈ program.statements, s.attached? = none
  /-- There is none outside of blocks from the first statement on. -/
  begins : ∃ head body, tokens = head ++ body ∧ program.Begins head body

/-- **The statements of a file that is read begin with the first of them**, and
every attribute from there on stands in a block. -/
theorem begins_of_reads {q : Parser} (h : Reads (.file program.clauses) p q)
    (plain : ∀ s ∈ program.statements, s.attached? = none) :
    ∃ head body, inner p.cursor.ahead = head ++ body ∧ program.Begins head body := by
  obtain ⟨r, there, inside, rest⟩ := Reads.behindAttributes h
  -- the separators in front of the first statement belong to the attributes
  have read := rest.pastSeparators
  obtain ⟨head, split, attributes⟩ := (there.trans (drops_pastSeparators r)).inner_ahead
    (inside.trans (inner_pastSeparators r))
  rw [List.append_nil] at attributes
  obtain ⟨_, yields, statements⟩ := read.spelled
  obtain ⟨body, whole, rfl⟩ := yields.inner_ahead read.inner
  rw [Cursor.inner_ahead_of_eof read.ending, List.append_nil] at whole
  rw [whole] at split
  have marks : attributesIn 0 body = attributesOfAll 0 program.statements := by
    have ahead := read.attributes rfl 0
    rw [Cursor.attributesAhead_of_eof read.ending, List.append_nil] at ahead
    rw [← whole]
    exact ahead
  refine ⟨head, body, split, attributes, statements, ?_, ?_, fun a ha => ?_⟩
  · rw [← whole]
    exact rest.inner_ahead_eq_nil_iff
  · rw [← whole]
    exact rest.first_of_plain plain
  · rw [marks] at ha
    exact lt_of_mem_attributesOfAll plain ha

/-- **Attributes come first, outside of blocks.**  An accepted file has all its
attributes in its tree, in order.  Those outside of blocks are the attributes
of the file, and none of them stands behind the beginning of a statement. -/
theorem attributesFirst_of_accepted (h : parse file tokens = (.ok program, p)) :
    program.AttributesFirst (inner tokens) := by
  obtain ⟨read, -⟩ := Grammar.reads_file h
  have plain := plain_of_accepted h
  have start : inner (Parser.ofTokens tokens).cursor.ahead = inner tokens := inner_ofTokens tokens
  have everywhere : attributesIn 0 (inner tokens) = attributesOfAll 0 program.clauses := by
    have ahead := read.attributes rfl 0
    rw [Cursor.attributesAhead_of_eof read.ending, List.append_nil] at ahead
    rw [← start]
    exact ahead
  refine ⟨everywhere, ?_, plain, start ▸ begins_of_reads read plain⟩
  rw [everywhere, Program.clauses, attributesOfAll_append, attributesOfAll_attached,
    List.filter_append]
  have inside : (attributesOfAll 0 program.statements).filter (fun a => a.1 = 0) = [] :=
    List.filter_eq_nil_iff.2 fun a ha => by
      have := lt_of_mem_attributesOfAll plain ha
      simp only [decide_eq_true_eq]
      omega
  rw [inside, List.append_nil]
  exact List.filter_eq_self.2 fun a ha => by
    obtain ⟨attached, -, rfl⟩ := List.mem_map.1 ha
    rfl

/-- `@first`, a line end, `func f() { @late }`. -/
def attributeInside : List Token :=
  [word 0 .attribute "@first", word 6 .newline "\n", ⟨.kwFunc, "func", ⟨7, 2, 1⟩⟩,
    ⟨.identifier, "f", ⟨12, 2, 6⟩⟩, ⟨.openParen, "(", ⟨13, 2, 7⟩⟩,
    ⟨.closeParen, ")", ⟨14, 2, 8⟩⟩, ⟨.openCurly, "\x7b", ⟨16, 2, 10⟩⟩,
    ⟨.newline, "\n", ⟨17, 2, 11⟩⟩, ⟨.attribute, "@late", ⟨18, 3, 1⟩⟩,
    ⟨.newline, "\n", ⟨23, 3, 6⟩⟩, ⟨.closeCurly, "\x7d", ⟨24, 4, 1⟩⟩]

/-- The tree of that file. -/
def attributeInsideTree : Program where
  attributes := [⟨word 0 .attribute "@first", none⟩]
  statements :=
    [.function ⟨⟨.kwFunc, "func", ⟨7, 2, 1⟩⟩, ⟨.identifier, "f", ⟨12, 2, 6⟩⟩, [], none⟩
      [.attribute ⟨⟨.attribute, "@late", ⟨18, 3, 1⟩⟩, none⟩]]

theorem tree_attributeInside : (parse "" attributeInside).1 = .ok attributeInsideTree := by
  cbv

theorem attributesFirst_attributeInside :
    (parse "" attributeInside).1 = .ok attributeInsideTree
      ∧ attributeInsideTree.AttributesFirst (inner attributeInside) := by
  have parsed : parse "" attributeInside
      = (.ok attributeInsideTree, (parse "" attributeInside).2) := by
    rw [← tree_attributeInside]
  exact ⟨tree_attributeInside, attributesFirst_of_accepted parsed⟩

/-- **An accepted file with an attribute behind the beginning of a statement**,
in the body of a function. -/
theorem attribute_behind_statement :
    (parse "" attributeInside).1 = .ok attributeInsideTree
      ∧ attributesOfAll 0 attributeInsideTree.statements = [(1, ⟨.attribute, "@late", ⟨18, 3, 1⟩⟩)]
      ∧ attributeInside.idxOf ⟨.kwFunc, "func", ⟨7, 2, 1⟩⟩
        < attributeInside.idxOf ⟨.attribute, "@late", ⟨18, 3, 1⟩⟩ :=
  ⟨tree_attributeInside, rfl, by decide⟩

end ImpFront
