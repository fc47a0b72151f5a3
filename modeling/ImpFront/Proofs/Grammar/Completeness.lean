/-
  ImpFront.Proofs.Grammar.Completeness
  ────────────────────────────────────
  **WHAT CAN BE READ IS READ.**

  The relation `Reads` says which phrases stand between two parsers.  Here
  the readers of the grammar are shown to find them: started at the first
  parser they end well at the second, with the tree of the phrase.

      Reads (.statement s) p q  →  statement p = .ok s q

  Only the journal differs, since the relation keeps none.  `Reaches` leaves
  it open, and goes through a sequence of steps from front to back.  The
  readers are taken from the recursion that they solve, so that no bound
  occurs here.
-/
import ImpFront.Proofs.Grammar.Lookahead
import ImpFront.Proofs.Grammar.Recursion
import ImpFront.Proofs.Grammar.Steps
import ImpFront.Proofs.Tree.Mentions

namespace ImpFront

open Parse

/-! ## §1. Steps that reach a parser. -/

namespace Parser

/-- The parser with another journal. -/
def logged (journal : Array Event) (p : Parser) : Parser :=
  { p with journal }

end Parser

/-- Started at `p` with any journal, the step ends well at `q` with a value. -/
def Reaches {α : Type} (x : Parse α) (p : Parser) (a : α) (q : Parser) : Prop :=
  ∀ journal, ∃ journal', x (p.logged journal) = .ok a (q.logged journal')

namespace Reaches

variable {α β : Type} {p q r : Parser}

theorem bind {x : Parse α} {f : α → Parse β} {a : α} {b : β} (h : Reaches x p a q)
    (h' : Reaches (f a) q b r) : Reaches (x >>= f) p b r := by
  intro journal
  obtain ⟨journal', hx⟩ := h journal
  obtain ⟨journal'', hf⟩ := h' journal'
  exact ⟨journal'', by rw [bind_apply, hx]; exact hf⟩

theorem pure (a : α) (p : Parser) : Reaches (Pure.pure a) p a p :=
  fun journal => ⟨journal, rfl⟩

/-! ### Tokens -/

theorem current (p : Parser) : Reaches current p p.current p :=
  fun journal => ⟨journal, rfl⟩

theorem currentKind (p : Parser) : Reaches currentKind p p.kind p :=
  fun journal => ⟨journal, rfl⟩

theorem peek (p : Parser) : Reaches (peek 1) p p.next.current p :=
  fun journal => ⟨journal, peek_ok_iff.2 ⟨p.cursor.current_advance.symm, rfl⟩⟩

theorem advance (p : Parser) : Reaches advance p p.current p.next :=
  fun journal => ⟨journal, rfl⟩

theorem expect {kind : Kind} (h : p.kind = kind) : Reaches (expect kind) p p.current p.next :=
  fun journal => ⟨journal, expect_ok_iff.2 ⟨h, rfl, rfl⟩⟩

theorem skipNewlines (p : Parser) :
    Reaches skipNewlines p (p.cursor.run (· == Kind.newline)).length p.pastLines :=
  fun journal => ⟨journal, rfl⟩

theorem skipTerminators (p : Parser) :
    Reaches skipTerminators p (p.cursor.run Kind.isTerminator).length p.pastSeparators :=
  fun journal => ⟨journal, rfl⟩

theorem atStatementEnd (p : Parser) : Reaches atStatementEnd p p.atStatementEnd p :=
  fun journal => ⟨journal, rfl⟩

/-- To go back over line ends leads in front of them. -/
theorem rewind_pastLines (p : Parser) :
    Reaches (rewind (p.cursor.run (· == Kind.newline)).length) p.pastLines () p := by
  intro journal
  refine ⟨journal, rewind_ok_iff.2 ?_⟩
  have back : p.pastLines.cursor.rewind (p.cursor.run (· == Kind.newline)).length = p.cursor :=
    p.cursor.rewind_skip _
  show { p.pastLines.logged journal with
    cursor := p.pastLines.cursor.rewind (p.cursor.run (· == Kind.newline)).length } = _
  rw [back]
  rfl

/-- A comma that may stand in front of a step. -/
theorem optionalComma {x : Parse α} {a : α} (h : Reaches x p.pastComma a q) :
    Reaches (if p.kind = .comma then (do let _ ← Parse.advance; x) else x) p a q := by
  by_cases comma : p.kind = .comma
  · have behind : p.pastComma = p.next := if_pos comma
    rw [if_pos comma]
    exact (advance p).bind (behind ▸ h)
  · have behind : p.pastComma = p := if_neg comma
    rw [if_neg comma]
    exact behind ▸ h

/-! ### Blocks, warnings and the journal -/

theorem enterBlock (p : Parser) : Reaches enterBlock p () p.inBlock :=
  fun journal => ⟨journal, rfl⟩

theorem exitBlock (p : Parser) : Reaches exitBlock p () p.outOfBlock :=
  fun journal => ⟨journal, rfl⟩

theorem record (event : Event) (p : Parser) : Reaches (record event) p () p :=
  fun journal => ⟨journal.push event, rfl⟩

theorem warn (note : Note) (p : Parser) : Reaches (warn note) p () (p.warned (some note)) :=
  (record _ p).bind fun journal => ⟨journal, rfl⟩

/-! ### Scopes -/

theorem scopes (p : Parser) : Reaches scopes p p.scopes p :=
  fun journal => ⟨journal, rfl⟩

theorem onScopes {ε : Type} {explain : Parser → ε → Error} {act : EStateM ε Scopes α} {a : α}
    {s : Scopes} (h : act p.scopes = .ok a s) :
    Reaches (onScopes explain act) p a (p.withScopes s) :=
  fun journal => ⟨journal, onScopes_ok_iff.2 ⟨s, h, rfl⟩⟩

theorem enterScope {kind : FrameKind} {s : Scopes} (h : Scopes.enter kind p.scopes = .ok () s)
    (place : Token) : Reaches (enterScope kind place) p () (p.withScopes s) :=
  (scopes p).bind ((onScopes h).bind (record _ _))

theorem exitScope {kind : FrameKind} {s : Scopes} (h : Scopes.exit kind p.scopes = .ok () s) :
    Reaches (exitScope kind) p () (p.withScopes s) :=
  (onScopes h).bind ((scopes _).bind (record _ _))

theorem define {symbol : Symbol} {s : Scopes} (h : Scopes.define symbol p.scopes = .ok () s) :
    Reaches (define symbol) p () (p.withScopes s) := by
  refine (scopes p).bind ((onScopes h).bind ?_)
  split
  · exact (record _ _).bind (record _ _)
  · exact record _ _

theorem delete (name : String) (p : Parser) :
    Reaches (delete name) p () (p.withScopes (p.scopes.delete name).2) :=
  fun journal => ⟨journal, rfl⟩

theorem mark (token : Token) (p : Parser) :
    Reaches (mark token) p () (p.withScopes (p.scopes.mark token)) := by
  refine (scopes p).bind ?_
  split
  · exact (record _ p).bind fun journal => ⟨journal, rfl⟩
  · exact fun journal => ⟨journal, rfl⟩

end Reaches

/-! ## §2. Operands. -/

namespace Expression

variable {expr : Precedence → Parse Expr} {p q : Parser}

theorem reaches_literal {type : BaseType} (h : BaseType.ofLiteral? p.kind = some type) :
    Reaches literal p (.literal p.current type) p.next := by
  have known : BaseType.ofLiteral? p.current.kind = some type := h
  refine (Reaches.current p).bind ?_
  rw [known]
  exact (Reaches.advance p).bind (.pure _ _)

theorem reaches_unary {operand : Expr} {type : BaseType}
    (h : Reaches (expr .unary) p.next operand q)
    (typed : operand.base?.bind BaseType.unary? = some type) :
    Reaches (unary expr) p (.unary p.kind p.current operand type) q := by
  refine (Reaches.advance p).bind (h.bind ?_)
  rw [typed]
  exact .pure _ _

theorem reaches_grouping {e : Expr} (h : Reaches (expr .lowest) p.next e q)
    (closing : q.kind = .closeParen) : Reaches (grouping expr) p e q.next :=
  (Reaches.advance p).bind (h.bind ((Reaches.expect closing).bind (.pure _ _)))

theorem reaches_visibleType {name : Token} {symbol : Symbol}
    (h : p.scopes.lookup? name.value = some symbol) :
    Reaches (visibleType name) p symbol.declaredBase p := by
  refine (Reaches.scopes p).bind ?_
  rw [Scopes.declaredType, h]
  exact .pure _ p

/-- In the value of an attribute a built-in type stands for itself. -/
theorem reaches_builtin {type : DeclaredType} (attached : p.scopes.inAttribute = true)
    (h : DeclaredType.builtin? p.current.value = some type) :
    Reaches reference p (.reference p.current type.base) p.next := by
  have attached : p.next.scopes.inAttribute = true := attached
  refine (Reaches.advance p).bind ((Reaches.scopes p.next).bind ?_)
  rw [if_pos attached, h]
  exact .pure _ _

theorem reaches_attached {symbol : Symbol} (attached : p.scopes.inAttribute = true)
    (other : DeclaredType.builtin? p.current.value = none)
    (h : p.scopes.lookup? p.current.value = some symbol) :
    Reaches reference p (.reference p.current symbol.declaredBase) p.next := by
  have attached : p.next.scopes.inAttribute = true := attached
  refine (Reaches.advance p).bind ((Reaches.scopes p.next).bind ?_)
  rw [if_pos attached, other]
  exact (reaches_visibleType (p := p.next) h).bind (.pure _ _)

theorem reaches_reference {symbol : Symbol} (plain : p.scopes.inAttribute = false)
    (h : p.scopes.lookup? p.current.value = some symbol)
    (value : symbol.declaredBase ≠ .function) :
    Reaches reference p (.reference p.current symbol.declaredBase) p.next := by
  have plain : ¬p.next.scopes.inAttribute = true := by
    rw [Parser.scopes_next, plain]
    exact Bool.false_ne_true
  refine (Reaches.advance p).bind ((Reaches.scopes p.next).bind ?_)
  rw [if_neg plain]
  refine (reaches_visibleType (p := p.next) h).bind ?_
  rw [if_neg value]
  exact .pure _ _

theorem reaches_callee {name : Token}
    (callable : ∀ symbol, p.scopes.lookup? name.value = some symbol → symbol.isFunction = true) :
    Reaches (callee name) p () (p.withScopes (p.scopes.mark name)) := by
  refine (Reaches.scopes p).bind ?_
  have allowed : ¬((p.scopes.lookup? name.value).any fun symbol => !symbol.isFunction) = true := by
    cases h : p.scopes.lookup? name.value with
    | none => simp
    | some symbol => simp [callable symbol h]
  rw [if_neg allowed]
  exact Reaches.mark name p

theorem reaches_returnType (name : Token) (p : Parser) :
    Reaches (returnType name) p (p.callType name.value) p := by
  refine (Reaches.scopes p).bind ?_
  unfold Parser.callType
  cases p.scopes.visibleFunction? name.value with
  | some symbol => exact .pure _ p
  | none => exact fun journal => ⟨_, rfl⟩

end Expression

namespace Grammar

open Expression

variable {p q r : Parser}

/-- The readers of the language solve the recursion of its rules. -/
theorem recursive_standard : standard.Recursive :=
  recursive productive_standard

/-- The arguments from the opening parenthesis on. -/
theorem reaches_arguments {es : List Expr}
    (h : Reaches standard.argumentList p.pastLines es q) :
    Reaches (arguments standard.expr) p es q :=
  (Reaches.skipNewlines p).bind h

theorem reaches_identifier_reference {e : Expr} (alone : p.atApplication = false)
    (name : p.kind = .identifier) (h : Reaches reference p e q) :
    Reaches (identifier standard.expr) p e q := by
  refine (Reaches.peek p).bind ?_
  have other : ¬p.next.current.kind = .openParen := by
    intro opening
    have opening : p.next.kind = .openParen := opening
    simp [Parser.atApplication, name, opening] at alone
  rw [if_neg other]
  exact h

theorem reaches_call {es : List Expr} (here : p.atApplication = true)
    (callable : ∀ symbol, p.scopes.lookup? p.current.value = some symbol →
      symbol.isFunction = true)
    (h : Reaches standard.argumentList
      (p.next.next.withScopes (p.scopes.mark p.current)).pastLines es q) :
    Reaches (identifier standard.expr) p
      (.call p.current es (q.callType p.current.value)) q := by
  obtain ⟨name, opening⟩ := Parser.kind_of_atApplication here
  have follows : p.next.current.kind = .openParen := opening
  refine (Reaches.peek p).bind ?_
  rw [if_pos follows]
  have application : Reaches (application standard.expr true) p (p.current, es) q := by
    refine (Reaches.expect name).bind ((Reaches.expect opening).bind ?_)
    exact (reaches_callee (p := p.next.next) callable).bind ((reaches_arguments h).bind (.pure _ _))
  exact application.bind ((reaches_returnType p.current q).bind (.pure _ _))

/-! ## §3. Arguments, operators, parameters. -/

theorem reaches_noArgument (closing : p.kind = .closeParen) :
    Reaches standard.argumentList p [] p.next := by
  rw [recursive_standard.arguments]
  refine (Reaches.currentKind p).bind ?_
  rw [closing]
  exact (Reaches.advance p).bind (.pure _ _)

theorem reaches_argument {e : Expr} {es : List Expr} (more : p.kind ≠ .closeParen)
    (inner : p.kind ≠ .eof) (he : Reaches (standard.expr .lowest) p e q)
    (hes : Reaches standard.argumentList q.pastComma.pastLines es r) :
    Reaches standard.argumentList p (e :: es) r := by
  have round : Reaches standard.argumentRound p e q.pastComma.pastLines := by
    refine he.bind ((Reaches.currentKind q).bind ?_)
    exact (Reaches.optionalComma ((Reaches.skipNewlines q.pastComma).bind (.pure _ _)))
  rw [recursive_standard.arguments]
  refine (Reaches.currentKind p).bind ?_
  split
  · next closing => exact absurd closing more
  · next ending => exact absurd ending inner
  · exact round.bind (hes.bind (.pure _ _))

theorem reaches_noOperator {limit : Precedence} {e : Expr}
    (loose : ∀ next, standardPrecedence? p.kind = some next → next.rank ≤ limit.rank) :
    Reaches (standard.operators limit e) p e p := by
  rw [recursive_standard.operators]
  refine (Reaches.currentKind p).bind ?_
  have loose : ∀ next, standard.precedence? p.kind = some next → next.rank ≤ limit.rank := loose
  cases h : standard.precedence? p.kind with
  | none => exact .pure _ p
  | some next =>
      dsimp only
      rw [if_pos (loose next h)]
      exact .pure _ p

theorem reaches_operator {limit next : Precedence} {left right e : Expr} {type : BaseType}
    (sign : standardPrecedence? p.kind = some next) (tight : limit.rank < next.rank)
    (hr : Reaches (standard.expr next) p.next right q)
    (typed : (do BaseType.binary? (← left.base?) (← right.base?)) = some type)
    (ho : Reaches (standard.operators limit (.binary p.kind p.current left right type)) q e r) :
    Reaches (standard.operators limit left) p e r := by
  have round : Reaches (standard.operatorRound left next) p
      (.binary p.kind p.current left right type) q := by
    refine (Reaches.advance p).bind (hr.bind ?_)
    simp only [typed]
    exact .pure _ q
  rw [recursive_standard.operators]
  refine (Reaches.currentKind p).bind ?_
  have sign : standard.precedence? p.kind = some next := sign
  rw [sign]
  dsimp only
  rw [if_neg (Nat.not_le_of_lt tight)]
  exact round.bind ho

theorem reaches_expr {limit : Precedence} {rule : OperandRule} {left e : Expr}
    (hrule : standardOperand? p.kind = some rule) (hl : Reaches (standard.operand rule) p left q)
    (ho : Reaches (standard.operators limit left) q e r) :
    Reaches (standard.expr limit) p e r := by
  rw [recursive_standard.expr]
  refine (Reaches.currentKind p).bind ?_
  have hrule : standard.operandRule? p.kind = some rule := hrule
  rw [hrule]
  exact hl.bind ho

open Statement

theorem reaches_noParameter (closing : p.kind = .closeParen) :
    Reaches parameterList p [] p.next := by
  rw [recursive_standard.parameters]
  refine (Reaches.currentKind p).bind ?_
  rw [if_pos closing]
  exact (Reaches.advance p).bind (.pure _ _)

theorem reaches_parameter {s : Scopes} {ps : List Parameter} (name : p.kind = .identifier)
    (colon : p.next.kind = .colon) (type : p.next.next.kind = .identifier)
    (hd : Scopes.define ⟨p.current, p.next.next.current, .parameter⟩ p.scopes = .ok () s)
    (hps : Reaches parameterList (p.next.next.next.withScopes s).pastComma.pastLines ps q) :
    Reaches parameterList p (⟨some p.current, p.next.next.current⟩ :: ps) q := by
  have round : Reaches parameterRound p ⟨some p.current, p.next.next.current⟩
      (p.next.next.next.withScopes s).pastComma.pastLines := by
    refine (Reaches.expect name).bind ((Reaches.expect colon).bind ((Reaches.expect type).bind ?_))
    refine (Reaches.define (p := p.next.next.next) hd).bind ((Reaches.currentKind _).bind ?_)
    exact (Reaches.optionalComma ((Reaches.skipNewlines _).bind (.pure _ _)))
  have more : ¬p.kind = .closeParen := by
    rw [name]
    decide
  rw [recursive_standard.parameters]
  refine (Reaches.currentKind p).bind ?_
  rw [if_neg more]
  exact round.bind (hps.bind (.pure _ _))

theorem reaches_noReturn (other : p.kind ≠ .arrow) : Reaches Statement.returnType p none p := by
  refine (Reaches.currentKind p).bind ?_
  rw [if_neg other]
  exact .pure _ p

theorem reaches_returns (arrow : p.kind = .arrow) (type : p.next.kind = .identifier) :
    Reaches Statement.returnType p (some p.next.current) p.next.next := by
  refine (Reaches.currentKind p).bind ?_
  rw [if_pos arrow]
  exact (Reaches.advance p).bind ((Reaches.expect type).bind (.pure _ _))

/-! ## §4. Blocks and chains. -/

theorem reaches_block {ss : List Stmt} (opening : p.kind = .openCurly)
    (h : Reaches standard.body p.next.inBlock.pastSeparators ss q)
    (closing : q.kind = .closeCurly) : Reaches standard.block p ss q.outOfBlock.next := by
  refine (Reaches.expect opening).bind ((Reaches.enterBlock _).bind ?_)
  refine (Reaches.skipTerminators _).bind ?_
  have ending : Reaches (do let _ ← expect .closeCurly; return ss) q.outOfBlock ss
      q.outOfBlock.next := (Reaches.expect (p := q.outOfBlock) closing).bind (.pure ss _)
  have inside : Reaches (do
        let body ← standard.body
        exitBlock
        let _ ← expect .closeCurly
        return body) p.next.inBlock.pastSeparators ss q.outOfBlock.next :=
    h.bind ((Reaches.exitBlock q).bind ending)
  unfold Grammar.body at inside
  rwa [bind_assoc] at inside

theorem reaches_framed {kind : FrameKind} {ss : List Stmt} {s t : Scopes}
    (he : Scopes.enter kind p.scopes = .ok () s)
    (h : Reaches standard.block (p.withScopes s) ss q)
    (hx : Scopes.exit kind q.scopes = .ok () t) (place : Token) :
    Reaches (framed standard.statement kind place) p ss (q.withScopes t) :=
  (Reaches.enterScope he place).bind (h.bind ((Reaches.exitScope hx).bind (.pure _ _)))

/-- A condition and its body. -/
theorem reaches_link {condition : Expr} {body : List Stmt}
    (hc : Reaches (standard.expr .lowest) p.next condition q)
    (hb : ∀ place, Reaches (framed standard.statement .conditional place) q.pastLines body r) :
    Reaches standard.link p (condition, body) r :=
  (Reaches.advance p).bind (hc.bind ((Reaches.skipNewlines q).bind ((hb _).bind (.pure _ _))))

theorem reaches_lastLink {condition : Expr} {body : List Stmt}
    (h : Reaches standard.link p (condition, body) q) (last : q.pastLines.kind ≠ .kwElse) :
    Reaches standard.chain p (condition, body, .nothing) q := by
  rw [recursive_standard.chain]
  refine h.bind ((Reaches.skipNewlines q).bind ((Reaches.currentKind _).bind ?_))
  rw [if_neg last]
  exact (Reaches.rewind_pastLines q).bind (.pure _ _)

/-- The rest of a chain behind its first condition, in a frame of its own. -/
theorem reaches_moreLinks {condition : Expr} {body : List Stmt} {otherwise : Otherwise}
    {s : Scopes} {u : Parser} (h : Reaches standard.link p (condition, body) q)
    (more : q.pastLines.kind = .kwElse) (he : Scopes.enter .conditional q.scopes = .ok () s)
    (ho : Reaches (do
        let otherwise ← if (← currentKind) = .kwIf then do
            let (condition, body, otherwise) ← standard.chain
            pure (Otherwise.chain condition body otherwise)
          else do
            pure (Otherwise.block (← standard.block))
        exitScope .conditional
        return (condition, body, otherwise))
      (q.pastLines.next.pastLines.withScopes s) (condition, body, otherwise) u) :
    Reaches standard.chain p (condition, body, otherwise) u := by
  rw [recursive_standard.chain]
  refine h.bind ((Reaches.skipNewlines q).bind ((Reaches.currentKind _).bind ?_))
  rw [if_pos more]
  refine (Reaches.advance _).bind ((Reaches.skipNewlines _).bind ?_)
  exact (Reaches.enterScope (p := q.pastLines.next.pastLines) he _).bind ho

theorem reaches_elseLink {condition : Expr} {body body' : List Stmt} {u : Parser}
    (h : Reaches standard.link p (condition, body) q) (more : q.pastLines.kind = .kwElse)
    (last : q.pastLines.next.pastLines.kind ≠ .kwIf) {s t : Scopes}
    (he : Scopes.enter .conditional q.scopes = .ok () s)
    (hb : Reaches standard.block (q.pastLines.next.pastLines.withScopes s) body' u)
    (hx : Scopes.exit .conditional u.scopes = .ok () t) :
    Reaches standard.chain p (condition, body, .block body') (u.withScopes t) := by
  refine reaches_moreLinks h more he ((Reaches.currentKind _).bind ?_)
  have last : ¬(q.pastLines.next.pastLines.withScopes s).kind = .kwIf := last
  rw [if_neg last]
  exact hb.bind ((Reaches.pure _ _).bind ((Reaches.exitScope hx).bind (.pure _ _)))

theorem reaches_nextLink {condition condition' : Expr} {body body' : List Stmt}
    {otherwise : Otherwise} {u : Parser}
    (h : Reaches standard.link p (condition, body) q) (more : q.pastLines.kind = .kwElse)
    (next : q.pastLines.next.pastLines.kind = .kwIf) {s t : Scopes}
    (he : Scopes.enter .conditional q.scopes = .ok () s)
    (hl : Reaches standard.chain (q.pastLines.next.pastLines.withScopes s)
      (condition', body', otherwise) u)
    (hx : Scopes.exit .conditional u.scopes = .ok () t) :
    Reaches standard.chain p (condition, body, .chain condition' body' otherwise)
      (u.withScopes t) := by
  refine reaches_moreLinks h more he ((Reaches.currentKind _).bind ?_)
  have next : (q.pastLines.next.pastLines.withScopes s).kind = .kwIf := next
  rw [if_pos next]
  exact hl.bind ((Reaches.pure _ _).bind ((Reaches.exitScope hx).bind (.pure _ _)))

theorem reaches_conditional {condition : Expr} {body : List Stmt} {otherwise : Otherwise}
    (h : Reaches standard.chain p (condition, body, otherwise) q) :
    Reaches (conditional standard standard.statement) p
      (.conditional condition body otherwise) q := by
  have whole : Reaches (do
        let (condition, body, otherwise) ← standard.chain
        return Stmt.conditional condition body otherwise) p
      (.conditional condition body otherwise) q := h.bind (.pure _ _)
  unfold Grammar.chain at whole
  rwa [bind_assoc] at whole

/-! ## §5. Statements. -/

theorem reaches_function {u : Parser} {ps : List Parameter} {type : Option Token}
    {body : List Stmt} {s t v w : Scopes}
    (name : p.next.kind = .identifier) (opening : p.next.next.kind = .openParen)
    (he : Scopes.enter .function p.scopes = .ok () s)
    (hp : Reaches parameterList (p.next.next.next.withScopes s).pastLines ps q)
    (hr : Reaches Statement.returnType q type r)
    (hd : Scopes.define (Signature.symbol ⟨p.current, p.next.current, ps, type⟩) r.scopes
      = .ok () t)
    (hb : Reaches standard.block (r.pastLines.withScopes t) body u)
    (hx : Scopes.exit .function u.scopes = .ok () v)
    (hw : Scopes.define (Signature.symbol ⟨p.current, p.next.current, ps, type⟩)
      (v.delete p.next.current.value).2 = .ok () w) :
    Reaches (function standard.statement) p
      (.function ⟨p.current, p.next.current, ps, type⟩ body) (u.withScopes w) := by
  have parameters : Reaches Statement.parameters (p.next.next.next.withScopes s) ps q :=
    (Reaches.skipNewlines _).bind hp
  refine (Reaches.advance p).bind ((Reaches.expect name).bind ((Reaches.expect opening).bind ?_))
  refine (Reaches.enterScope (p := p.next.next.next) he _).bind (parameters.bind (hr.bind ?_))
  refine (Reaches.skipNewlines r).bind ((Reaches.define (p := r.pastLines) hd).bind ?_)
  refine hb.bind ((Reaches.exitScope hx).bind ((Reaches.delete _ _).bind ?_))
  have bound : Reaches (Parse.define (Signature.symbol ⟨p.current, p.next.current, ps, type⟩))
      ((u.withScopes v).withScopes (v.delete p.next.current.value).2) () (u.withScopes w) :=
    Reaches.define hw
  exact bound.bind ((Reaches.record _ _).bind (.pure _ _))

theorem reaches_giveNothingBack (ending : p.next.atStatementEnd = true) :
    Reaches (giveBack standard) p
      (.giveBack p.current (.literal ⟨.null, "null", p.current.position⟩ .null)) p.next := by
  refine (Reaches.advance p).bind ((Reaches.atStatementEnd _).bind ?_)
  rw [if_pos ending]
  exact .pure _ _

theorem reaches_giveBack {value : Expr} (more : p.next.atStatementEnd = false)
    (h : Reaches (standard.expr .lowest) p.next value q) :
    Reaches (giveBack standard) p (.giveBack p.current value) q := by
  refine (Reaches.advance p).bind ((Reaches.atStatementEnd _).bind ?_)
  rw [more]
  exact h.bind (.pure _ _)

theorem reaches_expectType {expected : BaseType} {value : Expr}
    (h : value.base? = some expected) (operator : Token) (p : Parser) :
    Reaches (expectType expected value operator) p () p := by
  unfold expectType
  rw [if_pos h]
  exact .pure _ p

theorem reaches_declare {s : Scopes} (name : p.next.kind = .identifier)
    (colon : p.next.next.kind = .colon) (type : p.next.next.next.kind = .identifier)
    (ending : p.next.next.next.next.atStatementEnd = true)
    (hd : Scopes.define ⟨p.next.current, p.next.next.next.current, .variable⟩ p.scopes = .ok () s) :
    Reaches (declare standard) p (.declare p.next.current p.next.next.next.current none)
      (p.next.next.next.next.withScopes s) := by
  refine (Reaches.advance p).bind ((Reaches.expect name).bind ((Reaches.expect colon).bind ?_))
  refine (Reaches.expect type).bind ((Reaches.atStatementEnd _).bind ?_)
  rw [if_pos ending]
  exact (Reaches.define (p := p.next.next.next.next) hd).bind (.pure _ _)

theorem reaches_initialise {value : Expr} {s : Scopes} (name : p.next.kind = .identifier)
    (colon : p.next.next.kind = .colon) (type : p.next.next.next.kind = .identifier)
    (sign : p.next.next.next.next.kind = .assign)
    (h : Reaches (standard.expr .lowest) p.next.next.next.next.next value q)
    (fits : value.base? = some (.ofName p.next.next.next.current.value))
    (hd : Scopes.define ⟨p.next.current, p.next.next.next.current, .variable⟩ q.scopes = .ok () s) :
    Reaches (declare standard) p
      (.declare p.next.current p.next.next.next.current (some value))
      ((q.warned (rangeWarning? (.ofName p.next.next.next.current.value) value)).withScopes s) := by
  have more : ¬p.next.next.next.next.atStatementEnd = true := by
    have sign : p.next.next.next.next.current.kind = .assign := sign
    simp [Parser.atStatementEnd, sign]
  refine (Reaches.advance p).bind ((Reaches.expect name).bind ((Reaches.expect colon).bind ?_))
  refine (Reaches.expect type).bind ((Reaches.atStatementEnd _).bind ?_)
  rw [if_neg more]
  refine (Reaches.currentKind _).bind ?_
  rw [if_pos sign]
  refine (Reaches.advance _).bind (h.bind ((reaches_expectType fits _ q).bind ?_))
  cases rangeWarning? (.ofName p.next.next.next.current.value) value with
  | some note =>
      exact (Reaches.warn note q).bind
        ((Reaches.define (p := q.warned (some note)) hd).bind (.pure _ _))
  | none =>
      have same : q.warned none = q := by simp [Parser.warned]
      rw [same]
      exact (Reaches.define hd).bind (.pure _ _)

theorem reaches_assign {value stored : Expr} {symbol : Symbol}
    (h : Reaches (standard.expr .lowest) p.next.next value q)
    (hl : q.scopes.lookup? p.current.value = some symbol)
    (fits : value.base? = some symbol.declaredBase)
    (hs : Reaches (compoundValue p.next.current p.current symbol.declaredBase value) q stored q) :
    Reaches (assign standard) p (.assign p.current stored) q := by
  refine (Reaches.advance p).bind ((Reaches.advance p.next).bind (h.bind ?_))
  refine (Reaches.scopes q).bind ?_
  rw [hl]
  exact (reaches_expectType fits _ q).bind (hs.bind (.pure _ _))

theorem reaches_plainValue {operator name : Token} {type : BaseType} {value : Expr}
    (plain : operator.kind = .assign) (p : Parser) :
    Reaches (compoundValue operator name type value) p value p := by
  unfold compoundValue
  rw [plain]
  exact .pure _ p

theorem reaches_compoundValue {operator name : Token} {type result : BaseType} {value : Expr}
    {applied : Kind} (compound : operator.kind.compoundOperator? = some applied)
    (typed : BaseType.binary? type type = some result) (p : Parser) :
    Reaches (compoundValue operator name type value) p
      (.binary applied operator (.reference name type) value result) p := by
  unfold compoundValue
  rw [compound]
  dsimp only
  rw [typed]
  exact .pure _ p

theorem reaches_identifier_assign {stmt : Stmt} (sign : p.next.kind.isAssignment = true)
    (h : Reaches (assign standard) p stmt q) : Reaches (identifier standard) p stmt q := by
  have sign : p.next.current.kind.isAssignment = true := sign
  refine (Reaches.peek p).bind ?_
  rw [if_pos sign]
  exact h

theorem reaches_identifier_expression {value : Expr} (other : p.next.kind.isAssignment = false)
    (h : Reaches (standard.expr .lowest) p value q) :
    Reaches (identifier standard) p (.expression value) q := by
  have other : p.next.current.kind.isAssignment = false := other
  refine (Reaches.peek p).bind ?_
  rw [other]
  exact h.bind (.pure _ _)

/-! ## §6. Attributes. -/

theorem reaches_bareAttribute (ending : p.next.atStatementEnd = true) :
    Reaches (attributed standard) p (.attribute ⟨p.current, none⟩) p.next := by
  refine (Reaches.advance p).bind ((Reaches.atStatementEnd _).bind ?_)
  rw [if_pos ending]
  exact .pure _ _

theorem reaches_attributeEnd (ending : p.atAttributeEnd = true) :
    Reaches attributeEnd p () p := by
  refine (Reaches.current p).bind ?_
  have listed : p.kind = .newline ∨ p.kind = .semicolon ∨ p.kind = .eof := by
    unfold Parser.atAttributeEnd at ending
    revert ending
    cases p.kind <;> simp
  unfold Parser.kind at listed
  rcases listed with h | h | h
  · rw [h]
    exact .pure _ p
  · rw [h]
    exact .pure _ p
  · rw [h]
    exact .pure _ p

/-- An attribute with a value, in a frame of its own. -/
theorem reaches_attributed {value : AttributeValue} {s t : Scopes}
    (more : p.next.atStatementEnd = false) (he : Scopes.enter .attribute p.scopes = .ok () s)
    (h : Reaches (attributeValue standard p.current) (p.next.withScopes s) value q)
    (ending : q.atAttributeEnd = true) (hx : Scopes.exit .attribute q.scopes = .ok () t) :
    Reaches (attributed standard) p (.attribute ⟨p.current, some value⟩) (q.withScopes t) := by
  refine (Reaches.advance p).bind ((Reaches.atStatementEnd _).bind ?_)
  rw [more]
  refine (Reaches.enterScope (p := p.next) he _).bind (h.bind ?_)
  exact (reaches_attributeEnd ending).bind ((Reaches.exitScope hx).bind (.pure _ _))

theorem reaches_attributeValue {keyword : Token} {value : Expr} (alone : p.atApplication = false)
    (h : Reaches (standard.expr .lowest) p value q) :
    Reaches (attributeValue standard keyword) p (.expression value) q := by
  refine (Reaches.currentKind p).bind ((Reaches.peek p).bind ?_)
  have alone : (decide (p.kind = .identifier) && decide (p.next.current.kind = .openParen))
      = false := alone
  rw [alone]
  exact h.bind (.pure _ _)

theorem reaches_imported {keyword : Token} {es : List Expr} {ps : List Parameter}
    {type : Option Token} {s : Scopes} (here : p.atApplication = true)
    (known : keyword.value = Token.importAttribute)
    (ha : Reaches standard.argumentList p.next.next.pastLines es q)
    (hm : es.mapM importedParameter = .ok ps) (hr : Reaches Statement.returnType q type r)
    (hd : Scopes.define (Signature.symbol ⟨keyword, p.current, ps, type⟩) r.scopes = .ok () s) :
    Reaches (attributeValue standard keyword) p
      (.imported ⟨keyword, p.current, ps, type⟩) (r.withScopes s) := by
  obtain ⟨name, opening⟩ := Parser.kind_of_atApplication here
  have application : Reaches (application standard.expr false) p (p.current, es) q :=
    (Reaches.expect name).bind ((Reaches.expect opening).bind
      ((reaches_arguments ha).bind (.pure _ _)))
  have signature : Reaches (imported standard keyword) p ⟨keyword, p.current, ps, type⟩
      (r.withScopes s) := by
    unfold imported
    rw [if_neg (not_not_intro known)]
    refine application.bind ?_
    dsimp only
    rw [hm]
    exact hr.bind ((Reaches.define hd).bind ((Reaches.record _ _).bind (.pure _ _)))
  refine (Reaches.currentKind p).bind ((Reaches.peek p).bind ?_)
  have here : (decide (p.kind = .identifier) && decide (p.next.current.kind = .openParen)) = true :=
    here
  rw [here]
  exact signature.bind (.pure _ _)

/-! ## §7. Phrases. -/

/-- The program with some statements appended, unless one is refused. -/
def appendAll (before : Program) : List Stmt → Except Error Program
  | [] => .ok before
  | s :: rest => do appendAll (← before.append s) rest

theorem reaches_statement {rule : StatementRule} {s : Stmt}
    (hrule : standardStatement? p.kind = some rule)
    (h : Reaches (standard.statementOf rule) p s q) (ending : q.atStatementEnd = true) :
    Reaches standard.statement p s q := by
  have terminated : Reaches terminated q () q := by
    refine (Reaches.atStatementEnd q).bind ?_
    rw [if_pos ending]
    exact .pure _ q
  rw [recursive_standard.statement]
  refine (Reaches.current p).bind ?_
  have hrule : standard.statementRule? p.current.kind = some rule := hrule
  rw [hrule]
  exact h.bind (terminated.bind (.pure _ _))

theorem reaches_emptyBody (closing : p.kind = .closeCurly) : Reaches standard.body p [] p := by
  rw [recursive_standard.body]
  refine (Reaches.currentKind p).bind ?_
  rw [closing]
  exact .pure _ p

theorem reaches_body {s : Stmt} {ss : List Stmt} (more : p.kind ≠ .closeCurly)
    (inner : p.kind ≠ .eof) (hs : Reaches standard.statement p s q)
    (hss : Reaches standard.body q.pastSeparators ss r) :
    Reaches standard.body p (s :: ss) r := by
  have round : Reaches standard.bodyRound p s q.pastSeparators :=
    hs.bind ((Reaches.skipTerminators q).bind (.pure _ _))
  rw [recursive_standard.body]
  refine (Reaches.currentKind p).bind ?_
  split
  · next closing => exact absurd closing more
  · next ending => exact absurd ending inner
  · exact round.bind (hss.bind (.pure _ _))

theorem reaches_emptyFile {before : Program} (ending : p.pastSeparators.kind = .eof) :
    Reaches (standard.statements before) p before p.pastSeparators := by
  rw [recursive_standard.statements]
  refine (Reaches.skipTerminators p).bind ((Reaches.currentKind _).bind ?_)
  rw [if_pos ending]
  exact .pure _ _

theorem reaches_file {before longer whole : Program} {s : Stmt}
    (more : p.pastSeparators.kind ≠ .eof) (hs : Reaches standard.statement p.pastSeparators s q)
    (ha : before.append s = .ok longer) (hss : Reaches (standard.statements longer) q whole r) :
    Reaches (standard.statements before) p whole r := by
  have round : Reaches (standard.statementRound before) p.pastSeparators longer q := by
    refine hs.bind ?_
    rw [ha]
    cases s with
    | «attribute» attached => exact (Reaches.record _ q).bind (.pure _ q)
    | _ => exact .pure _ q
  rw [recursive_standard.statements]
  refine (Reaches.skipTerminators p).bind ((Reaches.currentKind _).bind ?_)
  rw [if_neg more]
  exact round.bind hss

end Grammar

open Grammar

/-- The reader of a phrase reaches its end with its tree. -/
def Phrase.Reached (p q : Parser) : Phrase → Prop
  | .operand e =>
    ∃ rule, standardOperand? p.kind = some rule ∧ Reaches (standard.operand rule) p e q
  | .operators limit left e => Reaches (standard.operators limit left) p e q
  | .expr limit e => Reaches (standard.expr limit) p e q
  | .arguments es => Reaches standard.argumentList p es q
  | .parameters ps => Reaches Statement.parameterList p ps q
  | .returns type => Reaches Statement.returnType p type q
  | .clause s =>
    ∃ rule, standardStatement? p.kind = some rule ∧ Reaches (standard.statementOf rule) p s q
  | .statement s => Reaches standard.statement p s q
  | .body ss => Reaches standard.body p ss q
  | .block ss => Reaches standard.block p ss q
  | .framed kind ss =>
    ∃ s r t, Scopes.enter kind p.scopes = .ok () s ∧ Reaches standard.block (p.withScopes s) ss r
      ∧ Scopes.exit kind r.scopes = .ok () t ∧ q = r.withScopes t
  | .chain condition ss otherwise => Reaches standard.chain p (condition, ss, otherwise) q
  | .file ss =>
    ∀ before whole, appendAll before ss = .ok whole → Reaches (standard.statements before) p whole q

theorem Phrase.Reached.framed {kind : FrameKind} {ss : List Stmt} {p q : Parser}
    (h : Phrase.Reached p q (.framed kind ss)) (place : Token) :
    Reaches (Statement.framed standard.statement kind place) p ss q := by
  obtain ⟨s, r, t, he, hb, hx, rfl⟩ := h
  exact reaches_framed he hb hx place

/-- **What can be read is read.** -/
theorem Reads.reached {phrase : Phrase} {p q : Parser} (h : Reads phrase p q) :
    phrase.Reached p q := by
  induction h with
  | @literal p type h =>
      refine ⟨.literal, ?_, Expression.reaches_literal h⟩
      generalize p.kind = kind at h
      cases kind <;> first | contradiction | rfl
  | unary rule _ typed ih => exact ⟨.unary, rule, Expression.reaches_unary ih typed⟩
  | grouping opening _ closing ih =>
      exact ⟨.grouping, by rw [opening]; rfl, Expression.reaches_grouping ih closing⟩
  | builtin name alone attached known =>
      exact ⟨.identifier, by rw [name]; rfl,
        reaches_identifier_reference alone name (Expression.reaches_builtin attached known)⟩
  | attached name alone attached other found =>
      exact ⟨.identifier, by rw [name]; rfl,
        reaches_identifier_reference alone name (Expression.reaches_attached attached other found)⟩
  | reference name alone plain found value =>
      exact ⟨.identifier, by rw [name]; rfl,
        reaches_identifier_reference alone name (Expression.reaches_reference plain found value)⟩
  | call here callable _ ih =>
      obtain ⟨name, -⟩ := Parser.kind_of_atApplication here
      exact ⟨.identifier, by rw [name]; rfl, reaches_call here callable ih⟩
  | noArgument closing => exact reaches_noArgument closing
  | argument more inner _ _ ihe ih => exact reaches_argument more inner ihe ih
  | noOperator loose => exact reaches_noOperator loose
  | operator sign tight _ typed _ ihr ih => exact reaches_operator sign tight ihr typed ih
  | expr _ _ ihl ih =>
      obtain ⟨rule, hrule, hl⟩ := ihl
      exact reaches_expr hrule hl ih
  | noParameter closing => exact reaches_noParameter closing
  | parameter name colon type hd _ ih => exact reaches_parameter name colon type hd ih
  | noReturn other => exact reaches_noReturn other
  | returns arrow type => exact reaches_returns arrow type
  | function keyword name opening he _ _ hd _ hx hw ihp ihr ihb =>
      exact ⟨.function, by rw [keyword]; rfl,
        reaches_function name opening he ihp ihr hd ihb hx hw⟩
  | @conditional p q _ _ _ hc ih =>
      have keyword : p.kind = .kwIf := by cases hc <;> assumption
      exact ⟨.conditional, by rw [keyword]; rfl, reaches_conditional ih⟩
  | lastLink _ _ _ last ihc ihb => exact reaches_lastLink (reaches_link ihc ihb.framed) last
  | elseLink _ _ _ more last _ ihc ihb ihe =>
      obtain ⟨s, u, t, he, hb, hx, rfl⟩ := ihe
      exact reaches_elseLink (reaches_link ihc ihb.framed) more last he hb hx
  | nextLink _ _ _ more next he _ hx ihc ihb ihl =>
      exact reaches_nextLink (reaches_link ihc ihb.framed) more next he ihl hx
  | repeatWhile keyword _ _ ihc ihb =>
      refine ⟨.repeatWhile, by rw [keyword]; rfl, ?_⟩
      exact (Reaches.advance _).bind (ihc.bind ((Reaches.skipNewlines _).bind
        ((ihb.framed _).bind (.pure _ _))))
  | leaveLoop keyword =>
      exact ⟨.leaveLoop, by rw [keyword]; rfl, (Reaches.advance _).bind (.pure _ _)⟩
  | nextRound keyword =>
      exact ⟨.nextRound, by rw [keyword]; rfl, (Reaches.advance _).bind (.pure _ _)⟩
  | giveNothingBack keyword ending =>
      exact ⟨.giveBack, by rw [keyword]; rfl, reaches_giveNothingBack ending⟩
  | giveBack keyword more _ ih =>
      exact ⟨.giveBack, by rw [keyword]; rfl, reaches_giveBack more ih⟩
  | declare keyword name colon type ending hd =>
      exact ⟨.declare, by rw [keyword]; rfl, reaches_declare name colon type ending hd⟩
  | initialise keyword name colon type sign _ fits hd ih =>
      exact ⟨.declare, by rw [keyword]; rfl, reaches_initialise name colon type sign ih fits hd⟩
  | assign name sign _ found fits ih =>
      refine ⟨.identifier, by rw [name]; rfl, reaches_identifier_assign (by rw [sign]; rfl) ?_⟩
      exact reaches_assign ih found fits (reaches_plainValue sign _)
  | compound name sign _ found fits typed ih =>
      refine ⟨.identifier, by rw [name]; rfl, reaches_identifier_assign ?_ ?_⟩
      · rw [Kind.isAssignment, sign]
        rfl
      · exact reaches_assign ih found fits (reaches_compoundValue sign typed _)
  | expression start _ ih =>
      rcases start with ⟨name, other⟩ | opening
      · exact ⟨.identifier, by rw [name]; rfl, reaches_identifier_expression other ih⟩
      · exact ⟨.expression, by rw [opening]; rfl, ih.bind (.pure _ _)⟩
  | bareAttribute keyword ending =>
      exact ⟨.attribute, by rw [keyword]; rfl, reaches_bareAttribute ending⟩
  | attributeValue keyword more he alone _ ending hx ih =>
      exact ⟨.attribute, by rw [keyword]; rfl,
        reaches_attributed more he (reaches_attributeValue alone ih) ending hx⟩
  | @imported p q r es ps type s t u keyword more he here known _ hm _ hd ending hx iha ihr =>
      have value := reaches_imported (p := p.next.withScopes s) here known iha hm ihr hd
      exact ⟨.attribute, by rw [keyword]; rfl,
        reaches_attributed (q := r.withScopes t) more he value ending hx⟩
  | statement _ ending ih =>
      obtain ⟨rule, hrule, h⟩ := ih
      exact reaches_statement hrule h ending
  | emptyBody closing => exact reaches_emptyBody closing
  | body more inner _ _ ihs ih => exact reaches_body more inner ihs ih
  | block opening _ closing ih => exact reaches_block opening ih closing
  | framed _ he _ hx ih => exact ⟨_, _, _, he, ih, hx, rfl⟩
  | emptyFile ending =>
      intro before whole same
      obtain rfl := Except.ok.inj same
      exact reaches_emptyFile ending
  | @file _ _ _ s _ more _ _ ihs ih =>
      intro before whole all
      cases ha : before.append s with
      | error e => rw [appendAll, ha] at all; cases all
      | ok longer =>
          rw [appendAll, ha] at all
          exact reaches_file more ihs ha (ih longer whole all)

/-! ### One way to read -/

namespace Parser

variable {p : Parser}

@[simp] theorem journal_next : p.next.journal = p.journal := rfl

@[simp] theorem journal_pastLines : p.pastLines.journal = p.journal := rfl

@[simp] theorem journal_pastSeparators : p.pastSeparators.journal = p.journal := rfl

@[simp] theorem journal_pastComma : p.pastComma.journal = p.journal := by
  unfold pastComma
  split <;> rfl

@[simp] theorem journal_withScopes (s : Scopes) : (p.withScopes s).journal = p.journal := rfl

@[simp] theorem journal_inBlock : p.inBlock.journal = p.journal := rfl

@[simp] theorem journal_outOfBlock : p.outOfBlock.journal = p.journal := rfl

@[simp] theorem journal_warned (note : Option Note) : (p.warned note).journal = p.journal := rfl

end Parser

/-- The relation keeps no journal. -/
theorem Reads.journal {phrase : Phrase} {p q : Parser} (h : Reads phrase p q) :
    q.journal = p.journal := by
  induction h <;> simp_all

/-- **A statement can be read in one way only.** -/
theorem Reads.statement_unique {s s' : Stmt} {p q q' : Parser} (h : Reads (.statement s) p q)
    (h' : Reads (.statement s') p q') : s = s' ∧ q = q' := by
  obtain ⟨journal, first⟩ := h.reached p.journal
  obtain ⟨journal', second⟩ := h'.reached p.journal
  rw [first] at second
  obtain ⟨same, reached⟩ := EStateM.Result.ok.inj second
  -- the readers may write to the journal, but the relation does not
  have silent : ∀ (kept : Array Event) {r : Parser}, r.journal = p.journal →
      (r.logged kept).logged p.journal = r := by
    intro kept r hr
    rw [← hr]
    rfl
  refine ⟨same, ?_⟩
  rw [← silent journal h.journal, reached, silent journal' h'.journal]

/-! ## §8. Files. -/

/-- The statement is an attribute. -/
def Stmt.isAttribute : Stmt → Bool
  | .attribute _ => true
  | _ => false

theorem appendAll_attributes (attributes attached : List Attribute) (rest : List Stmt) :
    appendAll ⟨attributes, []⟩ (attached.map .attribute ++ rest)
      = appendAll ⟨attributes ++ attached, []⟩ rest := by
  induction attached generalizing attributes with
  | nil => rw [List.append_nil]; rfl
  | cons first later ih =>
      show appendAll ⟨attributes ++ [first], []⟩ (later.map .attribute ++ rest) = _
      rw [ih, List.append_assoc]
      rfl

theorem appendAll_statements {statements : List Stmt}
    (plain : ∀ s ∈ statements, s.isAttribute = false) (before : Program) :
    appendAll before statements
      = .ok { before with statements := before.statements ++ statements } := by
  induction statements generalizing before with
  | nil => rw [List.append_nil]; rfl
  | cons s rest ih =>
      have hs : s.isAttribute = false := plain s List.mem_cons_self
      have appended : before.append s
          = .ok { before with statements := before.statements ++ [s] } := by
        cases s with
        | «attribute» attached => cases hs
        | _ => rfl
      rw [appendAll, appended]
      show appendAll { before with statements := before.statements ++ [s] } rest = _
      rw [ih fun other hm => plain other (List.mem_cons_of_mem s hm), List.append_assoc]
      rfl

/-- The statements of a file make the file again. -/
theorem appendAll_clauses {program : Program}
    (plain : ∀ s ∈ program.statements, s.isAttribute = false) :
    appendAll .empty program.clauses = .ok program := by
  unfold Program.clauses Program.empty
  rw [appendAll_attributes, appendAll_statements plain]
  rfl

/-- **A file that can be read ends as its calls do:** it is accepted if none is
left unanswered, and else refused for those that are. -/
theorem parse_of_reads {tokens : List Token} {program : Program} {q : Parser}
    (h : Reads (.file program.clauses) (Parser.ofTokens tokens) q)
    (plain : ∀ s ∈ program.statements, s.isAttribute = false) (file : String) :
    (parse file tokens).1 = (match q.scopes.unresolved? with
      | some error => .error error
      | none => .ok program)
    ∧ (parse file tokens).2.scopes = q.scopes := by
  obtain ⟨journal, statements⟩ :=
    h.reached .empty program (appendAll_clauses plain) #[.reading file]
  have same : (q.logged journal).scopes = q.scopes := rfl
  cases found : q.scopes.unresolved? with
  | some error =>
      rw [← same] at found
      have refused : parse file tokens = (.error error, q.logged journal) :=
        parse_error_iff.2 (Grammar.program_error_iff.2 (.inr ⟨program, statements, found⟩))
      rw [refused]
      exact ⟨rfl, rfl⟩
  | none =>
      rw [← same] at found
      have accepted : parse file tokens = (.ok program, _) :=
        parse_ok_iff.2 ⟨_, Grammar.program_ok_iff.2 ⟨statements, found⟩, rfl⟩
      rw [accepted]
      exact ⟨rfl, rfl⟩

/-- **A file that can be read is accepted**, if no call in it is left
unanswered. -/
theorem accepted_of_reads {tokens : List Token} {program : Program} {q : Parser}
    (h : Reads (.file program.clauses) (Parser.ofTokens tokens) q)
    (plain : ∀ s ∈ program.statements, s.isAttribute = false)
    (answered : q.scopes.unresolved? = none) (file : String) :
    (parse file tokens).1 = .ok program := by
  rw [(parse_of_reads h plain file).1, answered]

end ImpFront
