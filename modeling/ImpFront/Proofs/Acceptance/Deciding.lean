/-
  ImpFront.Proofs.Acceptance.Deciding
  ───────────────────────────────────
  **WHETHER A TREE IS WELL FORMED IS DECIDED.**

  Each property of trees that reading and printing speak of can be computed:
  the kinds of the tokens, the use of names and types, and the names that are
  kept apart.  They are said of each mention in its context, so that one walk
  through the mentions is enough.
-/
import ImpFront.Proofs.Acceptance.Standing
import ImpFront.Proofs.Tree.Printing

namespace ImpFront

open Grammar (standardPrecedence? standardOperand?)

/-! ## §1. The kinds of the tokens. -/

instance : DecidablePred Expr.Fitting
  | .binary operator token _ _ _ =>
    inferInstanceAs (Decidable (operator = token.kind ∧ (standardPrecedence? token.kind).isSome))
  | .unary operator token _ _ =>
    inferInstanceAs (Decidable
      (operator = token.kind ∧ standardOperand? token.kind = some .unary))
  | .call name _ _ | .reference name _ => inferInstanceAs (Decidable (name.kind = .identifier))
  | .literal token _ => inferInstanceAs (Decidable (BaseType.ofLiteral? token.kind).isSome)

instance (e : Expr) : Decidable e.Formed :=
  inferInstanceAs (Decidable (∀ node ∈ e.nodes, node.Fitting))

instance : DecidablePred Parameter.Named := fun parameter =>
  inferInstanceAs (Decidable ((∃ name, name ∈ parameter.name ∧ name.kind = .identifier)
    ∧ parameter.type.kind = .identifier))

instance : DecidablePred Parameter.Builtin := fun parameter =>
  inferInstanceAs (Decidable (parameter.name = none ∧ parameter.type.kind = .identifier
    ∧ (DeclaredType.builtin? parameter.type.value).isSome))

instance {form : Parameter → Prop} [DecidablePred form] (signature : Signature) :
    Decidable (signature.Formed form) :=
  decidable_of_iff (signature.name.kind = .identifier
      ∧ (∀ parameter ∈ signature.parameters, form parameter)
      ∧ ∀ type, type ∈ signature.returns → type.kind = .identifier)
    ⟨fun ⟨name, parameters, returns⟩ => ⟨name, parameters, returns⟩,
      fun ⟨name, parameters, returns⟩ => ⟨name, parameters, returns⟩⟩

instance : DecidablePred Attribute.Formed
  | ⟨token, none⟩ => inferInstanceAs (Decidable (token.kind = .attribute ∧ True))
  | ⟨token, some (.expression value)⟩ =>
    inferInstanceAs (Decidable (token.kind = .attribute ∧ value.Formed))
  | ⟨token, some (.imported signature)⟩ =>
    inferInstanceAs (Decidable (token.kind = .attribute ∧ signature.keyword = token
      ∧ token.value = Token.importAttribute ∧ signature.Formed Parameter.Builtin))

mutual

def Stmt.decideFormed (inside : Bool) : (s : Stmt) → Decidable (s.Formed inside)
  | .function signature body =>
    have := decideFormedAll true body
    inferInstanceAs (Decidable (inside = false ∧ signature.keyword.kind = .kwFunc
      ∧ signature.Formed Parameter.Named ∧ FormedAll true body))
  | .declare name type none =>
    inferInstanceAs (Decidable (name.kind = .identifier ∧ type.kind = .identifier))
  | .declare name type (some value) =>
    inferInstanceAs (Decidable
      (name.kind = .identifier ∧ type.kind = .identifier ∧ value.Formed))
  | .conditional condition body otherwise =>
    have := decideFormedAll inside body
    have := otherwise.decideFormed inside
    inferInstanceAs (Decidable
      (condition.Formed ∧ FormedAll inside body ∧ otherwise.Formed inside))
  | .repeatWhile condition body =>
    have := decideFormedAll inside body
    inferInstanceAs (Decidable (condition.Formed ∧ FormedAll inside body))
  | .leaveLoop keyword => inferInstanceAs (Decidable (keyword.kind = .kwBreak))
  | .nextRound keyword => inferInstanceAs (Decidable (keyword.kind = .kwContinue))
  | .giveBack keyword value =>
    inferInstanceAs (Decidable (keyword.kind = .kwReturn ∧ value.Formed))
  | .assign name value => inferInstanceAs (Decidable (name.kind = .identifier ∧ value.Formed))
  | .attribute _ => inferInstanceAs (Decidable False)
  | .expression value => inferInstanceAs (Decidable value.Formed)

def Otherwise.decideFormed (inside : Bool) :
    (otherwise : Otherwise) → Decidable (otherwise.Formed inside)
  | .nothing => inferInstanceAs (Decidable True)
  | .block body => decideFormedAll inside body
  | .chain condition body otherwise =>
    have := decideFormedAll inside body
    have := otherwise.decideFormed inside
    inferInstanceAs (Decidable
      (condition.Formed ∧ FormedAll inside body ∧ otherwise.Formed inside))

def decideFormedAll (inside : Bool) : (ss : List Stmt) → Decidable (FormedAll inside ss)
  | [] => inferInstanceAs (Decidable True)
  | s :: rest =>
    have := s.decideFormed inside
    have := decideFormedAll inside rest
    inferInstanceAs (Decidable (s.Formed inside ∧ FormedAll inside rest))

end

instance (inside : Bool) : DecidablePred (Stmt.Formed inside) :=
  Stmt.decideFormed inside

instance (program : Program) : Decidable program.Formed :=
  decidable_of_iff ((∀ attached ∈ program.attributes, attached.Formed)
      ∧ ∀ s ∈ program.statements, s.Formed false)
    ⟨fun ⟨attributes, statements⟩ => ⟨attributes, statements⟩,
      fun ⟨attributes, statements⟩ => ⟨attributes, statements⟩⟩

/-! ## §2. Names and types. -/

/-- A symbol that is found is the only one to be looked at. -/
instance {found : Option Symbol} {P : Symbol → Prop} [DecidablePred P] :
    Decidable (∃ symbol, found = some symbol ∧ P symbol) :=
  inferInstanceAs (Decidable (∃ symbol, symbol ∈ found ∧ P symbol))

instance (c : Context) (later : List Mention) : DecidablePred (Expr.Scoped c later)
  | .reference name _ => inferInstanceAs (Decidable (c.inAttribute = true
      ∨ ∃ symbol, c.lookup? name.value = some symbol ∧ symbol.isFunction = false))
  | .call name _ _ =>
    decidable_of_iff ((c.callee? name.value later).isSome = true) Option.isSome_iff_exists
  | .binary _ _ _ _ _ | .unary _ _ _ _ | .literal _ _ => inferInstanceAs (Decidable True)

instance (c : Context) (mention : Mention) (later : List Mention) :
    Decidable (mention.Scoped c later) :=
  match mention with
  | .opens kind => inferInstanceAs (Decidable (kind = .function → c.locals = none))
  | .closes _ => inferInstanceAs (Decidable True)
  | .binds symbol =>
    inferInstanceAs (Decidable (c.lookup? symbol.key = none ∧ .conditional ∉ c.frames))
  | .completes symbol =>
    inferInstanceAs (Decidable (c.locals.bind (fun locals => locals symbol.key) = some symbol
      ∧ c.globals symbol.key = none ∧ .conditional ∉ c.frames))
  | .evaluates value => inferInstanceAs (Decidable (∀ node ∈ value.nodes, node.Scoped c later))
  | .initialises _ _ => inferInstanceAs (Decidable True)
  | .assigns name _ => inferInstanceAs (Decidable
      (∃ symbol, c.lookup? name.value = some symbol ∧ symbol.isFunction = false))

instance (c : Context) : DecidablePred (Expr.Typed c)
  | .binary _ _ left right type =>
    decidable_of_iff
      (∃ l, left.base? = some l ∧ ∃ r, right.base? = some r ∧ BaseType.binary? l r = some type)
      ⟨fun ⟨l, hl, r, hr, typed⟩ => ⟨l, r, hl, hr, typed⟩,
        fun ⟨l, r, hl, hr, typed⟩ => ⟨l, hl, r, hr, typed⟩⟩
  | .unary _ _ operand type =>
    inferInstanceAs (Decidable (operand.base? = some type ∧ type.isNumeric = true))
  | .literal token type => inferInstanceAs (Decidable (BaseType.ofLiteral? token.kind = some type))
  | .reference name type => inferInstanceAs (Decidable
      (if c.inAttribute = true ∧ (DeclaredType.builtin? name.value).isSome then
        type = .ofName name.value
      else ∃ symbol, c.lookup? name.value = some symbol ∧ type = symbol.declaredBase))
  | .call _ _ _ => inferInstanceAs (Decidable True)

/-- Only a call can be without a type. -/
theorem Expr.call_of_base?_eq_none {e : Expr} (h : e.base? = none) :
    ∃ name arguments, e = .call name arguments none := by
  cases e with
  | call name arguments returns =>
      obtain rfl : returns = none := h
      exact ⟨name, arguments, rfl⟩
  | _ => cases h

instance (c : Context) (mention : Mention) (later : List Mention) :
    Decidable (mention.Typed c later) :=
  match mention with
  | .evaluates value =>
    decidable_of_iff (∀ node ∈ value.nodes, node.Typed c)
      ⟨fun typed node hn => ⟨typed node hn, Expr.call_of_base?_eq_none⟩,
        fun typed node hn => (typed node hn).1⟩
  | .initialises type value =>
    inferInstanceAs (Decidable (value.base? = some (.ofName type.value)))
  | .assigns name value => inferInstanceAs (Decidable
      (∃ symbol, c.lookup? name.value = some symbol ∧ value.base? = some symbol.declaredBase))
  | .opens _ | .closes _ | .binds _ | .completes _ => inferInstanceAs (Decidable True)

/-- An expression has the type of the function that it calls, if it is a
call. -/
def Expr.Agrees (c : Context) (later : List Mention) : Expr → Prop
  | .call name _ returns =>
    ∃ bound, c.callee? name.value later = some bound ∧ returns = bound.returnBase?
  | _ => True

instance (c : Context) (later : List Mention) : DecidablePred (Expr.Agrees c later)
  | .call name _ returns => inferInstanceAs (Decidable
      (∃ bound, c.callee? name.value later = some bound ∧ returns = bound.returnBase?))
  | .binary _ _ _ _ _ | .unary _ _ _ _ | .literal _ _ | .reference _ _ =>
    inferInstanceAs (Decidable True)

theorem Mention.agrees_evaluates_iff {c : Context} {value : Expr} {later : List Mention} :
    (Mention.evaluates value).Agrees c later ↔ ∀ node ∈ value.nodes, node.Agrees c later := by
  constructor
  · intro agrees node hn
    cases node with
    | call name arguments returns => exact agrees name arguments returns hn
    | _ => trivial
  · intro agrees name arguments returns hn
    exact agrees _ hn

instance (c : Context) (mention : Mention) (later : List Mention) :
    Decidable (mention.Agrees c later) :=
  match mention with
  | .evaluates _ => decidable_of_iff _ Mention.agrees_evaluates_iff.symm
  | .opens _ | .closes _ | .binds _ | .completes _ | .initialises _ _ | .assigns _ _ =>
    inferInstanceAs (Decidable True)

instance Always.decide {P : Context → Mention → List Mention → Prop}
    [∀ c mention later, Decidable (P c mention later)] :
    ∀ (c : Context) (mentions : List Mention), Decidable (Always P c mentions)
  | _, [] => inferInstanceAs (Decidable True)
  | c, mention :: later =>
    have : Decidable (Always P (c.after mention) later) := Always.decide (c.after mention) later
    inferInstanceAs (Decidable (P c mention later ∧ Always P (c.after mention) later))

instance (program : Program) : Decidable program.WellScoped :=
  Always.decide .start program.mentions

instance (program : Program) : Decidable program.WellTyped :=
  Always.decide .start program.mentions

instance (program : Program) : Decidable program.AgreesWithCallees :=
  Always.decide .start program.mentions

/-! ## §3. Names that are kept apart. -/

/-- The mention evaluates a call of the name. -/
def Mention.calls (name : String) : Mention → Bool
  | .evaluates value => value.callees.any fun token => token.value == name
  | _ => false

theorem Mention.calls_iff {name : String} {mention : Mention} :
    mention.calls name = true ↔ ∃ value, mention = .evaluates value ∧ value.Calls name := by
  cases mention <;> simp [calls, Expr.Calls]

/-- From the context on the name is called while it is hidden. -/
def callsHidden (name : String) : Context → List Mention → Bool
  | _, [] => false
  | c, mention :: later =>
    (c.lookup? name).isNone && mention.calls name || callsHidden name (c.after mention) later

theorem callsHidden_iff {name : String} {c : Context} {mentions : List Mention} :
    callsHidden name c mentions = true ↔ ∃ before value behind,
      mentions = before ++ .evaluates value :: behind ∧ (c.afterAll before).lookup? name = none
        ∧ value.Calls name := by
  induction mentions generalizing c with
  | nil => simp [callsHidden]
  | cons mention later ih =>
      rw [callsHidden, Bool.or_eq_true, Bool.and_eq_true, Option.isNone_iff_eq_none,
        Mention.calls_iff, ih]
      constructor
      · rintro (⟨hidden, value, rfl, calls⟩ | ⟨before, value, behind, rfl, hidden, calls⟩)
        · exact ⟨[], value, later, rfl, hidden, calls⟩
        · exact ⟨mention :: before, value, behind, rfl, hidden, calls⟩
      · rintro ⟨before, value, behind, same, hidden, calls⟩
        cases before with
        | nil =>
            obtain ⟨rfl, rfl⟩ := List.cons.inj same
            exact .inl ⟨hidden, value, rfl, calls⟩
        | cons first before =>
            obtain ⟨rfl, rfl⟩ := List.cons.inj same
            exact .inr ⟨before, value, behind, rfl, hidden, calls⟩

theorem calledHidden_iff {name : String} {mentions : List Mention} :
    CalledHidden name mentions ↔ callsHidden name .start mentions = true := by
  rw [callsHidden_iff]
  constructor
  · rintro ⟨hidden, calls⟩
    exact ⟨_, _, _, rfl, hidden, calls⟩
  · rintro ⟨before, value, behind, rfl, hidden, calls⟩
    exact .intro hidden calls

instance (name : String) (mentions : List Mention) : Decidable (CalledHidden name mentions) :=
  decidable_of_iff _ calledHidden_iff.symm

/-- What the mention binds is a function, if its name is called while it is
hidden. -/
def Mention.Apart (mentions : List Mention) : Mention → Prop
  | .binds symbol => CalledHidden symbol.key mentions → symbol.isFunction = true
  | _ => True

instance (mentions : List Mention) : DecidablePred (Mention.Apart mentions)
  | .binds symbol =>
    inferInstanceAs (Decidable (CalledHidden symbol.key mentions → symbol.isFunction = true))
  | .opens _ | .closes _ | .completes _ | .evaluates _ | .initialises _ _ | .assigns _ _ =>
    inferInstanceAs (Decidable True)

theorem keepsApart_iff {mentions : List Mention} :
    KeepsApart mentions ↔ ∀ mention ∈ mentions, mention.Apart mentions := by
  constructor
  · intro apart mention hm
    cases mention with
    | binds symbol => exact apart symbol hm
    | _ => trivial
  · exact fun apart symbol hm => apart _ hm

instance (program : Program) : Decidable program.KeepsApart :=
  decidable_of_iff _ keepsApart_iff.symm

end ImpFront
