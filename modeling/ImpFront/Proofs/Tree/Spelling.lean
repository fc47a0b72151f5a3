/-
  ImpFront.Proofs.Tree.Spelling
  ─────────────────────────────
  **THE TOKENS THAT A TREE HOLDS, IN ORDER.**

  A tree keeps the words and signs of its file and leaves out what only gives
  them their shape: line ends, separators, brackets, arrows, plain assignment
  signs, and four keywords.  Read from left to right it gives back the tokens
  that it keeps:

      x + f(y)        ↦   x, +, f, y
      x += y          ↦   x, +=, y            (the copy of x's own token is left out)
      return          ↦   return              (the inserted null is left out)

  The inserted null is a token at the place of its keyword.  Where a file has
  such a token itself, the tree alone does not say which of the two it was,
  so that `Spelled` allows both readings.  Where no null stands at the place
  of a `return` there is one reading, and `spelling` computes it.
-/
import ImpFront.Proofs.Tree.Mentions

namespace ImpFront

/-! ## §1. Tokens that a tree keeps. -/

/-- The tokens of this kind are kept in a tree. -/
def Kind.isKept : Kind → Bool
  | .newline | .semicolon | .openParen | .closeParen | .openCurly | .closeCurly
  | .openBracket | .closeBracket | .comma | .colon | .arrow | .assign
  | .kwIf | .kwElse | .kwWhile | .kwVar => false
  | _ => true

/-- The tokens that a tree keeps. -/
def kept (tokens : List Token) : List Token :=
  tokens.filter fun token => token.kind.isKept

@[simp] theorem kept_nil : kept [] = [] := rfl

@[simp] theorem kept_append (before behind : List Token) :
    kept (before ++ behind) = kept before ++ kept behind :=
  List.filter_append _ _

/-! ## §2. The tokens of a tree. -/

namespace Expr

mutual

/-- The tokens of an expression. -/
def spelling : Expr → List Token
  | .binary _ token left right _ => left.spelling ++ token :: right.spelling
  | .unary _ token operand _ => token :: operand.spelling
  | .call name arguments _ => name :: spellingOfAll arguments
  | .literal token _ => [token]
  | .reference name _ => [name]

/-- The tokens of some expressions. -/
def spellingOfAll : List Expr → List Token
  | [] => []
  | e :: rest => e.spelling ++ spellingOfAll rest

end

/-- The tokens behind the name of a variable that is given a value.  A
compound assignment has its sign at the head of the value, with a copy of the
name on the left.  Only that copy is left out: the same token, under a
compound sign.  Any other left operand is spelled like the rest. -/
def assignedSpelling (target : Token) : Expr → List Token
  | .binary operator token (.reference name type) right resultType =>
    if token.kind.compoundOperator?.isSome ∧ name = target then token :: right.spelling
    else (Expr.binary operator token (.reference name type) right resultType).spelling
  | e => e.spelling

/-- The null that a `return` without a value gives back. -/
def insertedNull (keyword : Token) : Token :=
  ⟨.null, "null", keyword.position⟩

/-- The tokens behind a `return`. -/
def returnedSpelling (keyword : Token) : Expr → List Token
  | .literal token _ => if token = insertedNull keyword then [] else [token]
  | e => e.spelling

end Expr

namespace Parameter

/-- The tokens of a parameter. -/
def spelling (parameter : Parameter) : List Token :=
  parameter.name.toList ++ [parameter.type]

end Parameter

namespace Signature

/-- The tokens of a signature.  The keyword of an imported function is the
attribute that imports it. -/
def spelling (signature : Signature) : List Token :=
  signature.keyword :: signature.name
    :: (signature.parameters.flatMap Parameter.spelling ++ signature.returns.toList)

end Signature

/-- The tokens of an attribute. -/
def Attribute.spelling (attached : Attribute) : List Token :=
  match attached.value with
  | none => [attached.token]
  | some (.expression value) => attached.token :: value.spelling
  | some (.imported signature) => signature.spelling

mutual

/-- The tokens of a statement, where every null at the place of its `return`
has been inserted. -/
def Stmt.spelling : Stmt → List Token
  | .function signature body => signature.spelling ++ spellingOfAll body
  | .declare name type none => [name, type]
  | .declare name type (some value) => name :: type :: value.spelling
  | .conditional condition body otherwise =>
    condition.spelling ++ (spellingOfAll body ++ otherwise.spelling)
  | .repeatWhile condition body => condition.spelling ++ spellingOfAll body
  | .leaveLoop keyword | .nextRound keyword => [keyword]
  | .giveBack keyword value => keyword :: value.returnedSpelling keyword
  | .assign name value => name :: value.assignedSpelling name
  | .attribute attached => attached.spelling
  | .expression value => value.spelling

/-- The tokens of the rest of a chain of conditions. -/
def Otherwise.spelling : Otherwise → List Token
  | .nothing => []
  | .block body => spellingOfAll body
  | .chain condition body otherwise =>
    condition.spelling ++ (spellingOfAll body ++ otherwise.spelling)

/-- The tokens of some statements. -/
def spellingOfAll : List Stmt → List Token
  | [] => []
  | s :: rest => s.spelling ++ spellingOfAll rest

end

/-- The tokens of a file: its attributes, then its statements. -/
def Program.spelling (program : Program) : List Token :=
  spellingOfAll program.clauses

/-! ## §3. Readings of a tree. -/

/-- The value behind a `return` was written, or it was inserted. -/
def Returned (keyword : Token) (value : Expr) (tokens : List Token) : Prop :=
  keyword.kind = .kwReturn ∧
    (tokens = keyword :: value.spelling ∨
      value = .literal (Expr.insertedNull keyword) .null ∧ tokens = [keyword])

mutual

/-- The tokens are a reading of a statement. -/
def Stmt.Spelled : Stmt → List Token → Prop
  | .function signature body, tokens =>
    ∃ inside, SpelledAll body inside ∧ tokens = signature.spelling ++ inside
  | .conditional condition body otherwise, tokens =>
    ∃ inside behind, SpelledAll body inside ∧ otherwise.Spelled behind ∧
      tokens = condition.spelling ++ (inside ++ behind)
  | .repeatWhile condition body, tokens =>
    ∃ inside, SpelledAll body inside ∧ tokens = condition.spelling ++ inside
  | .giveBack keyword value, tokens => Returned keyword value tokens
  | s, tokens => tokens = s.spelling

/-- The tokens are a reading of the rest of a chain of conditions. -/
def Otherwise.Spelled : Otherwise → List Token → Prop
  | .nothing, tokens => tokens = []
  | .block body, tokens => SpelledAll body tokens
  | .chain condition body otherwise, tokens =>
    ∃ inside behind, SpelledAll body inside ∧ otherwise.Spelled behind ∧
      tokens = condition.spelling ++ (inside ++ behind)

/-- The tokens are a reading of some statements, one after the other. -/
def SpelledAll : List Stmt → List Token → Prop
  | [], tokens => tokens = []
  | s :: rest, tokens =>
    ∃ first later, s.Spelled first ∧ SpelledAll rest later ∧ tokens = first ++ later

end

/-- The tokens are a reading of a file: its attributes, then its statements. -/
def Program.Spelled (program : Program) (tokens : List Token) : Prop :=
  SpelledAll program.clauses tokens

/-! ## §4. Files with one reading. -/

/-- No null stands at the place of a `return`. -/
def Unmixed (tokens : List Token) : Prop :=
  ∀ keyword ∈ tokens, ∀ value ∈ tokens,
    keyword.kind = .kwReturn → value.kind = .null → value.position ≠ keyword.position

namespace Unmixed

variable {before behind : List Token}

theorem subset {tokens fewer : List Token} (h : Unmixed tokens) (hsub : fewer ⊆ tokens) :
    Unmixed fewer :=
  fun keyword hk value hv => h keyword (hsub hk) value (hsub hv)

theorem left (h : Unmixed (before ++ behind)) : Unmixed before :=
  h.subset (List.subset_append_left before behind)

theorem right (h : Unmixed (before ++ behind)) : Unmixed behind :=
  h.subset (List.subset_append_right before behind)

end Unmixed

/-- Unless a null stands at its place, a `return` has one reading. -/
theorem Returned.eq_spelling {keyword : Token} {value : Expr} {tokens : List Token}
    (h : Returned keyword value tokens) (unmixed : Unmixed tokens) :
    tokens = keyword :: value.returnedSpelling keyword := by
  obtain ⟨hk, written | ⟨rfl, rfl⟩⟩ := h
  · rw [written] at unmixed ⊢
    cases value with
    | literal token type =>
        have apart : token ≠ Expr.insertedNull keyword := by
          intro same
          subst same
          refine unmixed keyword List.mem_cons_self (Expr.insertedNull keyword) ?_ hk rfl rfl
          exact List.mem_cons_of_mem _ (List.mem_singleton.2 rfl)
        rw [Expr.returnedSpelling, if_neg apart]
        rfl
    | _ => rfl
  · rw [Expr.returnedSpelling, if_pos rfl]

mutual

theorem Stmt.Spelled.eq_spelling : ∀ {s : Stmt} {tokens : List Token},
    s.Spelled tokens → Unmixed tokens → tokens = s.spelling
  | .function signature body, tokens, h, unmixed => by
      obtain ⟨inside, hb, rfl⟩ := h
      rw [Stmt.spelling, hb.eq_spelling unmixed.right]
  | .conditional condition body otherwise, tokens, h, unmixed => by
      obtain ⟨inside, behind, hb, ho, rfl⟩ := h
      rw [Stmt.spelling, hb.eq_spelling unmixed.right.left, ho.eq_spelling unmixed.right.right]
  | .repeatWhile condition body, tokens, h, unmixed => by
      obtain ⟨inside, hb, rfl⟩ := h
      rw [Stmt.spelling, hb.eq_spelling unmixed.right]
  | .giveBack keyword value, tokens, h, unmixed => Returned.eq_spelling h unmixed
  | .declare _ _ _, _, h, _ | .leaveLoop _, _, h, _ | .nextRound _, _, h, _
  | .assign _ _, _, h, _ | .attribute _, _, h, _ | .expression _, _, h, _ => h

theorem Otherwise.Spelled.eq_spelling : ∀ {otherwise : Otherwise} {tokens : List Token},
    otherwise.Spelled tokens → Unmixed tokens → tokens = otherwise.spelling
  | .nothing, _, h, _ => h
  | .block body, tokens, h, unmixed => SpelledAll.eq_spelling h unmixed
  | .chain condition body otherwise, tokens, h, unmixed => by
      obtain ⟨inside, behind, hb, ho, rfl⟩ := h
      rw [Otherwise.spelling, hb.eq_spelling unmixed.right.left,
        ho.eq_spelling unmixed.right.right]

theorem SpelledAll.eq_spelling : ∀ {ss : List Stmt} {tokens : List Token},
    SpelledAll ss tokens → Unmixed tokens → tokens = spellingOfAll ss
  | [], _, h, _ => h
  | s :: rest, tokens, h, unmixed => by
      obtain ⟨first, later, hs, hr, rfl⟩ := h
      rw [spellingOfAll, hs.eq_spelling unmixed.left, hr.eq_spelling unmixed.right]

end

/-- **A file with no null at the place of a `return` has one reading.** -/
theorem Program.Spelled.eq_spelling {program : Program} {tokens : List Token}
    (h : program.Spelled tokens) (unmixed : Unmixed tokens) : tokens = program.spelling :=
  SpelledAll.eq_spelling h unmixed

end ImpFront
