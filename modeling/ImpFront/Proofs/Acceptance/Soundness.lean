/-
  ImpFront.Proofs.Acceptance.Soundness
  ────────────────────────────────────
  **ACCEPTED FILES ARE SOUND.**

  A file that is accepted has been read, its end is accounted for, and so is
  its beginning.  There the account says of the whole tree that its names
  stand for what they have to, that its types go together, and where the
  types of its calls are from.
-/
import Mathlib
import ImpFront.Proofs.Acceptance.Induction
import ImpFront.Proofs.Grammar.Soundness
import ImpFront.Proofs.Scope.Sweep

namespace ImpFront

/-! ## §1. Both ends of a file. -/

/-- A statement may begin where the file does. -/
theorem Parser.ready_ofTokens (tokens : List Token) :
    (Parser.ofTokens tokens).Ready (Cursor.ofTokens tokens).tokens where
  proper := .empty
  calm announced := by
    have behind : (Parser.ofTokens tokens).cursor.behind = [] := Cursor.behind_ofTokens tokens
    rw [behind] at announced
    cases announced
  outside := rfl
  file := rfl

/-! ## §2. The tokens of a file without its end. -/

theorem reopens_append_final (tokens : List Token) {final : Token} (h : final.kind = .eof) :
    reopens (tokens ++ [final]) = reopens tokens := by
  unfold reopens
  induction tokens with
  | nil => simp [h]
  | cons token rest ih =>
      by_cases closing : token.kind = .closeParen
      · simp [closing]
      · rw [List.cons_append, List.takeWhile_cons_of_pos (by simpa using closing),
          List.takeWhile_cons_of_pos (by simpa using closing), List.any_cons, List.any_cons, ih]

/-- The end token that is added to a file is in no declaration. -/
theorem Declares.of_append_final {tokens : List Token} {final : Token} {symbol : Symbol}
    {type : Option BaseType} (h : final.kind = .eof)
    (declares : Declares (tokens ++ [final]) symbol type) : Declares tokens symbol type := by
  obtain ⟨before, opening, behind, split, hk, importing, ht⟩ := declares
  -- the end token is not the parenthesis, hence it is behind that
  rcases List.eq_nil_or_concat behind with rfl | ⟨inner, last, rfl⟩
  · have same : tokens ++ [final] = (before ++ [symbol.declared, symbol.name]) ++ [opening] := by
      simp [split]
    obtain ⟨-, same⟩ := List.append_inj' same rfl
    obtain rfl := List.head_eq_of_cons_eq same
    rw [h] at hk
    cases hk
  · have same : tokens ++ [final]
        = (before ++ symbol.declared :: symbol.name :: opening :: inner) ++ [last] := by
      simp [split]
    obtain ⟨tokens_eq, last_eq⟩ := List.append_inj' same rfl
    obtain rfl := List.head_eq_of_cons_eq last_eq
    rw [List.concat_eq_append, reopens_append_final inner h] at importing ht
    exact ⟨before, opening, inner, tokens_eq, hk, importing, ht⟩

theorem Declares.of_ofTokens {tokens : List Token} {symbol : Symbol} {type : Option BaseType}
    (declares : Declares (Cursor.ofTokens tokens).tokens symbol type) :
    Declares tokens symbol type := by
  unfold Cursor.ofTokens at declares
  split at declares
  · next none =>
      obtain rfl := List.getLast?_eq_none_iff.1 none
      have final : (⟨.eof, "", ⟨0, 0, 0⟩⟩ : Token).kind = .eof := rfl
      exact declares.of_append_final final
  · next last hl =>
      split at declares
      · have same : tokens.dropLast ++ [last] = tokens := by
          obtain ⟨front, rfl⟩ := List.getLast?_eq_some_iff.1 hl
          rw [List.dropLast_concat]
        have declares : Declares (tokens.dropLast ++ [last]) symbol type := declares
        rwa [same] at declares
      · have final : (⟨.eof, "", last.position⟩ : Token).kind = .eof := rfl
        exact declares.of_append_final final

/-! ## §3. Accepted files. -/

variable {file : String} {tokens : List Token} {program : Program} {p : Parser}

/-- **The beginning of an accepted file is accounted for.** -/
theorem accounts_of_accepted (h : parse file tokens = (.ok program, p)) :
    (Parser.ofTokens tokens).Accounts (Cursor.ofTokens tokens).tokens program.mentions := by
  obtain ⟨read, answered⟩ := Grammar.reads_file h
  have ending : p.silent.Accounts (Cursor.ofTokens tokens).tokens [] :=
    .nil (Scopes.unresolved?_eq_none_iff.1 answered)
  have acc := read.accounted rfl (Parser.ready_ofTokens tokens) ending
  rwa [List.append_nil] at acc

theorem sound_of_accepted (h : parse file tokens = (.ok program, p)) :
    Always (Mention.Sound (Cursor.ofTokens tokens).tokens) .start program.mentions :=
  (accounts_of_accepted h).sound

private theorem eq_of_fst {α β : Type} {x : α × β} {a : α} (h : x.1 = a) : x = (a, x.2) := by
  obtain ⟨_, b⟩ := x
  obtain rfl := h
  rfl

/-- A token on the first line of a file. -/
def word (offset : Nat) (kind : Kind) (text : String) : Token :=
  ⟨kind, text, ⟨offset, 1, offset + 1⟩⟩

/-- `func f(x: i32) { x += g(x) }; func g(y: i32) -> i32 { return y }`. -/
def calledAhead : List Token :=
  [word 0 .kwFunc "func", word 5 .identifier "f", word 6 .openParen "(",
    word 7 .identifier "x", word 8 .colon ":", word 10 .identifier "i32",
    word 13 .closeParen ")", word 15 .openCurly "\x7b", word 17 .identifier "x",
    word 19 .plusAssign "+=", word 22 .identifier "g", word 23 .openParen "(",
    word 24 .identifier "x", word 25 .closeParen ")", word 27 .closeCurly "\x7d",
    word 28 .semicolon ";", word 30 .kwFunc "func", word 35 .identifier "g",
    word 36 .openParen "(", word 37 .identifier "y", word 38 .colon ":",
    word 40 .identifier "i32", word 43 .closeParen ")", word 45 .arrow "->",
    word 48 .identifier "i32", word 52 .openCurly "\x7b", word 54 .kwReturn "return",
    word 61 .identifier "y", word 63 .closeCurly "\x7d"]

/-- The tree of that file. -/
def calledAheadTree : Program where
  attributes := []
  statements :=
    [.function ⟨word 0 .kwFunc "func", word 5 .identifier "f",
        [⟨some (word 7 .identifier "x"), word 10 .identifier "i32"⟩], none⟩
      [.assign (word 17 .identifier "x") (.binary .plus (word 19 .plusAssign "+=")
        (.reference (word 17 .identifier "x") .integer)
        (.call (word 22 .identifier "g") [.reference (word 24 .identifier "x") .integer]
          (some .integer)) .integer)],
    .function ⟨word 30 .kwFunc "func", word 35 .identifier "g",
        [⟨some (word 37 .identifier "y"), word 40 .identifier "i32"⟩],
        some (word 48 .identifier "i32")⟩
      [.giveBack (word 54 .kwReturn "return") (.reference (word 61 .identifier "y") .integer)]]

theorem tree_calledAhead : (parse "" calledAhead).1 = .ok calledAheadTree := by
  cbv

theorem parse_calledAhead :
    parse "" calledAhead = (.ok calledAheadTree, (parse "" calledAhead).2) :=
  eq_of_fst tree_calledAhead

/-- **Accepted files are well scoped.** -/
theorem wellScoped_of_accepted (h : parse file tokens = (.ok program, p)) :
    program.WellScoped :=
  (sound_of_accepted h).imp fun _ _ _ sound => sound.1.allowed

theorem wellScoped_calledAhead :
    (parse "" calledAhead).1 = .ok calledAheadTree ∧ calledAheadTree.WellScoped :=
  ⟨tree_calledAhead, wellScoped_of_accepted parse_calledAhead⟩

/-- **Accepted files are well typed.** -/
theorem wellTyped_of_accepted (h : parse file tokens = (.ok program, p)) :
    program.WellTyped :=
  (sound_of_accepted h).imp fun _ _ _ sound => sound.1.typed

theorem wellTyped_calledAhead :
    (parse "" calledAhead).1 = .ok calledAheadTree ∧ calledAheadTree.WellTyped :=
  ⟨tree_calledAhead, wellTyped_of_accepted parse_calledAhead⟩

/-- **Calls in accepted files are typed from visible functions, or else from
the next declaration of their name.** -/
theorem typedAhead_of_accepted (h : parse file tokens = (.ok program, p)) :
    program.TypedAhead tokens := by
  refine (sound_of_accepted h).imp fun c mention later sound => ?_
  have foretold := sound.1.foretold
  cases mention with
  | evaluates value =>
      intro name arguments returns hn
      obtain ⟨bound, hb, visible | ⟨hidden, first, hf, declares⟩⟩ :=
        foretold name arguments returns hn
      · exact ⟨bound, hb, .inl visible⟩
      · exact ⟨bound, hb, .inr ⟨hidden, first, hf, declares.of_ofTokens⟩⟩
  | _ => trivial

theorem typedAhead_calledAhead :
    (parse "" calledAhead).1 = .ok calledAheadTree ∧ calledAheadTree.TypedAhead calledAhead :=
  ⟨tree_calledAhead, typedAhead_of_accepted parse_calledAhead⟩

/-! ## §4. Calls that are typed from another declaration. -/

/-- `foo(); func g() { @import_symbol foo() -> i32; }; func foo() -> f64 {}`.
The call stands for the last function, and the import is declared first. -/
def importedInBetween : List Token :=
  [word 0 .identifier "foo", word 3 .openParen "(", word 4 .closeParen ")",
    word 5 .semicolon ";", word 7 .kwFunc "func", word 12 .identifier "g",
    word 13 .openParen "(", word 14 .closeParen ")", word 16 .openCurly "\x7b",
    word 18 .attribute "@import_symbol", word 33 .identifier "foo", word 36 .openParen "(",
    word 37 .closeParen ")", word 39 .arrow "->", word 42 .identifier "i32",
    word 45 .semicolon ";", word 47 .closeCurly "\x7d", word 48 .semicolon ";",
    word 50 .kwFunc "func", word 55 .identifier "foo", word 58 .openParen "(",
    word 59 .closeParen ")", word 61 .arrow "->", word 64 .identifier "f64",
    word 68 .openCurly "\x7b", word 69 .closeCurly "\x7d"]

/-- The tree of that file. -/
def importedInBetweenTree : Program where
  attributes := []
  statements :=
    [.expression (.call (word 0 .identifier "foo") [] (some .integer)),
      .function ⟨word 7 .kwFunc "func", word 12 .identifier "g", [], none⟩
        [.attribute ⟨word 18 .attribute "@import_symbol",
          some (.imported ⟨word 18 .attribute "@import_symbol", word 33 .identifier "foo", [],
            some (word 42 .identifier "i32")⟩)⟩],
      .function ⟨word 50 .kwFunc "func", word 55 .identifier "foo", [],
        some (word 64 .identifier "f64")⟩ []]

/-- `@a (foo()); @import_symbol foo((u8)) -> i32`.  The type stands behind the
second closing parenthesis. -/
def importedInParentheses : List Token :=
  [word 0 .attribute "@a", word 3 .openParen "(", word 4 .identifier "foo",
    word 7 .openParen "(", word 8 .closeParen ")", word 9 .closeParen ")",
    word 10 .semicolon ";", word 12 .attribute "@import_symbol", word 27 .identifier "foo",
    word 30 .openParen "(", word 31 .openParen "(", word 32 .identifier "u8",
    word 34 .closeParen ")", word 35 .closeParen ")", word 37 .arrow "->",
    word 40 .identifier "i32"]

/-- The tree of that file. -/
def importedInParenthesesTree : Program where
  attributes :=
    [⟨word 0 .attribute "@a", some (.expression (.call (word 4 .identifier "foo") [] none))⟩,
      ⟨word 12 .attribute "@import_symbol",
        some (.imported ⟨word 12 .attribute "@import_symbol", word 27 .identifier "foo",
          [⟨none, word 32 .identifier "u8"⟩], some (word 40 .identifier "i32")⟩)⟩]
  statements := []

/-- The function that the call in `importedInBetween` stands for. -/
def lastFoo : Symbol :=
  Signature.symbol ⟨word 50 .kwFunc "func", word 55 .identifier "foo", [],
    some (word 64 .identifier "f64")⟩

/-- The function that the call in `importedInParentheses` stands for. -/
def importedFoo : Symbol :=
  Signature.symbol ⟨word 12 .attribute "@import_symbol", word 27 .identifier "foo",
    [⟨none, word 32 .identifier "u8"⟩], some (word 40 .identifier "i32")⟩

/-- **Two accepted files with a call that has not the type of its function.**
The first call has the type of the import, the second one has none. -/
theorem not_agreesWithCallees_of_accepted :
    ((parse "" importedInBetween).1 = .ok importedInBetweenTree
        ∧ ¬importedInBetweenTree.AgreesWithCallees)
      ∧ (parse "" importedInParentheses).1 = .ok importedInParenthesesTree
        ∧ ¬importedInParenthesesTree.AgreesWithCallees := by
  refine ⟨⟨by cbv, fun agrees => ?_⟩, by cbv, fun agrees => ?_⟩
  · obtain ⟨bound, found, type⟩ :=
      agrees.1 (word 0 .identifier "foo") [] (some .integer) (List.mem_singleton.2 rfl)
    have same : bound = lastFoo := by
      refine Option.some.inj (found.symm.trans ?_)
      cbv
    subst same
    cases type
  · obtain ⟨bound, found, type⟩ :=
      agrees.2.1 (word 4 .identifier "foo") [] none (List.mem_singleton.2 rfl)
    have same : bound = importedFoo := by
      refine Option.some.inj (found.symm.trans ?_)
      cbv
    subst same
    cases type

end ImpFront
