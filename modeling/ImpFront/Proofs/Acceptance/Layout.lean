/-
  ImpFront.Proofs.Acceptance.Layout
  ─────────────────────────────────
  **STATEMENTS ARE SEPARATED, AND BRACES BELONG TO BLOCKS.**

  How the tokens of an accepted file are laid out is said as a language, along
  the tree:

      block      {  separators  rows  }
      rows       statement  gap  statement  gap  …  statement  separators
      statement  tokens without braces, and a block for each of its bodies

  A gap is a run of separators, and not empty.  A statement has the tokens that
  it was read from.  So every brace is one of a block of the tree, the blocks
  of the tree are nested as the braces are, and a closing brace ends the last
  statement of the block that it closes, and no other.

  Whether a statement may end at a closing brace is asked of a count of open
  blocks.  It is zero wherever a statement of the file is read.
-/
import Mathlib
import ImpFront.Proofs.Acceptance.Attributes
import ImpFront.Proofs.Acceptance.Completeness
import ImpFront.Proofs.Grammar.Visiting

namespace ImpFront

open Cursor (Over)
open DyckStep (U D)

/-! ## §1. Languages of tokens. -/

/-- One token of that kind. -/
def oneToken (kind : Kind) : Language Token :=
  {w | ∃ token : Token, w = [token] ∧ token.kind = kind}

/-- The token is no brace. -/
def Token.Braceless (token : Token) : Prop :=
  token.kind ≠ .openCurly ∧ token.kind ≠ .closeCurly

/-- No token is a brace. -/
def braceless : Language Token :=
  {w | ∀ token ∈ w, token.Braceless}

/-- Every token is a line end or a semicolon. -/
def separators : Language Token :=
  {w | ∀ token ∈ w, token.kind.isTerminator = true}

/-- Separators in front of the statements, at least one if there are any. -/
def gap (rest : List Stmt) : Language Token :=
  {w | w ∈ separators ∧ (rest ≠ [] → w ≠ [])}

/-- What stands between two braces. -/
def braced (inside : Language Token) : Language Token :=
  oneToken .openCurly * inside * oneToken .closeCurly

/-- The tokens that the statement is read from, at a place where reading the
file comes by. -/
def Stmt.readFrom (tokens : List Token) (s : Stmt) : Language Token :=
  {own | ∃ p q, Visits tokens .statement p ∧ Reads (.statement s) p q
    ∧ p.cursor.ahead = own ++ q.cursor.ahead}

/-! ## §2. The layout of a tree. -/

section

variable (tokens : List Token)

mutual

/-- How a statement is laid out. -/
def Stmt.layout : Stmt → Language Token
  | .function _ body | .repeatWhile _ body => braceless * braced (separators * rows body)
  | .conditional _ body otherwise =>
    braceless * (braced (separators * rows body) * otherwise.layout)
  | .declare _ _ _ | .leaveLoop _ | .nextRound _ | .giveBack _ _ | .assign _ _ | .attribute _
  | .expression _ => braceless

/-- How the rest of a chain of conditions is laid out. -/
def Otherwise.layout : Otherwise → Language Token
  | .nothing => 1
  | .block body => braceless * braced (separators * rows body)
  | .chain _ body otherwise =>
    braceless * (braced (separators * rows body) * otherwise.layout)

/-- How statements are laid out one behind the other. -/
def rows : List Stmt → Language Token
  | [] => 1
  | s :: rest => (s.readFrom tokens ⊓ s.layout) * gap rest * rows rest

end

end

/-! ## §3. The blocks of a tree. -/

mutual

/-- The blocks of a statement, as a word of brackets. -/
def Stmt.blocks : Stmt → DyckWord
  | .function _ body | .repeatWhile _ body => (blocksOfAll body).nest
  | .conditional _ body otherwise => (blocksOfAll body).nest + otherwise.blocks
  | .declare _ _ _ | .leaveLoop _ | .nextRound _ | .giveBack _ _ | .assign _ _ | .attribute _
  | .expression _ => 0

/-- The blocks of the rest of a chain of conditions. -/
def Otherwise.blocks : Otherwise → DyckWord
  | .nothing => 0
  | .block body => (blocksOfAll body).nest
  | .chain _ body otherwise => (blocksOfAll body).nest + otherwise.blocks

/-- The blocks of some statements. -/
def blocksOfAll : List Stmt → DyckWord
  | [] => 0
  | s :: rest => s.blocks + blocksOfAll rest

end

/-- A brace as a bracket. -/
def Token.bracket? (token : Token) : Option DyckStep :=
  match token.kind with
  | .openCurly => some U
  | .closeCurly => some D
  | _ => none

/-- The braces among some tokens. -/
def brackets (tokens : List Token) : List DyckStep :=
  tokens.filterMap Token.bracket?

/-- The braces of a text of the language are these. -/
def Brackets (l : Language Token) (word : DyckWord) : Prop :=
  ∀ w ∈ l, brackets w = word.toList

namespace Brackets

variable {l m : Language Token} {a b : DyckWord}

theorem one : Brackets 1 0 := by
  intro w hw
  rw [(Language.mem_one w).1 hw]
  rfl

theorem mul (h : Brackets l a) (h' : Brackets m b) : Brackets (l * m) (a + b) := by
  intro w hw
  obtain ⟨front, hf, back, hb, rfl⟩ := Language.mem_mul.1 hw
  unfold brackets
  rw [List.filterMap_append]
  exact congrArg₂ (· ++ ·) (h front hf) (h' back hb)

theorem inf (h : Brackets m b) : Brackets (l ⊓ m) b :=
  fun w hw => h w hw.2

theorem braceless : Brackets braceless 0 := by
  intro w hw
  refine List.filterMap_eq_nil_iff.2 fun token hm => ?_
  obtain ⟨opening, closing⟩ := hw token hm
  unfold Token.bracket?
  split
  · next same => exact absurd same opening
  · next same => exact absurd same closing
  · rfl

theorem separators : Brackets separators 0 := by
  intro w hw
  refine List.filterMap_eq_nil_iff.2 fun token hm => ?_
  have separator := hw token hm
  unfold Token.bracket?
  split
  · next same => rw [same] at separator; cases separator
  · next same => rw [same] at separator; cases separator
  · rfl

theorem gap (rest : List Stmt) : Brackets (gap rest) 0 :=
  fun w hw => separators w hw.1

theorem braced (h : Brackets l a) : Brackets (braced l) a.nest := by
  intro w hw
  obtain ⟨_, hfront, _, ⟨closing, rfl, hclosing⟩, rfl⟩ := Language.mem_mul.1 hw
  obtain ⟨_, ⟨opening, rfl, hopening⟩, inside, hinside, rfl⟩ := Language.mem_mul.1 hfront
  have first : opening.bracket? = some U := by simp [Token.bracket?, hopening]
  have last : closing.bracket? = some D := by simp [Token.bracket?, hclosing]
  unfold brackets
  rw [List.filterMap_append, List.filterMap_append, List.filterMap_cons_some first,
    List.filterMap_cons_some last]
  exact congrArg (fun between => [U] ++ between ++ [D]) (h inside hinside)

/-- A block. -/
theorem block (h : Brackets l a) :
    Brackets (ImpFront.braced (ImpFront.separators * l)) a.nest := by
  simpa using (separators.mul h).braced

/-- Tokens without braces in front make no difference. -/
theorem behind (h : Brackets l a) : Brackets (ImpFront.braceless * l) a := by
  simpa using braceless.mul h

end Brackets

section

variable (tokens : List Token)

mutual

/-- **The braces of a statement are those of its blocks.** -/
theorem Stmt.brackets_layout : ∀ s : Stmt, Brackets (s.layout tokens) s.blocks
  | .function _ body | .repeatWhile _ body => (brackets_rows body).block.behind
  | .conditional _ body otherwise =>
      ((brackets_rows body).block.mul otherwise.brackets_layout).behind
  | .declare _ _ _ | .leaveLoop _ | .nextRound _ | .giveBack _ _ | .assign _ _ | .attribute _
  | .expression _ => .braceless

theorem Otherwise.brackets_layout : ∀ otherwise : Otherwise,
    Brackets (otherwise.layout tokens) otherwise.blocks
  | .nothing => .one
  | .block body => (brackets_rows body).block.behind
  | .chain _ body otherwise =>
      ((brackets_rows body).block.mul otherwise.brackets_layout).behind

theorem brackets_rows : ∀ ss : List Stmt, Brackets (rows tokens ss) (blocksOfAll ss)
  | [] => .one
  | s :: rest => by
      rw [rows, blocksOfAll]
      simpa using (s.brackets_layout.inf.mul (.gap rest)).mul (brackets_rows rest)

end

end

/-! ## §4. Tokens between two places. -/

namespace Cursor

/-- The tokens from one cursor to another are in the language. -/
def Passes (l : Language Token) (c d : Cursor) : Prop :=
  ∃ w ∈ l, c.ahead = w ++ d.ahead

namespace Passes

variable {l m : Language Token} {c d e : Cursor}

theorem nothing (c : Cursor) : Passes 1 c c :=
  ⟨[], (Language.mem_one _).2 rfl, rfl⟩

theorem mul (h : Passes l c d) (h' : Passes m d e) : Passes (l * m) c e := by
  obtain ⟨front, hf, split⟩ := h
  obtain ⟨back, hb, split'⟩ := h'
  exact ⟨front ++ back, Language.mem_mul.2 ⟨front, hf, back, hb, rfl⟩, by
    rw [split, split', List.append_assoc]⟩

theorem braceless (h : Over Token.Braceless c d) : Passes braceless c d := by
  obtain ⟨w, split, all⟩ := h.ahead
  exact ⟨w, all, split⟩

/-- Tokens without braces may be joined. -/
theorem absorb (h : Passes ImpFront.braceless c d) (h' : Passes (ImpFront.braceless * l) d e) :
    Passes (ImpFront.braceless * l) c e := by
  obtain ⟨front, hf, split⟩ := h
  obtain ⟨_, hw, split'⟩ := h'
  obtain ⟨middle, hm, back, hb, rfl⟩ := Language.mem_mul.1 hw
  refine ⟨front ++ middle ++ back, Language.mem_mul.2 ⟨_, ?_, back, hb, rfl⟩, ?_⟩
  · exact fun token ht => (List.mem_append.1 ht).elim (hf token) (hm token)
  · rw [split, split', List.append_assoc, List.append_assoc, List.append_assoc]

theorem oneToken {kind : Kind} (h : c.current.kind = kind) (inner : kind ≠ .eof) :
    Passes (oneToken kind) c c.advance := by
  cases ha : c.ahead with
  | nil =>
      have final : c.current = c.final := by simp [current, peek, ha]
      rw [final, c.final_kind] at h
      exact absurd h.symm inner
  | cons token rest =>
      have current : c.current = token := by simp [current, peek, ha]
      refine ⟨[token], ⟨token, rfl, current ▸ h⟩, ?_⟩
      simp [advance, ha]

end Passes

end Cursor

open Cursor (Passes)

theorem Token.Unmarked.braceless {token : Token} (h : token.Unmarked) : token.Braceless := by
  unfold Token.Unmarked at h
  constructor
  · intro opening
    rw [opening] at h
    cases h
  · intro closing
    rw [closing] at h
    cases h

namespace Parser

variable {p : Parser}

theorem passes_unmarked {q : Parser} (h : Over Token.Unmarked p.cursor q.cursor) :
    Passes braceless p.cursor q.cursor :=
  .braceless (h.imp fun _ => Token.Unmarked.braceless)

theorem passes_pastSeparators (p : Parser) :
    Passes separators p.cursor p.pastSeparators.cursor := by
  obtain ⟨w, split, all⟩ := (Parser.over_pastSeparators (fun _ => id) p).ahead
  exact ⟨w, all, split⟩

/-- **Between two statements there is a separator.**  Where a statement has
ended and another one begins behind the separators, the place of the end is no
closing brace. -/
theorem passes_gap {rest : List Stmt} (ending : p.atStatementEnd = true)
    (more : rest ≠ [] → p.pastSeparators.kind ≠ .eof
      ∧ (p.pastSeparators.kind ≠ .closeCurly ∨ p.blockDepth = 0)) :
    Passes (gap rest) p.cursor p.pastSeparators.cursor := by
  obtain ⟨w, all, split⟩ := p.passes_pastSeparators
  refine ⟨w, ⟨all, fun hrest none => ?_⟩, split⟩
  obtain ⟨inner, outside⟩ := more hrest
  have other := p.kind_pastSeparators
  -- without a separator the next statement begins where this one has ended
  have same : p.pastSeparators.kind = p.current.kind := by
    rw [none, List.nil_append] at split
    unfold Parser.kind Parser.current Cursor.current Cursor.peek
    rw [split]
    rfl
  rw [same] at inner outside other
  unfold Parser.atStatementEnd at ending
  split at ending
  · next line => rw [line] at other; cases other
  · next semicolon => rw [semicolon] at other; cases other
  · next final => exact inner final
  · next closing =>
    -- a closing brace ends a statement in a block only, and none begins with one there
    have zero := outside.resolve_left fun here => here closing
    rw [zero] at ending
    cases ending
  · cases ending

end Parser

/-! ## §5. Reading. -/

/-- The block depth is that of the file wherever a statement of it is read. -/
theorem Visits.blockDepth {tokens : List Token} {p : Parser} (h : Visits tokens .file p) :
    p.blockDepth = 0 := by
  generalize hplace : Place.file = place at h
  induction h with
  | start => rfl
  | behind _ _ hstatement ih => exact hstatement.blockDepth.trans (ih hplace)
  | _ => cases hplace

/-- Reading the file comes by where the phrase begins. -/
def Phrase.Visited (tokens : List Token) (p : Parser) : Phrase → Prop
  | .clause _ | .statement _ => Visits tokens .statement p
  | .body _ => Visits tokens .body p
  | .block _ => Visits tokens .block p
  | .framed kind _ => ∀ s, Scopes.enter kind p.scopes = .ok () s →
    Visits tokens .block (p.withScopes s)
  | .chain _ _ _ => Visits tokens .chain p
  | .file _ => Visits tokens .file p
  | .operand _ | .operators _ _ _ | .expr _ _ | .arguments _ | .parameters _ | .returns _ => True

/-- How a phrase is laid out. -/
def Phrase.layout (tokens : List Token) : Phrase → Language Token
  | .clause s | .statement s => s.layout tokens
  | .body ss | .file ss => rows tokens ss
  | .block ss | .framed _ ss => braced (separators * rows tokens ss)
  | .chain condition ss otherwise =>
    (Stmt.conditional condition ss otherwise).layout tokens
  | .operand _ | .operators _ _ _ | .expr _ _ | .arguments _ | .parameters _ | .returns _ =>
    braceless

/-- Where the layout of a phrase begins: that of a file behind the separators
in front of its statements. -/
def Phrase.start (p : Parser) : Phrase → Parser
  | .file _ => p.pastSeparators
  | _ => p

/-- A statement without blocks has no braces. -/
theorem Reads.braceless_clause {s : Stmt} {p q : Parser} (h : Reads (.clause s) p q)
    (short : s.hasBody = false) : Over Token.Braceless p.cursor q.cursor := by
  cases hs : s.attached? with
  | none => exact (h.unmarked_clause short hs).imp fun _ => Token.Unmarked.braceless
  | some attached =>
      cases s with
      | «attribute» =>
          obtain ⟨keyword, -, value⟩ := h.unmarked_attribute
          have first : p.current.Braceless := by
            have keyword : p.current.kind = .attribute := keyword
            unfold Token.Braceless
            rw [keyword]
            decide
          exact (Over.one first).trans (value.imp fun _ => Token.Unmarked.braceless)
      | _ => cases hs

theorem Reads.kind_of_chain {condition : Expr} {body : List Stmt} {otherwise : Otherwise}
    {p q : Parser} (h : Reads (.chain condition body otherwise) p q) : p.kind = .kwIf := by
  cases h with
  | lastLink keyword | elseLink keyword | nextLink keyword => exact keyword

theorem Reads.statement_ends {s : Stmt} {p q : Parser} (h : Reads (.statement s) p q) :
    q.atStatementEnd = true := by
  cases h with
  | statement _ ending => exact ending

/-- A statement is read from the tokens that it passes. -/
theorem Reads.passes_own {tokens : List Token} {s : Stmt} {p q : Parser}
    (h : Reads (.statement s) p q) (visited : Visits tokens .statement p)
    (laid : Passes (s.layout tokens) p.cursor q.cursor) :
    Passes (s.readFrom tokens ⊓ s.layout tokens) p.cursor q.cursor := by
  obtain ⟨own, hown, split⟩ := laid
  exact ⟨own, ⟨⟨p, q, visited, h, split⟩, hown⟩, split⟩

open ImpFront.Parser

/-- **What is read is laid out.** -/
theorem Reads.laid {tokens : List Token} {phrase : Phrase} {p q : Parser} (h : Reads phrase p q)
    (long : phrase.isLong = true) (visited : phrase.Visited tokens p) :
    Passes (phrase.layout tokens) (phrase.start p).cursor q.cursor := by
  induction h with
  | function keyword name opening he parameters returns hd _ _ _ _ _ ih =>
      have head := Heads.intro keyword name opening he parameters returns hd
      exact (passes_unmarked head.unmarked).mul (ih rfl (.function visited head))
  | conditional chain ih => exact ih rfl (.conditional visited chain.kind_of_chain)
  | lastLink keyword condition _ _ ihc ih =>
      have block := ih rfl fun s he => .link visited condition he
      have head := passes_unmarked (condition.unmarked_condition keyword rfl)
      exact head.mul (block.mul (.nothing _))
  | elseLink keyword condition body more last _ ihc ihb ihe =>
      have block := ihb rfl fun s he => .link visited condition he
      have block' := ihe rfl fun s he => .otherwise visited condition body more last he
      have head := passes_unmarked (condition.unmarked_condition keyword rfl)
      have word := passes_unmarked (Parser.unmarked_else more)
      exact head.mul (block.mul (word.mul block'))
  | nextLink keyword condition body more again he _ _ _ ihb ihe =>
      -- the words `else if` stand in front of the chain, in one gap with its condition
      have block := ihb rfl fun s he => .link visited condition he
      have chain := ihe rfl (.nextLink visited condition body more again he)
      have head := passes_unmarked (condition.unmarked_condition keyword rfl)
      have word := passes_unmarked (Parser.unmarked_else more)
      exact head.mul (block.mul (word.absorb chain))
  | repeatWhile keyword condition _ _ ih =>
      have block := ih rfl fun s he => .loop visited keyword condition he
      exact (passes_unmarked (condition.unmarked_condition keyword rfl)).mul block
  | @statement _ _ s clause _ ih =>
      -- the induction is on the blocks: what has none is known from its reading
      cases short : s.hasBody with
      | true => exact ih short visited
      | false =>
          have none := Passes.braceless (clause.braceless_clause short)
          cases s with
          | function | conditional | repeatWhile => cases short
          | _ => exact none
  | emptyBody => exact .nothing _
  | @body p q r s ss inside inner first more ihs ih =>
      have here : Visits tokens .statement p := .inner visited inside inner
      have own := first.passes_own here (ihs rfl here)
      have between : Passes (gap ss) q.cursor q.pastSeparators.cursor := by
        refine passes_gap first.statement_ends fun some => ?_
        cases more with
        | emptyBody => cases some rfl
        | body inside inner => exact ⟨inner, .inl inside⟩
      exact (own.mul between).mul (ih rfl (.behindInner visited inside inner first))
  | @block p q ss opening body closing ih =>
      have start : Passes separators p.next.cursor p.next.inBlock.pastSeparators.cursor :=
        passes_pastSeparators p.next.inBlock
      have inside := start.mul (ih rfl (.opening visited opening))
      have first : Passes (oneToken .openCurly) p.cursor p.next.cursor :=
        .oneToken opening (by decide)
      have last : Passes (oneToken .closeCurly) q.cursor q.outOfBlock.next.cursor :=
        .oneToken closing (by decide)
      exact (first.mul inside).mul last
  | framed _ he _ _ ih => exact ih rfl (visited _ he)
  | emptyFile => exact .nothing _
  | @file p q r s ss inner first more ihs ih =>
      have here : Visits tokens .statement p.pastSeparators := .first visited inner
      -- the next statement may begin with anything, but no block is open here
      have there : Visits tokens .file q := .behind visited inner first
      have between : Passes (gap ss) q.cursor q.pastSeparators.cursor := by
        refine passes_gap first.statement_ends fun some => ?_
        cases more with
        | emptyFile => cases some rfl
        | file inner => exact ⟨inner, .inr there.blockDepth⟩
      exact ((first.passes_own here (ihs rfl here)).mul between).mul (ih rfl there)
  | _ => cases long

/-! ## §6. Files. -/

variable {file : String} {tokens : List Token} {program : Program} {p : Parser}

/-- **Statements are separated, and braces belong to blocks.**  The tokens in
front of the first end token are laid out along the tree, and the braces among
them are those of its blocks. -/
theorem laidOut_of_accepted (h : parse file tokens = (.ok program, p)) :
    inner tokens ∈ separators * rows tokens program.clauses
      ∧ brackets (inner tokens) = (blocksOfAll program.clauses).toList := by
  have laid : inner tokens ∈ separators * rows tokens program.clauses := by
    obtain ⟨read, -⟩ := Grammar.reads_file h
    have front := passes_pastSeparators (Parser.ofTokens tokens)
    have statements : Passes (rows tokens program.clauses)
        (Parser.ofTokens tokens).pastSeparators.cursor p.cursor := read.laid rfl .start
    obtain ⟨w, hw, split⟩ := front.mul statements
    rwa [List.append_cancel_right (read.ahead_file.symm.trans split)]
  refine ⟨laid, ?_⟩
  have braces := Brackets.separators.mul (brackets_rows tokens program.clauses)
  rw [zero_add] at braces
  exact braces _ laid

/-- Two functions with a statement each. -/
theorem laidOut_calledAhead :
    (parse "" calledAhead).1 = .ok calledAheadTree
      ∧ inner calledAhead ∈ separators * rows calledAhead calledAheadTree.clauses
      ∧ brackets (inner calledAhead) = [U, D, U, D] := by
  obtain ⟨laid, braces⟩ := laidOut_of_accepted parse_calledAhead
  exact ⟨tree_calledAhead, laid, braces⟩

end ImpFront
