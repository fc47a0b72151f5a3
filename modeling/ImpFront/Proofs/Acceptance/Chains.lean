/-
  ImpFront.Proofs.Acceptance.Chains
  ─────────────────────────────────
  **WHERE THE CONDITIONS OF A TREE ARE READ.**

  Every `if` of a tree begins a chain: its condition, its body, and what the
  chain goes on with.  For each one in what was read, at whatever depth, there
  is the place in the file where its chain was read, and in it the place right
  behind its own body:

      p   …   if c {  …  }   …   q
                           ↑
              here an `else` comes next  ↔  the chain goes on, and then
                                            it is read from that `else`

  Places are compared by the tokens from there on: what is left at one is a
  suffix of what was left at an earlier one.
-/
import ImpFront.Proofs.Grammar.Pairing

namespace ImpFront

/-! ## §1. Chains. -/

/-- An `if` with its body, and what its chain goes on with. -/
structure Chain where
  /-- The condition. -/
  condition : Expr
  /-- The body. -/
  body : List Stmt
  /-- What the chain goes on with. -/
  otherwise : Otherwise

mutual

/-- The chains in a statement, one for each `if` in it, however deep. -/
def Stmt.chains : Stmt → List Chain
  | .function _ body | .repeatWhile _ body => chainsOfAll body
  | .conditional condition body otherwise =>
    ⟨condition, body, otherwise⟩ :: (chainsOfAll body ++ otherwise.chains)
  | .declare _ _ _ | .leaveLoop _ | .nextRound _ | .giveBack _ _ | .assign _ _ | .attribute _
  | .expression _ => []

/-- The chains in the rest of a chain. -/
def Otherwise.chains : Otherwise → List Chain
  | .nothing => []
  | .block body => chainsOfAll body
  | .chain condition body otherwise =>
    ⟨condition, body, otherwise⟩ :: (chainsOfAll body ++ otherwise.chains)

/-- The chains in some statements. -/
def chainsOfAll : List Stmt → List Chain
  | [] => []
  | s :: rest => s.chains ++ chainsOfAll rest

end

/-- The chains in a phrase. -/
def Phrase.chains : Phrase → List Chain
  | .clause s | .statement s => s.chains
  | .body ss | .block ss | .framed _ ss | .file ss => chainsOfAll ss
  | .chain condition ss otherwise =>
    ⟨condition, ss, otherwise⟩ :: (chainsOfAll ss ++ otherwise.chains)
  | _ => []

/-! ## §2. Between two places. -/

/-- One place is another, or stands in front of it. -/
def Parser.NotAfter (p q : Parser) : Prop :=
  q.cursor.rest <:+ p.cursor.rest

namespace Parser.NotAfter

variable {p q r : Parser}

theorem refl (p : Parser) : p.NotAfter p :=
  List.suffix_rfl

theorem trans (h : p.NotAfter q) (h' : q.NotAfter r) : p.NotAfter r :=
  List.IsSuffix.trans h' h

theorem next (h : p.NotAfter q) : p.NotAfter q.next :=
  h.trans q.isSuffix_next

theorem past {test : Kind → Bool} (h : p.NotAfter q) : p.NotAfter (q.past test) :=
  h.trans (q.isSuffix_past test)

theorem pastLines (h : p.NotAfter q) : p.NotAfter q.pastLines :=
  h.past

theorem pastSeparators (h : p.NotAfter q) : p.NotAfter q.pastSeparators :=
  h.past

theorem withScopes (h : p.NotAfter q) (s : Scopes) : p.NotAfter (q.withScopes s) :=
  h

theorem reads {phrase : Phrase} (h : p.NotAfter q) (read : Reads phrase q r) : p.NotAfter r :=
  h.trans read.isSuffix

end Parser.NotAfter

/-- The chain is read between two places. -/
def Chain.ReadWithin (chain : Chain) (p q : Parser) : Prop :=
  ∃ start finish, Reads (.chain chain.condition chain.body chain.otherwise) start finish
    ∧ p.NotAfter start ∧ finish.NotAfter q

theorem Chain.ReadWithin.widen {chain : Chain} {p p' q q' : Parser} (h : chain.ReadWithin p q)
    (earlier : p'.NotAfter p) (later : q.NotAfter q') : chain.ReadWithin p' q' := by
  obtain ⟨start, finish, read, hstart, hfinish⟩ := h
  exact ⟨start, finish, read, earlier.trans hstart, hfinish.trans later⟩

open ImpFront.Parser (NotAfter)

/-- **Each chain in what is read is read in between.** -/
theorem Reads.chains {phrase : Phrase} {p q : Parser} (h : Reads phrase p q) :
    ∀ chain ∈ phrase.chains, chain.ReadWithin p q := by
  induction h with
  | @function p q r u _ _ _ s t _ _ _ _ _ _ parameters returns _ _ _ _ _ _ ihb =>
      have opened : p.NotAfter (p.next.next.next.withScopes s).pastLines :=
        ((NotAfter.refl p).next.next.next.withScopes s).pastLines
      have head := ((opened.reads parameters).reads returns).pastLines.withScopes t
      exact fun chain hm => (ihb chain hm).widen head (.refl u)
  | conditional _ ih => exact ih
  | @lastLink p q r _ _ keyword condition body last _ ihb =>
      have front := ((NotAfter.refl p).next.reads condition).pastLines
      rw [Phrase.chains, Otherwise.chains, List.append_nil]
      refine List.forall_mem_cons.2 ⟨?_, fun chain hm => (ihb chain hm).widen front (.refl r)⟩
      exact ⟨p, r, .lastLink keyword condition body last, .refl p, .refl r⟩
  | @elseLink p q r u _ _ _ keyword condition body word other block _ ihb ihe =>
      have front := ((NotAfter.refl p).next.reads condition).pastLines
      have behind := (front.reads body).pastLines.next.pastLines
      have ending := ((NotAfter.refl r).pastLines.next.pastLines.reads block)
      refine List.forall_mem_cons.2 ⟨?_, List.forall_mem_append.2 ⟨?_, ?_⟩⟩
      · exact ⟨p, u, .elseLink keyword condition body word other block, .refl p, .refl u⟩
      · exact fun chain hm => (ihb chain hm).widen front ending
      · exact fun chain hm => (ihe chain hm).widen behind (.refl u)
  | @nextLink p q r u _ _ _ _ _ s t keyword condition body more again enters next exits _ ihb
      ihe =>
      have front := ((NotAfter.refl p).next.reads condition).pastLines
      have behind := (front.reads body).pastLines.next.pastLines
      have word := (NotAfter.refl r).pastLines.next.pastLines.withScopes s
      have ending : r.NotAfter (u.withScopes t) := (word.reads next).withScopes t
      refine List.forall_mem_cons.2 ⟨?_, List.forall_mem_append.2 ⟨?_, ?_⟩⟩
      · exact ⟨p, u.withScopes t, .nextLink keyword condition body more again enters next exits,
          .refl p, .refl _⟩
      · exact fun chain hm => (ihb chain hm).widen front ending
      · exact fun chain hm => (ihe chain hm).widen behind (.refl u)
  | @repeatWhile p q r _ _ _ condition _ _ ihb =>
      have front := ((NotAfter.refl p).next.reads condition).pastLines
      exact fun chain hm => (ihb chain hm).widen front (.refl r)
  | statement _ _ ih => exact ih
  | @body p q r _ _ _ _ first rest ihs ihb =>
      have behind := ((NotAfter.refl p).reads first).pastSeparators
      have ending := (NotAfter.refl q).pastSeparators.reads rest
      refine List.forall_mem_append.2 ⟨?_, ?_⟩
      · exact fun chain hm => (ihs chain hm).widen (.refl p) ending
      · exact fun chain hm => (ihb chain hm).widen behind (.refl r)
  | @block p q _ _ _ _ ih =>
      have front : p.NotAfter p.next.inBlock.pastSeparators := (NotAfter.refl p).next.pastSeparators
      have ending : q.NotAfter q.outOfBlock.next := (NotAfter.refl q).next
      exact fun chain hm => (ih chain hm).widen front ending
  | framed _ _ _ _ ih => exact ih
  | @file p q r _ _ _ first rest ihs ihb =>
      have front := (NotAfter.refl p).pastSeparators
      refine List.forall_mem_append.2 ⟨?_, ?_⟩
      · exact fun chain hm => (ihs chain hm).widen front ((NotAfter.refl q).reads rest)
      · exact fun chain hm => (ihb chain hm).widen (front.reads first) (.refl r)
  | _ => exact List.forall_mem_nil _

/-! ## §3. Behind a body. -/

/-- From right behind a body the rest of its chain is read, up to a place: from
the `else` on that comes next, if there is a rest. -/
def Otherwise.ReadBehind : Otherwise → Parser → Parser → Prop
  | .nothing, behind, finish => finish = behind
  | .block body, behind, finish =>
    Reads (.framed .conditional body) behind.pastLines.next.pastLines finish
  | .chain condition body otherwise, behind, finish =>
    ∃ s, Scopes.enter .conditional behind.scopes = .ok () s
      ∧ Reads (.chain condition body otherwise)
        (behind.pastLines.next.pastLines.withScopes s) finish

/-- Right behind a body the rest of its chain follows, or nothing does. -/
structure Otherwise.Attached (otherwise : Otherwise) (behind finish : Parser) : Prop where
  /-- The body ends with a closing brace. -/
  brace : ∃ closing, behind.cursor.behind.head? = some closing ∧ closing.kind = .closeCurly
  /-- Behind line ends an `else` comes next exactly if the chain goes on. -/
  else_iff : behind.pastLines.kind = .kwElse ↔ otherwise ≠ .nothing
  /-- What it goes on with is read from that `else` on. -/
  read : otherwise.ReadBehind behind finish

/-- Between two places the body of the chain is read, and its rest behind it. -/
def Chain.AttachedWithin (chain : Chain) (p q : Parser) : Prop :=
  ∃ start behind finish, p.NotAfter start ∧ Reads (.framed .conditional chain.body) start behind
    ∧ chain.otherwise.Attached behind finish ∧ finish.NotAfter q

/-- The token behind a block is its closing brace. -/
theorem Reads.behind_framed {kind : FrameKind} {ss : List Stmt} {p q : Parser}
    (h : Reads (.framed kind ss) p q) :
    ∃ closing, q.cursor.behind.head? = some closing ∧ closing.kind = .closeCurly := by
  cases h with
  | framed _ _ inside _ =>
    cases inside with
    | @block _ q _ _ _ closing =>
      have inner : q.kind ≠ .eof := by rw [closing]; decide
      exact ⟨q.current, Cursor.head?_behind_advance inner, closing⟩

theorem Chain.ReadWithin.attached {chain : Chain} {p q : Parser} (h : chain.ReadWithin p q) :
    chain.AttachedWithin p q := by
  obtain ⟨condition, body, otherwise⟩ := chain
  obtain ⟨start, finish, read, hstart, hfinish⟩ := h
  cases read with
  | lastLink _ condition block last =>
      exact ⟨_, _, _, (hstart.next.reads condition).pastLines, block,
        ⟨block.behind_framed, iff_of_false last (fun other => other rfl), rfl⟩, hfinish⟩
  | elseLink _ condition block word _ rest =>
      exact ⟨_, _, _, (hstart.next.reads condition).pastLines, block,
        ⟨block.behind_framed, iff_of_true word (by simp), rest⟩, hfinish⟩
  | @nextLink _ _ _ u _ _ _ _ _ _ _ _ condition block word _ enters rest _ =>
      exact ⟨_, _, u, (hstart.next.reads condition).pastLines, block,
        ⟨block.behind_framed, iff_of_true word (by simp), _, enters, rest⟩, hfinish⟩

/-- **Each chain in what is read is attached:** behind the body of each `if`, at
every depth, an `else` comes next exactly if its chain goes on. -/
theorem Reads.attached_chains {phrase : Phrase} {p q : Parser} (h : Reads phrase p q) :
    ∀ chain ∈ phrase.chains, chain.AttachedWithin p q :=
  fun chain hm => (h.chains chain hm).attached

end ImpFront
