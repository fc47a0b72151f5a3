/-
  ImpFront.Proofs.Acceptance.Declaring
  ────────────────────────────────────
  **WHAT A FUNCTION LEAVES BEHIND.**

  Wherever reading comes by a function and reads it to its end, one name has
  come in, and else the tables are as they were:

      globals    as before, and the name of the function
      frames     as before
      waiting    as before, without that name, and with the calls that the
                 body could not answer, outside functions now

  Once the body has been read, nothing can go wrong any more.
-/
import ImpFront.Proofs.Acceptance.Balance
import ImpFront.Proofs.Grammar.Completeness
import ImpFront.Proofs.Grammar.Visiting
import ImpFront.Proofs.Scope.Lifecycle

namespace ImpFront

open Parse
open Scopes (Proper Kept Waits)

/-! ## §1. Head, body and end. -/

namespace Statement

/-- The head of a function, with the name bound inside it. -/
def heading : Parse Signature := do
  let keyword ← advance
  let name ← expect .identifier
  let _ ← expect .openParen
  enterScope .function keyword
  let parameters ← parameters
  let returns ← returnType
  let _ ← skipNewlines
  let signature : Signature := ⟨keyword, name, parameters, returns⟩
  define signature.symbol
  return signature

/-- The end of a function behind its body, where the name is bound outside. -/
def ending (signature : Signature) (body : List Stmt) : Parse Stmt := do
  exitScope .function
  delete signature.name.value
  define signature.symbol
  record (.function signature.name.value signature.parameters.length)
  return .function signature body

/-- A function is read head first, then its body, then its end. -/
theorem function_eq (statement : Parse Stmt) :
    function statement
      = (do
        let signature ← heading
        let body ← block statement
        ending signature body) := by
  unfold function heading ending
  simp only [bind_assoc, pure_bind]

variable {p q r u : Parser} {signature : Signature} {body : List Stmt}

theorem heads_of_heading (keyword : p.kind = .kwFunc) (h : heading p = .ok signature q) :
    Heads p.silent signature q.silent := by
  simp only [heading, bind_ok_iff, advance_ok_iff, expect_ok_iff, skipNewlines_ok_iff,
    pure_ok_iff] at h
  obtain ⟨_, _, ⟨rfl, rfl⟩, _, _, ⟨name, rfl, rfl⟩, _, _, ⟨opening, -, rfl⟩, _, a, he, ps, b, hp,
    type, c, hr, _, _, ⟨-, rfl⟩, _, d, hd, rfl, rfl⟩ := h
  obtain ⟨s, hs, ha⟩ := enterScope_ok he
  obtain ⟨t, ht, hd⟩ := define_ok hd
  have hp := reads_parameters hp
  rw [ha] at hp
  rw [hd]
  exact .intro (p := p.silent) (q := b.silent) (r := c.silent) keyword name opening hs hp
    (reads_returnType hr) ht

end Statement

/-- A function whose head and body have been read. -/
theorem Heads.lifecycle {p r u : Parser} {signature : Signature} {body : List Stmt}
    (h : Heads p signature r) (hb : Reads (.block body) r u) (hs : Proper p.scopes) :
    ∃ s, Scopes.Lifecycle signature.symbol p.scopes s r.scopes u.scopes := by
  have proper := h.proper hs
  obtain ⟨body, waits⟩ := hb.carried Waits.carried rfl proper
  cases h with
  | @intro q r ps type s t keyword _ _ he hp hr hd =>
      obtain ⟨parameters, first⟩ := hp.carried Waits.carried rfl (hs.entered he)
      obtain ⟨returns, second⟩ := hr.carried Waits.carried rfl parameters.proper
      exact ⟨r.scopes, hs, rfl, Signature.sorted_symbol (.inl keyword),
        ⟨s, he, parameters.trans returns, first.trans second⟩, hd, body, waits⟩

/-- The tokens that a function begins with. -/
theorem Heads.tokens {p r : Parser} {signature : Signature} (h : Heads p signature r) :
    signature.keyword = p.current ∧ signature.name = p.next.current := by
  cases h with
  | intro => exact ⟨rfl, rfl⟩

namespace Statement

variable {p q r u : Parser} {signature : Signature} {body : List Stmt} {stmt : Stmt} {s t : Scopes}

/-- At the end of a function its frame is left, which goes well, and with the
name nothing is taken out. -/
theorem ending_ok (lifecycle : Scopes.Lifecycle signature.symbol s t r.scopes u.scopes)
    (h : ending signature body u = .ok stmt q) :
    ∃ v, exitScope .function u = .ok () v
      ∧ stmt = .function signature body
      ∧ v.scopes.globals = s.globals
      ∧ v.scopes.delete signature.name.value = (none, v.scopes)
      ∧ Scopes.Declares signature.symbol s u.scopes q.scopes := by
  simp only [ending, bind_ok_iff, delete_ok_iff, record_ok_iff, pure_ok_iff] at h
  obtain ⟨_, v, hx, _, _, rfl, _, d, hd, _, _, rfl, rfl, rfl⟩ := h
  obtain ⟨left, hleft, hv⟩ := exitScope_ok hx
  obtain ⟨w, hw, hd⟩ := define_ok hd
  have closed : v.scopes = u.scopes.closed .function s.frames := by
    rw [lifecycle.exits] at hleft
    obtain ⟨-, rfl⟩ := EStateM.Result.ok.inj hleft
    exact (congrArg Parser.scopes hv :)
  have nothing := lifecycle.deletes_nothing
  rw [← closed] at nothing
  have bound : (d.record (.function signature.name.value signature.parameters.length)).scopes = w :=
    (congrArg Parser.scopes hd :)
  refine ⟨v, hx, rfl, ?_, nothing, ?_⟩
  · rw [closed, lifecycle.closed_eq]
  · rw [bound]
    refine lifecycle.declares ?_
    rw [← closed]
    rwa [Parser.scopes_withScopes, show (v.scopes.delete signature.name.value).2 = v.scopes from
      congrArg Prod.snd nothing] at hw

/-- Behind the body nothing goes wrong. -/
theorem ending_reached (lifecycle : Scopes.Lifecycle signature.symbol s t r.scopes u.scopes) :
    ∃ q, ending signature body u = .ok (.function signature body) q := by
  obtain ⟨w, hw⟩ := lifecycle.defines
  have nothing : ((u.scopes.closed .function s.frames).delete signature.name.value).2
      = u.scopes.closed .function s.frames := congrArg Prod.snd lifecycle.deletes_nothing
  have defines : Reaches (define signature.symbol)
      ((u.withScopes (u.scopes.closed .function s.frames)).withScopes
        ((u.scopes.closed .function s.frames).delete signature.name.value).2) () (u.withScopes w) :=
    Reaches.define (by rw [Parser.scopes_withScopes, nothing]; exact hw)
  have whole : Reaches (ending signature body) u (.function signature body) (u.withScopes w) :=
    (Reaches.exitScope lifecycle.exits).bind
      ((Reaches.delete _ _).bind (defines.bind ((Reaches.record _ _).bind (.pure _ _))))
  obtain ⟨journal, h⟩ := whole u.journal
  exact ⟨_, h⟩

end Statement

/-! ## §2. The effect of a function. -/

/-- **What the declaration of a function does to the tables.**  Let reading
come by the keyword of a function, and let its rule end well there.  Then head,
body and frame have ended well; none of them, nor the taking out of the name,
has touched a global name, and there was nothing to take out.  What the rule
leaves is the scopes it has found, with the name of the function; that name
waits no more, and the calls that waited at the end of the body do.  Where head
and body end well, so does the rule. -/
theorem function_declares {tokens : List Token} {p : Parser}
    (visits : Visits tokens .statement p.silent) (keyword : p.kind = .kwFunc) :
    (∀ stmt q, Grammar.standard.statementOf .function p = .ok stmt q →
      ∃ signature body r u v,
        Statement.heading p = .ok signature r ∧ Grammar.standard.block r = .ok body u
          ∧ exitScope .function u = .ok () v
          ∧ stmt = .function signature body
          ∧ signature.keyword = p.current ∧ signature.name = p.next.current
          ∧ r.scopes.globals = p.scopes.globals ∧ u.scopes.globals = p.scopes.globals
          ∧ v.scopes.globals = p.scopes.globals
          ∧ v.scopes.delete signature.name.value = (none, v.scopes)
          ∧ Scopes.Declares signature.symbol p.scopes u.scopes q.scopes)
    ∧ (∀ signature body r u, Statement.heading p = .ok signature r →
        Grammar.standard.block r = .ok body u →
        ∃ q, Grammar.standard.statementOf .function p = .ok (.function signature body) q) := by
  have proper : Proper p.scopes := visits.proper
  have lifecycle : ∀ {signature body r u}, Statement.heading p = .ok signature r →
      Grammar.standard.block r = .ok body u →
      ∃ t, Scopes.Lifecycle signature.symbol p.scopes t r.scopes u.scopes := by
    intro signature body r u hh hb
    have block : Reads (.block body) r.silent u.silent :=
      Statement.reads_block Grammar.reads_statement hb
    have lifecycle := (Statement.heads_of_heading keyword hh).lifecycle block proper
    exact lifecycle
  have whole : Grammar.standard.statementOf .function = (do
      let signature ← Statement.heading
      let body ← Grammar.standard.block
      Statement.ending signature body) := Statement.function_eq _
  rw [whole]
  constructor
  · intro stmt q h
    obtain ⟨signature, r, hh, h⟩ := bind_ok_iff.1 h
    obtain ⟨body, u, hb, h⟩ := bind_ok_iff.1 h
    obtain ⟨t, lifecycle⟩ := lifecycle hh hb
    obtain ⟨v, hx, rfl, globals, nothing, declares⟩ := Statement.ending_ok lifecycle h
    obtain ⟨first, second⟩ := (Statement.heads_of_heading keyword hh).tokens
    obtain ⟨-, bound, inside⟩ := lifecycle.globals_inside
    exact ⟨signature, body, r, u, v, hh, hb, hx, rfl, first, second, bound, inside, globals,
      nothing, declares⟩
  · intro signature body r u hh hb
    obtain ⟨t, lifecycle⟩ := lifecycle hh hb
    have ending : ∃ q, Statement.ending signature body u = .ok (.function signature body) q :=
      Statement.ending_reached lifecycle
    obtain ⟨q, h⟩ := ending
    exact ⟨q, bind_ok_iff.2 ⟨signature, r, hh, bind_ok_iff.2 ⟨body, u, hb, h⟩⟩⟩

/-! ### A function with a name of every sort in its body -/

/-- `foo(); func f(a: i32) { foo(); bar(); @import_symbol g(); var x: i32 }`. -/
def declaring : List Token :=
  [word 0 .identifier "foo", word 3 .openParen "(", word 4 .closeParen ")",
    word 5 .semicolon ";", word 7 .kwFunc "func", word 12 .identifier "f",
    word 13 .openParen "(", word 14 .identifier "a", word 15 .colon ":",
    word 17 .identifier "i32", word 20 .closeParen ")", word 22 .openCurly "\x7b",
    word 24 .identifier "foo", word 27 .openParen "(", word 28 .closeParen ")",
    word 29 .semicolon ";", word 31 .identifier "bar", word 34 .openParen "(",
    word 35 .closeParen ")", word 36 .semicolon ";", word 38 .attribute "@import_symbol",
    word 53 .identifier "g", word 54 .openParen "(", word 55 .closeParen ")",
    word 56 .semicolon ";", word 58 .kwVar "var", word 62 .identifier "x",
    word 63 .colon ":", word 65 .identifier "i32", word 69 .closeCurly "\x7d"]

/-- The parser behind the first call in that file. -/
def behindCall : Parser :=
  let start := Parser.ofTokens declaring
  (start.next.next.withScopes (start.scopes.mark start.current)).pastLines.next

/-- The step ends well. -/
def endsWell {α : Type} (x : Parse α) (p : Parser) : Bool :=
  match x p with
  | .ok _ _ => true
  | .error _ _ => false

theorem exists_of_endsWell {α : Type} {x : Parse α} {p : Parser} (h : endsWell x p = true) :
    ∃ a q, x p = .ok a q := by
  unfold endsWell at h
  split at h
  · exact ⟨_, _, ‹_›⟩
  · contradiction

theorem visits_behindCall : Visits declaring .statement behindCall.pastSeparators := by
  have call : Reads (.operand (.call (word 0 .identifier "foo") [] none))
      (Parser.ofTokens declaring).pastSeparators behindCall :=
    .call (p := (Parser.ofTokens declaring).pastSeparators) rfl (by intro symbol h; cases h)
      (.noArgument rfl)
  have clause : Reads (.clause (.expression (.call (word 0 .identifier "foo") [] none)))
      (Parser.ofTokens declaring).pastSeparators behindCall :=
    .expression (.inl (by constructor <;> rfl)) (.expr call (.noOperator (by intro next h; cases h)))
  exact .first (.behind .start (by decide) (.statement clause (by rfl))) (by decide)

theorem endsWell_behindCall :
    endsWell (Grammar.standard.statementOf .function) behindCall.pastSeparators = true := by
  decide +kernel

/-- Behind that function its parameter, its variable and its import are gone,
and the first call waits as before. -/
theorem function_declares_behindCall :
    ∃ stmt q, Grammar.standard.statementOf .function behindCall.pastSeparators = .ok stmt q
      ∧ q.scopes.lookup? "a" = none ∧ q.scopes.lookup? "x" = none ∧ q.scopes.lookup? "g" = none
      ∧ q.scopes.frames = []
      ∧ q.scopes.pending? "foo" = some ⟨0, word 0 .identifier "foo"⟩ := by
  obtain ⟨stmt, q, h⟩ := exists_of_endsWell endsWell_behindCall
  obtain ⟨effect, -⟩ := function_declares (p := behindCall.pastSeparators) visits_behindCall rfl
  obtain ⟨signature, body, r, u, v, -, -, -, -, -, name, -, -, -, -, declares⟩ := effect stmt q h
  have key : signature.symbol.key = "f" := by
    show signature.name.value = "f"
    rw [name]
    rfl
  have visible := declares.visible
  have waiting := declares.waiting "foo" ⟨0, word 0 .identifier "foo"⟩
  rw [key] at visible waiting
  refine ⟨stmt, q, h, ?_, ?_, ?_, ?_, waiting (by decide) rfl⟩
  · rw [visible]
    rfl
  · rw [visible]
    rfl
  · rw [visible]
    rfl
  · rw [declares.frames]
    rfl

end ImpFront
