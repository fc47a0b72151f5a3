/-
  ImpFront.Proofs.Acceptance.Induction
  ────────────────────────────────────
  **WHAT IS READ IS ACCOUNTED FOR.**

  Two inductions over `Reads`.  The first says that the expressions in an
  expression are grounded where it ends.  The second carries an account of
  what comes behind a phrase over to its front:

      Accounted at q for later  →  Accounted at p for the phrase and later

  A case of the second applies, from the last step of the rule to the first,
  the lemma for that step.
-/
import ImpFront.Proofs.Acceptance.Values
import ImpFront.Proofs.Grammar.Announcement
import ImpFront.Proofs.Grammar.Keeping

namespace ImpFront

open Cursor (Over Calm)
open ImpFront.Parser
open Scopes (Regular Marks Proper Kept)

variable {tokens : List Token} {phrase : Phrase} {p q : Parser} {later : List Mention}

/-! ## §1. Expressions. -/

/-- The expression is grounded where the parser stands. -/
def Parser.Grounds (p : Parser) (e : Expr) : Prop :=
  e.Grounded p.scopes p.cursor.returnTypeAhead?

theorem Parser.Grounds.carry {e : Expr} (h : p.Grounds e) (calm : p.cursor.Calm)
    (marks : Marks p.scopes q.scopes) (across : Over Token.Quiet p.cursor q.cursor) :
    q.Grounds e := by
  have ahead := funext (across.calm calm).2
  unfold Grounds
  rw [ahead]
  exact h.marked marks

theorem Reads.carry {e : Expr} (h : Reads phrase p q) (expression : phrase.isExpression = true)
    (hs : Regular p.scopes) (calm : p.cursor.Calm) (known : p.Grounds e) : q.Grounds e :=
  known.carry calm (h.marks expression hs).2
    (h.quiet (Phrase.isQuiet_of_isExpression expression))

theorem Reads.calm (h : Reads phrase p q) (quiet : phrase.isQuiet = true)
    (calm : p.cursor.Calm) : q.cursor.Calm :=
  ((h.quiet quiet).calm calm).1

/-- **Every expression in an expression is grounded where that ends.** -/
theorem Reads.grounded (h : Reads phrase p q) (hs : Regular p.scopes) (calm : p.cursor.Calm) :
    match phrase with
    | .operand e | .expr _ e => ∀ node ∈ e.nodes, q.Grounds node
    | .operators _ left e =>
      (∀ node ∈ left.nodes, p.Grounds node) → ∀ node ∈ e.nodes, q.Grounds node
    | .arguments es => ∀ node ∈ Expr.nodesOfAll es, q.Grounds node
    | _ => True := by
  induction h with
  | literal type =>
      intro node hn
      obtain rfl := List.mem_singleton.1 hn
      exact ⟨type, trivial⟩
  | unary rule _ type ih =>
      intro node hn
      rcases List.mem_cons.1 hn with rfl | hn
      · obtain ⟨base, hb, ht⟩ := Option.bind_eq_some_iff.1 type
        unfold BaseType.unary? at ht
        split at ht
        · next numeric =>
            obtain rfl := Option.some.inj ht
            exact ⟨⟨hb, numeric⟩, trivial⟩
        · cases ht
      · exact ih hs ((quiet_of_listed rule rfl rfl).calm calm).1 node hn
  | @grouping p q e opening inner closing ih =>
      intro node hn
      have inside := ((quiet_next opening (by decide)).calm calm).1
      exact (ih hs inside node hn).carry (inner.calm rfl inside) (.refl _)
        (quiet_next closing (by decide))
  | builtin _ _ attached builtin =>
      intro node hn
      obtain rfl := List.mem_singleton.1 hn
      refine ⟨?_, .inl attached⟩
      simp only [Expr.Typed]
      rw [if_pos ⟨Scopes.inAttribute_context.trans attached, by rw [builtin]; rfl⟩]
      unfold BaseType.ofName DeclaredType.ofName
      rw [builtin]
      rfl
  | @attached p symbol _ _ attached builtin hl =>
      intro node hn
      obtain rfl := List.mem_singleton.1 hn
      refine ⟨?_, .inl attached⟩
      simp only [Expr.Typed]
      rw [if_neg (by simp [builtin])]
      exact ⟨symbol, (Scopes.lookup?_context hs _).trans hl, rfl⟩
  | @reference p symbol _ _ outside hl value =>
      intro node hn
      obtain rfl := List.mem_singleton.1 hn
      refine ⟨?_, .inr value⟩
      have outside : p.next.scopes.context.inAttribute = false :=
        Scopes.inAttribute_context.trans outside
      simp only [Expr.Typed]
      rw [if_neg fun here => Bool.false_ne_true (outside.symm.trans here.1)]
      exact ⟨symbol, (Scopes.lookup?_context hs _).trans hl, rfl⟩
  | @call p q es here callable arguments ih =>
      obtain ⟨name, opening⟩ := kind_of_atApplication here
      have head := (quiet_next name (by decide)).trans (quiet_next opening (by decide))
      have inside := ((head.trans (quiet_pastLines p.next.next)).calm calm).1
      have marked := (arguments.marks rfl (hs.mark p.current)).2
      have lookup : q.scopes.lookup? p.current.value = p.scopes.lookup? p.current.value :=
        (marked.lookup? _).trans (Scopes.lookup?_mark p.current _)
      intro node hn
      -- the type is read behind the arguments, where the same names are visible
      rcases List.mem_cons.1 hn with rfl | hn
      · refine ⟨trivial, fun symbol hl => ?_, fun hl => ⟨?_, ?_⟩⟩
        · have function := callable symbol (lookup ▸ hl)
          refine ⟨function, ?_⟩
          unfold Parser.callType Scopes.visibleFunction?
          rw [hl, Option.filter_some, if_pos function]
        -- a hidden name is noted in front of the arguments, and it goes on waiting
        · have waits := Scopes.isSome_pending?_mark hs (lookup ▸ hl)
          obtain ⟨call, hp⟩ := Option.isSome_iff_exists.1 waits
          rw [marked.pending hp]
          rfl
        · unfold Parser.callType Scopes.visibleFunction?
          rw [hl]
          rfl
      · exact ih (hs.mark p.current) inside node hn
  | noArgument => intro node hn; cases hn
  | @argument p q r e es _ _ he ha ihe ih =>
      have separators := (quiet_pastComma q).trans (quiet_pastLines q.pastComma)
      have behind := he.calm rfl calm
      have inside := (separators.calm behind).1
      have regular : Regular q.pastComma.pastLines.scopes := by
        simpa using (he.marks rfl hs).1
      intro node hn
      rcases List.mem_append.1 hn with hn | hn
      · have known := ihe hs calm node hn
        refine ha.carry rfl regular inside (known.carry behind ?_ separators)
        simpa using Marks.refl q.scopes
      · exact ih regular inside node hn
  | noOperator => exact fun known => known
  | @operator p q r _ _ left right e type sign _ hr typed ho ihr ih =>
      intro known
      have across := quiet_of_listed sign rfl rfl
      have inside := (across.calm calm).1
      have regular : Regular q.scopes := (hr.marks rfl hs).1
      -- the grown expression is known at `r`: its right side there, its left side from before
      refine ih regular (hr.calm rfl inside) fun node hn => ?_
      rcases List.mem_cons.1 hn with rfl | hn
      · obtain ⟨l, hl, typed⟩ := Option.bind_eq_some_iff.1 typed
        obtain ⟨r, hr, typed⟩ := Option.bind_eq_some_iff.1 typed
        exact ⟨⟨l, r, hl, hr, typed⟩, trivial⟩
      · rcases List.mem_append.1 hn with hn | hn
        · exact hr.carry rfl hs inside ((known node hn).carry calm (.refl _) across)
        · exact ihr hs inside node hn
  | expr hl _ ihl iho =>
      exact iho (hl.marks rfl hs).1 (hl.calm rfl calm) (ihl hs calm)
  | _ => trivial

/-! ## §2. Between phrases. -/

/-- Where a statement may begin. -/
structure Parser.Ready (tokens : List Token) (p : Parser) : Prop where
  proper : Proper p.scopes
  calm : p.cursor.Calm
  outside : p.scopes.inAttribute = false
  file : p.cursor.tokens = tokens

namespace Parser.Ready

variable {kind : Kind} {s : Scopes}

theorem next (ready : p.Ready tokens) (h : p.kind = kind)
    (quiet : kind ≠ .kwFunc ∧ kind ≠ .attribute) : p.next.Ready tokens where
  proper := ready.proper
  calm := ((quiet_next h quiet).calm ready.calm).1
  outside := ready.outside
  file := p.tokens_next.trans ready.file

theorem inBlock (ready : p.Ready tokens) : p.inBlock.Ready tokens :=
  ⟨ready.proper, ready.calm, ready.outside, ready.file⟩

theorem pastLines (ready : p.Ready tokens) : p.pastLines.Ready tokens where
  proper := ready.proper
  calm := ((quiet_pastLines p).calm ready.calm).1
  outside := ready.outside
  file := p.tokens_pastLines.trans ready.file

theorem pastSeparators (ready : p.Ready tokens) : p.pastSeparators.Ready tokens where
  proper := ready.proper
  calm := ((quiet_pastSeparators p).calm ready.calm).1
  outside := ready.outside
  file := p.tokens_pastSeparators.trans ready.file

theorem opened (ready : p.Ready tokens) {sort : FrameKind} (h : sort ≠ .attribute) {a : Unit}
    (he : Scopes.enter sort p.scopes = .ok a s) : (p.withScopes s).Ready tokens := by
  obtain ⟨outside, rfl⟩ := Scopes.enter_ok_iff.1 he
  refine ⟨ready.proper.opened outside, ready.calm, ?_, ready.file⟩
  show ((Frame.fresh sort).kind == .attribute) = false
  rw [Frame.kind_fresh]
  simpa using h

theorem kept (ready : p.Ready tokens) (h : Kept p.scopes q.scopes) (calm : q.cursor.Calm)
    (file : q.cursor.tokens = p.cursor.tokens) : q.Ready tokens where
  proper := h.proper
  calm := calm
  outside := h.inAttribute.trans ready.outside
  file := file.trans ready.file

/-- Behind an expression everything is as before. -/
theorem expression (ready : p.Ready tokens) (h : Reads phrase p q)
    (expression : phrase.isExpression = true) : q.Ready tokens :=
  ready.kept (h.kept_expression expression ready.proper)
    (h.calm (Phrase.isQuiet_of_isExpression expression) ready.calm) h.tokens

/-- Behind a statement the next one may begin. -/
theorem statement (ready : p.Ready tokens) {stmt : Stmt} (h : Reads (.statement stmt) p q) :
    q.Ready tokens := by
  refine ready.kept (h.kept rfl ready.proper) ?_ h.tokens
  cases h with
  | statement _ ending =>
      refine Cursor.calm_of_kind fun name => ?_
      have name : q.current.kind = .identifier := name
      rw [Parser.atStatementEnd, name] at ending
      cases ending

/-- Behind a block the next statement may begin. -/
theorem framed (ready : p.Ready tokens) {sort : FrameKind} {ss : List Stmt}
    (h : Reads (.framed sort ss) p q) : q.Ready tokens := by
  refine ready.kept (h.kept rfl ready.proper) ?_ h.tokens
  cases h with
  | framed _ _ hb _ =>
      cases hb with
      | block _ _ closing => exact Cursor.calm_advance (Token.quiet_of_kind closing (by decide))

end Parser.Ready

/-- The parser stands in front of what is mentioned later. -/
def Parser.Accounts (tokens : List Token) (p : Parser) (later : List Mention) : Prop :=
  Accounted tokens p.scopes p.cursor.returnTypeAhead? later

namespace Parser.Accounts

theorem back (acc : q.Accounts tokens later) (calm : p.cursor.Calm)
    (across : Over Token.Quiet p.cursor q.cursor) (same : q.scopes = p.scopes) :
    p.Accounts tokens later := by
  unfold Accounts at acc ⊢
  rw [same] at acc
  exact acc.congr (across.calm calm).2

/-- A value is accounted for in front of what was read, if it is grounded
behind that. -/
theorem grounded (acc : q.Accounts tokens later) (hs : Proper p.scopes) (calm : p.cursor.Calm)
    {limit : Precedence} {read e : Expr} (h : Reads (.expr limit read) p q)
    (known : ∀ node ∈ e.nodes, q.Grounds node) :
    p.Accounts tokens (.evaluates e :: later) := by
  obtain ⟨regular, marks⟩ := h.marks rfl hs.regular
  have acc := (Accounted.evaluated (hs.marks regular marks) known acc).marked marks
  exact acc.congr ((h.quiet rfl).calm calm).2

/-- An expression is accounted for in front of it. -/
theorem value (acc : q.Accounts tokens later) (hs : Proper p.scopes) (calm : p.cursor.Calm)
    {limit : Precedence} {e : Expr} (h : Reads (.expr limit e) p q) :
    p.Accounts tokens (.evaluates e :: later) :=
  acc.grounded hs calm h (h.grounded hs.regular calm)

/-- The value behind a keyword is accounted for in front of that. -/
theorem guarded (acc : q.pastLines.Accounts tokens later) (ready : p.Ready tokens) {kind : Kind}
    (keyword : p.kind = kind) (quiet : kind ≠ .kwFunc ∧ kind ≠ .attribute)
    {condition : Expr} (h : Reads (.expr .lowest condition) p.next q) :
    p.Accounts tokens (.evaluates condition :: later) := by
  have inside := ready.next keyword quiet
  have acc := acc.back (inside.expression h rfl).calm (quiet_pastLines q) rfl
  exact (acc.value inside.proper inside.calm h).back ready.calm (quiet_next keyword quiet) rfl

end Parser.Accounts

/-! ## §3. Parameters. -/

/-- **Parameters are accounted for one by one.** -/
theorem Reads.accounted_parameters (h : Reads phrase p q) {ps : List Parameter}
    (hp : phrase = .parameters ps) (hs : Proper p.scopes) {ahead : String → Option BaseType}
    (acc : Accounted tokens q.scopes ahead later) :
    Accounted tokens p.scopes ahead ((parameterSymbols ps).map .binds ++ later) := by
  induction h generalizing ps with
  | noParameter =>
      cases hp
      exact acc
  | @parameter p q s _ _ _ type hd _ ih =>
      cases hp
      have bound := Kept.define hs (Symbol.sorted_of_identifier type rfl) hd
      have same : (p.next.next.next.withScopes s).pastComma.pastLines.scopes = s := by simp
      rw [same] at ih
      exact (ih rfl bound.proper acc).boundValue hs.regular rfl hd
  | _ => cases hp

theorem Reads.scopes_returns {type : Option Token} (h : Reads (.returns type) p q) :
    q.scopes = p.scopes := by
  cases h <;> rfl

/-! ## §4. Declarations. -/

/-- **A declaration is accounted for, and with it the calls in front of it.**
The parser `q` is behind its parameters, and `r` behind its return type. -/
theorem Accounted.declaration {r : Parser} {t : Scopes} {ps : List Parameter}
    {type : Option Token} {a : Unit} (file : p.cursor.tokens = tokens)
    (announced : p.current.announcesFunction = true) (name : p.next.kind = .identifier)
    (opening : p.next.next.kind = .openParen)
    (across : Over Token.Quiet p.next.next.next.cursor q.cursor)
    (announces : p.next.next.next.cursor.Announces q.cursor)
    (importing : p.next.next.next.cursor.reopens = true → p.kind = .attribute)
    (hr : Reads (.returns type) q r) (hs : Regular r.scopes)
    (hd : Scopes.define (Signature.symbol ⟨p.current, p.next.current, ps, type⟩) r.scopes
      = .ok a t) :
    r.cursor.Calm
      ∧ (Accounted tokens t r.cursor.returnTypeAhead? later →
        Accounted tokens r.scopes p.cursor.returnTypeAhead?
          (.binds (Signature.symbol ⟨p.current, p.next.current, ps, type⟩) :: later)) := by
  unfold Cursor.Announces at announces
  rw [hr.typeAfter?] at announces
  obtain ⟨calm, ahead⟩ := returnTypeAhead?_signature announced name opening
    (across.trans (hr.quiet rfl)) announces
  refine ⟨calm, fun acc => ?_⟩
  have declares := declares_signature ps type announced name opening
    importing
  rw [file] at declares
  exact (acc.boundFunction hs rfl hd declares).congr fun text => (ahead text).symm

/-! ## §5. Statements. -/

/-- What a phrase mentions. -/
def Phrase.mentions : Phrase → List Mention
  | .clause s | .statement s => s.mentions
  | .body ss | .block ss | .file ss => mentionsOfAll ss
  | .framed kind ss => .opens kind :: (mentionsOfAll ss ++ [.closes kind])
  | .chain condition ss otherwise =>
    .evaluates condition :: .opens .conditional
      :: (mentionsOfAll ss ++ .closes .conditional :: otherwise.mentions)
  | .operand _ | .operators _ _ _ | .expr _ _ | .arguments _ | .parameters _ | .returns _ => []

/-- **An account of what comes behind a phrase gives one of the phrase.** -/
theorem Reads.accounted (h : Reads phrase p q) (loud : phrase.isQuiet = false)
    (ready : p.Ready tokens) (acc : q.Accounts tokens later) :
    p.Accounts tokens (phrase.mentions ++ later) := by
  induction h generalizing later with
  | conditional _ ih => exact ih rfl ready acc
  | @lastLink p q r condition body keyword hc hb _ _ ihb =>
      have inside := ((ready.next keyword (by decide)).expression hc rfl).pastLines
      have body := (ihb rfl inside acc).guarded ready keyword (by decide) hc
      simpa [Phrase.mentions, Otherwise.mentions] using body
  | @elseLink p q r u condition body body' keyword hc hb more _ hb' _ ihb ihb' =>
      have inside := ((ready.next keyword (by decide)).expression hc rfl).pastLines
      have behind := inside.framed hb
      have again := (behind.pastLines.next more (by decide)).pastLines
      have across := ((quiet_pastLines r).trans (quiet_next more (by decide))).trans
        (quiet_pastLines r.pastLines.next)
      -- from the last block back to the first condition
      have acc := (ihb' rfl again acc).back behind.calm across rfl
      have acc := (ihb rfl inside acc).guarded ready keyword (by decide) hc
      simpa [Phrase.mentions, Otherwise.mentions] using acc
  | @nextLink p q r u condition body condition' body' otherwise s t keyword hc hb more _ he hl hx
      _ ihb ihl =>
      have inside := ((ready.next keyword (by decide)).expression hc rfl).pastLines
      have behind := inside.framed hb
      have again := (behind.pastLines.next more (by decide)).pastLines
      have across := ((quiet_pastLines r).trans (quiet_next more (by decide))).trans
        (quiet_pastLines r.pastLines.next)
      have acc : u.Accounts tokens (.closes .conditional :: later) :=
        Accounted.closed (by decide) hx acc
      have acc := ihl rfl (again.opened (by decide) he) acc
      have acc : r.pastLines.next.pastLines.Accounts tokens _ :=
        Accounted.opened again.proper.regular he acc
      have acc := acc.back behind.calm across rfl
      have acc := (ihb rfl inside acc).guarded ready keyword (by decide) hc
      simpa [Phrase.mentions, Otherwise.mentions] using acc
  | @repeatWhile p q r condition body keyword hc hb _ ihb =>
      have inside := ((ready.next keyword (by decide)).expression hc rfl).pastLines
      have acc := (ihb rfl inside acc).guarded ready keyword (by decide) hc
      simpa [Phrase.mentions, Stmt.mentions] using acc
  | leaveLoop keyword => exact acc.back ready.calm (quiet_next keyword (by decide)) rfl
  | nextRound keyword => exact acc.back ready.calm (quiet_next keyword (by decide)) rfl
  | @giveNothingBack p keyword _ =>
      have inside := ready.next keyword (by decide)
      have known : ∀ node ∈ (Expr.literal ⟨.null, "null", p.current.position⟩ .null).nodes,
          p.next.Grounds node := by
        intro node hn
        obtain rfl := List.mem_singleton.1 hn
        exact ⟨rfl, trivial⟩
      have acc : p.next.Accounts tokens (.evaluates _ :: later) :=
        Accounted.evaluated inside.proper known acc
      exact acc.back ready.calm (quiet_next keyword (by decide)) rfl
  | giveBack keyword _ hv =>
      have inside := ready.next keyword (by decide)
      exact (acc.value inside.proper inside.calm hv).back ready.calm
        (quiet_next keyword (by decide)) rfl
  | expression _ hv => exact acc.value ready.proper ready.calm hv
  | statement _ _ ih => exact ih rfl ready acc
  | emptyBody => exact acc
  | @body p q r s ss _ _ hs _ ihs ihr =>
      have behind := ready.statement hs
      have rest := (ihr rfl behind.pastSeparators acc).back behind.calm (quiet_pastSeparators q) rfl
      simpa [Phrase.mentions, mentionsOfAll] using ihs rfl ready rest
  | emptyFile => exact acc.back ready.calm (quiet_pastSeparators _) rfl
  | @file p q r s ss _ hs _ ihs ihr =>
      have behind := ready.pastSeparators.statement hs
      have acc := ihs rfl ready.pastSeparators (ihr rfl behind acc)
      have acc := acc.back ready.calm (quiet_pastSeparators p) rfl
      simpa [Phrase.mentions, mentionsOfAll] using acc
  | @declare p s keyword name colon type _ hd =>
      have across := (((quiet_next keyword (by decide)).trans (quiet_next name (by decide))).trans
        (quiet_next colon (by decide))).trans (quiet_next type (by decide))
      have acc := Accounted.boundValue ready.proper.regular rfl hd acc
      exact acc.congr (across.calm ready.calm).2
  | @initialise p q value s keyword name colon type sign hv fits hd =>
      have across := ((((quiet_next keyword (by decide)).trans
        (quiet_next name (by decide))).trans (quiet_next colon (by decide))).trans
        (quiet_next type (by decide))).trans (quiet_next sign (by decide))
      have calm := (across.calm ready.calm).1
      have proper : Proper p.next.next.next.next.next.scopes := ready.proper
      have behind := hv.kept_expression rfl proper
      have acc : q.Accounts tokens (.binds _ :: later) :=
        Accounted.boundValue behind.proper.regular rfl hd acc
      have acc : q.Accounts tokens (.initialises _ value :: _) := acc.initialised fits
      exact (acc.value proper calm hv).back ready.calm across rfl
  | @assign p q value symbol name sign hv hl fits =>
      have inside := (ready.next name (by decide)).next sign (by decide)
      have across := (quiet_next name (by decide)).trans (quiet_next sign (by decide))
      have behind := inside.expression hv rfl
      -- a value that fits has not the type of functions, hence the target is none
      have known := hv.grounded inside.proper.regular inside.calm value value.mem_nodes_self
      have nonfunction : symbol.declaredBase ≠ .function := by
        intro function
        rw [function] at fits
        exact known.base?_ne_function behind.outside (q.cursor.returnTypeAhead?_ne_function) fits
      have acc : q.Accounts tokens (.assigns _ value :: later) :=
        acc.assigned behind.proper hl fits nonfunction
      exact (acc.value inside.proper inside.calm hv).back ready.calm across rfl
  | @compound p q value symbol operator type name sign hv hl fits typed =>
      have quiet := Kind.quiet_of_listed sign rfl rfl
      have inside := (ready.next name (by decide)).next rfl quiet
      have across := (quiet_next name (by decide)).trans (quiet_next rfl quiet)
      have behind := inside.expression hv rfl
      have known := hv.grounded inside.proper.regular inside.calm
      -- the operator gives back the type of its target
      obtain rfl := BaseType.eq_of_binary?_self typed
      have nonfunction : symbol.declaredBase ≠ .function := by
        intro function
        rw [function] at typed
        exact BaseType.binary?_ne_function typed
      -- what is stored is the value with the target in front of it
      have acc : q.Accounts tokens (.assigns p.current (.binary operator p.next.current
          (.reference p.current symbol.declaredBase) value symbol.declaredBase) :: later) :=
        acc.assigned behind.proper hl rfl nonfunction
      refine (acc.grounded inside.proper inside.calm hv fun node hn => ?_).back
        ready.calm across rfl
      rcases List.mem_cons.1 hn with rfl | hn
      · exact ⟨⟨_, _, rfl, fits, typed⟩, trivial⟩
      · rcases List.mem_cons.1 hn with rfl | hn
        · refine ⟨?_, .inr nonfunction⟩
          have outside : q.scopes.context.inAttribute = false :=
            Scopes.inAttribute_context.trans behind.outside
          simp only [Expr.Typed]
          rw [if_neg fun here => Bool.false_ne_true (outside.symm.trans here.1)]
          exact ⟨symbol, (Scopes.lookup?_context behind.proper.regular _).trans hl, rfl⟩
        · exact known node hn
  | bareAttribute =>
      exact acc.congr (Cursor.returnTypeAhead?_advance ready.calm)
  | @attributeValue p q value s t keyword _ he alone hv _ hx =>
      have proper : Proper s := ready.proper.entered he
      -- the value is no application, so that the attribute announces no function
      have calm : p.next.cursor.Calm := by
        refine Cursor.calm_of_not_application fun here => ?_
        have name : p.next.kind = .identifier := here.1
        have opening : p.next.next.kind = .openParen := here.2
        have application : p.next.atApplication = true := by simp [atApplication, name, opening]
        rw [alone] at application
        cases application
      have acc : q.Accounts tokens (.closes .attribute :: later) :=
        Accounted.closed (by decide) hx acc
      have acc := Accounted.opened ready.proper.regular he
        (acc.value (p := p.next.withScopes s) proper calm hv)
      exact acc.congr (Cursor.returnTypeAhead?_advance ready.calm)
  | @imported p q r es ps type s t u keyword _ he here known ha hm hr hd _ hx =>
      obtain ⟨name, opening⟩ := kind_of_atApplication here
      have proper : Proper s := ready.proper.entered he
      have announced : p.current.announcesFunction = true := by
        have keyword : p.current.kind = .attribute := keyword
        simp [Token.announcesFunction, keyword, known]
      have across := (quiet_pastLines p.next.next.next).trans (ha.quiet rfl)
      have flat : Over Token.Flat p.next.next.next.cursor p.next.next.next.pastLines.cursor :=
        over_pastLines (fun _ h => Token.flat_of_kind h (by decide)) _
      have names := Statement.isReference_of_importedParameter hm
      -- every argument is a name, since it was taken as a parameter
      have announces := (ha.announces_arguments rfl names).across flat
      obtain ⟨regular, marks⟩ := ha.marks rfl proper.regular
      rw [← hr.scopes_returns] at regular marks
      obtain ⟨-, declaration⟩ := Accounted.declaration ready.file announced name opening
        across announces (fun _ => keyword) hr regular hd
      have acc := declaration (Accounted.closed (by decide) hx acc)
      exact Accounted.opened ready.proper.regular he (acc.marked marks)
  | @block p q ss opening _ closing ihb =>
      have inside := (ready.next opening (by decide)).inBlock.pastSeparators
      have calm : q.cursor.Calm := by
        refine Cursor.calm_of_kind ?_
        show q.kind ≠ .identifier
        simp [closing]
      have acc : q.Accounts tokens later := acc.back calm (quiet_next closing (by decide)) rfl
      have across := (quiet_next opening (by decide)).trans (quiet_pastSeparators p.next.inBlock)
      exact (ihb rfl inside acc).back ready.calm across rfl
  | @framed p q kind ss s t hk he _ hx ihb =>
      have framed : kind ≠ .function ∧ kind ≠ .attribute := by
        rcases hk with rfl | rfl <;> decide
      have acc : q.Accounts tokens (.closes kind :: later) := Accounted.closed framed.1 hx acc
      have acc := ihb rfl (ready.opened framed.2 he) acc
      have acc : p.Accounts tokens (.opens kind :: _) :=
        Accounted.opened ready.proper.regular he acc
      simpa [Phrase.mentions] using acc
  | @function p q r u ps type body s t v w keyword name opening he hp hr hd hb hx hw _ _ ihb =>
      have opened := ready.opened (by decide) he
      have proper : Proper s := opened.proper
      have parameters : Kept s q.scopes := hp.kept rfl proper
      have head : Kept s r.scopes := parameters.trans (hr.kept rfl parameters.proper)
      have sorted : (Signature.symbol ⟨p.current, p.next.current, ps, type⟩).Sorted :=
        Signature.sorted_symbol (.inl keyword)
      have bound := Kept.define head.proper sorted hd
      have body := hb.kept rfl bound.proper
      -- behind the function its name is free, so that taking it out changes nothing
      obtain ⟨own, absent⟩ := Kept.name_of_function ready.proper he head sorted hd body hx
      have gone : (v.delete p.next.current.value).2 = v := Scopes.delete_of_absent absent
      rw [gone] at hw
      have announced : p.current.announcesFunction = true := by
        have keyword : p.current.kind = .kwFunc := keyword
        simp [Token.announcesFunction, keyword]
      have across := (quiet_pastLines p.next.next.next).trans (hp.quiet rfl)
      have flat : Over Token.Flat p.next.next.next.cursor p.next.next.next.pastLines.cursor :=
        over_pastLines (fun _ h => Token.flat_of_kind h (by decide)) _
      have announces := (hp.announces_parameters rfl).across flat
      have single : p.next.next.next.cursor.reopens = false :=
        (flat.eq fun _ h => Cursor.reopens_advance h).symm.trans (hp.reopens_parameters rfl)
      have importing : p.next.next.next.cursor.reopens = true → p.kind = .attribute := by
        intro again
        rw [single] at again
        cases again
      obtain ⟨calm, declaration⟩ := Accounted.declaration ready.file announced name opening
        across announces importing hr head.proper.regular hd
      have inside : (r.pastLines.withScopes t).Ready tokens := by
        refine ⟨bound.proper, ((quiet_pastLines r).calm calm).1, ?_, ?_⟩
        · exact (head.trans bound).inAttribute.trans opened.outside
        · have file : r.pastLines.cursor.tokens = p.cursor.tokens := by
            rw [tokens_pastLines, hr.tokens, hp.tokens]
            simp
          exact file.trans ready.file
      -- from the end of the function to its beginning
      have acc : u.Accounts tokens (.completes _ :: later) :=
        Accounted.completed body.proper.regular rfl hx hw own acc
      have acc := (ihb rfl inside acc).congr ((quiet_pastLines r).calm calm).2
      have acc := declaration acc
      rw [hr.scopes_returns] at acc
      have acc := hp.accounted_parameters rfl proper acc
      have acc : p.Accounts tokens (.opens .function :: _) :=
        Accounted.opened ready.proper.regular he acc
      simpa [Phrase.mentions, Stmt.mentions] using acc
  | _ => cases loud

end ImpFront
