/-
  ImpFront.Proofs.Acceptance.Importing
  ────────────────────────────────────
  **AN IMPORT AND A FUNCTION OF THE SAME TYPES.**

  The same attributes may be followed by the import of a function, or by a
  function without a body:

      @import_symbol name(type, …) -> type
      func name(parameter: type, …) -> type { }

  Both leave the same name behind, with the same types, and answer the same
  calls.  But they do not read the types in the same way.  A function takes
  any name for a type.  An import takes its types for values, so that each of
  them has to be built in or bound further up: a type that a program brings
  along can stand in every function, and in no import.
-/
import ImpFront.Proofs.Acceptance.Heading
import ImpFront.Proofs.Acceptance.Leading
import ImpFront.Proofs.Scope.Sweep

namespace ImpFront

open Scopes (Proper Kept Gains)

/-! ## §1. The end of a file. -/

/-- Separators and an end token. -/
def fileEnd : Language Token :=
  separators * oneToken .eof

theorem mem_fileEnd {token : Token} (h : token.kind = .eof) : [token] ∈ fileEnd :=
  mem_separators_mul ⟨token, rfl, h⟩

theorem startsWith_fileEnd :
    StartsWith (fun kind => kind.isTerminator = true ∨ kind = .eof) fileEnd :=
  .run (fun _ hw token ht => .inl (hw token ht))
    ((StartsWith.oneToken .eof).mono fun _ => .inr)

theorem quietText_fileEnd : QuietText fileEnd :=
  QuietText.separators.mul (.oneToken (by decide))

theorem closed_of_fileEnd {w : List Token} (h : w ∈ fileEnd) : Closed w := by
  obtain ⟨gap, -, _, ⟨final, rfl, ending⟩, rfl⟩ := Language.mem_mul.1 h
  exact ⟨final, by simp, ending⟩

theorem closed_of_mul_fileEnd {l : Language Token} {w : List Token} (h : w ∈ l * fileEnd) :
    Closed w := by
  obtain ⟨front, -, rest, ending, rfl⟩ := Language.mem_mul.1 h
  exact (closed_of_fileEnd ending).append front

theorem closed_of_function {signature : Signature} {w : List Token}
    (h : w ∈ (Stmt.function signature []).written fileEnd) : Closed w := by
  have h : w ∈ signature.written .kwFunc * (lineEnds * (oneToken .openCurly
    * (separators * (oneToken .closeCurly * fileEnd)))) := h
  simp only [← mul_assoc] at h
  exact closed_of_mul_fileEnd h

section

variable {p : Parser}

theorem Parser.atStatementEnd_of_fileEnd (h : p.cursor.rest ∈ fileEnd) :
    p.atStatementEnd = true := by
  have last : p.current.kind.isTerminator = true ∨ p.current.kind = .eof :=
    Parser.kind_of_startsWith h startsWith_fileEnd
  unfold Parser.atStatementEnd
  generalize p.current.kind = kind at last ⊢
  rcases last with separates | rfl
  · rcases Kind.isTerminator_iff.1 separates with rfl | rfl <;> rfl
  · rfl

theorem Parser.pastSeparators_of_fileEnd (h : p.cursor.rest ∈ fileEnd) :
    p.pastSeparators.kind = .eof := by
  have stop : StartsWith (fun kind => kind.isTerminator = false) (oneToken .eof) :=
    (StartsWith.oneToken .eof).mono (by rintro _ rfl; rfl)
  exact Parser.kind_of_startsWith (Parser.of_separators h stop) (.oneToken .eof)

end

/-! ## §2. Attributes that are accepted. -/

/-- Separators that reach an end token reach the end of the text. -/
theorem append_eq_of_ending {before passed tail : List Token} {final : Token}
    (whole : passed ++ tail = before ++ [final]) (inner : ∀ token ∈ before, token.kind ≠ .eof)
    (ending : tail ∈ oneToken .eof * ⊤) : passed = before ∧ tail = [final] := by
  obtain ⟨_, ⟨token, rfl, last⟩, more, -, rfl⟩ := Language.mem_mul.1 ending
  rcases List.append_eq_append_iff.1 whole with ⟨own, left, right⟩ | ⟨own, left, right⟩
  · rcases own with _ | ⟨first, own⟩
    · exact ⟨by simpa using left.symm, right⟩
    · obtain ⟨rfl, -⟩ := List.cons.inj right
      exact absurd last (inner token (by rw [left]; simp))
  · rcases own with _ | ⟨first, own⟩
    · exact ⟨by simpa using left, by simpa using right.symm⟩
    · simp at right

/-- What ends with another token than a separator does not reach into the
separators at the end. -/
theorem exists_gap {front ends passed gap : List Token} (whole : passed ++ gap = front ++ ends)
    (solid : passed = [] ∨ ∃ last, passed.getLast? = some last ∧ last.kind.isTerminator = false)
    (separates : ends ∈ separators) : ∃ own, front = passed ++ own ∧ gap = own ++ ends := by
  rcases List.append_eq_append_iff.1 whole with split | ⟨own, left, right⟩
  · exact split
  · rcases List.eq_nil_or_concat own with rfl | ⟨init, last, rfl⟩
    · exact ⟨[], by simpa using left.symm, by simpa using right.symm⟩
    · rw [List.concat_eq_append] at left right
      rcases solid with rfl | ⟨other, final, plain⟩
      · simp at left
      · rw [left] at final
        obtain rfl : last = other := by simpa using final
        have ends := separates last (by rw [right]; simp)
        rw [plain] at ends
        cases ends

/-- **Accepted attributes can stand in front of other rests.**  If they are
accepted at the end of a file, with a separator behind the last one, they are a
front, and leave the scopes behind that the file does. -/
theorem Front.of_accepted {file : String} {front rest : List Token} {attributes : List Attribute}
    {q : Parser} (accepted : parse file (front ++ rest) = (.ok ⟨attributes, []⟩, q))
    (inner : ∀ token ∈ front, token.kind ≠ .eof)
    (separated : ∀ last ∈ front.getLast?, last.kind.isTerminator = true)
    (ending : rest ∈ fileEnd) : ∃ p, Front front rest attributes p ∧ p.scopes = q.scopes := by
  have read : Reads (.file (attributes.map .attribute)) (.ofTokens (front ++ rest)) q.silent := by
    have read := (Grammar.reads_file accepted).1
    rwa [Program.clauses, List.append_nil] at read
  obtain ⟨p, leads, behind⟩ := Leads.of_reads .start read
  have final : p.pastSeparators.kind = .eof := by
    rw [behind]
    exact read.ending
  have whole := leads.tokens ((closed_of_fileEnd ending).append front)
  obtain ⟨gap, separates, tail, reached, there⟩ :=
    Language.mem_mul.1 (Parser.rest_pastSeparators (Parser.rest_ending final))
  obtain ⟨ends, hends, _, ⟨eof, rfl, isEnd⟩, rfl⟩ := Language.mem_mul.1 ending
  -- the end token that is reached is the last token of the file
  have plain : ∀ token ∈ front ++ ends, token.kind ≠ .eof := by
    intro token ht same
    rcases List.mem_append.1 ht with ht | ht
    · exact inner token ht same
    · exact Kind.ne_of_isTerminator (hends token ht) rfl same
  rw [← there, ← List.append_assoc, ← List.append_assoc] at whole
  obtain ⟨text, rfl⟩ := append_eq_of_ending whole plain reached
  -- and the last attribute ends in front of the separators
  obtain ⟨own, hfront, rfl⟩ := exists_gap text (leads.solid.imp_left And.right) hends
  refine ⟨p, ⟨leads, own, ?_, ?_, ?_⟩, ?_⟩
  · exact fun token ht => separates token (List.mem_append_left _ ht)
  · show p.cursor.rest = _
    rw [← there, List.append_assoc]
  · rintro rfl
    rcases leads.solid with ⟨none, -⟩ | ⟨last, hlast, solid⟩
    · exact none
    · rw [hfront, List.append_nil, hlast] at separated
      have ends := separated last rfl
      rw [solid] at ends
      cases ends
  · have same : p.pastSeparators.scopes = q.silent.scopes := congrArg Parser.scopes behind
    exact same

/-! ## §3. The same front. -/

/-- The same name, types and return type. -/
structure Signature.SameAs (imported declared : Signature) : Prop where
  name : declared.name.value = imported.name.value
  types : declared.parameters.map (·.type.value) = imported.parameters.map (·.type.value)
  returns : declared.returns.map Token.value = imported.returns.map Token.value

theorem Signature.SameAs.returnBase? {imported declared : Signature}
    (h : imported.SameAs declared) : declared.returnBase? = imported.returnBase? := by
  have base : ∀ signature : Signature, signature.returnBase?
      = (signature.returns.map Token.value).map BaseType.ofName := by
    intro signature
    rw [Option.map_map]
    rfl
  rw [base, base, h.returns]

section

variable {signature signature' : Signature} {w w' : List Token} {m : Language Token}

/-- A signature foretells what one of the same types does. -/
theorem Signature.ShownBy.foresees (h : signature.ShownBy w) (h' : signature'.ShownBy w')
    (name : signature'.name.value = signature.name.value)
    (returns : signature'.returnBase? = signature.returnBase?) : Foresees w w' := by
  constructor
  · intro other type previous quiet typed
    rw [returnTypeAhead?_of_quiet quiet, h.ahead] at typed
    rw [returnTypeAhead?_of_quiet quiet, h'.ahead, name, returns]
    exact typed
  · intro type typed
    rw [h.behind] at typed
    rw [h'.behind, returns]
    exact typed

/-- The end of a file foretells nothing. -/
theorem foresees_of_fileEnd (h : w ∈ fileEnd) (w' : List Token) : Foresees w w' := by
  constructor
  · intro other type previous quiet typed
    rw [returnTypeAhead?_of_quiet quiet, ← List.append_nil w,
      returnTypeAhead?_append (quietText_fileEnd w h)] at typed
    cases typed
  · intro type typed
    have plain : ∀ token ∈ w, token.kind ≠ .closeParen := by
      obtain ⟨gap, hgap, _, ⟨final, rfl, ending⟩, rfl⟩ := Language.mem_mul.1 h
      intro token ht
      rcases List.mem_append.1 ht with ht | ht
      · exact Kind.ne_of_isTerminator (hgap token ht) rfl
      · rw [List.mem_singleton.1 ht, ending]
        decide
    rw [← List.append_nil w, typeBehindParameters?_append plain] at typed
    cases typed

theorem kind_of_mem_thisWord {kind : Kind} {token : Token} (h : w ∈ thisWord kind token * m) :
    token.kind = kind := by
  obtain ⟨_, ⟨-, fits⟩, _⟩ := Language.mem_mul.1 h
  exact fits

theorem Signature.shownBy_import (importing : signature.keyword.value = Token.importAttribute)
    (h : w ∈ signature.writtenImport * fileEnd) : signature.ShownBy w := by
  rw [writtenImport, mul_assoc, mul_assoc, mul_assoc] at h
  have announces : signature.keyword.announcesFunction = true := by
    simp [Token.announcesFunction, kind_of_mem_thisWord h, importing]
  refine shownBy_of_written ?_ announces h ?_ quietText_fileEnd
  · intro l hl u hu token ht
    obtain ⟨type, -, rfl⟩ := List.mem_map.1 hl
    obtain ⟨rfl, name⟩ := hu
    rw [List.mem_singleton.1 ht]
    exact .inl name
  · exact startsWith_fileEnd.mono fun _ ends => Kind.ne_of_ending ends rfl (by decide)

theorem Signature.startsWith_writtenImport (signature : Signature) (m : Language Token) :
    StartsWith (· = .attribute) (signature.writtenImport * m) :=
  ((StartsWith.thisWord .attribute signature.keyword).mul _).mul _

theorem Signature.shownBy_function
    (named : ∀ parameter ∈ signature.parameters, parameter.name.isSome = true)
    (h : w ∈ (Stmt.function signature []).written fileEnd) : signature.ShownBy w := by
  have h : w ∈ signature.written .kwFunc * (lineEnds * enclosed (writtenAll []) fileEnd) := h
  rw [written, mul_assoc, mul_assoc, mul_assoc] at h
  have announces : signature.keyword.announcesFunction = true := by
    simp [Token.announcesFunction, kind_of_mem_thisWord h]
  have quiet : QuietText (enclosed (writtenAll []) fileEnd) :=
    (QuietText.oneToken (by decide)).mul (QuietText.separators.mul
      ((QuietText.oneToken (by decide)).mul quietText_fileEnd))
  refine shownBy_of_written ?_ announces h ?_ (QuietText.lineEnds.mul quiet)
  · intro l hl u hu token ht
    obtain ⟨⟨name, type⟩, hm, rfl⟩ := List.mem_map.1 hl
    obtain ⟨name, rfl⟩ := Option.isSome_iff_exists.1 (named _ hm)
    obtain ⟨_, ⟨rfl, isName⟩, _, behind, rfl⟩ := Language.mem_mul.1 hu
    obtain ⟨_, ⟨colon, rfl, isColon⟩, _, ⟨rfl, isType⟩, rfl⟩ := Language.mem_mul.1 behind
    have cases : token = name ∨ token = colon ∨ token = type := by simpa using ht
    rcases cases with rfl | rfl | rfl
    · exact .inl isName
    · exact .inr isColon
    · exact .inl isType
  · exact (((StartsWith.oneToken .openCurly).mul _).mono (by rintro _ rfl; decide)).lineEnds
      (by decide)

end

/-! ## §4. One more statement behind the attributes. -/

theorem Leads.frames {tokens : List Token} {attributes : List Attribute} {p : Parser}
    (h : Leads tokens attributes p) : p.scopes.frames = [] := by
  induction h with
  | start => rfl
  | @behind _ p q _ before _ read ih =>
      have kept : Kept p.scopes q.scopes := read.kept rfl before.visits.proper
      have kinds := kept.kinds
      rw [ih] at kinds
      exact List.map_eq_nil_iff.1 kinds

theorem Scopes.Gains.unresolved?_eq_none_iff {symbol : Symbol} {s t : Scopes}
    (h : Gains symbol s t) :
    t.unresolved? = none ↔ ∀ name, name ≠ symbol.key → s.pending? name = none := by
  rw [Scopes.unresolved?_eq_none_iff]
  constructor
  · intro answered name other
    have waiting := h.waiting name
    rwa [answered, if_neg other, eq_comm] at waiting
  · intro answered name
    rw [h.waiting]
    split
    · rfl
    · next other => exact answered name other

/-- The file is this program, and accepted if every call has been answered in
the scopes in front of it, or is one of the symbol's name.  It leaves the
symbol behind. -/
structure Adds (file : String) (tokens : List Token) (program : Program) (symbol : Symbol)
    (s : Scopes) : Prop where
  accepted : (∃ other, (parse file tokens).1 = .ok other)
    ↔ ∀ name, name ≠ symbol.key → s.pending? name = none
  tree : ∀ other, (parse file tokens).1 = .ok other → other = program
  gains : Gains symbol s (parse file tokens).2.scopes

namespace Front

variable {front w : List Token} {attributes : List Attribute} {p q : Parser}
  {m : Language Token}

/-- The rest is reached behind the attributes and the separators. -/
theorem reaches {kind : Kind} (h : Front front w attributes p) (hw : w ∈ m)
    (starts : StartsWith (· = kind) m) (other : kind.isTerminator = false) :
    p.pastSeparators.cursor.rest ∈ m ∧ p.pastSeparators.kind = kind := by
  obtain ⟨gap, separators, faces, -⟩ := h.gap
  have split : p.cursor.rest ∈ ImpFront.separators * m := by
    rw [show p.cursor.rest = gap ++ w from faces]
    exact Language.append_mem_mul separators hw
  have there := Parser.of_separators split (starts.mono (by rintro _ rfl; exact other))
  exact ⟨there, Parser.kind_of_startsWith there starts⟩

/-- With a statement that leaves a symbol behind, the file is at its end. -/
theorem adds {s : Stmt} {symbol : Symbol} {program : Program} (h : Front front w attributes p)
    (inner : p.pastSeparators.kind ≠ .eof) (read : Reads (.clause s) p.pastSeparators q)
    (ending : q.cursor.rest ∈ fileEnd) (gains : Gains symbol p.scopes q.scopes)
    (clauses : program.clauses = attributes.map .attribute ++ [s])
    (plain : ∀ s ∈ program.statements, s.isAttribute = false) (file : String) :
    Adds file (front ++ w) program symbol p.scopes := by
  have statement := Reads.statement read (Parser.atStatementEnd_of_fileEnd ending)
  have whole := h.leads.reads
    (.file inner statement (.emptyFile (Parser.pastSeparators_of_fileEnd ending)))
  rw [← clauses] at whole
  obtain ⟨outcome, scopes⟩ := parse_of_reads whole plain file
  have answered := gains.unresolved?_eq_none_iff
  rw [Parser.scopes_pastSeparators] at outcome scopes
  rw [← scopes] at gains
  cases unresolved : q.scopes.unresolved? with
  | some error =>
      rw [unresolved] at outcome answered
      refine ⟨⟨?_, fun all => nomatch answered.2 all⟩, ?_, gains⟩
      · rintro ⟨other, accepted⟩
        rw [outcome] at accepted
        cases accepted
      · intro other accepted
        rw [outcome] at accepted
        cases accepted
  | none =>
      rw [unresolved] at outcome answered
      refine ⟨⟨fun _ => answered.1 rfl, fun _ => ⟨program, outcome⟩⟩, ?_, gains⟩
      intro other accepted
      rw [outcome] at accepted
      exact (Except.ok.inj accepted).symm

/-- **A function without a body can stand behind the attributes**, whatever its
types. -/
theorem adds_function {signature : Signature} (h : Front front w attributes p)
    (named : ∀ parameter ∈ signature.parameters, parameter.name.isSome = true)
    (fresh : signature.Fresh p.scopes) (hw : w ∈ (Stmt.function signature []).written fileEnd)
    (file : String) :
    Adds file (front ++ w) ⟨attributes, [.function signature []]⟩ signature.symbol p.scopes := by
  have starts : StartsWith (· = .kwFunc) ((Stmt.function signature []).written fileEnd) :=
    ((StartsWith.thisWord .kwFunc signature.keyword).mul _).mul _
  obtain ⟨there, keyword⟩ := h.reaches hw starts rfl
  obtain ⟨q, read, gains, ending⟩ := Reads.function_written (p := p.pastSeparators) named
    h.leads.frames h.leads.visits.proper fresh there
  refine h.adds (by rw [keyword]; decide) read ending gains rfl ?_ file
  exact List.forall_mem_singleton.2 rfl

/-- **An import can stand behind the attributes** if its types are known
there. -/
theorem adds_import {signature : Signature} (h : Front front w attributes p)
    (nameless : ∀ parameter ∈ signature.parameters, parameter.name = none)
    (importing : signature.keyword.value = Token.importAttribute)
    (free : p.scopes.lookup? signature.name.value = none)
    (known : ∀ parameter ∈ signature.parameters, p.scopes.KnowsType parameter.type.value)
    (hw : w ∈ signature.writtenImport * fileEnd) (file : String) :
    Adds file (front ++ w) ⟨attributes ++ [⟨signature.keyword, some (.imported signature)⟩], []⟩
      signature.symbol p.scopes := by
  obtain ⟨there, keyword⟩ := h.reaches hw (signature.startsWith_writtenImport fileEnd) rfl
  obtain ⟨q, read, gains, ending⟩ := Reads.import_written (p := p.pastSeparators) nameless
    importing h.leads.frames h.leads.visits.proper.regular free known there startsWith_fileEnd
  refine h.adds (by rw [keyword]; decide) read ending gains ?_ (List.forall_mem_nil _) file
  simp [Program.clauses]

/-- **Whatever import stands there is refused if one of its types is not
known.** -/
theorem knows_types {signature : Signature} {program : Program} {file : String}
    (h : Front front w attributes p) (hw : w ∈ signature.writtenImport * fileEnd)
    (accepted : (parse file (front ++ w)).1 = .ok program) :
    ∀ parameter ∈ signature.parameters, p.scopes.KnowsType parameter.type.value := by
  obtain ⟨there, keyword⟩ := h.reaches hw (signature.startsWith_writtenImport fileEnd) rfl
  obtain ⟨read, -⟩ := Grammar.reads_file (Prod.ext accepted rfl)
  generalize Parser.silent _ = r at read
  obtain ⟨later, -, behind⟩ := h.leads.split read
  cases behind with
  | emptyFile final =>
      rw [keyword] at final
      cases final
  | file _ first _ =>
      cases first with
      | statement clause _ => exact clause.knows_import there

/-- What can be read in front of the end of the file, of the import or of the
function can be read in front of each text that shows one of the two. -/
theorem swap {rest w' : List Token} {signature signature' : Signature}
    (h : Front front rest attributes p) (closed : Closed w) (closed' : Closed w')
    (shown : signature.ShownBy w) (shown' : signature'.ShownBy w')
    (name : signature'.name.value = signature.name.value)
    (returns : signature'.returnBase? = signature.returnBase?)
    (continued : rest ∈ fileEnd ∨ rest = w ∨ rest = w') :
    ∃ attributes' p', Front front w attributes' p' ∧ p'.scopes = p.scopes := by
  rcases continued with ending | rfl | rfl
  · exact h.swapped (closed_of_fileEnd ending) closed (foresees_of_fileEnd ending w)
  · exact ⟨attributes, p, h, rfl⟩
  · exact h.swapped closed' closed (shown'.foresees shown name.symm returns.symm)

end Front

/-! ## §5. The two continuations. -/

theorem Scopes.Gains.visibleFunction? {signature : Signature} {s t : Scopes}
    (h : Gains signature.symbol s t) :
    t.visibleFunction? signature.name.value = some signature.symbol := by
  have visible : t.lookup? signature.name.value = some signature.symbol := by
    rw [h.visible]
    exact if_pos rfl
  rw [Scopes.visibleFunction?, visible]
  rfl

/-- **An import and a function of the same types are the same to a program, if
the types of the import are known.**  Behind the same attributes, with a name
that these do not bind, let stand the import of a function or a function
without a body, of the same types.  The import is accepted exactly if the
function is and each of its types is built in or bound by the attributes.  If
both are accepted, each tree has the signature as it is written, the name
stands for a function with the same return type, and every other name for what
it does behind the attributes. -/
theorem accepted_import_iff {file : String} {front rest w w' : List Token}
    {attributes : List Attribute} {p : Parser} {imported declared : Signature}
    (attached : Front front rest attributes p)
    (continued : rest ∈ fileEnd ∨ rest = w ∨ rest = w')
    (importing : imported.keyword.value = Token.importAttribute)
    (nameless : ∀ parameter ∈ imported.parameters, parameter.name = none)
    (named : ∀ parameter ∈ declared.parameters, parameter.name.isSome = true)
    (same : imported.SameAs declared) (fresh : declared.Fresh p.scopes)
    (hw : w ∈ imported.writtenImport * fileEnd)
    (hw' : w' ∈ (Stmt.function declared []).written fileEnd) :
    ((∃ program, (parse file (front ++ w)).1 = .ok program)
        ↔ (∃ program, (parse file (front ++ w')).1 = .ok program)
          ∧ ∀ parameter ∈ imported.parameters, p.scopes.KnowsType parameter.type.value)
      ∧ ∀ program program' q q', parse file (front ++ w) = (.ok program, q) →
          parse file (front ++ w') = (.ok program', q') →
          program.attributes.getLast? = some ⟨imported.keyword, some (.imported imported)⟩
            ∧ program.statements = [] ∧ program'.statements = [.function declared []]
            ∧ q.scopes.visibleFunction? imported.name.value = some imported.symbol
            ∧ q'.scopes.visibleFunction? imported.name.value = some declared.symbol
            ∧ imported.symbol.returnBase? = declared.symbol.returnBase?
            ∧ ∀ name, name ≠ imported.name.value →
                q.scopes.lookup? name = p.scopes.lookup? name
                  ∧ q'.scopes.lookup? name = p.scopes.lookup? name := by
  have shown := Signature.shownBy_import importing hw
  have shown' := Signature.shownBy_function named hw'
  have closed : Closed w := closed_of_mul_fileEnd hw
  have closed' : Closed w' := closed_of_function hw'
  obtain ⟨before, r, ready, scopes⟩ :=
    attached.swap closed closed' shown shown' same.name same.returnBase? continued
  obtain ⟨before', r', ready', scopes'⟩ :=
    attached.swap closed' closed shown' shown same.name.symm same.returnBase?.symm
      (continued.imp_right Or.symm)
  have key : declared.symbol.key = imported.symbol.key := same.name
  have free : p.scopes.lookup? imported.name.value = none := by
    rw [← same.name]
    exact fresh.2 _ List.mem_cons_self
  have adds' : Adds file (front ++ w') ⟨before', [.function declared []]⟩ declared.symbol
      p.scopes := by
    rw [← scopes'] at fresh ⊢
    exact ready'.adds_function named fresh hw' file
  have adds : (∀ parameter ∈ imported.parameters, p.scopes.KnowsType parameter.type.value) →
      Adds file (front ++ w) ⟨before ++ [⟨imported.keyword, some (.imported imported)⟩], []⟩
        imported.symbol p.scopes := by
    intro known
    rw [← scopes] at known free ⊢
    exact ready.adds_import nameless importing free known hw file
  have known : ∀ program, (parse file (front ++ w)).1 = .ok program →
      ∀ parameter ∈ imported.parameters, p.scopes.KnowsType parameter.type.value := by
    intro program accepted
    rw [← scopes]
    exact ready.knows_types hw accepted
  have answers := adds'.accepted
  rw [key] at answers
  constructor
  · constructor
    · rintro ⟨program, accepted⟩
      have known := known program accepted
      exact ⟨answers.2 ((adds known).accepted.1 ⟨program, accepted⟩), known⟩
    · rintro ⟨accepted, known⟩
      exact (adds known).accepted.2 (answers.1 accepted)
  · intro program program' q q' accepted accepted'
    have adds := adds (known program (congrArg Prod.fst accepted))
    obtain rfl := adds.tree program (congrArg Prod.fst accepted)
    obtain rfl := adds'.tree program' (congrArg Prod.fst accepted')
    have gains := adds.gains
    have gains' := adds'.gains
    rw [accepted] at gains
    rw [accepted'] at gains'
    have found := gains'.visibleFunction?
    rw [same.name] at found
    refine ⟨List.getLast?_concat, rfl, rfl, gains.visibleFunction?, found, ?_, ?_⟩
    · rw [Signature.returnBase?_symbol, Signature.returnBase?_symbol, same.returnBase?]
    · intro name other
      rw [gains.visible, gains'.visible, key]
      exact ⟨if_neg other, if_neg other⟩

/-- `@entry` and `@import_symbol g(i32)`, with a line end behind each. -/
def leading : List Token :=
  [word 0 .attribute "@entry", word 6 .newline "\n", word 7 .attribute "@import_symbol",
    word 22 .identifier "g", word 23 .openParen "(", word 24 .identifier "i32",
    word 27 .closeParen ")", word 28 .newline "\n"]

/-- The file that ends there. -/
def leadingFile : List Token :=
  leading ++ [word 29 .eof ""]

/-- Its attributes. -/
def leadingTree : List Attribute :=
  [⟨word 0 .attribute "@entry", none⟩,
    ⟨word 7 .attribute "@import_symbol",
      some (.imported ⟨word 7 .attribute "@import_symbol", word 22 .identifier "g",
        [⟨none, word 24 .identifier "i32"⟩], none⟩)⟩]

/-- The signature of the import that may come next. -/
def importedSignature : Signature :=
  ⟨word 29 .attribute "@import_symbol", word 44 .identifier "f",
    [⟨none, word 46 .identifier "i32"⟩, ⟨none, word 51 .identifier "g"⟩],
    some (word 57 .identifier "i64")⟩

/-- The signature of the function that may. -/
def declaredSignature : Signature :=
  ⟨word 29 .kwFunc "func", word 34 .identifier "f",
    [⟨some (word 36 .identifier "a"), word 39 .identifier "i32"⟩,
      ⟨some (word 44 .identifier "b"), word 47 .identifier "g"⟩],
    some (word 53 .identifier "i64")⟩

/-- `@import_symbol f(i32, g) -> i64`. -/
def importedText : List Token :=
  [word 29 .attribute "@import_symbol", word 44 .identifier "f", word 45 .openParen "(",
    word 46 .identifier "i32", word 49 .comma ",", word 51 .identifier "g",
    word 52 .closeParen ")", word 54 .arrow "->", word 57 .identifier "i64", word 60 .eof ""]

/-- `func f(a: i32, b: g) -> i64 { }`. -/
def declaredText : List Token :=
  [word 29 .kwFunc "func", word 34 .identifier "f", word 35 .openParen "(",
    word 36 .identifier "a", word 37 .colon ":", word 39 .identifier "i32", word 42 .comma ",",
    word 44 .identifier "b", word 45 .colon ":", word 47 .identifier "g", word 48 .closeParen ")",
    word 50 .arrow "->", word 53 .identifier "i64", word 57 .openCurly "\x7b",
    word 59 .closeCurly "\x7d", word 60 .eof ""]

theorem tree_leadingFile : (parse "" leadingFile).1 = .ok ⟨leadingTree, []⟩ := by
  cbv

theorem tree_declaredText : (parse "" (leading ++ declaredText)).1
    = .ok ⟨leadingTree, [.function declaredSignature []]⟩ := by
  cbv

theorem fresh_declaredSignature : declaredSignature.Fresh (parse "" leadingFile).2.scopes := by
  unfold Signature.Fresh
  decide +kernel

theorem knownTypes_importedSignature : ∀ parameter ∈ importedSignature.parameters,
    (parse "" leadingFile).2.scopes.KnowsType parameter.type.value := by
  unfold Scopes.KnowsType
  decide +kernel

theorem mem_importedText : importedText ∈ importedSignature.writtenImport * fileEnd := by
  simp only [Signature.writtenImport, enumeration, importedSignature, List.map, listed,
    writtenReturn, mul_assoc, one_mul]
  refine mem_thisToken_mul rfl (mem_thisToken_mul rfl (mem_oneToken_mul rfl (mem_lineEnds_mul ?_)))
  refine mem_thisToken_mul rfl (mem_comma_mul rfl (mem_thisToken_mul rfl (mem_listGap_mul ?_)))
  refine mem_oneToken_mul rfl (mem_oneToken_mul rfl (mem_thisToken_mul rfl ?_))
  exact mem_fileEnd rfl

theorem mem_declaredText :
    declaredText ∈ (Stmt.function declaredSignature []).written fileEnd := by
  simp only [Stmt.written, Signature.written, enumeration, declaredSignature, List.map, listed,
    Parameter.written, typing, writtenReturn, enclosed, writtenAll, mul_assoc, one_mul]
  refine mem_thisToken_mul rfl (mem_thisToken_mul rfl (mem_oneToken_mul rfl (mem_lineEnds_mul ?_)))
  refine mem_thisToken_mul rfl (mem_oneToken_mul rfl (mem_thisToken_mul rfl (mem_comma_mul rfl ?_)))
  refine mem_thisToken_mul rfl (mem_oneToken_mul rfl (mem_thisToken_mul rfl (mem_listGap_mul ?_)))
  refine mem_oneToken_mul rfl (mem_oneToken_mul rfl (mem_thisToken_mul rfl (mem_lineEnds_mul ?_)))
  refine mem_oneToken_mul rfl (mem_separators_mul (mem_oneToken_mul rfl ?_))
  exact mem_fileEnd rfl

/-- The import is accepted since the function is: its types are `i32` and `g`,
of which one is built in and the other imported. -/
theorem accepted_importedText :
    ∃ program q, parse "" (leading ++ importedText) = (.ok program, q)
      ∧ program.attributes.getLast?
          = some ⟨word 29 .attribute "@import_symbol", some (.imported importedSignature)⟩
      ∧ q.scopes.visibleFunction? "f" = some importedSignature.symbol := by
  have ended : parse "" leadingFile = (.ok ⟨leadingTree, []⟩, (parse "" leadingFile).2) := by
    rw [← tree_leadingFile]
  obtain ⟨p, attached, scopes⟩ :=
    Front.of_accepted ended (by decide) (by decide) (mem_fileEnd rfl)
  have fresh := fresh_declaredSignature
  have known := knownTypes_importedSignature
  rw [← scopes] at fresh known
  have same : importedSignature.SameAs declaredSignature := ⟨rfl, rfl, rfl⟩
  obtain ⟨accepted, both⟩ := accepted_import_iff attached (.inl (mem_fileEnd rfl)) rfl
    (by decide) (by decide) same fresh mem_importedText mem_declaredText
  obtain ⟨program, imported⟩ := accepted.2 ⟨⟨_, tree_declaredText⟩, known⟩
  have left : parse "" (leading ++ importedText)
      = (.ok program, (parse "" (leading ++ importedText)).2) := by
    rw [← imported]
  have right : parse "" (leading ++ declaredText)
      = (.ok ⟨leadingTree, [.function declaredSignature []]⟩,
        (parse "" (leading ++ declaredText)).2) := by
    rw [← tree_declaredText]
  obtain ⟨signature, -, -, visible, -⟩ := both _ _ _ _ left right
  exact ⟨program, _, left, signature, visible⟩

/-- `@import_symbol f(Point)`. -/
def importOfPoint : List Token :=
  [word 0 .attribute "@import_symbol", word 15 .identifier "f", word 16 .openParen "(",
    word 17 .identifier "Point", word 22 .closeParen ")", word 23 .eof ""]

/-- `func f(p: Point) { }`. -/
def functionOfPoint : List Token :=
  [word 0 .kwFunc "func", word 5 .identifier "f", word 6 .openParen "(",
    word 7 .identifier "p", word 8 .colon ":", word 10 .identifier "Point",
    word 15 .closeParen ")", word 17 .openCurly "\x7b", word 19 .closeCurly "\x7d",
    word 20 .eof ""]

/-- **A type that is neither built in nor bound can stand in a function, and in
no import**, not even at the beginning of a file. -/
theorem refused_importOfPoint :
    (parse "" importOfPoint).1 = .error ⟨.notDefined "Point", ⟨17, 1, 18⟩, 5, []⟩
      ∧ (parse "" functionOfPoint).1 = .ok ⟨[], [.function
          ⟨word 0 .kwFunc "func", word 5 .identifier "f",
            [⟨some (word 7 .identifier "p"), word 10 .identifier "Point"⟩], none⟩ []]⟩ := by
  constructor <;> cbv

end ImpFront
