/-
  ImpFront.Proofs.Report.Verdict
  ──────────────────────────────
  **WHAT A CHECK REPORTS.**

  Three things can become of a file, and each has a report of one shape:

      unreadable  —  an error for each unreadable character, their number
      rejected    —  the warnings, one error, the notes of that error
      accepted    —  the warnings

  No file makes the compiler crash, and a file is accepted exactly if no
  error is reported of it.
-/
import ImpFront.Check
import ImpFront.Proofs.Acceptance.Balance
import ImpFront.Proofs.Token.Munch
import ImpFront.Report.Collection

namespace ImpFront

/-! ## §1. Unreadable characters. -/

/-- A place in a text where a character stands that begins no token. -/
def StandsUnreadable (text : List Char) (stray : Char × Position) : Prop :=
  ∃ before behind, text = before ++ stray.1 :: behind
    ∧ stray.2 = Position.start.afterAll before ∧ lexeme? (stray.1 :: behind) = none

namespace Scanner

theorem stray_of_step? {s after : Scanner} {c : Char} {position : Position}
    (h : s.step? = some (some (.stray c position), after)) : lexeme? s.rest = none :=
  lexeme?_eq_none_iff.2 (step?_stray_iff.1 ⟨after, h⟩).2.2

/-- An unreadable character is found where it stands. -/
theorem stray_of_next {s after : Scanner} {c : Char} {position : Position}
    (h : s.next = (some (.stray c position), after)) :
    ∃ gap, s.Passes (gap ++ [c]) after ∧ position = s.position.afterAll gap
      ∧ lexeme? (c :: after.rest) = none := by
  fun_induction next s with
  | case1 => cases h
  | case2 s found following hs =>
      cases h
      obtain ⟨hpass, -, hposition⟩ := passes_of_step? hs
      have hnone := stray_of_step? hs
      rw [hpass.rest] at hnone
      exact ⟨[], hpass, hposition, hnone⟩
  | case3 s following hs ih =>
      obtain ⟨gap, hpass, hposition, hnone⟩ := ih h
      obtain ⟨cs, hskipped, -⟩ := skipped_of_step? hs
      refine ⟨cs ++ gap, ?_, ?_, hnone⟩
      · rw [List.append_assoc]
        exact hskipped.trans hpass
      · rw [hposition, hskipped.position, Position.afterAll_append]

/-- What lies ahead of a scanner in a text from whose start it has come. -/
theorem Exhausts.unreadable {text passed : List Char} {s last : Scanner} {found : List Item}
    (h : s.Exhausts found last) (hs : (⟨text, .start⟩ : Scanner).Passes passed s)
    {stray : Char × Position} (hstray : stray ∈ found.filterMap Item.stray?) :
    StandsUnreadable text stray := by
  induction h generalizing passed with
  | done => simp at hstray
  | @more s after last item found hn _ ih =>
      rw [List.filterMap_cons] at hstray
      obtain ⟨gap, -, hpass, -, -⟩ := gap_of_found hn
      cases item with
      | token => exact ih (hs.trans hpass) hstray
      | stray c position =>
          cases List.mem_cons.1 hstray with
          | inr hlater => exact ih (hs.trans hpass) hlater
          | inl hfirst =>
              subst hfirst
              obtain ⟨gap, hpass, hposition, hnone⟩ := stray_of_next hn
              refine ⟨passed ++ gap, after.rest, ?_, ?_, hnone⟩
              · have whole : text = passed ++ s.rest := hs.rest
                rw [whole, hpass.rest]
                simp
              · rw [hposition, hs.position, Position.afterAll_append]

end Scanner

/-- Each of them stands in the text at its place. -/
theorem standsUnreadable_of_mem {source : String} {stray : Char × Position}
    (h : stray ∈ strays source) : StandsUnreadable (Text.normalize source.toList) stray := by
  have start : (⟨Text.normalize source.toList, .start⟩ : Scanner).Passes []
      ⟨Text.normalize source.toList, .start⟩ := ⟨rfl, rfl⟩
  exact (Scanner.exhausts_items _).1.unreadable start h

/-- They come in the order of the text. -/
theorem strays_ordered (source : String) :
    (strays source).Pairwise fun earlier later => earlier.2.offset < later.2.offset := by
  have tiles := (Scanner.exhausts_items (.ofText source)).1.tiles
  have apart : (Scanner.ofText source).items.1.Pairwise fun earlier later =>
      earlier.position.offset < later.position.offset :=
    tiles.ordered.imp_of_mem fun hearlier _ behind =>
      Nat.lt_of_lt_of_le (tiles.offset_lt_finish hearlier) behind
  refine List.Pairwise.filterMap Item.stray? ?_ apart
  intro earlier later behind a ha b hb
  cases earlier with
  | token => cases ha
  | stray =>
      cases later with
      | token => cases hb
      | stray =>
          cases ha
          cases hb
          exact behind

/-! ## §2. What is shown. -/

/-- A reporter is shown this: a message, a crash, but no entry of the journal
and nothing that was asked for. -/
def Output.isShown : Output → Bool
  | .reported _ | .announced _ _ | .crashed _ _ => true
  | .noted _ | .registered _ _ | .printed _ => false

/-- Of a check a reporter is shown diagnostics and then announcements, and a
collection keeps just those. -/
structure Shows (before : Collection) (outputs : List Output) (diagnostics : List Diagnostic)
    (announcements : List (Severity × String)) : Prop where
  /-- What is shown, in order. -/
  shown : outputs.filter Output.isShown
    = diagnostics.map .reported ++ announcements.map fun said => .announced said.1 said.2
  /-- The diagnostics that are kept. -/
  diagnostics : (before.addAll outputs).diagnostics = before.diagnostics ++ diagnostics
  /-- The announcements that are kept. -/
  announcements : (before.addAll outputs).announcements = before.announcements ++ announcements
  /-- Nothing crashes. -/
  crashes : (before.addAll outputs).crashes = before.crashes

namespace Collection

theorem addAll_cons (c : Collection) (output : Output) (outputs : List Output) :
    c.addAll (output :: outputs) = (c.add output).addAll outputs := rfl

/-- What is not shown does not count for a collection. -/
theorem kept_addAll_filter (c : Collection) (outputs : List Output) :
    (c.addAll outputs).diagnostics = (c.addAll (outputs.filter Output.isShown)).diagnostics
      ∧ (c.addAll outputs).announcements
        = (c.addAll (outputs.filter Output.isShown)).announcements
      ∧ (c.addAll outputs).crashes = (c.addAll (outputs.filter Output.isShown)).crashes := by
  -- two collections that hold the same messages still do after the same outputs
  suffices same : ∀ d : Collection, c.diagnostics = d.diagnostics →
      c.announcements = d.announcements → c.crashes = d.crashes →
      (c.addAll outputs).diagnostics = (d.addAll (outputs.filter Output.isShown)).diagnostics
        ∧ (c.addAll outputs).announcements
          = (d.addAll (outputs.filter Output.isShown)).announcements
        ∧ (c.addAll outputs).crashes = (d.addAll (outputs.filter Output.isShown)).crashes from
    same c rfl rfl rfl
  induction outputs generalizing c with
  | nil => exact fun d hd ha hc => ⟨hd, ha, hc⟩
  | cons output rest ih =>
      intro d hd ha hc
      rw [addAll_cons, List.filter_cons]
      cases output with
      | noted | registered | printed => exact ih _ d hd ha hc
      | reported diagnostic =>
          rw [if_pos (by rfl), addAll_cons]
          exact ih _ _ (congrArg (· ++ [diagnostic]) hd) ha hc
      | announced severity message =>
          rw [if_pos (by rfl), addAll_cons]
          exact ih _ _ hd (congrArg (· ++ [(severity, message)]) ha) hc
      | crashed message context =>
          rw [if_pos (by rfl), addAll_cons]
          exact ih _ _ hd ha (congrArg (· ++ [(message, context)]) hc)

theorem addAll_append (c : Collection) (outputs more : List Output) :
    c.addAll (outputs ++ more) = (c.addAll outputs).addAll more :=
  List.foldl_append

theorem addAll_reported (c : Collection) (diagnostics : List Diagnostic) :
    c.addAll (diagnostics.map .reported)
      = { c with diagnostics := c.diagnostics ++ diagnostics } := by
  induction diagnostics generalizing c with
  | nil => simp [addAll]
  | cons first rest ih =>
      rw [List.map_cons, addAll_cons, ih]
      simp [add]

theorem addAll_announced (c : Collection) (announcements : List (Severity × String)) :
    c.addAll (announcements.map fun said => .announced said.1 said.2)
      = { c with announcements := c.announcements ++ announcements } := by
  induction announcements generalizing c with
  | nil => simp [addAll]
  | cons first rest ih =>
      rw [List.map_cons, addAll_cons, ih]
      simp [add]

end Collection

/-- What a collection keeps follows from what is shown. -/
theorem shows_of {before : Collection} {outputs : List Output} {diagnostics : List Diagnostic}
    {announcements : List (Severity × String)}
    (shown : outputs.filter Output.isShown
      = diagnostics.map .reported ++ announcements.map fun said => .announced said.1 said.2) :
    Shows before outputs diagnostics announcements := by
  obtain ⟨hd, ha, hc⟩ := before.kept_addAll_filter outputs
  rw [shown, Collection.addAll_append, Collection.addAll_reported,
    Collection.addAll_announced] at hd ha hc
  exact ⟨shown, hd, ha, hc⟩

/-- A collection gains an error exactly if one is among the diagnostics. -/
theorem Shows.ofSeverity_eq_iff {before : Collection} {outputs : List Output}
    {diagnostics : List Diagnostic} {announcements : List (Severity × String)}
    (h : Shows before outputs diagnostics announcements) (severity : Severity) :
    (before.addAll outputs).ofSeverity severity = before.ofSeverity severity
      ↔ ∀ d ∈ diagnostics, d.severity ≠ severity := by
  rw [Collection.ofSeverity, h.diagnostics, List.filter_append, Collection.ofSeverity,
    List.append_right_eq_self, List.filter_eq_nil_iff]
  simp

/-! ## §3. The three reports. -/

/-- The diagnostic of an unreadable character. -/
def strayDiagnostic (file : String) (stray : Char × Position) : Diagnostic :=
  .on .error file stray.2 1 ("undefined token: " ++ String.singleton stray.1)

/-- The diagnostic of a remark. -/
def noteDiagnostic (severity : Severity) (file : String) (note : Note) : Diagnostic :=
  .on severity file note.position note.length note.message

/-- The diagnostic of an error, without its notes. -/
def errorDiagnostic (file : String) (e : Error) : Diagnostic :=
  .on .error file e.position e.length e.report

/-- What becomes of a file, and what is reported of it. -/
inductive Verdict (before : Collection) (file source : String) :
    Except Failure Program → List Output → Prop
  /-- Every unreadable character is an error, and their number is announced. -/
  | unreadable {outputs : List Output} (found : strays source ≠ [])
      (shows : Shows before outputs ((strays source).map (strayDiagnostic file))
        [(.error, (Failure.lexical file (strays source).length).message)]) :
      Verdict before file source (.error (.lexical file (strays source).length)) outputs
  /-- The warnings come first, then one error, then its notes. -/
  | rejected {outputs : List Output} {tokens : List Token} {e : Error} {p : Parser}
      (clear : strays source = []) (cut : tokenize source = .ok tokens)
      (refused : parse file tokens = (.error e, p))
      (shows : Shows before outputs (p.warnings.map (noteDiagnostic .warning file)
        ++ errorDiagnostic file e :: e.notes.map (noteDiagnostic .note file)) []) :
      Verdict before file source (.error (.rejected file e)) outputs
  /-- There is nothing but warnings. -/
  | accepted {outputs : List Output} {tokens : List Token} {program : Program} {p : Parser}
      (clear : strays source = []) (cut : tokenize source = .ok tokens)
      (read : parse file tokens = (.ok program, p))
      (shows : Shows before outputs (p.warnings.map (noteDiagnostic .warning file)) []) :
      Verdict before file source (.ok program) outputs

namespace Verdict

variable {before : Collection} {file source : String} {result : Except Failure Program}
  {outputs : List Output}

/-- A file is accepted exactly if no error is reported of it. -/
theorem ok_iff (h : Verdict before file source result outputs) :
    (∃ program, result = .ok program)
      ↔ (before.addAll outputs).ofSeverity .error = before.ofSeverity .error := by
  cases h with
  | unreadable found shows =>
      rw [shows.ofSeverity_eq_iff]
      constructor
      · rintro ⟨_, same⟩
        cases same
      · intro clear
        obtain ⟨stray, hstray⟩ := List.exists_mem_of_ne_nil _ found
        exact (clear _ (List.mem_map_of_mem hstray) rfl).elim
  | @rejected _ _ e _ _ _ _ shows =>
      rw [shows.ofSeverity_eq_iff]
      constructor
      · rintro ⟨_, same⟩
        cases same
      · intro clear
        exact (clear (errorDiagnostic file e) (by simp) rfl).elim
  | @accepted _ _ program _ _ _ _ shows =>
      rw [shows.ofSeverity_eq_iff]
      constructor
      · intro _ d hd
        obtain ⟨note, -, rfl⟩ := List.mem_map.1 hd
        show Severity.warning ≠ .error
        decide
      · intro _
        exact ⟨program, rfl⟩

end Verdict

/-! ## §4. Checking. -/

section

variable (options : CheckOptions) (file source : String)

/-- Of what comes before the outcome of reading only warnings are shown. -/
theorem shown_before (p : Parser) :
    (p.journal.toList.map Output.noted ++ p.warnings.map (Output.ofWarning file)).filter
        Output.isShown
      = (p.warnings.map (noteDiagnostic .warning file)).map .reported := by
  rw [List.filter_append, List.map_map]
  have silent : (p.journal.toList.map Output.noted).filter Output.isShown = [] := by
    simp [Output.isShown]
  have told : (p.warnings.map (Output.ofWarning file)).filter Output.isShown
      = p.warnings.map (Output.ofWarning file) := by
    simp [List.filter_eq_self, Output.isShown, Output.ofWarning]
  rw [silent, told]
  rfl

theorem shown_ofError (e : Error) :
    (Output.ofError file e).filter Output.isShown
      = (errorDiagnostic file e :: e.notes.map (noteDiagnostic .note file)).map .reported := by
  have told : (Output.ofError file e).filter Output.isShown = Output.ofError file e := by
    simp [List.filter_eq_self, Output.isShown, Output.ofError, Output.ofNote]
  rw [told, List.map_cons, List.map_map]
  rfl

theorem shown_checkTokens_ok {tokens : List Token} {program : Program} {p : Parser}
    (h : parse file tokens = (.ok program, p)) :
    (checkTokens options file source tokens).1 = .ok program
      ∧ (checkTokens options file source tokens).2.filter Output.isShown
        = (p.warnings.map (noteDiagnostic .warning file)).map .reported := by
  unfold checkTokens
  rw [h]
  refine ⟨rfl, ?_⟩
  dsimp only
  rw [List.filter_append, shown_before]
  split <;> simp [Output.isShown]

/-- No fault of the file is taken for one of the compiler. -/
theorem shown_checkTokens_error {tokens : List Token} {e : Error} {p : Parser}
    (h : parse file tokens = (.error e, p)) :
    (checkTokens options file source tokens).1 = .error (.rejected file e)
      ∧ (checkTokens options file source tokens).2.filter Output.isShown
        = (p.warnings.map (noteDiagnostic .warning file)
          ++ errorDiagnostic file e :: e.notes.map (noteDiagnostic .note file)).map .reported := by
  unfold checkTokens
  rw [h]
  refine ⟨rfl, ?_⟩
  have ofText : rejection file source e = Output.ofError file e :=
    if_neg (stage_ne_internal_of_refused h)
  dsimp only
  rw [List.filter_append, shown_before, ofText, shown_ofError, List.map_append]

theorem checkSource_error {errors : List Error} (h : tokenize source = .error errors) :
    (checkSource options file source).1 = .error (.lexical file errors.length)
      ∧ (checkSource options file source).2.filter Output.isShown
        = (errors.flatMap (Output.ofError file)).filter Output.isShown
          ++ [.announced .error (Failure.lexical file errors.length).message] := by
  unfold checkSource
  rw [h]
  refine ⟨rfl, ?_⟩
  dsimp only
  simp only [List.filter_append]
  rfl

theorem checkSource_ok {tokens : List Token} (h : tokenize source = .ok tokens) :
    (checkSource options file source).1 = (checkTokens options file source tokens).1
      ∧ (checkSource options file source).2.filter Output.isShown
        = (checkTokens options file source tokens).2.filter Output.isShown := by
  unfold checkSource
  rw [h]
  refine ⟨rfl, ?_⟩
  dsimp only
  have silent : (if options.dumpTokens then tokens.map fun t => Output.printed t.row
      else []).filter Output.isShown = [] := by
    split <;> simp [Output.isShown]
  rw [List.filter_append, List.filter_append, List.filter_append, silent]
  rfl

/-- The errors of unreadable characters have no notes and no advice. -/
theorem shown_strays (found : List (Char × Position)) :
    ((found.map strayError).flatMap (Output.ofError file)).filter Output.isShown
      = (found.map (strayDiagnostic file)).map .reported := by
  induction found with
  | nil => rfl
  | cons first rest ih =>
      rw [List.map_cons, List.flatMap_cons, List.filter_append, ih, shown_ofError]
      rfl

/-- **The report of a check.**  Whatever was collected before, of every text
the check reports in one of three ways; the unreadable characters it reports
stand in the text at the places given, in order; and the file is accepted
exactly if no error is reported. -/
theorem checkSource_verdict (before : Collection) :
    let (result, outputs) := checkSource options file source
    Verdict before file source result outputs
      ∧ (∀ stray ∈ strays source, StandsUnreadable (Text.normalize source.toList) stray)
      ∧ (strays source).Pairwise (fun earlier later => earlier.2.offset < later.2.offset)
      ∧ ((∃ program, result = .ok program)
        ↔ (before.addAll outputs).ofSeverity .error = before.ofSeverity .error) := by
  have verdict : Verdict before file source (checkSource options file source).1
      (checkSource options file source).2 := by
    cases cut : tokenize source with
    | error errors =>
        obtain ⟨found, rfl⟩ := tokenize_error_iff.1 cut
        obtain ⟨result, shown⟩ := checkSource_error options file source cut
        rw [List.length_map] at result shown
        rw [result]
        rw [shown_strays] at shown
        exact .unreadable found (shows_of shown)
    | ok tokens =>
        have clear : strays source = [] := by
          by_contra found
          rw [tokenize_error_iff.2 ⟨found, rfl⟩] at cut
          cases cut
        obtain ⟨result, shown⟩ := checkSource_ok options file source cut
        rw [result]
        cases read : parse file tokens with
        | mk outcome p =>
            cases outcome with
            | error e =>
                obtain ⟨rejected, told⟩ := shown_checkTokens_error options file source read
                rw [rejected]
                exact .rejected clear cut read (shows_of (by rw [shown, told]; simp))
            | ok program =>
                obtain ⟨accepted, told⟩ := shown_checkTokens_ok options file source read
                rw [accepted]
                exact .accepted clear cut read (shows_of (by rw [shown, told]; simp))
  exact ⟨verdict, fun _ h => standsUnreadable_of_mem h, strays_ordered source, verdict.ok_iff⟩

end

end ImpFront
