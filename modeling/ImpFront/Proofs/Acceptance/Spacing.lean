/-
  ImpFront.Proofs.Acceptance.Spacing
  ──────────────────────────────────
  **BLANK LINES MAKE NO DIFFERENCE.**

  Two files that differ in the lengths of their runs of line ends, and so in
  the places of their tokens, are read side by side: to the same tree but for
  places, or to errors with the same cause and the same notes, and in either
  case with the same warnings.

      unspaced tokens = unspaced tokens'  →  the same reading

  Places matter at one point only, where unanswered calls are put in the order
  of the file.  There the names of both files have to come in the same order,
  which they do if offsets rise from token to token.
-/
import ImpFront.Proofs.Acceptance.Blame
import ImpFront.Proofs.Token.Spacing

namespace ImpFront

/-! ## §1. Names in the same order. -/

/-- The tokens stand one behind the other, and line ends are line feeds. -/
structure Laid (tokens : List Token) : Prop where
  /-- Offsets rise. -/
  rising : tokens.Pairwise fun s t => s.position.offset < t.position.offset
  /-- Every line end is a line feed. -/
  feeds : ∀ t ∈ tokens, t.kind = .newline → t.value = "\n"

/-- The names among some tokens. -/
def namesAmong (tokens : List Token) : List Token :=
  tokens.filter fun t => t.kind = .identifier

/-- Names that stand for each other, in the order of both files. -/
def Rising (pairs : List (Token × Token)) : Prop :=
  pairs.Pairwise fun one other => one.1.position.offset < other.1.position.offset
    ∧ one.2.position.offset < other.2.position.offset

theorem rising_zip {names names' : List Token}
    (h : names.Pairwise fun s t => s.position.offset < t.position.offset)
    (h' : names'.Pairwise fun s t => s.position.offset < t.position.offset) :
    Rising (names.zip names') := by
  refine List.pairwise_iff_getElem.2 fun i j hi hj before => ?_
  rw [List.length_zip] at hi hj
  rw [List.getElem_zip, List.getElem_zip]
  exact ⟨List.pairwise_iff_getElem.1 h i j (by omega) (by omega) before,
    List.pairwise_iff_getElem.1 h' i j (by omega) (by omega) before⟩

/-- Of two pairs the one that is first in one file is so in the other. -/
theorem Rising.offset_le_iff {pairs : List (Token × Token)} (h : Rising pairs)
    {one other : Token × Token} (hone : one ∈ pairs) (hother : other ∈ pairs) :
    one.1.position.offset ≤ other.1.position.offset
      ↔ one.2.position.offset ≤ other.2.position.offset := by
  obtain ⟨i, hi, rfl⟩ := List.mem_iff_getElem.1 hone
  obtain ⟨j, hj, rfl⟩ := List.mem_iff_getElem.1 hother
  have before := List.pairwise_iff_getElem.1 h
  obtain less | rfl | more := lt_trichotomy i j
  · have := before i j hi hj less
    omega
  · exact iff_of_true le_rfl le_rfl
  · have := before j i hj hi more
    omega

/-- The tokens are the same but for their places, and names are one of the
pairs. -/
structure StandsFor (pairs : List (Token × Token)) (t t' : Token) : Prop where
  /-- The word. -/
  word : SameWord t t'
  /-- The pair. -/
  paired : t.kind = .identifier → (t, t') ∈ pairs

theorem StandsFor.mono {pairs more : List (Token × Token)} (h : pairs ⊆ more) {t t' : Token}
    (ht : StandsFor pairs t t') : StandsFor more t t' :=
  ⟨ht.word, fun name => h (ht.paired name)⟩

/-- Walking side by side, one meets the names of both lists in pairs. -/
theorem Respaced.paired {ts ts' : List Token} (h : Respaced SameWord ts ts') :
    Respaced (StandsFor ((namesAmong ts).zip (namesAmong ts'))) ts ts' := by
  induction h with
  | nil => exact .nil
  | @token t t' rest rest' word inline _ ih =>
      unfold namesAmong
      rw [List.filter_cons, List.filter_cons, ← word.kind]
      by_cases name : t.kind = .identifier
      · rw [if_pos (by simpa using name), if_pos (by simpa using name), List.zip_cons_cons]
        exact .token ⟨word, fun _ => List.mem_cons_self⟩ inline
          (ih.imp fun _ _ => .mono (List.subset_cons_self _ _))
      · rw [if_neg (by simpa using name), if_neg (by simpa using name)]
        exact .token ⟨word, fun other => (name other).elim⟩ inline ih
  | @lines t t' more more' rest rest' word line all all' fresh _ ih =>
      -- there are no names among line ends
      have without : ∀ (s : Token) (more rest : List Token), s.kind = .newline →
          (∀ u ∈ more, u.kind = .newline) →
          namesAmong (s :: (more ++ rest)) = namesAmong rest := by
        intro s more rest hs hmore
        have none : namesAmong (s :: more) = [] := by
          refine List.filter_eq_nil_iff.2 fun u hu => ?_
          cases List.mem_cons.1 hu with
          | inl same => simp [same, hs]
          | inr inside => simp [hmore u inside]
        rw [← List.cons_append, namesAmong, List.filter_append]
        exact (congrArg (· ++ _) none).trans (List.nil_append _)
      rw [without t more rest line all, without t' more' rest' (word.kind ▸ line) all']
      exact .lines ⟨word, fun name => by rw [line] at name; cases name⟩ line all all' fresh ih

/-! ## §2. Places. -/

/-- Two places, with tokens ahead of them that differ in their line ends. -/
structure SameAhead (pairs : List (Token × Token)) (c d : Cursor) : Prop where
  /-- The tokens ahead. -/
  ahead : Respaced (StandsFor pairs) c.ahead d.ahead
  /-- The end tokens. -/
  final : SameWord c.final d.final
  /-- The token in front announces a function in both files or in neither. -/
  announced : c.behind.head?.any Token.announcesFunction
    = d.behind.head?.any Token.announcesFunction

namespace SameAhead

variable {pairs : List (Token × Token)} {c d : Cursor}

theorem standsFor_final (h : SameAhead pairs c d) : StandsFor pairs c.final d.final :=
  ⟨h.final, fun name => by rw [c.final_kind] at name; cases name⟩

theorem current (h : SameAhead pairs c d) : StandsFor pairs c.current d.current := by
  unfold Cursor.current Cursor.peek
  obtain ⟨hc, hd⟩ | ⟨t, t', rest, rest', hc, hd, alike, -⟩ := h.ahead.first
  · rw [hc, hd]
    exact h.standsFor_final
  · rw [hc, hd]
    exact alike

theorem advance (h : SameAhead pairs c d) (inline : c.current.kind ≠ .newline) :
    SameAhead pairs c.advance d.advance := by
  unfold Cursor.advance
  obtain ⟨hc, hd⟩ | ⟨t, t', rest, rest', hc, hd, alike, behind⟩ := h.ahead.first
  · rw [hc, hd]
    exact h
  · have first : c.current = t := by simp [Cursor.current, Cursor.peek, hc]
    rw [hc, hd]
    exact ⟨behind (first ▸ inline), h.final, alike.word.announcesFunction⟩

/-- Passing over a stretch of tokens that takes in line ends and announces no
function. -/
theorem skip (h : SameAhead pairs c d) (p : Kind → Bool) (line : p .newline = true)
    (quiet : ∀ t : Token, p t.kind = true → t.announcesFunction = false) :
    SameAhead pairs (c.skip p) (d.skip p) := by
  have words : ∀ t t', StandsFor pairs t t' → SameWord t t' := fun _ _ h => h.word
  refine ⟨h.ahead.dropWhile words p line, h.final, ?_⟩
  have announced (c : Cursor) : (c.skip p).behind.head?.any Token.announcesFunction
      = if c.run p = [] then c.behind.head?.any Token.announcesFunction else false := by
    show ((c.run p).reverse ++ c.behind).head?.any Token.announcesFunction = _
    obtain none | ⟨front, last, whole⟩ := List.eq_nil_or_concat (c.run p)
    · rw [none]
      rfl
    · have member : last ∈ c.run p := by rw [whole]; simp
      rw [whole, List.concat_eq_append, List.reverse_append, if_neg (by simp)]
      exact quiet last (List.mem_takeWhile_imp (p := fun t : Token => p t.kind) member)
  have empty : c.run p = [] ↔ d.run p = [] := h.ahead.takeWhile_eq_nil_iff words p
  rw [announced, announced, h.announced]
  by_cases nothing : c.run p = []
  · rw [if_pos nothing, if_pos (empty.1 nothing)]
  · rw [if_neg nothing, if_neg (nothing ∘ empty.2)]

theorem returnTypeAhead? (h : SameAhead pairs c d) (name : String) :
    c.returnTypeAhead? name = d.returnTypeAhead? name := by
  have whole := h.ahead.append_one h.standsFor_final (by rw [c.final_kind]; decide)
  exact whole.returnTypeAhead? (fun _ _ h => h.word) name h.announced

end SameAhead

/-- The lockstep of two files that differ in their line ends. -/
def Lockstep.respaced (pairs : List (Token × Token)) (rising : Rising pairs) : Lockstep where
  token := StandsFor pairs
  kind h := h.word.kind
  value h := h.word.value
  order hs ht nameS nameT := rising.offset_le_iff (hs.paired nameS) (ht.paired nameT)
  cursor := SameAhead pairs
  current h := h.current
  advance h inline := h.advance inline
  lines h := h.skip _ rfl fun t line => announcesFunction_of_line (by simpa using line)
  separators h := h.skip _ rfl fun t separates => by
    unfold Token.announcesFunction
    cases kind : t.kind
    all_goals first | rfl | (rw [kind] at separates; cases separates)
  ahead name h := h.returnTypeAhead? name

/-! ## §3. The beginning of a file. -/

/-- The end token is the last one given, if that is one, or else is added. -/
theorem Cursor.ofTokens_cases (tokens : List Token) :
    (∃ final front, tokens = front ++ [final] ∧ final.kind = .eof
        ∧ (ofTokens tokens).behind = [] ∧ (ofTokens tokens).ahead = front
        ∧ (ofTokens tokens).final = final)
      ∨ (∀ front final, tokens = front ++ [final] → final.kind ≠ .eof)
        ∧ (ofTokens tokens).behind = [] ∧ (ofTokens tokens).ahead = tokens
        ∧ (ofTokens tokens).final.placeless = ⟨.eof, "", .start⟩ := by
  obtain rfl | ⟨front, final, rfl⟩ := List.eq_nil_or_concat tokens
  · exact .inr ⟨fun front final h => by simp at h, rfl, rfl, rfl⟩
  · rw [List.concat_eq_append]
    unfold ofTokens
    rw [List.getLast?_concat]
    by_cases ending : final.kind = .eof
    · refine .inl ⟨final, front, rfl, ending, ?_⟩
      dsimp only
      rw [dif_pos ending]
      exact ⟨rfl, List.dropLast_concat, rfl⟩
    · refine .inr ⟨fun other last same => ?_, ?_⟩
      · obtain rfl := List.head_eq_of_cons_eq (List.append_inj' same rfl).2
        exact ending
      · dsimp only
        rw [dif_neg ending]
        exact ⟨rfl, rfl, rfl⟩

theorem sameAhead_ofTokens {tokens tokens' : List Token} (h : Respaced SameWord tokens tokens') :
    Respaced SameWord (Cursor.ofTokens tokens).ahead (Cursor.ofTokens tokens').ahead
      ∧ SameWord (Cursor.ofTokens tokens).final (Cursor.ofTokens tokens').final
      ∧ (Cursor.ofTokens tokens).behind = [] ∧ (Cursor.ofTokens tokens').behind = [] := by
  obtain ⟨final, front, whole, ending, behind, ahead, last⟩ | ⟨open_, behind, ahead, last⟩ :=
    Cursor.ofTokens_cases tokens
  all_goals
    obtain ⟨final', front', whole', ending', behind', ahead', last'⟩
        | ⟨open_', behind', ahead', last'⟩ := Cursor.ofTokens_cases tokens'
  · obtain ⟨front₀, final₀, whole₀, word, before⟩ := h.last whole (by rw [ending]; decide)
    obtain ⟨rfl, one⟩ := List.append_inj' (whole'.symm.trans whole₀) rfl
    obtain rfl := List.head_eq_of_cons_eq one
    rw [ahead, ahead', last, last']
    exact ⟨before, word, behind, behind'⟩
  · obtain ⟨front₀, final₀, whole₀, word, -⟩ := h.last whole (by rw [ending]; decide)
    exact (open_' front₀ final₀ whole₀ (word.kind ▸ ending)).elim
  · obtain ⟨front₀, final₀, whole₀, word, -⟩ :=
      (h.symm fun _ _ word => word).last whole' (by rw [ending']; decide)
    exact (open_ front₀ final₀ whole₀ (SameWord.kind word ▸ ending')).elim
  · rw [ahead, ahead']
    exact ⟨h, last.trans last'.symm, behind, behind'⟩

/-! ## §4. Reading. -/

/-- Two outcomes of reading that differ in places alone. -/
inductive SameReading : Except Error Program × Parser → Except Error Program × Parser → Prop
  /-- The trees are the same but for places. -/
  | accepted {program program' : Program} {p q : Parser}
      (trees : program.placeless = program'.placeless) (told : p.told = q.told) :
      SameReading (.ok program, p) (.ok program', q)
  /-- The errors have the same cause, and their notes have the same texts. -/
  | refused {e e' : Error} {p q : Parser} (cause : e.cause = e'.cause)
      (notes : e.notes.map Note.message = e'.notes.map Note.message) (told : p.told = q.told) :
      SameReading (.error e, p) (.error e', q)

theorem Laid.scattered {tokens : List Token} (laid : Laid tokens) : Scattered tokens :=
  List.pairwise_map.2 (laid.rising.imp Nat.ne_of_lt)

/-- **Blank lines make no difference.**  Two files whose tokens are the same
but for places and for the lengths of runs of line ends are read alike, in
whatever orders their waiting calls are visited. -/
theorem sameReading_of_unspaced {tokens tokens' : List Token} (laid : Laid tokens)
    (laid' : Laid tokens') (same : unspaced tokens = unspaced tokens') (file file' : String)
    (order order' : Table.Traversal Pending) :
    SameReading (parse file tokens order) (parse file' tokens' order') := by
  -- offsets rise, so that the order of visits makes no difference to either file
  rw [parse_reordered laid.scattered order .entry, parse_reordered laid'.scattered order' .entry]
  have respaced := respaced_of_unspaced same laid.feeds laid'.feeds
  obtain ⟨ahead, final, behind, behind'⟩ := sameAhead_ofTokens respaced
  have rising : Rising ((namesAmong (Cursor.ofTokens tokens).ahead).zip
      (namesAmong (Cursor.ofTokens tokens').ahead)) :=
    rising_zip (laid.rising.sublist (List.filter_sublist.trans (Cursor.ahead_ofTokens_sublist _)))
      (laid'.rising.sublist (List.filter_sublist.trans (Cursor.ahead_ofTokens_sublist _)))
  have start : SameAhead _ (Cursor.ofTokens tokens) (Cursor.ofTokens tokens') :=
    ⟨ahead.paired, final, by rw [behind, behind']⟩
  have outcome := Lockstep.likeOutcome_of_start (R := .respaced _ rising) start file file'
  generalize parse file tokens = read at outcome ⊢
  generalize parse file' tokens' = read' at outcome ⊢
  cases outcome with
  | accepted trees told => exact .accepted trees told
  | refused errors told =>
      refine .refused errors.cause ?_ told
      have texts := List.rel_map (P := (· = ·)) (fun _ _ note => Likeness.LikeNote.message note)
        errors.notes
      exact List.forall₂_eq_eq_eq ▸ texts

/-- `if true {}`, two line ends, `else {}`, a line end, `far()`. -/
def spacedOut : List Token :=
  [word 0 .kwIf "if", word 3 .boolean "true", word 8 .openCurly "\x7b",
    word 9 .closeCurly "\x7d", ⟨.newline, "\n", ⟨10, 1, 11⟩⟩, ⟨.newline, "\n", ⟨11, 2, 1⟩⟩,
    ⟨.kwElse, "else", ⟨12, 3, 1⟩⟩, ⟨.openCurly, "\x7b", ⟨17, 3, 6⟩⟩,
    ⟨.closeCurly, "\x7d", ⟨18, 3, 7⟩⟩, ⟨.newline, "\n", ⟨19, 3, 8⟩⟩,
    ⟨.identifier, "far", ⟨20, 4, 1⟩⟩, ⟨.openParen, "(", ⟨23, 4, 4⟩⟩,
    ⟨.closeParen, ")", ⟨24, 4, 5⟩⟩]

/-- The same with one line end in front of `else` and three behind its body. -/
def spacedOtherwise : List Token :=
  [word 0 .kwIf "if", word 3 .boolean "true", word 8 .openCurly "\x7b",
    word 9 .closeCurly "\x7d", ⟨.newline, "\n", ⟨10, 1, 11⟩⟩,
    ⟨.kwElse, "else", ⟨11, 2, 1⟩⟩, ⟨.openCurly, "\x7b", ⟨16, 2, 6⟩⟩,
    ⟨.closeCurly, "\x7d", ⟨17, 2, 7⟩⟩, ⟨.newline, "\n", ⟨18, 2, 8⟩⟩,
    ⟨.newline, "\n", ⟨19, 3, 1⟩⟩, ⟨.newline, "\n", ⟨20, 4, 1⟩⟩,
    ⟨.identifier, "far", ⟨21, 5, 1⟩⟩, ⟨.openParen, "(", ⟨24, 5, 4⟩⟩,
    ⟨.closeParen, ")", ⟨25, 5, 5⟩⟩]

/-- Both files are read alike. -/
theorem sameReading_spacedOut :
    Laid spacedOut ∧ Laid spacedOtherwise ∧ unspaced spacedOut = unspaced spacedOtherwise
      ∧ SameReading (parse "" spacedOut) (parse "" spacedOtherwise) := by
  have laid : Laid spacedOut := ⟨by decide, by decide⟩
  have laid' : Laid spacedOtherwise := ⟨by decide, by decide⟩
  have same : unspaced spacedOut = unspaced spacedOtherwise := by decide
  exact ⟨laid, laid', same, sameReading_of_unspaced laid laid' same "" "" .entry .entry⟩

end ImpFront
