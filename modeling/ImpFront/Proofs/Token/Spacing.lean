/-
  ImpFront.Proofs.Token.Spacing
  ─────────────────────────────
  **TOKENS WITH OTHER LINE ENDS BETWEEN THEM.**

  A run of line ends says no more than one of them.  `unspaced` leaves one of
  each run, and takes the places from the tokens; where two lists become the
  same by it, they can be walked through side by side:

      x ⏎ ⏎ y      token    x            x
      x ⏎ y        lines    ⏎ ⏎          ⏎
                   token    y            y

  What is read from bare tokens, to the end of a stretch or for a declaration
  further down, is then the same in both.
-/
import ImpFront.Grammar.Lookahead
import ImpFront.Proofs.Tree.Placeless
import Mathlib.Data.List.TakeWhile

namespace ImpFront

/-! ## §1. Walking side by side. -/

/-- Tokens without places, with one line end for each run of them. -/
def unspaced : List Token → List Token
  | [] => []
  | token :: rest =>
    if token.kind = .newline ∧ rest.head?.any (fun next => next.kind = .newline) then
      unspaced rest
    else token.placeless :: unspaced rest

/-- Two lists of tokens, of which each token but a line end stands for one,
and each run of line ends for a run.  `T` tells which tokens may do so. -/
inductive Respaced (T : Token → Token → Prop) : List Token → List Token → Prop
  | nil : Respaced T [] []
  /-- A token on both sides. -/
  | token {t t' : Token} {rest rest' : List Token} (alike : T t t') (inline : t.kind ≠ .newline)
      (behind : Respaced T rest rest') : Respaced T (t :: rest) (t' :: rest')
  /-- All line ends up to the next token, on both sides. -/
  | lines {t t' : Token} {more more' rest rest' : List Token} (alike : T t t')
      (line : t.kind = .newline) (all : ∀ u ∈ more, u.kind = .newline)
      (all' : ∀ u ∈ more', u.kind = .newline) (fresh : ∀ u ∈ rest.head?, u.kind ≠ .newline)
      (behind : Respaced T rest rest') :
      Respaced T (t :: (more ++ rest)) (t' :: (more' ++ rest'))

/-- The tokens are the same up to their places. -/
def SameWord (t t' : Token) : Prop :=
  t.placeless = t'.placeless

theorem SameWord.kind {t t' : Token} (h : SameWord t t') : t.kind = t'.kind :=
  (Token.placeless_eq_iff.1 h).1

theorem SameWord.value {t t' : Token} (h : SameWord t t') : t.value = t'.value :=
  (Token.placeless_eq_iff.1 h).2

theorem SameWord.announcesFunction {t t' : Token} (h : SameWord t t') :
    t.announcesFunction = t'.announcesFunction := by
  unfold Token.announcesFunction
  rw [h.kind, h.value]

theorem announcesFunction_of_line {t : Token} (h : t.kind = .newline) :
    t.announcesFunction = false := by
  unfold Token.announcesFunction
  rw [h]
  rfl

namespace Respaced

variable {T : Token → Token → Prop} {ts ts' : List Token}

/-! ### What comes first -/

/-- Both are empty, or both begin with tokens that are alike; and if these are
no line ends, what is behind them is respaced as well. -/
theorem first (h : Respaced T ts ts') :
    (ts = [] ∧ ts' = [])
      ∨ ∃ t t' rest rest', ts = t :: rest ∧ ts' = t' :: rest' ∧ T t t'
        ∧ (t.kind ≠ .newline → Respaced T rest rest') := by
  cases h with
  | nil => exact .inl ⟨rfl, rfl⟩
  | token alike inline behind => exact .inr ⟨_, _, _, _, rfl, rfl, alike, fun _ => behind⟩
  | lines alike line => exact .inr ⟨_, _, _, _, rfl, rfl, alike, fun other => (other line).elim⟩

theorem imp {U : Token → Token → Prop} (h : Respaced T ts ts') (hTU : ∀ t t', T t t' → U t t') :
    Respaced U ts ts' := by
  induction h with
  | nil => exact .nil
  | token alike inline _ ih => exact .token (hTU _ _ alike) inline ih
  | lines alike line all all' fresh _ ih =>
      exact .lines (hTU _ _ alike) line all all' fresh ih

/-- One more token at the end of both. -/
theorem append_one (h : Respaced T ts ts') {t t' : Token} (alike : T t t')
    (inline : t.kind ≠ .newline) : Respaced T (ts ++ [t]) (ts' ++ [t']) := by
  induction h with
  | nil => exact .token alike inline .nil
  | token same other _ ih => exact .token same other ih
  | @lines s s' more more' rest rest' same line all all' fresh _ ih =>
      have fresh : ∀ u ∈ (rest ++ [t]).head?, u.kind ≠ .newline := by
        cases rest with
        | nil => simpa using inline
        | cons next _ => simpa using fresh
      have step := Respaced.lines same line all all' fresh ih
      rwa [← List.append_assoc, ← List.append_assoc] at step

theorem symm (h : Respaced T ts ts') (hT : ∀ t t', T t t' → SameWord t t') :
    Respaced (fun t' t => T t t') ts' ts := by
  induction h with
  | nil => exact .nil
  | token alike inline _ ih => exact .token alike ((hT _ _ alike).kind ▸ inline) ih
  | lines alike line all all' fresh behind ih =>
      refine .lines alike ((hT _ _ alike).kind ▸ line) all' all ?_ ih
      obtain ⟨rfl, rfl⟩ | ⟨u, u', _, _, rfl, rfl, next, -⟩ := behind.first
      · simp
      · rintro v ⟨⟩
        exact (hT _ _ next).kind ▸ fresh u rfl

/-- A last token that is no line end stands for the last one of the other
list, and what is in front of it is respaced as well. -/
theorem last (h : Respaced T ts ts') {front : List Token} {t : Token} (split : ts = front ++ [t])
    (inline : t.kind ≠ .newline) :
    ∃ front' t', ts' = front' ++ [t'] ∧ T t t' ∧ Respaced T front front' := by
  induction h generalizing front with
  | nil => simp at split
  | @token s s' rest rest' alike other behind ih =>
      cases front with
      | nil =>
          obtain ⟨rfl, rfl⟩ := List.cons.inj split
          cases behind
          exact ⟨[], s', rfl, alike, .nil⟩
      | cons first front =>
          obtain ⟨rfl, rfl⟩ := List.cons.inj split
          obtain ⟨front', t', rfl, same, before⟩ := ih rfl
          exact ⟨s' :: front', t', rfl, same, .token alike other before⟩
  | @lines s s' more more' rest rest' alike line all all' fresh _ ih =>
      obtain rfl | ⟨front₀, u, rfl⟩ := List.eq_nil_or_concat rest
      · -- the last token would be a line end
        have member : t ∈ s :: (more ++ []) := split ▸ by simp
        rw [List.append_nil] at member
        cases List.mem_cons.1 member with
        | inl same => exact (inline (same ▸ line)).elim
        | inr inside => exact (inline (all t inside)).elim
      · rw [List.concat_eq_append, ← List.append_assoc, ← List.cons_append] at split
        obtain ⟨rfl, final⟩ := List.append_inj' split rfl
        obtain rfl := List.head_eq_of_cons_eq final
        obtain ⟨front', t', rfl, same, before⟩ := ih (List.concat_eq_append)
        refine ⟨s' :: (more' ++ front'), t', by simp, same, .lines alike line all all' ?_ before⟩
        cases front₀ with
        | nil => simp
        | cons next _ => simpa using fresh

/-! ### Passing over a stretch -/

/-- A stretch that takes in line ends ends at the same token on both sides. -/
theorem dropWhile (h : Respaced T ts ts') (hT : ∀ t t', T t t' → SameWord t t')
    (p : Kind → Bool) (line : p .newline = true) :
    Respaced T (ts.dropWhile fun t => p t.kind) (ts'.dropWhile fun t => p t.kind) := by
  induction h with
  | nil => exact .nil
  | @token t t' _ _ alike inline behind ih =>
      rw [List.dropWhile_cons, List.dropWhile_cons, ← (hT _ _ alike).kind]
      split
      · exact ih
      · exact .token alike inline behind
  | @lines t t' more more' rest rest' alike isLine all all' fresh behind ih =>
      have passed : ∀ (s : Token) (more rest : List Token), s.kind = .newline →
          (∀ u ∈ more, u.kind = .newline) →
          (s :: (more ++ rest)).dropWhile (fun t => p t.kind)
            = rest.dropWhile fun t => p t.kind := by
        intro s more rest hs hmore
        rw [← List.cons_append]
        refine List.dropWhile_append_of_pos fun u hu => ?_
        cases List.mem_cons.1 hu with
        | inl same => rw [same, hs, line]
        | inr inside => rw [hmore u inside, line]
      rw [passed t more rest isLine all, passed t' more' rest' ((hT _ _ alike).kind ▸ isLine) all']
      exact ih

/-- The stretch is empty on both sides or on neither. -/
theorem takeWhile_eq_nil_iff (h : Respaced T ts ts') (hT : ∀ t t', T t t' → SameWord t t')
    (p : Kind → Bool) :
    ts.takeWhile (fun t => p t.kind) = [] ↔ ts'.takeWhile (fun t => p t.kind) = [] := by
  obtain ⟨rfl, rfl⟩ | ⟨t, t', rest, rest', rfl, rfl, alike, -⟩ := h.first
  · rfl
  · rw [List.takeWhile_cons, List.takeWhile_cons, ← (hT _ _ alike).kind]
    split <;> simp

/-! ### Declarations further down -/

theorem typeBehindParameters? (h : Respaced T ts ts') (hT : ∀ t t', T t t' → SameWord t t') :
    ImpFront.typeBehindParameters? ts = ImpFront.typeBehindParameters? ts' := by
  have closing := h.dropWhile hT (fun kind => kind ≠ .closeParen) (by decide)
  have stops := List.head?_dropWhile_not (fun t : Token => decide (t.kind ≠ .closeParen)) ts
  unfold ImpFront.typeBehindParameters?
  generalize ts.dropWhile (fun t => decide (t.kind ≠ .closeParen)) = found at closing stops
  generalize ts'.dropWhile (fun t => decide (t.kind ≠ .closeParen)) = found' at closing
  obtain ⟨rfl, rfl⟩ | ⟨t, t', rest, rest', rfl, rfl, -, behind⟩ := closing.first
  · rfl
  · have parenthesis : t.kind = .closeParen := by simpa using stops
    obtain ⟨rfl, rfl⟩ | ⟨arrow, arrow', rest, rest', rfl, rfl, arrows, behind⟩ :=
      (behind (by rw [parenthesis]; decide)).first
    · rfl
    · have kinds := (hT _ _ arrows).kind
      by_cases isArrow : arrow.kind = .arrow
      · obtain ⟨rfl, rfl⟩ | ⟨type, type', _, _, rfl, rfl, types, -⟩ :=
          (behind (by rw [isArrow]; decide)).first
        · rfl
        · dsimp only
          rw [if_pos isArrow, if_pos (kinds ▸ isArrow), (hT _ _ types).value]
      · -- without an arrow there is no type, whatever comes behind on either side
        have isNoArrow : arrow'.kind ≠ .arrow := kinds ▸ isArrow
        cases rest with
        | nil =>
            cases rest' with
            | nil => rfl
            | cons => exact (if_neg isNoArrow).symm
        | cons =>
            cases rest' with
            | nil => exact if_neg isArrow
            | cons => exact (if_neg isArrow).trans (if_neg isNoArrow).symm

/-- Only whether the token in front announces a function matters. -/
theorem returnTypeAhead?_previous {name : String} {previous previous' : Option Token}
    (same : previous.any Token.announcesFunction = previous'.any Token.announcesFunction)
    (ts : List Token) :
    ImpFront.returnTypeAhead? name previous ts
      = ImpFront.returnTypeAhead? name previous' ts := by
  cases ts with
  | nil => rfl
  | cons t rest =>
      unfold ImpFront.returnTypeAhead?
      rw [same]

/-- No declaration begins at a line end, nor right behind one. -/
theorem returnTypeAhead?_lines (name : String) {t : Token} (line : t.kind = .newline)
    {more : List Token} (all : ∀ u ∈ more, u.kind = .newline) (previous : Option Token)
    (rest : List Token) :
    ImpFront.returnTypeAhead? name previous (t :: (more ++ rest))
      = ImpFront.returnTypeAhead? name none rest := by
  have pass : ImpFront.returnTypeAhead? name previous (t :: (more ++ rest))
      = ImpFront.returnTypeAhead? name (some t) (more ++ rest) := by
    rw [ImpFront.returnTypeAhead?, line]
    simp
  rw [pass]
  induction more generalizing t previous with
  | nil =>
      refine returnTypeAhead?_previous ?_ rest
      rw [Option.any_some, announcesFunction_of_line line]
      rfl
  | cons next others ih =>
      have isLine := all next List.mem_cons_self
      have pass : ImpFront.returnTypeAhead? name (some t) (next :: (others ++ rest))
          = ImpFront.returnTypeAhead? name (some next) (others ++ rest) := by
        rw [ImpFront.returnTypeAhead?, isLine]
        simp
      rw [List.cons_append, pass]
      exact ih isLine (fun u hu => all u (.tail _ hu)) (some t) pass

theorem returnTypeAhead? (h : Respaced T ts ts') (hT : ∀ t t', T t t' → SameWord t t')
    (name : String) {previous previous' : Option Token}
    (same : previous.any Token.announcesFunction = previous'.any Token.announcesFunction) :
    ImpFront.returnTypeAhead? name previous ts
      = ImpFront.returnTypeAhead? name previous' ts' := by
  induction h generalizing previous previous' with
  | nil => rfl
  | @token t t' rest rest' alike inline behind ih =>
      have word := hT _ _ alike
      have parenthesis : (rest.head?.any fun next => next.kind == .openParen)
          = rest'.head?.any fun next => next.kind == .openParen := by
        obtain ⟨rfl, rfl⟩ | ⟨u, u', _, _, rfl, rfl, next, -⟩ := behind.first
        · rfl
        · rw [List.head?_cons, List.head?_cons, Option.any_some, Option.any_some,
            (hT _ _ next).kind]
      unfold ImpFront.returnTypeAhead?
      rw [same, word.kind, word.value, parenthesis, behind.typeBehindParameters? hT]
      split
      · rfl
      · exact ih (by rw [Option.any_some, Option.any_some, word.announcesFunction])
  | @lines t t' more more' rest rest' alike line all all' _ _ ih =>
      rw [returnTypeAhead?_lines name line all,
        returnTypeAhead?_lines name ((hT _ _ alike).kind ▸ line) all']
      exact ih rfl

end Respaced

/-! ## §2. Lists that become the same. -/

theorem unspaced_inline {t : Token} {rest : List Token} (inline : t.kind ≠ .newline) :
    unspaced (t :: rest) = t.placeless :: unspaced rest := by
  rw [unspaced, if_neg fun both => inline both.1]

/-- The rest of a run of line ends is left out. -/
theorem unspaced_line {t : Token} {rest : List Token} (line : t.kind = .newline)
    (feeds : ∀ u ∈ t :: rest, u.kind = .newline → u.value = "\n") :
    unspaced (t :: rest) = ⟨.newline, "\n", .start⟩
      :: unspaced (rest.dropWhile fun u => u.kind = .newline) := by
  induction rest generalizing t with
  | nil =>
      rw [unspaced, if_neg (by simp), Token.placeless, line, feeds t List.mem_cons_self line]
      rfl
  | cons next rest ih =>
      rw [unspaced, List.dropWhile_cons]
      by_cases another : next.kind = .newline
      · rw [if_pos ⟨line, by simpa using another⟩, if_pos (by simpa using another)]
        exact ih another fun u hu => feeds u (.tail _ hu)
      · rw [if_neg (by simp [another]), if_neg (by simpa using another), Token.placeless, line,
          feeds t List.mem_cons_self line]

theorem unspaced_ne_nil (t : Token) (rest : List Token) : unspaced (t :: rest) ≠ [] := by
  induction rest generalizing t with
  | nil => simp [unspaced]
  | cons next rest ih =>
      rw [unspaced]
      split
      · exact ih next
      · simp

/-- Two lists that become the same begin with the same token, and so do what is
left of them: behind the whole run, where that token is a line end. -/
theorem unspaced_cons_inj {t t' : Token} {rest rest' : List Token}
    (same : unspaced (t :: rest) = unspaced (t' :: rest'))
    (feeds : ∀ u ∈ t :: rest, u.kind = .newline → u.value = "\n")
    (feeds' : ∀ u ∈ t' :: rest', u.kind = .newline → u.value = "\n") :
    SameWord t t' ∧ (t.kind ≠ .newline ∧ unspaced rest = unspaced rest'
      ∨ t.kind = .newline ∧ unspaced (rest.dropWhile fun u => u.kind = .newline)
        = unspaced (rest'.dropWhile fun u => u.kind = .newline)) := by
  by_cases line : t.kind = .newline
  · rw [unspaced_line line feeds] at same
    by_cases line' : t'.kind = .newline
    · rw [unspaced_line line' feeds'] at same
      have value := feeds t List.mem_cons_self line
      have value' := feeds' t' List.mem_cons_self line'
      have word : SameWord t t' :=
        Token.placeless_eq_iff.2 ⟨line.trans line'.symm, value.trans value'.symm⟩
      exact ⟨word, .inr ⟨line, (List.cons.inj same).2⟩⟩
    · rw [unspaced_inline line'] at same
      exact (line' (congrArg Token.kind (List.cons.inj same).1).symm).elim
  · rw [unspaced_inline line] at same
    by_cases line' : t'.kind = .newline
    · rw [unspaced_line line' feeds'] at same
      exact (line (congrArg Token.kind (List.cons.inj same).1)).elim
    · rw [unspaced_inline line'] at same
      obtain ⟨word, others⟩ := List.cons.inj same
      exact ⟨word, .inl ⟨line, others⟩⟩

/-- A line end stands for one with all that follow it. -/
theorem Respaced.run {T : Token → Token → Prop} {t t' : Token} {rest rest' : List Token}
    (alike : T t t') (line : t.kind = .newline)
    (behind : Respaced T (rest.dropWhile fun u => u.kind = .newline)
      (rest'.dropWhile fun u => u.kind = .newline)) :
    Respaced T (t :: rest) (t' :: rest') := by
  have all (tokens : List Token) :
      ∀ u ∈ tokens.takeWhile fun u => u.kind = .newline, u.kind = .newline :=
    fun u hu => by simpa using List.mem_takeWhile_imp hu
  have fresh : ∀ u ∈ (rest.dropWhile fun u => u.kind = .newline).head?, u.kind ≠ .newline := by
    intro u hu
    have stop := List.head?_dropWhile_not (fun u : Token => decide (u.kind = .newline)) rest
    rw [Option.mem_def.1 hu] at stop
    simpa using stop
  have step := Respaced.lines alike line (all rest) (all rest') fresh behind
  rwa [List.takeWhile_append_dropWhile, List.takeWhile_append_dropWhile] at step

/-- **Lists that are the same but for their line ends** can be walked through
side by side. -/
theorem respaced_of_unspaced {ts ts' : List Token} (same : unspaced ts = unspaced ts')
    (feeds : ∀ t ∈ ts, t.kind = .newline → t.value = "\n")
    (feeds' : ∀ t ∈ ts', t.kind = .newline → t.value = "\n") : Respaced SameWord ts ts' := by
  -- by the number of tokens, since a run of line ends is passed at once
  induction hn : ts.length using Nat.strong_induction_on generalizing ts ts' with
  | _ n ih =>
    cases ts with
    | nil =>
        cases ts' with
        | nil => exact .nil
        | cons t' rest' => exact (unspaced_ne_nil t' rest' same.symm).elim
    | cons t rest =>
        cases ts' with
        | nil => exact (unspaced_ne_nil t rest same).elim
        | cons t' rest' =>
            rw [List.length_cons] at hn
            obtain ⟨word, ⟨inline, others⟩ | ⟨line, others⟩⟩ :=
              unspaced_cons_inj same feeds feeds'
            · exact .token word inline (ih _ (by omega) others
                (fun u hu => feeds u (.tail _ hu)) (fun u hu => feeds' u (.tail _ hu)) rfl)
            · have fewer := (List.dropWhile_sublist
                (fun u : Token => decide (u.kind = .newline)) (l := rest)).length_le
              exact .run word line (ih _ (by omega) others
                (fun u hu => feeds u (.tail _ (List.dropWhile_subset _ hu)))
                (fun u hu => feeds' u (.tail _ (List.dropWhile_subset _ hu))) rfl)

end ImpFront
