/-
  ImpFront.Proofs.Text.Normal
  ───────────────────────────
  **NORMALIZING A TEXT, LINE BY LINE.**

  Normalization splits a text into its lines and joins them again.  Read from
  the front it is simpler: what stands before the first line feed becomes
  empty or stays, and the rest is normalized by itself.

      normalize (line ++ '\n' :: rest)  =  normalLine line ++ '\n' :: normalize rest

  Whatever is shown for a last line, and handed on over a line feed, holds of
  every text.  So the lines of the normalized text are the normal lines of the
  text, number by number, and a line with more than blanks is the same in both.
-/
import ImpFront.Text.Lines

namespace ImpFront.Text

/-! ## §1. Lines. -/

/-- What holds of a single line, and of a line in front of a text of which it
holds, holds of every text. -/
theorem lines_induction {motive : List Char → Prop} (single : ∀ line, '\n' ∉ line → motive line)
    (more : ∀ line rest, '\n' ∉ line → motive rest → motive (line ++ '\n' :: rest))
    (cs : List Char) : motive cs := by
  -- by the length: the text behind a line feed is shorter
  induction hn : cs.length using Nat.strongRecOn generalizing cs with
  | _ n ih =>
      by_cases hfeed : '\n' ∈ cs
      · obtain ⟨line, rest, rfl, hline⟩ := List.eq_append_cons_of_mem hfeed
        refine more line rest hline (ih rest.length ?_ rest rfl)
        rw [← hn, List.length_append, List.length_cons]
        omega
      · exact single cs hfeed

theorem splitLines_cons {c : Char} (hc : c ≠ '\n') {cs line : List Char} {lines : List (List Char)}
    (h : splitLines cs = line :: lines) : splitLines (c :: cs) = (c :: line) :: lines := by
  rw [splitLines, if_neg hc, h]

theorem splitLines_single {line : List Char} (h : '\n' ∉ line) : splitLines line = [line] := by
  induction line with
  | nil => rfl
  | cons c line ih =>
      rw [List.mem_cons, not_or] at h
      exact splitLines_cons (Ne.symm h.1) (ih h.2)

theorem splitLines_append {line : List Char} (h : '\n' ∉ line) (rest : List Char) :
    splitLines (line ++ '\n' :: rest) = line :: splitLines rest := by
  induction line with
  | nil =>
      show splitLines ('\n' :: rest) = _
      rw [splitLines, if_pos rfl]
  | cons c line ih =>
      rw [List.mem_cons, not_or] at h
      exact splitLines_cons (Ne.symm h.1) (ih h.2)

/-! ## §2. Normal lines. -/

/-- A line of blanks only becomes empty. -/
def normalLine (line : List Char) : List Char :=
  if isBlankLine line then [] else line

theorem normalLine_of_blank {line : List Char} (h : ∀ c ∈ line, isBlank c) :
    normalLine line = [] := by
  exact if_pos (List.all_eq_true.2 h)

theorem normalLine_of_mem {line : List Char} {c : Char} (hc : c ∈ line) (h : isBlank c = false) :
    normalLine line = line := by
  refine if_neg fun hblank => ?_
  have hall := List.all_eq_true.1 hblank c hc
  rw [h] at hall
  contradiction

theorem normalLine_eq_of_ne_nil {line : List Char} (h : normalLine line ≠ []) :
    normalLine line = line := by
  unfold normalLine at h ⊢
  split at h
  · contradiction
  · next hblank => exact if_neg hblank

theorem normalLine_normalLine (line : List Char) :
    normalLine (normalLine line) = normalLine line := by
  by_cases h : normalLine line = []
  · rw [h]
    rfl
  · rw [normalLine_eq_of_ne_nil h, normalLine_eq_of_ne_nil h]

theorem not_mem_feed_normalLine {line : List Char} (h : '\n' ∉ line) : '\n' ∉ normalLine line := by
  unfold normalLine
  split
  · exact List.not_mem_nil
  · exact h

theorem count_normalLine {line : List Char} (h : '\n' ∉ line) :
    (normalLine line).count '\n' = 0 := by
  unfold normalLine
  split
  · rfl
  · exact List.count_eq_zero.2 h

theorem normalize_single {line : List Char} (h : '\n' ∉ line) :
    normalize line = normalLine line := by
  unfold normalize
  rw [splitLines_single h]
  rfl

/-- **Up to the first line feed and behind it**, each by itself. -/
theorem normalize_append {line : List Char} (h : '\n' ∉ line) (rest : List Char) :
    normalize (line ++ '\n' :: rest) = normalLine line ++ '\n' :: normalize rest := by
  unfold normalize
  rw [splitLines_append h]
  obtain ⟨next, lines, hs⟩ := List.exists_cons_of_ne_nil (splitLines_ne_nil rest)
  rw [hs]
  rfl

/-- Normalization keeps the line feeds. -/
theorem count_normalize (cs : List Char) : (normalize cs).count '\n' = cs.count '\n' := by
  induction cs using lines_induction with
  | single line hline =>
      rw [normalize_single hline, count_normalLine hline, List.count_eq_zero.2 hline]
  | more line rest hline ih =>
      rw [normalize_append hline, List.count_append, List.count_append, List.count_cons_self,
        List.count_cons_self, ih, count_normalLine hline, List.count_eq_zero.2 hline]

/-! ## §3. Lines by number. -/

/-- **The lines of a normalized text are the normal lines of the text.** -/
theorem splitLines_normalize (cs : List Char) :
    splitLines (normalize cs) = (splitLines cs).map normalLine := by
  induction cs using lines_induction with
  | single line hline =>
      rw [normalize_single hline, splitLines_single hline,
        splitLines_single (not_mem_feed_normalLine hline)]
      rfl
  | more line rest hline ih =>
      rw [normalize_append hline, splitLines_append hline,
        splitLines_append (not_mem_feed_normalLine hline), ih]
      rfl

/-- What is normalized stays as it is. -/
theorem normalize_normalize (cs : List Char) : normalize (normalize cs) = normalize cs := by
  show joinLines ((splitLines (normalize cs)).map normalLine)
    = joinLines ((splitLines cs).map normalLine)
  rw [splitLines_normalize, List.map_map]
  congr 2
  exact funext normalLine_normalLine

/-- What stands in a line of the normalized text stands in the line of the
same number in the text. -/
theorem getElem?_of_normalize {cs line : List Char} {n : Nat}
    (h : (splitLines (normalize cs))[n]? = some line) (hne : line ≠ []) :
    (splitLines cs)[n]? = some line := by
  rw [splitLines_normalize, List.getElem?_map] at h
  obtain ⟨given, hgiven, rfl⟩ := Option.map_eq_some_iff.1 h
  rw [hgiven, normalLine_eq_of_ne_nil hne]

/-- The rest of the line behind the start of a text. -/
def lineAfter (cs : List Char) : List Char :=
  cs.takeWhile (· != '\n')

/-- The part of the line in front of the end of a text. -/
def lineBefore (cs : List Char) : List Char :=
  (lineAfter cs.reverse).reverse

theorem lineAfter_append {w : List Char} (h : '\n' ∉ w) (rest : List Char) :
    lineAfter (w ++ rest) = w ++ lineAfter rest := by
  refine List.takeWhile_append_of_pos fun c hc => ?_
  have hfeed : c ≠ '\n' := fun same => h (same ▸ hc)
  simpa using hfeed

theorem lineAfter_of_not_mem {line : List Char} (h : '\n' ∉ line) : lineAfter line = line := by
  have hline := lineAfter_append h []
  rwa [List.append_nil, show lineAfter [] = [] from rfl, List.append_nil] at hline

/-- What stands behind a line feed is not of the line. -/
theorem lineAfter_append_feed (w rest : List Char) :
    lineAfter (w ++ '\n' :: rest) = lineAfter w := by
  induction w with
  | nil => rfl
  | cons c w ih =>
      unfold lineAfter at ih ⊢
      rw [List.cons_append, List.takeWhile_cons, List.takeWhile_cons, ih]

theorem lineBefore_of_not_mem {line : List Char} (h : '\n' ∉ line) : lineBefore line = line := by
  unfold lineBefore
  rw [lineAfter_of_not_mem (by rwa [List.mem_reverse]), List.reverse_reverse]

/-- A line feed begins the line anew. -/
theorem lineBefore_append_feed (line rest : List Char) :
    lineBefore (line ++ '\n' :: rest) = lineBefore rest := by
  unfold lineBefore
  rw [List.reverse_append, List.reverse_cons, List.append_assoc, List.singleton_append,
    lineAfter_append_feed]

theorem head?_splitLines (cs : List Char) : (splitLines cs)[0]? = some (lineAfter cs) := by
  induction cs using lines_induction with
  | single line hline =>
      rw [splitLines_single hline, lineAfter_of_not_mem hline]
      rfl
  | more line rest hline =>
      rw [splitLines_append hline, lineAfter_append_feed, lineAfter_of_not_mem hline]
      rfl

/-- **The line around a place of a text** has the number of the line feeds in
front of it. -/
theorem getElem?_splitLines (before after : List Char) :
    (splitLines (before ++ after))[before.count '\n']?
      = some (lineBefore before ++ lineAfter after) := by
  induction before using lines_induction with
  | single line hline =>
      rw [List.count_eq_zero.2 hline, head?_splitLines, lineAfter_append hline,
        lineBefore_of_not_mem hline]
  | more line rest hline ih =>
      rw [List.append_assoc, List.cons_append, splitLines_append hline, lineBefore_append_feed,
        List.count_append, List.count_cons_self, List.count_eq_zero.2 hline, Nat.zero_add,
        List.getElem?_cons_succ, ih]

end ImpFront.Text
