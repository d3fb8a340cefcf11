import Mathlib.Data.List.DropRight
import MatStack.Lib.Text

/-!
# Lines of a text

Two ways to cut a text into lines: `List.splitOn` leaves the line feeds out and has a last empty
line when the text ends with one, `splitInclusive` leaves each line its line feed. `unlines` is the
text of lines that have no line feed of their own, with or without one at the end; both cuts undo
it.
-/

namespace Lines

/-- The pieces of a text, each with the line feed that ends it. -/
def splitInclusive : List Char → List (List Char)
  | [] => []
  | c :: cs =>
    if c = '\n' then ['\n'] :: splitInclusive cs
    else
      match splitInclusive cs with
      | [] => [[c]]
      | line :: lines => (c :: line) :: lines

/-- A line without the line feed, or the carriage return and the line feed, that ends it. -/
def stripLineEnd (line : List Char) : List Char :=
  if line.getLast? = some '\n' then
    if line.dropLast.getLast? = some '\r' then line.dropLast.dropLast else line.dropLast
  else line

/-- The lines of a text, without their ends. -/
def lines (text : List Char) : List (List Char) := (splitInclusive text).map stripLineEnd

/-- The text of the lines: a line feed between them, and after the last if `trailing`. -/
def unlines (trailing : Bool) : List (List Char) → List Char
  | [] => []
  | [line] => if trailing then line ++ ['\n'] else line
  | line :: lines => line ++ '\n' :: unlines trailing lines

section
variable {line text : List Char} {ls : List (List Char)} {trailing : Bool}

theorem unlines_cons (h : ls ≠ []) :
    unlines trailing (line :: ls) = line ++ '\n' :: unlines trailing ls := by
  cases ls with
  | nil => exact absurd rfl h
  | cons l ls => rfl

/-- Joined lines, and a line feed if asked for. -/
theorem unlines_eq (h : ls ≠ []) :
    unlines trailing ls = ['\n'].intercalate ls ++ if trailing then ['\n'] else [] := by
  induction ls with
  | nil => exact absurd rfl h
  | cons l ls ih =>
    cases ls with
    | nil => cases trailing <;> simp [unlines]
    | cons l' ls =>
      rw [unlines_cons (by simp), ih (by simp), List.intercalate_cons_cons]
      simp

/-- The text ends with its last line. -/
theorem suffix_unlines : line <:+ unlines false (ls ++ [line]) := by
  induction ls with
  | nil => exact List.suffix_refl _
  | cons l ls ih =>
    rw [List.cons_append, unlines_cons (by simp)]
    exact ih.trans ((List.suffix_cons _ _).trans (List.suffix_append _ _))

/-- An empty last line is a line feed at the end. -/
theorem unlines_concat_nil (h : ls ≠ []) : unlines false (ls ++ [[]]) = unlines true ls := by
  induction ls with
  | nil => exact absurd rfl h
  | cons l ls ih =>
    by_cases hls : ls = []
    · rw [hls]
      rfl
    · rw [List.cons_append, unlines_cons (by simp), unlines_cons hls, ih hls]

/-! ## Cutting at line feeds -/

theorem splitInclusive_cons (h : '\n' ∉ line) :
    splitInclusive (line ++ '\n' :: text) = (line ++ ['\n']) :: splitInclusive text := by
  induction line with
  | nil => simp [splitInclusive]
  | cons c line ih =>
    rw [List.mem_cons, not_or] at h
    rw [List.cons_append, splitInclusive, if_neg (Ne.symm h.1), ih h.2]
    rfl

theorem splitInclusive_of_not_mem (h : '\n' ∉ line) (hne : line ≠ []) :
    splitInclusive line = [line] := by
  induction line with
  | nil => exact absurd rfl hne
  | cons c line ih =>
    rw [List.mem_cons, not_or] at h
    rw [splitInclusive, if_neg (Ne.symm h.1)]
    by_cases hl : line = []
    · rw [hl]
      rfl
    · rw [ih h.2 hl]

/-- The lines of a text have no line feed. -/
theorem not_mem_of_mem_splitOn (h : line ∈ text.splitOn '\n') : '\n' ∉ line := by
  induction text generalizing line with
  | nil =>
    rw [List.splitOn_nil, List.mem_singleton] at h
    rw [h]
    exact List.not_mem_nil
  | cons c text ih =>
    rw [List.splitOn_cons_eq_if_modifyHead] at h
    split at h
    · obtain rfl | h := List.mem_cons.1 h
      · exact List.not_mem_nil
      · exact ih h
    · next hc =>
      cases hs : text.splitOn '\n' with
      | nil => exact absurd hs (List.splitOn_ne_nil _ _)
      | cons l ls =>
        rw [hs, List.modifyHead_cons] at h
        obtain rfl | h := List.mem_cons.1 h
        · rw [List.mem_cons, not_or]
          refine ⟨fun hn => hc (beq_iff_eq.2 hn.symm), ih ?_⟩
          rw [hs]
          exact List.mem_cons_self ..
        · refine ih ?_
          rw [hs]
          exact List.mem_cons_of_mem _ h

end

end Lines
