import Mathlib.Data.List.Basic
import Retest.Text.Line

namespace Retest

section Split

variable {α : Type} [DecidableEq α] {mark : α} {line : List α}

/-- What comes before the first mark is one piece together with it. -/
theorem splitAfter_append (h : mark ∉ line) (rest : List α) :
    splitAfter mark (line ++ mark :: rest) = (line ++ [mark]) :: splitAfter mark rest := by
  induction line with
  | nil => simp [splitAfter]
  | cons a line ih =>
    have ha : a ≠ mark := fun ha => h (ha ▸ List.mem_cons_self)
    have hline : mark ∉ line := fun hm => h (List.mem_cons_of_mem a hm)
    rw [List.cons_append, splitAfter, if_neg ha, ih hline, List.cons_append]

/-- What holds no mark is one piece, if it is anything. -/
theorem splitAfter_of_not_mem (h : mark ∉ line) (hne : line ≠ []) :
    splitAfter mark line = [line] := by
  induction line with
  | nil => exact absurd rfl hne
  | cons a line ih =>
    have ha : a ≠ mark := fun ha => h (ha ▸ List.mem_cons_self)
    have hline : mark ∉ line := fun hm => h (List.mem_cons_of_mem a hm)
    rw [splitAfter, if_neg ha]
    cases line with
    | nil => rfl
    | cons b line => rw [ih hline (List.cons_ne_nil b line)]

end Split

def IsLineEnd (e : List Char) : Prop := e = ['\n'] ∨ e = ['\r', '\n']

section Chomp

variable {line : List Char}

theorem chompLine_of_not_mem (h : '\n' ∉ line) : chompLine line = line := by
  have hreverse : '\n' ∉ line.reverse := fun hm => h (List.mem_reverse.mp hm)
  rw [chompLine]
  cases hr : line.reverse with
  | nil => rfl
  | cons c front =>
    have hc : c ≠ '\n' := fun hc => hreverse (by rw [hr, hc]; exact List.mem_cons_self)
    split <;> simp_all

/-- Without its end a line is what was written, or that without a carriage return at its end. -/
theorem chompLine_cases (line : List Char) {e : List Char} (he : IsLineEnd e) :
    chompLine (line ++ e) = line ∨ line = chompLine (line ++ e) ++ ['\r'] := by
  rcases he with rfl | rfl
  · rw [chompLine, List.reverse_append]
    cases hr : line.reverse with
    | nil =>
      obtain rfl : line = [] := List.reverse_eq_nil_iff.mp hr
      exact Or.inl rfl
    | cons c front =>
      obtain rfl : line = front.reverse ++ [c] := by
        rw [← List.reverse_reverse line, hr, List.reverse_cons]
      by_cases hc : c = '\r'
      · exact Or.inr (by simp [hc])
      · exact Or.inl (by simp [hc])
  · exact Or.inl (by simp [chompLine])

/-- A line that does not end in a carriage return is left as it was written. -/
theorem chompLine_append {e : List Char} (he : IsLineEnd e) (h : line.getLast? ≠ some '\r') :
    chompLine (line ++ e) = line := by
  rcases chompLine_cases line he with hsame | hreturn
  · exact hsame
  · rw [hreturn, List.getLast?_concat] at h
    exact absurd rfl h

end Chomp

section Text

variable {line : List Char} (h : '\n' ∉ line)
include h

theorem textLines_append {e : List Char} (he : IsLineEnd e) (text : List Char) :
    textLines (line ++ e ++ text) = chompLine (line ++ e) :: textLines text := by
  rcases he with rfl | rfl
  · rw [textLines, List.append_assoc, List.singleton_append, splitAfter_append h]
    rfl
  · -- The cut is made at line feeds only, so at first a carriage return belongs to its line.
    have hreturn : '\n' ∉ line ++ ['\r'] := by simpa using h
    have hsplit := splitAfter_append hreturn text
    rw [List.append_assoc, List.append_assoc, List.singleton_append] at hsplit
    rw [textLines, List.append_assoc]
    exact congrArg (List.map chompLine) hsplit

theorem textLines_of_not_mem (hne : line ≠ []) : textLines line = [line] := by
  rw [textLines, splitAfter_of_not_mem h hne, List.map_singleton, chompLine_of_not_mem h]

end Text

end Retest
