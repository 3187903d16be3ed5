/-
# Runs of characters

A reader that takes the characters of a class takes them up to the first one outside
the class. These are the two readings of that: a run with such a character behind it
is taken whole, and whatever is taken is a run.
-/

import Mathlib.Data.List.TakeWhile
import SparqlText.Text.Basic

namespace SparqlText.Text

variable {p : Char → Bool} {run rest text : Text} {stop : Char}

theorem takeWhile_run (inside : ∀ char ∈ run, p char = true) (outside : p stop = false) :
    (run ++ stop :: rest).takeWhile p = run := by
  rw [List.takeWhile_append_of_pos inside, List.takeWhile_cons, outside]
  exact List.append_nil run

theorem dropWhile_run (inside : ∀ char ∈ run, p char = true) (outside : p stop = false) :
    (run ++ stop :: rest).dropWhile p = stop :: rest := by
  rw [List.dropWhile_append_of_pos inside, List.dropWhile_cons, outside]
  rfl

/-- What is left behind a run is where the text goes on. -/
theorem eq_takeWhile_append (ends : text.dropWhile p = rest) : text = text.takeWhile p ++ rest := by
  rw [← ends, List.takeWhile_append_dropWhile]

theorem takeWhile_inside (text : Text) : ∀ char ∈ text.takeWhile p, p char = true :=
  fun _ member => List.mem_takeWhile_imp member

end SparqlText.Text
