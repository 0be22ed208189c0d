import Mathlib.Data.List.Basic

/-!
The longest run of characters of a class at the start of a text, where it is known what stands
after the run.
-/

namespace UsageReport.Text

/-- The text does not start with a character of the class. -/
def Clear (p : Char → Bool) (text : List Char) : Prop := ∀ c ∈ text.head?, p c = false

theorem clear_nil (p : Char → Bool) : Clear p [] := by
  intro c hc
  cases hc

theorem clear_cons {p : Char → Bool} {c : Char} {rest : List Char} :
    Clear p (c :: rest) ↔ p c = false := by
  simp [Clear]

theorem takeWhile_append_of_clear {p : Char → Bool} {run rest : List Char}
    (hrun : ∀ c ∈ run, p c = true) (hrest : Clear p rest) : (run ++ rest).takeWhile p = run := by
  rw [List.takeWhile_append_of_pos hrun]
  cases rest with
  | nil => simp
  | cons c rest => simp [clear_cons.mp hrest]

theorem dropWhile_append_of_clear {p : Char → Bool} {run rest : List Char}
    (hrun : ∀ c ∈ run, p c = true) (hrest : Clear p rest) : (run ++ rest).dropWhile p = rest := by
  rw [List.dropWhile_append_of_pos hrun]
  cases rest with
  | nil => rfl
  | cons c rest => simp [clear_cons.mp hrest]

theorem clear_append_of_ne_nil {p : Char → Bool} {first : List Char} (rest : List Char)
    (hne : first ≠ []) : Clear p (first ++ rest) ↔ Clear p first := by
  cases first with
  | nil => exact absurd rfl hne
  | cons c first => rw [List.cons_append, clear_cons, clear_cons]

theorem clear_dropWhile (p : Char → Bool) (text : List Char) : Clear p (text.dropWhile p) := by
  intro c hc
  have hhead := List.head?_dropWhile_not p text
  rw [Option.mem_def.mp hc] at hhead
  simpa using hhead

theorem Clear.append {p : Char → Bool} {first rest : List Char} (hfirst : Clear p first)
    (hrest : Clear p rest) : Clear p (first ++ rest) := by
  cases first with
  | nil => exact hrest
  | cons c first => exact clear_cons.mpr (clear_cons.mp hfirst)

theorem Clear.of_append {p : Char → Bool} {first rest : List Char}
    (hclear : Clear p (first ++ rest)) : Clear p first := by
  cases first with
  | nil => exact clear_nil p
  | cons c first => exact clear_cons.mpr (clear_cons.mp hclear)

end UsageReport.Text
