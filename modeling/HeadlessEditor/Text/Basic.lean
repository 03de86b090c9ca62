/-!
Text is the list of its characters: offsets and columns count characters, never bytes. A text is
cut into lines at every newline, so that there is always at least one line.
-/

namespace HeadlessEditor

abbrev Text := List Char

/-- The largest offset that a caller can name. -/
def maxOffset : Nat := 0xffffffffffffffff

namespace Text

def lines : Text → List Text
  | [] => [[]]
  | c :: rest =>
    if c = '\n' then [] :: lines rest
    else
      match lines rest with
      | [] => [[c]]
      | first :: others => (c :: first) :: others

def ofLines : List Text → Text
  | [] => []
  | [line] => line
  | line :: rest => line ++ '\n' :: ofLines rest

/-- The characters with offsets in `[start, stop)`. -/
def slice (text : Text) (start stop : Nat) : Text := (text.drop start).take (stop - start)

/-- The text with the characters of `[start, stop)` replaced by `inserted`. -/
def splice (text : Text) (start stop : Nat) (inserted : Text) : Text :=
  text.take start ++ inserted ++ text.drop stop

@[simp] theorem lines_nil : lines [] = [[]] := rfl

@[simp] theorem lines_newline (rest : Text) : lines ('\n' :: rest) = [] :: lines rest := by
  simp [lines]

theorem lines_ne_nil (text : Text) : lines text ≠ [] := by
  cases text with
  | nil => simp
  | cons c rest => simp only [lines]; split <;> (try split) <;> simp

theorem lines_cons_of_ne {c : Char} (h : c ≠ '\n') (rest : Text) :
    ∃ first others, lines rest = first :: others ∧ lines (c :: rest) = (c :: first) :: others := by
  cases hr : lines rest with
  | nil => exact absurd hr (lines_ne_nil rest)
  | cons first others => exact ⟨first, others, rfl, by simp [lines, h, hr]⟩

theorem ofLines_cons_cons (c : Char) (first : Text) (others : List Text) :
    ofLines ((c :: first) :: others) = c :: ofLines (first :: others) := by
  cases others <;> simp [ofLines]

/-- Cutting into lines loses nothing. -/
theorem ofLines_lines (text : Text) : ofLines (lines text) = text := by
  induction text with
  | nil => rfl
  | cons c rest ih =>
    by_cases h : c = '\n'
    · subst h
      cases hr : lines rest with
      | nil => exact absurd hr (lines_ne_nil rest)
      | cons first others => rw [lines_newline, hr, ofLines, ← hr, ih, List.nil_append]; simp
    · obtain ⟨first, others, hr, hc⟩ := lines_cons_of_ne h rest
      rw [hc, ofLines_cons_cons, ← hr, ih]

end Text

end HeadlessEditor
