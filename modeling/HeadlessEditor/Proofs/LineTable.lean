import HeadlessEditor.Document.LineTable

/-!
The line table answers as the walk over the lines does. Both are compared with one description of a
place: `lineOffset` says where a line starts, and a column is at most the length of its line. A place
is determined by its offset, so whatever finds a line that starts at or before the offset and ends at
or after it has found the right one.
-/

namespace HeadlessEditor

/-- Offset of the first character of a line; the newlines above it count. -/
def lineOffset : List Text → Nat → Nat
  | _, 0 => 0
  | [], _ + 1 => 0
  | line :: rest, i + 1 => line.length + 1 + lineOffset rest i

@[simp] theorem lineOffset_zero (lines : List Text) : lineOffset lines 0 = 0 := by
  cases lines <;> rfl

@[simp] theorem lineOffset_cons_succ (line : Text) (rest : List Text) (i : Nat) :
    lineOffset (line :: rest) (i + 1) = line.length + 1 + lineOffset rest i := rfl

/-- A line starts one after the end of the line above. -/
theorem lineOffset_succ (lines : List Text) (i : Nat) (h : i < lines.length) :
    lineOffset lines (i + 1) = lineOffset lines i + lines[i].length + 1 := by
  induction lines generalizing i with
  | nil => simp at h
  | cons line rest ih =>
    cases i with
    | zero => simp
    | succ i =>
      have hi : i < rest.length := by simpa using h
      simp only [lineOffset_cons_succ, ih i hi, List.getElem_cons_succ]
      omega

theorem lineOffset_mono (lines : List Text) {i j : Nat} (hij : i ≤ j) (hj : j ≤ lines.length) :
    lineOffset lines i ≤ lineOffset lines j := by
  induction j with
  | zero =>
    obtain rfl : i = 0 := by omega
    exact Nat.le_refl _
  | succ j ih =>
    obtain h | h : i = j + 1 ∨ i ≤ j := by omega
    · exact Nat.le_of_eq (congrArg (lineOffset lines) h)
    · have hstep := lineOffset_succ lines j (by omega)
      have hrest := ih h (by omega)
      omega

/-- A line ends before a line below the last one would start. -/
theorem lineOffset_add_length_lt (lines : List Text) {i : Nat} (h : i < lines.length) :
    lineOffset lines i + lines[i].length < lineOffset lines lines.length := by
  have hnext := lineOffset_succ lines i h
  have hmono := lineOffset_mono lines (show i + 1 ≤ lines.length from h) (Nat.le_refl _)
  omega

theorem lineOffset_length {lines : List Text} (h : lines ≠ []) :
    lineOffset lines lines.length = LineTable.totalLength lines + 1 := by
  induction lines with
  | nil => exact absurd rfl h
  | cons line rest ih =>
    cases rest with
    | nil => simp [LineTable.totalLength]
    | cons next others =>
      rw [List.length_cons, lineOffset_cons_succ, ih (List.cons_ne_nil next others)]
      simp only [LineTable.totalLength]
      omega

namespace Position

/-- What the walk finds is a place: a line, a column on it, and the offset that they name. -/
theorem ofOffset_spec (offset : Nat) (lines : List Text) (h : lines ≠ []) :
    ∃ hline : (ofOffset offset lines).line < lines.length,
      (ofOffset offset lines).column ≤ (lines[(ofOffset offset lines).line]).length ∧
      (ofOffset offset lines).offset
        = lineOffset lines (ofOffset offset lines).line + (ofOffset offset lines).column ∧
      (ofOffset offset lines).offset = min offset (LineTable.totalLength lines) := by
  induction lines generalizing offset with
  | nil => exact absurd rfl h
  | cons line rest ih =>
    cases rest with
    | nil =>
      refine ⟨by simp [ofOffset], ?_, ?_, ?_⟩
      · exact Nat.min_le_right offset line.length
      · simp [ofOffset]
      · simp [ofOffset, LineTable.totalLength]
    | cons next others =>
      by_cases hfirst : offset ≤ line.length
      · refine ⟨by simp [ofOffset, hfirst], ?_, ?_, ?_⟩
        · simp [ofOffset, hfirst]
        · simp [ofOffset, hfirst]
        · simp only [ofOffset, hfirst, if_true, LineTable.totalLength]
          omega
      · obtain ⟨hline, hcolumn, hoffset, hmin⟩ :=
          ih (offset - (line.length + 1)) (by simp)
        simp only [ofOffset, hfirst, if_false, List.length_cons, List.getElem_cons_succ,
          lineOffset_cons_succ, LineTable.totalLength]
        exact ⟨by simpa using hline, hcolumn, by omega, by omega⟩

/-- The walk finds every place by its offset. -/
theorem ofOffset_lineOffset_add (lines : List Text) (line column : Nat)
    (hline : line < lines.length) (hcolumn : column ≤ lines[line].length) :
    ofOffset (lineOffset lines line + column) lines
      = ⟨line, column, lineOffset lines line + column⟩ := by
  induction lines generalizing line with
  | nil => simp at hline
  | cons first rest ih =>
    cases rest with
    | nil =>
      obtain rfl : line = 0 := by simpa using hline
      have hle : column ≤ first.length := by simpa using hcolumn
      simp [ofOffset, hle]
    | cons next others =>
      cases line with
      | zero =>
        have hle : column ≤ first.length := by simpa using hcolumn
        simp [ofOffset, hle]
      | succ line =>
        have hfirst : ¬ first.length + 1 + lineOffset (next :: others) line + column
            ≤ first.length := by omega
        have hrest : first.length + 1 + lineOffset (next :: others) line + column
            - (first.length + 1) = lineOffset (next :: others) line + column := by omega
        have hplace := ih line (by simpa using hline) (by simpa using hcolumn)
        simp only [ofOffset, lineOffset_cons_succ, hfirst, if_false, hrest, hplace]
        simp [Nat.add_assoc]

/-- The offset of a line and column that are in the document. -/
theorem offsetOf_of_lt (lines : List Text) (line column : Nat) (h : line < lines.length) :
    offsetOf line column lines = lineOffset lines line + min column lines[line].length := by
  induction lines generalizing line with
  | nil => simp at h
  | cons first rest ih =>
    cases rest with
    | nil =>
      obtain rfl : line = 0 := by simpa using h
      simp [offsetOf]
    | cons next others =>
      cases line with
      | zero => simp [offsetOf]
      | succ line =>
        have hrest := ih line (by simpa using h)
        simp [offsetOf, hrest, Nat.add_assoc]

/-- A line past the last one stands for the end of the document. -/
theorem offsetOf_of_ge (lines : List Text) (line column : Nat) (h : lines.length ≤ line) :
    offsetOf line column lines = LineTable.totalLength lines := by
  induction lines generalizing line with
  | nil => rfl
  | cons first rest ih =>
    have hline : line ≠ 0 := by rintro rfl; simp at h
    cases rest with
    | nil => simp [offsetOf, LineTable.totalLength, hline]
    | cons next others =>
      have hle : (next :: others).length ≤ line - 1 := by
        rw [List.length_cons] at h
        omega
      simp [offsetOf, LineTable.totalLength, hline, ih (line - 1) hle]

/-- The walk to an offset and back gives the offset, moved into the document. -/
theorem ofOffset_offset (offset : Nat) (lines : List Text) :
    (ofOffset offset lines).offset = min offset (LineTable.totalLength lines) := by
  by_cases h : lines = []
  · subst h; simp [ofOffset, zero, LineTable.totalLength]
  · exact (ofOffset_spec offset lines h).2.2.2

/-- Line and column of a place lead back to its offset. -/
theorem offsetOf_ofOffset (offset : Nat) (lines : List Text) :
    offsetOf (ofOffset offset lines).line (ofOffset offset lines).column lines
      = (ofOffset offset lines).offset := by
  by_cases h : lines = []
  · subst h; rfl
  · obtain ⟨hline, hcolumn, hoffset, -⟩ := ofOffset_spec offset lines h
    rw [offsetOf_of_lt lines _ _ hline, Nat.min_eq_left hcolumn, hoffset]

end Position

namespace LineTable

theorem startsFrom_length (offset : Nat) (lines : List Text) :
    (startsFrom offset lines).length = lines.length := by
  induction lines generalizing offset with
  | nil => rfl
  | cons line rest ih => simp [startsFrom, ih]

theorem startsFrom_getElem (offset : Nat) (lines : List Text) (i : Nat)
    (h : i < (startsFrom offset lines).length) :
    (startsFrom offset lines)[i] = offset + lineOffset lines i := by
  induction lines generalizing offset i with
  | nil => simp [startsFrom] at h
  | cons line rest ih =>
    cases i with
    | zero => simp [startsFrom]
    | succ i =>
      have hi : i < (startsFrom (offset + line.length + 1) rest).length := by
        simpa [startsFrom] using h
      simp only [startsFrom, List.getElem_cons_succ, ih _ i hi, lineOffset_cons_succ]
      omega

@[simp] theorem total_ofLines (lines : List Text) : (ofLines lines).total = totalLength lines := rfl

theorem starts_ofLines (lines : List Text) (h : lines ≠ []) :
    (ofLines lines).starts = (startsFrom 0 lines).toArray := by
  simp [ofLines, h]

theorem lineCount_ofLines (lines : List Text) (h : lines ≠ []) :
    (ofLines lines).lineCount = lines.length := by
  simp [lineCount, starts_ofLines lines h, startsFrom_length]

theorem starts_getD (lines : List Text) (i : Nat) (h : i < lines.length) :
    (ofLines lines).starts.getD i 0 = lineOffset lines i := by
  have hne : lines ≠ [] := by rintro rfl; simp at h
  have hlength : i < (startsFrom 0 lines).length := by rwa [startsFrom_length]
  simp [starts_ofLines lines hne, Array.getD, hlength, startsFrom_getElem]

theorem lineStart_ofLines (lines : List Text) (i : Nat) (h : i < lines.length) :
    (ofLines lines).lineStart i = lineOffset lines i := by
  have hne : lines ≠ [] := by rintro rfl; simp at h
  have hsize : (ofLines lines).starts.size = lines.length := lineCount_ofLines lines hne
  have hmin : min i (lines.length - 1) = i := by omega
  rw [lineStart, hsize, hmin, starts_getD lines i h]

theorem lineLength_ofLines (lines : List Text) (i : Nat) :
    (ofLines lines).lineLength i = ((lines[i]?).getD []).length := by
  by_cases h : lines = []
  · subst h
    cases i <;> simp [ofLines, lineLength, Array.getD]
  · by_cases hi : i < lines.length
    · simp [ofLines, lineLength, h, hi, Array.getD]
    · simp [ofLines, lineLength, h, hi, Array.getD]

theorem lineLength_of_lt (lines : List Text) (i : Nat) (h : i < lines.length) :
    (ofLines lines).lineLength i = lines[i].length := by
  simp [lineLength_ofLines, h]

/-- Halving keeps the starts before `lo` at or before the offset and those from `hi` on after it, so
that it ends at the border between the two. -/
theorem firstAfter_spec (starts : Array Nat) (offset : Nat)
    (sorted : ∀ i j, i ≤ j → j < starts.size → starts.getD i 0 ≤ starts.getD j 0)
    (steps lo hi : Nat) (hsteps : hi - lo ≤ steps) (hlo : lo ≤ hi) (hhi : hi ≤ starts.size)
    (before : ∀ i < lo, starts.getD i 0 ≤ offset)
    (after : ∀ i, hi ≤ i → i < starts.size → offset < starts.getD i 0) :
    firstAfter starts offset steps lo hi ≤ starts.size ∧
    (∀ i < firstAfter starts offset steps lo hi, starts.getD i 0 ≤ offset) ∧
    (∀ i, firstAfter starts offset steps lo hi ≤ i → i < starts.size →
      offset < starts.getD i 0) := by
  induction steps generalizing lo hi with
  | zero =>
    obtain rfl : lo = hi := by omega
    exact ⟨hhi, before, after⟩
  | succ steps ih =>
    by_cases hlt : lo < hi
    · by_cases hmiddle : starts.getD ((lo + hi) / 2) 0 ≤ offset
      · simp only [firstAfter, hlt, hmiddle, if_true]
        refine ih _ _ (by omega) (by omega) hhi ?_ after
        intro i hi'
        exact Nat.le_trans (sorted i _ (by omega) (by omega)) hmiddle
      · simp only [firstAfter, hlt, hmiddle, if_true, if_false]
        refine ih _ _ (by omega) (by omega) (by omega) before ?_
        intro i hle hsize
        exact Nat.lt_of_lt_of_le (by omega) (sorted _ i hle hsize)
    · obtain rfl : lo = hi := by omega
      simp only [firstAfter, Nat.lt_irrefl, if_false]
      exact ⟨hhi, before, after⟩

theorem starts_sorted (lines : List Text) (h : lines ≠ []) (i j : Nat) (hij : i ≤ j)
    (hj : j < (ofLines lines).starts.size) :
    (ofLines lines).starts.getD i 0 ≤ (ofLines lines).starts.getD j 0 := by
  have hsize : (ofLines lines).starts.size = lines.length := lineCount_ofLines lines h
  rw [starts_getD lines i (by omega), starts_getD lines j (by omega)]
  exact lineOffset_mono lines hij (by omega)

/-- The search finds the line of a place by its offset. -/
theorem lineAt_lineOffset_add (lines : List Text) (line column : Nat)
    (hline : line < lines.length) (hcolumn : column ≤ lines[line].length) :
    (ofLines lines).lineAt (lineOffset lines line + column) = line := by
  have hne : lines ≠ [] := by rintro rfl; simp at hline
  have hsize : (ofLines lines).starts.size = lines.length := lineCount_ofLines lines hne
  obtain ⟨hle, before, after⟩ :=
    firstAfter_spec (ofLines lines).starts (lineOffset lines line + column)
      (starts_sorted lines hne) (ofLines lines).starts.size 0 (ofLines lines).starts.size
      (by omega) (by omega) (by omega) (by omega) (by omega)
  unfold lineAt
  generalize firstAfter _ _ _ _ _ = border at hle before after ⊢
  -- The line itself starts before the border, the line below it does not.
  have hbelow : line < border := by
    rcases Nat.lt_or_ge line border with h | h
    · exact h
    · have hstart := after line h (by omega)
      rw [starts_getD lines line hline] at hstart
      omega
  have habove : border ≤ line + 1 := by
    rcases Nat.lt_or_ge (line + 1) border with h | h
    · have hstart := before (line + 1) h
      rw [starts_getD lines (line + 1) (by omega), lineOffset_succ lines line hline] at hstart
      omega
    · exact h
  omega

/-- The table finds the places that the walk finds. -/
theorem positionOf_ofLines (lines : List Text) (offset : Nat) :
    (ofLines lines).positionOf offset = Position.ofOffset offset lines := by
  by_cases h : lines = []
  · subst h
    simp [positionOf, ofLines, lineAt, firstAfter, lineStart, lineLength, totalLength,
      Position.ofOffset, Position.zero, Array.getD]
  · obtain ⟨hline, hcolumn, hoffset, hmin⟩ := Position.ofOffset_spec offset lines h
    generalize Position.ofOffset offset lines = place at hline hcolumn hoffset hmin ⊢
    obtain ⟨line, column, found⟩ := place
    simp only at hline hcolumn hoffset hmin
    have hclamped : min offset (ofLines lines).total = lineOffset lines line + column := by
      rw [total_ofLines, ← hmin, hoffset]
    have hat := lineAt_lineOffset_add lines line column hline hcolumn
    simp only [positionOf, hclamped, hat, lineStart_ofLines lines line hline,
      lineLength_of_lt lines line hline, Nat.add_sub_cancel_left, Nat.min_eq_left hcolumn, hoffset]

/-- The table finds the offsets that the walk finds. -/
theorem offsetOf_ofLines (lines : List Text) (line column : Nat) :
    (ofLines lines).offsetOf line column = Position.offsetOf line column lines := by
  by_cases h : lines = []
  · subst h
    cases line <;> simp [offsetOf, lineCount, ofLines, lineStart, lineLength, totalLength,
      Position.offsetOf, Array.getD]
  · by_cases hline : line < lines.length
    · rw [Position.offsetOf_of_lt lines line column hline]
      simp [offsetOf, lineCount_ofLines lines h, hline, lineStart_ofLines, lineLength_of_lt]
    · rw [Position.offsetOf_of_ge lines line column (by omega)]
      simp [offsetOf, lineCount_ofLines lines h, hline]

end LineTable

end HeadlessEditor
