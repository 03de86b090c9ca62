import HeadlessEditor.Document.Operation
import HeadlessEditor.Proofs.LineTable

/-!
Places of a document. A buffer is sound if its lines and its table belong to its text, which every
writer sees to. A position is a place of a buffer if its line and column are those of its offset; so
all that a buffer answers are places, and among places the order of the document is the order of the
offsets.
-/

namespace HeadlessEditor

namespace Text

theorem totalLength_lines (text : Text) : LineTable.totalLength text.lines = text.length := by
  induction text with
  | nil => rfl
  | cons c rest ih =>
    by_cases h : c = '\n'
    · subst h
      cases hr : lines rest with
      | nil => exact absurd hr (lines_ne_nil rest)
      | cons first others =>
        rw [hr] at ih
        simp [hr, LineTable.totalLength, ih, Nat.add_comm]
    · obtain ⟨first, others, hr, hc⟩ := lines_cons_of_ne h rest
      rw [hr] at ih
      rw [hc, List.length_cons, ← ih]
      cases others with
      | nil =>
        simp only [LineTable.totalLength, List.length_cons]
      | cons next others =>
        simp only [LineTable.totalLength, List.length_cons]
        omega

/-- A line below the last one would start one past the end, for a newline that is not there. -/
theorem lineOffset_lines_length (text : Text) :
    lineOffset text.lines text.lines.length = text.length + 1 := by
  rw [lineOffset_length text.lines_ne_nil, totalLength_lines]

@[simp] theorem length_splice (text inserted : Text) (start stop : Nat) :
    (text.splice start stop inserted).length
      = min start text.length + inserted.length + (text.length - stop) := by
  simp [splice, Nat.add_assoc]

/-- Putting back what stands there changes nothing. -/
theorem splice_slice (text : Text) {start stop : Nat} (h : start ≤ stop) :
    text.splice start stop (text.slice start stop) = text := by
  have hdrop : text.drop stop = (text.drop start).drop (stop - start) := by
    rw [List.drop_drop]
    congr 1
    omega
  rw [splice, slice, hdrop, List.append_assoc, List.take_append_drop, List.take_append_drop]

theorem length_slice (text : Text) {start stop : Nat} (hs : stop ≤ text.length) :
    (text.slice start stop).length = stop - start := by
  simp [slice]
  omega

theorem slice_ne_nil (text : Text) {start stop : Nat} (hlt : start < stop)
    (hs : stop ≤ text.length) : text.slice start stop ≠ [] := by
  rw [← List.length_pos_iff, length_slice text hs]
  omega

end Text

namespace Position

theorem le_iff (a b : Position) :
    a ≤ b ↔ a.line < b.line ∨ a.line = b.line ∧
      (a.column < b.column ∨ a.column = b.column ∧ a.offset ≤ b.offset) := by
  change order a b ≠ .gt ↔ _
  unfold order
  rcases Nat.lt_trichotomy a.line b.line with h | h | h
  · simp [Nat.compare_eq_lt.2 h, h]
  · rcases Nat.lt_trichotomy a.column b.column with hc | hc | hc
    · simp [h, Nat.compare_eq_lt.2 hc, hc]
    · simp [h, hc, Nat.compare_ne_gt]
    · have hne : ¬ a.column < b.column ∧ a.column ≠ b.column := by omega
      simp [h, Nat.compare_eq_gt.2 hc, hne]
  · have hne : ¬ a.line < b.line ∧ a.line ≠ b.line := by omega
    simp [Nat.compare_eq_gt.2 h, hne]

theorem le_total (a b : Position) : a ≤ b ∨ b ≤ a := by
  rw [le_iff, le_iff]
  omega

theorem le_antisymm {a b : Position} (hab : a ≤ b) (hba : b ≤ a) : a = b := by
  rw [le_iff] at hab hba
  obtain ⟨line, column, offset⟩ := a
  obtain ⟨line', column', offset'⟩ := b
  simp only at hab hba
  simp only [mk.injEq]
  omega

theorem lt_iff_not_le (a b : Position) : a < b ↔ ¬ b ≤ a := by
  have hswap : order b a = (order a b).swap := by
    simp [order, Ordering.swap_then, Nat.compare_swap]
  change order a b = .lt ↔ ¬ order b a ≠ .gt
  rw [hswap]
  cases order a b <;> simp

theorem lt_iff (a b : Position) :
    a < b ↔ a.line < b.line ∨ a.line = b.line ∧
      (a.column < b.column ∨ a.column = b.column ∧ a.offset < b.offset) := by
  rw [lt_iff_not_le, le_iff]
  omega

theorem not_lt_of_le {a b : Position} (h : a ≤ b) : ¬ b < a := by
  rw [lt_iff_not_le]
  exact fun hnot => hnot h

theorem lt_asymm {a b : Position} (h : a < b) : ¬ b < a :=
  not_lt_of_le ((le_total a b).resolve_right ((lt_iff_not_le a b).1 h))

end Position

namespace Buffer

structure Sound (buffer : Buffer) : Prop where
  lines : buffer.lines = buffer.content.lines
  table : buffer.table = LineTable.ofLines buffer.lines

theorem sound_load (text : Text) : (load text).Sound := ⟨rfl, rfl⟩

theorem sound_write (buffer : Buffer) (content : Text) : (buffer.write content).Sound := ⟨rfl, rfl⟩

theorem Sound.replace {buffer : Buffer} (h : buffer.Sound) (start stop : Nat) (text : Text) :
    (buffer.replace start stop text).1.Sound := by
  simp only [Buffer.replace]
  split
  · exact h
  · exact sound_write _ _

theorem Sound.perform {buffer : Buffer} (h : buffer.Sound) (operation : BufferOperation) :
    (buffer.perform operation).Sound := by
  cases operation with
  | setContent text => exact sound_write _ _
  | insert offset text => exact h.replace offset offset text
  | delete start stop => exact h.replace start stop []
  | replace start stop text => exact h.replace start stop text
  | setEnding ending => exact ⟨h.lines, h.table⟩

theorem Sound.performAll {buffer : Buffer} (h : buffer.Sound) (operations : List BufferOperation) :
    (buffer.performAll operations).Sound := by
  induction operations generalizing buffer with
  | nil => exact h
  | cons operation rest ih => exact ih (h.perform operation)

variable {buffer : Buffer}

theorem Sound.lines_ne_nil (h : buffer.Sound) : buffer.lines ≠ [] := by
  rw [h.lines]
  exact Text.lines_ne_nil _

theorem Sound.lineCount_pos (h : buffer.Sound) : 0 < buffer.lineCount :=
  List.length_pos_iff.2 h.lines_ne_nil

theorem Sound.tableLineCount (h : buffer.Sound) : buffer.table.lineCount = buffer.lineCount := by
  rw [h.table, LineTable.lineCount_ofLines _ h.lines_ne_nil, lineCount]

theorem Sound.length_eq (h : buffer.Sound) : buffer.length = buffer.content.length := by
  rw [length, h.table, LineTable.total_ofLines, h.lines, Text.totalLength_lines]

theorem Sound.positionOf_eq (h : buffer.Sound) (offset : Nat) :
    buffer.positionOf offset = Position.ofOffset offset buffer.lines := by
  rw [positionOf, h.table, LineTable.positionOf_ofLines]

theorem Sound.offsetOf_eq (h : buffer.Sound) (line column : Nat) :
    buffer.offsetOf line column = Position.offsetOf line column buffer.lines := by
  rw [offsetOf, h.table, LineTable.offsetOf_ofLines]

theorem Sound.lineLength_eq (h : buffer.Sound) {line : Nat} (hline : line < buffer.lines.length) :
    buffer.lineLength line = buffer.lines[line].length := by
  rw [lineLength, h.table, LineTable.lineLength_of_lt _ _ hline]

theorem Sound.lineLength_eq_length (h : buffer.Sound) (line : Nat) :
    buffer.lineLength line = ((buffer.line? line).getD []).length := by
  rw [lineLength, h.table, LineTable.lineLength_ofLines, line?]

theorem Sound.positionOf_offset (h : buffer.Sound) (offset : Nat) :
    (buffer.positionOf offset).offset = min offset buffer.length := by
  rw [h.positionOf_eq, Position.ofOffset_offset, length, h.table, LineTable.total_ofLines]

/-- Line and column of the position are those of its offset. -/
def HasPlace (buffer : Buffer) (position : Position) : Prop :=
  position = buffer.positionOf position.offset

theorem Sound.hasPlace_positionOf (h : buffer.Sound) (offset : Nat) :
    buffer.HasPlace (buffer.positionOf offset) := by
  have hclamp : min (min offset buffer.table.total) buffer.table.total
      = min offset buffer.table.total := by omega
  rw [HasPlace, h.positionOf_offset]
  simp only [positionOf, length, LineTable.positionOf, hclamp]

theorem Sound.hasPlace_positionAt (h : buffer.Sound) (line column : Nat) :
    buffer.HasPlace (buffer.positionAt line column) :=
  h.hasPlace_positionOf _

theorem Sound.hasPlace_clampPosition (h : buffer.Sound) (position : Position) :
    buffer.HasPlace (buffer.clampPosition position) :=
  h.hasPlace_positionOf _

/-- A place is a column of a line of the document. -/
theorem HasPlace.spec {position : Position} (hp : buffer.HasPlace position) (h : buffer.Sound) :
    ∃ hline : position.line < buffer.lines.length,
      position.column ≤ buffer.lines[position.line].length ∧
      position.offset = lineOffset buffer.lines position.line + position.column := by
  obtain ⟨hline, hcolumn, hoffset, -⟩ :=
    Position.ofOffset_spec position.offset buffer.lines h.lines_ne_nil
  rw [← h.positionOf_eq, ← hp] at hoffset
  have hplace : position = Position.ofOffset position.offset buffer.lines := by
    rw [← h.positionOf_eq]
    exact hp
  simp only [← hplace] at hline hcolumn
  exact ⟨hline, hcolumn, hoffset⟩

theorem HasPlace.column_le {position : Position} (hp : buffer.HasPlace position)
    (h : buffer.Sound) : position.column ≤ buffer.lineLength position.line := by
  obtain ⟨hline, hcolumn, -⟩ := hp.spec h
  rwa [h.lineLength_eq hline]

theorem HasPlace.offset_le {position : Position} (hp : buffer.HasPlace position)
    (h : buffer.Sound) : position.offset ≤ buffer.length := by
  rw [hp, h.positionOf_offset]
  exact Nat.min_le_right _ _

/-- A line of the document has a place at each column; further columns stop at its end. -/
theorem Sound.positionAt_eq (h : buffer.Sound) (line column : Nat)
    (hline : line < buffer.lineCount) :
    (buffer.positionAt line column).line = line ∧
    (buffer.positionAt line column).column = min column (buffer.lineLength line) := by
  have hlt : line < buffer.lines.length := hline
  have hat : buffer.positionAt line column
      = Position.ofOffset (Position.offsetOf line column buffer.lines) buffer.lines := by
    rw [← h.offsetOf_eq, ← h.positionOf_eq]
    rfl
  rw [hat, Position.offsetOf_of_lt _ _ _ hlt,
    Position.ofOffset_lineOffset_add _ _ _ hlt (Nat.min_le_right _ _), h.lineLength_eq hlt]
  exact ⟨rfl, rfl⟩

/-- A place is found again by its line and column. -/
theorem HasPlace.clampPosition_eq {position : Position} (hp : buffer.HasPlace position)
    (h : buffer.Sound) : buffer.clampPosition position = position := by
  obtain ⟨hline, hcolumn, hoffset⟩ := hp.spec h
  have hback : buffer.offsetOf position.line position.column = position.offset := by
    rw [h.offsetOf_eq, Position.offsetOf_of_lt _ _ _ hline, Nat.min_eq_left hcolumn, hoffset]
  change buffer.positionOf (buffer.offsetOf position.line position.column) = position
  rw [hback]
  exact hp.symm

/-- The start of the document is a place. -/
theorem Sound.hasPlace_zero (h : buffer.Sound) : buffer.HasPlace .zero := by
  have hpos := h.lineCount_pos
  have hplace := Position.ofOffset_lineOffset_add buffer.lines 0 0 hpos (Nat.zero_le _)
  rw [HasPlace, h.positionOf_eq]
  simpa [Position.zero] using hplace.symm

/-- Places stand in the order of their offsets. -/
theorem HasPlace.le_of_offset_le {a b : Position} (ha : buffer.HasPlace a)
    (hb : buffer.HasPlace b) (h : buffer.Sound) (hle : a.offset ≤ b.offset) : a ≤ b := by
  obtain ⟨hline, hcolumn, hoffset⟩ := ha.spec h
  obtain ⟨hline', hcolumn', hoffset'⟩ := hb.spec h
  rw [Position.le_iff]
  rcases Nat.lt_trichotomy a.line b.line with hlt | heq | hgt
  · exact Or.inl hlt
  · rw [heq] at hoffset ⊢
    omega
  · have hnext := lineOffset_succ buffer.lines b.line hline'
    have hmono := lineOffset_mono buffer.lines (show b.line + 1 ≤ a.line from hgt)
      (Nat.le_of_lt hline)
    omega

theorem HasPlace.le_iff_offset_le {a b : Position} (ha : buffer.HasPlace a)
    (hb : buffer.HasPlace b) (h : buffer.Sound) : a ≤ b ↔ a.offset ≤ b.offset := by
  refine ⟨fun hle => ?_, ha.le_of_offset_le hb h⟩
  by_cases hoffset : a.offset ≤ b.offset
  · exact hoffset
  · have hback := hb.le_of_offset_le ha h (by omega)
    exact Nat.le_of_eq (congrArg Position.offset (Position.le_antisymm hle hback))

theorem HasPlace.lt_iff_offset_lt {a b : Position} (ha : buffer.HasPlace a)
    (hb : buffer.HasPlace b) (h : buffer.Sound) : a < b ↔ a.offset < b.offset := by
  rw [Position.lt_iff_not_le, hb.le_iff_offset_le ha h, Nat.not_le]

/-- Places stand in the order of their lines, and on one line in that of their columns. -/
theorem HasPlace.lt_iff_line_column {a b : Position} (ha : buffer.HasPlace a)
    (hb : buffer.HasPlace b) (h : buffer.Sound) :
    a < b ↔ a.line < b.line ∨ a.line = b.line ∧ a.column < b.column := by
  obtain ⟨-, -, hoffset⟩ := ha.spec h
  obtain ⟨-, -, hoffset'⟩ := hb.spec h
  rw [Position.lt_iff]
  rcases Nat.lt_trichotomy a.line b.line with hlt | heq | hgt
  · omega
  · rw [heq] at hoffset ⊢
    omega
  · omega

theorem HasPlace.le_iff_line_column {a b : Position} (ha : buffer.HasPlace a)
    (hb : buffer.HasPlace b) (h : buffer.Sound) :
    a ≤ b ↔ a.line < b.line ∨ a.line = b.line ∧ a.column ≤ b.column := by
  have hlt := hb.lt_iff_line_column ha h
  rw [Position.lt_iff_not_le] at hlt
  by_cases hle : a ≤ b
  · have hnot := mt hlt.2 (fun hne => hne hle)
    simp only [hle, true_iff]
    omega
  · have hbefore := hlt.1 hle
    simp only [hle, false_iff]
    omega

theorem Sound.lineLength_le (h : buffer.Sound) {line : Nat} (hline : line < buffer.lineCount) :
    buffer.lineLength line ≤ buffer.length := by
  have hplace := h.hasPlace_positionAt line (buffer.lineLength line)
  obtain ⟨-, hcolumn⟩ := h.positionAt_eq line (buffer.lineLength line) hline
  obtain ⟨-, -, hoffset⟩ := hplace.spec h
  have hle := hplace.offset_le h
  omega

/-- The end of the last line is the end of the document. -/
theorem HasPlace.offset_eq_length {position : Position} (hp : buffer.HasPlace position)
    (h : buffer.Sound) (hline : buffer.lineCount ≤ position.line + 1)
    (hcolumn : buffer.lineLength position.line ≤ position.column) :
    position.offset = buffer.length := by
  have hend := h.hasPlace_positionOf buffer.length
  obtain ⟨hendLine, -, -⟩ := hend.spec h
  have hendColumn := hend.column_le h
  have hle : buffer.positionOf buffer.length ≤ position := by
    rw [hend.le_iff_line_column hp h]
    rw [lineCount] at hline
    by_cases hsame : (buffer.positionOf buffer.length).line = position.line
    · rw [hsame] at hendColumn
      omega
    · omega
  have hoffset := (hend.le_iff_offset_le hp h).1 hle
  rw [h.positionOf_offset, Nat.min_self] at hoffset
  exact Nat.le_antisymm (hp.offset_le h) hoffset

/-- The earlier of two places comes first in a normalized range. -/
theorem normalized_offsets {range : TextRange} (hstart : buffer.HasPlace range.start)
    (hstop : buffer.HasPlace range.stop) (h : buffer.Sound) :
    range.normalized.start.offset = min range.start.offset range.stop.offset ∧
    range.normalized.stop.offset = max range.start.offset range.stop.offset := by
  have horder := hstart.le_iff_offset_le hstop h
  unfold TextRange.normalized
  by_cases hle : range.start ≤ range.stop
  · have hoffset := horder.1 hle
    rw [if_pos hle]
    omega
  · have hoffset := mt horder.2 hle
    rw [if_neg hle]
    simp only
    omega

theorem normalized_hasPlace (range : TextRange) (hstart : buffer.HasPlace range.start)
    (hstop : buffer.HasPlace range.stop) :
    buffer.HasPlace range.normalized.start ∧ buffer.HasPlace range.normalized.stop := by
  unfold TextRange.normalized
  split
  · exact ⟨hstart, hstop⟩
  · exact ⟨hstop, hstart⟩

end Buffer

theorem TextRange.normalized_le (range : TextRange) :
    range.normalized.start ≤ range.normalized.stop := by
  unfold normalized
  split
  · assumption
  · rename_i h
    exact (Position.le_total range.start range.stop).resolve_left h

/-- Normalizing a range once more changes nothing. -/
theorem TextRange.normalized_of_le {range : TextRange} (h : range.start ≤ range.stop) :
    range.normalized = range :=
  if_pos h

end HeadlessEditor
