import HeadlessEditor.Proofs.Places
import Mathlib

/-!
Lines and columns read off the text. The place at an offset has as its line the number of newlines
before the offset, and as its column the number of characters behind the last of them. Line and column
lead back to the offset, and later lines and columns never to an earlier one. The line table and the
walk over the lines give the same answers, whatever they are asked.
-/

namespace HeadlessEditor

namespace Text

def lineOf (text : Text) (offset : Nat) : Nat := (text.take offset).count '\n'

/-- The number of characters between the last newline before an offset and the offset. -/
def columnOf (text : Text) (offset : Nat) : Nat :=
  ((text.take offset).rtakeWhile (· ≠ '\n')).length

@[simp] theorem lineOf_zero (text : Text) : text.lineOf 0 = 0 := rfl

@[simp] theorem columnOf_zero (text : Text) : text.columnOf 0 = 0 := rfl

theorem lineOf_newline (rest : Text) (offset : Nat) :
    lineOf ('\n' :: rest) (offset + 1) = rest.lineOf offset + 1 := by
  simp [lineOf]

theorem lineOf_cons {c : Char} (h : c ≠ '\n') (rest : Text) (offset : Nat) :
    lineOf (c :: rest) (offset + 1) = rest.lineOf offset := by
  simp [lineOf, h]

theorem lineOf_eq_zero_iff (text : Text) (offset : Nat) :
    text.lineOf offset = 0 ↔ '\n' ∉ text.take offset :=
  List.count_eq_zero

theorem rtakeWhile_of_notMem {text : Text} (h : '\n' ∉ text) :
    text.rtakeWhile (· ≠ '\n') = text := by
  rw [List.rtakeWhile_eq_self_iff]
  intro c hc
  exact decide_eq_true fun hnewline => h (hnewline ▸ hc)

/-- A character in front counts only if neither it nor one behind it is a newline. -/
theorem rtakeWhile_cons (c : Char) (text : Text) :
    List.rtakeWhile (· ≠ '\n') (c :: text)
      = if c ≠ '\n' ∧ '\n' ∉ text then c :: text else text.rtakeWhile (· ≠ '\n') := by
  by_cases hcons : '\n' ∈ c :: text
  · rw [if_neg (by simpa [eq_comm, or_iff_not_imp_left] using hcons)]
    simp only [List.rtakeWhile, List.reverse_cons, List.takeWhile_append]
    split
    · rename_i hlength
      have hself := (List.takeWhile_prefix _).eq_of_length hlength
      have htext : '\n' ∉ text := by
        intro h
        simpa using List.takeWhile_eq_self_iff.1 hself '\n' (List.mem_reverse.2 h)
      obtain rfl : c = '\n' := by simpa [htext, eq_comm] using hcons
      rw [hself, List.takeWhile_cons_of_neg (by simp), List.append_nil]
    · rfl
  · have hne : c ≠ '\n' ∧ '\n' ∉ text := by simpa [eq_comm] using hcons
    rw [if_pos hne, rtakeWhile_of_notMem hcons]

theorem columnOf_newline (rest : Text) (offset : Nat) :
    columnOf ('\n' :: rest) (offset + 1) = columnOf rest offset := by
  rw [columnOf, List.take_succ_cons, rtakeWhile_cons, if_neg (by simp), columnOf]

/-- Only on the first line does a character in front count. -/
theorem columnOf_cons {c : Char} (h : c ≠ '\n') (rest : Text) (offset : Nat) :
    columnOf (c :: rest) (offset + 1)
      = if lineOf rest offset = 0 then columnOf rest offset + 1 else columnOf rest offset := by
  rw [columnOf, columnOf, List.take_succ_cons, rtakeWhile_cons]
  by_cases hline : lineOf rest offset = 0
  · have hnone := (lineOf_eq_zero_iff rest offset).1 hline
    rw [if_pos ⟨h, hnone⟩, if_pos hline, List.length_cons, rtakeWhile_of_notMem hnone]
  · have hsome := mt (lineOf_eq_zero_iff rest offset).2 hline
    rw [if_neg (fun hc => hsome hc.2), if_neg hline]

/-- A character in front of the first line moves the columns of that line and the starts of all
others. -/
theorem place_cons (c : Char) (first : Text) (others : List Text) (line column : Nat)
    (hline : line < (first :: others).length)
    (hcolumn : column ≤ (first :: others)[line].length) :
    ∃ hline : line < ((c :: first) :: others).length,
      (if line = 0 then column + 1 else column) ≤ ((c :: first) :: others)[line].length ∧
      lineOffset ((c :: first) :: others) line + (if line = 0 then column + 1 else column)
        = lineOffset (first :: others) line + column + 1 := by
  refine ⟨hline, ?_⟩
  cases line with
  | zero => simpa using hcolumn
  | succ line =>
    refine ⟨by simpa using hcolumn, ?_⟩
    simp
    omega

/-- The line and the column read off the text before an offset name that offset. -/
theorem lineOffset_lineOf_add_columnOf (text : Text) (offset : Nat) (h : offset ≤ text.length) :
    ∃ hline : text.lineOf offset < text.lines.length,
      text.columnOf offset ≤ text.lines[text.lineOf offset].length ∧
      lineOffset text.lines (text.lineOf offset) + text.columnOf offset = offset := by
  induction text generalizing offset with
  | nil =>
    obtain rfl : offset = 0 := Nat.le_zero.1 h
    simp
  | cons c rest ih =>
    cases offset with
    | zero => simp [List.length_pos_iff, lines_ne_nil]
    | succ offset =>
      obtain ⟨hline, hcolumn, hoffset⟩ := ih offset (Nat.le_of_succ_le_succ h)
      by_cases hc : c = '\n'
      · subst hc
        simp only [lines_newline, lineOf_newline, columnOf_newline, List.length_cons,
          List.getElem_cons_succ, lineOffset_cons_succ, List.length_nil]
        exact ⟨by omega, hcolumn, by omega⟩
      · obtain ⟨first, others, hrest, hcons⟩ := lines_cons_of_ne hc rest
        simp only [hrest] at hline hcolumn hoffset
        obtain ⟨hline', hcolumn', hoffset'⟩ := place_cons c first others _ _ hline hcolumn
        simp only [hcons, lineOf_cons hc, columnOf_cons hc]
        exact ⟨hline', hcolumn', by rw [hoffset', hoffset]⟩

/-- The walk finds the line and the column that are read off the text. -/
theorem ofOffset_lines (text : Text) (offset : Nat) (h : offset ≤ text.length) :
    Position.ofOffset offset text.lines = ⟨text.lineOf offset, text.columnOf offset, offset⟩ := by
  obtain ⟨hline, hcolumn, hoffset⟩ := lineOffset_lineOf_add_columnOf text offset h
  have hplace := Position.ofOffset_lineOffset_add text.lines _ _ hline hcolumn
  rwa [hoffset] at hplace

end Text

namespace Position

/-- No line and column lead past the end. -/
theorem offsetOf_le (lines : List Text) (line column : Nat) :
    offsetOf line column lines ≤ LineTable.totalLength lines := by
  by_cases hline : line < lines.length
  · have hplace := ofOffset_lineOffset_add lines line _ hline (Nat.min_le_right column _)
    have hoffset := ofOffset_offset (lineOffset lines line + min column lines[line].length) lines
    rw [hplace] at hoffset
    rw [offsetOf_of_lt lines line column hline]
    exact inf_eq_left.1 hoffset.symm
  · rw [offsetOf_of_ge lines line column (Nat.le_of_not_lt hline)]

/-- Later lines, and on one line later columns, do not lead to an earlier offset. -/
theorem offsetOf_mono (lines : List Text) {line column line' column' : Nat}
    (h : line < line' ∨ line = line' ∧ column ≤ column') :
    offsetOf line column lines ≤ offsetOf line' column' lines := by
  by_cases hline : line' < lines.length
  · rw [offsetOf_of_lt lines line' column' hline]
    rcases h with hlt | ⟨rfl, hcolumn⟩
    · have hnext := lineOffset_succ lines line (Nat.lt_trans hlt hline)
      have hmono : lineOffset lines (line + 1) ≤ lineOffset lines line' :=
        lineOffset_mono lines hlt (Nat.le_of_lt hline)
      rw [offsetOf_of_lt lines line column (Nat.lt_trans hlt hline)]
      omega
    · rw [offsetOf_of_lt lines line column hline]
      omega
  · rw [offsetOf_of_ge lines line' column' (Nat.le_of_not_lt hline)]
    exact offsetOf_le lines line column

end Position

namespace Buffer

variable {buffer : Buffer}

/-- The place at an offset is read off the text before it. -/
theorem Sound.positionOf_eq_content (h : buffer.Sound) (offset : Nat) :
    let clamped := min offset buffer.length
    buffer.positionOf offset
      = ⟨buffer.content.lineOf clamped, buffer.content.columnOf clamped, clamped⟩ := by
  intro clamped
  have hself : buffer.positionOf offset = buffer.positionOf clamped := by
    have hplace := h.hasPlace_positionOf offset
    rwa [HasPlace, h.positionOf_offset] at hplace
  have hclamped : clamped ≤ buffer.content.length := h.length_eq ▸ Nat.min_le_right _ _
  rw [hself, h.positionOf_eq, h.lines, Text.ofOffset_lines _ _ hclamped]

/-- Line and column of a place lead back to its offset. -/
theorem Sound.offsetOf_positionOf (h : buffer.Sound) (offset : Nat) :
    buffer.offsetOf (buffer.positionOf offset).line (buffer.positionOf offset).column
      = min offset buffer.length := by
  rw [h.offsetOf_eq, h.positionOf_eq, Position.offsetOf_ofOffset, ← h.positionOf_eq,
    h.positionOf_offset]

theorem Sound.offset_positionAt (h : buffer.Sound) (line column : Nat) :
    (buffer.positionAt line column).offset = Position.offsetOf line column buffer.lines := by
  have hle := Position.offsetOf_le buffer.lines line column
  have hat : buffer.positionAt line column = buffer.positionOf (buffer.offsetOf line column) := rfl
  rw [hat, h.positionOf_offset, h.offsetOf_eq, length, h.table, LineTable.total_ofLines,
    Nat.min_eq_left hle]

/-- Table and walk agree, on any lines and for any arguments. In a document, whatever was done to it, the
place at an offset is what the text before it says and leads back to the offset, a place is the nearest
one to itself, and offsets grow with lines and columns. -/
theorem places_two_way :
    (∀ (lines : List Text) (offset line column : Nat),
      let table := LineTable.ofLines lines
      table.positionOf offset = Position.ofOffset offset lines ∧
      table.offsetOf line column = Position.offsetOf line column lines ∧
      table.clamp line column = Position.clamp line column lines) ∧
    ∀ (text : Text) (operations : List BufferOperation),
      let buffer := (load text).performAll operations
      (∀ offset,
        let clamped := min offset buffer.length
        let place := buffer.positionOf offset
        place.line = (buffer.content.take clamped).count '\n' ∧
        place.column = ((buffer.content.take clamped).rtakeWhile (· ≠ '\n')).length ∧
        place.offset = clamped ∧
        buffer.offsetOf place.line place.column = clamped) ∧
      (∀ line column,
        let place := buffer.positionAt line column
        buffer.positionAt place.line place.column = place) ∧
      Monotone fun place : Nat ×ₗ Nat =>
        (buffer.positionAt (ofLex place).1 (ofLex place).2).offset := by
  constructor
  · intro lines offset line column table
    have hoffset := LineTable.offsetOf_ofLines lines line column
    refine ⟨LineTable.positionOf_ofLines lines offset, hoffset, ?_⟩
    rw [LineTable.clamp, hoffset, LineTable.positionOf_ofLines, Position.clamp]
  · intro text operations buffer
    have hsound : buffer.Sound := (sound_load text).performAll operations
    refine ⟨fun offset => ?_, fun line column => ?_, fun place place' hle => ?_⟩
    · have hplace := hsound.positionOf_eq_content offset
      exact ⟨congrArg Position.line hplace, congrArg Position.column hplace,
        congrArg Position.offset hplace, hsound.offsetOf_positionOf offset⟩
    · exact (hsound.hasPlace_positionAt line column).clampPosition_eq hsound
    · dsimp only
      rw [hsound.offset_positionAt, hsound.offset_positionAt]
      exact Position.offsetOf_mono _ (Prod.Lex.le_iff.1 hle)

/-- An offset behind the newline at the end, and one past the end. -/
example : let buffer := load ['a', '\r', '\n', 'b', '\n']
    buffer.positionOf 4 = ⟨2, 0, 4⟩ ∧ buffer.positionOf 9 = ⟨2, 0, 4⟩ ∧
    buffer.positionOf 3 = ⟨1, 1, 3⟩ := by decide

end Buffer

end HeadlessEditor
