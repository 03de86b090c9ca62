import HeadlessEditor.Proofs.Coordinates
import HeadlessEditor.Proofs.FrameWindows
import HeadlessEditor.Decoration.Store

/-!
Decorations as they are handed in, and as they are stored. Storing moves both ends of a range to places
of the document, those past the last line to its end. A frame takes lines past the end for the last one
and columns past the end of a line for its end. So it draws the same lines and marks either way, and the
same stretches but for what is drawn on the last line of one that ends past it. Overlays are handed
through as they are.
-/

namespace HeadlessEditor

/-- The last line ends where the document does. -/
theorem LineTable.totalLength_eq (lines : List Text) (h : lines ≠ []) :
    totalLength lines
      = lineOffset lines (lines.length - 1) + (lines.getLast h).length := by
  have hpos := List.length_pos_of_ne_nil h
  have hbelow := lineOffset_succ lines (lines.length - 1) (Nat.sub_lt hpos Nat.one_pos)
  rw [Nat.sub_add_cancel hpos, lineOffset_length h] at hbelow
  rw [List.getLast_eq_getElem]
  omega

namespace Buffer

variable {buffer : Buffer}

/-- Nearest places come in the order of what they are nearest to. -/
theorem Sound.clampPosition_mono (h : buffer.Sound) {a b : Position} (hle : a ≤ b) :
    buffer.clampPosition a ≤ buffer.clampPosition b := by
  have hplaces : a.line < b.line ∨ a.line = b.line ∧ a.column ≤ b.column := by
    have horder := (Position.le_iff a b).1 hle
    omega
  refine (h.hasPlace_clampPosition a).le_of_offset_le (h.hasPlace_clampPosition b) h ?_
  simp only [clampPosition, h.offset_positionAt]
  exact Position.offsetOf_mono buffer.lines hplaces

/-- Moving the ends of a range into the document does not change which of them is the earlier one. -/
theorem Sound.normalized_clampRange (h : buffer.Sound) (range : TextRange) :
    (buffer.clampRange range).normalized = buffer.clampRange range.normalized := by
  by_cases hle : range.start ≤ range.stop
  · have hclamped : (buffer.clampRange range).start ≤ (buffer.clampRange range).stop :=
      h.clampPosition_mono hle
    rw [TextRange.normalized_of_le hle, TextRange.normalized_of_le hclamped]
  · have hge := (Position.le_total range.start range.stop).resolve_left hle
    have hclamped : buffer.clampPosition range.stop ≤ buffer.clampPosition range.start :=
      h.clampPosition_mono hge
    have hnormalized : range.normalized = ⟨range.stop, range.start⟩ := if_neg hle
    rw [hnormalized, TextRange.normalized]
    split
    · rename_i hboth
      have heq := Position.le_antisymm hboth hclamped
      simp only [clampRange] at heq ⊢
      rw [heq]
    · rfl

/-- A line past the last one leads to the end of the last one. -/
theorem Sound.positionAt_of_ge (h : buffer.Sound) {line : Nat} (hline : buffer.lineCount ≤ line)
    (column : Nat) :
    (buffer.positionAt line column).line = buffer.lineCount - 1 ∧
    (buffer.positionAt line column).column = buffer.lineLength (buffer.lineCount - 1) := by
  have hpos := h.lineCount_pos
  have hlast : buffer.lineCount - 1 < buffer.lines.length := Nat.sub_lt hpos Nat.one_pos
  have hend : buffer.positionAt line column
      = buffer.positionAt (buffer.lineCount - 1) (buffer.lineLength (buffer.lineCount - 1)) := by
    have hoffset := Position.offsetOf_of_lt buffer.lines (buffer.lineCount - 1)
      (buffer.lineLength (buffer.lineCount - 1)) hlast
    have htotal := LineTable.totalLength_eq buffer.lines h.lines_ne_nil
    rw [List.getLast_eq_getElem] at htotal
    have hsame : buffer.offsetOf line column
        = buffer.offsetOf (buffer.lineCount - 1) (buffer.lineLength (buffer.lineCount - 1)) := by
      rw [h.offsetOf_eq, h.offsetOf_eq, Position.offsetOf_of_ge _ _ _ hline, hoffset, htotal,
        h.lineLength_eq hlast, Nat.min_self]
      rfl
    exact congrArg buffer.positionOf hsame
  obtain ⟨hat, hcolumn⟩ := h.positionAt_eq (buffer.lineCount - 1)
    (buffer.lineLength (buffer.lineCount - 1)) hlast
  rw [hend, hat, hcolumn, Nat.min_self]
  exact ⟨rfl, rfl⟩

theorem Sound.clampPosition_line (h : buffer.Sound) (position : Position) :
    (buffer.clampPosition position).line = min position.line (buffer.lineCount - 1) := by
  have hpos := h.lineCount_pos
  by_cases hline : position.line < buffer.lineCount
  · rw [clampPosition, (h.positionAt_eq _ _ hline).1]
    omega
  · rw [clampPosition, (h.positionAt_of_ge (Nat.le_of_not_lt hline) _).1]
    omega

/-- A position on a line of the document, at whatever column, or else at no column of the last line. -/
def Locates (buffer : Buffer) (position : Position) : Prop :=
  position.line < buffer.lineCount ∨
    buffer.lineLength (buffer.lineCount - 1) ≤ position.column

instance (position : Position) : Decidable (buffer.Locates position) :=
  inferInstanceAs (Decidable (_ ∨ _))

end Buffer

namespace LayoutMetrics

variable {α : Type} [Pixel α] (metrics : LayoutMetrics α)

/-- Columns past the end of a line are drawn at its end. -/
theorem columnX_min (line : Text) (column : Nat) :
    metrics.columnX line (min column line.length) = metrics.columnX line column := by
  rw [columnX, columnX, Cells.ofColumn, Cells.ofColumn, ← List.take_eq_take_min]

/-- The column of a position is drawn where storing moves it to. -/
theorem columnX_clampPosition {buffer : Buffer} (h : buffer.Sound) {position : Position}
    (hlocated : buffer.Locates position) :
    metrics.columnX ((buffer.lines[min position.line (buffer.lines.length - 1)]?).getD [])
        (buffer.clampPosition position).column
      = metrics.columnX ((buffer.lines[min position.line (buffer.lines.length - 1)]?).getD [])
        position.column := by
  have hcount : buffer.lineCount = buffer.lines.length := rfl
  have hpos := h.lineCount_pos
  by_cases hline : position.line < buffer.lineCount
  · have hlt : position.line < buffer.lines.length := hline
    have hmin : min position.line (buffer.lines.length - 1) = position.line := by omega
    rw [Buffer.clampPosition, (h.positionAt_eq _ _ hline).2, h.lineLength_eq hlt, hmin,
      List.getElem?_eq_getElem hlt, Option.getD_some, columnX_min]
  · have hlt : buffer.lines.length - 1 < buffer.lines.length := by omega
    have hmin : min position.line (buffer.lines.length - 1) = buffer.lines.length - 1 := by omega
    have hbehind := hlocated.resolve_left hline
    rw [hcount, h.lineLength_eq hlt] at hbehind
    rw [Buffer.clampPosition, (h.positionAt_of_ge (Nat.le_of_not_lt hline) _).2, hcount,
      h.lineLength_eq hlt, hmin, List.getElem?_eq_getElem hlt, Option.getD_some,
      ← metrics.columnX_min _ position.column, Nat.min_eq_right hbehind]

/-- The piece of a stretch on one of its lines is drawn from the columns of the ends on that line. -/
theorem inlineRect_congr (range range' : TextRange) (text : Text) {first last line : Nat}
    (hstart : line = first →
      metrics.columnX text range'.start.column = metrics.columnX text range.start.column)
    (hstop : line = last →
      metrics.columnX text range'.stop.column = metrics.columnX text range.stop.column)
    (hfirst : first ≤ line) (hlast : line ≤ last) :
    metrics.inlineRect range' first last line text
      = metrics.inlineRect range first last line text := by
  unfold inlineRect
  split
  · rw [hstart (by omega), hstop (by omega)]
  · split
    · rename_i hline
      rw [hstart hline]
    · split
      · rename_i hline
        rw [hstop hline]
      · rfl

/-- What a stretch that reaches the last line draws there: from the column it starts at, or from the
left edge if it comes from a line above, to the column it stops at. -/
def lastRect (lines : List Text) (range : TextRange) : Rect α :=
  let last := lines.length - 1
  let text := (lines[last]?).getD []
  metrics.lineRect last
    (if range.start.line < last then Pixel.zero else metrics.columnX text range.start.column)
    (metrics.columnX text range.stop.column)

theorem inlineRect_last (lines : List Text) (range : TextRange) :
    metrics.inlineRect range (min range.start.line (lines.length - 1)) (lines.length - 1)
        (lines.length - 1) ((lines[lines.length - 1]?).getD [])
      = (metrics.lastRect lines range, .partialLine) := by
  simp only [inlineRect, lastRect]
  by_cases habove : range.start.line < lines.length - 1
  · have hfirst : min range.start.line (lines.length - 1) ≠ lines.length - 1 := by omega
    rw [if_neg hfirst, if_neg hfirst.symm, if_pos trivial, if_pos habove]
  · rw [if_pos (by omega), if_neg habove]

def stretchOn (lines : List Text) (decoration : Decoration) (line : Nat) : DecorationRect α :=
  let range := decoration.range.normalized
  let piece := metrics.inlineRect range (min range.start.line (lines.length - 1))
    (min range.stop.line (lines.length - 1)) line ((lines[line]?).getD [])
  ⟨line, piece.1, .inline, decoration.className, piece.2⟩

/-- A stretch is placed piece by piece. -/
theorem place_inline (lines : List Text) (window : Nat × Nat) {decoration : Decoration}
    (hkind : decoration.kind = .inline) :
    metrics.place lines window decoration =
      ⟨(decoration.linesIn lines.length window).map (metrics.stretchOn lines decoration), [], []⟩ := by
  rw [place_eq, List.map_eq_flatMap]
  unfold rectsOn marksOn
  simp [hkind, stretchOn]

end LayoutMetrics

section

variable {α : Type} [Pixel α] (metrics : LayoutMetrics α) {buffer : Buffer}
  (decoration : Decoration)

open DecorationStore

theorem normalized_fit (h : buffer.Sound) :
    (fit decoration buffer).range.normalized = buffer.clampRange decoration.range.normalized := by
  rw [← h.normalized_clampRange]
  exact TextRange.normalized_of_le (TextRange.normalized_le _)

/-- A decoration stays on its lines. -/
theorem isOn_fit (h : buffer.Sound) (line : Nat) :
    (fit decoration buffer).isOn buffer.lines.length line
      = decoration.isOn buffer.lines.length line := by
  simp only [Decoration.isOn, normalized_fit decoration h, Buffer.clampRange,
    h.clampPosition_line, Buffer.lineCount, Nat.min_assoc, Nat.min_self]

theorem linesIn_fit (h : buffer.Sound) (window : Nat × Nat) :
    (fit decoration buffer).linesIn buffer.lines.length window
      = decoration.linesIn buffer.lines.length window := by
  simp only [Decoration.linesIn, isOn_fit decoration h]

theorem meets_fit (h : buffer.Sound) (window : Nat × Nat) :
    (fit decoration buffer).Meets buffer.lines.length window
      ↔ decoration.Meets buffer.lines.length window := by
  simp only [Decoration.Meets, isOn_fit decoration h]

/-- Whether both ends of a range are drawn where storing moves them to. -/
def Buffer.LocatesRange (buffer : Buffer) (range : TextRange) : Prop :=
  buffer.Locates range.start ∧ buffer.Locates range.stop

instance (range : TextRange) : Decidable (buffer.LocatesRange range) :=
  inferInstanceAs (Decidable (_ ∧ _))

theorem Buffer.LocatesRange.normalized {range : TextRange} (h : buffer.LocatesRange range) :
    buffer.LocatesRange range.normalized := by
  unfold TextRange.normalized
  split
  · exact h
  · exact ⟨h.2, h.1⟩

/-- On the last line a stretch that ends past it is drawn alike if its ends are drawn where storing
moves them to. -/
theorem lastRect_clampRange (h : buffer.Sound) {range : TextRange}
    (hlocated : buffer.LocatesRange range) (hpast : buffer.lineCount ≤ range.stop.line) :
    metrics.lastRect buffer.lines range = metrics.lastRect buffer.lines (buffer.clampRange range) := by
  have hcount : buffer.lineCount = buffer.lines.length := rfl
  have hbranch : (buffer.clampRange range).start.line < buffer.lines.length - 1
      ↔ range.start.line < buffer.lines.length - 1 := by
    have hline := h.clampPosition_line range.start
    rw [Buffer.clampRange, hline]
    omega
  have hstop : metrics.columnX _ (buffer.clampRange range).stop.column = _ :=
    metrics.columnX_clampPosition h hlocated.2
  rw [Nat.min_eq_right (by omega)] at hstop
  simp only [LayoutMetrics.lastRect, hbranch, hstop]
  by_cases habove : range.start.line < buffer.lines.length - 1
  · rw [if_pos habove, if_pos habove]
  · have hstart : metrics.columnX _ (buffer.clampRange range).start.column = _ :=
      metrics.columnX_clampPosition h hlocated.1
    rw [Nat.min_eq_right (by omega)] at hstart
    rw [if_neg habove, if_neg habove, hstart]

/-- Storing changes no piece of a stretch but the one on the last line, and that one only if the stretch
ends past it. -/
theorem stretchOn_fit_iff (h : buffer.Sound) {line : Nat}
    (hline : decoration.isOn buffer.lines.length line) :
    metrics.stretchOn buffer.lines decoration line
        = metrics.stretchOn buffer.lines (fit decoration buffer) line ↔
      decoration.range.normalized.stop.line < buffer.lineCount ∨ line ≠ buffer.lineCount - 1 ∨
        metrics.lastRect buffer.lines decoration.range.normalized
          = metrics.lastRect buffer.lines (buffer.clampRange decoration.range.normalized) := by
  obtain ⟨hfirst, hlast⟩ := (decoration.isOn_iff _ _).1 hline
  have hordered := (Position.le_iff _ _).1 (TextRange.normalized_le decoration.range)
  have hcount : buffer.lineCount = buffer.lines.length := rfl
  unfold LayoutMetrics.stretchOn
  simp only [normalized_fit decoration h]
  generalize decoration.range.normalized = range at *
  have hfitted : ∀ position : Position,
      min (buffer.clampPosition position).line (buffer.lines.length - 1)
        = min position.line (buffer.lines.length - 1) := by
    intro position
    rw [h.clampPosition_line, hcount, Nat.min_assoc, Nat.min_self]
  simp only [Buffer.clampRange, hfitted]
  by_cases hplain : range.stop.line < buffer.lineCount ∨ line ≠ buffer.lineCount - 1
  · -- The columns of an end past the last line are read on the last line only.
    have hends : ∀ position : Position, line = min position.line (buffer.lines.length - 1) →
        position.line ≤ range.stop.line →
        metrics.columnX ((buffer.lines[line]?).getD []) (buffer.clampPosition position).column
          = metrics.columnX ((buffer.lines[line]?).getD []) position.column := by
      rintro position rfl hle
      exact metrics.columnX_clampPosition h (.inl (by omega))
    have hpiece := metrics.inlineRect_congr range (buffer.clampRange range)
      ((buffer.lines[line]?).getD []) (fun hat => hends range.start hat (by omega))
      (fun hat => hends range.stop hat le_rfl) hfirst hlast
    rw [Buffer.clampRange] at hpiece
    rw [hpiece]
    refine iff_of_true rfl ?_
    tauto
  · obtain ⟨hpast, hat⟩ := not_or.1 hplain
    obtain rfl : line = buffer.lines.length - 1 := not_not.1 hat
    have hstored := metrics.inlineRect_last buffer.lines (buffer.clampRange range)
    simp only [Buffer.clampRange, hfitted] at hstored
    rw [Nat.min_eq_right (show buffer.lines.length - 1 ≤ range.stop.line by omega),
      metrics.inlineRect_last, hstored]
    rw [hcount] at hpast ⊢
    simp [hpast, fit]

/-- What a frame shows of one decoration alone. -/
theorem compose_singleton (lines : List Text) (window : Nat × Nat) :
    metrics.compose [decoration] lines window = metrics.place lines window decoration := by
  rw [metrics.compose_cons, metrics.compose_nil]
  simp [Frame.append, Frame.empty]

theorem place_fit_of_whole_lines (h : buffer.Sound) (window : Nat × Nat)
    (hkind : decoration.kind = .line ∨ decoration.kind = .gutter) :
    metrics.place buffer.lines window decoration
      = metrics.place buffer.lines window (fit decoration buffer) := by
  rw [LayoutMetrics.place_eq, LayoutMetrics.place_eq, linesIn_fit decoration h]
  unfold LayoutMetrics.rectsOn LayoutMetrics.marksOn
  rcases hkind with hkind | hkind <;> simp [fit, hkind]

/-- The pieces of a stretch are drawn as though it had been stored unless it ends past the last line,
the window shows the last line, and the piece there is another. -/
theorem place_fit_inline_iff (h : buffer.Sound) (window : Nat × Nat)
    (hkind : decoration.kind = .inline) :
    metrics.place buffer.lines window decoration
        = metrics.place buffer.lines window (fit decoration buffer) ↔
      decoration.range.normalized.stop.line < buffer.lineCount ∨
      ¬ inWindow window (buffer.lineCount - 1) ∨
        metrics.lastRect buffer.lines decoration.range.normalized
          = metrics.lastRect buffer.lines (buffer.clampRange decoration.range.normalized) := by
  have hfitted : (fit decoration buffer).kind = .inline := hkind
  have hcount : buffer.lineCount = buffer.lines.length := rfl
  have hpos := h.lineCount_pos
  rw [metrics.place_inline _ _ hkind, metrics.place_inline _ _ hfitted, linesIn_fit decoration h]
  simp only [Frame.mk.injEq, and_true, List.map_inj_left]
  have hmem : ∀ line, line ∈ decoration.linesIn buffer.lines.length window ↔
      line < buffer.lines.length ∧ decoration.isOn buffer.lines.length line ∧
        inWindow window line := by
    intro line
    rw [Decoration.linesIn, List.mem_filter, List.mem_range, Bool.and_eq_true]
  constructor
  · intro hsame
    by_cases hplain : decoration.range.normalized.stop.line < buffer.lineCount ∨
        ¬ inWindow window (buffer.lineCount - 1)
    · tauto
    · obtain ⟨hpast, hshown⟩ := not_or.1 hplain
      have hon : decoration.isOn buffer.lines.length (buffer.lineCount - 1) := by
        rw [Decoration.isOn_iff]
        omega
      have hlast := (stretchOn_fit_iff metrics decoration h hon).1
        (hsame _ ((hmem _).2 ⟨by omega, hon, not_not.1 hshown⟩))
      tauto
  · intro hcase line hline
    obtain ⟨-, hon, hshown⟩ := (hmem line).1 hline
    refine (stretchOn_fit_iff metrics decoration h hon).2 ?_
    rcases hcase with hstop | hhidden | hlast
    · exact .inl hstop
    · exact .inr (.inl fun hat => hhidden (hat ▸ hshown))
    · exact .inr (.inr hlast)

/-- An overlay is shown in the same windows, but at the start of its range as it is. -/
theorem place_overlay (lines : List Text) (window : Nat × Nat) (hkind : decoration.kind = .overlay) :
    metrics.place lines window decoration =
      ⟨[], [], if decoration.Meets lines.length window then [metrics.overlayAt lines decoration]
        else []⟩ := by
  rw [LayoutMetrics.place_eq]
  unfold LayoutMetrics.rectsOn LayoutMetrics.marksOn
  simp [hkind]

theorem place_fit_overlay_iff (h : buffer.Sound) (window : Nat × Nat)
    (hkind : decoration.kind = .overlay) :
    metrics.place buffer.lines window decoration
        = metrics.place buffer.lines window (fit decoration buffer) ↔
      ¬ decoration.Meets buffer.lines.length window ∨
        buffer.HasPlace decoration.range.normalized.start := by
  have hfitted : (fit decoration buffer).kind = .overlay := hkind
  rw [place_overlay metrics decoration _ _ hkind, place_overlay metrics _ _ _ hfitted]
  simp only [meets_fit decoration h]
  by_cases hmeets : decoration.Meets buffer.lines.length window
  · have hstart : (fit decoration buffer).range.normalized.start
        = buffer.clampPosition decoration.range.normalized.start := by
      rw [normalized_fit decoration h]
      rfl
    simp only [hmeets, if_true, not_true_eq_false, false_or]
    constructor
    · intro heq
      have hanchor : decoration.range.normalized.start
          = (fit decoration buffer).range.normalized.start := by
        simpa [LayoutMetrics.overlayAt] using congrArg (fun frame => frame.overlays.map (·.anchor)) heq
      rw [hanchor, hstart]
      exact h.hasPlace_clampPosition _
    · intro hplace
      have hsame : (fit decoration buffer).range.normalized.start
          = decoration.range.normalized.start := by
        rw [hstart, hplace.clampPosition_eq h]
      simp only [LayoutMetrics.overlayAt, hsame]
      rfl
  · simp [hmeets]

/-- In every document a decoration with any range is drawn as though it had been stored, on each line
and beside each line. For a stretch this holds exactly unless it ends past the last line, the window
shows the last line, and what it draws there from its columns is not what it draws to the end of the
text; it does hold if no end is past the last line at a column within the text of that line. An overlay
is shown in the same windows, but at the start of the range as it is handed in, so it looks the same
only if that is a place of the document. -/
theorem compose_as_stored (text : Text) (operations : List BufferOperation) (window : Nat × Nat) :
    let buffer := (Buffer.load text).performAll operations
    let range := decoration.range.normalized
    let given := metrics.compose [decoration] buffer.lines window
    let stored := metrics.compose [fit decoration buffer] buffer.lines window
    (decoration.kind = .line ∨ decoration.kind = .gutter → given = stored) ∧
    (decoration.kind = .inline →
      (buffer.LocatesRange decoration.range → given = stored) ∧
      (given = stored ↔
        range.stop.line < buffer.lineCount ∨
        ¬ (window.1 ≤ buffer.lineCount - 1 ∧ buffer.lineCount - 1 < window.2) ∨
        metrics.lastRect buffer.lines range
          = metrics.lastRect buffer.lines (buffer.clampRange range))) ∧
    (decoration.kind = .overlay →
      given = ⟨[], [], if decoration.Meets buffer.lines.length window then
        [metrics.overlayAt buffer.lines decoration] else []⟩ ∧
      (given = stored ↔ ¬ decoration.Meets buffer.lines.length window ∨
        buffer.HasPlace range.start)) := by
  intro buffer range given stored
  have hsound : buffer.Sound := (Buffer.sound_load text).performAll operations
  simp only [given, stored, compose_singleton]
  refine ⟨place_fit_of_whole_lines metrics decoration hsound window, ?_, ?_⟩
  · intro hkind
    have hiff := place_fit_inline_iff metrics decoration hsound window hkind
    rw [inWindow_iff] at hiff
    refine ⟨fun hlocated => hiff.2 ?_, hiff⟩
    by_cases hstop : range.stop.line < buffer.lineCount
    · exact .inl hstop
    · exact .inr (.inr
        (lastRect_clampRange metrics hsound hlocated.normalized (Nat.le_of_not_lt hstop)))
  · intro hkind
    exact ⟨place_overlay metrics decoration buffer.lines window hkind,
      place_fit_overlay_iff metrics decoration hsound window hkind⟩

/-- A stretch that ends past the last line, in a window above that line, and a reversed one with stale
offsets that ends behind the text of its last line. -/
theorem compose_as_stored_stale :
    let metrics : LayoutMetrics Float := .standard
    let buffer := (Buffer.load ['a', 'b', '\n', 'c', 'd', '\n', 'e', 'f']).performAll []
    let beyond : Decoration := ⟨.inline, ⟨⟨0, 1, 0⟩, ⟨9, 0, 0⟩⟩, "mark", none⟩
    let reversed : Decoration := ⟨.inline, ⟨⟨2, 9, 0⟩, ⟨0, 1, 7⟩⟩, "mark", none⟩
    metrics.compose [beyond] buffer.lines (0, 2)
      = metrics.compose [fit beyond buffer] buffer.lines (0, 2) ∧
    buffer.LocatesRange reversed.range ∧
    metrics.compose [reversed] buffer.lines (0, 9)
      = metrics.compose [fit reversed buffer] buffer.lines (0, 9) := by
  intro metrics buffer beyond reversed
  have hlocated : buffer.LocatesRange reversed.range := by decide
  refine ⟨?_, hlocated, ?_⟩
  · exact ((compose_as_stored metrics beyond ['a', 'b', '\n', 'c', 'd', '\n', 'e', 'f'] []
      (0, 2)).2.1 rfl).2.2 (.inr (.inl (by decide)))
  · exact ((compose_as_stored metrics reversed ['a', 'b', '\n', 'c', 'd', '\n', 'e', 'f'] []
      (0, 9)).2.1 rfl).1 hlocated

/-- Past the last line, an overlay keeps its line, and a stretch its columns. -/
theorem compose_differs_past_end :
    let metrics : LayoutMetrics Float := .standard
    let buffer := Buffer.load ['a', 'b']
    let range : TextRange := ⟨⟨1, 0, 0⟩, ⟨1, 1, 0⟩⟩
    let hint : Decoration := ⟨.overlay, range, "hint", none⟩
    let mark : Decoration := ⟨.inline, range, "mark", none⟩
    metrics.compose [hint] buffer.lines (0, 1)
      ≠ metrics.compose [fit hint buffer] buffer.lines (0, 1) ∧
    metrics.compose [mark] buffer.lines (0, 1)
      ≠ metrics.compose [fit mark buffer] buffer.lines (0, 1) := by
  intro metrics buffer range hint mark
  constructor
  · intro heq
    have hanchors := congrArg (fun frame => frame.overlays.map (·.anchor)) heq
    revert hanchors
    decide
  · intro heq
    have hwidths := congrArg (fun frame => frame.rects.map (·.rect.width.toBits)) heq
    revert hwidths
    decide +kernel

end

end HeadlessEditor
