import HeadlessEditor.Proofs.EditorState

/-!
Runs of motions. A vertical motion keeps the column that the run began in, also across lines that are too
short for it and at the borders of the document, where it moves the caret less far or not at all. A motion
that extends the selection keeps the anchor. There is no selection while the caret is on the anchor; the
next motion then takes the caret for the anchor, which is the same place.
-/

namespace HeadlessEditor.Cursor

variable {segmentation : Segmentation} {cursor : Cursor} {buffer : Buffer}

def moveAll (segmentation : Segmentation) (cursor : Cursor) (buffer : Buffer) :
    List (Motion × Bool) → Cursor
  | [] => cursor
  | (motion, extend) :: rest =>
    moveAll segmentation (cursor.move segmentation motion extend buffer).1 buffer rest

theorem destination_of_lineShift {motion : Motion} {shift : Int}
    (hshift : motion.lineShift? = some shift) (state : CursorState) (buffer : Buffer) :
    let desired := state.desiredColumn.getD state.caret.column
    destination segmentation state motion buffer
      = (stepVertical state.caret desired shift buffer, some desired) := by
  cases motion with
  | up | down | lines count => simp [destination, hshift]
  | left | right | lineStart | lineEnd | documentStart | documentEnd => cases hshift

/-- Vertical motions do not stop at the ends of a selection. -/
theorem collapseTarget?_of_lineShift {motion : Motion} {shift : Int}
    (hshift : motion.lineShift? = some shift) (state : CursorState) :
    collapseTarget? state motion = none := by
  cases motion with
  | up | down | lines count => cases hselection : state.selection <;> simp [collapseTarget?, hselection]
  | left | right | lineStart | lineEnd | documentStart | documentEnd => cases hshift

/-- A vertical motion leads to the same place and desires the same column whether it selects or not. -/
theorem move_of_lineShift {motion : Motion} {shift : Int}
    (hshift : motion.lineShift? = some shift) (cursor : Cursor) (extend : Bool) (buffer : Buffer) :
    let desired := cursor.state.desiredColumn.getD cursor.caret.column
    let after := (cursor.move segmentation motion extend buffer).1
    after.caret = stepVertical cursor.caret desired shift buffer ∧
    after.state.desiredColumn = some desired := by
  cases extend with
  | true => simp [move, become, caret, destination_of_lineShift hshift]
  | false =>
    simp [move, become, caret, destination_of_lineShift hshift,
      collapseTarget?_of_lineShift hshift]

theorem stepVertical_line (h : buffer.Sound) (caret : Position) (desired : Nat) (shift : Int) :
    (stepVertical caret desired shift buffer).line = shiftLine caret.line shift buffer := by
  simp only [stepVertical]
  split
  · rename_i hstay
    exact hstay.symm
  · exact (h.positionAt_eq _ _ (shiftLine_lt h _ _)).1

/-- A shift ends at the borders of the document. -/
theorem shiftLine_eq (h : buffer.Sound) (line : Nat) (shift : Int) :
    (shiftLine line shift buffer : Int) = min (max (line + shift) 0) (buffer.lineCount - 1) := by
  have hpos := h.lineCount_pos
  unfold shiftLine
  omega

/-- What a vertical motion does to line, column and desired column. -/
theorem move_vertical (h : buffer.Sound) (hs : cursor.state.Sound buffer) {motion : Motion}
    {shift : Int} (hshift : motion.lineShift? = some shift) (extend : Bool) :
    let desired := cursor.state.desiredColumn.getD cursor.caret.column
    let after := (cursor.move segmentation motion extend buffer).1
    after.state.desiredColumn = some desired ∧
    (after.caret.line : Int) = min (max (cursor.caret.line + shift) 0) (buffer.lineCount - 1) ∧
    after.caret.column = min desired (buffer.lineLength after.caret.line) := by
  intro desired after
  obtain ⟨hcaret, hdesired⟩ := move_of_lineShift hshift cursor extend buffer
  refine ⟨hdesired, ?_, ?_⟩
  · rw [hcaret, stepVertical_line h, shiftLine_eq h]
  · rw [hcaret]
    exact stepVertical_column h (column_of_desired h hs) shift

/-- What a run of vertical motions comes to. After the first motion a column is desired, and the ones after
it find that same column desired. -/
theorem moveAll_vertical (h : buffer.Sound) (hs : cursor.state.Sound buffer)
    {steps : List (Motion × Bool)} {shifts : List Int}
    (hshifts : steps.map (·.1.lineShift?) = shifts.map some) :
    let desired := cursor.state.desiredColumn.getD cursor.caret.column
    let after := cursor.moveAll segmentation buffer steps
    (after.state.desiredColumn = if steps = [] then cursor.state.desiredColumn else some desired) ∧
    (after.caret.line : Int) = shifts.foldl
      (fun (line shift : Int) => min (max (line + shift) 0) (buffer.lineCount - 1))
        cursor.caret.line ∧
    after.caret.column = min desired (buffer.lineLength after.caret.line) := by
  induction steps generalizing cursor shifts with
  | nil =>
    obtain rfl : shifts = [] := by simpa using hshifts
    exact ⟨rfl, rfl, column_of_desired h hs⟩
  | cons step rest ih =>
    obtain ⟨motion, extend⟩ := step
    cases shifts with
    | nil => simp at hshifts
    | cons shift shifts =>
      obtain ⟨hshift : motion.lineShift? = some shift, hshifts⟩ := List.cons.inj hshifts
      obtain ⟨hnext, hline, -⟩ := move_vertical h hs hshift extend
      obtain ⟨hdesired, hlines, hcolumn⟩ := ih (move_sound h hs motion extend) hshifts
      rw [hnext, Option.getD_some] at hdesired hcolumn
      rw [ite_self] at hdesired
      rw [hline] at hlines
      exact ⟨hdesired, hlines, hcolumn⟩

/-- A run of vertical motions keeps the column of the caret. After any of them, selecting or not, that
column is the desired one, the caret is on the line that the shifts lead to, none of them beyond the
borders of the document, and in that column or at the end of a shorter line. -/
theorem vertical_run_keeps_column (segmentation : Segmentation) (text : Text)
    (operations : List BufferOperation) (cursor : Cursor) (steps : List (Motion × Bool)) (shifts : List Int) :
    let buffer := (Buffer.load text).performAll operations
    let after := cursor.moveAll segmentation buffer steps
    cursor.state.Sound buffer → cursor.state.desiredColumn = none → steps ≠ [] →
    steps.map (·.1.lineShift?) = shifts.map some →
    after.state.desiredColumn = some cursor.caret.column ∧
    (after.caret.line : Int) = shifts.foldl
      (fun (line shift : Int) => min (max (line + shift) 0) (buffer.lineCount - 1))
        cursor.caret.line ∧
    after.caret.column = min cursor.caret.column (buffer.lineLength after.caret.line) := by
  intro buffer after hs hnone hsteps hshifts
  have h : buffer.Sound := (Buffer.sound_load text).performAll operations
  obtain ⟨hdesired, hlines, hcolumn⟩ := moveAll_vertical h hs hshifts
  rw [hnone, Option.getD_none] at hdesired hcolumn
  rw [if_neg hsteps] at hdesired
  exact ⟨hdesired, hlines, hcolumn⟩

/-- Down over an empty line and then further than there are lines, and back up to the empty one. -/
theorem vertical_run_over_short_lines :
    let buffer := Buffer.load ['a', 'b', 'c', '\n', '\n', 'x', 'y', 'z']
    let cursor : Cursor := ⟨.ofCaret ⟨0, 2, 2⟩, .new 1⟩
    let steps : List (Motion × Bool) := [(.down, false), (.lines 5, true), (.up, true)]
    let after := cursor.moveAll Grapheme.segmentation buffer steps
    cursor.state.Sound buffer ∧ cursor.state.desiredColumn = none ∧ steps ≠ [] ∧
    steps.map (·.1.lineShift?) = [1, 5, -1].map some ∧
    after.state.desiredColumn = some 2 ∧ after.caret.line = 1 ∧ after.caret.column = 0 := by
  intro buffer cursor steps after
  have hs : cursor.state.Sound buffer := by
    constructor
    · decide
    all_goals simp [cursor, CursorState.ofCaret]
  have hsteps : steps ≠ [] := by simp [steps]
  obtain ⟨hdesired, hline, hcolumn⟩ := vertical_run_keeps_column Grapheme.segmentation
    ['a', 'b', 'c', '\n', '\n', 'x', 'y', 'z'] [] cursor steps [1, 5, -1] hs rfl hsteps rfl
  have hempty : after.caret.line = 1 := Int.ofNat_inj.1 hline
  have hzero : after.caret.column = 0 := calc
    after.caret.column = min 2 (buffer.lineLength after.caret.line) := hcolumn
    _ = 0 := by
      rw [hempty]
      decide
  exact ⟨hs, rfl, hsteps, rfl, hdesired, hempty, hzero⟩

/-- The place that a selection grows from: the anchor of the selection there is, or the caret. -/
def anchor (cursor : Cursor) : Position := (cursor.selection.map (·.anchor)).getD cursor.caret

def selectionFrom (anchor caret : Position) : Option Selection :=
  if caret = anchor then none else some ⟨anchor, caret⟩

/-- The selection tells the anchor, and so does the caret where nothing is selected. -/
theorem anchor_of_selection {anchor : Position}
    (h : cursor.selection = selectionFrom anchor cursor.caret) : cursor.anchor = anchor := by
  rw [Cursor.anchor, h, selectionFrom]
  split
  · rename_i hback
    exact hback
  · rfl

theorem hasPlace_anchor (hs : cursor.state.Sound buffer) : buffer.HasPlace cursor.anchor := by
  rw [anchor]
  cases hselection : cursor.selection with
  | none => exact hs.caret
  | some selection => exact hs.anchor selection hselection

/-- Places with one offset are one place, so an empty selection is one whose ends are the same. -/
theorem filter_isEmpty {anchor caret : Position} (hanchor : buffer.HasPlace anchor)
    (hcaret : buffer.HasPlace caret) :
    (some (Selection.mk anchor caret)).filter (!·.isEmpty) = selectionFrom anchor caret := by
  have hempty : anchor.offset = caret.offset ↔ caret = anchor := by
    constructor
    · intro hoffset
      rw [hcaret, hanchor, hoffset]
    · rintro rfl
      rfl
  rw [selectionFrom, Option.filter_some, Selection.isEmpty]
  by_cases hback : caret = anchor
  · simp [hback]
  · simp [hempty, hback]

theorem selection_of_sound (hs : cursor.state.Sound buffer) :
    cursor.selection = selectionFrom cursor.anchor cursor.caret := by
  cases hselection : cursor.selection with
  | none => simp [anchor, selectionFrom, hselection]
  | some selection =>
    have hactive : selection.active = cursor.caret := hs.active selection hselection
    have hne : cursor.caret ≠ selection.anchor := by
      intro hback
      apply hs.nonempty selection hselection
      rw [hactive, hback]
    rw [anchor, hselection, Option.map_some, Option.getD_some, selectionFrom, if_neg hne, ← hactive]

/-- Wherever a motion that extends the selection leads, the selection goes there from the anchor. -/
theorem move_extending (h : buffer.Sound) (hs : cursor.state.Sound buffer) (motion : Motion) :
    let after := (cursor.move segmentation motion true buffer).1
    after.selection = selectionFrom cursor.anchor after.caret :=
  filter_isEmpty (hasPlace_anchor hs) (destination_sound h hs motion).1

theorem moveAll_extending (h : buffer.Sound) (hs : cursor.state.Sound buffer)
    (motions : List Motion) :
    let after := cursor.moveAll segmentation buffer (motions.map (·, true))
    after.selection = selectionFrom cursor.anchor after.caret := by
  induction motions generalizing cursor with
  | nil => exact selection_of_sound hs
  | cons motion rest ih =>
    let next := (cursor.move segmentation motion true buffer).1
    have hnext : next.state.Sound buffer := move_sound h hs motion true
    have hanchor : next.anchor = cursor.anchor := anchor_of_selection (move_extending h hs motion)
    have hrest := ih hnext
    rw [hanchor] at hrest
    exact hrest

/-- After any motions that extend the selection it goes from the anchor it had at first to the caret, or
nothing is selected and the caret is on the anchor. So further motions start from that anchor again, also
where the caret comes through it. -/
theorem extending_keeps_anchor (segmentation : Segmentation) (text : Text)
    (operations : List BufferOperation) (cursor : Cursor) (motions : List Motion) :
    let buffer := (Buffer.load text).performAll operations
    let after := cursor.moveAll segmentation buffer (motions.map (·, true))
    cursor.state.Sound buffer →
    after.selection =
      (if after.caret = cursor.anchor then none else some ⟨cursor.anchor, after.caret⟩) ∧
    after.anchor = cursor.anchor := by
  intro buffer after hs
  have h : buffer.Sound := (Buffer.sound_load text).performAll operations
  have hselection : after.selection = selectionFrom cursor.anchor after.caret :=
    moveAll_extending h hs motions
  exact ⟨hselection, anchor_of_selection hselection⟩

/-- From a selection to the left of its anchor over the anchor to the line below. -/
theorem extending_keeps_anchor_through :
    let buffer := Buffer.load ['a', 'b', 'c', '\n', 'd']
    let cursor : Cursor := ⟨⟨⟨0, 1, 1⟩, some ⟨⟨0, 2, 2⟩, ⟨0, 1, 1⟩⟩, none⟩, .new 1⟩
    let after := cursor.moveAll Grapheme.segmentation buffer ([.right, .right, .down].map (·, true))
    cursor.state.Sound buffer ∧ (cursor.moveAll Grapheme.segmentation buffer [(.right, true)]).selection = none ∧
    after.selection = some ⟨⟨0, 2, 2⟩, ⟨1, 1, 5⟩⟩ := by
  intro buffer cursor after
  have hs : cursor.state.Sound buffer := by
    constructor
    · decide
    · intro selection hselection
      obtain rfl := Option.some.inj hselection
      decide
    all_goals simp [cursor]
  obtain ⟨hselection, -⟩ := extending_keeps_anchor Grapheme.segmentation
    ['a', 'b', 'c', '\n', 'd'] [] cursor [.right, .right, .down] hs
  have hcaret : after.caret = ⟨1, 1, 5⟩ := by decide
  have hanchor : cursor.anchor = ⟨0, 2, 2⟩ := by decide
  have hselected : after.selection = some ⟨⟨0, 2, 2⟩, ⟨1, 1, 5⟩⟩ := by
    rw [← hanchor, ← hcaret]
    exact hselection.trans (if_neg (by decide))
  exact ⟨hs, by decide, hselected⟩

end HeadlessEditor.Cursor
