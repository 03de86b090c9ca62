import HeadlessEditor.Proofs.EditorState

/-!
Typing over a selection. The text typed takes the place of the selected text, and the edit carries
both ends of the selection past it, so that no selection is left. An edit that puts back what it
deletes is left out, though: one who types the very text that is selected still has it selected.
-/

namespace HeadlessEditor.Editor

variable {editor : Editor}

/-- The stretch that typing replaces: the selection, or nothing at the caret. -/
def typedSpan (editor : Editor) : Nat × Nat :=
  match editor.selection with
  | some range => range.offsets
  | none => (editor.caret.offset, editor.caret.offset)

theorem Sound.hasPlace_active (h : editor.Sound) {selection : Selection}
    (hselection : editor.cursor.state.selection = some selection) :
    editor.buffer.HasPlace selection.active := by
  rw [h.cursor.active selection hselection]
  exact h.cursor.caret

/-- The ends of the selection are its offsets, the smaller one first. -/
theorem Sound.selection_offsets (h : editor.Sound) {selection : Selection}
    (hselection : editor.cursor.state.selection = some selection) :
    selection.range.offsets = (min selection.anchor.offset selection.active.offset,
      max selection.anchor.offset selection.active.offset) := by
  have hanchor := h.cursor.anchor selection hselection
  have hactive := h.hasPlace_active hselection
  have hends : selection.range.start.offset = min selection.anchor.offset selection.active.offset ∧
      selection.range.stop.offset = max selection.anchor.offset selection.active.offset :=
    Buffer.normalized_offsets hanchor hactive h.buffer
  have hsorted : selection.range.normalized = selection.range :=
    TextRange.normalized_of_le (TextRange.normalized_le _)
  rw [TextRange.offsets, hsorted, hends.1, hends.2]

/-- The stretch lies in the text, with the caret at one end and the anchor of the selection at one
end as well. -/
structure EndsAt (editor : Editor) (start stop : Nat) : Prop where
  le : start ≤ stop
  inText : stop ≤ editor.buffer.content.length
  caret : editor.caret.offset = start ∨ editor.caret.offset = stop
  anchor : ∀ selection ∈ editor.cursor.state.selection,
    selection.anchor.offset = start ∨ selection.anchor.offset = stop

theorem Sound.endsAt_typedSpan (h : editor.Sound) :
    editor.EndsAt editor.typedSpan.1 editor.typedSpan.2 := by
  have hcaret : editor.caret.offset ≤ editor.buffer.content.length := by
    rw [← h.buffer.length_eq]
    exact Buffer.HasPlace.offset_le h.cursor.caret h.buffer
  cases hselection : editor.cursor.state.selection with
  | none =>
    have hspan : editor.typedSpan = (editor.caret.offset, editor.caret.offset) := by
      simp [typedSpan, Editor.selection, Cursor.selection, hselection]
    rw [hspan]
    exact ⟨Nat.le_refl _, hcaret, Or.inl rfl, by simp [hselection]⟩
  | some selection =>
    have hspan : editor.typedSpan = selection.range.offsets := by
      simp [typedSpan, Editor.selection, Cursor.selection, hselection]
    have hactive : selection.active.offset = editor.caret.offset := by
      rw [h.cursor.active selection hselection]
      rfl
    have hanchor : selection.anchor.offset ≤ editor.buffer.content.length := by
      rw [← h.buffer.length_eq]
      exact Buffer.HasPlace.offset_le (h.cursor.anchor selection hselection) h.buffer
    rw [hspan, h.selection_offsets hselection, hactive]
    constructor
    · dsimp only
      omega
    · dsimp only
      omega
    · dsimp only
      omega
    · intro found hfound
      obtain rfl := Option.some.inj (hselection.symm.trans hfound)
      dsimp only
      omega

/-- Typing is an edit of that stretch. -/
theorem Sound.typeText_eq (h : editor.Sound) (text : Text) :
    editor.typeText text = editor.editOffsets editor.typedSpan.1 editor.typedSpan.2 text := by
  cases hselection : editor.cursor.state.selection with
  | none => simp [typeText, typedSpan, Editor.selection, Cursor.selection, hselection]
  | some selection =>
    have hanchor := h.cursor.anchor selection hselection
    have hactive := h.hasPlace_active hselection
    have hplaces : editor.buffer.HasPlace selection.range.start ∧
        editor.buffer.HasPlace selection.range.stop :=
      Buffer.normalized_hasPlace _ hanchor hactive
    have hclamp : editor.buffer.clampRange selection.range = selection.range := by
      rw [Buffer.clampRange, hplaces.1.clampPosition_eq h.buffer,
        hplaces.2.clampPosition_eq h.buffer]
    simp [typeText, typedSpan, replace, Editor.selection, Cursor.selection, hselection, hclamp]

/-- The text at the stretch is the selected text. -/
theorem Sound.selectedText_eq (h : editor.Sound) :
    editor.selectedText = if editor.selection.isSome
      then some (editor.buffer.content.slice editor.typedSpan.1 editor.typedSpan.2) else none := by
  have hends := h.endsAt_typedSpan
  cases hselection : editor.selection with
  | none => simp [selectedText, hselection]
  | some range =>
    have hspan : editor.typedSpan = range.offsets := by simp [typedSpan, hselection]
    have hle := hends.le
    have hlength := hends.inText
    rw [← h.buffer.length_eq] at hlength
    rw [hspan] at hle hlength ⊢
    have hclamp : editor.buffer.clampSpan range.offsets.1 range.offsets.2 = range.offsets := by
      simp only [Buffer.clampSpan]
      ext <;> dsimp only <;> omega
    simp [selectedText, hselection, Buffer.textIn, hclamp]

/-- Both ends of a deleted stretch are carried past what is put in its place. -/
theorem mapOffset_end {edit : TextEdit} {start stop offset : Nat} (hstart : edit.offset = start)
    (hdeleted : start + edit.deleted.length = stop) (h : offset = start ∨ offset = stop) :
    edit.mapOffset offset .after = start + edit.inserted.length := by
  subst hstart
  unfold TextEdit.mapOffset
  split
  · omega
  · split
    · have hstop : edit.offset ≤ edit.stop := Nat.le_max_left _ _
      omega
    · rfl

/-- A selection whose ends meet is dropped. -/
theorem mapThroughEdit_collapse (cursor : Cursor) {edit : TextEdit} {buffer : Buffer} {offset : Nat}
    (hcaret : edit.mapOffset cursor.caret.offset .after = offset)
    (hanchor : ∀ selection ∈ cursor.state.selection,
      edit.mapOffset selection.anchor.offset .after = offset) :
    (cursor.mapThroughEdit edit buffer).1.state = .ofCaret (buffer.positionOf offset) := by
  cases hselection : cursor.state.selection with
  | none =>
    simp [Cursor.mapThroughEdit, Cursor.become, CursorState.ofCaret, Cursor.selection, hselection,
      hcaret]
  | some selection =>
    have hmeet := hanchor selection hselection
    simp [Cursor.mapThroughEdit, Cursor.become, CursorState.ofCaret, Cursor.selection, hselection,
      hcaret, hmeet, Selection.isEmpty]

/-- Replacing a stretch of the text by something else. -/
theorem replace_changes {buffer : Buffer} (h : buffer.Sound) {start stop : Nat} (hle : start ≤ stop)
    (hin : stop ≤ buffer.content.length) (text : Text)
    (hne : buffer.content.slice start stop ≠ LineEnding.normalize text) :
    ∃ edit : TextEdit,
      buffer.replace start stop text =
        (buffer.write (buffer.content.splice start stop (LineEnding.normalize text)), edit) ∧
      edit.isNoop = false ∧ edit.offset = start ∧ start + edit.deleted.length = stop ∧
      edit.inserted = LineEnding.normalize text := by
  have hlength : stop ≤ buffer.length := h.length_eq ▸ hin
  have hclamp : buffer.clampSpan start stop = (start, stop) := by
    simp only [Buffer.clampSpan]
    ext <;> dsimp only <;> omega
  have hnoop : TextEdit.isNoop
      ⟨start, buffer.content.slice start stop, LineEnding.normalize text⟩ = false := by
    simp [TextEdit.isNoop, hne]
  refine ⟨⟨start, buffer.content.slice start stop, LineEnding.normalize text⟩, ?_, hnoop, rfl, ?_,
    rfl⟩
  · simp [Buffer.replace, hclamp, hnoop]
  · rw [Text.length_slice _ hin]
    omega

/-- The edit of a stretch that caret and anchor end at. -/
theorem Sound.editOffsets_endsAt (h : editor.Sound) {start stop : Nat}
    (hends : editor.EndsAt start stop) (text : Text)
    (hne : editor.buffer.content.slice start stop ≠ LineEnding.normalize text) :
    let after := editor.editOffsets start stop text
    after.buffer.content = editor.buffer.content.splice start stop (LineEnding.normalize text) ∧
    after.selection = none ∧
    after.caret.offset = start + (LineEnding.normalize text).length := by
  obtain ⟨edit, hreplace, hnoop, hoffset, hdeleted, hinserted⟩ :=
    replace_changes h.buffer hends.le hends.inText text hne
  obtain ⟨buffer, hbuffer⟩ : ∃ buffer : Buffer, buffer = editor.buffer.write
      (editor.buffer.content.splice start stop (LineEnding.normalize text)) := ⟨_, rfl⟩
  rw [← hbuffer] at hreplace
  have hstate : (editor.cursor.mapThroughEdit edit buffer).1.state =
      .ofCaret (buffer.positionOf (start + edit.inserted.length)) := by
    apply mapThroughEdit_collapse
    · exact mapOffset_end hoffset hdeleted hends.caret
    · intro selection hselection
      exact mapOffset_end hoffset hdeleted (hends.anchor selection hselection)
  have hfits : start + edit.inserted.length ≤ buffer.length := by
    have hsound : buffer.Sound := hbuffer ▸ Buffer.sound_write _ _
    have hle := hends.le
    have hin := hends.inText
    rw [hsound.length_eq, hbuffer, hinserted]
    simp only [Buffer.write, Text.length_splice]
    omega
  have hsound : buffer.Sound := hbuffer ▸ Buffer.sound_write _ _
  have hcaret : (editor.cursor.mapThroughEdit edit buffer).1.state.caret.offset
      = start + edit.inserted.length := by
    rw [hstate]
    simp only [CursorState.ofCaret]
    rw [hsound.positionOf_offset, Nat.min_eq_left hfits]
  rw [editOffsets_eq, hreplace]
  simp only [hnoop]
  refine ⟨?_, ?_, ?_⟩
  · exact congrArg Buffer.content hbuffer
  · exact congrArg (fun state => state.selection.map Selection.range) hstate
  · rw [← hinserted]
    exact hcaret

/-- The edit that puts back what it deletes. -/
theorem Sound.editOffsets_same (h : editor.Sound) {start stop : Nat}
    (hends : editor.EndsAt start stop) (text : Text)
    (heq : editor.buffer.content.slice start stop = LineEnding.normalize text) :
    editor.editOffsets start stop text = editor := by
  have hle := hends.le
  have hlength : stop ≤ editor.buffer.length := h.buffer.length_eq ▸ hends.inText
  have hclamp : editor.buffer.clampSpan start stop = (start, stop) := by
    simp only [Buffer.clampSpan]
    ext <;> dsimp only <;> omega
  simp [editOffsets, Buffer.replace, hclamp, TextEdit.isNoop, heq]

theorem Sound.typeText_content (h : editor.Sound) (typed : Text) :
    (editor.typeText typed).buffer.content =
      editor.buffer.content.take editor.typedSpan.1 ++ LineEnding.normalize typed
        ++ editor.buffer.content.drop editor.typedSpan.2 := by
  have hends := h.endsAt_typedSpan
  rw [h.typeText_eq typed]
  by_cases hsame : editor.buffer.content.slice editor.typedSpan.1 editor.typedSpan.2
      = LineEnding.normalize typed
  · have hback := Text.splice_slice editor.buffer.content hends.le
    rw [h.editOffsets_same hends typed hsame, ← hsame]
    exact hback.symm
  · exact (h.editOffsets_endsAt hends typed hsame).1

/-- Typing the selected text is an edit that does nothing. -/
theorem Sound.typeText_selectedText (h : editor.Sound) {typed : Text}
    (hsame : editor.selectedText = some (LineEnding.normalize typed)) :
    editor.typeText typed = editor := by
  rw [h.selectedText_eq] at hsame
  split at hsame
  · rw [h.typeText_eq typed]
    exact h.editOffsets_same h.endsAt_typedSpan typed (Option.some.inj hsame)
  · cases hsame

/-- Typing anything else leaves the caret alone, behind the text typed. -/
theorem Sound.typeText_caret (h : editor.Sound) {typed : Text}
    (hother : editor.selectedText ≠ some (LineEnding.normalize typed)) :
    (editor.typeText typed).selection = none ∧
    (editor.typeText typed).caret.offset
      = editor.typedSpan.1 + (LineEnding.normalize typed).length := by
  have hends := h.endsAt_typedSpan
  rw [h.typeText_eq typed]
  by_cases hsame : editor.buffer.content.slice editor.typedSpan.1 editor.typedSpan.2
      = LineEnding.normalize typed
  · -- Nothing is typed where nothing is selected.
    have hnone : editor.selection = none := by
      rw [h.selectedText_eq, hsame] at hother
      cases hselection : editor.selection with
      | none => rfl
      | some range => simp [hselection] at hother
    have hspan : editor.typedSpan = (editor.caret.offset, editor.caret.offset) := by
      simp [typedSpan, hnone]
    have hempty : LineEnding.normalize typed = [] := by
      rw [← hsame, hspan]
      simp [Text.slice]
    rw [h.editOffsets_same hends typed hsame, hspan, hempty]
    exact ⟨hnone, rfl⟩
  · exact (h.editOffsets_endsAt hends typed hsame).2

/-- In every editor, whatever was asked of it before, typing puts the text typed in place of the
selection. It leaves no selection and the caret behind that text, unless it is the selected text: then
nothing changes. -/
theorem typing_replaces_selection (document : DocumentId) (text : Text) (settings : Settings)
    (operations : List Operation) (typed : Text) :
    let editor := (new document text settings).performAll operations
    let after := editor.typeText typed
    let inserted := LineEnding.normalize typed
    let span := editor.typedSpan
    after.buffer.content =
      editor.buffer.content.take span.1 ++ inserted ++ editor.buffer.content.drop span.2 ∧
    (after.selection = none ∧ after.caret.offset = span.1 + inserted.length
      ↔ editor.selectedText ≠ some inserted) ∧
    (editor.selectedText = some inserted → after = editor) := by
  have h := performAll_sound (new_sound document text settings) operations
  refine ⟨h.typeText_content typed, ⟨?_, h.typeText_caret⟩, h.typeText_selectedText⟩
  intro ⟨hnone, _⟩ hsame
  rw [h.typeText_selectedText hsame] at hnone
  rw [selectedText, hnone] at hsame
  cases hsame

/-- Both characters of a text are selected backwards, and typed once more. -/
theorem typing_selected_text_keeps_selection :
    let editor := (new "a.txt" ['a', 'b'] .default).performAll
      [.setSelection ⟨⟨0, 2, 2⟩, ⟨0, 0, 0⟩⟩]
    let after := editor.typeText ['a', 'b']
    editor.typedSpan = (0, 2) ∧ after.selection ≠ none ∧ after.caret.offset ≠ 0 + 2 := by
  decide

end HeadlessEditor.Editor
