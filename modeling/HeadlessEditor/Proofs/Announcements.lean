import HeadlessEditor.Editor.Operation

/-!
What operations announce. Announcing adds to the journal and leaves the rest of the editor alone, so an
operation is a change of the state followed by a list of events. The equations below split each
operation so; whoever needs to know what an operation does can take it from there.
-/

namespace HeadlessEditor

/-- Whether an operation can lead to another document or to other settings. -/
def Operation.reframes : Operation → Bool
  | .openDocument _ _ | .updateSettings _ => true
  | _ => false

theorem Cursor.remembered_move {segmentation : Segmentation} (cursor : Cursor) (motion : Motion)
    (extend : Bool) (buffer : Buffer) :
    (cursor.move segmentation motion extend buffer).1.remembered = cursor.remembered := by
  simp only [Cursor.move]
  split
  · rfl
  · split <;> rfl

namespace Editor

def emitAll (editor : Editor) (events : List Event) : Editor :=
  { editor with journal := editor.journal ++ events.flatMap editor.bus.deliveries }

@[simp] theorem emitAll_nil (editor : Editor) : editor.emitAll [] = editor := by
  simp [emitAll]

theorem emit_eq_emitAll (editor : Editor) (event : Event) :
    editor.emit event = editor.emitAll [event] := by
  simp [emit, emitAll]

theorem emitAll_emitAll (editor : Editor) (first second : List Event) :
    (editor.emitAll first).emitAll second = editor.emitAll (first ++ second) := by
  simp [emitAll, List.append_assoc]

def cursorEvents (editor : Editor) (change : CursorChange) : List Event :=
  (if change.moved then [.cursor editor.caret] else [])
    ++ if change.selectionChanged then [.selection editor.selection] else []

theorem announceCursor_eq (editor : Editor) (change : CursorChange) :
    editor.announceCursor change = editor.emitAll (editor.cursorEvents change) := by
  obtain ⟨moved, selectionChanged⟩ := change
  cases moved <;> cases selectionChanged <;>
    simp [announceCursor, cursorEvents, emit_eq_emitAll, emitAll_emitAll]
  rfl

theorem announceDecorations_eq (editor : Editor) (changes : List DecorationChange) :
    editor.announceDecorations changes = editor.emitAll (changes.map .decoration) := by
  induction changes generalizing editor with
  | nil => simp [announceDecorations]
  | cons change rest ih =>
    rw [announceDecorations, List.foldl_cons, ← announceDecorations, ih, emit_eq_emitAll,
      emitAll_emitAll]
    rfl

/-- The editor after its text was replaced by `buffer`: cursor and decorations along with it. -/
def withText (editor : Editor) (buffer : Buffer) (cursor : Cursor)
    (decorations : DecorationStore) : Editor :=
  { editor with buffer, cursor, decorations }

theorem openDocument_eq (editor : Editor) (document : DocumentId) (text : Text) :
    editor.openDocument document text =
      let step := editor.cursor.swapDocument (some editor.document) document (.load text)
      let opened := { editor with document }.withText (.load text) step.1 editor.decorations.clear
      opened.emitAll (.content document 0 none :: opened.cursorEvents step.2
        ++ if editor.decorations.size > 0 then [.decoration .cleared] else []) := by
  simp only [openDocument, announceDecorations_eq, announceCursor_eq, emit_eq_emitAll,
    emitAll_emitAll]
  split <;> rfl

theorem setContent_eq (editor : Editor) (text : Text) :
    editor.setContent text =
      let buffer := editor.buffer.setContent text
      let step := editor.cursor.rederive buffer
      let changed := editor.withText buffer step.1 (editor.decorations.rederive buffer)
      changed.emitAll (.content editor.document buffer.version none
        :: changed.cursorEvents step.2) := by
  simp only [setContent, announceCursor_eq, emit_eq_emitAll, emitAll_emitAll]
  rfl

/-- An edit that puts back what it deletes does nothing; every other one carries cursor and
decorations along. -/
theorem editOffsets_eq (editor : Editor) (start stop : Nat) (text : Text) :
    editor.editOffsets start stop text =
      let (buffer, edit) := editor.buffer.replace start stop text
      let step := editor.cursor.mapThroughEdit edit buffer
      let carried := editor.decorations.mapThroughEdit edit buffer
      let changed := editor.withText buffer step.1 carried.1
      if edit.isNoop then editor
      else changed.emitAll (.content editor.document buffer.version (some edit)
        :: changed.cursorEvents step.2 ++ (carried.2.map .removed).map .decoration) := by
  simp only [editOffsets, announceDecorations_eq, announceCursor_eq, emit_eq_emitAll,
    emitAll_emitAll]
  rfl

inductive Edits (editor : Editor) : Editor → Prop where
  | nothing : Edits editor editor
  | edit (start stop : Nat) (text : Text) : Edits editor (editor.editOffsets start stop text)

theorem replace_edits (editor : Editor) (range : TextRange) (text : Text) :
    editor.Edits (editor.replace range text) :=
  .edit _ _ text

theorem insert_edits (editor : Editor) (place : Position) (text : Text) :
    editor.Edits (editor.insert place text) :=
  .edit _ _ text

theorem delete_edits (editor : Editor) (range : TextRange) : editor.Edits (editor.delete range) :=
  editor.replace_edits range []

theorem typeText_edits (editor : Editor) (text : Text) : editor.Edits (editor.typeText text) := by
  unfold typeText
  split
  · exact editor.replace_edits _ text
  · exact .edit _ _ text

theorem deleteBackward_edits (editor : Editor) : editor.Edits editor.deleteBackward := by
  simp only [deleteBackward]
  split
  · exact editor.delete_edits _
  · split
    · exact .nothing
    · exact .edit _ _ []

theorem deleteForward_edits (editor : Editor) : editor.Edits editor.deleteForward := by
  simp only [deleteForward]
  split
  · exact editor.delete_edits _
  · split
    · exact .nothing
    · exact .edit _ _ []

theorem withCursor_eq (editor : Editor) (step : Cursor × CursorChange) :
    editor.withCursor step =
      let moved := { editor with cursor := step.1 }
      moved.emitAll (moved.cursorEvents step.2) := by
  simp only [withCursor, announceCursor_eq]

structure SameFrame (editor after : Editor) : Prop where
  document : after.document = editor.document
  remembered : after.cursor.remembered = editor.cursor.remembered
  settings : after.settings = editor.settings

variable {editor : Editor}

theorem SameFrame.refl (editor : Editor) : editor.SameFrame editor := ⟨rfl, rfl, rfl⟩

theorem editOffsets_sameFrame (editor : Editor) (start stop : Nat) (text : Text) :
    editor.SameFrame (editor.editOffsets start stop text) := by
  rw [editOffsets_eq]
  dsimp only
  split
  · exact .refl editor
  · exact ⟨rfl, rfl, rfl⟩

theorem Edits.sameFrame {after : Editor} (hedits : editor.Edits after) :
    editor.SameFrame after := by
  cases hedits with
  | nothing => exact .refl editor
  | edit start stop text => exact editor.editOffsets_sameFrame start stop text

theorem withCursor_sameFrame (editor : Editor) {step : Cursor × CursorChange}
    (h : step.1.remembered = editor.cursor.remembered) :
    editor.SameFrame (editor.withCursor step) := by
  rw [withCursor_eq]
  exact ⟨rfl, h, rfl⟩

theorem withDecorations_sameFrame (editor : Editor) (decorations : DecorationStore)
    (changes : List DecorationChange) :
    editor.SameFrame ({ editor with decorations }.announceDecorations changes) := by
  rw [announceDecorations_eq]
  exact ⟨rfl, rfl, rfl⟩

theorem removeDecoration_sameFrame (editor : Editor) (id : DecorationId) :
    editor.SameFrame (editor.removeDecoration id).1 := by
  simp only [removeDecoration]
  split
  · exact editor.withDecorations_sameFrame _ _
  · exact .refl editor

theorem updateDecoration_sameFrame (editor : Editor) (id : DecorationId) (decoration : Decoration) :
    editor.SameFrame (editor.updateDecoration id decoration).1 := by
  unfold updateDecoration
  split
  · exact editor.withDecorations_sameFrame _ _
  · exact .refl editor

theorem clearDecorations_sameFrame (editor : Editor) :
    editor.SameFrame editor.clearDecorations.1 := by
  simp only [clearDecorations]
  split
  · exact editor.withDecorations_sameFrame _ _
  · exact ⟨rfl, rfl, rfl⟩

theorem perform_sameFrame (editor : Editor) {operation : Operation}
    (h : operation.reframes = false) : editor.SameFrame (editor.perform operation).1 := by
  cases operation with
  | openDocument _ _ | updateSettings _ => cases h
  | setContent text =>
    simp only [perform, setContent_eq]
    exact ⟨rfl, rfl, rfl⟩
  | insert place text =>
    simp only [perform]
    exact (editor.insert_edits place text).sameFrame
  | delete range =>
    simp only [perform]
    exact (editor.delete_edits range).sameFrame
  | replace range text =>
    simp only [perform]
    exact (editor.replace_edits range text).sameFrame
  | typeText text =>
    simp only [perform]
    exact (editor.typeText_edits text).sameFrame
  | deleteBackward =>
    simp only [perform]
    exact editor.deleteBackward_edits.sameFrame
  | deleteForward =>
    simp only [perform]
    exact editor.deleteForward_edits.sameFrame
  | setCursor _ | setCursorOffset _ | setSelection _ | clearSelection | selectAll =>
    exact editor.withCursor_sameFrame rfl
  | moveCursor motion extend =>
    exact editor.withCursor_sameFrame (editor.cursor.remembered_move motion extend editor.buffer)
  | addDecoration decoration => exact editor.withDecorations_sameFrame _ _
  | removeDecoration id => exact editor.removeDecoration_sameFrame id
  | updateDecoration id decoration => exact editor.updateDecoration_sameFrame id decoration
  | clearDecorations => exact editor.clearDecorations_sameFrame
  | subscribe _ _ | unsubscribe _ | emit _ | decoration _ | setting _ | selectedText | selection
  | line _ | positionAt _ _ | positionOf _ | textForSaving => exact ⟨rfl, rfl, rfl⟩

theorem openDocument_settings (editor : Editor) (document : DocumentId) (text : Text) :
    (editor.openDocument document text).settings = editor.settings := by
  rw [openDocument_eq]
  rfl

/-- New settings are all that a patch can change. -/
theorem updateSettings_eq (editor : Editor) (change : Json) :
    ∃ settings events,
      (editor.updateSettings change).1 = { editor with settings }.emitAll events := by
  unfold updateSettings
  split
  · dsimp only
    split
    · exact ⟨_, [], (emitAll_nil _).symm⟩
    · exact ⟨_, _, emit_eq_emitAll _ _⟩
  · exact ⟨editor.settings, [], (emitAll_nil editor).symm⟩

end Editor

end HeadlessEditor
