import HeadlessEditor.Proofs.ClusterSteps
import HeadlessEditor.Proofs.Typing

/-!
Deleting and moving agree on what a cluster is. What is deleted backward or forward where nothing is
selected is the stretch that a step to the left or to the right selects, at the borders of lines and inside
of clusters as well; and whether the caret is at the one or the other end of a deleted stretch makes no
difference.
-/

namespace HeadlessEditor.Editor

variable {editor : Editor}

structure Agrees (editor other : Editor) : Prop where
  content : editor.buffer.content = other.buffer.content
  version : editor.buffer.version = other.buffer.version
  caret : editor.caret = other.caret
  selection : editor.cursor.selection = other.cursor.selection
  decorations : editor.decorations = other.decorations

theorem Agrees.refl (editor : Editor) : editor.Agrees editor := ⟨rfl, rfl, rfl, rfl, rfl⟩

theorem Agrees.symm {other : Editor} (h : editor.Agrees other) : other.Agrees editor :=
  ⟨h.content.symm, h.version.symm, h.caret.symm, h.selection.symm, h.decorations.symm⟩

def deleteSelected (editor : Editor) : Editor :=
  match editor.selection with
  | some range => editor.delete range
  | none => editor

/-- What an edit makes of text and decorations does not depend on the cursor. -/
theorem editOffsets_congr {other : Editor} (hbuffer : other.buffer = editor.buffer)
    (hdecorations : other.decorations = editor.decorations) (start stop : Nat) (text : Text) :
    (other.editOffsets start stop text).buffer = (editor.editOffsets start stop text).buffer ∧
    (other.editOffsets start stop text).decorations
      = (editor.editOffsets start stop text).decorations := by
  rw [editOffsets_eq, editOffsets_eq, hbuffer, hdecorations]
  dsimp only
  split
  · exact ⟨hbuffer, hdecorations⟩
  · exact ⟨rfl, rfl⟩

/-- Two editors on the same text that delete a stretch, each from an end of it. -/
theorem Sound.agrees_editOffsets {other : Editor} (h : editor.Sound) (hother : other.Sound)
    (hbuffer : other.buffer = editor.buffer) (hdecorations : other.decorations = editor.decorations)
    {start stop : Nat} (hends : editor.EndsAt start stop) (hends' : other.EndsAt start stop)
    (hlt : start < stop) :
    (editor.editOffsets start stop []).Agrees (other.editOffsets start stop []) := by
  obtain ⟨hbuffer', hdecorations'⟩ := editOffsets_congr hbuffer hdecorations start stop []
  have hne : editor.buffer.content.slice start stop ≠ [] := Text.slice_ne_nil _ hlt hends.inText
  obtain ⟨-, hnone, hoffset⟩ := h.editOffsets_endsAt hends [] hne
  obtain ⟨-, hnone', hoffset'⟩ := hother.editOffsets_endsAt hends' [] (hbuffer ▸ hne)
  -- The carets are at one offset of one text.
  have hcaret : (editor.editOffsets start stop []).caret = _ :=
    (editOffsets_sound h start stop []).cursor.caret
  have hcaret' : (other.editOffsets start stop []).caret = _ :=
    (editOffsets_sound hother start stop []).cursor.caret
  constructor
  · rw [hbuffer']
  · rw [hbuffer']
  · rw [hcaret, hcaret', hbuffer']
    exact congrArg _ (hoffset.trans hoffset'.symm)
  · rw [Option.map_eq_none_iff.1 hnone, Option.map_eq_none_iff.1 hnone']
  · rw [hdecorations']

theorem Sound.editOffsets_self (h : editor.Sound) {offset : Nat}
    (hcaret : editor.caret.offset = offset) (hnone : editor.selection = none) :
    editor.editOffsets offset offset [] = editor := by
  have hends := h.endsAt_typedSpan
  have hspan : editor.typedSpan = (offset, offset) := by simp [typedSpan, hnone, hcaret]
  rw [hspan] at hends
  exact h.editOffsets_same hends [] (by simp [Text.slice, LineEnding.normalize])

/-- The selection is deleted as if nothing was typed over it. -/
theorem Sound.deleteSelected_eq (h : editor.Sound) :
    editor.deleteSelected = editor.editOffsets editor.typedSpan.1 editor.typedSpan.2 [] := by
  rw [← h.typeText_eq, typeText, deleteSelected]
  cases hselection : editor.selection with
  | none => exact (h.editOffsets_self rfl hselection).symm
  | some range => rfl

/-- Where nothing is selected a motion selects what lies between the caret and where it leads. -/
theorem moveCursor_selects (hnone : editor.cursor.selection = none) (motion : Motion) :
    let target := (Cursor.destination Grapheme.segmentation editor.cursor.state motion editor.buffer).1
    let moved := editor.moveCursor motion true
    moved.buffer = editor.buffer ∧ moved.decorations = editor.decorations ∧ moved.caret = target ∧
    moved.cursor.selection = Option.filter (!·.isEmpty) (some ⟨editor.caret, target⟩) := by
  intro target moved
  have hmoved : moved = _ := editor.withCursor_eq _
  rw [hmoved]
  refine ⟨rfl, rfl, rfl, ?_⟩
  simp only [emitAll, Cursor.move, if_true, hnone, Option.map_none, Option.getD_none]
  rfl

theorem Sound.typedSpan_moveCursor (h : editor.Sound) (hnone : editor.cursor.selection = none)
    (motion : Motion) :
    let target := (Cursor.destination Grapheme.segmentation editor.cursor.state motion editor.buffer).1
    (editor.moveCursor motion true).typedSpan =
      (min editor.caret.offset target.offset, max editor.caret.offset target.offset) := by
  intro target
  have hmoved : (editor.moveCursor motion true).Sound := perform_sound h (.moveCursor motion true)
  obtain ⟨-, -, hcaret, hselection⟩ := moveCursor_selects hnone motion
  by_cases hsame : editor.caret.offset = target.offset
  · have hempty : (editor.moveCursor motion true).selection = none := by
      simp [selection, hselection, Selection.isEmpty, hsame, target]
    simp [typedSpan, hempty, hcaret, hsame, target]
  · have hsome : (editor.moveCursor motion true).cursor.state.selection
        = some ⟨editor.caret, target⟩ := by
      refine hselection.trans ?_
      simp [Selection.isEmpty, hsame, target]
    have hspan : (editor.moveCursor motion true).typedSpan
        = (Selection.mk editor.caret target).range.offsets := by
      simp [typedSpan, selection, Cursor.selection, hsome]
    rw [hspan, hmoved.selection_offsets hsome]

/-- Deleting what a motion selects is deleting what lies between the caret and where it leads. -/
theorem Sound.agrees_deleteSelected (h : editor.Sound) (hnone : editor.cursor.selection = none)
    (motion : Motion) :
    let target := (Cursor.destination Grapheme.segmentation editor.cursor.state motion editor.buffer).1
    (editor.editOffsets (min editor.caret.offset target.offset)
      (max editor.caret.offset target.offset) []).Agrees
        (editor.moveCursor motion true).deleteSelected := by
  intro target
  have hmoved : (editor.moveCursor motion true).Sound := perform_sound h (.moveCursor motion true)
  have htarget : editor.buffer.HasPlace target :=
    (Cursor.destination_sound h.buffer h.cursor motion).1
  have hspan := h.typedSpan_moveCursor hnone motion
  obtain ⟨hbuffer, hdecorations, hcaret, hselection⟩ := moveCursor_selects hnone motion
  have hends := hmoved.endsAt_typedSpan
  rw [hmoved.deleteSelected_eq]
  rw [hspan] at hends ⊢
  by_cases hsame : editor.caret.offset = target.offset
  · -- The motion leads nowhere else, so that nothing is selected by it.
    have hstay : editor.caret = target :=
      (h.cursor.caret.trans (congrArg _ hsame)).trans htarget.symm
    have hempty : (editor.moveCursor motion true).cursor.selection = none := by
      rw [hselection]
      simp [Selection.isEmpty, hsame, target]
    rw [← hsame, Nat.min_self, Nat.max_self,
      h.editOffsets_self rfl (Option.map_eq_none_iff.2 hnone),
      hmoved.editOffsets_self (by rw [hcaret, hsame]) (Option.map_eq_none_iff.2 hempty)]
    exact ⟨by rw [hbuffer], by rw [hbuffer], hstay.trans hcaret.symm, hnone.trans hempty.symm,
      hdecorations.symm⟩
  · have hlt : min editor.caret.offset target.offset < max editor.caret.offset target.offset := by
      omega
    have hin := hends.inText
    rw [hbuffer] at hin
    refine h.agrees_editOffsets hmoved hbuffer hdecorations ?_ hends hlt
    refine ⟨Nat.le_of_lt hlt, hin, by omega, ?_⟩
    intro selection hselected
    have hstate : editor.cursor.state.selection = none := hnone
    simp [hstate] at hselected

/-- What is deleted backward lies between the caret and where a step to the left leads. -/
theorem Sound.deleteBackward_eq (h : editor.Sound)
    (hlength : editor.buffer.content.length ≤ maxOffset) (hnone : editor.selection = none) :
    let target := Cursor.stepLeft Grapheme.segmentation editor.caret editor.buffer
    editor.deleteBackward = editor.editOffsets (min editor.caret.offset target.offset)
      (max editor.caret.offset target.offset) [] := by
  intro target
  have hcaret : editor.buffer.HasPlace editor.caret := h.cursor.caret
  obtain ⟨hline, -, hoffset⟩ := hcaret.spec h.buffer
  have hsteps : editor.buffer.StepsLeft Grapheme.segmentation editor.caret target :=
    h.buffer.stepLeft_steps hcaret hlength
  simp only [deleteBackward, hnone]
  generalize target = next at hsteps ⊢
  cases hsteps with
  | first hcolumn hfirst =>
    have hzero : editor.caret.offset = 0 := by simp [hoffset, hfirst, hcolumn]
    rw [if_pos hzero, Nat.min_self, Nat.max_self, h.editOffsets_self rfl hnone]
  | lineAbove next hnext hcolumn hnextLine hnextColumn =>
    -- The break is the one character between the end of the line above and the caret.
    obtain ⟨hline', -, hoffset'⟩ := hnext.spec h.buffer
    have hbreak := lineOffset_succ editor.buffer.lines next.line hline'
    rw [h.buffer.lineLength_eq hline'] at hnextColumn
    rw [hnextLine] at hbreak
    rw [if_neg (by omega), if_pos hcolumn]
    congr 1 <;> omega
  | onLine next hnext hcolumn hnextLine hnextColumn =>
    obtain ⟨-, -, hoffset'⟩ := hnext.spec h.buffer
    have hbefore := (Grapheme.segmentation.previousBoundary_isGreatest
      ((editor.buffer.line? editor.caret.line).getD []) hcolumn).1.2
    rw [hnextLine] at hoffset'
    rw [if_neg (by omega), if_neg (by omega)]
    congr 1 <;> omega

/-- What is deleted forward lies between the caret and where a step to the right leads. -/
theorem Sound.deleteForward_eq (h : editor.Sound) (hnone : editor.selection = none) :
    let target := Cursor.stepRight Grapheme.segmentation editor.caret editor.buffer
    editor.deleteForward = editor.editOffsets (min editor.caret.offset target.offset)
      (max editor.caret.offset target.offset) [] := by
  intro target
  have hcaret : editor.buffer.HasPlace editor.caret := h.cursor.caret
  obtain ⟨hline, -, hoffset⟩ := hcaret.spec h.buffer
  have hsteps : editor.buffer.StepsRight Grapheme.segmentation editor.caret target := h.buffer.stepRight_steps hcaret
  simp only [deleteForward, hnone]
  generalize target = next at hsteps ⊢
  cases hsteps with
  | last hcolumn hlast =>
    have hend := hcaret.offset_eq_length h.buffer hlast hcolumn
    rw [if_pos (Nat.le_of_eq hend.symm), Nat.min_self, Nat.max_self, h.editOffsets_self rfl hnone]
  | lineBelow next hnext hcolumn hnextLine hnextColumn =>
    obtain ⟨hline', -, hoffset'⟩ := hnext.spec h.buffer
    have hin := hnext.offset_le h.buffer
    have hbreak := lineOffset_succ editor.buffer.lines editor.caret.line hline
    have hend := hcolumn
    rw [h.buffer.lineLength_eq hline] at hend
    have hle := hcaret.column_le h.buffer
    rw [h.buffer.lineLength_eq hline] at hle
    rw [hnextLine] at hoffset'
    rw [if_neg (by omega), if_pos hcolumn]
    congr 1 <;> omega
  | onLine next hnext hcolumn hnextLine hnextColumn =>
    obtain ⟨-, -, hoffset'⟩ := hnext.spec h.buffer
    have hin := hnext.offset_le h.buffer
    rw [h.buffer.lineLength_eq_length] at hcolumn
    have hbehind := (Grapheme.segmentation.nextBoundary_isLeast hcolumn).1.2
    rw [← h.buffer.lineLength_eq_length] at hcolumn
    rw [hnextLine] at hoffset'
    rw [if_neg (by omega), if_neg (by omega)]
    congr 1 <;> omega

theorem Sound.deleteBackward_agrees (h : editor.Sound)
    (hlength : editor.buffer.content.length ≤ maxOffset) (hnone : editor.selection = none) :
    editor.deleteBackward.Agrees (editor.moveCursor .left true).deleteSelected := by
  rw [h.deleteBackward_eq hlength hnone]
  exact h.agrees_deleteSelected (Option.map_eq_none_iff.1 hnone) .left

theorem Sound.deleteForward_agrees (h : editor.Sound) (hnone : editor.selection = none) :
    editor.deleteForward.Agrees (editor.moveCursor .right true).deleteSelected := by
  rw [h.deleteForward_eq hnone]
  exact h.agrees_deleteSelected (Option.map_eq_none_iff.1 hnone) .right

/-- At the start of the document there is nothing to delete backward. -/
theorem deleteBackward_start (hnone : editor.selection = none) (hstart : editor.caret.offset = 0) :
    editor.deleteBackward = editor := by
  simp [deleteBackward, hnone, hstart]

/-- At the end of the document there is nothing to delete forward. -/
theorem deleteForward_end (hnone : editor.selection = none)
    (hend : editor.buffer.length ≤ editor.caret.offset) : editor.deleteForward = editor := by
  simp [deleteForward, hnone, hend]

/-- In every editor that has nothing selected, whatever was asked of it before, deleting backward or
forward comes to the same as selecting by a step to the left or to the right and deleting what is then
selected. At the start or the end of the document both leave everything as it was. -/
theorem deleting_agrees_with_moving (document : DocumentId) (text : Text) (settings : Settings)
    (operations : List Operation) :
    let editor := (new document text settings).performAll operations
    let selectedLeft := editor.moveCursor .left true
    let selectedRight := editor.moveCursor .right true
    editor.buffer.content.length ≤ maxOffset → editor.selection = none →
    editor.deleteBackward.Agrees selectedLeft.deleteSelected ∧
    editor.deleteForward.Agrees selectedRight.deleteSelected ∧
    (editor.caret.offset = 0 →
      editor.deleteBackward.Agrees editor ∧ selectedLeft.deleteSelected.Agrees editor) ∧
    (editor.caret.offset = editor.buffer.content.length →
      editor.deleteForward.Agrees editor ∧ selectedRight.deleteSelected.Agrees editor) := by
  intro editor selectedLeft selectedRight hlength hnone
  have h : editor.Sound := reachable_sound document text settings operations
  have hleft := h.deleteBackward_agrees hlength hnone
  have hright := h.deleteForward_agrees hnone
  refine ⟨hleft, hright, ?_, ?_⟩
  · intro hstart
    have hstay := deleteBackward_start hnone hstart
    rw [hstay] at hleft ⊢
    exact ⟨.refl editor, hleft.symm⟩
  · intro hend
    have hstay := deleteForward_end hnone (by rw [h.buffer.length_eq, hend])
    rw [hstay] at hright ⊢
    exact ⟨.refl editor, hright.symm⟩

/-- The caret is between a letter and its accent, so that each of them is deleted alone. -/
theorem deleting_agrees_inside_cluster :
    let editor := (new "a.txt" ['e', '\u0301', '\n', 'y'] .default).performAll [.setCursorOffset 1]
    editor.buffer.content.length ≤ maxOffset ∧ editor.selection = none ∧
    editor.deleteBackward.buffer.content = ['\u0301', '\n', 'y'] ∧
    editor.deleteForward.buffer.content = ['e', '\n', 'y'] ∧
    editor.deleteBackward.Agrees (editor.moveCursor .left true).deleteSelected ∧
    editor.deleteForward.Agrees (editor.moveCursor .right true).deleteSelected := by
  intro editor
  have hlength : editor.buffer.content.length ≤ maxOffset := by decide
  have hnone : editor.selection = none := by decide
  obtain ⟨hbackward, hforward, -⟩ := deleting_agrees_with_moving "a.txt" ['e', '\u0301', '\n', 'y']
    .default [.setCursorOffset 1] hlength hnone
  exact ⟨hlength, hnone, by decide +kernel, by decide +kernel, hbackward, hforward⟩

end HeadlessEditor.Editor
