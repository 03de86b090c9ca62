import HeadlessEditor.Extension.CoreEditing
import HeadlessEditor.Extension.Registry
import HeadlessEditor.Proofs.Deletion
import HeadlessEditor.Proofs.Saving
import HeadlessEditor.Proofs.SelectionEdits

/-!
Which editing commands end a run of vertical moves. A command that takes a step of the cursor ends it, also
where the step leads nowhere. A command that edits ends it by carrying the cursor through the edit, and an
edit that finds nothing to do does not come so far: the column that the run began in is still desired.
-/

namespace HeadlessEditor

/-- Only vertical motions desire a column. -/
theorem Cursor.move_desired {segmentation : Segmentation} (cursor : Cursor) {motion : Motion}
    (hmotion : motion.lineShift? = none) (extend : Bool) (buffer : Buffer) :
    (cursor.move segmentation motion extend buffer).1.state.desiredColumn = none := by
  have hdesired : (destination segmentation cursor.state motion buffer).2 = none := by
    cases motion with
    | left | right | lineStart | lineEnd | documentStart | documentEnd => rfl
    | up | down | lines count => cases hmotion
  simp only [move]
  split
  · exact hdesired
  · split
    · rfl
    · exact hdesired

/-- An edit does nothing where the text that it puts in is there already. -/
theorem Buffer.replace_isNoop (buffer : Buffer) (start stop : Nat) (text : Text) :
    (buffer.replace start stop text).2.isNoop =
      (buffer.textIn start stop == LineEnding.normalize text) := by
  simp only [replace]
  split <;> rfl

namespace Editor

variable {editor : Editor}

/-- After this no column is desired, unless there was nothing to do: then all is as it was. -/
structure EndsRun (editor : Editor) (idle : Prop) (after : Editor) : Prop where
  unchanged : idle → after = editor
  ended : ¬ idle → after.cursor.state.desiredColumn = none

theorem EndsRun.congr {idle idle' : Prop} {after : Editor} (h : editor.EndsRun idle after)
    (hidle : idle' ↔ idle) : editor.EndsRun idle' after :=
  ⟨fun h' => h.unchanged (hidle.1 h'), fun h' => h.ended (mt hidle.2 h')⟩

/-- A run is over exactly if none was going on or there was something to do. -/
theorem EndsRun.desired_iff {idle : Prop} {after : Editor} (h : editor.EndsRun idle after) :
    after.cursor.state.desiredColumn = none
      ↔ editor.cursor.state.desiredColumn = none ∨ ¬ idle := by
  by_cases hidle : idle
  · simp [h.unchanged hidle, hidle]
  · simp [h.ended hidle, hidle]

theorem withCursor_endsRun (editor : Editor) {step : Cursor × CursorChange}
    (hstep : step.1.state.desiredColumn = none) : editor.EndsRun False (editor.withCursor step) where
  unchanged := False.elim
  ended _ := by
    rw [withCursor_eq]
    exact hstep

theorem moveCursor_endsRun (editor : Editor) {motion : Motion} (hmotion : motion.lineShift? = none)
    (extend : Bool) : editor.EndsRun False (editor.moveCursor motion extend) :=
  editor.withCursor_endsRun (editor.cursor.move_desired hmotion extend editor.buffer)

/-- An edit that changes something carries the cursor along. -/
theorem editOffsets_desired (editor : Editor) {start stop : Nat} {text : Text}
    (hchanges : (editor.buffer.replace start stop text).2.isNoop = false) :
    (editor.editOffsets start stop text).cursor.state.desiredColumn = none := by
  rw [(editOffsets_changes editor hchanges).2]
  rfl

/-- Deleting from within the text changes something. -/
theorem Sound.editOffsets_desired_of_lt (h : editor.Sound) {start stop : Nat} (hlt : start < stop)
    (hin : start < editor.buffer.length) :
    (editor.editOffsets start stop []).cursor.state.desiredColumn = none := by
  have hspan : editor.buffer.clampSpan start stop = (start, min stop editor.buffer.length) := by
    simp only [Buffer.clampSpan]
    ext <;> dsimp only <;> omega
  have hlength : min stop editor.buffer.length ≤ editor.buffer.content.length := by
    rw [h.buffer.length_eq]
    exact Nat.min_le_right _ _
  have hne : editor.buffer.textIn start stop ≠ [] := by
    rw [Buffer.textIn, hspan]
    exact Text.slice_ne_nil _ (by omega) hlength
  apply editor.editOffsets_desired
  rw [Buffer.replace_isNoop]
  simp [LineEnding.normalize, hne]

/-- The text that typing replaces. -/
theorem Sound.slice_typedSpan (h : editor.Sound) :
    editor.buffer.content.slice editor.typedSpan.1 editor.typedSpan.2
      = editor.selectedText.getD [] := by
  rw [h.selectedText_eq]
  cases hselection : editor.selection with
  | none => simp [typedSpan, hselection, Text.slice]
  | some range => rfl

/-- Typing has nothing to do where the text typed is what is selected. -/
theorem Sound.typeText_endsRun (h : editor.Sound) (text : Text) :
    editor.EndsRun (editor.selectedText.getD [] = LineEnding.normalize text)
      (editor.typeText text) := by
  have hends := h.endsAt_typedSpan
  rw [← h.slice_typedSpan, h.typeText_eq text]
  constructor
  · intro hsame
    exact h.editOffsets_same hends text hsame
  · intro hother
    obtain ⟨edit, hreplace, hnoop, -⟩ :=
      replace_changes h.buffer hends.le hends.inText text hother
    exact editor.editOffsets_desired (by rw [hreplace, hnoop])

/-- Where something is selected there is something to delete. -/
theorem Sound.delete_selection_desired (h : editor.Sound) {range : TextRange}
    (hselection : editor.selection = some range) :
    (editor.delete range).cursor.state.desiredColumn = none := by
  have htyped : editor.delete range = editor.typeText [] := by simp [typeText, hselection, delete]
  obtain ⟨selected, hselected, -⟩ := Option.map_eq_some_iff.1 hselection
  have hne := h.selected_ne_nil hselected
  rw [htyped]
  refine (h.typeText_endsRun []).ended ?_
  rw [h.selectedText_of_selection hselected, Option.getD_some]
  exact hne

theorem Sound.deleteBackward_endsRun (h : editor.Sound) :
    editor.EndsRun (editor.selection = none ∧ editor.caret.offset = 0) editor.deleteBackward := by
  have hcaret : editor.buffer.HasPlace editor.caret := h.cursor.caret
  obtain ⟨hline, -, hoffset⟩ := hcaret.spec h.buffer
  have hin := hcaret.offset_le h.buffer
  constructor
  · rintro ⟨hnone, hstart⟩
    exact deleteBackward_start hnone hstart
  · intro hbusy
    cases hselection : editor.selection with
    | some range =>
      simp only [deleteBackward, hselection]
      exact h.delete_selection_desired hselection
    | none =>
      have hstart : editor.caret.offset ≠ 0 := fun hstart => hbusy ⟨hselection, hstart⟩
      simp only [deleteBackward, hselection, if_neg hstart]
      -- Whatever is before the caret, the deleted stretch ends at the caret and starts earlier.
      split
      · exact h.editOffsets_desired_of_lt (by omega) (by omega)
      · rename_i hcolumn
        have hbefore := (Grapheme.segmentation.previousBoundary_isGreatest
          ((editor.buffer.line? editor.caret.line).getD []) (Nat.pos_of_ne_zero hcolumn)).1.2
        exact h.editOffsets_desired_of_lt (by omega) (by omega)

theorem Sound.deleteForward_endsRun (h : editor.Sound) :
    editor.EndsRun (editor.selection = none ∧ editor.buffer.length ≤ editor.caret.offset)
      editor.deleteForward := by
  have hcaret : editor.buffer.HasPlace editor.caret := h.cursor.caret
  obtain ⟨hline, -, hoffset⟩ := hcaret.spec h.buffer
  constructor
  · rintro ⟨hnone, hend⟩
    exact deleteForward_end hnone hend
  · intro hbusy
    cases hselection : editor.selection with
    | some range =>
      simp only [deleteForward, hselection]
      exact h.delete_selection_desired hselection
    | none =>
      have hend : ¬ editor.buffer.length ≤ editor.caret.offset := fun hend => hbusy ⟨hselection, hend⟩
      simp only [deleteForward, hselection, if_neg hend]
      split
      · exact h.editOffsets_desired_of_lt (by omega) (by omega)
      · rename_i hcolumn
        rw [h.buffer.lineLength_eq_length, Nat.not_le] at hcolumn
        have hbehind := (Grapheme.segmentation.nextBoundary_isLeast hcolumn).1.2
        exact h.editOffsets_desired_of_lt (by omega) (by omega)

end Editor

/-- The Tab key types no newline. -/
theorem Settings.normalize_indentUnit (settings : Settings) :
    LineEnding.normalize settings.indentUnit = settings.indentUnit := by
  rw [LineEnding.normalize_eq_self_iff]
  intro hpair
  have hreturn : '\r' ∈ settings.indentUnit := hpair.subset List.mem_cons_self
  unfold indentUnit at hreturn
  split at hreturn
  · exact absurd (List.eq_of_mem_replicate hreturn) (by decide)
  · exact absurd hreturn (by decide)

namespace CoreEditing

def verticalIds : List String := ["cursor.up", "cursor.down", "selection.up", "selection.down"]

/-- Commands with nothing to do: deleting towards the border of the document that the caret is at, and
typing what is selected. -/
def Idles (editor : Editor) (id : String) : Prop :=
  id = "edit.deleteLeft" ∧ editor.selection = none ∧ editor.caret.offset = 0 ∨
  id = "edit.deleteRight" ∧ editor.selection = none ∧
    editor.caret.offset = editor.buffer.content.length ∨
  id = "edit.newline" ∧ editor.selectedText.getD [] = ['\n'] ∨
  id = "edit.indent" ∧ editor.selectedText.getD [] = editor.settings.indentUnit

theorem Idles.mem {editor : Editor} {id : String} (h : Idles editor id) :
    id ∈ ["edit.deleteLeft", "edit.deleteRight", "edit.newline", "edit.indent"] := by
  rcases h with ⟨rfl, -⟩ | ⟨rfl, -⟩ | ⟨rfl, -⟩ | ⟨rfl, -⟩ <;> simp

section Run

variable {command : Command} {context : CommandContext}

/-- The command of a motion that is not vertical, which always has something to do. -/
theorem motionCommands_endRun {entry : MotionKey} (hentry : entry ∈ motions)
    (hcommand : command ∈ motionCommands entry) (hid : command.id ∉ verticalIds) :
    context.editor.EndsRun (Idles context.editor command.id) (command.run context).1.editor := by
  have hvertical : ∀ entry ∈ motions, entry.motion.lineShift? = none ∨
      s!"cursor.{entry.suffixName}" ∈ verticalIds ∧
      s!"selection.{entry.suffixName}" ∈ verticalIds := by
    decide
  have hbusy : ∀ entry ∈ motions,
      ∀ id ∈ ["edit.deleteLeft", "edit.deleteRight", "edit.newline", "edit.indent"],
        s!"cursor.{entry.suffixName}" ≠ id ∧ s!"selection.{entry.suffixName}" ≠ id := by
    decide
  simp only [motionCommands, List.mem_cons, List.not_mem_nil, or_false] at hcommand
  rcases hcommand with rfl | rfl
  · have hmotion := (hvertical entry hentry).resolve_right fun hids => hid hids.1
    exact (context.editor.moveCursor_endsRun hmotion false).congr
      ⟨fun hidle => (hbusy entry hentry _ hidle.mem).1 rfl, False.elim⟩
  · have hmotion := (hvertical entry hentry).resolve_right fun hids => hid hids.2
    exact (context.editor.moveCursor_endsRun hmotion true).congr
      ⟨fun hidle => (hbusy entry hentry _ hidle.mem).2 rfl, False.elim⟩

theorem editCommands_endRun (h : context.editor.Sound) (hcommand : command ∈ editCommands) :
    context.editor.EndsRun (Idles context.editor command.id) (command.run context).1.editor := by
  have hend : context.editor.caret.offset = context.editor.buffer.content.length
      ↔ context.editor.buffer.length ≤ context.editor.caret.offset := by
    have hin := Buffer.HasPlace.offset_le h.cursor.caret h.buffer
    rw [← h.buffer.length_eq]
    exact ⟨fun heq => Nat.le_of_eq heq.symm, Nat.le_antisymm hin⟩
  simp only [editCommands, List.mem_cons, List.not_mem_nil, or_false] at hcommand
  rcases hcommand with rfl | rfl | rfl | rfl | rfl | rfl
  · exact (context.editor.withCursor_endsRun rfl).congr (by simp [Idles, Command.onEditor])
  · exact (context.editor.withCursor_endsRun rfl).congr (by simp [Idles, Command.onEditor])
  · exact h.deleteBackward_endsRun.congr (by simp [Idles, Command.onEditor])
  · exact h.deleteForward_endsRun.congr (by simp [Idles, Command.onEditor, hend])
  · exact (h.typeText_endsRun ['\n']).congr
      (by simp [Idles, Command.onEditor, LineEnding.normalize])
  · exact (h.typeText_endsRun context.editor.settings.indentUnit).congr
      (by simp [Idles, Command.onEditor, Settings.normalize_indentUnit])

/-- A command ends the run unless it is a vertical motion or has nothing to do. -/
theorem run_endsRun (h : context.editor.Sound) (hcommand : command ∈ extension.commands)
    (hid : command.id ∉ verticalIds) :
    context.editor.EndsRun (Idles context.editor command.id) (command.run context).1.editor := by
  rcases List.mem_append.1 hcommand with hmotion | hedit
  · obtain ⟨entry, hentry, hmember⟩ := List.mem_flatMap.1 hmotion
    exact motionCommands_endRun hentry hmember hid
  · exact editCommands_endRun h hedit

end Run

end CoreEditing

/-- A command that is executed runs on the editor as it is. -/
theorem Registry.execute_editor {registry : Registry} {id owner : String} {command : Command}
    {editor : Editor} (hcommand : registry.commands.get? id = some ⟨command, owner⟩)
    (hexecuted : (registry.execute id editor).2.2 = .ok (.executed id)) :
    ∃ context : CommandContext, context.editor = editor ∧
      (registry.execute id editor).2.1 = (command.run context).1.editor := by
  simp only [execute, hcommand] at hexecuted ⊢
  split
  · exact ⟨_, rfl, rfl⟩
  · rename_i hdisabled
    rw [if_neg hdisabled] at hexecuted
    cases hexecuted

namespace CoreEditing

/-- In every editor, whatever was asked of it before, an editing command that is executed and is no
vertical motion leaves a desired column behind exactly if there was one and the command had nothing to
do: it was to delete towards the border of the document that the caret is at, or to type what is selected.
Then it leaves everything as it was. -/
theorem executed_command_ends_run_iff (document : DocumentId) (text : Text) (settings : Settings)
    (operations : List Operation) (registry : Registry) (command : Command) (owner : String) :
    let editor := (Editor.new document text settings).performAll operations
    let executed := registry.execute command.id editor
    registry.commands.get? command.id = some ⟨command, owner⟩ →
    command ∈ extension.commands → command.id ∉ verticalIds →
    executed.2.2 = .ok (.executed command.id) →
    (executed.2.1.cursor.state.desiredColumn = none
      ↔ editor.cursor.state.desiredColumn = none ∨ ¬ Idles editor command.id) ∧
    (Idles editor command.id → executed.2.1 = editor) := by
  intro editor executed hregistered hcommand hid hexecuted
  have h : editor.Sound := Editor.reachable_sound document text settings operations
  obtain ⟨context, hcontext, hafter⟩ := Registry.execute_editor hregistered hexecuted
  have hrun : editor.EndsRun (Idles editor command.id) (command.run context).1.editor := by
    rw [← hcontext] at h ⊢
    exact run_endsRun h hcommand hid
  rw [show executed.2.1 = _ from hafter]
  exact ⟨hrun.desired_iff, hrun.unchanged⟩

/-- Up from behind a word to the end of a shorter one, whose last letter is then deleted. -/
theorem delete_left_ends_run :
    let editor := (Editor.new "a.txt" ['a', '\n', 'b', 'c'] .default).performAll
      [.setCursor ⟨1, 2, 0⟩, .moveCursor .up false]
    let registry := (Registry.empty.load extension editor).1
    let command := Command.onEditor "edit.deleteLeft" "Delete Left" (·.deleteBackward)
    let executed := registry.execute command.id editor
    registry.commands.get? command.id = some ⟨command, "core.editing"⟩ ∧
    command ∈ extension.commands ∧ command.id ∉ verticalIds ∧
    executed.2.2 = .ok (.executed command.id) ∧
    editor.cursor.state.desiredColumn = some 2 ∧
    executed.2.1.cursor.state.desiredColumn = none := by
  have hcommand : Command.onEditor "edit.deleteLeft" "Delete Left" (·.deleteBackward)
      ∈ extension.commands := by
    simp [extension, editCommands]
  refine ⟨rfl, hcommand, by decide, rfl, by decide, ?_⟩
  refine (executed_command_ends_run_iff "a.txt" ['a', '\n', 'b', 'c'] .default
    [.setCursor ⟨1, 2, 0⟩, .moveCursor .up false] _ _ "core.editing" rfl hcommand (by decide) rfl).1.2
    (Or.inr ?_)
  have hcaret : ((Editor.new "a.txt" ['a', '\n', 'b', 'c'] .default).performAll
      [.setCursor ⟨1, 2, 0⟩, .moveCursor .up false]).caret.offset = 1 := by decide
  simp [Idles, Command.onEditor, hcaret]

/-- Up from behind a word to an empty first line, where there is nothing to delete. -/
theorem delete_left_at_start_keeps_desired_column :
    let editor := (Editor.new "a.txt" ['\n', 'a', 'b'] .default).performAll
      [.setCursor ⟨1, 2, 0⟩, .moveCursor .up false]
    let registry := (Registry.empty.load extension editor).1
    let executed := registry.execute "edit.deleteLeft" editor
    "edit.deleteLeft" ∈ extension.commands.map (·.id) ∧ "edit.deleteLeft" ∉ verticalIds ∧
    executed.2.2 = .ok (.executed "edit.deleteLeft") ∧
    executed.2.1.cursor.state.desiredColumn = some 2 := by
  intro editor registry executed
  have hexecuted : executed.2.2 = .ok (.executed "edit.deleteLeft") := rfl
  exact ⟨by decide, by decide, hexecuted, by decide +kernel⟩

end CoreEditing

end HeadlessEditor
