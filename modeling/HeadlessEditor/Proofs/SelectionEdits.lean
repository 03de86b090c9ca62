import HeadlessEditor.Proofs.Anchors
import HeadlessEditor.Proofs.Typing
import Mathlib.Order.MinMax

/-!
Selections and edits elsewhere in the text. Anchor and caret are carried across an edit one by one, and
both go past what is inserted where they are. So a selection keeps those of its characters that the edit
does not delete, and takes in what is inserted inside it or at its end. It goes only if its ends meet,
and while it is there its ends do not change places.
-/

namespace HeadlessEditor

namespace TextEdit

variable {edit : TextEdit} {old new : Text} {start stop : Nat}

/-- What an edit makes of a selected stretch: what is left of it before the edit, the inserted text if
the edit is inside the stretch or at its end, and what is left behind the edit. -/
def selectedRemnant (edit : TextEdit) (text : Text) (start stop : Nat) : Text :=
  text.slice start (min stop edit.offset)
    ++ (if start < edit.offset ∧ edit.offset ≤ stop then edit.inserted else [])
    ++ text.slice (max start edit.stop) stop

/-- A stretch whose ends are both behind the edit or before it is left as it is. -/
theorem selectedRemnant_elsewhere (hend : edit.stop = edit.offset + edit.deleted.length)
    (h : edit.stop ≤ start ∨ stop < edit.offset) (text : Text) :
    edit.selectedRemnant text start stop = text.slice start stop := by
  rw [selectedRemnant, if_neg (by omega)]
  rcases h with hbehind | hbefore
  · rw [Text.slice_of_le _ (show min stop edit.offset ≤ start by omega), Nat.max_eq_left hbehind]
    rfl
  · rw [Text.slice_of_le _ (show stop ≤ max start edit.stop by omega),
      Nat.min_eq_left (Nat.le_of_lt hbefore), List.append_nil, List.append_nil]

/-- The text between the ends of a stretch after both were carried across the edit. -/
theorem Turns.slice_carried (h : edit.Turns old new)
    (hend : edit.stop = edit.offset + edit.deleted.length) (hle : start ≤ stop) :
    new.slice (edit.mapOffset start .after) (edit.mapOffset stop .after)
      = edit.selectedRemnant old start stop := by
  rw [mapOffset_after hend, mapOffset_after hend]
  by_cases hstop : stop < edit.offset
  · rw [if_pos (by omega), if_pos hstop, h.slice_before (Nat.le_of_lt hstop),
      selectedRemnant_elsewhere hend (Or.inr hstop)]
  · rw [if_neg hstop]
    -- What is behind the edit may be nothing.
    have hlast : old.slice (max start edit.stop) stop
        = old.slice (max start edit.stop) (edit.stop + (stop - edit.stop)) := by
      by_cases hlong : edit.stop ≤ stop
      · rw [Nat.add_sub_cancel' hlong]
      · rw [Text.slice_of_le _ (by omega), Text.slice_of_le _ (by omega)]
    by_cases hstart : start < edit.offset
    · rw [if_pos hstart, h.slice_around hend (Nat.le_of_lt hstart), selectedRemnant, hlast,
        if_pos ⟨hstart, by omega⟩, Nat.min_eq_right (by omega), Nat.max_eq_right (by omega)]
    · rw [if_neg hstart, h.slice_behind hend, selectedRemnant, hlast, if_neg (by omega),
        Text.slice_of_le _ (show min stop edit.offset ≤ start by omega),
        show edit.stop + (start - edit.stop) = max start edit.stop by omega]
      rfl

end TextEdit

/-- The direction of a selection of the text can be read off its offsets. -/
theorem Selection.isReversed_eq {buffer : Buffer} {selection : Selection}
    (hanchor : buffer.HasPlace selection.anchor) (hactive : buffer.HasPlace selection.active)
    (h : buffer.Sound) :
    selection.isReversed = decide (selection.active.offset < selection.anchor.offset) :=
  decide_eq_decide.2 (hactive.lt_iff_offset_lt hanchor h)

/-- A selection goes where its ends go, and is dropped if they meet there. -/
theorem Cursor.mapThroughEdit_selection {cursor : Cursor} {buffer : Buffer}
    (h : cursor.state.Sound buffer) {selected : Selection}
    (hselected : cursor.selection = some selected) (edit : TextEdit) (after : Buffer) :
    (cursor.mapThroughEdit edit after).1.selection =
      Option.filter (!·.isEmpty) (some
        ⟨after.positionOf (edit.mapOffset selected.anchor.offset .after),
          after.positionOf (edit.mapOffset selected.active.offset .after)⟩) := by
  have hcaret : selected.active = cursor.caret := h.active selected hselected
  rw [hcaret]
  simp only [mapThroughEdit, become, selection] at hselected ⊢
  rw [hselected]
  rfl

namespace Editor

variable {editor : Editor}

theorem Sound.selectedText_of_selection (h : editor.Sound) {selected : Selection}
    (hselected : editor.cursor.selection = some selected) :
    editor.selectedText = some
      (editor.buffer.content.slice selected.range.offsets.1 selected.range.offsets.2) := by
  rw [h.selectedText_eq]
  simp [selection, typedSpan, hselected]

/-- Something is selected wherever there is a selection. -/
theorem Sound.selected_ne_nil (h : editor.Sound) {selected : Selection}
    (hselected : editor.cursor.selection = some selected) :
    editor.buffer.content.slice selected.range.offsets.1 selected.range.offsets.2 ≠ [] := by
  have hapart := h.cursor.nonempty selected hselected
  have hanchor := Buffer.HasPlace.offset_le (h.cursor.anchor selected hselected) h.buffer
  have hactive := (h.hasPlace_active hselected).offset_le h.buffer
  rw [h.buffer.length_eq] at hanchor hactive
  have hlength : (editor.buffer.content.slice
      (min selected.anchor.offset selected.active.offset)
      (max selected.anchor.offset selected.active.offset)).length = _ :=
    Text.length_slice _ (max_le hanchor hactive)
  rw [h.selection_offsets hselected, ← List.length_pos_iff, hlength]
  omega

/-- Text and cursor after an edit that changes something. -/
theorem editOffsets_changes (editor : Editor) {start stop : Nat} {text : Text}
    (hchanges : (editor.buffer.replace start stop text).2.isNoop = false) :
    let step := editor.buffer.replace start stop text
    (editor.editOffsets start stop text).buffer = step.1 ∧
    (editor.editOffsets start stop text).cursor = (editor.cursor.mapThroughEdit step.2 step.1).1 := by
  rw [editOffsets_eq]
  simp only [hchanges]
  exact ⟨rfl, rfl⟩

inductive CarriesEnds (after : Editor) (edit : TextEdit) (selected : Selection) : Prop where
  | meet (gone : after.cursor.selection = none)
    (ends : edit.mapOffset selected.anchor.offset .after
      = edit.mapOffset selected.active.offset .after)
  | apart (kept : Selection) (remains : after.cursor.selection = some kept)
    (anchor : kept.anchor.offset = edit.mapOffset selected.anchor.offset .after)
    (active : kept.active.offset = edit.mapOffset selected.active.offset .after)

section Carried

variable {after : Editor} {edit : TextEdit} {selected : Selection}

/-- The ends are carried across the edit one by one. -/
theorem Sound.carriesEnds (h : editor.Sound) (hafter : after.buffer.Sound)
    (hturns : edit.Turns editor.buffer.content after.buffer.content)
    (hend : edit.stop = edit.offset + edit.deleted.length)
    (hcursor : after.cursor = (editor.cursor.mapThroughEdit edit after.buffer).1)
    (hselected : editor.cursor.selection = some selected) : after.CarriesEnds edit selected := by
  have hfits : ∀ {position : Position}, editor.buffer.HasPlace position →
      (after.buffer.positionOf (edit.mapOffset position.offset .after)).offset
        = edit.mapOffset position.offset .after := by
    intro position hplace
    have hold := hplace.offset_le h.buffer
    rw [h.buffer.length_eq] at hold
    have hnew := hturns.mapOffset_le_length hend hold
    rw [hafter.positionOf_offset, hafter.length_eq, Nat.min_eq_left hnew]
  have hanchor := hfits (h.cursor.anchor selected hselected)
  have hactive := hfits (h.hasPlace_active hselected)
  have hselection := Cursor.mapThroughEdit_selection h.cursor hselected edit after.buffer
  rw [← hcursor, Option.filter_some] at hselection
  split at hselection
  · exact .apart _ hselection hanchor hactive
  · rename_i hempty
    simp only [Selection.isEmpty, hanchor, hactive] at hempty
    exact .meet hselection (by simpa using hempty)

/-- The selection covers what is left of the text, also if that is nothing. -/
theorem CarriesEnds.selectedText (hcarries : after.CarriesEnds edit selected) (h : editor.Sound)
    (hafter : after.Sound) (hturns : edit.Turns editor.buffer.content after.buffer.content)
    (hend : edit.stop = edit.offset + edit.deleted.length)
    (hselected : editor.cursor.selection = some selected) :
    after.selectedText.getD [] = edit.selectedRemnant editor.buffer.content
      selected.range.offsets.1 selected.range.offsets.2 := by
  have hmono : Monotone fun offset => edit.mapOffset offset .after :=
    fun _ _ hle => TextEdit.mapOffset_mono hend hle
  rw [h.selection_offsets hselected, ← hturns.slice_carried hend (by omega),
    hmono.map_min, hmono.map_max]
  cases hcarries with
  | meet gone ends =>
    rw [ends, Text.slice_of_le _ (by omega)]
    simp [Editor.selectedText, selection, gone]
  | apart kept remains anchor active =>
    rw [hafter.selectedText_of_selection remains, hafter.selection_offsets remains, anchor, active]
    rfl

/-- The ends of a selection that is left have not changed places: they keep their order, and they do
not meet. -/
theorem CarriesEnds.direction (hcarries : after.CarriesEnds edit selected) (h : editor.Sound)
    (hafter : after.Sound) (hend : edit.stop = edit.offset + edit.deleted.length)
    (hselected : editor.cursor.selection = some selected) :
    ∀ kept ∈ after.cursor.selection, kept.isReversed = selected.isReversed := by
  intro found hfound
  cases hcarries with
  | meet gone ends => simp [gone] at hfound
  | apart kept remains anchor active =>
    obtain rfl := Option.some.inj (remains.symm.trans hfound)
    have hapart := hafter.cursor.nonempty kept remains
    rw [Selection.isReversed_eq (hafter.cursor.anchor kept remains) (hafter.hasPlace_active remains)
        hafter.buffer,
      Selection.isReversed_eq (h.cursor.anchor selected hselected) (h.hasPlace_active hselected)
        h.buffer, decide_eq_decide]
    rw [anchor, active] at hapart ⊢
    constructor
    · intro hlt
      by_contra hle
      exact absurd (TextEdit.mapOffset_mono hend (Nat.le_of_not_lt hle)) (Nat.not_le.2 hlt)
    · intro hlt
      exact Nat.lt_of_le_of_ne (TextEdit.mapOffset_mono hend (Nat.le_of_lt hlt)) (Ne.symm hapart)

end Carried

def textEdit? (editor : Editor) : Operation → Option TextEdit
  | .insert place text =>
    let offset := (editor.buffer.clampPosition place).offset
    some (editor.buffer.replace offset offset text).2
  | .delete range =>
    let span := (editor.buffer.clampRange range).offsets
    some (editor.buffer.replace span.1 span.2 []).2
  | .replace range text =>
    let span := (editor.buffer.clampRange range).offsets
    some (editor.buffer.replace span.1 span.2 text).2
  | _ => none

theorem textEdit?_eq_some {operation : Operation} {edit : TextEdit}
    (hedit : editor.textEdit? operation = some edit) :
    ∃ start stop text, (editor.perform operation).1 = editor.editOffsets start stop text ∧
      (editor.buffer.replace start stop text).2 = edit := by
  cases operation with
  | insert place text =>
    obtain rfl := Option.some.inj hedit
    simp only [perform, insert]
    exact ⟨_, _, text, rfl, rfl⟩
  | delete range =>
    obtain rfl := Option.some.inj hedit
    simp only [perform, delete, replace]
    exact ⟨_, _, [], rfl, rfl⟩
  | replace range text =>
    obtain rfl := Option.some.inj hedit
    simp only [perform, replace]
    exact ⟨_, _, text, rfl, rfl⟩
  | _ => cases hedit

/-- In every editor, whatever was asked of it before, an insertion, a deletion or a replacement leaves
selected what it leaves of the selected text, with the inserted text if that came inside the selection or
at its end. A selection elsewhere is left as it is, and one that remains has its caret at the same
end. -/
theorem selection_through_edits (document : DocumentId) (text : Text) (settings : Settings)
    (operations : List Operation) (operation : Operation) (edit : TextEdit) (selected : Selection) :
    let editor := (new document text settings).performAll operations
    let after := (editor.perform operation).1
    let content := editor.buffer.content
    let span := selected.range.offsets
    content.length ≤ maxOffset → editor.cursor.selection = some selected →
    editor.textEdit? operation = some edit → edit.isNoop = false →
    after.selectedText.getD [] =
      content.slice span.1 (min span.2 edit.offset)
        ++ (if span.1 < edit.offset ∧ edit.offset ≤ span.2 then edit.inserted else [])
        ++ content.slice (max span.1 edit.stop) span.2 ∧
    (edit.stop ≤ span.1 ∨ span.2 < edit.offset → after.selectedText = editor.selectedText) ∧
    ∀ kept ∈ after.cursor.selection, kept.isReversed = selected.isReversed := by
  intro editor after content span hlength hselected hedit hchanges
  have h : editor.Sound := performAll_sound (new_sound document text settings) operations
  obtain ⟨start, stop, inserted, hafter, rfl⟩ := textEdit?_eq_some hedit
  have hturns := h.buffer.replace_turns start stop inserted
  obtain ⟨hbuffer, hcursor⟩ := editor.editOffsets_changes hchanges
  have hsound := editOffsets_sound h start stop inserted
  rw [← hafter] at hbuffer hcursor hsound
  rw [← hbuffer] at hturns hcursor
  have hend := hturns.stop_eq hlength
  have hcarries := h.carriesEnds hsound.buffer hturns hend hcursor hselected
  have htext := hcarries.selectedText h hsound hturns hend hselected
  refine ⟨htext, ?_, hcarries.direction h hsound hend hselected⟩
  intro helsewhere
  have hold := h.selectedText_of_selection hselected
  have hsome := h.selected_ne_nil hselected
  rw [TextEdit.selectedRemnant_elsewhere hend helsewhere] at htext
  rw [hold, ← htext]
  cases hnew : after.selectedText with
  | none =>
    rw [hnew] at htext
    exact absurd htext.symm hsome
  | some kept => rfl

/-- Three letters are selected backwards, and a fourth is put among them. -/
theorem selection_through_edits_inside :
    let editor := (new "a.txt" ['h', 'e', 'l', 'l', 'o'] .default).performAll
      [.setSelection ⟨⟨0, 4, 4⟩, ⟨0, 1, 1⟩⟩]
    let after := (editor.perform (.insert ⟨0, 2, 2⟩ ['X'])).1
    editor.cursor.selection = some ⟨⟨0, 4, 4⟩, ⟨0, 1, 1⟩⟩ ∧
    editor.textEdit? (.insert ⟨0, 2, 2⟩ ['X']) = some ⟨2, [], ['X']⟩ ∧
    after.selectedText.getD [] = ['e', 'X', 'l', 'l'] := by
  intro editor after
  have hselected : editor.cursor.selection = some ⟨⟨0, 4, 4⟩, ⟨0, 1, 1⟩⟩ := by decide
  have hedit : editor.textEdit? (.insert ⟨0, 2, 2⟩ ['X']) = some ⟨2, [], ['X']⟩ := by decide
  have hlength : editor.buffer.content.length ≤ maxOffset := by decide
  have htext := (selection_through_edits "a.txt" ['h', 'e', 'l', 'l', 'o'] .default
    [.setSelection ⟨⟨0, 4, 4⟩, ⟨0, 1, 1⟩⟩] (.insert ⟨0, 2, 2⟩ ['X']) ⟨2, [], ['X']⟩ _
    hlength hselected hedit (by decide)).1
  exact ⟨hselected, hedit, htext⟩

end Editor

end HeadlessEditor
