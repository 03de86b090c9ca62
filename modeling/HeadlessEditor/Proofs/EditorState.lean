import HeadlessEditor.Proofs.Announcements
import HeadlessEditor.Proofs.Places

/-!
What holds of an editor after any operations: caret, selection and decorations stand on places of the
text as it is. Each step of the cursor hands places to `Cursor.become`, and each step of the store
puts ranges between places, so it is enough to look at them one by one.
-/

namespace HeadlessEditor

/-- Caret and selection stand on places of the document, the selection ends at the caret and is not
empty, and after vertical moves the caret is in the desired column or at the end of its line. -/
structure CursorState.Sound (state : CursorState) (buffer : Buffer) : Prop where
  caret : state.caret = buffer.positionOf state.caret.offset
  anchor : ∀ selection ∈ state.selection,
    selection.anchor = buffer.positionOf selection.anchor.offset
  active : ∀ selection ∈ state.selection, selection.active = state.caret
  nonempty : ∀ selection ∈ state.selection, selection.anchor.offset ≠ selection.active.offset
  desired : ∀ column ∈ state.desiredColumn,
    state.caret.column = min column (buffer.lineLength state.caret.line)

namespace Cursor

variable {buffer : Buffer} {segmentation : Segmentation}

/-- The one step by which all others change the state. -/
theorem become_sound (cursor : Cursor) {next : CursorState} (caret : buffer.HasPlace next.caret)
    (selection : ∀ selection ∈ next.selection,
      buffer.HasPlace selection.anchor ∧ selection.active = next.caret)
    (desired : ∀ column ∈ next.desiredColumn,
      next.caret.column = min column (buffer.lineLength next.caret.line)) :
    (cursor.become next).1.state.Sound buffer := by
  have kept : ∀ selection ∈ next.selection.filter (!·.isEmpty),
      selection ∈ next.selection ∧ selection.isEmpty = false := by
    intro selection h
    simpa [Option.filter_eq_some_iff] using h
  exact {
    caret
    anchor := fun found h => (selection found (kept found h).1).1
    active := fun found h => (selection found (kept found h).1).2
    nonempty := fun found h => by simpa [Selection.isEmpty] using (kept found h).2
    desired }

theorem become_ofCaret_sound (cursor : Cursor) {caret : Position} (h : buffer.HasPlace caret) :
    (cursor.become (.ofCaret caret)).1.state.Sound buffer :=
  cursor.become_sound h (by simp [CursorState.ofCaret]) (by simp [CursorState.ofCaret])

theorem setSelection_sound (cursor : Cursor) (h : buffer.Sound) (anchor active : Position) :
    (cursor.setSelection anchor active buffer).1.state.Sound buffer := by
  refine cursor.become_sound (h.hasPlace_clampPosition active) ?_ (by simp)
  intro selection hselection
  obtain rfl := Option.some.inj hselection
  exact ⟨h.hasPlace_clampPosition anchor, rfl⟩

theorem hasPlace_stepLeft (h : buffer.Sound) {caret : Position} (hc : buffer.HasPlace caret) :
    buffer.HasPlace (stepLeft segmentation caret buffer) := by
  unfold stepLeft
  split
  · split
    · exact hc
    · exact h.hasPlace_positionAt _ _
  · exact h.hasPlace_positionAt _ _

theorem hasPlace_stepRight (h : buffer.Sound) {caret : Position} (hc : buffer.HasPlace caret) :
    buffer.HasPlace (stepRight segmentation caret buffer) := by
  unfold stepRight
  split
  · split
    · exact hc
    · exact h.hasPlace_positionAt _ _
  · exact h.hasPlace_positionAt _ _

theorem hasPlace_stepVertical (h : buffer.Sound) {caret : Position} (hc : buffer.HasPlace caret)
    (desired : Nat) (shift : Int) : buffer.HasPlace (stepVertical caret desired shift buffer) := by
  simp only [stepVertical]
  split
  · exact hc
  · exact h.hasPlace_positionAt _ _

theorem shiftLine_lt (h : buffer.Sound) (line : Nat) (shift : Int) :
    shiftLine line shift buffer < buffer.lineCount := by
  have hpos := h.lineCount_pos
  unfold shiftLine
  omega

/-- A vertical move comes to the desired column or to the end of a shorter line. A move that stays on
its line does not move the caret, so there the column must be right before. -/
theorem stepVertical_column (h : buffer.Sound) {caret : Position} {desired : Nat}
    (hstay : caret.column = min desired (buffer.lineLength caret.line)) (shift : Int) :
    (stepVertical caret desired shift buffer).column
      = min desired (buffer.lineLength (stepVertical caret desired shift buffer).line) := by
  simp only [stepVertical]
  split
  · exact hstay
  · obtain ⟨hline, hcolumn⟩ :=
      h.positionAt_eq (shiftLine caret.line shift buffer) desired (shiftLine_lt h _ _)
    rw [hline, hcolumn]

/-- The desired column is right for the caret as it stands, also where a run of vertical moves only
begins. -/
theorem column_of_desired (h : buffer.Sound) {state : CursorState} (hs : state.Sound buffer) :
    state.caret.column = min (state.desiredColumn.getD state.caret.column)
      (buffer.lineLength state.caret.line) := by
  cases hd : state.desiredColumn with
  | some column => exact hs.desired column hd
  | none =>
    have hle := Buffer.HasPlace.column_le hs.caret h
    rw [Option.getD_none]
    omega

theorem destination_sound (h : buffer.Sound) {state : CursorState} (hs : state.Sound buffer)
    (motion : Motion) :
    buffer.HasPlace (destination segmentation state motion buffer).1 ∧
    ∀ column ∈ (destination segmentation state motion buffer).2,
      (destination segmentation state motion buffer).1.column
        = min column (buffer.lineLength (destination segmentation state motion buffer).1.line) := by
  have vertical : ∀ shift column, column ∈ some (state.desiredColumn.getD state.caret.column) →
      (stepVertical state.caret (state.desiredColumn.getD state.caret.column) shift buffer).column
        = min column (buffer.lineLength (stepVertical state.caret
            (state.desiredColumn.getD state.caret.column) shift buffer).line) := by
    intro shift column hcolumn
    obtain rfl := Option.some.inj hcolumn
    exact stepVertical_column h (column_of_desired h hs) shift
  cases motion with
  | left => exact ⟨hasPlace_stepLeft h hs.caret, by simp [destination]⟩
  | right => exact ⟨hasPlace_stepRight h hs.caret, by simp [destination]⟩
  | lineStart => exact ⟨h.hasPlace_positionAt _ _, by simp [destination]⟩
  | lineEnd => exact ⟨h.hasPlace_positionAt _ _, by simp [destination]⟩
  | documentStart => exact ⟨h.hasPlace_zero, by simp [destination]⟩
  | documentEnd => exact ⟨h.hasPlace_positionOf _, by simp [destination]⟩
  | up => exact ⟨hasPlace_stepVertical h hs.caret _ _, vertical _⟩
  | down => exact ⟨hasPlace_stepVertical h hs.caret _ _, vertical _⟩
  | lines count => exact ⟨hasPlace_stepVertical h hs.caret _ _, vertical _⟩

/-- Both ends of a selection are places, and so are the ends of its range. -/
theorem hasPlace_range {state : CursorState} (hs : state.Sound buffer) {selection : Selection}
    (hselection : selection ∈ state.selection) :
    buffer.HasPlace selection.range.start ∧ buffer.HasPlace selection.range.stop := by
  have hactive : buffer.HasPlace selection.active := by
    rw [hs.active selection hselection]
    exact hs.caret
  exact Buffer.normalized_hasPlace _ (hs.anchor selection hselection) hactive

theorem hasPlace_collapseTarget {state : CursorState} (hs : state.Sound buffer) {motion : Motion}
    {edge : Position} (he : collapseTarget? state motion = some edge) : buffer.HasPlace edge := by
  obtain ⟨selection, hselection, htarget⟩ := Option.bind_eq_some_iff.1 he
  obtain ⟨hstart, hstop⟩ := hasPlace_range hs hselection
  cases motion with
  | left => exact Option.some.inj htarget ▸ hstart
  | right => exact Option.some.inj htarget ▸ hstop
  | up | down | lines _ | lineStart | lineEnd | documentStart | documentEnd => simp at htarget

theorem move_sound {cursor : Cursor} (h : buffer.Sound) (hs : cursor.state.Sound buffer)
    (motion : Motion) (extend : Bool) : (cursor.move segmentation motion extend buffer).1.state.Sound buffer := by
  obtain ⟨htarget, hdesired⟩ := destination_sound h hs motion
  cases extend with
  | true =>
    refine cursor.become_sound htarget ?_ hdesired
    intro selection hselection
    obtain rfl := Option.some.inj hselection
    refine ⟨?_, rfl⟩
    cases hold : cursor.selection with
    | none => exact hs.caret
    | some old => exact hs.anchor old hold
  | false =>
    simp only [move, Bool.false_eq_true, if_false]
    split
    · rename_i edge hedge
      exact cursor.become_ofCaret_sound (hasPlace_collapseTarget hs hedge)
    · exact cursor.become_sound htarget (by simp) hdesired

/-- After the whole text was replaced: the old offsets need not be in the new text. -/
theorem rederive_sound {cursor : Cursor} {old : Buffer} (h : buffer.Sound)
    (hs : cursor.state.Sound old) : (cursor.rederive buffer).1.state.Sound buffer := by
  refine cursor.become_sound (h.hasPlace_positionOf _) ?_ (by simp)
  intro selection hselection
  obtain ⟨before, hbefore, rfl⟩ := Option.map_eq_some_iff.1 hselection
  refine ⟨h.hasPlace_positionOf _, ?_⟩
  change buffer.positionOf before.active.offset = buffer.positionOf cursor.caret.offset
  rw [hs.active before hbefore]
  rfl

theorem mapThroughEdit_sound (cursor : Cursor) (h : buffer.Sound) (edit : TextEdit) :
    (cursor.mapThroughEdit edit buffer).1.state.Sound buffer := by
  refine cursor.become_sound (h.hasPlace_positionOf _) ?_ (by simp)
  intro selection hselection
  obtain ⟨before, -, rfl⟩ := Option.map_eq_some_iff.1 hselection
  exact ⟨h.hasPlace_positionOf _, rfl⟩

/-- A remembered caret may be of another text, so it is moved to a place before it is used. -/
theorem swapDocument_sound (cursor : Cursor) (h : buffer.Sound) (outgoing : Option DocumentId)
    (incoming : DocumentId) :
    (cursor.swapDocument outgoing incoming buffer).1.state.Sound buffer := by
  refine become_ofCaret_sound _ ?_
  cases hmemory : Cursor.remembered? _ incoming with
  | none => exact h.hasPlace_zero
  | some position => exact h.hasPlace_clampPosition position

end Cursor

structure DecorationStore.Sound (store : DecorationStore) (buffer : Buffer) : Prop where
  start : ∀ entry ∈ store.items.entries,
    entry.2.range.start = buffer.positionOf entry.2.range.start.offset
  stop : ∀ entry ∈ store.items.entries,
    entry.2.range.stop = buffer.positionOf entry.2.range.stop.offset
  ordered : ∀ entry ∈ store.items.entries, entry.2.range.start ≤ entry.2.range.stop
  ascending : store.items.keys.Pairwise (· < ·)
  known : ∀ id ∈ store.items.keys, id ≤ store.lastId

namespace DecorationStore

variable {buffer : Buffer}

def RangeSound (buffer : Buffer) (range : TextRange) : Prop :=
  buffer.HasPlace range.start ∧ buffer.HasPlace range.stop ∧ range.start ≤ range.stop

theorem Sound.mk' {store : DecorationStore}
    (ranges : ∀ entry ∈ store.items.entries, RangeSound buffer entry.2.range)
    (ascending : store.items.keys.Pairwise (· < ·))
    (known : ∀ id ∈ store.items.keys, id ≤ store.lastId) : store.Sound buffer :=
  ⟨fun entry h => (ranges entry h).1, fun entry h => (ranges entry h).2.1,
    fun entry h => (ranges entry h).2.2, ascending, known⟩

theorem Sound.ranges {store : DecorationStore} (hs : store.Sound buffer)
    (entry : DecorationId × Decoration) (h : entry ∈ store.items.entries) :
    RangeSound buffer entry.2.range :=
  ⟨hs.start entry h, hs.stop entry h, hs.ordered entry h⟩

theorem rangeSound_fit (h : buffer.Sound) (decoration : Decoration) :
    RangeSound buffer (fit decoration buffer).range := by
  obtain ⟨hstart, hstop⟩ :=
    Buffer.normalized_hasPlace (buffer.clampRange decoration.range)
      (h.hasPlace_clampPosition _) (h.hasPlace_clampPosition _)
  exact ⟨hstart, hstop, TextRange.normalized_le _⟩

theorem rangeSound_rangeOf (h : buffer.Sound) {start stop : Nat} (hle : start ≤ stop) :
    RangeSound buffer (buffer.rangeOf start stop) := by
  have hstart := h.hasPlace_positionOf start
  have hstop := h.hasPlace_positionOf stop
  refine ⟨hstart, hstop, hstart.le_of_offset_le hstop h ?_⟩
  change (buffer.positionOf start).offset ≤ (buffer.positionOf stop).offset
  rw [h.positionOf_offset, h.positionOf_offset]
  omega

theorem empty_sound (buffer : Buffer) : empty.Sound buffer :=
  .mk' (by simp [empty, Table.empty]) (by simp [empty, Table.empty, Table.keys])
    (by simp [empty, Table.empty, Table.keys])

theorem clear_sound (store : DecorationStore) (buffer : Buffer) : store.clear.Sound buffer :=
  .mk' (by simp [clear, Table.empty]) (by simp [clear, Table.empty, Table.keys])
    (by simp [clear, Table.empty, Table.keys])

theorem add_sound {store : DecorationStore} (h : buffer.Sound) (hs : store.Sound buffer)
    (decoration : Decoration) : (store.add decoration buffer).1.Sound buffer := by
  have hnew : store.lastId + 1 ∉ store.items.keys := fun hin =>
    Nat.not_succ_le_self _ (hs.known _ hin)
  refine .mk' ?_ ?_ ?_
  · intro entry hentry
    rcases Table.mem_insertEntry hentry with rfl | hold
    · exact rangeSound_fit h decoration
    · exact hs.ranges entry hold
  · simp only [add, Table.keys_insert_of_notMem hnew, List.pairwise_append]
    refine ⟨hs.ascending, List.pairwise_singleton _ _, ?_⟩
    intro id hid other hother
    obtain rfl := List.mem_singleton.1 hother
    exact Nat.lt_succ_of_le (hs.known id hid)
  · simp only [add, Table.keys_insert_of_notMem hnew]
    intro id hid
    rcases List.mem_append.1 hid with hold | hlast
    · exact Nat.le_succ_of_le (hs.known id hold)
    · exact Nat.le_of_eq (List.mem_singleton.1 hlast)

theorem update_sound {store next : DecorationStore} {id : DecorationId} {decoration : Decoration}
    (h : buffer.Sound) (hs : store.Sound buffer)
    (hnext : store.update id decoration buffer = .ok next) : next.Sound buffer := by
  unfold update at hnext
  split at hnext
  · rename_i hcontains
    have hin := Table.contains_iff.1 hcontains
    obtain rfl := Except.ok.inj hnext
    refine .mk' ?_ ?_ ?_
    · intro entry hentry
      rcases Table.mem_insertEntry hentry with rfl | hold
      · exact rangeSound_fit h decoration
      · exact hs.ranges entry hold
    · simpa only [Table.keys_insert_of_mem hin] using hs.ascending
    · simpa only [Table.keys_insert_of_mem hin] using hs.known
  · cases hnext

/-- Taking entries out and changing ranges keeps the ids in order. -/
theorem sound_of_sublist {store next : DecorationStore} (hs : store.Sound buffer)
    {buffer' : Buffer} (hkeys : next.items.keys.Sublist store.items.keys)
    (hlast : next.lastId = store.lastId)
    (ranges : ∀ entry ∈ next.items.entries, RangeSound buffer' entry.2.range) :
    next.Sound buffer' :=
  .mk' ranges (hs.ascending.sublist hkeys) fun id hid => hlast ▸ hs.known id (hkeys.subset hid)

theorem remove_sound {store : DecorationStore} (hs : store.Sound buffer) (id : DecorationId) :
    (store.remove id).1.Sound buffer := by
  refine sound_of_sublist hs (List.filter_sublist.map _) rfl ?_
  intro entry hentry
  exact hs.ranges entry (List.mem_filter.1 hentry).1

theorem mapSpan_le {edit : TextEdit} {start stop : Nat} {span : Nat × Nat}
    (hspan : edit.mapSpan start stop = some span) : span.1 ≤ span.2 := by
  unfold TextEdit.mapSpan at hspan
  simp only at hspan
  split at hspan
  · cases hspan
  · obtain rfl := Option.some.inj hspan
    exact Nat.le_max_right _ _

theorem mapThroughEdit_keys (store : DecorationStore) (edit : TextEdit) (buffer : Buffer) :
    (store.mapThroughEdit edit buffer).1.items.keys.Sublist store.items.keys := by
  obtain ⟨lastId, ⟨entries⟩⟩ := store
  simp only [mapThroughEdit, Table.keys]
  induction entries with
  | nil => simp
  | cons entry rest ih =>
    cases hcarry : carry edit buffer entry.2 with
    | none => simpa [List.filterMap_cons, hcarry] using ih.cons _
    | some decoration => simpa [List.filterMap_cons, hcarry] using ih

theorem mapThroughEdit_sound {store : DecorationStore} {old : Buffer} (h : buffer.Sound)
    (hs : store.Sound old) (edit : TextEdit) :
    (store.mapThroughEdit edit buffer).1.Sound buffer := by
  refine sound_of_sublist hs (mapThroughEdit_keys store edit buffer) rfl ?_
  intro entry hentry
  obtain ⟨before, -, hcarried⟩ := List.mem_filterMap.1 hentry
  obtain ⟨decoration, hdecoration, rfl⟩ := Option.map_eq_some_iff.1 hcarried
  obtain ⟨span, hspan, rfl⟩ := Option.map_eq_some_iff.1 hdecoration
  exact rangeSound_rangeOf h (mapSpan_le hspan)

/-- After the whole text was replaced. The old ranges were between places of the old text, so their
offsets are in order. -/
theorem rederive_sound {store : DecorationStore} {old : Buffer} (h : buffer.Sound)
    (hold : old.Sound) (hs : store.Sound old) : (store.rederive buffer).Sound buffer := by
  refine sound_of_sublist hs ?_ rfl ?_
  · simp [rederive, Table.keys, Function.comp_def]
  · intro entry hentry
    obtain ⟨before, hbefore, rfl⟩ := List.mem_map.1 hentry
    obtain ⟨hstart, hstop, -⟩ := hs.ranges before hbefore
    obtain ⟨hmin, hmax⟩ := Buffer.normalized_offsets hstart hstop hold
    have hle : before.2.range.offsets.1 ≤ before.2.range.offsets.2 := by
      simp only [TextRange.offsets, hmin, hmax]
      omega
    exact rangeSound_rangeOf h hle

end DecorationStore

/-- Cursor and decorations stand on places of the text, whose lines and table are its own. -/
structure Editor.Sound (editor : Editor) : Prop where
  buffer : editor.buffer.Sound
  cursor : editor.cursor.state.Sound editor.buffer
  decorations : editor.decorations.Sound editor.buffer

namespace Editor

variable {editor : Editor}

theorem new_sound (document : DocumentId) (text : Text) (settings : Settings) :
    (new document text settings).Sound where
  buffer := Buffer.sound_load text
  cursor := {
    caret := (Buffer.sound_load text).hasPlace_zero
    anchor := by simp [new, Cursor.new, CursorState.start]
    active := by simp [new, Cursor.new, CursorState.start]
    nonempty := by simp [new, Cursor.new, CursorState.start]
    desired := by simp [new, Cursor.new, CursorState.start] }
  decorations := DecorationStore.empty_sound _

theorem Sound.emitAll (h : editor.Sound) (events : List Event) : (editor.emitAll events).Sound :=
  ⟨h.buffer, h.cursor, h.decorations⟩

theorem openDocument_sound (editor : Editor) (document : DocumentId) (text : Text) :
    (editor.openDocument document text).Sound := by
  have hbuffer := Buffer.sound_load text
  rw [openDocument_eq]
  apply Sound.emitAll
  constructor
  · exact hbuffer
  · exact Cursor.swapDocument_sound editor.cursor hbuffer (some editor.document) document
  · exact DecorationStore.clear_sound _ _

theorem setContent_sound (h : editor.Sound) (text : Text) : (editor.setContent text).Sound := by
  have hbuffer : (editor.buffer.setContent text).Sound := Buffer.sound_write _ _
  rw [setContent_eq]
  apply Sound.emitAll
  constructor
  · exact hbuffer
  · exact Cursor.rederive_sound hbuffer h.cursor
  · exact DecorationStore.rederive_sound hbuffer h.buffer h.decorations

theorem editOffsets_sound (h : editor.Sound) (start stop : Nat) (text : Text) :
    (editor.editOffsets start stop text).Sound := by
  have hbuffer := h.buffer.replace start stop text
  rw [editOffsets_eq]
  dsimp only
  split
  · exact h
  · apply Sound.emitAll
    constructor
    · exact hbuffer
    · exact Cursor.mapThroughEdit_sound _ hbuffer _
    · exact DecorationStore.mapThroughEdit_sound hbuffer h.decorations _

theorem Edits.sound {after : Editor} (hedits : editor.Edits after) (h : editor.Sound) :
    after.Sound := by
  cases hedits with
  | nothing => exact h
  | edit start stop text => exact editOffsets_sound h start stop text

theorem withCursor_sound (h : editor.Sound) {step : Cursor × CursorChange}
    (hstep : step.1.state.Sound editor.buffer) : (editor.withCursor step).Sound := by
  have hmoved : Editor.Sound { editor with cursor := step.1 } := ⟨h.buffer, hstep, h.decorations⟩
  rw [withCursor_eq]
  exact hmoved.emitAll _

/-- A change of the store alone. -/
theorem withDecorations_sound (h : editor.Sound) {decorations : DecorationStore}
    (hstore : decorations.Sound editor.buffer) (changes : List DecorationChange) :
    ({ editor with decorations }.announceDecorations changes).Sound := by
  have hchanged : Editor.Sound { editor with decorations } := ⟨h.buffer, h.cursor, hstore⟩
  rw [announceDecorations_eq]
  exact hchanged.emitAll _

theorem removeDecoration_sound (h : editor.Sound) (id : DecorationId) :
    (editor.removeDecoration id).1.Sound := by
  simp only [removeDecoration]
  split
  · exact withDecorations_sound h (DecorationStore.remove_sound h.decorations id) _
  · exact h

theorem updateDecoration_sound (h : editor.Sound) (id : DecorationId) (decoration : Decoration) :
    (editor.updateDecoration id decoration).1.Sound := by
  unfold updateDecoration
  split
  · rename_i store hstore
    exact withDecorations_sound h (DecorationStore.update_sound h.buffer h.decorations hstore) _
  · exact h

theorem clearDecorations_sound (h : editor.Sound) : editor.clearDecorations.1.Sound := by
  have hstore := DecorationStore.clear_sound editor.decorations editor.buffer
  simp only [clearDecorations]
  split
  · exact withDecorations_sound h hstore _
  · exact ⟨h.buffer, h.cursor, hstore⟩

theorem updateSettings_sound (h : editor.Sound) (change : Json) :
    (editor.updateSettings change).1.Sound := by
  unfold updateSettings
  split
  · dsimp only
    split
    · exact ⟨h.buffer, h.cursor, h.decorations⟩
    · exact ⟨h.buffer, h.cursor, h.decorations⟩
  · exact h

/-- What one operation keeps, whatever its arguments. -/
theorem perform_sound (h : editor.Sound) (operation : Operation) :
    (editor.perform operation).1.Sound := by
  cases operation with
  | setContent text =>
    simp only [perform]
    exact setContent_sound h text
  | insert place text =>
    simp only [perform]
    exact (editor.insert_edits place text).sound h
  | delete range =>
    simp only [perform]
    exact (editor.delete_edits range).sound h
  | replace range text =>
    simp only [perform]
    exact (editor.replace_edits range text).sound h
  | typeText text =>
    simp only [perform]
    exact (editor.typeText_edits text).sound h
  | deleteBackward =>
    simp only [perform]
    exact (editor.deleteBackward_edits).sound h
  | deleteForward =>
    simp only [perform]
    exact (editor.deleteForward_edits).sound h
  | setCursor position =>
    have hplace := h.buffer.hasPlace_clampPosition position
    exact withCursor_sound h (Cursor.become_ofCaret_sound _ hplace)
  | setCursorOffset offset =>
    have hplace := h.buffer.hasPlace_positionOf offset
    exact withCursor_sound h (Cursor.become_ofCaret_sound _ hplace)
  | setSelection range => exact withCursor_sound h (Cursor.setSelection_sound _ h.buffer _ _)
  | clearSelection => exact withCursor_sound h (Cursor.become_ofCaret_sound _ h.cursor.caret)
  | selectAll => exact withCursor_sound h (Cursor.setSelection_sound _ h.buffer _ _)
  | moveCursor motion extend =>
    exact withCursor_sound h (Cursor.move_sound h.buffer h.cursor motion extend)
  | addDecoration decoration =>
    have hstore := DecorationStore.add_sound h.buffer h.decorations decoration
    exact withDecorations_sound h hstore _
  | removeDecoration id => exact removeDecoration_sound h id
  | updateDecoration id decoration => exact updateDecoration_sound h id decoration
  | clearDecorations => exact clearDecorations_sound h
  | updateSettings change => exact updateSettings_sound h change
  | openDocument document text =>
    simp only [perform]
    exact openDocument_sound editor document text
  | subscribe kind tag => exact ⟨h.buffer, h.cursor, h.decorations⟩
  | unsubscribe id => exact ⟨h.buffer, h.cursor, h.decorations⟩
  | emit event => exact ⟨h.buffer, h.cursor, h.decorations⟩
  | decoration _ | setting _ | selectedText | selection | line _ | positionAt _ _ | positionOf _
  | textForSaving => exact h

theorem performAll_sound (h : editor.Sound) (operations : List Operation) :
    (editor.performAll operations).Sound := by
  induction operations generalizing editor with
  | nil => exact h
  | cons operation rest ih => exact ih (perform_sound h operation)

/-- Whatever is asked of an editor, caret, selection and decorations stand on places of its text. -/
theorem reachable_sound (document : DocumentId) (text : Text) (settings : Settings)
    (operations : List Operation) :
    ((new document text settings).performAll operations).Sound :=
  performAll_sound (new_sound document text settings) operations

end Editor

end HeadlessEditor
