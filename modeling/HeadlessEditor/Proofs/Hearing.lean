import HeadlessEditor.Extension.CoreEditing
import HeadlessEditor.Extension.Script
import HeadlessEditor.Proofs.EditorState
import HeadlessEditor.Session.Basic

/-!
What a session can hear of its editor. Whatever operations and extensions do to the text, they leave
it as it is, or give it a newer version, or replace it as a whole and say so. The exceptions are
operations that end the subscriptions of others or make up announcements; extensions that do
without them are called ordinary.
-/

namespace HeadlessEditor

def Notice.edit? : Notice → Option (Option TextEdit)
  | .delivered subscriber (.content _ _ edit) =>
    if subscriber.listener = .session then some edit else none
  | _ => none

/-- The edits that the session hears of, `none` for every replacement of the whole text. -/
def heardEdits (notices : List Notice) : List (Option TextEdit) := notices.filterMap Notice.edit?

@[simp] theorem heardEdits_nil : heardEdits [] = [] := rfl

@[simp] theorem heardEdits_append (first second : List Notice) :
    heardEdits (first ++ second) = heardEdits first ++ heardEdits second :=
  List.filterMap_append

theorem Signals.hear_append (signals : Signals) (first second : List Notice) :
    signals.hear (first ++ second) = (signals.hear first).hear second :=
  List.foldl_append

theorem Signals.hear_edits (signals : Signals) (notices : List Notice) :
    (signals.hear notices).edits = signals.edits ++ heardEdits notices := by
  induction notices generalizing signals with
  | nil => simp [hear]
  | cons notice rest ih =>
    rw [← List.singleton_append, hear_append, ih, heardEdits_append, ← List.append_assoc]
    congr 1
    cases notice with
    | called extension phase => simp [hear, heardEdits, Notice.edit?]
    | delivered subscriber event =>
      by_cases hsession : subscriber.listener = .session
      · cases event <;> simp [hear, add, heardEdits, Notice.edit?, hsession]
      · cases event <;> simp [hear, heardEdits, Notice.edit?, hsession]

def Event.leavesText : Event → Bool
  | .content .. => false
  | _ => true

namespace EventBus

theorem heardEdits_deliveries {event : Event} (h : event.leavesText) (bus : EventBus) :
    heardEdits (bus.deliveries event) = [] := by
  simp only [heardEdits, deliveries, List.filterMap_eq_nil_iff, List.mem_map]
  rintro notice ⟨subscriber, -, rfl⟩
  cases event with
  | content document version edit => cases h
  | selection range => rfl
  | cursor caret => rfl
  | settings changed => rfl
  | decoration change => rfl

theorem heardEdits_flatMap {bus : EventBus} {events : List Event}
    (h : ∀ event ∈ events, event.leavesText) :
    heardEdits (events.flatMap bus.deliveries) = [] := by
  induction events with
  | nil => rfl
  | cons event rest ih =>
    rw [List.flatMap_cons, heardEdits_append, heardEdits_deliveries (h event List.mem_cons_self),
      ih fun other hother => h other (List.mem_cons_of_mem _ hother)]
    rfl

/-- A session that is subscribed hears of a change of the text. -/
theorem mem_heardEdits {bus : EventBus} {id : SubscriptionId}
    (hsubscribed : ⟨id, .content, .session⟩ ∈ bus.subscribers) (document : DocumentId)
    (version : Nat) (edit : Option TextEdit) :
    edit ∈ heardEdits (bus.deliveries (.content document version edit)) := by
  simp only [heardEdits, List.mem_filterMap, deliveries, List.mem_map]
  refine ⟨_, ⟨⟨id, .content, .session⟩, ?_, rfl⟩, rfl⟩
  simp [subscribersOf, Event.kind, hsubscribed]

end EventBus

namespace Editor

variable {id : SubscriptionId} {editor after : Editor}

structure Tells (editor : Editor) (id : SubscriptionId) : Prop where
  sound : editor.Sound
  subscribed : ⟨id, .content, .session⟩ ∈ editor.bus.subscribers
  known : id ≤ editor.bus.lastId

inductive TextFate (editor after : Editor) (edits : List (Option TextEdit)) : Prop where
  | same (document : after.document = editor.document) (buffer : after.buffer = editor.buffer)
      (heard : edits = [])
  | newer (document : after.document = editor.document)
      (version : editor.buffer.version < after.buffer.version)
  | replaced (heard : none ∈ edits)

theorem TextFate.trans {last : Editor} {first second : List (Option TextEdit)}
    (h : TextFate editor after first) (hnext : TextFate after last second) :
    TextFate editor last (first ++ second) := by
  cases hnext with
  | replaced heard => exact .replaced (List.mem_append_right _ heard)
  | same document buffer heard =>
    subst heard
    cases h with
    | replaced heard => exact .replaced (List.mem_append_left _ heard)
    | same document' buffer' heard' =>
      exact .same (document.trans document') (buffer.trans buffer') (by simp [heard'])
    | newer document' version' => exact .newer (document.trans document') (buffer ▸ version')
  | newer document version =>
    cases h with
    | replaced heard => exact .replaced (List.mem_append_left _ heard)
    | same document' buffer' heard' => exact .newer (document.trans document') (buffer' ▸ version)
    | newer document' version' =>
      exact .newer (document.trans document') (Nat.lt_trans version' version)

/-- What one can tell of an editor that has gone on for a while. -/
structure Follows (id : SubscriptionId) (editor after : Editor) : Prop where
  tells : after.Tells id
  lastId : editor.bus.lastId ≤ after.bus.lastId
  told : ∃ notices, after.journal = editor.journal ++ notices ∧
    TextFate editor after (heardEdits notices)

theorem Follows.refl (h : editor.Tells id) : Follows id editor editor :=
  ⟨h, Nat.le_refl _, [], (List.append_nil _).symm, .same rfl rfl rfl⟩

theorem Follows.trans {last : Editor} (h : Follows id editor after)
    (hnext : Follows id after last) : Follows id editor last := by
  obtain ⟨first, hfirst, hfate⟩ := h.told
  obtain ⟨second, hsecond, hfate'⟩ := hnext.told
  refine ⟨hnext.tells, Nat.le_trans h.lastId hnext.lastId, first ++ second, ?_, ?_⟩
  · rw [hsecond, hfirst, List.append_assoc]
  · rw [heardEdits_append]
    exact hfate.trans hfate'

theorem Tells.emitAll (h : editor.Tells id) (events : List Event) : (editor.emitAll events).Tells id :=
  ⟨h.sound.emitAll events, h.subscribed, h.known⟩

/-- A change besides the text, announced by events of other kinds. -/
theorem follows_of_announced (h : editor.Tells id) (hsound : after.Sound)
    (hbus : after.bus = editor.bus) (hjournal : after.journal = editor.journal)
    (hdocument : after.document = editor.document) (hbuffer : after.buffer = editor.buffer)
    {events : List Event} (hevents : ∀ event ∈ events, event.leavesText) :
    Follows id editor (after.emitAll events) := by
  have htells : after.Tells id := ⟨hsound, hbus ▸ h.subscribed, hbus ▸ h.known⟩
  refine ⟨htells.emitAll events, Nat.le_of_eq (congrArg EventBus.lastId hbus.symm),
    events.flatMap after.bus.deliveries, congrArg (· ++ _) hjournal, ?_⟩
  exact .same hdocument hbuffer (EventBus.heardEdits_flatMap hevents)

/-- A change of the text, which is announced before all else. -/
theorem follows_of_content (h : editor.Tells id) (hsound : after.Sound)
    (hbus : after.bus = editor.bus) (hjournal : after.journal = editor.journal)
    {document : DocumentId} {version : Nat} {edit : Option TextEdit} (events : List Event)
    (hfate : edit = none ∨
      after.document = editor.document ∧ editor.buffer.version < after.buffer.version) :
    Follows id editor (after.emitAll (.content document version edit :: events)) := by
  have htells : after.Tells id := ⟨hsound, hbus ▸ h.subscribed, hbus ▸ h.known⟩
  refine ⟨htells.emitAll _, Nat.le_of_eq (congrArg EventBus.lastId hbus.symm),
    (Event.content document version edit :: events).flatMap after.bus.deliveries,
    congrArg (· ++ _) hjournal, ?_⟩
  rcases hfate with hnone | ⟨hdocument, hversion⟩
  · apply TextFate.replaced
    rw [List.flatMap_cons, heardEdits_append]
    apply List.mem_append_left
    exact hnone ▸ EventBus.mem_heardEdits htells.subscribed document version edit
  · exact .newer hdocument hversion

theorem cursorEvents_leaveText (editor : Editor) (change : CursorChange) :
    ∀ event ∈ editor.cursorEvents change, event.leavesText := by
  obtain ⟨moved, selectionChanged⟩ := change
  intro event hevent
  cases moved <;> cases selectionChanged <;> simp [cursorEvents] at hevent
  · subst hevent; rfl
  · subst hevent; rfl
  · rcases hevent with rfl | rfl <;> rfl

theorem openDocument_follows (h : editor.Tells id) (document : DocumentId) (text : Text) :
    Follows id editor (editor.openDocument document text) := by
  have hsound := openDocument_sound editor document text
  rw [openDocument_eq] at hsound ⊢
  dsimp only at hsound ⊢
  rw [List.cons_append] at hsound ⊢
  refine follows_of_content h ?_ ?_ ?_ _ (Or.inl rfl)
  · exact ⟨hsound.buffer, hsound.cursor, hsound.decorations⟩
  · rfl
  · rfl

theorem setContent_follows (h : editor.Tells id) (text : Text) :
    Follows id editor (editor.setContent text) := by
  have hsound := setContent_sound h.sound text
  rw [setContent_eq] at hsound ⊢
  dsimp only at hsound ⊢
  refine follows_of_content h ?_ ?_ ?_ _ (Or.inl rfl)
  · exact ⟨hsound.buffer, hsound.cursor, hsound.decorations⟩
  · rfl
  · rfl

/-- An edit that is one makes a new version. -/
theorem replace_version (buffer : Buffer) (start stop : Nat) (text : Text)
    (h : (buffer.replace start stop text).2.isNoop = false) :
    (buffer.replace start stop text).1.version = buffer.version + 1 := by
  simp only [Buffer.replace] at h ⊢
  split
  · rename_i hnoop
    simp [hnoop] at h
  · rfl

theorem editOffsets_follows (h : editor.Tells id) (start stop : Nat) (text : Text) :
    Follows id editor (editor.editOffsets start stop text) := by
  have hsound := editOffsets_sound h.sound start stop text
  rw [editOffsets_eq] at hsound ⊢
  dsimp only at hsound ⊢
  split
  · exact .refl h
  · rename_i hnoop
    rw [if_neg hnoop] at hsound
    have hversion := replace_version editor.buffer start stop text (by simpa using hnoop)
    rw [List.cons_append] at hsound ⊢
    refine follows_of_content h ?_ ?_ ?_ _ (Or.inr ⟨?_, ?_⟩)
    · exact ⟨hsound.buffer, hsound.cursor, hsound.decorations⟩
    · rfl
    · rfl
    · rfl
    · show editor.buffer.version < (editor.buffer.replace start stop text).1.version
      omega

theorem Edits.follows (hedits : editor.Edits after) (h : editor.Tells id) :
    Follows id editor after := by
  cases hedits with
  | nothing => exact .refl h
  | edit start stop text => exact editOffsets_follows h start stop text

theorem withCursor_follows (h : editor.Tells id) {step : Cursor × CursorChange}
    (hstep : step.1.state.Sound editor.buffer) : Follows id editor (editor.withCursor step) := by
  have hmoved : Editor.Sound { editor with cursor := step.1 } :=
    ⟨h.sound.buffer, hstep, h.sound.decorations⟩
  rw [withCursor_eq]
  exact follows_of_announced h hmoved rfl rfl rfl rfl (cursorEvents_leaveText _ _)

theorem withDecorations_follows (h : editor.Tells id) {decorations : DecorationStore}
    (hstore : decorations.Sound editor.buffer) (changes : List DecorationChange) :
    Follows id editor ({ editor with decorations }.announceDecorations changes) := by
  have hchanged : Editor.Sound { editor with decorations } :=
    ⟨h.sound.buffer, h.sound.cursor, hstore⟩
  rw [announceDecorations_eq]
  refine follows_of_announced h hchanged rfl rfl rfl rfl ?_
  intro event hevent
  obtain ⟨change, -, rfl⟩ := List.mem_map.1 hevent
  rfl

/-- A change besides the text that is not announced. -/
theorem follows_of_unannounced (h : editor.Tells id) (hsound : after.Sound)
    (hbus : after.bus = editor.bus) (hjournal : after.journal = editor.journal)
    (hdocument : after.document = editor.document) (hbuffer : after.buffer = editor.buffer) :
    Follows id editor after := by
  rw [← emitAll_nil after]
  exact follows_of_announced h hsound hbus hjournal hdocument hbuffer (by simp)

theorem removeDecoration_follows (h : editor.Tells id) (decorationId : DecorationId) :
    Follows id editor (editor.removeDecoration decorationId).1 := by
  simp only [removeDecoration]
  split
  · exact withDecorations_follows h (DecorationStore.remove_sound h.sound.decorations _) _
  · exact .refl h

theorem updateDecoration_follows (h : editor.Tells id) (decorationId : DecorationId)
    (decoration : Decoration) :
    Follows id editor (editor.updateDecoration decorationId decoration).1 := by
  unfold updateDecoration
  split
  · rename_i store hstore
    have hsound := DecorationStore.update_sound h.sound.buffer h.sound.decorations hstore
    exact withDecorations_follows h hsound _
  · exact .refl h

theorem clearDecorations_follows (h : editor.Tells id) :
    Follows id editor editor.clearDecorations.1 := by
  have hstore := DecorationStore.clear_sound editor.decorations editor.buffer
  simp only [clearDecorations]
  split
  · exact withDecorations_follows h hstore _
  · exact follows_of_unannounced h ⟨h.sound.buffer, h.sound.cursor, hstore⟩ rfl rfl rfl rfl

theorem updateSettings_follows (h : editor.Tells id) (change : Json) :
    Follows id editor (editor.updateSettings change).1 := by
  unfold updateSettings
  split
  · rename_i settings changed _
    have hsound : Editor.Sound { editor with settings } :=
      ⟨h.sound.buffer, h.sound.cursor, h.sound.decorations⟩
    dsimp only
    split
    · exact follows_of_unannounced h hsound rfl rfl rfl rfl
    · rw [emit_eq_emitAll]
      refine follows_of_announced h hsound rfl rfl rfl rfl ?_
      intro event hevent
      obtain rfl := List.mem_singleton.1 hevent
      rfl
  · exact .refl h

theorem subscribe_follows (h : editor.Tells id) (kind : EventKind) (listener : Listener) :
    Follows id editor (editor.subscribe kind listener).1 where
  tells := {
    sound := ⟨h.sound.buffer, h.sound.cursor, h.sound.decorations⟩
    subscribed := List.mem_append_left _ h.subscribed
    known := Nat.le_succ_of_le h.known }
  lastId := Nat.le_succ _
  told := ⟨[], (List.append_nil _).symm, .same rfl rfl rfl⟩

theorem noteCall_follows (h : editor.Tells id) (extension : String) (phase : Phase) :
    Follows id editor (editor.noteCall extension phase) where
  tells := ⟨⟨h.sound.buffer, h.sound.cursor, h.sound.decorations⟩, h.subscribed, h.known⟩
  lastId := Nat.le_refl _
  told := ⟨[.called extension phase], rfl, .same rfl rfl rfl⟩

end Editor

/-- Whether an operation leaves subscriptions to others and makes up no announcements. -/
def Operation.isOrdinary : Operation → Bool
  | .unsubscribe _ | .emit _ => false
  | _ => true

namespace Editor

variable {id : SubscriptionId} {editor after : Editor}

/-- What one ordinary operation does. -/
theorem perform_follows (h : editor.Tells id) (operation : Operation)
    (hordinary : operation.isOrdinary) : Follows id editor (editor.perform operation).1 := by
  cases operation with
  | setContent text =>
    simp only [perform]
    exact setContent_follows h text
  | insert place text =>
    simp only [perform]
    exact (editor.insert_edits place text).follows h
  | delete range =>
    simp only [perform]
    exact (editor.delete_edits range).follows h
  | replace range text =>
    simp only [perform]
    exact (editor.replace_edits range text).follows h
  | typeText text =>
    simp only [perform]
    exact (editor.typeText_edits text).follows h
  | deleteBackward =>
    simp only [perform]
    exact (editor.deleteBackward_edits).follows h
  | deleteForward =>
    simp only [perform]
    exact (editor.deleteForward_edits).follows h
  | setCursor position =>
    have hplace := h.sound.buffer.hasPlace_clampPosition position
    exact withCursor_follows h (Cursor.become_ofCaret_sound _ hplace)
  | setCursorOffset offset =>
    have hplace := h.sound.buffer.hasPlace_positionOf offset
    exact withCursor_follows h (Cursor.become_ofCaret_sound _ hplace)
  | setSelection range =>
    exact withCursor_follows h (Cursor.setSelection_sound _ h.sound.buffer _ _)
  | clearSelection =>
    exact withCursor_follows h (Cursor.become_ofCaret_sound _ h.sound.cursor.caret)
  | selectAll => exact withCursor_follows h (Cursor.setSelection_sound _ h.sound.buffer _ _)
  | moveCursor motion extend =>
    exact withCursor_follows h (Cursor.move_sound h.sound.buffer h.sound.cursor motion extend)
  | addDecoration decoration =>
    have hstore := DecorationStore.add_sound h.sound.buffer h.sound.decorations decoration
    exact withDecorations_follows h hstore _
  | removeDecoration decorationId => exact removeDecoration_follows h decorationId
  | updateDecoration decorationId decoration =>
    exact updateDecoration_follows h decorationId decoration
  | clearDecorations => exact clearDecorations_follows h
  | updateSettings change => exact updateSettings_follows h change
  | openDocument document text =>
    simp only [perform]
    exact openDocument_follows h document text
  | subscribe kind tag => exact subscribe_follows h kind (.host tag)
  | unsubscribe _ | emit _ => cases hordinary
  | decoration _ | setting _ | selectedText | selection | line _ | positionAt _ _ | positionOf _
  | textForSaving => exact .refl h

inductive Evolves : Editor → Editor → Prop where
  | refl (editor : Editor) : Evolves editor editor
  | perform {editor after : Editor} {operation : Operation} (ordinary : operation.isOrdinary)
      (rest : Evolves (editor.perform operation).1 after) : Evolves editor after
  | noteCall {editor after : Editor} {extension : String} {phase : Phase}
      (rest : Evolves (editor.noteCall extension phase) after) : Evolves editor after

theorem Evolves.trans {last : Editor} (h : Evolves editor after) (hnext : Evolves after last) :
    Evolves editor last := by
  induction h with
  | refl => exact hnext
  | perform ordinary _ ih => exact .perform ordinary (ih hnext)
  | noteCall _ ih => exact .noteCall (ih hnext)

theorem evolves_performAll (editor : Editor) {operations : List Operation}
    (h : ∀ operation ∈ operations, operation.isOrdinary) :
    Evolves editor (editor.performAll operations) := by
  induction operations generalizing editor with
  | nil => exact .refl editor
  | cons operation rest ih =>
    refine .perform (h operation List.mem_cons_self) (ih _ ?_)
    intro other hother
    exact h other (List.mem_cons_of_mem _ hother)

theorem Evolves.follows (hevolves : Evolves editor after) (h : editor.Tells id) :
    Follows id editor after := by
  induction hevolves with
  | refl => exact .refl h
  | @perform _ _ operation ordinary _ ih =>
    have hstep := perform_follows h operation ordinary
    exact hstep.trans (ih hstep.tells)
  | @noteCall _ _ extension phase _ ih =>
    have hstep := noteCall_follows h extension phase
    exact hstep.trans (ih hstep.tells)

end Editor

end HeadlessEditor
