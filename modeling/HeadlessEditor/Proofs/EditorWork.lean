import HeadlessEditor.Proofs.Mirroring

/-!
Work on an editor. What an operation announces does not depend on who listens: it is what somebody hears
who listens to everything. So whoever is given an editor to work on announces event after event, and each
reaches those who are subscribed to its kind at that moment.
-/

namespace HeadlessEditor

/-- The bus of somebody who listens to everything. -/
def EventBus.recorder : EventBus :=
  EventKind.all.foldl (fun bus kind => (bus.subscribe kind (.host "recorder")).1) .empty

theorem EventBus.recorder_hearsAll : recorder.HearsAll (.host "recorder") := by
  intro kind
  cases kind <;> decide

def Operation.subscribes : Operation → Bool
  | .subscribe _ _ | .unsubscribe _ => true
  | _ => false

namespace Editor

def amid (editor : Editor) (bus : EventBus) (journal : List Notice) : Editor :=
  { editor with bus, journal }

@[simp] theorem amid_buffer (editor : Editor) (bus : EventBus) (journal : List Notice) :
    (editor.amid bus journal).buffer = editor.buffer := rfl

@[simp] theorem amid_caret (editor : Editor) (bus : EventBus) (journal : List Notice) :
    (editor.amid bus journal).caret = editor.caret := rfl

@[simp] theorem amid_selection (editor : Editor) (bus : EventBus) (journal : List Notice) :
    (editor.amid bus journal).selection = editor.selection := rfl

@[simp] theorem amid_decorations (editor : Editor) (bus : EventBus) (journal : List Notice) :
    (editor.amid bus journal).decorations = editor.decorations := rfl

@[simp] theorem amid_settings (editor : Editor) (bus : EventBus) (journal : List Notice) :
    (editor.amid bus journal).settings = editor.settings := rfl

/-- The events that an operation announces, in order. -/
def announced (editor : Editor) (operation : Operation) : List Event :=
  (((editor.amid .recorder []).perform operation).1.journal).filterMap
    (Notice.eventFor? (.host "recorder"))

/-- A change does the same and announces the same, whoever listens. -/
def Speaks (editor : Editor) (change : Editor → Editor) : Prop :=
  ∃ (after : Editor) (events : List Event), ∀ bus journal,
    change (editor.amid bus journal) = (after.amid bus journal).emitAll events

variable {editor : Editor}

theorem speaks_of_unchanged {change : Editor → Editor}
    (h : ∀ bus journal, change (editor.amid bus journal) = editor.amid bus journal) :
    editor.Speaks change :=
  ⟨editor, [], fun bus journal => by rw [h, emitAll_nil]⟩

theorem Speaks.congr {change other : Editor → Editor} (h : editor.Speaks other)
    (hsame : ∀ bus journal, change (editor.amid bus journal) = other (editor.amid bus journal)) :
    editor.Speaks change := by
  obtain ⟨after, events, hafter⟩ := h
  exact ⟨after, events, fun bus journal => (hsame bus journal).trans (hafter bus journal)⟩

theorem openDocument_speaks (editor : Editor) (document : DocumentId) (text : Text) :
    editor.Speaks (·.openDocument document text) := by
  let step := editor.cursor.swapDocument (some editor.document) document (.load text)
  let opened := { editor with document }.withText (.load text) step.1 editor.decorations.clear
  refine ⟨opened, .content document 0 none :: opened.cursorEvents step.2
    ++ if editor.decorations.size > 0 then [.decoration .cleared] else [], ?_⟩
  intro bus journal
  exact openDocument_eq (editor.amid bus journal) document text

theorem setContent_speaks (editor : Editor) (text : Text) : editor.Speaks (·.setContent text) := by
  let buffer := editor.buffer.setContent text
  let step := editor.cursor.rederive buffer
  let changed := editor.withText buffer step.1 (editor.decorations.rederive buffer)
  refine ⟨changed, .content editor.document buffer.version none :: changed.cursorEvents step.2, ?_⟩
  intro bus journal
  exact setContent_eq (editor.amid bus journal) text

theorem editOffsets_speaks (editor : Editor) (start stop : Nat) (text : Text) :
    editor.Speaks (·.editOffsets start stop text) := by
  cases hreplace : editor.buffer.replace start stop text with
  | mk buffer edit =>
    by_cases hnoop : edit.isNoop
    · refine speaks_of_unchanged fun bus journal => ?_
      simp only [editOffsets_eq, amid_buffer, hreplace]
      exact if_pos hnoop
    · let moved := editor.cursor.mapThroughEdit edit buffer
      let carried := editor.decorations.mapThroughEdit edit buffer
      let changed := editor.withText buffer moved.1 carried.1
      refine ⟨changed, .content editor.document buffer.version (some edit)
        :: changed.cursorEvents moved.2 ++ (carried.2.map .removed).map .decoration, ?_⟩
      intro bus journal
      simp only [editOffsets_eq, amid_buffer, hreplace]
      exact if_neg hnoop

theorem replace_speaks (editor : Editor) (range : TextRange) (text : Text) :
    editor.Speaks (·.replace range text) := by
  let span := (editor.buffer.clampRange range).offsets
  exact (editor.editOffsets_speaks span.1 span.2 text).congr fun _ _ => rfl

theorem insert_speaks (editor : Editor) (place : Position) (text : Text) :
    editor.Speaks (·.insert place text) := by
  let offset := (editor.buffer.clampPosition place).offset
  exact (editor.editOffsets_speaks offset offset text).congr fun _ _ => rfl

theorem delete_speaks (editor : Editor) (range : TextRange) : editor.Speaks (·.delete range) :=
  editor.replace_speaks range []

theorem typeText_speaks (editor : Editor) (text : Text) : editor.Speaks (·.typeText text) := by
  cases hselection : editor.selection with
  | some range =>
    refine (editor.replace_speaks range text).congr fun bus journal => ?_
    simp only [typeText, amid_selection, hselection]
  | none =>
    let offset := editor.caret.offset
    refine (editor.editOffsets_speaks offset offset text).congr fun bus journal => ?_
    simp only [typeText, amid_selection, hselection, amid_caret]
    rfl

theorem deleteBackward_speaks (editor : Editor) : editor.Speaks (·.deleteBackward) := by
  cases hselection : editor.selection with
  | some range =>
    refine (editor.delete_speaks range).congr fun bus journal => ?_
    simp only [deleteBackward, amid_selection, hselection]
  | none =>
    by_cases hstart : editor.caret.offset = 0
    · refine speaks_of_unchanged fun bus journal => ?_
      simp only [deleteBackward, amid_selection, hselection]
      exact if_pos hstart
    · let line := (editor.buffer.line? editor.caret.line).getD []
      let start :=
        if editor.caret.column = 0 then editor.caret.offset - 1
        else editor.caret.offset - editor.caret.column
          + Grapheme.segmentation.previousBoundary line editor.caret.column
      refine (editor.editOffsets_speaks start editor.caret.offset []).congr fun bus journal => ?_
      simp only [deleteBackward, amid_selection, hselection]
      exact if_neg hstart

theorem deleteForward_speaks (editor : Editor) : editor.Speaks (·.deleteForward) := by
  cases hselection : editor.selection with
  | some range =>
    refine (editor.delete_speaks range).congr fun bus journal => ?_
    simp only [deleteForward, amid_selection, hselection]
  | none =>
    by_cases hend : editor.buffer.length ≤ editor.caret.offset
    · refine speaks_of_unchanged fun bus journal => ?_
      simp only [deleteForward, amid_selection, hselection]
      exact if_pos hend
    · let line := (editor.buffer.line? editor.caret.line).getD []
      let stop :=
        if editor.buffer.lineLength editor.caret.line ≤ editor.caret.column then
          editor.caret.offset + 1
        else editor.caret.offset - editor.caret.column
          + Grapheme.segmentation.nextBoundary line editor.caret.column
      refine (editor.editOffsets_speaks editor.caret.offset stop []).congr fun bus journal => ?_
      simp only [deleteForward, amid_selection, hselection]
      exact if_neg hend

theorem withCursor_speaks (editor : Editor) (step : Cursor × CursorChange) :
    editor.Speaks (·.withCursor step) := by
  let moved := { editor with cursor := step.1 }
  exact ⟨moved, moved.cursorEvents step.2,
    fun bus journal => withCursor_eq (editor.amid bus journal) step⟩

theorem withDecorations_speaks (editor : Editor) (decorations : DecorationStore)
    (changes : List DecorationChange) :
    editor.Speaks fun other => { other with decorations }.announceDecorations changes :=
  ⟨{ editor with decorations }, changes.map .decoration, fun bus journal =>
    announceDecorations_eq { editor.amid bus journal with decorations } changes⟩

theorem removeDecoration_speaks (editor : Editor) (id : DecorationId) :
    editor.Speaks (·.removeDecoration id |>.1) := by
  let step := editor.decorations.remove id
  by_cases hfound : step.2.isSome
  · refine (editor.withDecorations_speaks step.1 [.removed id]).congr fun bus journal => ?_
    exact congrArg Prod.fst (if_pos hfound)
  · refine speaks_of_unchanged fun bus journal => ?_
    exact congrArg Prod.fst (if_neg hfound)

theorem updateDecoration_speaks (editor : Editor) (id : DecorationId) (decoration : Decoration) :
    editor.Speaks (·.updateDecoration id decoration |>.1) := by
  cases hupdate : editor.decorations.update id decoration editor.buffer with
  | ok decorations =>
    refine (editor.withDecorations_speaks decorations [.updated id]).congr fun bus journal => ?_
    simp only [updateDecoration, amid_decorations, amid_buffer, hupdate]
  | error error =>
    refine speaks_of_unchanged fun bus journal => ?_
    simp only [updateDecoration, amid_decorations, amid_buffer, hupdate]

theorem clearDecorations_speaks (editor : Editor) :
    editor.Speaks (·.clearDecorations |>.1) := by
  by_cases hany : editor.decorations.size > 0
  · refine (editor.withDecorations_speaks editor.decorations.clear [.cleared]).congr
      fun bus journal => ?_
    exact if_pos hany
  · refine (editor.withDecorations_speaks editor.decorations.clear []).congr fun bus journal => ?_
    exact if_neg hany

theorem updateSettings_speaks (editor : Editor) (change : Json) :
    editor.Speaks (·.updateSettings change |>.1) := by
  cases hpatch : editor.settings.patch change with
  | ok step =>
    obtain ⟨settings, changed⟩ := step
    refine ⟨{ editor with settings }, if changed.isEmpty then [] else [.settings changed], ?_⟩
    intro bus journal
    simp only [updateSettings, amid_settings, hpatch]
    split
    · exact (emitAll_nil _).symm
    · exact emit_eq_emitAll _ _
  | error error =>
    refine speaks_of_unchanged fun bus journal => ?_
    simp only [updateSettings, amid_settings, hpatch]

/-- Every operation, apart from those that begin or end a subscription. -/
theorem perform_speaks (editor : Editor) {operation : Operation} (h : operation.subscribes = false) :
    editor.Speaks (·.perform operation |>.1) := by
  cases operation with
  | setContent text =>
    simp only [perform]
    exact editor.setContent_speaks text
  | insert place text =>
    simp only [perform]
    exact editor.insert_speaks place text
  | delete range =>
    simp only [perform]
    exact editor.delete_speaks range
  | replace range text =>
    simp only [perform]
    exact editor.replace_speaks range text
  | typeText text =>
    simp only [perform]
    exact editor.typeText_speaks text
  | deleteBackward =>
    simp only [perform]
    exact editor.deleteBackward_speaks
  | deleteForward =>
    simp only [perform]
    exact editor.deleteForward_speaks
  | setCursor position =>
    exact (editor.withCursor_speaks (editor.cursor.setCaret position editor.buffer)).congr
      fun _ _ => rfl
  | setCursorOffset offset =>
    exact (editor.withCursor_speaks (editor.cursor.setCaretOffset offset editor.buffer)).congr
      fun _ _ => rfl
  | setSelection range =>
    exact (editor.withCursor_speaks
      (editor.cursor.setSelection range.start range.stop editor.buffer)).congr fun _ _ => rfl
  | clearSelection =>
    exact (editor.withCursor_speaks editor.cursor.clearSelection).congr fun _ _ => rfl
  | selectAll =>
    exact (editor.withCursor_speaks (editor.cursor.selectAll editor.buffer)).congr fun _ _ => rfl
  | moveCursor motion extend =>
    exact (editor.withCursor_speaks (editor.cursor.move Grapheme.segmentation motion extend editor.buffer)).congr
      fun _ _ => rfl
  | addDecoration decoration =>
    let step := editor.decorations.add decoration editor.buffer
    exact (editor.withDecorations_speaks step.1 [.added step.2]).congr fun _ _ => rfl
  | removeDecoration id => exact editor.removeDecoration_speaks id
  | updateDecoration id decoration => exact editor.updateDecoration_speaks id decoration
  | clearDecorations => exact editor.clearDecorations_speaks
  | updateSettings change => exact editor.updateSettings_speaks change
  | openDocument document text =>
    simp only [perform]
    exact editor.openDocument_speaks document text
  | emit event => exact ⟨editor, [event], fun bus journal => emit_eq_emitAll _ event⟩
  | subscribe _ _ | unsubscribe _ => cases h
  | decoration _ | setting _ | selectedText | selection | line _ | positionAt _ _ | positionOf _
  | textForSaving => exact speaks_of_unchanged fun _ _ => rfl

/-- Those that are subscribed to its kind hear of an event, and they hear all that is announced. -/
theorem perform_told (editor : Editor) (operation : Operation) :
    (editor.perform operation).1.journal
      = editor.journal ++ (editor.announced operation).flatMap editor.bus.deliveries := by
  cases hsubscribes : operation.subscribes with
  | true =>
    cases operation with
    | subscribe kind tag => exact (List.append_nil _).symm
    | unsubscribe id => exact (List.append_nil _).symm
    | _ => cases hsubscribes
  | false =>
    obtain ⟨after, events, hafter⟩ := editor.perform_speaks hsubscribes
    -- The recorder misses nothing, so its journal shows the very events that are announced here.
    have hrecorded : editor.announced operation = events := by
      have hjournal := congrArg Editor.journal (hafter .recorder [])
      dsimp only at hjournal
      rw [announced, hjournal]
      exact EventBus.recorder_hearsAll.filterMap_flatMap events
    have hjournal := congrArg Editor.journal (hafter editor.bus editor.journal)
    rw [hrecorded]
    exact hjournal

theorem perform_bus (editor : Editor) {operation : Operation} (h : operation.subscribes = false) :
    (editor.perform operation).1.bus = editor.bus := by
  obtain ⟨after, events, hafter⟩ := editor.perform_speaks h
  have hbus := congrArg Editor.bus (hafter editor.bus editor.journal)
  exact hbus

end Editor

/-- Whether a listener is an extension. Only the registry subscribes extensions. -/
def Listener.isExtension : Listener → Bool
  | .extension _ => true
  | .host _ | .session => false

def EventBus.hooks (bus : EventBus) : List Subscriber :=
  bus.subscribers.filter (·.listener.isExtension)

/-- Whether an operation ends no subscription of an extension. Nobody but the registry knows the ids of
those. -/
def Operation.sparesHooks (bus : EventBus) : Operation → Bool
  | .unsubscribe id => bus.hooks.all (·.id != id)
  | _ => true

inductive Editor.Works : Editor → List Event → Editor → Prop where
  | done (editor : Editor) : Works editor [] editor
  | perform {editor after : Editor} {operation : Operation} {events : List Event}
      (spares : operation.sparesHooks editor.bus)
      (rest : Works (editor.perform operation).1 events after) :
      Works editor (editor.announced operation ++ events) after
  | subscribe {editor after : Editor} {kind : EventKind} {listener : Listener}
      {events : List Event} (other : listener.isExtension = false)
      (rest : Works (editor.subscribe kind listener).1 events after) : Works editor events after
  | noteCall {editor after : Editor} {extension : String} {phase : Phase} {events : List Event}
      (rest : Works (editor.noteCall extension phase) events after) : Works editor events after

/-- The hook and the event of a notice by which an event reaches an extension. -/
def Notice.hooked? : Notice → Option (Subscriber × Event)
  | .delivered subscriber event =>
    if subscriber.listener.isExtension then some (subscriber, event) else none
  | .called _ _ => none

def Event.reaching (event : Event) (hooks : List Subscriber) : List (Subscriber × Event) :=
  (hooks.filter (·.kind == event.kind)).map (·, event)

theorem EventBus.filterMap_hooked_deliveries (bus : EventBus) (event : Event) :
    (bus.deliveries event).filterMap Notice.hooked? = event.reaching bus.hooks := by
  simp only [deliveries, Event.reaching, hooks, subscribersOf]
  induction bus.subscribers with
  | nil => rfl
  | cons subscriber rest ih =>
    cases hkind : subscriber.kind == event.kind with
    | true =>
      cases hhook : subscriber.listener.isExtension with
      | true => simp [Notice.hooked?, hkind, hhook, ih]
      | false => simp [Notice.hooked?, hkind, hhook, ih]
    | false =>
      cases hhook : subscriber.listener.isExtension with
      | true => simp [hkind, hhook, ih]
      | false => simp [hkind, hhook, ih]

namespace Editor

variable {editor after : Editor}

def hookNotices (editor : Editor) : List (Subscriber × Event) :=
  editor.journal.filterMap Notice.hooked?

theorem perform_hooks (editor : Editor) {operation : Operation}
    (h : operation.sparesHooks editor.bus) :
    (editor.perform operation).1.bus.hooks = editor.bus.hooks ∧
    editor.bus.lastId ≤ (editor.perform operation).1.bus.lastId := by
  cases hsubscribes : operation.subscribes with
  | true =>
    cases operation with
    | subscribe kind tag =>
      refine ⟨?_, Nat.le_succ _⟩
      simp [perform, Editor.subscribe, EventBus.subscribe, EventBus.hooks, Listener.isExtension]
    | unsubscribe id =>
      refine ⟨?_, Nat.le_refl _⟩
      simp only [Operation.sparesHooks, List.all_eq_true] at h
      have hkept : editor.bus.hooks.filter (·.id != id) = editor.bus.hooks := List.filter_eq_self.2 h
      rw [EventBus.hooks, List.filter_filter] at hkept
      simp only [perform, Editor.unsubscribe, EventBus.unsubscribe, EventBus.hooks,
        List.filter_filter]
      simpa [Bool.and_comm] using hkept
    | _ => cases hsubscribes
  | false =>
    rw [editor.perform_bus hsubscribes]
    exact ⟨rfl, Nat.le_refl _⟩

/-- Work leaves the hooks where they are, and what it announces reaches them event by event. -/
theorem Works.hooks {events : List Event} (h : Works editor events after) :
    after.bus.hooks = editor.bus.hooks ∧ editor.bus.lastId ≤ after.bus.lastId ∧
    after.hookNotices = editor.hookNotices ++ events.flatMap (·.reaching editor.bus.hooks) := by
  induction h with
  | done editor => exact ⟨rfl, Nat.le_refl _, (List.append_nil _).symm⟩
  | @perform editor _ operation events spares _ ih =>
    obtain ⟨hhooks, hlast, hnotices⟩ := ih
    obtain ⟨hkept, hgrown⟩ := editor.perform_hooks spares
    refine ⟨hhooks.trans hkept, Nat.le_trans hgrown hlast, ?_⟩
    have htold : (editor.announced operation).flatMap (·.reaching editor.bus.hooks)
        = ((editor.announced operation).flatMap editor.bus.deliveries).filterMap
            Notice.hooked? := by
      rw [List.filterMap_flatMap]
      exact List.flatMap_congr fun event _ => (editor.bus.filterMap_hooked_deliveries event).symm
    rw [hnotices, hkept, List.flatMap_append, htold, hookNotices, hookNotices, perform_told,
      List.filterMap_append, List.append_assoc]
  | @subscribe editor _ kind listener _ other _ ih =>
    have hkept : (editor.subscribe kind listener).1.bus.hooks = editor.bus.hooks := by
      simp [Editor.subscribe, EventBus.subscribe, EventBus.hooks, other]
    obtain ⟨hhooks, hlast, hnotices⟩ := ih
    rw [hkept] at hhooks hnotices
    exact ⟨hhooks, Nat.le_of_succ_le hlast, hnotices⟩
  | @noteCall editor _ extension phase _ _ ih =>
    obtain ⟨hhooks, hlast, hnotices⟩ := ih
    refine ⟨hhooks, hlast, hnotices.trans ?_⟩
    simp [hookNotices, Editor.noteCall, Notice.hooked?]

end Editor

end HeadlessEditor
