import HeadlessEditor.Proofs.Anchors
import HeadlessEditor.Proofs.Hearing
import Mathlib.Data.List.Nodup

/-!
Events tell the whole truth. One who listens to an editor hears of each operation what it made
different, and nothing else: the new text, the new caret, the new selection and what became of the
stored decorations, in this order. So an observer who takes up the events knows the editor as it is.
-/

namespace HeadlessEditor

def Notice.eventFor? (listener : Listener) : Notice → Option Event
  | .delivered subscriber event => if subscriber.listener = listener then some event else none
  | .called _ _ => none

/-- The listener has one subscription to each kind of events. -/
def EventBus.HearsAll (bus : EventBus) (listener : Listener) : Prop :=
  ∀ kind, (bus.subscribersOf kind).countP (·.listener = listener) = 1

namespace EventBus

theorem filterMap_deliveries (bus : EventBus) (listener : Listener) (event : Event) :
    (bus.deliveries event).filterMap (Notice.eventFor? listener)
      = List.replicate ((bus.subscribersOf event.kind).countP (·.listener = listener)) event := by
  unfold deliveries
  induction bus.subscribersOf event.kind with
  | nil => rfl
  | cons subscriber rest ih =>
    by_cases hlistener : subscriber.listener = listener
    · simp [Notice.eventFor?, hlistener, List.replicate_succ, ih]
    · simp [Notice.eventFor?, hlistener, ih]

/-- Who listens to all kinds hears every event once, and in order. -/
theorem HearsAll.filterMap_flatMap {bus : EventBus} {listener : Listener}
    (h : bus.HearsAll listener) (events : List Event) :
    (events.flatMap bus.deliveries).filterMap (Notice.eventFor? listener) = events := by
  induction events with
  | nil => rfl
  | cons event rest ih =>
    rw [List.flatMap_cons, List.filterMap_append, filterMap_deliveries, h event.kind, ih]
    rfl

end EventBus

/-- What a change makes of the ids of stored decorations; `none` if it does not fit them, or is one of
a decoration under its id and makes no difference to them. -/
def DecorationChange.replay? (ids : List DecorationId) :
    DecorationChange → Option (List DecorationId)
  | .added id => if id ∈ ids then none else some (ids ++ [id])
  | .updated _ => none
  | .removed id => if id ∈ ids then some (ids.filter (· ≠ id)) else none
  | .cleared => if ids = [] then none else some []

def DecorationChange.replayAll? (ids : List DecorationId) (changes : List DecorationChange) :
    Option (List DecorationId) :=
  changes.foldlM replay? ids

/-- Ids are told of one by one as their decorations go. -/
theorem DecorationChange.replayAll?_removed {ids removed : List DecorationId}
    (hdistinct : removed.Nodup) (hids : ∀ id ∈ removed, id ∈ ids) :
    replayAll? ids (removed.map .removed) = some (ids.filter (· ∉ removed)) := by
  induction removed generalizing ids with
  | nil => simp [replayAll?]
  | cons id rest ih =>
    obtain ⟨hnew, hdistinct⟩ := List.nodup_cons.1 hdistinct
    have hrest : ∀ other ∈ rest, other ∈ ids.filter (· ≠ id) := by
      intro other hother
      have hne : other ≠ id := fun heq => hnew (heq ▸ hother)
      simp [hne, hids other (List.mem_cons_of_mem _ hother)]
    have hstep := ih hdistinct hrest
    simp only [replayAll?, List.map_cons, List.foldlM_cons, replay?,
      if_pos (hids id List.mem_cons_self)] at hstep ⊢
    rw [Option.bind_eq_bind, Option.bind_some, hstep, List.filter_filter]
    congr 2
    funext other
    simp [not_or, Bool.and_comm]

namespace DecorationStore

variable {store : DecorationStore} {buffer : Buffer}

def ids (store : DecorationStore) : List DecorationId := store.items.keys

theorem Sound.ids_nodup (hs : store.Sound buffer) : store.ids.Nodup :=
  hs.ascending.imp Nat.ne_of_lt

theorem ids_eq_nil_iff : store.ids = [] ↔ store.size = 0 := by
  simp [ids, size, Table.size, Table.keys]

theorem replayAll?_add (hs : store.Sound buffer) (decoration : Decoration) :
    DecorationChange.replayAll? store.ids [.added (store.add decoration buffer).2]
      = some (store.add decoration buffer).1.ids := by
  have hnew : store.lastId + 1 ∉ store.items.keys := fun hin =>
    Nat.not_succ_le_self _ (hs.known _ hin)
  have hkeys := Table.keys_insert_of_notMem hnew (fit decoration buffer)
  simp [DecorationChange.replayAll?, DecorationChange.replay?, add, ids, hnew, hkeys]

theorem replayAll?_remove {id : DecorationId} (h : (store.remove id).2.isSome) :
    DecorationChange.replayAll? store.ids [.removed id] = some (store.remove id).1.ids := by
  have hin : id ∈ store.items.keys := Table.contains_iff.1 h
  simp [DecorationChange.replayAll?, DecorationChange.replay?, remove, ids, hin, Table.keys_erase]

theorem update_ids {next : DecorationStore} {id : DecorationId} {decoration : Decoration}
    (h : store.update id decoration buffer = .ok next) : next.ids = store.ids := by
  unfold update at h
  split at h
  · rename_i hcontains
    obtain rfl := Except.ok.inj h
    exact Table.keys_insert_of_mem (Table.contains_iff.1 hcontains) _
  · cases h

theorem replayAll?_clear (store : DecorationStore) :
    DecorationChange.replayAll? store.ids (if store.size > 0 then [.cleared] else [])
      = some store.clear.ids := by
  by_cases hsize : store.size > 0
  · have hids : store.ids ≠ [] := fun hnil => by
      have hzero := ids_eq_nil_iff.1 hnil
      omega
    simp [DecorationChange.replayAll?, DecorationChange.replay?, hsize, hids]
    rfl
  · have hids : store.ids = [] := ids_eq_nil_iff.2 (by omega)
    rw [if_neg hsize, hids]
    rfl

theorem rederive_ids (store : DecorationStore) (buffer : Buffer) :
    (store.rederive buffer).ids = store.ids := by
  simp [rederive, ids, Table.keys, Function.comp_def]

theorem mapThroughEdit_ids (store : DecorationStore) (edit : TextEdit) (buffer : Buffer) :
    (store.mapThroughEdit edit buffer).1.ids
      = (store.items.entries.filter fun entry => ¬ entry.2.SwallowedBy edit).map (·.1) := by
  obtain ⟨lastId, ⟨entries⟩⟩ := store
  simp only [mapThroughEdit, ids, Table.keys]
  induction entries with
  | nil => rfl
  | cons entry rest ih =>
    cases hcarry : carry edit buffer entry.2 with
    | none =>
      have hswallowed := (carry_eq_none_iff edit buffer entry.2).1 hcarry
      simpa [hcarry, hswallowed] using ih
    | some decoration =>
      have hkept : ¬ entry.2.SwallowedBy edit := by
        rw [← carry_eq_none_iff edit buffer, hcarry]
        exact Option.some_ne_none _
      simpa [hcarry, hkept] using ih

/-- The decorations that an edit deletes are told of one by one. -/
theorem replayAll?_mapThroughEdit (hs : store.Sound buffer) (edit : TextEdit) (after : Buffer) :
    DecorationChange.replayAll? store.ids ((store.mapThroughEdit edit after).2.map .removed)
      = some (store.mapThroughEdit edit after).1.ids := by
  have hdistinct : (store.items.entries.map (·.1)).Nodup := hs.ids_nodup
  rw [mapThroughEdit_removed, mapThroughEdit_ids, DecorationChange.replayAll?_removed]
  · rw [ids, Table.keys, List.filter_map]
    congr 2
    refine List.filter_congr fun entry hentry => ?_
    rw [Function.comp_apply, decide_eq_decide, not_iff_not, List.mem_map]
    constructor
    · rintro ⟨other, hother, heq⟩
      obtain ⟨hmem, hswallowed⟩ := List.mem_filter.1 hother
      obtain rfl := List.inj_on_of_nodup_map hdistinct hmem hentry heq
      exact of_decide_eq_true hswallowed
    · intro hswallowed
      exact ⟨entry, List.mem_filter.2 ⟨hentry, decide_eq_true hswallowed⟩, rfl⟩
  · exact hdistinct.sublist (List.filter_sublist.map _)
  · intro id hid
    exact (List.filter_sublist.map _).subset hid

end DecorationStore

/-- A step of the cursor, with a report of what it has changed. -/
def Cursor.Reports (cursor : Cursor) (step : Cursor × CursorChange) : Prop :=
  step.2 = ⟨step.1.caret != cursor.caret, step.1.selection != cursor.selection⟩

namespace Cursor

theorem become_reports (cursor : Cursor) (next : CursorState) : cursor.Reports (cursor.become next) :=
  rfl

theorem move_reports {segmentation : Segmentation} (cursor : Cursor) (motion : Motion)
    (extend : Bool) (buffer : Buffer) :
    cursor.Reports (cursor.move segmentation motion extend buffer) := by
  simp only [move]
  split
  · exact cursor.become_reports _
  · split
    · exact cursor.become_reports _
    · exact cursor.become_reports _

theorem remember_state (cursor : Cursor) (document : DocumentId) :
    (cursor.remember document).1.state = cursor.state := by
  unfold remember
  split
  · rfl
  · rfl

/-- Remembering a caret leaves the cursor where it is, so the report is of the document entered. -/
theorem swapDocument_reports (cursor : Cursor) (outgoing incoming : DocumentId) (buffer : Buffer) :
    cursor.Reports (cursor.swapDocument (some outgoing) incoming buffer) := by
  have hstate := cursor.remember_state outgoing
  simp only [Reports, caret, selection, ← hstate]
  rfl

end Cursor

/-- Whether an operation is to be told of by events. Subscriptions are not, and events that an
operation makes up tell of nothing. -/
def Operation.isTold : Operation → Bool
  | .subscribe _ _ | .unsubscribe _ | .emit _ => false
  | _ => true

def Operation.opens : Operation → Bool
  | .openDocument _ _ => true
  | _ => false

/-- Whether an event tells of what stands in no difference below: new settings, and another
decoration under the same id. -/
def Operation.tellsMore : Operation → Event → Bool
  | .updateSettings _ => fun event => event.kind == .settings
  | .updateDecoration _ _ => fun
    | .decoration (.updated _) => true
    | _ => false
  | _ => fun _ => false

namespace Editor

def cursorDifferences (before after : Editor) : List Event :=
  (if after.caret ≠ before.caret then [.cursor after.caret] else [])
    ++ if after.cursor.selection ≠ before.cursor.selection then [.selection after.selection] else []

/-- Everything in which another editor differs: text, caret, selection, stored decorations. -/
def differences (before after : Editor) (opened : Bool) (edit : Option TextEdit)
    (changes : List DecorationChange) : List Event :=
  (if opened ∨ after.buffer.version ≠ before.buffer.version then
      [.content after.document after.buffer.version edit]
    else [])
    ++ before.cursorDifferences after ++ changes.map .decoration

/-- Events tell exactly what became of an editor. -/
structure ToldBy (before after : Editor) (opened : Bool) (events : List Event)
    (edit : Option TextEdit) (changes : List DecorationChange) : Prop where
  events : events = before.differences after opened edit changes
  /-- An edit that is told of makes the new text of the old one. -/
  edit : ∀ made ∈ edit, made.Turns before.buffer.content after.buffer.content
  /-- A text that is not told of is still there. -/
  kept : opened = false → after.buffer.version = before.buffer.version →
    after.document = before.document ∧ after.buffer = before.buffer
  decorations : DecorationChange.replayAll? before.decorations.ids changes
    = some after.decorations.ids

/-- An operation makes `after` of an editor and tells so, and perhaps more. -/
def Announces (before after : Editor) (opened : Bool) (tellsMore : Event → Bool) : Prop :=
  ∃ (events : List Event) (edit : Option TextEdit) (changes : List DecorationChange),
    after.bus = before.bus ∧
    after.journal = before.journal ++ events.flatMap before.bus.deliveries ∧
    before.ToldBy after opened (events.filter (!tellsMore ·)) edit changes

variable {editor before after : Editor}

theorem cursorEvents_eq {step : Cursor × CursorChange} (h : before.cursor.Reports step)
    (hafter : after.cursor = step.1) : after.cursorEvents step.2 = before.cursorDifferences after := by
  rw [cursorEvents, h, cursorDifferences, Editor.caret, Editor.caret, hafter]
  simp only [bne_iff_ne]

/-- Where the text stays, caret, selection and decorations are told of. -/
theorem differences_of_buffer (h : after.buffer = before.buffer) (edit : Option TextEdit)
    (changes : List DecorationChange) :
    before.differences after false edit changes
      = before.cursorDifferences after ++ changes.map .decoration := by
  simp [differences, h]

theorem cursorDifferences_self (h : after.cursor = before.cursor) :
    before.cursorDifferences after = [] := by
  simp [cursorDifferences, Editor.caret, h]

theorem announces_self (editor : Editor) (tellsMore : Event → Bool) :
    editor.Announces editor false tellsMore := by
  refine ⟨[], none, [], rfl, (List.append_nil _).symm, ?_, by simp, fun _ _ => ⟨rfl, rfl⟩, rfl⟩
  rw [differences_of_buffer rfl, cursorDifferences_self rfl]
  rfl

theorem announces_of_emitAll {opened : Bool} {tellsMore : Event → Bool} {events : List Event}
    {edit : Option TextEdit} {changes : List DecorationChange} (hbus : after.bus = before.bus)
    (hjournal : after.journal = before.journal)
    (h : before.ToldBy after opened (events.filter (!tellsMore ·)) edit changes) :
    before.Announces (after.emitAll events) opened tellsMore := by
  refine ⟨events, edit, changes, hbus, ?_, h.events, h.edit, h.kept, h.decorations⟩
  rw [emitAll, hbus, hjournal]

theorem filter_tellsNoMore (events : List Event) :
    events.filter (fun event => !(fun _ : Event => false) event) = events :=
  List.filter_eq_self.2 fun _ _ => rfl

/-- A new text is told of before all else. -/
theorem announces_text {opened : Bool} {events : List Event} {step : Cursor × CursorChange}
    (edit : Option TextEdit) (changes : List DecorationChange)
    (hevents : events = .content after.document after.buffer.version edit
      :: after.cursorEvents step.2 ++ changes.map .decoration)
    (hbus : after.bus = before.bus) (hjournal : after.journal = before.journal)
    (hversion : opened ∨ after.buffer.version ≠ before.buffer.version)
    (hedit : ∀ made ∈ edit, made.Turns before.buffer.content after.buffer.content)
    (hstep : before.cursor.Reports step) (hcursor : after.cursor = step.1)
    (hdecorations : DecorationChange.replayAll? before.decorations.ids changes
      = some after.decorations.ids) :
    before.Announces (after.emitAll events) opened fun _ => false := by
  refine announces_of_emitAll hbus hjournal ⟨?_, hedit, ?_, hdecorations⟩
  · rw [filter_tellsNoMore, hevents, differences, if_pos hversion, cursorEvents_eq hstep hcursor]
    rfl
  · intro hopened hsame
    rcases hversion with hopens | hne
    · rw [hopened] at hopens
      cases hopens
    · exact absurd hsame hne

theorem openDocument_announces (editor : Editor) (document : DocumentId) (text : Text) :
    editor.Announces (editor.openDocument document text) true fun _ => false := by
  have hstep := editor.cursor.swapDocument_reports editor.document document (.load text)
  rw [openDocument_eq]
  refine announces_text none _ ?_ rfl rfl (Or.inl rfl) (by simp) hstep rfl
    editor.decorations.replayAll?_clear
  split
  · rfl
  · rfl

theorem setContent_announces (editor : Editor) (text : Text) :
    editor.Announces (editor.setContent text) false fun _ => false := by
  have hids := editor.decorations.rederive_ids (editor.buffer.setContent text)
  have hversion : (editor.buffer.setContent text).version ≠ editor.buffer.version :=
    Nat.succ_ne_self editor.buffer.version
  have hstep : editor.cursor.Reports (editor.cursor.rederive (editor.buffer.setContent text)) :=
    Cursor.become_reports _ _
  rw [setContent_eq]
  exact announces_text none [] (List.append_nil _).symm rfl rfl (Or.inr hversion) (by simp) hstep rfl
    (congrArg some hids.symm)

theorem editOffsets_announces (h : editor.Sound) (start stop : Nat) (text : Text) :
    editor.Announces (editor.editOffsets start stop text) false fun _ => false := by
  have hturns := h.buffer.replace_turns start stop text
  rw [editOffsets_eq]
  dsimp only
  split
  · exact editor.announces_self _
  · rename_i hnoop
    have hversion := replace_version editor.buffer start stop text (by simpa using hnoop)
    refine announces_text (some _) _ rfl rfl rfl (Or.inr ?_) ?_ (Cursor.become_reports _ _) rfl
      (DecorationStore.replayAll?_mapThroughEdit h.decorations _ _)
    · show (editor.buffer.replace start stop text).1.version ≠ editor.buffer.version
      omega
    · intro made hmade
      obtain rfl := Option.some.inj hmade
      exact hturns

theorem Edits.announces (hedits : editor.Edits after) (h : editor.Sound) :
    editor.Announces after false fun _ => false := by
  cases hedits with
  | nothing => exact editor.announces_self _
  | edit start stop text => exact editOffsets_announces h start stop text

theorem announces_beside {events : List Event} {tellsMore : Event → Bool}
    (changes : List DecorationChange) (hbus : after.bus = before.bus)
    (hjournal : after.journal = before.journal) (hdocument : after.document = before.document)
    (hbuffer : after.buffer = before.buffer)
    (hevents : events.filter (!tellsMore ·)
      = before.cursorDifferences after ++ changes.map .decoration)
    (hdecorations : DecorationChange.replayAll? before.decorations.ids changes
      = some after.decorations.ids) :
    before.Announces (after.emitAll events) false tellsMore := by
  have hnone : ∀ made ∈ (none : Option TextEdit),
      made.Turns before.buffer.content after.buffer.content := by simp
  refine announces_of_emitAll hbus hjournal
    ⟨?_, hnone, fun _ _ => ⟨hdocument, hbuffer⟩, hdecorations⟩
  rw [differences_of_buffer hbuffer]
  exact hevents

theorem withCursor_announces {step : Cursor × CursorChange} (h : editor.cursor.Reports step) :
    editor.Announces (editor.withCursor step) false fun _ => false := by
  rw [withCursor_eq]
  refine announces_beside [] rfl rfl rfl rfl ?_ rfl
  rw [filter_tellsNoMore, cursorEvents_eq h rfl]
  exact (List.append_nil _).symm

theorem withDecorations_announces {decorations : DecorationStore} {changes : List DecorationChange}
    (h : DecorationChange.replayAll? editor.decorations.ids changes = some decorations.ids) :
    editor.Announces ({ editor with decorations }.announceDecorations changes) false
      fun _ => false := by
  rw [announceDecorations_eq]
  refine announces_beside changes rfl rfl rfl rfl ?_ h
  have hcursor : editor.cursorDifferences { editor with decorations } = [] :=
    cursorDifferences_self rfl
  rw [filter_tellsNoMore, hcursor]
  rfl

theorem removeDecoration_announces (editor : Editor) (id : DecorationId) :
    editor.Announces (editor.removeDecoration id).1 false fun _ => false := by
  simp only [removeDecoration]
  split
  · rename_i hremoved
    exact withDecorations_announces (DecorationStore.replayAll?_remove hremoved)
  · exact editor.announces_self _

theorem clearDecorations_announces (editor : Editor) :
    editor.Announces editor.clearDecorations.1 false fun _ => false := by
  have hcleared := editor.decorations.replayAll?_clear
  simp only [clearDecorations]
  split
  · rename_i hsize
    rw [if_pos hsize] at hcleared
    exact withDecorations_announces hcleared
  · rename_i hsize
    rw [if_neg hsize] at hcleared
    exact withDecorations_announces hcleared

/-- Where an operation only says what is in no difference. -/
theorem announces_more {events : List Event} {tellsMore : Event → Bool}
    (hbus : after.bus = before.bus) (hjournal : after.journal = before.journal)
    (hdocument : after.document = before.document) (hbuffer : after.buffer = before.buffer)
    (hcursor : after.cursor = before.cursor) (hids : after.decorations.ids = before.decorations.ids)
    (h : ∀ event ∈ events, tellsMore event) :
    before.Announces (after.emitAll events) false tellsMore := by
  have hmore : events.filter (!tellsMore ·) = [] := by
    simpa using h
  refine announces_beside [] hbus hjournal hdocument hbuffer ?_ (congrArg some hids.symm)
  rw [hmore, cursorDifferences_self hcursor]
  rfl

theorem updateDecoration_announces (editor : Editor) (id : DecorationId) (decoration : Decoration) :
    editor.Announces (editor.updateDecoration id decoration).1 false
      (Operation.updateDecoration id decoration).tellsMore := by
  unfold updateDecoration
  split
  · rename_i store hstore
    rw [announceDecorations_eq]
    exact announces_more rfl rfl rfl rfl rfl (DecorationStore.update_ids hstore)
      (by simp [Operation.tellsMore])
  · exact editor.announces_self _

theorem updateSettings_announces (editor : Editor) (change : Json) :
    editor.Announces (editor.updateSettings change).1 false
      (Operation.updateSettings change).tellsMore := by
  unfold updateSettings
  split
  · dsimp only
    split
    · rw [← emitAll_nil (Editor.mk _ _ _ _ _ _ _)]
      exact announces_more rfl rfl rfl rfl rfl rfl (by simp)
    · rw [emit_eq_emitAll]
      exact announces_more rfl rfl rfl rfl rfl rfl (by simp [Operation.tellsMore, Event.kind])
  · exact editor.announces_self _

/-- What one operation tells, whatever its arguments. -/
theorem perform_announces (h : editor.Sound) (operation : Operation) (htold : operation.isTold) :
    editor.Announces (editor.perform operation).1 operation.opens operation.tellsMore := by
  cases operation with
  | setContent text =>
    simp only [perform]
    exact setContent_announces editor text
  | insert place text =>
    simp only [perform]
    exact (editor.insert_edits place text).announces h
  | delete range =>
    simp only [perform]
    exact (editor.delete_edits range).announces h
  | replace range text =>
    simp only [perform]
    exact (editor.replace_edits range text).announces h
  | typeText text =>
    simp only [perform]
    exact (editor.typeText_edits text).announces h
  | deleteBackward =>
    simp only [perform]
    exact (editor.deleteBackward_edits).announces h
  | deleteForward =>
    simp only [perform]
    exact (editor.deleteForward_edits).announces h
  | setCursor position => exact withCursor_announces (Cursor.become_reports _ _)
  | setCursorOffset offset => exact withCursor_announces (Cursor.become_reports _ _)
  | setSelection range => exact withCursor_announces (Cursor.become_reports _ _)
  | clearSelection => exact withCursor_announces (Cursor.become_reports _ _)
  | selectAll => exact withCursor_announces (Cursor.become_reports _ _)
  | moveCursor motion extend =>
    exact withCursor_announces (editor.cursor.move_reports motion extend editor.buffer)
  | addDecoration decoration =>
    exact withDecorations_announces (DecorationStore.replayAll?_add h.decorations decoration)
  | removeDecoration id => exact removeDecoration_announces editor id
  | updateDecoration id decoration => exact updateDecoration_announces editor id decoration
  | clearDecorations => exact clearDecorations_announces editor
  | updateSettings change => exact updateSettings_announces editor change
  | openDocument document text =>
    simp only [perform]
    exact openDocument_announces editor document text
  | subscribe _ _ | unsubscribe _ | emit _ => cases htold
  | decoration _ | setting _ | selectedText | selection | line _ | positionAt _ _ | positionOf _
  | textForSaving => exact editor.announces_self _

/-- Whatever was asked of an editor before: who listens to all kinds of events hears from the next
operation exactly what it makes different. New settings and new contents of a decoration, which are
in no difference, are told of besides. -/
theorem heard_differences (document : DocumentId) (text : Text) (settings : Settings)
    (operations : List Operation) (operation : Operation) (htold : operation.isTold)
    (listener : Listener)
    (hears : ((new document text settings).performAll operations).bus.HearsAll listener) :
    let before := (new document text settings).performAll operations
    let after := (before.perform operation).1
    ∃ (notices : List Notice) (edit : Option TextEdit) (changes : List DecorationChange),
      after.journal = before.journal ++ notices ∧
      before.ToldBy after operation.opens
        ((notices.filterMap (Notice.eventFor? listener)).filter (!operation.tellsMore ·))
        edit changes := by
  have hsound := reachable_sound document text settings operations
  obtain ⟨events, edit, changes, -, hjournal, hevents⟩ := perform_announces hsound operation htold
  refine ⟨_, edit, changes, hjournal, ?_⟩
  rw [hears.filterMap_flatMap]
  exact hevents

/-- A decorated and selected text is deleted: text, caret, selection and decorations are told of. -/
theorem heard_differences_delete :
    let range : TextRange := ⟨⟨0, 0, 0⟩, ⟨0, 2, 2⟩⟩
    let operation := Operation.delete range
    let before := (new "a.txt" ['a', 'b', 'c'] .default).performAll
      (EventKind.all.map (Operation.subscribe · "observer")
        ++ [.addDecoration ⟨.inline, range, "mark", none⟩, .setSelection range])
    let after := (before.perform operation).1
    operation.isTold ∧ before.bus.HearsAll (.host "observer") ∧
    (∃ (notices : List Notice) (edit : Option TextEdit) (changes : List DecorationChange),
      after.journal = before.journal ++ notices ∧
      before.ToldBy after operation.opens
        ((notices.filterMap (Notice.eventFor? (.host "observer"))).filter
          (!operation.tellsMore ·)) edit changes) ∧
    (after.journal.drop before.journal.length).filterMap (Notice.eventFor? (.host "observer"))
      = [.content "a.txt" 1 (some ⟨0, ['a', 'b'], []⟩), .cursor ⟨0, 0, 0⟩, .selection none,
        .decoration (.removed 1)] := by
  intro range operation before after
  have hears : before.bus.HearsAll (.host "observer") := by
    intro kind
    cases kind <;> decide +kernel
  have hheard := heard_differences "a.txt" ['a', 'b', 'c'] .default _ operation rfl _ hears
  exact ⟨rfl, hears, hheard, by decide +kernel⟩

end Editor

structure View where
  document : DocumentId
  version : Nat
  /-- The text, as long as it has not been replaced as a whole. -/
  text : Option Text
  caret : Position
  selection : Option TextRange
  decorations : List DecorationId

namespace View

def hear (view : View) : Event → View
  | .content document version edit =>
    { view with
      document
      version
      text := view.text.bind fun old => edit.map fun made =>
        old.splice made.offset (made.offset + made.deleted.length) made.inserted }
  | .cursor caret => { view with caret }
  | .selection selection => { view with selection }
  | .decoration change =>
    { view with decorations := (change.replay? view.decorations).getD view.decorations }
  | .settings _ => view

def hearAll (view : View) (events : List Event) : View := events.foldl hear view

structure IsOf (view : View) (editor : Editor) : Prop where
  document : view.document = editor.document
  version : view.version = editor.buffer.version
  text : ∀ text ∈ view.text, text = editor.buffer.content
  caret : view.caret = editor.caret
  selection : view.selection = editor.selection
  decorations : view.decorations = editor.decorations.ids

theorem hearAll_append (view : View) (first second : List Event) :
    view.hearAll (first ++ second) = (view.hearAll first).hearAll second :=
  List.foldl_append

theorem hearAll_decorations (view : View) {changes : List DecorationChange}
    {ids : List DecorationId}
    (h : DecorationChange.replayAll? view.decorations changes = some ids) :
    view.hearAll (changes.map .decoration) = { view with decorations := ids } := by
  induction changes generalizing view with
  | nil =>
    obtain rfl := Option.some.inj h
    rfl
  | cons change rest ih =>
    obtain ⟨next, hnext, hrest⟩ := Option.bind_eq_some_iff.1 h
    have hheard : view.hear (.decoration change) = { view with decorations := next } := by
      rw [hear, hnext]
      rfl
    show (view.hear (.decoration change)).hearAll (rest.map .decoration) = _
    rw [hheard]
    exact ih _ hrest

/-- An event that tells of what is in no difference makes none to an observer. -/
theorem hear_tellsMore (view : View) {operation : Operation} {event : Event}
    (h : operation.tellsMore event) : view.hear event = view := by
  cases operation with
  | updateSettings change =>
    cases event with
    | settings changed => rfl
    | content _ _ _ | cursor _ | selection _ | decoration _ => cases h
  | updateDecoration id decoration =>
    cases event with
    | decoration change =>
      cases change with
      | updated id => rfl
      | added _ | removed _ | cleared => cases h
    | content _ _ _ | cursor _ | selection _ | settings _ => cases h
  | _ => cases h

theorem hearAll_filter (view : View) (operation : Operation) (events : List Event) :
    view.hearAll (events.filter (!operation.tellsMore ·)) = view.hearAll events := by
  induction events generalizing view with
  | nil => rfl
  | cons event rest ih =>
    by_cases hmore : operation.tellsMore event
    · rw [List.filter_cons_of_neg (by simp [hmore]), ih]
      exact congrArg (hearAll · rest) (view.hear_tellsMore hmore).symm
    · rw [List.filter_cons_of_pos (by simp [hmore])]
      exact ih _

end View

namespace Editor

variable {editor before after : Editor} {view : View}

/-- The text that is told of is the new one. -/
theorem ToldBy.hearAll_content {opened : Bool} {events : List Event} {edit : Option TextEdit}
    {changes : List DecorationChange} (h : before.ToldBy after opened events edit changes)
    (hview : view.IsOf before) :
    ∃ text, (∀ known ∈ text, known = after.buffer.content) ∧
      view.hearAll (if opened ∨ after.buffer.version ≠ before.buffer.version then
          [.content after.document after.buffer.version edit]
        else [])
        = { view with document := after.document, version := after.buffer.version, text } := by
  split
  · refine ⟨_, ?_, rfl⟩
    intro known hknown
    obtain ⟨old, hold, hnew⟩ := Option.bind_eq_some_iff.1 hknown
    obtain ⟨made, hmade, rfl⟩ := Option.map_eq_some_iff.1 hnew
    rw [hview.text old hold]
    exact (h.edit made hmade).splice_eq
  · rename_i hkept
    obtain ⟨hopened, hversion⟩ := not_or.1 hkept
    obtain ⟨hdocument, hbuffer⟩ := h.kept (Bool.eq_false_iff.2 hopened) (not_not.1 hversion)
    refine ⟨view.text, ?_, ?_⟩
    · rw [hbuffer]
      exact hview.text
    · rw [hdocument, hbuffer, ← hview.document, ← hview.version]
      rfl

theorem hearAll_cursorDifferences (view : View) (hcaret : view.caret = before.caret)
    (hselection : view.selection = before.selection) :
    view.hearAll (before.cursorDifferences after)
      = { view with caret := after.caret, selection := after.selection } := by
  have hmoved : ∀ seen : View, seen.caret = before.caret →
      seen.hearAll (if after.caret ≠ before.caret then [.cursor after.caret] else [])
        = { seen with caret := after.caret } := by
    intro seen hseen
    split
    · rfl
    · rename_i hsame
      rw [not_not.1 hsame, ← hseen]
      rfl
  have hselected : ∀ seen : View, seen.selection = before.selection →
      seen.hearAll (if after.cursor.selection ≠ before.cursor.selection then
        [.selection after.selection] else []) = { seen with selection := after.selection } := by
    intro seen hseen
    split
    · rfl
    · rename_i hsame
      have heq : after.selection = before.selection :=
        congrArg (Option.map Selection.range) (not_not.1 hsame)
      rw [heq, ← hseen]
      rfl
  rw [cursorDifferences, View.hearAll_append, hmoved view hcaret]
  exact hselected _ hselection

/-- One who takes up all that is told of an editor knows it afterwards. -/
theorem ToldBy.isOf {opened : Bool} {events : List Event} {edit : Option TextEdit}
    {changes : List DecorationChange} (h : before.ToldBy after opened events edit changes)
    (hview : view.IsOf before) : (view.hearAll events).IsOf after := by
  obtain ⟨text, htext, hcontent⟩ := h.hearAll_content hview
  have hids := h.decorations
  rw [← hview.decorations] at hids
  rw [h.events, differences, View.hearAll_append, View.hearAll_append, hcontent]
  let seen : View :=
    { view with document := after.document, version := after.buffer.version, text }
  have hcursor : seen.hearAll (before.cursorDifferences after)
      = { seen with caret := after.caret, selection := after.selection } :=
    hearAll_cursorDifferences seen hview.caret hview.selection
  have hdecorations := View.hearAll_decorations
    { seen with caret := after.caret, selection := after.selection } hids
  rw [hcursor, hdecorations]
  exact ⟨rfl, rfl, htext, rfl, rfl, rfl⟩

/-- Who listens to all kinds of events and takes them up knows the editor all along: the text as far as
the edits since it was known are told of, and all else however it came about. -/
theorem performAll_view {listener : Listener} (h : editor.Sound)
    (hears : editor.bus.HearsAll listener) (hview : view.IsOf editor) {operations : List Operation}
    (htold : ∀ operation ∈ operations, operation.isTold) :
    ∃ notices, (editor.performAll operations).journal = editor.journal ++ notices ∧
      (view.hearAll (notices.filterMap (Notice.eventFor? listener))).IsOf
        (editor.performAll operations) := by
  induction operations generalizing editor view with
  | nil => exact ⟨[], (List.append_nil _).symm, hview⟩
  | cons operation rest ih =>
    obtain ⟨events, edit, changes, hbus, hjournal, hevents⟩ :=
      perform_announces h operation (htold operation List.mem_cons_self)
    have hnext := hevents.isOf hview
    rw [View.hearAll_filter] at hnext
    obtain ⟨notices, hnotices, hlast⟩ := ih (perform_sound h operation) (hbus ▸ hears) hnext
      fun other hother => htold other (List.mem_cons_of_mem _ hother)
    refine ⟨events.flatMap editor.bus.deliveries ++ notices, ?_, ?_⟩
    · rw [← List.append_assoc, ← hjournal]
      exact hnotices
    · rw [List.filterMap_append, hears.filterMap_flatMap, View.hearAll_append]
      exact hlast

end Editor

end HeadlessEditor
