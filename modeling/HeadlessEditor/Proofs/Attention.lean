import HeadlessEditor.Proofs.EditorWork
import HeadlessEditor.Proofs.RegistryCourse
import HeadlessEditor.Proofs.SettingsPatches

/-!
What one who is subscribed cannot miss. As long as nobody ends the subscription, whatever else is done to
the editor, by hosts or by extensions, made-up announcements included: either the editor is still the
same in what the events of that kind tell of, or such an event has been delivered.
-/

namespace HeadlessEditor

/-- Whether an operation leaves these subscriptions alone. -/
def Operation.spares (ids : List SubscriptionId) : Operation → Bool
  | .unsubscribe id => id ∉ ids
  | _ => true

inductive Editor.Spares (ids : List SubscriptionId) : Editor → Editor → Prop where
  | done (editor : Editor) : Spares ids editor editor
  | perform {editor after : Editor} {operation : Operation} (spares : operation.spares ids)
      (rest : Spares ids (editor.perform operation).1 after) : Spares ids editor after
  | noteCall {editor after : Editor} {extension : String} {phase : Phase}
      (rest : Spares ids (editor.noteCall extension phase) after) : Spares ids editor after

/-- Editors that agree in what the events of a kind tell of. -/
def Editor.SameIn (editor after : Editor) : EventKind → Prop
  | .content => after.document = editor.document ∧ after.buffer = editor.buffer
  | .cursor => after.caret = editor.caret
  | .selection => after.selection = editor.selection
  | .settings => editor.settings.SameAs after.settings
  | .decoration => after.decorations.ids = editor.decorations.ids

/-- The editor is sound and has the subscriber, whose number nobody else will get. -/
structure Editor.Has (editor : Editor) (who : Subscriber) : Prop where
  sound : editor.Sound
  subscribed : who ∈ editor.bus.subscribers
  known : who.id ≤ editor.bus.lastId

/-- An editor has gone on, and the subscriber has been told if it is not the same. -/
structure Editor.Informs (who : Subscriber) (editor after : Editor) : Prop where
  has : after.Has who
  lastId : editor.bus.lastId ≤ after.bus.lastId
  told : ∃ notices, after.journal = editor.journal ++ notices ∧
    (editor.SameIn after who.kind ∨
      ∃ event, event.kind = who.kind ∧ .delivered who event ∈ notices)

namespace Editor

variable {who : Subscriber} {ids : List SubscriptionId} {editor after : Editor}

theorem SameIn.refl (editor : Editor) (kind : EventKind) : editor.SameIn editor kind := by
  cases kind with
  | content => exact ⟨rfl, rfl⟩
  | cursor | selection | decoration => rfl
  | settings => exact Settings.SameAs.refl editor.settings

theorem SameIn.trans {last : Editor} {kind : EventKind} (h : editor.SameIn after kind)
    (hnext : after.SameIn last kind) : editor.SameIn last kind := by
  cases kind with
  | content => exact ⟨hnext.1.trans h.1, hnext.2.trans h.2⟩
  | cursor | selection | decoration => exact Eq.trans hnext h
  | settings => exact Settings.SameAs.trans h hnext

theorem Informs.refl (h : editor.Has who) : Informs who editor editor :=
  ⟨h, Nat.le_refl _, [], (List.append_nil _).symm, Or.inl (.refl editor who.kind)⟩

theorem Informs.trans {last : Editor} (h : Informs who editor after)
    (hnext : Informs who after last) : Informs who editor last := by
  obtain ⟨first, hfirst, hold⟩ := h.told
  obtain ⟨second, hsecond, hnew⟩ := hnext.told
  refine ⟨hnext.has, Nat.le_trans h.lastId hnext.lastId, first ++ second, ?_, ?_⟩
  · rw [hsecond, hfirst, List.append_assoc]
  · rcases hold with hsame | ⟨event, hkind, hin⟩
    · rcases hnew with hstill | ⟨event, hkind, hin⟩
      · exact Or.inl (hsame.trans hstill)
      · exact Or.inr ⟨event, hkind, List.mem_append_right _ hin⟩
    · exact Or.inr ⟨event, hkind, List.mem_append_left _ hin⟩

theorem mem_deliveries {bus : EventBus} (h : who ∈ bus.subscribers) {events : List Event}
    {event : Event} (hevent : event ∈ events) (hkind : event.kind = who.kind) :
    .delivered who event ∈ events.flatMap bus.deliveries := by
  refine List.mem_flatMap.2 ⟨event, hevent, List.mem_map.2 ⟨who, ?_, rfl⟩⟩
  exact List.mem_filter.2 ⟨h, by simp [hkind]⟩

/-- What differs in anything but the settings is among the differences. -/
theorem sameIn_or_mem_differences {opened : Bool} {events : List Event} {edit : Option TextEdit}
    {changes : List DecorationChange} (h : editor.ToldBy after opened events edit changes)
    {kind : EventKind} (hkind : kind ≠ .settings) :
    editor.SameIn after kind ∨ ∃ event ∈ events, event.kind = kind := by
  rw [h.events]
  cases kind with
  | settings => exact absurd rfl hkind
  | content =>
    by_cases hnew : opened ∨ after.buffer.version ≠ editor.buffer.version
    · exact Or.inr ⟨.content after.document after.buffer.version edit,
        by simp [differences, hnew], rfl⟩
    · obtain ⟨hopened, hversion⟩ := not_or.1 hnew
      exact Or.inl (h.kept (Bool.eq_false_iff.2 hopened) (not_not.1 hversion))
  | cursor =>
    by_cases hcaret : after.caret = editor.caret
    · exact Or.inl hcaret
    · exact Or.inr ⟨.cursor after.caret, by simp [differences, cursorDifferences, hcaret], rfl⟩
  | selection =>
    by_cases hselection : after.cursor.selection = editor.cursor.selection
    · exact Or.inl (congrArg (Option.map Selection.range) hselection)
    · exact Or.inr ⟨.selection after.selection,
        by simp [differences, cursorDifferences, hselection], rfl⟩
  | decoration =>
    cases changes with
    | nil => exact Or.inl (Option.some.inj h.decorations).symm
    | cons change rest => exact Or.inr ⟨.decoration change, by simp [differences], rfl⟩

/-- Settings are patched in silence only where that makes no difference. -/
theorem updateSettings_informs (h : editor.Has who) (change : Json) :
    ∃ notices, (editor.updateSettings change).1.journal = editor.journal ++ notices ∧
      (editor.settings.SameAs (editor.updateSettings change).1.settings ∨
        ∃ changed, who.kind = .settings → .delivered who (.settings changed) ∈ notices) := by
  unfold updateSettings
  split
  · rename_i settings changed hpatch
    dsimp only
    split
    · rename_i hsilent
      rw [List.isEmpty_iff.1 hsilent] at hpatch
      exact ⟨[], (List.append_nil _).symm, Or.inl (Settings.sameAs_of_patch hpatch)⟩
    · refine ⟨_, rfl, Or.inr ⟨changed, fun hkind => ?_⟩⟩
      have hin := mem_deliveries h.subscribed (List.mem_singleton_self (Event.settings changed))
        hkind.symm
      rwa [List.flatMap_singleton] at hin
  · exact ⟨[], (List.append_nil _).symm, Or.inl (.refl _)⟩

theorem perform_settings (editor : Editor) {operation : Operation}
    (h : ∀ change, operation ≠ .updateSettings change) :
    (editor.perform operation).1.settings = editor.settings := by
  cases hreframes : operation.reframes with
  | false => exact (editor.perform_sameFrame hreframes).settings
  | true =>
    cases operation with
    | openDocument document text => exact editor.openDocument_settings document text
    | updateSettings change => exact absurd rfl (h change)
    | _ => cases hreframes

/-- An operation that is to be told of. -/
theorem perform_told_informs (h : editor.Has who) {operation : Operation} (htold : operation.isTold) :
    Informs who editor (editor.perform operation).1 := by
  obtain ⟨events, edit, changes, hbus, hjournal, hevents⟩ :=
    perform_announces h.sound operation htold
  refine ⟨⟨perform_sound h.sound operation, hbus ▸ h.subscribed, hbus ▸ h.known⟩,
    Nat.le_of_eq (congrArg EventBus.lastId hbus.symm), ?_⟩
  by_cases hkind : who.kind = .settings
  · by_cases hpatch : ∃ change, operation = .updateSettings change
    · obtain ⟨change, rfl⟩ := hpatch
      obtain ⟨notices, hnotices, hsame | ⟨changed, hchanged⟩⟩ := updateSettings_informs h change
      · refine ⟨notices, hnotices, Or.inl ?_⟩
        rw [hkind]
        exact hsame
      · exact ⟨notices, hnotices, Or.inr ⟨.settings changed, hkind.symm, hchanged hkind⟩⟩
    · have hsettings := editor.perform_settings fun change heq => hpatch ⟨change, heq⟩
      refine ⟨_, hjournal, Or.inl ?_⟩
      rw [hkind, SameIn, hsettings]
      exact .refl _
  · refine ⟨_, hjournal, ?_⟩
    rcases sameIn_or_mem_differences hevents hkind with hsame | ⟨event, hevent, heq⟩
    · exact Or.inl hsame
    · have hin := (List.mem_filter.1 hevent).1
      exact Or.inr ⟨event, heq, mem_deliveries h.subscribed hin heq⟩

/-- Subscriptions and notes in the journal make no difference to what events tell of. -/
theorem informs_of_bus (h : editor.Has who) {bus : EventBus} (hin : who ∈ bus.subscribers)
    (hlast : editor.bus.lastId ≤ bus.lastId) (notices : List Notice) :
    Informs who editor { editor with bus, journal := editor.journal ++ notices } where
  has := ⟨⟨h.sound.buffer, h.sound.cursor, h.sound.decorations⟩, hin, Nat.le_trans h.known hlast⟩
  lastId := hlast
  told := by
    refine ⟨notices, rfl, Or.inl ?_⟩
    cases who.kind with
    | content => exact ⟨rfl, rfl⟩
    | cursor | selection | decoration => rfl
    | settings => exact Settings.SameAs.refl editor.settings

theorem subscribe_informs (h : editor.Has who) (kind : EventKind) (listener : Listener) :
    Informs who editor (editor.subscribe kind listener).1 := by
  have hin : who ∈ (editor.bus.subscribe kind listener).1.subscribers :=
    List.mem_append_left _ h.subscribed
  have hinforms := informs_of_bus h hin (Nat.le_succ _) []
  rwa [List.append_nil] at hinforms

theorem unsubscribe_informs (h : editor.Has who) {id : SubscriptionId} (hother : id ≠ who.id) :
    Informs who editor (editor.unsubscribe id).1 := by
  have hin : who ∈ (editor.bus.unsubscribe id).1.subscribers :=
    List.mem_filter.2 ⟨h.subscribed, by simpa using hother.symm⟩
  have hinforms := informs_of_bus h hin (Nat.le_refl _) []
  rwa [List.append_nil] at hinforms

/-- Numbers of subscriptions are never taken back. -/
theorem perform_lastId (editor : Editor) (operation : Operation) :
    editor.bus.lastId ≤ (editor.perform operation).1.bus.lastId := by
  cases hsubscribes : operation.subscribes with
  | false => rw [editor.perform_bus hsubscribes]
  | true =>
    cases operation with
    | subscribe kind tag => exact Nat.le_succ _
    | unsubscribe id => exact Nat.le_refl _
    | _ => cases hsubscribes

theorem Spares.lastId_le (hspares : Spares ids editor after) :
    editor.bus.lastId ≤ after.bus.lastId := by
  induction hspares with
  | done editor => exact Nat.le_refl _
  | perform _ _ ih => exact Nat.le_trans (perform_lastId _ _) ih
  | noteCall _ ih => exact ih

/-- Any operation that leaves the subscription alone. -/
theorem perform_informs (h : editor.Has who) (hid : who.id ∈ ids) {operation : Operation}
    (hspares : operation.spares ids) : Informs who editor (editor.perform operation).1 := by
  by_cases htold : operation.isTold
  · exact perform_told_informs h htold
  · cases operation with
    | subscribe kind tag => exact subscribe_informs h kind (.host tag)
    | unsubscribe id =>
      have hother : id ≠ who.id := by
        rintro rfl
        simp [Operation.spares, hid] at hspares
      exact unsubscribe_informs h hother
    | emit event => exact informs_of_bus h h.subscribed (Nat.le_refl _) _
    | _ => exact absurd rfl htold

theorem Spares.informs (hspares : Spares ids editor after) (h : editor.Has who)
    (hid : who.id ∈ ids) : Informs who editor after := by
  induction hspares with
  | done editor => exact .refl h
  | perform spares _ ih =>
    have hstep := perform_informs h hid spares
    exact hstep.trans (ih hstep.has)
  | @noteCall _ _ extension phase _ ih =>
    have hstep := informs_of_bus h h.subscribed (Nat.le_refl _) [.called extension phase]
    exact hstep.trans (ih hstep.has)

theorem spares_performAll (editor : Editor) {operations : List Operation}
    (h : ∀ operation ∈ operations, operation.spares ids) :
    Spares ids editor (editor.performAll operations) := by
  induction operations generalizing editor with
  | nil => exact .done editor
  | cons operation rest ih =>
    refine .perform (h operation List.mem_cons_self) (ih _ ?_)
    intro other hother
    exact h other (List.mem_cons_of_mem _ hother)

/-- Extensions and their registry, if they leave the subscription alone. -/
theorem Course.informs (hcourse : Course (Spares ids) (· ∈ ids) editor after) (h : editor.Has who)
    (hid : who.id ∈ ids) : Informs who editor after := by
  induction hcourse with
  | done editor => exact .refl h
  | work work _ ih =>
    have hstep := work.informs h hid
    exact hstep.trans (ih hstep.has)
  | subscribe kind listener _ ih =>
    have hstep := subscribe_informs h kind listener
    exact hstep.trans (ih hstep.has)
  | @unsubscribe _ _ id other _ ih =>
    have hother : id ≠ who.id := fun heq => other (heq ▸ hid)
    have hstep := unsubscribe_informs h hother
    exact hstep.trans (ih hstep.has)

end Editor

namespace Signals

/-- Whether the session has taken note of an event of a kind; of some kinds it takes none. -/
def noted (signals : Signals) : EventKind → Bool
  | .content => !signals.edits.isEmpty
  | .cursor => signals.cursorMoved
  | .settings => signals.settingsChanged
  | .selection | .decoration => true

theorem noted_add_self (signals : Signals) (event : Event) :
    (signals.add event).noted event.kind := by
  cases event <;> simp [add, noted, Event.kind]

theorem noted_add {signals : Signals} {kind : EventKind} (h : signals.noted kind) (event : Event) :
    (signals.add event).noted kind := by
  cases event <;> cases kind <;> simp_all [add, noted]

/-- What was noted stays so. -/
theorem noted_hear {signals : Signals} {kind : EventKind} (h : signals.noted kind)
    (notices : List Notice) : (signals.hear notices).noted kind := by
  induction notices generalizing signals with
  | nil => exact h
  | cons notice rest ih =>
    cases notice with
    | called extension phase => exact ih h
    | delivered subscriber event =>
      refine ih ?_
      dsimp only
      split
      · exact noted_add h event
      · exact h

/-- A session takes note of what is delivered to it. -/
theorem noted_of_delivered {who : Subscriber} {event : Event} {notices : List Notice}
    (h : .delivered who event ∈ notices) (hsession : who.listener = .session) (signals : Signals) :
    (signals.hear notices).noted event.kind := by
  obtain ⟨earlier, later, rfl⟩ := List.append_of_mem h
  have hstep : ((signals.hear earlier).hear [.delivered who event]).noted event.kind := by
    simpa [hear, hsession] using noted_add_self (signals.hear earlier) event
  rw [← List.singleton_append, hear_append, hear_append]
  exact noted_hear hstep later

end Signals

end HeadlessEditor
