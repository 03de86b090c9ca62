import HeadlessEditor.Proofs.Loading

/-!
What a registry does to an editor, whatever its extensions do. Commands, starts and stops are given the
editor to work on; the registry itself only begins and ends subscriptions of extensions. So all that
its calls come to is a course of such steps, in which certain subscriptions are kept by everybody.
-/

namespace HeadlessEditor

inductive Editor.Course (does : Editor → Editor → Prop) (kept : SubscriptionId → Prop) :
    Editor → Editor → Prop where
  | done (editor : Editor) : Course does kept editor editor
  | work {editor middle after : Editor} (work : does editor middle)
      (rest : Course does kept middle after) : Course does kept editor after
  | subscribe {editor after : Editor} (kind : EventKind) (listener : Listener)
      (rest : Course does kept (editor.subscribe kind listener).1 after) :
      Course does kept editor after
  | unsubscribe {editor after : Editor} {id : SubscriptionId} (other : ¬ kept id)
      (rest : Course does kept (editor.unsubscribe id).1 after) : Course does kept editor after

variable {does : Editor → Editor → Prop} {kept : SubscriptionId → Prop} {editor after : Editor}

def Command.Does (command : Command) (does : Editor → Editor → Prop) : Prop :=
  ∀ context, does context.editor (command.run context).1.editor

structure Extension.Does (extension : Extension) (does : Editor → Editor → Prop) : Prop where
  commands : ∀ command ∈ extension.commands, command.Does does
  activate : ∀ editor, does editor (extension.activate editor).1
  dispose : ∀ editor, does editor (extension.dispose editor)

/-- All that the loaded extensions do to an editor, and none of their subscriptions is one of those
that are kept for others. -/
structure Registry.Does (registry : Registry) (does : Editor → Editor → Prop)
    (kept : SubscriptionId → Prop) : Prop where
  extensions : ∀ entry ∈ registry.extensions.entries,
    entry.2.extension.Does does ∧ ∀ id ∈ entry.2.subscriptions, ¬ kept id
  commands : ∀ entry ∈ registry.commands.entries, entry.2.command.Does does

namespace Editor

theorem Course.one (h : does editor after) : Course does kept editor after := .work h (.done after)

theorem Course.trans {last : Editor} (h : Course does kept editor after)
    (hnext : Course does kept after last) : Course does kept editor last := by
  induction h with
  | done => exact hnext
  | work work _ ih => exact .work work (ih hnext)
  | subscribe kind listener _ ih => exact .subscribe kind listener (ih hnext)
  | unsubscribe other _ ih => exact .unsubscribe other (ih hnext)

end Editor

namespace Registry

theorem subscribeAll_course (editor : Editor) (listener : Listener) (kinds : List EventKind) :
    Editor.Course does kept editor (subscribeAll editor listener kinds).1 ∧
    ∀ id ∈ (subscribeAll editor listener kinds).2, editor.bus.lastId < id := by
  induction kinds generalizing editor with
  | nil => exact ⟨.done editor, by simp [subscribeAll]⟩
  | cons kind rest ih =>
    obtain ⟨hrest, hlater⟩ := ih (editor.subscribe kind listener).1
    refine ⟨.subscribe kind listener hrest, ?_⟩
    intro id hid
    rcases List.mem_cons.1 hid with rfl | hid
    · exact Nat.lt_succ_self _
    · exact Nat.lt_trans (Nat.lt_succ_self _) (hlater id hid)

theorem unsubscribeAll_course (editor : Editor) {ids : List SubscriptionId}
    (h : ∀ id ∈ ids, ¬ kept id) : Editor.Course does kept editor (unsubscribeAll editor ids) := by
  induction ids generalizing editor with
  | nil => exact .done editor
  | cons id rest ih =>
    refine .unsubscribe (h id List.mem_cons_self) (ih _ ?_)
    intro other hother
    exact h other (List.mem_cons_of_mem _ hother)

theorem mem_addCommands {commands : Table String RegisteredCommand} {owner : String}
    {brought : List Command} {entry : String × RegisteredCommand}
    (h : entry ∈ (addCommands commands owner brought).entries) :
    entry.2.command ∈ brought ∨ entry ∈ commands.entries := by
  induction brought generalizing commands with
  | nil => exact Or.inr h
  | cons command rest ih =>
    rcases ih h with hrest | hold
    · exact Or.inl (List.mem_cons_of_mem _ hrest)
    · rcases Table.mem_insertEntry hold with rfl | hold
      · exact Or.inl List.mem_cons_self
      · exact Or.inr hold

theorem mem_removeCommands {commands : Table String RegisteredCommand} {ids : List String}
    {entry : String × RegisteredCommand} (h : entry ∈ (removeCommands commands ids).entries) :
    entry ∈ commands.entries := by
  rw [entries_removeCommands] at h
  exact (List.mem_filter.1 h).1

variable {registry : Registry} {extension : Extension}

theorem empty_does : empty.Does does kept where
  extensions := by simp [empty, Table.empty]
  commands := by simp [empty, Table.empty]

/-- What an extension enters does what the extension does. -/
theorem Does.entered (h : registry.Does does kept) (hextension : extension.Does does)
    {subscriptions : List SubscriptionId} (hother : ∀ id ∈ subscriptions, ¬ kept id) :
    (registry.entered extension subscriptions).Does does kept where
  extensions := by
    intro entry hentry
    rcases Table.mem_insertEntry hentry with rfl | hold
    · exact ⟨hextension, hother⟩
    · exact h.extensions entry hold
  commands := by
    intro entry hentry
    rcases mem_addCommands hentry with hnew | hold
    · exact hextension.commands _ hnew
    · exact h.commands entry hold

theorem Does.takenBack (h : registry.Does does kept) (hextension : extension.Does does) :
    (registry.takenBack extension).Does does kept where
  extensions := h.extensions
  commands := by
    intro entry hentry
    have htried := h.entered hextension (List.forall_mem_nil _)
    exact htried.commands entry (mem_removeCommands hentry)

/-- A load; the subscriptions that it begins are new ones. -/
theorem Does.load (h : registry.Does does kept) (hextension : extension.Does does)
    (known : ∀ id, kept id → id ≤ (extension.activate editor).1.bus.lastId) :
    Editor.Course does kept editor (registry.load extension editor).2.1 ∧
    (registry.load extension editor).1.Does does kept := by
  have hactivate := hextension.activate editor
  have hload := load_loadsTo registry extension editor
  generalize registry.load extension editor = outcome at hload ⊢
  cases hload with
  | refused admits => exact ⟨.done editor, h⟩
  | failed admits activate =>
    rw [activate] at hactivate
    exact ⟨.work hactivate (.one (hextension.dispose _)), h.takenBack hextension⟩
  | @succeeded started admits activate =>
    rw [activate] at hactivate known
    obtain ⟨hsubscribed, hnew⟩ :=
      subscribeAll_course started (.extension extension.name) extension.eventKinds
    refine ⟨.work hactivate hsubscribed, h.entered hextension fun id hid hkept => ?_⟩
    exact Nat.not_lt.2 (known id hkept) (hnew id hid)

theorem Does.unload (h : registry.Does does kept) (name : String) (editor : Editor) :
    Editor.Course does kept editor (registry.unload name editor).2.1 ∧
    (registry.unload name editor).1.Does does kept := by
  cases hloaded : registry.extensions.get? name with
  | none =>
    rw [unload_of_none hloaded]
    exact ⟨.done editor, h⟩
  | some loaded =>
    rw [unload_of_get? hloaded]
    obtain ⟨hdoes, hother⟩ := h.extensions _ (Table.mem_of_get? hloaded)
    refine ⟨(unsubscribeAll_course editor hother).trans (.one (hdoes.dispose _)), ?_, ?_⟩
    · intro entry hentry
      exact h.extensions entry (List.mem_filter.1 hentry).1
    · intro entry hentry
      exact h.commands entry (mem_removeCommands hentry)

theorem Does.execute (h : registry.Does does kept) (id : String) (editor : Editor) :
    Editor.Course does kept editor (registry.execute id editor).2.1 ∧
    (registry.execute id editor).1.Does does kept := by
  constructor
  · simp only [Registry.execute]
    split
    · exact .done editor
    · rename_i registered hregistered
      have hcommand := h.commands _ (Table.mem_of_get? hregistered)
      split
      · exact .one (hcommand ⟨editor, (registry.storages.get? registered.owner).getD .empty,
          registered.owner⟩)
      · exact .done editor
  · obtain ⟨storages, hafter⟩ := registry.execute_storages id editor
    rw [hafter]
    exact ⟨h.extensions, h.commands⟩

theorem Does.dispatch (h : registry.Does does kept) (chord : KeyChord) (editor : Editor) :
    Editor.Course does kept editor (registry.dispatch chord editor).2.1 ∧
    (registry.dispatch chord editor).1.Does does kept := by
  unfold Registry.dispatch
  split
  · exact ⟨.done editor, h⟩
  · exact h.execute _ editor

/-- Asking for decorations counts the asking and nothing else. -/
theorem Does.provided (h : registry.Does does kept) : registry.provided.1.Does does kept where
  commands := h.commands
  extensions := by
    intro entry hentry
    obtain ⟨old, hold, rfl⟩ := List.mem_map.1 hentry
    have hentry := h.extensions old hold
    dsimp only
    split
    · exact hentry
    · exact hentry

end Registry

end HeadlessEditor
