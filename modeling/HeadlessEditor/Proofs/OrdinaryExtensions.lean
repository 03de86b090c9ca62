import HeadlessEditor.Proofs.Hearing
import HeadlessEditor.Proofs.RegistryCourse

/-!
Extensions that work on the editor by ordinary operations alone. Loading, running and unloading them
lets the text go on as operations do, and no extension ends a subscription of the session.
-/

namespace HeadlessEditor

open Editor

variable {id : SubscriptionId} {editor : Editor} {registry : Registry}

/-- Whatever it works on, the command does ordinary operations. -/
def Command.IsOrdinary (command : Command) : Prop :=
  ∀ context, Evolves context.editor (command.run context).1.editor

structure Extension.IsOrdinary (extension : Extension) : Prop where
  commands : ∀ command ∈ extension.commands, command.IsOrdinary
  activate : ∀ editor, Evolves editor (extension.activate editor).1
  dispose : ∀ editor, Evolves editor (extension.dispose editor)

theorem Command.onEditor_isOrdinary {name title : String} {change : Editor → Editor}
    (h : ∀ editor, Evolves editor (change editor)) :
    (Command.onEditor name title change).IsOrdinary :=
  fun context => h context.editor

/-- One ordinary operation. -/
theorem evolves_perform (editor : Editor) {operation : Operation}
    (h : operation.isOrdinary) : Evolves editor (editor.perform operation).1 :=
  .perform h (.refl _)

theorem CoreEditing.motionCommands_isOrdinary (entry : CoreEditing.MotionKey) :
    ∀ command ∈ CoreEditing.motionCommands entry, command.IsOrdinary := by
  have hmotion : ∀ extend, Operation.isOrdinary (.moveCursor entry.motion extend) := fun _ => rfl
  intro command hcommand
  simp only [motionCommands, List.mem_cons, List.not_mem_nil, or_false] at hcommand
  rcases hcommand with rfl | rfl
  · exact Command.onEditor_isOrdinary fun editor => evolves_perform editor (hmotion false)
  · exact Command.onEditor_isOrdinary fun editor => evolves_perform editor (hmotion true)

theorem CoreEditing.editCommands_isOrdinary :
    ∀ command ∈ CoreEditing.editCommands, command.IsOrdinary := by
  have hall : Operation.isOrdinary .selectAll := rfl
  have hclear : Operation.isOrdinary .clearSelection := rfl
  have hbackward : Operation.isOrdinary .deleteBackward := rfl
  have hforward : Operation.isOrdinary .deleteForward := rfl
  have htype : ∀ text, Operation.isOrdinary (.typeText text) := fun _ => rfl
  intro command hcommand
  simp only [editCommands, List.mem_cons, List.not_mem_nil, or_false] at hcommand
  rcases hcommand with rfl | rfl | rfl | rfl | rfl | rfl
  · exact Command.onEditor_isOrdinary fun editor => evolves_perform editor hall
  · exact fun context => evolves_perform context.editor hclear
  · exact Command.onEditor_isOrdinary fun editor => evolves_perform editor hbackward
  · exact Command.onEditor_isOrdinary fun editor => evolves_perform editor hforward
  · exact Command.onEditor_isOrdinary fun editor => evolves_perform editor (htype _)
  · exact Command.onEditor_isOrdinary fun editor => evolves_perform editor (htype _)

/-- The editing commands are. -/
theorem CoreEditing.extension_isOrdinary : CoreEditing.extension.IsOrdinary where
  activate editor := .refl editor
  dispose editor := .refl editor
  commands := by
    intro command hcommand
    rcases List.mem_append.1 hcommand with h | h
    · obtain ⟨entry, -, hentry⟩ := List.mem_flatMap.1 h
      exact motionCommands_isOrdinary entry command hentry
    · exact editCommands_isOrdinary command h

namespace Script

def Action.isOrdinary : Action → Bool
  | .operation op => op.isOrdinary
  | _ => true

def StartStep.isOrdinary : StartStep → Bool
  | .operation op => op.isOrdinary
  | .fail _ => true

def isOrdinary (script : Script) : Bool :=
  script.commands.all (·.actions.all Action.isOrdinary) && script.start.all StartStep.isOrdinary
    && script.stop.all Operation.isOrdinary

theorem Action.run_evolves (name : String) (context : CommandContext) {action : Action}
    (h : action.isOrdinary) : Evolves context.editor (action.run name context).1.editor := by
  have htype : ∀ text, Operation.isOrdinary (.typeText text) := fun _ => rfl
  cases action with
  | operation op => exact evolves_perform context.editor h
  | typeName => exact evolves_perform context.editor (htype _)
  | upperCase =>
    simp only [run]
    split
    · exact .refl _
    · exact evolves_perform context.editor (htype _)
  | increment key | store key value | forget key | fail message => exact .refl _

theorem runActions_evolves (name : String) {actions : List Action} (context : CommandContext)
    (h : ∀ action ∈ actions, action.isOrdinary) :
    Evolves context.editor (runActions name context actions).1.editor := by
  induction actions generalizing context with
  | nil => exact .refl _
  | cons action rest ih =>
    have hstep := Action.run_evolves name context (h action List.mem_cons_self)
    simp only [runActions]
    split
    · rename_i next hrun
      rw [hrun] at hstep
      exact hstep.trans (ih next fun other hother => h other (List.mem_cons_of_mem _ hother))
    · rename_i next error hrun
      rw [hrun] at hstep
      exact hstep

theorem runStart_evolves {steps : List StartStep} (editor : Editor)
    (h : ∀ step ∈ steps, step.isOrdinary) : Evolves editor (runStart editor steps).1 := by
  induction steps generalizing editor with
  | nil => exact .refl _
  | cons step rest ih =>
    cases step with
    | fail message => exact .refl _
    | operation op =>
      have hop : op.isOrdinary := h _ List.mem_cons_self
      have hstep := evolves_perform editor hop
      simp only [runStart]
      split
      · rename_i next answer hrun
        rw [hrun] at hstep
        exact hstep.trans (ih next fun other hother => h other (List.mem_cons_of_mem _ hother))
      · rename_i next error hrun
        rw [hrun] at hstep
        exact hstep

/-- Scripts of ordinary operations are. -/
theorem extension_isOrdinary {script : Script} (h : script.isOrdinary) :
    script.extension.IsOrdinary := by
  simp only [isOrdinary, Bool.and_eq_true, List.all_eq_true] at h
  obtain ⟨⟨hcommands, hstart⟩, hstop⟩ := h
  constructor
  · intro command hcommand context
    obtain ⟨given, hgiven, rfl⟩ := List.mem_map.1 hcommand
    exact runActions_evolves given.id context (hcommands given hgiven)
  · intro editor
    exact .noteCall (runStart_evolves _ hstart)
  · intro editor
    exact .noteCall (evolves_performAll _ hstop)

end Script

namespace Registry

/-- All that is loaded is ordinary, and unloading it leaves the subscription `id` alone. -/
structure IsOrdinary (registry : Registry) (id : SubscriptionId) : Prop where
  extensions : ∀ entry ∈ registry.extensions.entries,
    entry.2.extension.IsOrdinary ∧ id ∉ entry.2.subscriptions
  commands : ∀ entry ∈ registry.commands.entries, entry.2.command.IsOrdinary

end Registry

theorem Extension.IsOrdinary.does {extension : Extension} (h : extension.IsOrdinary) :
    extension.Does Evolves :=
  ⟨h.commands, h.activate, h.dispose⟩

/-- An ordinary registry is one that keeps the subscription and whose extensions do ordinary
operations. -/
theorem Registry.isOrdinary_iff : registry.IsOrdinary id ↔ registry.Does Evolves (· = id) := by
  constructor
  · intro h
    refine ⟨fun entry hentry => ?_, h.commands⟩
    obtain ⟨hextension, hid⟩ := h.extensions entry hentry
    exact ⟨hextension.does, fun other hother heq => hid (heq ▸ hother)⟩
  · intro h
    refine ⟨fun entry hentry => ?_, h.commands⟩
    obtain ⟨hdoes, hother⟩ := h.extensions entry hentry
    exact ⟨⟨hdoes.commands, hdoes.activate, hdoes.dispose⟩, fun hid => hother id hid rfl⟩

theorem unsubscribe_follows (h : editor.Tells id) {other : SubscriptionId} (hother : other ≠ id) :
    Follows id editor (editor.unsubscribe other).1 where
  tells := {
    sound := ⟨h.sound.buffer, h.sound.cursor, h.sound.decorations⟩
    subscribed := List.mem_filter.2 ⟨h.subscribed, by simpa using hother.symm⟩
    known := h.known }
  lastId := Nat.le_refl _
  told := ⟨[], (List.append_nil _).symm, .same rfl rfl rfl⟩

/-- What ordinary extensions and their registry come to. -/
theorem Editor.Course.follows {after : Editor} (h : Course Evolves (· = id) editor after)
    (htells : editor.Tells id) : Follows id editor after := by
  induction h with
  | done editor => exact .refl htells
  | work work _ ih =>
    have hstep := work.follows htells
    exact hstep.trans (ih hstep.tells)
  | subscribe kind listener _ ih =>
    have hstep := subscribe_follows htells kind listener
    exact hstep.trans (ih hstep.tells)
  | unsubscribe other _ ih =>
    have hstep := unsubscribe_follows htells other
    exact hstep.trans (ih hstep.tells)

namespace Registry

theorem empty_isOrdinary (id : SubscriptionId) : empty.IsOrdinary id :=
  isOrdinary_iff.2 empty_does

theorem load_follows (h : editor.Tells id) (hr : registry.IsOrdinary id) {extension : Extension}
    (hordinary : extension.IsOrdinary) :
    Follows id editor (registry.load extension editor).2.1 ∧
    (registry.load extension editor).1.IsOrdinary id := by
  have hstarted := (hordinary.activate editor).follows h
  obtain ⟨hcourse, hafter⟩ := (isOrdinary_iff.1 hr).load hordinary.does
    fun other heq => heq ▸ hstarted.tells.known
  exact ⟨hcourse.follows h, isOrdinary_iff.2 hafter⟩

theorem unload_follows (h : editor.Tells id) (hr : registry.IsOrdinary id) (name : String) :
    Follows id editor (registry.unload name editor).2.1 ∧
    (registry.unload name editor).1.IsOrdinary id := by
  obtain ⟨hcourse, hafter⟩ := (isOrdinary_iff.1 hr).unload name editor
  exact ⟨hcourse.follows h, isOrdinary_iff.2 hafter⟩

theorem execute_follows (h : editor.Tells id) (hr : registry.IsOrdinary id) (name : String) :
    Follows id editor (registry.execute name editor).2.1 ∧
    (registry.execute name editor).1.IsOrdinary id := by
  obtain ⟨hcourse, hafter⟩ := (isOrdinary_iff.1 hr).execute name editor
  exact ⟨hcourse.follows h, isOrdinary_iff.2 hafter⟩

theorem dispatch_follows (h : editor.Tells id) (hr : registry.IsOrdinary id) (chord : KeyChord) :
    Follows id editor (registry.dispatch chord editor).2.1 ∧
    (registry.dispatch chord editor).1.IsOrdinary id := by
  obtain ⟨hcourse, hafter⟩ := (isOrdinary_iff.1 hr).dispatch chord editor
  exact ⟨hcourse.follows h, isOrdinary_iff.2 hafter⟩

theorem provided_isOrdinary (hr : registry.IsOrdinary id) : registry.provided.1.IsOrdinary id :=
  isOrdinary_iff.2 (isOrdinary_iff.1 hr).provided

end Registry

end HeadlessEditor
