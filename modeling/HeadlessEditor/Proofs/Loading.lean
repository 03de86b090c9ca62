import HeadlessEditor.Extension.Registry
import Mathlib.Data.List.Nodup

/-!
What loading and unloading come to. A load is refused before anything is entered, or it fails when the
extension is set to work, or it succeeds. Whatever a failed load has entered is taken out again, the
last binding first, so that every chord gets back the binding that it had.
-/

namespace HeadlessEditor.Registry

variable {registry : Registry} {extension : Extension} {editor : Editor}

theorem duplicate?_eq_none_iff {inUse : String → Bool} {seen : List String}
    {brought : List Command} :
    duplicate? inUse seen brought = none ↔
      (∀ command ∈ brought, inUse command.id = false ∧ command.id ∉ seen) ∧
      (brought.map (·.id)).Nodup := by
  induction brought generalizing seen with
  | nil => simp [duplicate?]
  | cons command rest ih =>
    simp only [duplicate?, List.map_cons, List.nodup_cons, List.mem_map, List.forall_mem_cons]
    split
    · rename_i hused
      simp only [Bool.or_eq_true, List.contains_iff_mem] at hused
      refine iff_of_false (by simp) ?_
      rintro ⟨⟨⟨hfree, hnew⟩, -⟩, -⟩
      rcases hused with hused | hseen
      · rw [hfree] at hused
        cases hused
      · exact hnew hseen
    · rename_i hunused
      simp only [Bool.or_eq_true, List.contains_iff_mem, not_or, Bool.not_eq_true] at hunused
      rw [ih]
      constructor
      · rintro ⟨hrest, hdistinct⟩
        refine ⟨⟨hunused, fun other hother => ?_⟩, ?_, hdistinct⟩
        · exact ⟨(hrest other hother).1, fun hseen => (hrest other hother).2 (.tail _ hseen)⟩
        · rintro ⟨other, hother, heq⟩
          exact (hrest other hother).2 (heq ▸ .head _)
      · rintro ⟨⟨-, hrest⟩, hfirst, hdistinct⟩
        refine ⟨fun other hother => ⟨(hrest other hother).1, fun hin => ?_⟩, hdistinct⟩
        rcases List.mem_cons.1 hin with heq | hseen
        · exact hfirst ⟨other, hother, heq⟩
        · exact (hrest other hother).2 hseen

def commandEntries (owner : String) (brought : List Command) :
    List (String × RegisteredCommand) :=
  brought.map fun command => (command.id, ⟨command, owner⟩)

@[simp] theorem keys_commandEntries (owner : String) (brought : List Command) :
    (commandEntries owner brought).map (·.1) = brought.map (·.id) := by
  simp [commandEntries, Function.comp_def]

/-- New commands go to the end, in their order. -/
theorem entries_addCommands {commands : Table String RegisteredCommand} {brought : List Command}
    (hnew : ∀ command ∈ brought, command.id ∉ commands.keys)
    (hdistinct : (brought.map (·.id)).Nodup) (owner : String) :
    (addCommands commands owner brought).entries
      = commands.entries ++ commandEntries owner brought := by
  induction brought generalizing commands with
  | nil => simp [addCommands, commandEntries]
  | cons command rest ih =>
    obtain ⟨hfirst, hdistinct⟩ := List.nodup_cons.1 hdistinct
    have hcommand := hnew command List.mem_cons_self
    have hrest : ∀ other ∈ rest, other.id ∉ (commands.insert command.id ⟨command, owner⟩).keys := by
      intro other hother hin
      rw [Table.keys_insert_of_notMem hcommand] at hin
      rcases List.mem_append.1 hin with hin | hin
      · exact hnew other (List.mem_cons_of_mem _ hother) hin
      · exact hfirst (List.mem_map.2 ⟨other, hother, List.mem_singleton.1 hin⟩)
    rw [addCommands, ih hrest hdistinct, Table.entries_insert_of_notMem hcommand, List.append_assoc]
    rfl

theorem entries_removeCommands (commands : Table String RegisteredCommand) (ids : List String) :
    (removeCommands commands ids).entries = commands.entries.filter (·.1 ∉ ids) := by
  induction ids generalizing commands with
  | nil => simp [removeCommands]
  | cons id rest ih =>
    rw [removeCommands, ih, Table.erase, List.filter_filter]
    congr 1
    funext entry
    simp [not_or, Bool.and_comm]

/-- Taking out what was entered leaves the commands as they were. -/
theorem removeCommands_addCommands {commands : Table String RegisteredCommand}
    {brought : List Command} (hnew : ∀ command ∈ brought, command.id ∉ commands.keys)
    (hdistinct : (brought.map (·.id)).Nodup) (owner : String) :
    removeCommands (addCommands commands owner brought) (brought.map (·.id)) = commands := by
  have hkept : commands.entries.filter (·.1 ∉ brought.map (·.id)) = commands.entries := by
    rw [List.filter_eq_self]
    intro entry hentry
    rw [decide_eq_true_eq, List.mem_map]
    rintro ⟨command, hcommand, heq⟩
    exact hnew command hcommand (heq ▸ List.mem_map_of_mem hentry)
  have hgone : (commandEntries owner brought).filter (·.1 ∉ brought.map (·.id)) = [] := by
    rw [List.filter_eq_nil_iff]
    intro entry hentry
    rw [decide_eq_true_eq, not_not, ← keys_commandEntries owner]
    exact List.mem_map_of_mem hentry
  have hentries := entries_removeCommands (addCommands commands owner brought) (brought.map (·.id))
  rw [entries_addCommands hnew hdistinct, List.filter_append, hkept, hgone, List.append_nil]
    at hentries
  obtain ⟨entries⟩ := commands
  exact congrArg Table.mk hentries

/-- However often a list of keys binds a chord, and whoever had it before. -/
theorem restoreKeys_bindKeys (keymap : Keymap) (owner : String)
    (displaced : List (KeyChord × Option Binding)) (keys : List (KeyChord × String)) :
    restoreKeys (bindKeys keymap owner displaced keys).1 (bindKeys keymap owner displaced keys).2
      = restoreKeys keymap displaced := by
  -- What a key has displaced is restored after all that later keys have displaced.
  induction keys generalizing keymap displaced with
  | nil => rfl
  | cons entry rest ih =>
    obtain ⟨chord, command⟩ := entry
    rw [bindKeys, ih]
    cases hbefore : keymap.resolve? chord with
    | none =>
      have hnew := Table.get?_eq_none_iff.1 hbefore
      rw [restoreKeys, Keymap.unbind, Keymap.bind, Table.erase_insert_of_notMem hnew]
    | some binding =>
      rw [restoreKeys, Keymap.bind, Keymap.bind, Table.insert_insert_of_get? hbefore]

structure Admits (registry : Registry) (extension : Extension) : Prop where
  unloaded : registry.isLoaded extension.name = false
  unused : ∀ command ∈ extension.commands, command.id ∉ registry.commands.keys
  distinct : (extension.commands.map (·.id)).Nodup

/-- The registry with all that the extension brings. -/
def entered (registry : Registry) (extension : Extension) (subscriptions : List SubscriptionId) :
    Registry where
  extensions := registry.extensions.insert extension.name ⟨extension, subscriptions, 0⟩
  commands := addCommands registry.commands extension.name extension.commands
  keymap := (bindKeys registry.keymap extension.name [] extension.keys).1
  storages :=
    if registry.storages.contains extension.name then registry.storages
    else registry.storages.insert extension.name .empty

/-- The registry after what the extension brings was entered and taken out again. -/
def takenBack (registry : Registry) (extension : Extension) : Registry :=
  let tried := registry.entered extension []
  { registry with
    commands := removeCommands tried.commands (extension.commands.map (·.id))
    keymap := restoreKeys tried.keymap
      (bindKeys registry.keymap extension.name [] extension.keys).2
    storages := tried.storages.erase extension.name }

inductive LoadsTo (registry : Registry) (extension : Extension) (editor : Editor) :
    Registry × Editor × Except ExtensionError Unit → Prop where
  | refused {error : ExtensionError} (admits : ¬ registry.Admits extension) :
    LoadsTo registry extension editor (registry, editor, .error error)
  | failed {started : Editor} {error : ExtensionError} (admits : registry.Admits extension)
      (activate : extension.activate editor = (started, .error error)) :
    LoadsTo registry extension editor (registry.takenBack extension, extension.dispose started,
      .error (.activationFailed extension.name error.message))
  | succeeded {started : Editor} (admits : registry.Admits extension)
      (activate : extension.activate editor = (started, .ok ())) :
    LoadsTo registry extension editor
      (registry.entered extension
          (subscribeAll started (.extension extension.name) extension.eventKinds).2,
        (subscribeAll started (.extension extension.name) extension.eventKinds).1, .ok ())

theorem load_loadsTo (registry : Registry) (extension : Extension) (editor : Editor) :
    LoadsTo registry extension editor (registry.load extension editor) := by
  simp only [load]
  split
  · rename_i hloaded
    refine .refused fun hadmits => ?_
    rw [hadmits.unloaded] at hloaded
    cases hloaded
  · rename_i hunloaded
    split
    · rename_i id hduplicate
      refine .refused fun hadmits => ?_
      have hnone : duplicate? registry.commands.contains [] extension.commands = none :=
        duplicate?_eq_none_iff.2 ⟨fun command hcommand =>
          ⟨Table.contains_eq_false_iff.2 (hadmits.unused command hcommand), List.not_mem_nil⟩,
          hadmits.distinct⟩
      rw [hnone] at hduplicate
      cases hduplicate
    · rename_i hnone
      obtain ⟨hunused, hdistinct⟩ := duplicate?_eq_none_iff.1 hnone
      have hadmits : registry.Admits extension :=
        ⟨Bool.not_eq_true _ ▸ hunloaded,
          fun command hcommand => Table.contains_eq_false_iff.1 (hunused command hcommand).1, hdistinct⟩
      split
      · rename_i started error hactivate
        exact .failed hadmits hactivate
      · rename_i started hactivate
        exact .succeeded hadmits hactivate

theorem load_of_not_admits (h : ¬ registry.Admits extension) (editor : Editor) :
    ∃ error, registry.load extension editor = (registry, editor, .error error) := by
  have hload := load_loadsTo registry extension editor
  generalize registry.load extension editor = outcome at hload ⊢
  cases hload with
  | refused admits => exact ⟨_, rfl⟩
  | failed admits activate => exact absurd admits h
  | succeeded admits activate => exact absurd admits h

theorem load_of_error (h : registry.Admits extension) {started : Editor} {error : ExtensionError}
    (hactivate : extension.activate editor = (started, .error error)) :
    registry.load extension editor = (registry.takenBack extension, extension.dispose started,
      .error (.activationFailed extension.name error.message)) := by
  have hload := load_loadsTo registry extension editor
  generalize registry.load extension editor = outcome at hload ⊢
  cases hload with
  | refused admits => exact absurd h admits
  | failed admits activate =>
    rw [hactivate] at activate
    cases activate
    rfl
  | succeeded admits activate =>
    rw [hactivate] at activate
    cases activate

theorem load_of_ok (h : registry.Admits extension) {started : Editor}
    (hactivate : extension.activate editor = (started, .ok ())) :
    registry.load extension editor =
      (registry.entered extension
          (subscribeAll started (.extension extension.name) extension.eventKinds).2,
        (subscribeAll started (.extension extension.name) extension.eventKinds).1, .ok ()) := by
  have hload := load_loadsTo registry extension editor
  generalize registry.load extension editor = outcome at hload ⊢
  cases hload with
  | refused admits => exact absurd h admits
  | failed admits activate =>
    rw [hactivate] at activate
    cases activate
  | succeeded admits activate =>
    rw [hactivate] at activate
    cases activate
    rfl

/-- Nothing is left of what was taken back, as long as the name had no storage before. -/
theorem takenBack_eq (h : registry.Admits extension)
    (hstorage : extension.name ∉ registry.storages.keys) :
    registry.takenBack extension = registry := by
  have hcommands := removeCommands_addCommands h.unused h.distinct extension.name
  have hkeymap := restoreKeys_bindKeys registry.keymap extension.name [] extension.keys
  have hstorages := Table.erase_insert_of_notMem hstorage Storage.empty
  obtain ⟨extensions, commands, keymap, storages⟩ := registry
  simp only [takenBack, entered, Table.contains_eq_false_iff.2 hstorage, Bool.false_eq_true, if_false,
    mk.injEq, true_and]
  exact ⟨hcommands, hkeymap, hstorages⟩

def without (registry : Registry) (name : String) (loaded : LoadedExtension) : Registry where
  extensions := registry.extensions.erase name
  commands := removeCommands registry.commands (loaded.extension.commands.map (·.id))
  keymap := registry.keymap.removeOwner name
  storages := registry.storages.erase name

theorem unload_of_get? {name : String} {loaded : LoadedExtension}
    (h : registry.extensions.get? name = some loaded) (editor : Editor) :
    registry.unload name editor = (registry.without name loaded,
      loaded.extension.dispose (unsubscribeAll editor loaded.subscriptions), .ok ()) := by
  rw [unload, h]
  rfl

theorem unload_of_none {name : String} (h : registry.extensions.get? name = none)
    (editor : Editor) :
    registry.unload name editor = (registry, editor, .error (.notLoaded name)) := by
  rw [unload, h]

/-- A command changes nothing but what its owner has stored. -/
theorem execute_storages (registry : Registry) (id : String) (editor : Editor) :
    ∃ storages, (registry.execute id editor).1 = { registry with storages } := by
  simp only [execute]
  split
  · exact ⟨registry.storages, rfl⟩
  · split
    · exact ⟨_, rfl⟩
    · exact ⟨_, rfl⟩

theorem dispatch_storages (registry : Registry) (chord : KeyChord) (editor : Editor) :
    ∃ storages, (registry.dispatch chord editor).1 = { registry with storages } := by
  unfold dispatch
  split
  · exact ⟨registry.storages, rfl⟩
  · exact registry.execute_storages _ editor

end HeadlessEditor.Registry
