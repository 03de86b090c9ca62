import HeadlessEditor.Proofs.Loading
import Mathlib.Data.List.Lattice
import Mathlib.Data.List.Pairwise

/-!
Who owns what. Whatever is done at a registry, its tables hold what the loaded extensions brought and
nothing else: their commands, bindings of their chords, a storage for each of them. It is the ground on
which a failed load can be taken back, and an unload finds all that there is to take out.
-/

namespace HeadlessEditor

/-- A test that blocks pass or fail as a whole. -/
theorem filter_flatMap_blocks {α β : Type} {blocks : List α} {block : α → List β}
    {test : β → Bool} {keep : α → Bool}
    (h : ∀ one ∈ blocks, ∀ element ∈ block one, test element = keep one) :
    (blocks.flatMap block).filter test = (blocks.filter keep).flatMap block := by
  induction blocks with
  | nil => rfl
  | cons one rest ih =>
    have hrest := ih fun other hother => h other (List.mem_cons_of_mem _ hother)
    have hone := h one List.mem_cons_self
    rw [List.flatMap_cons, List.filter_append, hrest]
    cases hkeep : keep one with
    | true =>
      rw [List.filter_cons_of_pos hkeep, List.flatMap_cons, List.filter_eq_self.2]
      exact fun element helement => (hone element helement).trans hkeep
    | false =>
      rw [List.filter_cons_of_neg (by simp [hkeep]), List.filter_eq_nil_iff.2, List.nil_append]
      exact fun element helement => by simp [hone element helement, hkeep]

/-- With all keys distinct, the elements of one block can be told by their keys. -/
theorem filter_flatMap_of_nodup {α β γ : Type} [DecidableEq γ] {blocks : List α}
    {block : α → List β} {key : β → γ} (h : ((blocks.flatMap block).map key).Nodup) {one : α}
    (hone : one ∈ blocks) {keep : α → Bool} (hdrop : keep one = false)
    (hkeep : ∀ other ∈ blocks, other ≠ one → keep other) :
    (blocks.flatMap block).filter (key · ∉ (block one).map key)
      = (blocks.filter keep).flatMap block := by
  rw [List.map_flatMap, List.nodup_flatMap] at h
  have : Std.Symm (Function.onFun List.Disjoint fun other => (block other).map key) :=
    ⟨fun _ _ hdisjoint => List.Disjoint.symm hdisjoint⟩
  refine filter_flatMap_blocks fun other hother element helement => ?_
  have hkey := List.mem_map_of_mem (f := key) helement
  by_cases hsame : other = one
  · subst hsame
    rw [hdrop, decide_eq_false_iff_not, not_not]
    exact hkey
  · rw [hkeep other hother hsame]
    exact decide_eq_true (h.2.forall hother hone hsame hkey)

namespace Registry

variable {registry : Registry} {extension : Extension}

/-- All that stands in the tables belongs to a loaded extension, which brought it. -/
structure Owned (registry : Registry) : Prop where
  names : registry.extensions.keys.Nodup
  named : ∀ entry ∈ registry.extensions.entries, entry.2.extension.name = entry.1
  /-- The commands are those of the loaded extensions, under the names of these. -/
  commands : registry.commands.entries = registry.extensions.entries.flatMap fun entry =>
    commandEntries entry.1 entry.2.extension.commands
  distinct : registry.commands.keys.Nodup
  chords : registry.keymap.bindings.keys.Nodup
  bindings : ∀ entry ∈ registry.keymap.bindings.entries, ∃ loaded,
    (entry.2.owner, loaded) ∈ registry.extensions.entries ∧
    (entry.1, entry.2.command) ∈ loaded.extension.keys
  storages : ∀ name, name ∈ registry.storages.keys ↔ name ∈ registry.extensions.keys

theorem empty_owned : empty.Owned where
  names := List.nodup_nil
  named := by simp [empty, Table.empty]
  commands := rfl
  distinct := List.nodup_nil
  chords := List.nodup_nil
  bindings := by simp [empty, Keymap.empty, Table.empty]
  storages _ := Iff.rfl

theorem mem_bindKeys {keymap : Keymap} {owner : String}
    {displaced : List (KeyChord × Option Binding)} {keys : List (KeyChord × String)}
    {entry : KeyChord × Binding}
    (h : entry ∈ (bindKeys keymap owner displaced keys).1.bindings.entries) :
    entry ∈ keymap.bindings.entries ∨ entry.2.owner = owner ∧ (entry.1, entry.2.command) ∈ keys := by
  induction keys generalizing keymap displaced with
  | nil => exact Or.inl h
  | cons key rest ih =>
    obtain ⟨chord, command⟩ := key
    rcases ih h with hin | ⟨howner, hin⟩
    · rcases Table.mem_insertEntry hin with rfl | hin
      · exact Or.inr ⟨rfl, List.mem_cons_self⟩
      · exact Or.inl hin
    · exact Or.inr ⟨howner, List.mem_cons_of_mem _ hin⟩

theorem nodup_bindKeys {keymap : Keymap} (h : keymap.bindings.keys.Nodup) (owner : String)
    (displaced : List (KeyChord × Option Binding)) (keys : List (KeyChord × String)) :
    (bindKeys keymap owner displaced keys).1.bindings.keys.Nodup := by
  induction keys generalizing keymap displaced with
  | nil => exact h
  | cons key rest ih => exact ih (Table.nodup_keys_insert h _ _) _

/-- What is entered under a new name with new commands is owned. -/
theorem Owned.entered (h : registry.Owned) (hadmits : registry.Admits extension)
    (subscriptions : List SubscriptionId) : (registry.entered extension subscriptions).Owned := by
  have hname : extension.name ∉ registry.extensions.keys :=
    Table.contains_eq_false_iff.1 hadmits.unloaded
  have hextensions := Table.entries_insert_of_notMem hname ⟨extension, subscriptions, 0⟩
  have hkeys := Table.keys_insert_of_notMem hname ⟨extension, subscriptions, 0⟩
  have hcommands := entries_addCommands hadmits.unused hadmits.distinct extension.name
  have hstorage : extension.name ∉ registry.storages.keys := fun hin =>
    hname ((h.storages _).1 hin)
  constructor
  · exact Table.nodup_keys_insert h.names _ _
  · intro entry hentry
    rcases Table.mem_insertEntry hentry with rfl | hold
    · rfl
    · exact h.named entry hold
  · simp only [Registry.entered, hcommands, hextensions, List.flatMap_append, h.commands]
    simp
  · simp only [Registry.entered, Table.keys, hcommands, List.map_append, keys_commandEntries]
    refine List.nodup_append.2 ⟨h.distinct, hadmits.distinct, ?_⟩
    rintro id hid other hother rfl
    obtain ⟨command, hcommand, rfl⟩ := List.mem_map.1 hother
    exact hadmits.unused command hcommand hid
  · exact nodup_bindKeys h.chords _ _ _
  · intro entry hentry
    simp only [Registry.entered, hextensions, List.mem_append, List.mem_singleton]
    rcases mem_bindKeys hentry with hold | ⟨howner, hkey⟩
    · obtain ⟨loaded, hloaded, hkey⟩ := h.bindings entry hold
      exact ⟨loaded, Or.inl hloaded, hkey⟩
    · exact ⟨_, Or.inr (Prod.ext howner rfl), hkey⟩
  · intro name
    simp only [Registry.entered, Table.contains_eq_false_iff.2 hstorage, Bool.false_eq_true,
      if_false, Table.keys_insert_of_notMem hstorage, hkeys, List.mem_append, h.storages]

theorem Owned.takenBack (h : registry.Owned) (hadmits : registry.Admits extension) :
    registry.takenBack extension = registry := by
  refine takenBack_eq hadmits fun hin => ?_
  exact Table.contains_eq_false_iff.1 hadmits.unloaded ((h.storages _).1 hin)

/-- No other extension stands under the name of a loaded one. -/
theorem Owned.eq_of_name (h : registry.Owned) {entry other : String × LoadedExtension}
    (hentry : entry ∈ registry.extensions.entries) (hother : other ∈ registry.extensions.entries)
    (heq : other.1 = entry.1) : other = entry :=
  List.inj_on_of_nodup_map h.names hother hentry heq

/-- What one extension has in lists that are made of what each extension has. -/
theorem Owned.filter_flatMap (h : registry.Owned) {β γ : Type} [DecidableEq γ]
    {block : String × LoadedExtension → List β} {key : β → γ}
    (hdistinct : ((registry.extensions.entries.flatMap block).map key).Nodup)
    {entry : String × LoadedExtension} (hentry : entry ∈ registry.extensions.entries) :
    (registry.extensions.entries.flatMap block).filter (key · ∉ (block entry).map key)
      = (registry.extensions.erase entry.1).entries.flatMap block := by
  refine filter_flatMap_of_nodup hdistinct hentry (by simp) fun other hother hne => ?_
  exact decide_eq_true fun heq => hne (h.eq_of_name hentry hother heq)

/-- An unload takes out all that the extension owned. -/
theorem Owned.without (h : registry.Owned) {name : String} {loaded : LoadedExtension}
    (hloaded : registry.extensions.get? name = some loaded) :
    (registry.without name loaded).Owned := by
  have hentry := Table.mem_of_get? hloaded
  have hsub : (registry.extensions.erase name).entries.Sublist registry.extensions.entries :=
    List.filter_sublist
  constructor
  · exact h.names.sublist (hsub.map _)
  · exact fun entry hin => h.named entry (hsub.subset hin)
  · have hkeys : ((registry.extensions.entries.flatMap fun entry =>
        commandEntries entry.1 entry.2.extension.commands).map (·.1)).Nodup := by
      rw [← h.commands]
      exact h.distinct
    have hblock := h.filter_flatMap hkeys hentry
    rw [keys_commandEntries, ← h.commands] at hblock
    exact (entries_removeCommands _ _).trans hblock
  · simp only [Registry.without, Table.keys, entries_removeCommands]
    exact h.distinct.sublist (List.filter_sublist.map _)
  · exact h.chords.sublist (List.filter_sublist.map _)
  · intro entry hin
    obtain ⟨hin, hother⟩ := List.mem_filter.1 hin
    obtain ⟨owner, howner, hkey⟩ := h.bindings entry hin
    exact ⟨owner, List.mem_filter.2 ⟨howner, by simpa using hother⟩, hkey⟩
  · intro other
    simp only [Registry.without, Table.keys_erase, List.mem_filter, h.storages]

/-- The owner of a command is loaded. -/
theorem Owned.owner_mem (h : registry.Owned) {id : String} {registered : RegisteredCommand}
    (hregistered : registry.commands.get? id = some registered) :
    registered.owner ∈ registry.extensions.keys := by
  have hin := Table.mem_of_get? hregistered
  rw [h.commands] at hin
  obtain ⟨entry, hentry, hin⟩ := List.mem_flatMap.1 hin
  obtain ⟨command, -, heq⟩ := List.mem_map.1 hin
  obtain rfl := congrArg (·.2) heq
  exact List.mem_map_of_mem hentry

/-- A loaded extension has a storage, whatever is in it. -/
theorem Owned.store (h : registry.Owned) {name : String} (hname : name ∈ registry.extensions.keys)
    (storage : Storage) : Owned { registry with storages := registry.storages.insert name storage } where
  names := h.names
  named := h.named
  commands := h.commands
  distinct := h.distinct
  chords := h.chords
  bindings := h.bindings
  storages := by
    intro other
    rw [Table.keys_insert_of_mem ((h.storages name).2 hname)]
    exact h.storages other

def asked (loaded : LoadedExtension) : LoadedExtension :=
  if loaded.extension.provider.isSome then { loaded with polls := loaded.polls + 1 } else loaded

theorem asked_extension (loaded : LoadedExtension) : (asked loaded).extension = loaded.extension := by
  unfold asked
  split <;> rfl

theorem entries_provided (registry : Registry) :
    registry.provided.1.extensions.entries
      = registry.extensions.entries.map fun entry => (entry.1, asked entry.2) := by
  refine List.map_congr_left fun entry _ => ?_
  obtain ⟨name, loaded⟩ := entry
  exact (apply_ite (Prod.mk name) ..).symm

theorem Owned.provided (h : registry.Owned) : registry.provided.1.Owned := by
  have hentries := registry.entries_provided
  have hkeys : registry.provided.1.extensions.keys = registry.extensions.keys := by
    rw [Table.keys, hentries, List.map_map]
    rfl
  constructor
  · rw [hkeys]
    exact h.names
  · rw [hentries]
    intro entry hentry
    obtain ⟨old, hold, rfl⟩ := List.mem_map.1 hentry
    rw [asked_extension]
    exact h.named old hold
  · rw [hentries, List.flatMap_map]
    simp only [asked_extension]
    exact h.commands
  · exact h.distinct
  · exact h.chords
  · intro entry hentry
    obtain ⟨loaded, hloaded, hkey⟩ := h.bindings entry hentry
    refine ⟨asked loaded, ?_, asked_extension loaded ▸ hkey⟩
    rw [hentries]
    exact List.mem_map_of_mem hloaded
  · intro name
    rw [hkeys]
    exact h.storages name

theorem Owned.load (h : registry.Owned) (extension : Extension) (editor : Editor) :
    (registry.load extension editor).1.Owned := by
  have hload := load_loadsTo registry extension editor
  generalize registry.load extension editor = outcome at hload
  cases hload with
  | refused admits => exact h
  | failed admits activate =>
    rw [h.takenBack admits]
    exact h
  | succeeded admits activate => exact h.entered admits _

theorem Owned.unload (h : registry.Owned) (name : String) (editor : Editor) :
    (registry.unload name editor).1.Owned := by
  cases hloaded : registry.extensions.get? name with
  | none =>
    rw [unload_of_none hloaded]
    exact h
  | some loaded =>
    rw [unload_of_get? hloaded]
    exact h.without hloaded

/-- A command works on a storage, which its owner has. -/
theorem Owned.execute (h : registry.Owned) (id : String) (editor : Editor) :
    (registry.execute id editor).1.Owned := by
  simp only [Registry.execute]
  split
  · exact h
  · rename_i registered hregistered
    have howner := h.owner_mem hregistered
    split
    · exact h.store howner _
    · exact h.store howner _

theorem Owned.dispatch (h : registry.Owned) (chord : KeyChord) (editor : Editor) :
    (registry.dispatch chord editor).1.Owned := by
  unfold Registry.dispatch
  split
  · exact h
  · exact h.execute _ _

/-- Without extensions all tables are empty. -/
theorem Owned.eq_empty (h : registry.Owned) (hnone : registry.extensions.keys = []) :
    registry = empty := by
  have hkeys := List.map_eq_nil_iff.1 hnone
  have hcommands := h.commands
  have hbindings := h.bindings
  have hstorages := h.storages
  obtain ⟨⟨extensions⟩, ⟨commands⟩, ⟨⟨bindings⟩⟩, ⟨storages⟩⟩ := registry
  obtain rfl : extensions = [] := hkeys
  obtain rfl : commands = [] := hcommands
  obtain rfl : bindings = [] := List.eq_nil_iff_forall_not_mem.2 fun entry hentry => by
    obtain ⟨loaded, hloaded, -⟩ := hbindings entry hentry
    cases hloaded
  obtain rfl : storages = [] := List.eq_nil_iff_forall_not_mem.2 fun entry hentry => by
    cases (hstorages entry.1).1 (List.mem_map_of_mem hentry)
  rfl

end Registry

end HeadlessEditor
