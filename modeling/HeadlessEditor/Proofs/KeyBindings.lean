import HeadlessEditor.Proofs.Workbench
import Mathlib.Data.List.Induction

/-!
Which binding wins. A chord belongs to the extension that was loaded last of all those that list it, and
runs the last command that this one lists for it. When that extension goes, the chord is free, even if
another one had it before and is still loaded; a failed load makes no difference.
-/

namespace HeadlessEditor

inductive LoadChange where
  | loaded (extension : Extension)
  | unloaded (name : String)
  | reset

namespace LoadChange

/-- An extension is loaded that lists the chord. -/
def Binds (chord : KeyChord) : LoadChange → Prop
  | loaded extension => chord ∈ extension.keys.map (·.1)
  | unloaded _ | reset => False

def Ends (name : String) : LoadChange → Prop
  | loaded _ => False
  | unloaded other => name = other
  | reset => True

/-- In a history, the extension that was loaded last of those that list the chord is still there, and
this is the binding that it lists last. -/
def Wins (history : List LoadChange) (chord : KeyChord) (binding : Binding) : Prop :=
  ∃ earlier extension later, history = earlier ++ .loaded extension :: later ∧
    (∀ change ∈ later, ¬ change.Binds chord ∧ ¬ change.Ends extension.name) ∧
    binding.owner = extension.name ∧
    extension.keys.reverse.lookup chord = some binding.command

end LoadChange

namespace Workbench

/-- What a call changes in what is loaded; `none` for a load or an unload that fails. -/
def loadChange? (bench : Workbench) : Call → Option LoadChange
  | .load extension =>
    match (bench.registry.load extension bench.editor).2.2 with
    | .ok () => some (.loaded extension)
    | .error _ => none
  | .unload name =>
    match (bench.registry.unload name bench.editor).2.2 with
    | .ok () => some (.unloaded name)
    | .error _ => none
  | .reset => some .reset
  | _ => none

def loadChanges (bench : Workbench) : List Call → List LoadChange
  | [] => []
  | call :: rest => (bench.loadChange? call).toList ++ (bench.call call).loadChanges rest

end Workbench

def LoadChange.rebind (chord : KeyChord) (current : Option Binding) : LoadChange → Option Binding
  | loaded extension =>
    ((extension.keys.reverse.lookup chord).map (⟨·, extension.name⟩)).or current
  | unloaded name => current.filter (·.owner != name)
  | reset => none

namespace Registry

variable {registry : Registry}

/-- The last key of the list counts. -/
theorem resolve?_bindKeys (keymap : Keymap) (owner : String)
    (displaced : List (KeyChord × Option Binding)) (keys : List (KeyChord × String))
    (chord : KeyChord) :
    (bindKeys keymap owner displaced keys).1.resolve? chord
      = ((keys.reverse.lookup chord).map (⟨·, owner⟩)).or (keymap.resolve? chord) := by
  induction keys generalizing keymap displaced with
  | nil => rfl
  | cons key rest ih =>
    obtain ⟨first, command⟩ := key
    rw [bindKeys, ih, List.reverse_cons, List.lookup_append]
    have hfirst : (keymap.bind first ⟨command, owner⟩).resolve? chord
        = (([(first, command)].lookup chord).map (⟨·, owner⟩)).or (keymap.resolve? chord) := by
      by_cases hchord : chord = first
      · simp [Keymap.resolve?, Keymap.bind, hchord]
      · simp [Keymap.resolve?, Keymap.bind, hchord, Table.lookup_cons_of_ne hchord]
    rw [hfirst]
    cases rest.reverse.lookup chord with
    | none => rfl
    | some later => rfl

theorem resolve?_removeOwner {keymap : Keymap} (h : keymap.bindings.keys.Nodup) (owner : String)
    (chord : KeyChord) :
    (keymap.removeOwner owner).resolve? chord
      = (keymap.resolve? chord).filter (·.owner != owner) :=
  Table.get?_filter h _ chord

end Registry

namespace Workbench

variable {bench : Workbench}

theorem call_resolve? (h : bench.registry.Owned) (call : Call) (chord : KeyChord) :
    (bench.call call).registry.keymap.resolve? chord
      = (bench.loadChange? call).toList.foldl (LoadChange.rebind chord)
          (bench.registry.keymap.resolve? chord) := by
  cases call with
  | load extension =>
    have hload := Registry.load_loadsTo bench.registry extension bench.editor
    simp only [Workbench.call, loadChange?]
    generalize bench.registry.load extension bench.editor = outcome at hload
    cases hload with
    | refused admits => rfl
    | failed admits activate =>
      rw [h.takenBack admits]
      rfl
    | succeeded admits activate => exact Registry.resolve?_bindKeys _ _ _ _ chord
  | unload name =>
    simp only [Workbench.call, loadChange?]
    cases hloaded : bench.registry.extensions.get? name with
    | none =>
      rw [Registry.unload_of_none hloaded]
      rfl
    | some loaded =>
      rw [Registry.unload_of_get? hloaded]
      exact Registry.resolve?_removeOwner h.chords name chord
  | reset => rfl
  | dispatch pressed =>
    obtain ⟨storages, hsame⟩ := bench.registry.dispatch_storages pressed bench.editor
    simp only [Workbench.call, hsame]
    rfl
  | execute command =>
    obtain ⟨storages, hsame⟩ := bench.registry.execute_storages command bench.editor
    simp only [Workbench.call, hsame]
    rfl
  | collect => rfl
  | change change => rfl

theorem run_resolve? (h : bench.registry.Owned) (calls : List Call) (chord : KeyChord) :
    (bench.run calls).registry.keymap.resolve? chord
      = (bench.loadChanges calls).foldl (LoadChange.rebind chord)
          (bench.registry.keymap.resolve? chord) := by
  induction calls generalizing bench with
  | nil => rfl
  | cons call rest ih =>
    rw [run_cons, ih (call_owned h call), call_resolve? h, loadChanges, List.foldl_append]

end Workbench

namespace LoadChange

variable {history : List LoadChange} {change : LoadChange} {chord : KeyChord} {binding : Binding}

theorem not_wins_nil : ¬ Wins [] chord binding := by
  rintro ⟨earlier, extension, later, heq, -⟩
  simp at heq

/-- One more change: it brings the binding, or the binding was there and it leaves it alone. -/
theorem wins_concat_iff :
    Wins (history ++ [change]) chord binding ↔
      (∃ extension, change = .loaded extension ∧ binding.owner = extension.name ∧
        extension.keys.reverse.lookup chord = some binding.command) ∨
      Wins history chord binding ∧ ¬ change.Binds chord ∧ ¬ change.Ends binding.owner := by
  constructor
  · rintro ⟨earlier, extension, later, heq, hlater, howner, hcommand⟩
    rcases later.eq_nil_or_concat with rfl | ⟨between, last, rfl⟩
    · obtain ⟨-, hlast⟩ := List.append_inj' heq rfl
      exact Or.inl ⟨extension, List.head_eq_of_cons_eq hlast, howner, hcommand⟩
    · rw [List.concat_eq_append, ← List.cons_append, ← List.append_assoc] at heq
      obtain ⟨hhistory, hlast⟩ := List.append_inj' heq rfl
      obtain rfl := List.head_eq_of_cons_eq hlast
      have hkept := hlater change (by simp)
      refine Or.inr ⟨⟨earlier, extension, between, hhistory, ?_, howner, hcommand⟩, hkept.1, ?_⟩
      · exact fun other hother => hlater other (by simp [hother])
      · rw [howner]
        exact hkept.2
  · rintro (⟨extension, rfl, howner, hcommand⟩ | ⟨hwins, hbinds, hends⟩)
    · exact ⟨history, extension, [], rfl, by simp, howner, hcommand⟩
    · obtain ⟨earlier, extension, later, rfl, hlater, howner, hcommand⟩ := hwins
      refine ⟨earlier, extension, later ++ [change], by simp, ?_, howner, hcommand⟩
      intro other hother
      rcases List.mem_append.1 hother with hother | hother
      · exact hlater other hother
      · obtain rfl := List.mem_singleton.1 hother
        exact ⟨hbinds, howner ▸ hends⟩

/-- A chord that an extension does not list has no last command in its list. -/
theorem lookup_reverse_eq_none_iff {keys : List (KeyChord × String)} :
    keys.reverse.lookup chord = none ↔ chord ∉ keys.map (·.1) := by
  rw [Table.lookup_eq_none_iff, List.map_reverse, List.mem_reverse]

theorem foldl_rebind_eq_some_iff :
    history.foldl (rebind chord) none = some binding ↔ Wins history chord binding := by
  induction history using List.reverseRecOn generalizing binding with
  | nil => exact iff_of_false (by simp) not_wins_nil
  | append_singleton history change ih =>
    rw [List.foldl_concat, wins_concat_iff]
    cases change with
    | loaded extension =>
      cases hcommand : extension.keys.reverse.lookup chord with
      | none =>
        have hunlisted := lookup_reverse_eq_none_iff.1 hcommand
        simp [rebind, hcommand, ih, Binds, Ends, hunlisted]
      | some command =>
        have hlisted : chord ∈ extension.keys.map (·.1) := by
          by_contra hunlisted
          rw [lookup_reverse_eq_none_iff.2 hunlisted] at hcommand
          cases hcommand
        obtain ⟨id, owner⟩ := binding
        simp [rebind, hcommand, Binds, hlisted, eq_comm, and_comm]
    | unloaded name => simp [rebind, ih, Binds, Ends]
    | reset => simp [rebind, Ends]

end LoadChange

/-- After any run, a chord runs what the history of successful loads and unloads says: the last command
that the extension lists for it which was loaded last of those that list it, if that one is still
loaded. In all other cases it is not bound. -/
theorem Workbench.resolve?_eq_some_iff_wins (document : DocumentId) (text : Text)
    (settings : Settings) (calls : List Workbench.Call) (chord : KeyChord) (binding : Binding) :
    let bench := Workbench.new document text settings
    (bench.run calls).registry.keymap.resolve? chord = some binding ↔
      LoadChange.Wins (bench.loadChanges calls) chord binding := by
  intro bench
  have hstart : bench.registry.keymap.resolve? chord = none := rfl
  rw [Workbench.run_resolve? Registry.empty_owned, hstart]
  exact LoadChange.foldl_rebind_eq_some_iff

end HeadlessEditor
