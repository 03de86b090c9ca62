import HeadlessEditor.Proofs.Ownership

/-!
Runs of a registry. Extensions are loaded and unloaded, keys and commands come in, and in between
anything may happen to the editor. In every state that is reached so the registry owns what it holds;
so a load is all or nothing.
-/

namespace HeadlessEditor

structure Workbench where
  registry : Registry
  editor : Editor

namespace Workbench

inductive Call where
  | load (extension : Extension)
  | unload (name : String)
  | reset
  | dispatch (chord : KeyChord)
  | execute (command : String)
  | collect
  | change (change : Editor → Editor)

def new (document : DocumentId) (text : Text) (settings : Settings) : Workbench :=
  ⟨.empty, .new document text settings⟩

def call (bench : Workbench) : Call → Workbench
  | .load extension =>
    let (registry, editor, _) := bench.registry.load extension bench.editor
    ⟨registry, editor⟩
  | .unload name =>
    let (registry, editor, _) := bench.registry.unload name bench.editor
    ⟨registry, editor⟩
  | .reset =>
    let (registry, editor) := bench.registry.reset bench.editor
    ⟨registry, editor⟩
  | .dispatch chord =>
    let (registry, editor, _) := bench.registry.dispatch chord bench.editor
    ⟨registry, editor⟩
  | .execute command =>
    let (registry, editor, _) := bench.registry.execute command bench.editor
    ⟨registry, editor⟩
  | .collect => { bench with registry := bench.registry.provided.1 }
  | .change change => { bench with editor := change bench.editor }

def run (bench : Workbench) : List Call → Workbench
  | [] => bench
  | call :: rest => (bench.call call).run rest

@[simp] theorem run_nil (bench : Workbench) : bench.run [] = bench := rfl

@[simp] theorem run_cons (bench : Workbench) (call : Call) (rest : List Call) :
    bench.run (call :: rest) = (bench.call call).run rest := rfl

theorem run_append (bench : Workbench) (first second : List Call) :
    bench.run (first ++ second) = (bench.run first).run second := by
  induction first generalizing bench with
  | nil => rfl
  | cons call rest ih => exact ih (bench.call call)

variable {bench : Workbench}

/-- One call, whatever the extensions do to the editor. -/
theorem call_owned (h : bench.registry.Owned) (call : Call) : (bench.call call).registry.Owned := by
  cases call with
  | load extension => exact h.load extension bench.editor
  | unload name => exact h.unload name bench.editor
  | reset => exact Registry.empty_owned
  | dispatch chord => exact h.dispatch chord bench.editor
  | execute command => exact h.execute command bench.editor
  | collect => exact h.provided
  | change change => exact h

theorem run_owned (h : bench.registry.Owned) (calls : List Call) :
    (bench.run calls).registry.Owned := by
  induction calls generalizing bench with
  | nil => exact h
  | cons call rest ih => exact ih (call_owned h call)

/-- A load that fails leaves the registry exactly as it was, whatever the extension brings and whose
chords it takes, in any run. It leaves to the editor what the extension itself did to it, in starting
and in being put away, and adds nothing, so no subscription. -/
theorem load_all_or_nothing (document : DocumentId) (text : Text) (settings : Settings)
    (calls : List Call) (extension : Extension) :
    let bench := (new document text settings).run calls
    let outcome := bench.registry.load extension bench.editor
    ∀ error, outcome.2.2 = .error error →
      outcome.1 = bench.registry ∧
      (outcome.2.1 = bench.editor ∨
        outcome.2.1 = extension.dispose (extension.activate bench.editor).1) := by
  intro bench outcome error herror
  have howned : bench.registry.Owned := run_owned Registry.empty_owned calls
  have hload : Registry.LoadsTo bench.registry extension bench.editor outcome :=
    Registry.load_loadsTo bench.registry extension bench.editor
  clear_value outcome
  cases hload with
  | refused admits => exact ⟨rfl, Or.inl rfl⟩
  | failed admits activate =>
    refine ⟨howned.takenBack admits, Or.inr ?_⟩
    rw [activate]
  | succeeded admits activate => cases herror

/-- The second extension takes the chord of the first one twice and a free one twice, and does not
start. The chord is again the first one's. -/
theorem load_all_or_nothing_taken_chord :
    let taken : KeyChord := ⟨.none, "K"⟩
    let free : KeyChord := ⟨.none, "L"⟩
    let first : Extension :=
      { Extension.bare "first" with
        commands := [.onEditor "first.run" "Run" id]
        keys := [(taken, "first.run")] }
    let second : Extension :=
      { Extension.bare "second" with
        commands := [.onEditor "second.run" "Run" id]
        keys := [(taken, "second.run"), (free, "second.run"), (taken, "second.stop"),
          (free, "second.stop")]
        activate := fun editor => (editor.typeText ['x'], .error (.custom "no")) }
    let bench := (new "a.txt" [] .default).run [.load first]
    let outcome := bench.registry.load second bench.editor
    outcome.2.2 = .error (.activationFailed "second" "no") ∧ outcome.1 = bench.registry ∧
    (outcome.2.1 = bench.editor ∨ outcome.2.1 = second.dispose (second.activate bench.editor).1) ∧
    outcome.1.keymap.bindings.entries = [(taken, ⟨"first.run", "first"⟩)] := by
  intro taken free first second bench outcome
  have herror : outcome.2.2 = .error (.activationFailed "second" "no") := rfl
  have hkept := load_all_or_nothing "a.txt" [] .default [.load first] second _ herror
  exact ⟨herror, hkept.1, hkept.2, rfl⟩

end Workbench

end HeadlessEditor
