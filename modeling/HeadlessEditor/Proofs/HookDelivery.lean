import HeadlessEditor.Proofs.Hooks
import HeadlessEditor.Proofs.Workbench

/-!
Which events the extensions of a registry receive. In a run of loads, unloads and resets, with work on
the editor in between and in the course of them, the hooks on the bus are those of the loaded extensions:
one for each kind that an extension listens to. So an extension receives the events of its kinds that
are announced between its load and its unload. What it announces itself while it is set to work or put
away does not come back to it.
-/

namespace HeadlessEditor

theorem Registry.asked_hooks (loaded : LoadedExtension) : (asked loaded).hooks = loaded.hooks := by
  unfold asked
  split <;> rfl

theorem Registry.asked_fits {loaded : LoadedExtension} (h : loaded.Fits) : (asked loaded).Fits := by
  unfold asked
  split
  · exact h
  · exact h

namespace Registry

variable {registry : Registry} {extension : Extension} {name : String} {loaded : LoadedExtension}

def hooks (registry : Registry) : List Subscriber :=
  registry.extensions.entries.flatMap (·.2.hooks)

theorem hooks_entered (h : registry.Admits extension) (ids : List SubscriptionId) :
    (registry.entered extension ids).hooks
      = registry.hooks ++ LoadedExtension.hooks ⟨extension, ids, 0⟩ := by
  have hname := Table.contains_eq_false_iff.1 h.unloaded
  rw [hooks, entered, Table.entries_insert_of_notMem hname, List.flatMap_append, hooks]
  simp

theorem hooks_provided (registry : Registry) : registry.provided.1.hooks = registry.hooks := by
  rw [hooks, entries_provided, List.flatMap_map]
  simp only [asked_hooks]
  rfl

theorem Owned.listener_of_mem_hooks (h : registry.Owned) {entry : String × LoadedExtension}
    (hentry : entry ∈ registry.extensions.entries) {hook : Subscriber} (hhook : hook ∈ entry.2.hooks) :
    hook.listener = .extension entry.1 := by
  rw [LoadedExtension.listener_of_mem_hooks hhook, h.named entry hentry]

/-- The hooks that an unload leaves can be told by the names of their listeners. -/
theorem Owned.hooks_without (h : registry.Owned) (name : String) (loaded : LoadedExtension) :
    (registry.without name loaded).hooks
      = registry.hooks.filter (·.listener != .extension name) := by
  refine (filter_flatMap_blocks fun entry hentry hook hhook => ?_).symm
  rw [h.listener_of_mem_hooks hentry hhook]
  simp [bne, beq_eq_decide]

/-- They can be told by their ids as well. -/
theorem Owned.filter_hooks (h : registry.Owned) (hsorted : registry.hooks.Pairwise (·.id < ·.id))
    (hloaded : registry.extensions.get? name = some loaded) (hfits : loaded.Fits) :
    registry.hooks.filter (·.id ∉ loaded.subscriptions)
      = registry.hooks.filter (·.listener != .extension name) := by
  have hdistinct : (registry.hooks.map (·.id)).Nodup :=
    List.pairwise_map.2 (hsorted.imp Nat.ne_of_lt)
  have hblock := h.filter_flatMap hdistinct (Table.mem_of_get? hloaded)
  rw [hfits.map_id_hooks] at hblock
  exact hblock.trans (h.hooks_without name loaded)

/-- An extension has one hook for each kind that it listens to, and no other. -/
theorem Owned.countP_hooks (h : registry.Owned)
    (hfits : ∀ entry ∈ registry.extensions.entries, entry.2.Fits) (name : String)
    (kind : EventKind) :
    registry.hooks.countP (fun hook => hook.listener == .extension name && hook.kind == kind)
      = if (registry.extensions.get? name).any (·.extension.hooks.contains kind) then 1 else 0 := by
  have hnamed : registry.hooks.filter (·.listener == .extension name)
      = (registry.extensions.entries.filter (·.1 = name)).flatMap (·.2.hooks) := by
    refine filter_flatMap_blocks fun entry hentry hook hhook => ?_
    rw [h.listener_of_mem_hooks hentry hhook]
    simp [beq_eq_decide]
  rw [Table.filter_key_eq h.names] at hnamed
  have hcount : registry.hooks.countP (fun hook => hook.listener == .extension name && hook.kind == kind)
      = (registry.hooks.filter (·.listener == .extension name)).countP (·.kind == kind) := by
    rw [List.countP_filter]
    exact List.countP_congr fun hook _ => by simp [and_comm]
  rw [hcount, hnamed]
  cases hloaded : registry.extensions.get? name with
  | none => rfl
  | some loaded =>
    have hone := hfits _ (Table.mem_of_get? hloaded)
    simpa using hone.countP_kind kind

end Registry

namespace Workbench

variable {bench : Workbench} {call : Call} {calls : List Call} {history : List Happening}

theorem unloadAll_eq_run (registry : Registry) (editor : Editor) (names : List String) :
    let after := run ⟨registry, editor⟩ (names.map .unload)
    registry.unloadAll editor names = (after.registry, after.editor) := by
  induction names generalizing registry editor with
  | nil => rfl
  | cons name rest ih => exact ih _ _

theorem keys_run_unload (bench : Workbench) (names : List String) :
    (bench.run (names.map .unload)).registry.extensions.keys
      = bench.registry.extensions.keys.filter (· ∉ names) := by
  induction names generalizing bench with
  | nil => simp
  | cons name rest ih =>
    have hkeys : (bench.call (.unload name)).registry.extensions.keys
        = bench.registry.extensions.keys.filter (· ≠ name) := by
      simp only [Workbench.call]
      cases hloaded : bench.registry.extensions.get? name with
      | none =>
        rw [Registry.unload_of_none hloaded]
        have habsent := Table.get?_eq_none_iff.1 hloaded
        refine (List.filter_eq_self.2 fun other hother => decide_eq_true ?_).symm
        rintro rfl
        exact habsent hother
      | some loaded =>
        rw [Registry.unload_of_get? hloaded]
        exact Table.keys_erase _ _
    rw [List.map_cons, run_cons, ih, hkeys, List.filter_filter]
    refine List.filter_congr fun other _ => ?_
    simp [Bool.and_comm]

/-- When all extensions have been unloaded, nothing is left that a reset would have to clear. -/
theorem call_reset (h : bench.registry.Owned) :
    bench.call .reset = bench.run (bench.registry.extensions.keys.reverse.map .unload) := by
  obtain ⟨registry, editor⟩ := bench
  let names := registry.extensions.keys.reverse
  have hkeys : (run ⟨registry, editor⟩ (names.map .unload)).registry.extensions.keys = [] := by
    rw [keys_run_unload, List.filter_eq_nil_iff]
    intro name hname
    simpa [names] using hname
  have hempty := (run_owned h (names.map .unload)).eq_empty hkeys
  have hafter := unloadAll_eq_run registry editor names
  rw [Workbench.call, Registry.reset, hafter, ← hempty]

/-- What happens in the course of a call, other than a reset, when extensions and others do nothing but
work on the editor. Events that an extension announces in its start come before its hooks, and those that
it announces when it is put away come after them. -/
inductive Happens (bench : Workbench) : Call → List Happening → Prop where
  | refused {extension : Extension} (refused : ¬ bench.registry.Admits extension) :
      Happens bench (.load extension) []
  | failed {extension : Extension} {started : Editor} {error : ExtensionError}
      {starting stopping : List Event} (admits : bench.registry.Admits extension)
      (activate : extension.activate bench.editor = (started, .error error))
      (starts : Editor.Works bench.editor starting started)
      (stops : Editor.Works started stopping (extension.dispose started)) :
      Happens bench (.load extension) (starting.map .announced ++ stopping.map .announced)
  | loaded {extension : Extension} {started : Editor} {starting : List Event}
      (admits : bench.registry.Admits extension)
      (activate : extension.activate bench.editor = (started, .ok ()))
      (starts : Editor.Works bench.editor starting started) :
      Happens bench (.load extension) (starting.map .announced ++ [.attached ⟨extension,
        (Registry.subscribeAll started (.extension extension.name) extension.eventKinds).2, 0⟩])
  | unknown {name : String} (unknown : bench.registry.extensions.get? name = none) :
      Happens bench (.unload name) []
  | unloaded {name : String} {loaded : LoadedExtension} {stopping : List Event}
      (known : bench.registry.extensions.get? name = some loaded)
      (stops : Editor.Works (Registry.unsubscribeAll bench.editor loaded.subscriptions) stopping
        (loaded.extension.dispose (Registry.unsubscribeAll bench.editor loaded.subscriptions))) :
      Happens bench (.unload name) ([.detached name] ++ stopping.map .announced)
  | dispatched {chord : KeyChord} {events : List Event}
      (works : Editor.Works bench.editor events (bench.call (.dispatch chord)).editor) :
      Happens bench (.dispatch chord) (events.map .announced)
  | executed {command : String} {events : List Event}
      (works : Editor.Works bench.editor events (bench.call (.execute command)).editor) :
      Happens bench (.execute command) (events.map .announced)
  | collected : Happens bench .collect []
  | changed {change : Editor → Editor} {events : List Event}
      (works : Editor.Works bench.editor events (change bench.editor)) :
      Happens bench (.change change) (events.map .announced)

inductive Runs : Workbench → List Call → List Happening → Prop where
  | done (bench : Workbench) : Runs bench [] []
  | call {bench : Workbench} {call : Call} {calls : List Call} {first later : List Happening}
      (happens : bench.Happens call first) (rest : Runs (bench.call call) calls later) :
      Runs bench (call :: calls) (first ++ later)
  | reset {bench : Workbench} {calls : List Call} {history : List Happening}
      (unloads : Runs bench (bench.registry.extensions.keys.reverse.map .unload ++ calls) history) :
      Runs bench (.reset :: calls) history

/-- The hooks on the bus are those of the loaded extensions. -/
structure Hooked (bench : Workbench) : Prop where
  owned : bench.registry.Owned
  hooks : bench.editor.bus.hooks = bench.registry.hooks
  ordered : bench.editor.bus.Ordered
  fits : ∀ entry ∈ bench.registry.extensions.entries, entry.2.Fits

theorem new_hooked (document : DocumentId) (text : Text) (settings : Settings) :
    (new document text settings).Hooked where
  owned := Registry.empty_owned
  hooks := rfl
  ordered := ⟨List.Pairwise.nil, fun _ hhook => by cases hhook⟩
  fits := fun _ hentry => by cases hentry

/-- The hooks of an extension can be told by their ids and by the name of their listener. -/
theorem Hooked.filter_hooks (h : bench.Hooked) {name : String} {loaded : LoadedExtension}
    (hloaded : bench.registry.extensions.get? name = some loaded) :
    bench.editor.bus.hooks.filter (·.id ∉ loaded.subscriptions)
      = bench.editor.bus.hooks.filter (·.listener != .extension name) := by
  have hsorted := h.ordered.sorted
  rw [h.hooks] at hsorted ⊢
  exact h.owned.filter_hooks hsorted hloaded (h.fits _ (Table.mem_of_get? hloaded))

/-- Work that changes nothing in the registry but what is stored. -/
theorem Hooked.worked (h : bench.Hooked) {after : Workbench} {storages : Table String Storage}
    (hsame : after.registry = { bench.registry with storages }) {events : List Event}
    (hworks : Editor.Works bench.editor events after.editor) :
    bench.editor.Undergoes (events.map .announced) after.editor ∧
    after.registry.hooks
      = Happening.hooksAfterAll bench.registry.hooks (events.map .announced) ∧
    ∀ entry ∈ after.registry.extensions.entries, entry.2.Fits := by
  rw [hsame, Happening.hooksAfterAll_announced]
  exact ⟨hworks.undergoes, rfl, h.fits⟩

/-- One call: the editor undergoes what happens, and the hooks of the registry change in the same way. -/
theorem Happens.spec (h : bench.Hooked) (hcall : bench.Happens call history) :
    bench.editor.Undergoes history (bench.call call).editor ∧
    (bench.call call).registry.hooks = Happening.hooksAfterAll bench.registry.hooks history ∧
    ∀ entry ∈ (bench.call call).registry.extensions.entries, entry.2.Fits := by
  cases hcall with
  | @refused extension refused =>
    obtain ⟨error, hload⟩ := Registry.load_of_not_admits refused bench.editor
    simp only [Workbench.call, hload]
    exact ⟨(Editor.Works.done bench.editor).undergoes, rfl, h.fits⟩
  | @failed extension started error starting stopping admits activate starts stops =>
    simp only [Workbench.call, Registry.load_of_error admits activate, h.owned.takenBack admits]
    refine ⟨starts.undergoes.trans stops.undergoes, ?_, h.fits⟩
    rw [← List.map_append, Happening.hooksAfterAll_announced]
  | @loaded extension started starting admits activate starts =>
    simp only [Workbench.call, Registry.load_of_ok admits activate]
    have hattached := Editor.undergoes_attached started extension
    refine ⟨starts.undergoes.trans hattached, ?_, ?_⟩
    · rw [Registry.hooks_entered admits, Happening.hooksAfterAll_append,
        Happening.hooksAfterAll_announced]
      rfl
    · intro entry hentry
      rcases Table.mem_insertEntry hentry with rfl | hold
      · exact hattached.fits _ List.mem_cons_self
      · exact h.fits entry hold
  | unknown unknown =>
    simp only [Workbench.call, Registry.unload_of_none unknown]
    exact ⟨(Editor.Works.done bench.editor).undergoes, rfl, h.fits⟩
  | @unloaded name loaded stopping known stops =>
    simp only [Workbench.call, Registry.unload_of_get? known]
    -- The registry takes hooks off the bus by their ids, a history by the name of the listener.
    have hdetached := Editor.undergoes_detached (h.filter_hooks known)
    refine ⟨hdetached.trans stops.undergoes, ?_, ?_⟩
    · rw [h.owned.hooks_without, Happening.hooksAfterAll_append,
        Happening.hooksAfterAll_announced]
      rfl
    · exact fun entry hentry => h.fits entry (List.mem_filter.1 hentry).1
  | @dispatched chord events works =>
    obtain ⟨storages, hsame⟩ := bench.registry.dispatch_storages chord bench.editor
    exact h.worked hsame works
  | @executed command events works =>
    obtain ⟨storages, hsame⟩ := bench.registry.execute_storages command bench.editor
    exact h.worked hsame works
  | collected =>
    refine ⟨(Editor.Works.done bench.editor).undergoes, bench.registry.hooks_provided, ?_⟩
    intro entry hentry
    rw [Workbench.call, Registry.entries_provided] at hentry
    obtain ⟨old, hold, rfl⟩ := List.mem_map.1 hentry
    exact Registry.asked_fits (h.fits old hold)
  | @changed change events works =>
    have hsame : (bench.call (.change change)).registry
        = { bench.registry with storages := bench.registry.storages } := rfl
    exact h.worked hsame works

theorem Happens.hooked (h : bench.Hooked) (hcall : bench.Happens call history) :
    (bench.call call).Hooked := by
  obtain ⟨hundergoes, hhooks, hfits⟩ := hcall.spec h
  refine ⟨call_owned h.owned call, ?_, hundergoes.ordered h.ordered, hfits⟩
  rw [hundergoes.hooks, h.hooks, hhooks]

/-- A run, and what the editor has undergone in the course of it. -/
theorem Runs.spec (h : bench.Hooked) (hruns : bench.Runs calls history) :
    bench.editor.Undergoes history (bench.run calls).editor ∧ (bench.run calls).Hooked := by
  induction hruns with
  | done bench => exact ⟨(Editor.Works.done bench.editor).undergoes, h⟩
  | call happens rest ih =>
    obtain ⟨hundergoes, hhooked⟩ := ih (happens.hooked h)
    exact ⟨(happens.spec h).1.trans hundergoes, hhooked⟩
  | reset unloads ih =>
    -- The history is that of the unloads, after which clearing the tables changes nothing.
    rw [run_cons, call_reset h.owned, ← run_append]
    exact ih h

/-- After any run, whatever extensions do to the editor, all that the registry holds is what the loaded
extensions brought. If extensions and others only work on the editor, then on the bus there is one hook
for each kind that a loaded extension listens to, and no other hook. A reset takes everything out; it is
the unloads of all that are loaded. -/
theorem registered_by_the_loaded (document : DocumentId) (text : Text) (settings : Settings)
    (calls : List Call) :
    let bench := new document text settings
    let after := bench.run calls
    after.registry.Owned ∧
    (∀ history, bench.Runs calls history → ∀ name kind,
      after.editor.bus.subscribers.countP
          (fun hook => hook.listener == .extension name && hook.kind == kind)
        = if (after.registry.extensions.get? name).any (·.extension.hooks.contains kind) then 1
          else 0) ∧
    after.call .reset = after.run (after.registry.extensions.keys.reverse.map .unload) ∧
    (after.call .reset).registry = .empty ∧
    ∀ history, bench.Runs (calls ++ [.reset]) history → (after.call .reset).editor.bus.hooks = [] := by
  intro bench after
  have howned : after.registry.Owned := run_owned Registry.empty_owned calls
  have hnew : bench.Hooked := new_hooked document text settings
  refine ⟨howned, ?_, call_reset howned, rfl, ?_⟩
  · intro history hruns name kind
    obtain ⟨-, hhooked⟩ := hruns.spec hnew
    rw [← hhooked.owned.countP_hooks hhooked.fits, ← hhooked.hooks, EventBus.hooks,
      List.countP_filter]
    refine List.countP_congr fun hook _ => ?_
    cases hook.listener with
    | extension other => simp [Listener.isExtension]
    | host tag => simp [Listener.isExtension]
    | session => simp [Listener.isExtension]
  · intro history hruns
    obtain ⟨-, hhooked⟩ := hruns.spec hnew
    have hhooks := hhooked.hooks
    rw [run_append] at hhooks
    exact hhooks

/-- An extension that listens to two kinds, and a reset. -/
theorem registered_by_the_loaded_listener :
    let listener : Extension := { Extension.bare "listener" with hooks := [.settings, .cursor] }
    let calls : List Call := [.load listener, .change (·.perform (.emit (.settings ["theme"])) |>.1)]
    let bench := new "a.txt" ['x'] .default
    let after := bench.run calls
    after.registry.Owned ∧
    after.editor.bus.subscribers.countP
      (fun hook => hook.listener == .extension "listener" && hook.kind == .cursor) = 1 ∧
    after.editor.bus.subscribers.countP
      (fun hook => hook.listener == .extension "listener" && hook.kind == .content) = 0 ∧
    (after.call .reset).registry = .empty ∧ (after.call .reset).editor.bus.hooks = [] := by
  intro listener calls bench after
  obtain ⟨howned, hhooks, hreset, hempty, hgone⟩ :=
    registered_by_the_loaded "a.txt" ['x'] .default calls
  have hload : bench.Happens (.load listener) _ :=
    .loaded ⟨rfl, fun _ hcommand => absurd hcommand List.not_mem_nil,
      List.nodup_nil⟩ rfl (.done _)
  have hchange : (bench.call (.load listener)).Happens
      (.change (·.perform (.emit (.settings ["theme"])) |>.1)) _ :=
    .changed (.perform rfl (.done _))
  have hruns : bench.Runs calls _ := .call hload (.call hchange (.done _))
  have hunload : after.Happens (.unload "listener") _ := .unloaded rfl (.done _)
  have hended : bench.Runs (calls ++ [.reset]) _ :=
    .call hload (.call hchange (.reset (.call hunload (.done _))))
  exact ⟨howned, hhooks _ hruns "listener" .cursor, hhooks _ hruns "listener" .content, hempty,
    hgone _ hended⟩

/-- No event reaches an extension while it is set to work or put away, whatever it announces: its hooks
are not on the bus at these times. -/
theorem Hooked.no_hook_of_unloaded (h : bench.Hooked) {name : String}
    (hunloaded : bench.registry.isLoaded name = false) {hook : Subscriber}
    (hhook : hook ∈ bench.editor.bus.hooks) : hook.listener ≠ .extension name := by
  rw [h.hooks] at hhook
  obtain ⟨entry, hentry, hhook⟩ := List.mem_flatMap.1 hhook
  rw [h.owned.listener_of_mem_hooks hentry hhook]
  intro heq
  have hname := Listener.extension.inj heq
  exact Table.contains_eq_false_iff.1 hunloaded (hname ▸ List.mem_map_of_mem hentry)

theorem Hooked.no_hook_of_detached (h : bench.Hooked) {name : String} {loaded : LoadedExtension}
    (hloaded : bench.registry.extensions.get? name = some loaded) {hook : Subscriber}
    (hhook : hook ∈ (Registry.unsubscribeAll bench.editor loaded.subscriptions).bus.hooks) :
    hook.listener ≠ .extension name := by
  have hundergoes := Editor.undergoes_detached (h.filter_hooks hloaded)
  rw [hundergoes.hooks] at hhook
  have hlistener := (List.mem_filter.1 hhook).2
  simpa using hlistener

/-- In a run in which extensions and others only work on the editor, every extension that has been loaded
has received exactly the events of its kinds that were announced from then on until it was detached, each
one once and in their order. Nothing else has reached an extension. -/
theorem received_while_loaded (document : DocumentId) (text : Text) (settings : Settings)
    (calls : List Call) (history : List Happening) :
    let bench := new document text settings
    let heard := (bench.run calls).editor.hookNotices
    bench.Runs calls history →
      (∀ earlier loaded later, history = earlier ++ .attached loaded :: later →
        (heard.filter (·.1 ∈ loaded.hooks)).map (·.2)
          = (Happening.announcedUntil loaded.extension.name later).filter
              (loaded.extension.hooks.contains ·.kind)) ∧
      ∀ notice ∈ heard, ∃ loaded, .attached loaded ∈ history ∧ notice.1 ∈ loaded.hooks := by
  intro bench heard hruns
  obtain ⟨hundergoes, -⟩ := hruns.spec (new_hooked document text settings)
  have hheard : heard = Happening.bringsAll [] history := hundergoes.heard
  rw [hheard]
  constructor
  · rintro earlier loaded later rfl
    have hdistinct : ((earlier ++ .attached loaded :: later).flatMap Happening.begun).Nodup :=
      hundergoes.sorted.imp fun hbefore heq => Nat.ne_of_lt hbefore (congrArg Subscriber.id heq)
    exact Happening.filter_bringsAll_of_history (hundergoes.fits loaded (by simp)) hdistinct
  · intro notice hnotice
    exact Happening.mem_flatMap_begun.1 (Happening.mem_bringsAll hnotice)

/-- A listener receives two of the six events of its kind: not those before its load or after its unload,
and not those that it announces itself when it starts and stops. -/
theorem received_while_loaded_listener :
    let listener : Extension :=
      { Extension.bare "listener" with
        hooks := [.settings]
        activate := fun editor => ((editor.perform (.emit (.settings ["started"]))).1, .ok ())
        dispose := fun editor => (editor.perform (.emit (.settings ["stopped"]))).1 }
    let emits (event : Event) : Call := .change (·.perform (.emit event) |>.1)
    let calls : List Call :=
      [emits (.settings ["before"]), .load listener, emits (.settings ["first"]), emits (.selection none),
        emits (.settings ["second"]), .unload "listener", emits (.settings ["after"])]
    let bench := new "a.txt" ['x'] .default
    let heard := (bench.run calls).editor.hookNotices
    let loaded : LoadedExtension := ⟨listener, [1], 0⟩
    let history : List Happening :=
      [.announced (.settings ["before"]), .announced (.settings ["started"]), .attached loaded,
        .announced (.settings ["first"]), .announced (.selection none),
        .announced (.settings ["second"]), .detached "listener", .announced (.settings ["stopped"]),
        .announced (.settings ["after"])]
    bench.Runs calls history ∧
    (heard.filter (·.1 ∈ loaded.hooks)).map (·.2) = [.settings ["first"], .settings ["second"]] ∧
    ∀ notice ∈ heard, ∃ other, .attached other ∈ history ∧ notice.1 ∈ other.hooks := by
  intro listener emits calls bench heard loaded history
  have hemits : ∀ (bench : Workbench) (event : Event),
      bench.Happens (emits event) (bench.editor.announced (.emit event) ++ [] |>.map .announced) :=
    fun bench event => .changed (.perform rfl (.done _))
  have hload : (bench.call (emits (.settings ["before"]))).Happens (.load listener) _ :=
    .loaded ⟨rfl, fun _ hcommand => absurd hcommand List.not_mem_nil, List.nodup_nil⟩ rfl
      (.perform rfl (.done _))
  have hunload : (bench.run (calls.take 5)).Happens (.unload "listener") _ :=
    .unloaded rfl (.perform rfl (.done _))
  have hruns : bench.Runs calls history :=
    .call (hemits _ _) (.call hload (.call (hemits _ _) (.call (hemits _ _) (.call (hemits _ _)
      (.call hunload (.call (hemits _ _) (.done _)))))))
  obtain ⟨hreceived, hothers⟩ := received_while_loaded "a.txt" ['x'] .default calls history hruns
  exact ⟨hruns, hreceived (history.take 2) loaded _ rfl, hothers⟩

end Workbench

end HeadlessEditor
