import HeadlessEditor.Proofs.SessionCalls

/-!
Runs of a session: calls in any order, and outcomes of the tokenizer that come in at any time between
them, also those of runs that have been replaced or given up.
-/

namespace HeadlessEditor

variable {α : Type}

inductive Step (α : Type) where
  | call (call : Session.Call α)
  /-- The outcome comes in of the run requested last, of the one before it, and so on. -/
  | arrive (index : Nat)

structure World (α : Type) where
  session : Session α
  asked : List TokenRun

namespace Session

def generation (session : Session α) : Nat :=
  (session.schedule.map (·.pipeline.generation)).getD 0

def pendingRun (session : Session α) : Option TokenRun :=
  session.schedule.bind (·.pipeline.pending)

/-- The run that was requested between two states of a session. -/
def requestedSince (before after : Session α) : List TokenRun :=
  if after.generation = before.generation then [] else after.pendingRun.toList

def deliver (session : Session α) (run : TokenRun) : Session α :=
  { session with
    schedule := session.schedule.map fun schedule =>
      { schedule with pipeline := schedule.pipeline.finish (run.outcome schedule.tokenizer) } }

end Session

namespace World

def start [Pixel α] (editor : Editor) (height contentWidth : α) (tokenizer : Option Tokenizer)
    (runtime : Runtime) : World α :=
  let bare := Session.new editor height contentWidth
  let session :=
    match tokenizer with
    | none => bare
    | some tokenizer => bare.withTokenizer tokenizer runtime
  { session, asked := session.pendingRun.toList }

def step [Pixel α] (world : World α) : Step α → World α
  | .call call =>
    let session := world.session.call call
    { session, asked := Session.requestedSince world.session session ++ world.asked }
  | .arrive index =>
    match world.asked[index]? with
    | none => world
    | some run => { world with session := world.session.deliver run }

end World

structure Moment (α : Type) where
  before : World α
  step : Step α

def Moment.after [Pixel α] (moment : Moment α) : World α := moment.before.step moment.step

def World.history [Pixel α] (world : World α) : List (Step α) → List (Moment α)
  | [] => []
  | step :: rest => ⟨world, step⟩ :: (world.step step).history rest

/-- What each step keeps holds in all of a run. -/
theorem World.history_keeps [Pixel α] {keeps : World α → Prop}
    (hstep : ∀ world step, keeps world → keeps (world.step step)) {world : World α}
    (h : keeps world) (steps : List (Step α)) :
    ∀ moment ∈ world.history steps, keeps moment.before := by
  induction steps generalizing world with
  | nil => simp [history]
  | cons step rest ih =>
    intro moment hmoment
    rcases List.mem_cons.1 hmoment with rfl | hmoment
    · exact h
    · exact ih (hstep world step h) moment hmoment

/-- What is good until a step breaks it is good in all of a run if and only if no step breaks it. -/
theorem World.history_iff [Pixel α] (keeps good : World α → Prop) (breaks : Moment α → Prop)
    (hkeeps : ∀ world step, keeps world → keeps (world.step step))
    (hstep : ∀ world step, keeps world → good world →
      (good (world.step step) ↔ ¬ breaks ⟨world, step⟩))
    {world : World α} (h : keeps world) (hgood : good world) (steps : List (Step α)) :
    (∀ moment ∈ world.history steps, good moment.after) ↔
      ∀ moment ∈ world.history steps, ¬ breaks moment := by
  induction steps generalizing world with
  | nil => simp [history]
  | cons step rest ih =>
    have hiff := hstep world step h hgood
    have hnext := hkeeps world step h
    simp only [history, List.forall_mem_cons]
    constructor
    · rintro ⟨hfirst, hrest⟩
      exact ⟨hiff.1 hfirst, (ih hnext hfirst).1 hrest⟩
    · rintro ⟨hfirst, hrest⟩
      have hafter := hiff.2 hfirst
      exact ⟨hafter, (ih hnext hafter).2 hrest⟩

/-- What holds at the start and after each step holds before each step. -/
theorem World.history_before [Pixel α] {good : World α → Prop} {world : World α}
    (hgood : good world) {steps : List (Step α)}
    (h : ∀ moment ∈ world.history steps, good moment.after) :
    ∀ moment ∈ world.history steps, good moment.before := by
  induction steps generalizing world with
  | nil => simp [history]
  | cons step rest ih =>
    simp only [history, List.forall_mem_cons] at h ⊢
    exact ⟨hgood, ih h.1 h.2⟩

namespace Session

/-- Nothing but view, schedule and tokens changes, and new tokens are cut into lines at once. -/
structure Keeps (session after : Session α) : Prop where
  editor : after.editor = session.editor
  document : after.document = session.document
  fileExtension : after.fileExtension = session.fileExtension
  seenVersion : after.seenVersion = session.seenVersion
  signals : after.signals = session.signals
  heard : after.heard = session.heard
  registry : ∀ id, session.registry.IsOrdinary id → after.registry.IsOrdinary id
  lines : after.tokens = session.tokens ∧ after.lineTokens = session.lineTokens ∨
    after.lineTokens = lineCut after.tokens session.editor.buffer

theorem Keeps.trans {session after last : Session α} (h : Keeps session after)
    (hnext : Keeps after last) : Keeps session last where
  editor := hnext.editor.trans h.editor
  document := hnext.document.trans h.document
  fileExtension := hnext.fileExtension.trans h.fileExtension
  seenVersion := hnext.seenVersion.trans h.seenVersion
  signals := hnext.signals.trans h.signals
  heard := hnext.heard.trans h.heard
  registry := fun id hregistry => hnext.registry id (h.registry id hregistry)
  lines := by
    rcases hnext.lines with ⟨htokens, hlines⟩ | hcut
    · rw [htokens, hlines]
      exact h.lines
    · rw [← h.editor]
      exact Or.inr hcut

/-- A change of view, metrics and schedule. -/
theorem keeps_of_eq {session after : Session α} (editor : after.editor = session.editor)
    (document : after.document = session.document)
    (fileExtension : after.fileExtension = session.fileExtension)
    (seenVersion : after.seenVersion = session.seenVersion)
    (signals : after.signals = session.signals) (heard : after.heard = session.heard)
    (registry : after.registry = session.registry) (tokens : after.tokens = session.tokens)
    (lineTokens : after.lineTokens = session.lineTokens) : Keeps session after where
  editor := editor
  document := document
  fileExtension := fileExtension
  seenVersion := seenVersion
  signals := signals
  heard := heard
  registry := fun _ hregistry => registry ▸ hregistry
  lines := Or.inl ⟨tokens, lineTokens⟩

theorem applyEvent_keeps (session : Session α) (schedule : Schedule) (event : PipelineEvent) :
    Keeps session ({ session with schedule := some schedule }.applyEvent event).1 := by
  cases event with
  | failed document version error => exact keeps_of_eq rfl rfl rfl rfl rfl rfl rfl rfl rfl
  | tokens set =>
    simp only [applyEvent]
    split
    · rw [reproject_eq]
      exact ⟨rfl, rfl, rfl, rfl, rfl, rfl, fun _ hregistry => hregistry, Or.inr rfl⟩
    · exact keeps_of_eq rfl rfl rfl rfl rfl rfl rfl rfl rfl

theorem applyUpdates_keeps (session : Session α) (bound : Nat) :
    Keeps session (session.applyUpdates bound).1 := by
  induction bound generalizing session with
  | zero => exact keeps_of_eq rfl rfl rfl rfl rfl rfl rfl rfl rfl
  | succ bound ih =>
    simp only [applyUpdates]
    split
    · exact keeps_of_eq rfl rfl rfl rfl rfl rfl rfl rfl rfl
    · exact keeps_of_eq rfl rfl rfl rfl rfl rfl rfl rfl rfl
    · rename_i schedule event _
      exact (session.applyEvent_keeps schedule event).trans (ih _)

theorem waitForTokens_keeps (session : Session α) : Keeps session session.waitForTokens.1 := by
  unfold waitForTokens
  split
  · exact keeps_of_eq rfl rfl rfl rfl rfl rfl rfl rfl rfl
  · exact keeps_of_eq rfl rfl rfl rfl rfl rfl rfl rfl rfl
  · exact session.applyEvent_keeps _ _

theorem keepUp_keeps [Pixel α] (session : Session α) (upkeep : Upkeep α) :
    Keeps session (session.keepUp upkeep) := by
  cases upkeep with
  | applyTokenUpdates => exact session.applyUpdates_keeps _
  | waitForTokens => exact session.waitForTokens_keeps
  | advance duration => exact keeps_of_eq rfl rfl rfl rfl rfl rfl rfl rfl rfl
  | hostScroll actual now => exact keeps_of_eq rfl rfl rfl rfl rfl rfl rfl rfl rfl
  | settle now => exact keeps_of_eq rfl rfl rfl rfl rfl rfl rfl rfl rfl
  | resize height contentWidth => exact keeps_of_eq rfl rfl rfl rfl rfl rfl rfl rfl rfl
  | render =>
    exact ⟨rfl, rfl, rfl, rfl, rfl, rfl, fun _ hregistry => Registry.provided_isOrdinary hregistry,
      Or.inl ⟨rfl, rfl⟩⟩

theorem deliver_keeps (session : Session α) (run : TokenRun) : Keeps session (session.deliver run) :=
  keeps_of_eq rfl rfl rfl rfl rfl rfl rfl rfl rfl

theorem Keeps.caughtUp {session after : Session α} (h : Keeps session after)
    (hcaught : session.CaughtUp) : after.CaughtUp := by
  obtain ⟨id, htells, hregistry⟩ := hcaught.listens
  constructor
  · rw [h.editor, h.document]
    exact hcaught.document
  · rw [h.editor, h.seenVersion]
    exact hcaught.version
  · rw [h.signals]
    exact hcaught.signals
  · rw [h.editor, h.heard]
    exact hcaught.heard
  · rw [h.editor]
    exact ⟨id, .refl htells, h.registry id hregistry⟩

end Session

theorem Session.new_caughtUp [Pixel α] {editor : Editor} (h : editor.Sound)
    (height contentWidth : α) : (Session.new editor height contentWidth).CaughtUp := by
  have htells : (Session.new editor height contentWidth).editor.Tells (editor.bus.lastId + 1) := {
    sound := ⟨h.buffer, h.cursor, h.decorations⟩
    subscribed := by
      simp [Session.new, Session.reproject, Registry.subscribeAll, Editor.subscribe,
        EventBus.subscribe]
    known := Nat.le_add_right (editor.bus.lastId + 1) 2 }
  exact ⟨rfl, rfl, rfl, rfl, _, .refl htells, Registry.empty_isOrdinary _⟩

theorem Session.withTokenizer_keeps (session : Session α) (tokenizer : Tokenizer)
    (runtime : Runtime) : Session.Keeps session (session.withTokenizer tokenizer runtime) :=
  Session.keeps_of_eq rfl rfl rfl rfl rfl rfl rfl rfl rfl

namespace World

variable [Pixel α]

theorem start_caughtUp {editor : Editor} (h : editor.Sound) (height contentWidth : α)
    (tokenizer : Option Tokenizer) (runtime : Runtime) :
    (start editor height contentWidth tokenizer runtime).session.CaughtUp := by
  have hnew := Session.new_caughtUp h height contentWidth
  cases tokenizer with
  | none => exact hnew
  | some tokenizer => exact (Session.withTokenizer_keeps _ tokenizer runtime).caughtUp hnew

theorem step_caughtUp {world : World α} (h : world.session.CaughtUp) (step : Step α) :
    (world.step step).session.CaughtUp := by
  cases step with
  | call call =>
    cases call with
    | work work =>
      show (world.session.carryOut work).CaughtUp
      rw [Session.carryOut_eq]
      rcases h.worked work with ⟨_, _, _, hbehind⟩ | ⟨_, _, _, hcaught⟩
      · exact hbehind.sync
      · exact Session.Behind.sync hcaught
    | upkeep upkeep => exact (world.session.keepUp_keeps upkeep).caughtUp h
  | arrive index =>
    simp only [World.step]
    split
    · exact h
    · exact (world.session.deliver_keeps _).caughtUp h

theorem step_work_editor (world : World α) (work : Session.Work) :
    (world.step (.call (.work work))).session.editor = (world.session.worked work).editor := by
  show (world.session.carryOut work).editor = _
  rw [Session.carryOut_eq, Session.sync_editor]

theorem step_arrive_editor (world : World α) (index : Nat) :
    (world.step (.arrive index)).session.editor = world.session.editor := by
  simp only [World.step]
  split
  · rfl
  · rfl

end World

end HeadlessEditor
