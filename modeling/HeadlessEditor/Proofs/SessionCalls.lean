import HeadlessEditor.Proofs.OrdinaryExtensions
import HeadlessEditor.Session.Render

/-!
The calls of a session. A call that can change the editor does its work on it, which leaves the session
behind, and then the session catches up. Between two calls it is never behind: it knows document and
version of the text, has heard all there was to hear, and still listens.
-/

namespace HeadlessEditor

/-- An operation that leaves subscriptions to others and makes up no announcements. -/
def OrdinaryOperation : Type := { operation : Operation // operation.isOrdinary }

def OrdinaryExtension : Type := { extension : Extension // extension.IsOrdinary }

namespace Session

variable {α : Type}

inductive Work where
  | openDocument (document : DocumentId) (fileExtension : String) (text : Text)
  | handleKey (chord : KeyChord)
  | typeText (text : Text)
  | execute (command : String)
  | edit (operations : List OrdinaryOperation)
  | load (extension : OrdinaryExtension)
  | unload (name : String)

inductive Upkeep (α : Type) where
  | applyTokenUpdates
  | waitForTokens
  | advance (duration : Nat)
  | hostScroll (actual : α) (now : Nat)
  | settle (now : Nat)
  | resize (height contentWidth : α)
  | render

inductive Call (α : Type) where
  | work (work : Work)
  | upkeep (upkeep : Upkeep α)

def carryOut [Pixel α] (session : Session α) : Work → Session α
  | .openDocument document fileExtension text =>
    session.openDocument document fileExtension text
  | .handleKey chord => (session.handleKey chord).1
  | .typeText text => session.typeText text
  | .execute command => (session.execute command).1
  | .edit operations => (session.performAll (operations.map (·.1))).1
  | .load extension => (session.load extension.1).1
  | .unload name => (session.unload name).1

def keepUp [Pixel α] (session : Session α) : Upkeep α → Session α
  | .applyTokenUpdates => session.applyTokenUpdates.1
  | .waitForTokens => session.waitForTokens.1
  | .advance duration => session.advance duration
  | .hostScroll actual now => session.hostScroll actual now
  | .settle now => (session.settle now).1
  | .resize height contentWidth => session.resize height contentWidth
  | .render => session.render.1

def call [Pixel α] (session : Session α) : Call α → Session α
  | .work work => session.carryOut work
  | .upkeep upkeep => session.keepUp upkeep

/-- The session with the work of a call done and before it catches up. -/
def worked (session : Session α) : Work → Session α
  | .openDocument document fileExtension text =>
    { session with editor := session.editor.openDocument document text }.activate document
      fileExtension
  | .handleKey chord =>
    let (registry, editor, _) := session.registry.dispatch chord session.editor
    { session with registry, editor }
  | .typeText text => { session with editor := session.editor.typeText text }
  | .execute command =>
    let (registry, editor, _) := session.registry.execute command session.editor
    { session with registry, editor }
  | .edit operations =>
    { session with editor := session.editor.performAll (operations.map (·.1)) }
  | .load extension =>
    let (registry, editor, _) := session.registry.load extension.1 session.editor
    { session with registry, editor }
  | .unload name =>
    let (registry, editor, _) := session.registry.unload name session.editor
    { session with registry, editor }

theorem foldl_perform (editor : Editor) (operations : List Operation)
    (answers : List (Except EditorError Reply)) :
    (operations.foldl (fun (editor, answers) operation =>
      let (editor, answer) := editor.perform operation
      (editor, answers ++ [answer])) (editor, answers)).1 = editor.performAll operations := by
  induction operations generalizing editor answers with
  | nil => rfl
  | cons operation rest ih => exact ih _ _

/-- After its work the session catches up, whatever the call. -/
theorem carryOut_eq [Pixel α] (session : Session α) (work : Work) :
    session.carryOut work = (session.worked work).sync := by
  cases work with
  | edit operations =>
    simp only [carryOut, performAll, edit, worked]
    rw [foldl_perform]
  | openDocument document fileExtension text => rfl
  | handleKey chord => rfl
  | typeText text => rfl
  | execute command => rfl
  | load extension => rfl
  | unload name => rfl

/-- The session changed over to the document that the editor has open. -/
def entered (session : Session α) : Session α :=
  if session.editor.document = session.document then session
  else
    session.activate session.editor.document
      (DocumentId.fileExtension session.editor.document)

theorem entered_of_eq {session : Session α} (h : session.editor.document = session.document) :
    session.entered = session := by
  rw [entered, if_pos h]

theorem entered_of_ne {session : Session α} (h : session.editor.document ≠ session.document) :
    session.entered = session.activate session.editor.document
      (DocumentId.fileExtension session.editor.document) := by
  rw [entered, if_neg h]

theorem entered_editor (session : Session α) : session.entered.editor = session.editor := by
  unfold entered
  split
  · rfl
  · rfl

theorem entered_registry (session : Session α) : session.entered.registry = session.registry := by
  unfold entered
  split
  · rfl
  · rfl

theorem entered_document (session : Session α) :
    session.entered.document = session.editor.document := by
  unfold entered
  split
  · rename_i h
    exact h.symm
  · rfl

/-- The edits that the session acts upon when it catches up. -/
def unheardEdits (session : Session α) : List (Option TextEdit) := session.listen.signals.edits

def lineCut (tokens : List Token) (buffer : Buffer) : List (List LineToken) :=
  (TokenProjection.project tokens buffer.table []).lines

theorem reproject_eq (session : Session α) :
    session.reproject
      = { session with lineTokens := lineCut session.tokens session.editor.buffer } := by
  simp only [reproject, lineCut, TokenProjection.lines_project_eq_sweep]

structure CatchesUp (session after : Session α) : Prop where
  editor : after.editor = session.editor
  registry : after.registry = session.registry
  document : after.document = session.document
  fileExtension : after.fileExtension = session.fileExtension
  seenVersion : after.seenVersion = session.editor.buffer.version
  signals : after.signals = .none
  heard : after.heard = session.editor.journal.length
  tokens : after.tokens = (carryThrough? session.unheardEdits session.tokens).getD []
  lineTokens : after.lineTokens =
    if session.editor.buffer.version = session.seenVersion then session.lineTokens
    else lineCut after.tokens session.editor.buffer
  schedule : ∃ debounce : Schedule → Schedule,
    (debounce = id ∨ ∃ time, debounce = (·.setDebounce time)) ∧
    after.schedule =
      if session.editor.buffer.version = session.seenVersion then session.schedule.map debounce
      else (session.schedule.map debounce).map
        (·.contentChanged session.editor.buffer.content session.editor.buffer.version)

/-- The session with all acted upon that it can hear, and the view as it was. -/
def acted [Pixel α] (session : Session α) : Session α :=
  let carried :=
    { session.listen with
      signals := .none
      tokens := (carryThrough? session.unheardEdits session.tokens).getD []
      overflowed :=
        session.overflowed || (carryThrough? session.unheardEdits session.tokens).isNone }
  let ready := if session.listen.signals.settingsChanged then carried.applySettings else carried
  ready.followContent

theorem followContent_eq (session : Session α) :
    session.followContent =
      if session.editor.buffer.version = session.seenVersion then session
      else { session with
        seenVersion := session.editor.buffer.version
        lineTokens := lineCut session.tokens session.editor.buffer
        schedule := session.schedule.map
          (·.contentChanged session.editor.buffer.content session.editor.buffer.version) } := by
  simp only [followContent, reproject_eq]

/-- The last step, from a session that has acted upon its signals and let the text be. -/
theorem followContent_catchesUp {session ready : Session α} (editor : ready.editor = session.editor)
    (registry : ready.registry = session.registry) (document : ready.document = session.document)
    (fileExtension : ready.fileExtension = session.fileExtension)
    (seenVersion : ready.seenVersion = session.seenVersion) (signals : ready.signals = .none)
    (heard : ready.heard = session.editor.journal.length)
    (tokens : ready.tokens = (carryThrough? session.unheardEdits session.tokens).getD [])
    (lineTokens : ready.lineTokens = session.lineTokens)
    (schedule : ∃ debounce : Schedule → Schedule,
      (debounce = id ∨ ∃ time, debounce = (·.setDebounce time)) ∧
      ready.schedule = session.schedule.map debounce) :
    CatchesUp session ready.followContent := by
  obtain ⟨debounce, hdebounce, hschedule⟩ := schedule
  rw [followContent_eq, editor, seenVersion]
  by_cases hversion : session.editor.buffer.version = session.seenVersion
  · rw [if_pos hversion]
    exact {
      editor, registry, document, fileExtension, signals, heard, tokens
      seenVersion := seenVersion.trans hversion.symm
      lineTokens := by rw [if_pos hversion, lineTokens]
      schedule := ⟨debounce, hdebounce, by rw [if_pos hversion, hschedule]⟩ }
  · rw [if_neg hversion]
    exact {
      editor := rfl
      seenVersion := rfl
      registry, document, fileExtension, signals, heard, tokens
      lineTokens := by rw [if_neg hversion]
      schedule := ⟨debounce, hdebounce, by rw [if_neg hversion, hschedule]⟩ }

theorem acted_catchesUp [Pixel α] (session : Session α) : CatchesUp session session.acted := by
  unfold acted
  by_cases hsettings : session.listen.signals.settingsChanged
  · simp only [if_pos hsettings]
    exact followContent_catchesUp rfl rfl rfl rfl rfl rfl rfl rfl rfl
      ⟨_, Or.inr ⟨_, rfl⟩, rfl⟩
  · simp only [if_neg hsettings]
    exact followContent_catchesUp rfl rfl rfl rfl rfl rfl rfl rfl rfl
      ⟨id, Or.inl rfl, (Option.map_id_apply).symm⟩

theorem revealCaret_eq [Pixel α] (session : Session α) :
    ∃ view, session.revealCaret = { session with view } := by
  unfold revealCaret
  split
  · exact ⟨session.view, rfl⟩
  · split
    · exact ⟨_, rfl⟩
    · exact ⟨_, rfl⟩

theorem sync_eq [Pixel α] (session : Session α) :
    ∃ view, session.sync = { session.entered.acted with view } := by
  let shown : Session α :=
    { session.entered.acted with
      view := session.entered.acted.view.setLineCount session.entered.acted.editor.buffer.lineCount }
  have hsync : session.sync =
      if session.entered.listen.signals.cursorMoved || !session.entered.unheardEdits.isEmpty
      then shown.revealCaret else shown := rfl
  rw [hsync]
  split
  · obtain ⟨view, hview⟩ := shown.revealCaret_eq
    exact ⟨view, hview⟩
  · exact ⟨_, rfl⟩

theorem sync_catchesUp [Pixel α] (session : Session α) : CatchesUp session.entered session.sync := by
  obtain ⟨view, hview⟩ := session.sync_eq
  obtain ⟨editor, registry, document, fileExtension, seenVersion, signals, heard, tokens, lineTokens,
    schedule⟩ := session.entered.acted_catchesUp
  rw [hview]
  exact ⟨editor, registry, document, fileExtension, seenVersion, signals, heard, tokens, lineTokens,
    schedule⟩

theorem sync_editor [Pixel α] (session : Session α) : session.sync.editor = session.editor :=
  session.sync_catchesUp.editor.trans session.entered_editor

/-- The session looked last when its editor was as `seen`, and the editor went on from there. -/
structure Behind (session : Session α) (seen : Editor) : Prop where
  document : seen.document = session.document
  version : seen.buffer.version = session.seenVersion
  signals : session.signals.edits = []
  heard : session.heard = seen.journal.length
  follows : ∃ id, Editor.Follows id seen session.editor ∧ session.registry.IsOrdinary id

/-- The session has seen its editor as it is. -/
def CaughtUp (session : Session α) : Prop := session.Behind session.editor

theorem Behind.fate {session : Session α} {seen : Editor} (h : session.Behind seen) :
    Editor.TextFate seen session.editor session.unheardEdits := by
  obtain ⟨id, ⟨-, -, notices, hjournal, hfate⟩, -⟩ := h.follows
  have hheard : session.unheardEdits = heardEdits notices := by
    simp only [unheardEdits, listen]
    rw [hjournal, h.heard, List.drop_left, Signals.hear_edits, h.signals, List.nil_append]
  rw [hheard]
  exact hfate

theorem CaughtUp.unheardEdits {session : Session α} (h : session.CaughtUp) :
    session.unheardEdits = [] := by
  simp only [Session.unheardEdits, listen]
  rw [h.heard, List.drop_length, Signals.hear_edits, h.signals]
  rfl

theorem activate_caughtUp (session : Session α)
    (h : ∃ id, session.editor.Tells id ∧ session.registry.IsOrdinary id)
    (fileExtension : String) :
    (session.activate session.editor.document fileExtension).CaughtUp := by
  obtain ⟨id, htells, hregistry⟩ := h
  exact ⟨rfl, rfl, rfl, rfl, id, .refl htells, hregistry⟩

theorem Behind.listens {session : Session α} {seen : Editor} (h : session.Behind seen) :
    ∃ id, session.editor.Tells id ∧ session.registry.IsOrdinary id := by
  obtain ⟨id, hfollows, hregistry⟩ := h.follows
  exact ⟨id, hfollows.tells, hregistry⟩

theorem Behind.sound {session : Session α} {seen : Editor} (h : session.Behind seen) :
    session.editor.buffer.Sound := by
  obtain ⟨id, htells, -⟩ := h.listens
  exact htells.sound.buffer

/-- Catching up leaves nothing behind. -/
theorem Behind.sync [Pixel α] {session : Session α} {seen : Editor} (h : session.Behind seen) :
    session.sync.CaughtUp := by
  have hs := session.sync_catchesUp
  obtain ⟨id, htells, hregistry⟩ := h.listens
  have heditor := session.sync_editor
  have hentered := session.entered_editor
  constructor
  · rw [heditor, hs.document, session.entered_document]
  · rw [heditor, hs.seenVersion, hentered]
  · rw [hs.signals]
    rfl
  · rw [heditor, hs.heard, hentered]
  · rw [heditor, hs.registry, session.entered_registry]
    exact ⟨id, .refl htells, hregistry⟩

theorem openDocument_document (editor : Editor) (document : DocumentId) (text : Text) :
    (editor.openDocument document text).document = document := by
  rw [Editor.openDocument_eq]
  rfl

/-- Work leaves the session behind, but opening a document, which the session enters at once. -/
theorem CaughtUp.worked {session : Session α} (h : session.CaughtUp) (work : Work) :
    (∃ editor registry, session.worked work = { session with editor, registry } ∧
      (session.worked work).Behind session.editor) ∨
    (∃ editor fileExtension, session.worked work =
        { session with editor }.activate editor.document fileExtension ∧
      (session.worked work).CaughtUp) := by
  obtain ⟨id, htells, hregistry⟩ := h.listens
  have hbehind : ∀ editor registry, Editor.Follows id session.editor editor →
      registry.IsOrdinary id → Behind { session with editor, registry } session.editor :=
    fun editor registry hfollows hordinary =>
      ⟨h.document, h.version, h.signals, h.heard, id, hfollows, hordinary⟩
  cases work with
  | openDocument document fileExtension text =>
    right
    have hopened := Editor.openDocument_follows htells document text
    have hdocument := openDocument_document session.editor document text
    refine ⟨session.editor.openDocument document text, fileExtension, ?_, ?_⟩
    · rw [hdocument]
      rfl
    · have hcaught := activate_caughtUp
        { session with editor := session.editor.openDocument document text }
        ⟨id, hopened.tells, hregistry⟩ fileExtension
      rw [hdocument] at hcaught
      exact hcaught
  | handleKey chord =>
    left
    obtain ⟨hfollows, hordinary⟩ := Registry.dispatch_follows htells hregistry chord
    exact ⟨_, _, rfl, hbehind _ _ hfollows hordinary⟩
  | typeText text =>
    left
    exact ⟨_, _, rfl, hbehind _ _ ((Editor.typeText_edits _ text).follows htells) hregistry⟩
  | execute command =>
    left
    obtain ⟨hfollows, hordinary⟩ := Registry.execute_follows htells hregistry command
    exact ⟨_, _, rfl, hbehind _ _ hfollows hordinary⟩
  | edit operations =>
    left
    have hevolves : Editor.Evolves session.editor
        (session.editor.performAll (operations.map (·.1))) := by
      apply Editor.evolves_performAll
      intro operation hoperation
      obtain ⟨ordinary, -, rfl⟩ := List.mem_map.1 hoperation
      exact ordinary.2
    exact ⟨_, _, rfl, hbehind _ _ (hevolves.follows htells) hregistry⟩
  | load extension =>
    left
    obtain ⟨hfollows, hordinary⟩ := Registry.load_follows htells hregistry extension.2
    exact ⟨_, _, rfl, hbehind _ _ hfollows hordinary⟩
  | unload name =>
    left
    obtain ⟨hfollows, hordinary⟩ := Registry.unload_follows htells hregistry name
    exact ⟨_, _, rfl, hbehind _ _ hfollows hordinary⟩

end Session

end HeadlessEditor
