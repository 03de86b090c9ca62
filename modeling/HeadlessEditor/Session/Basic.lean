import HeadlessEditor.Document.FileExtension
import HeadlessEditor.Extension.Registry
import HeadlessEditor.Syntax.LineTokens
import HeadlessEditor.Syntax.Schedule

/-!
A session puts an editor to use: with extensions, a view that scrolls, and tokens. It listens to its
editor, and after each call that can change the editor it catches up (`Session.sync`): tokens are
carried through the edits, the tokenizer gets the new text, and the view follows caret and settings.
-/

namespace HeadlessEditor

structure Signals where
  /-- Edits in order; `none` where the whole text was replaced. -/
  edits : List (Option TextEdit)
  cursorMoved : Bool
  settingsChanged : Bool
  deriving DecidableEq, Repr

namespace Signals

def none : Signals := ⟨[], false, false⟩

def add (signals : Signals) : Event → Signals
  | .content _ _ edit => { signals with edits := signals.edits ++ [edit] }
  | .cursor _ => { signals with cursorMoved := true }
  | .settings _ => { signals with settingsChanged := true }
  | _ => signals

def hear (signals : Signals) (notices : List Notice) : Signals :=
  notices.foldl (fun signals notice =>
    match notice with
    | .delivered subscriber event =>
      if subscriber.listener = .session then signals.add event else signals
    | .called .. => signals) signals

end Signals

structure Session (α : Type) where
  editor : Editor
  registry : Registry
  view : Viewport α
  metrics : LayoutMetrics α
  /-- The runs of the tokenizer, if there is one. -/
  schedule : Option Schedule
  document : DocumentId
  fileExtension : String
  /-- The latest tokens, carried through the edits since. -/
  tokens : List Token
  lineTokens : List (List LineToken)
  /-- The version of the text that tokens and view belong to. -/
  seenVersion : Nat
  contentWidth : α
  signals : Signals
  /-- How much of the editor's journal the session has heard. -/
  heard : Nat
  subscriptions : List SubscriptionId
  /-- Carrying a token through an edit has left the machine numbers. A session that has come to this
  is at its end, and what else it holds is of no account. -/
  overflowed : Bool

namespace Session

variable {α : Type} [Pixel α]

def reproject (session : Session α) : Session α :=
  let projection :=
    TokenProjection.project session.tokens session.editor.buffer.table session.lineTokens
  { session with lineTokens := projection.lines }

def new (editor : Editor) (height contentWidth : α) : Session α :=
  let settings := editor.settings
  let (editor, subscriptions) :=
    Registry.subscribeAll editor .session [.content, .cursor, .settings]
  reproject
    { editor
      registry := .empty
      view := ((Viewport.new height (Pixel.ofFloat settings.lineHeight)
          editor.buffer.lineCount).setOverscan settings.overscan).setSettleWindow
        settings.viewport.settleWindowMs
      metrics := settings.layoutMetrics contentWidth
      schedule := none
      document := editor.document
      fileExtension := DocumentId.fileExtension editor.document
      tokens := []
      lineTokens := []
      seenVersion := editor.buffer.version
      contentWidth
      signals := .none
      heard := editor.journal.length
      subscriptions
      overflowed := false }

/-- Gives the session a tokenizer, which starts on the open document. -/
def withTokenizer (session : Session α) (tokenizer : Tokenizer) (runtime : Runtime) :
    Session α :=
  let settings := session.editor.settings.tokenization
  { session with
    schedule := some ((Schedule.new tokenizer runtime settings.debounceMs
        settings.cacheCapacity).openDocument session.document session.fileExtension
      session.editor.buffer.content session.editor.buffer.version) }

/-- Hears what the editor's journal has new. -/
def listen (session : Session α) : Session α :=
  { session with
    signals := session.signals.hear (session.editor.journal.drop session.heard)
    heard := session.editor.journal.length }

/-- Changes over to a document that the editor has opened. Edits heard before are of no use any
more; tokens that are kept for the document are. -/
def activate (session : Session α) (document : DocumentId) (fileExtension : String) :
    Session α :=
  let session := session.listen
  let buffer := session.editor.buffer
  let schedule := session.schedule.map
    (·.openDocument document fileExtension buffer.content buffer.version)
  let cached := schedule.bind (·.pipeline.current)
  reproject
    { session with
      signals := { session.signals with edits := [] }
      tokens := (cached.map (·.tokens)).getD []
      lineTokens := []
      document
      fileExtension
      seenVersion := buffer.version
      schedule }

/-- Tokens after an edit, or after the whole text was replaced; `none` if a step leaves the machine
numbers. -/
def carryTokens? (tokens : List Token) : Option TextEdit → Option (List Token)
  | some edit => mapTokensThroughEdit? edit tokens
  | none => some []

def carryThrough? (edits : List (Option TextEdit)) (tokens : List Token) : Option (List Token) :=
  edits.foldlM carryTokens? tokens

def applySettings (session : Session α) : Session α :=
  let settings := session.editor.settings
  { session with
    metrics := settings.layoutMetrics session.contentWidth
    view := ((session.view.setLineHeight (Pixel.ofFloat settings.lineHeight)).setOverscan
      settings.overscan).setSettleWindow settings.viewport.settleWindowMs
    schedule := session.schedule.map (·.setDebounce settings.tokenization.debounceMs) }

/-- Cuts the tokens of a changed text into lines and asks for new ones. -/
def followContent (session : Session α) : Session α :=
  let buffer := session.editor.buffer
  if buffer.version = session.seenVersion then session
  else
    let session := { session with seenVersion := buffer.version }.reproject
    { session with
      schedule := session.schedule.map (·.contentChanged buffer.content buffer.version) }

/-- Brings the caret into view. While somebody is scrolling the host is asked for it. -/
def revealCaret (session : Session α) : Session α :=
  match session.view.reveal? session.editor.caret.line with
  | none => session
  | some target =>
    match session.view.setScrollTop target with
    | (view, true) => { session with view }
    | (view, false) => { session with view := (view.requestScroll target).1 }

def sync (session : Session α) : Session α :=
  let session :=
    if session.editor.document = session.document then session
    else
      session.activate session.editor.document
        (DocumentId.fileExtension session.editor.document)
  let session := session.listen
  let signals := session.signals
  let carried := carryThrough? signals.edits session.tokens
  let session :=
    { session with
      signals := .none
      tokens := carried.getD []
      overflowed := session.overflowed || carried.isNone }
  let session := if signals.settingsChanged then session.applySettings else session
  let session := session.followContent
  let session :=
    { session with view := session.view.setLineCount session.editor.buffer.lineCount }
  if signals.cursorMoved || !signals.edits.isEmpty then session.revealCaret else session

def edit {β : Type} (session : Session α) (change : Editor → Editor × β) : Session α × β :=
  let (editor, result) := change session.editor
  (sync { session with editor }, result)

/-- Carries operations out before catching up; the answers are in order. -/
def performAll (session : Session α) (operations : List Operation) :
    Session α × List (Except EditorError Reply) :=
  session.edit fun editor =>
    operations.foldl (fun (editor, answers) operation =>
      let (editor, answer) := editor.perform operation
      (editor, answers ++ [answer])) (editor, [])

def typeText (session : Session α) (text : Text) : Session α :=
  (session.edit fun editor => (editor.typeText text, ())).1

def openDocument (session : Session α) (document : DocumentId) (fileExtension : String)
    (text : Text) : Session α :=
  sync ({ session with editor := session.editor.openDocument document text }.activate document
    fileExtension)

def withRegistry {β : Type} (session : Session α)
    (call : Registry → Editor → Registry × Editor × β) : Session α × β :=
  let (registry, editor, result) := call session.registry session.editor
  (sync { session with registry, editor }, result)

def load (session : Session α) (extension : Extension) :
    Session α × Except ExtensionError Unit :=
  session.withRegistry fun registry editor => registry.load extension editor

def unload (session : Session α) (name : String) : Session α × Except ExtensionError Unit :=
  session.withRegistry fun registry editor => registry.unload name editor

def handleKey (session : Session α) (chord : KeyChord) :
    Session α × Except CommandError DispatchOutcome :=
  session.withRegistry fun registry editor => registry.dispatch chord editor

def execute (session : Session α) (id : String) :
    Session α × Except CommandError DispatchOutcome :=
  session.withRegistry fun registry editor => registry.execute id editor

/-- Takes over the tokens of an event if they are of the text as it is. The flag tells whether. -/
def applyEvent (session : Session α) : PipelineEvent → Session α × Bool
  | .tokens set =>
    if set.document = session.document ∧ set.version = session.editor.buffer.version then
      ({ session with tokens := set.tokens }.reproject, true)
    else (session, false)
  | .failed .. => (session, false)

/-- Takes over finished runs, so many at most. The flag tells whether tokens changed. -/
def applyUpdates (session : Session α) : Nat → Session α × Bool
  | 0 => (session, false)
  | bound + 1 =>
    match session.schedule.map (·.receive) with
    | none => (session, false)
    | some (schedule, none) => ({ session with schedule := some schedule }, false)
    | some (schedule, some event) =>
      let (session, changed) := { session with schedule := some schedule }.applyEvent event
      let (session, more) := session.applyUpdates bound
      (session, changed || more)

def applyTokenUpdates (session : Session α) : Session α × Bool :=
  session.applyUpdates ((session.schedule.map (·.pipeline.queue.length)).getD 0 + 1)

/-- Waits for the pending run and takes its event over; `none` at once if no run is pending. -/
def waitForTokens (session : Session α) : Session α × Option PipelineEvent :=
  match session.schedule.map (·.next) with
  | none => (session, none)
  | some (schedule, none) => ({ session with schedule := some schedule }, none)
  | some (schedule, some event) =>
    (({ session with schedule := some schedule }.applyEvent event).1, some event)

def advance (session : Session α) (duration : Nat) : Session α :=
  { session with schedule := session.schedule.map (·.advance duration) }

def hostScroll (session : Session α) (actual : α) (now : Nat) : Session α :=
  { session with view := session.view.hostScroll actual now }

def settle (session : Session α) (now : Nat) : Session α × Bool :=
  let (view, settled) := session.view.settle now
  ({ session with view }, settled)

def resize (session : Session α) (height contentWidth : α) : Session α :=
  { session with
    contentWidth
    view := session.view.resize height
    metrics := session.editor.settings.layoutMetrics contentWidth }

/-- Ends the session: unloads all extensions and ends the subscriptions, and leaves the editor. -/
def close (session : Session α) : Editor :=
  Registry.unsubscribeAll (session.registry.reset session.editor).2 session.subscriptions

end Session

end HeadlessEditor
