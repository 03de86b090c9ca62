import HeadlessEditor.Proofs.Attention
import HeadlessEditor.Proofs.SessionRuns

/-!
Turns of a session: its calls, with whatever hosts and extensions do to the editor in them as long as
they leave the subscriptions of the session alone, and outcomes of the tokenizer. After each turn the
session has heard all there was to hear. What it has heard in a turn decides what it shows afterwards.
-/

namespace HeadlessEditor

namespace Viewport

variable {α : Type}

structure SameBut (view after : Viewport α) : Prop where
  lineHeight : after.lineHeight = view.lineHeight
  height : after.height = view.height
  lineCount : after.lineCount = view.lineCount
  overscan : after.overscan = view.overscan
  settleWindow : after.settleWindow = view.settleWindow

variable [Pixel α]

def withSettings (view : Viewport α) (settings : Settings) : Viewport α :=
  ((view.setLineHeight (Pixel.ofFloat settings.lineHeight)).setOverscan
    settings.overscan).setSettleWindow settings.viewport.settleWindowMs

/-- Brings a line into view, or asks the host for it while somebody is scrolling. -/
def bringIn (view : Viewport α) (line : Nat) : Viewport α :=
  match view.reveal? line with
  | none => view
  | some target =>
    match view.setScrollTop target with
    | (view, true) => view
    | (view, false) => (view.requestScroll target).1

/-- The view with the lines of an editor, and with what its settings say if they have changed. -/
def fit (view : Viewport α) (news : Signals) (editor : Editor) : Viewport α :=
  let fitted := if news.settingsChanged then view.withSettings editor.settings else view
  fitted.setLineCount editor.buffer.lineCount

def follow (view : Viewport α) (news : Signals) (editor : Editor) : Viewport α :=
  if news.cursorMoved || !news.edits.isEmpty then
    (view.fit news editor).bringIn editor.caret.line
  else view.fit news editor

theorem bringIn_sameBut (view : Viewport α) (line : Nat) : view.SameBut (view.bringIn line) := by
  unfold bringIn
  split
  · exact ⟨rfl, rfl, rfl, rfl, rfl⟩
  · unfold setScrollTop
    cases view.isScrolling with
    | false => exact ⟨rfl, rfl, rfl, rfl, rfl⟩
    | true => exact ⟨rfl, rfl, rfl, rfl, rfl⟩

theorem bringIn_isScrolling (view : Viewport α) (line : Nat) :
    (view.bringIn line).isScrolling = view.isScrolling := by
  unfold bringIn
  split
  · rfl
  · unfold setScrollTop
    cases hscrolling : view.isScrolling with
    | false => exact hscrolling
    | true => exact hscrolling

theorem follow_isScrolling (view : Viewport α) (news : Signals) (editor : Editor) :
    (view.follow news editor).isScrolling = (view.fit news editor).isScrolling := by
  unfold follow
  split
  · exact bringIn_isScrolling _ _
  · rfl

theorem follow_sameBut (view : Viewport α) (news : Signals) (editor : Editor) :
    (view.fit news editor).SameBut (view.follow news editor) := by
  unfold follow
  split
  · exact bringIn_sameBut _ _
  · exact ⟨rfl, rfl, rfl, rfl, rfl⟩

end Viewport

namespace Session

variable {α : Type}

inductive Job where
  | openDocument (document : DocumentId) (fileExtension : String) (text : Text)
  | handleKey (chord : KeyChord)
  | typeText (text : Text)
  | execute (command : String)
  | edit (change : Editor → Editor)
  | load (extension : Extension)
  | unload (name : String)

inductive Turn (α : Type) where
  | job (job : Job)
  | attach (tokenizer : Tokenizer) (runtime : Runtime)
  | upkeep (upkeep : Upkeep α)
  | deliver (run : TokenRun)

def doJob [Pixel α] (session : Session α) : Job → Session α
  | .openDocument document fileExtension text =>
    session.openDocument document fileExtension text
  | .handleKey chord => (session.handleKey chord).1
  | .typeText text => session.typeText text
  | .execute command => (session.execute command).1
  | .edit change => (session.edit fun editor => (change editor, ())).1
  | .load extension => (session.load extension).1
  | .unload name => (session.unload name).1

def turn [Pixel α] (session : Session α) : Turn α → Session α
  | .job job => session.doJob job
  | .attach tokenizer runtime => session.withTokenizer tokenizer runtime
  | .upkeep upkeep => session.keepUp upkeep
  | .deliver run => session.deliver run

def turns [Pixel α] (session : Session α) : List (Turn α) → Session α
  | [] => session
  | turn :: rest => (session.turn turn).turns rest

/-- Whether all that is brought in with a job leaves these subscriptions alone. -/
def Job.Spares (ids : List SubscriptionId) : Job → Prop
  | .edit change => ∀ editor, Editor.Spares ids editor (change editor)
  | .load extension => extension.Does (Editor.Spares ids)
  | _ => True

def Turn.Spares (ids : List SubscriptionId) : Turn α → Prop
  | .job given => given.Spares ids
  | _ => True

def workOn (session : Session α) : Job → Registry × Editor
  | .openDocument document _ text =>
    (session.registry, session.editor.openDocument document text)
  | .handleKey chord =>
    let (registry, editor, _) := session.registry.dispatch chord session.editor
    (registry, editor)
  | .typeText text => (session.registry, session.editor.typeText text)
  | .execute command =>
    let (registry, editor, _) := session.registry.execute command session.editor
    (registry, editor)
  | .edit change => (session.registry, change session.editor)
  | .load extension =>
    let (registry, editor, _) := session.registry.load extension session.editor
    (registry, editor)
  | .unload name =>
    let (registry, editor, _) := session.registry.unload name session.editor
    (registry, editor)

def withWork (session : Session α) (job : Job) : Session α :=
  { session with registry := (session.workOn job).1, editor := (session.workOn job).2 }

/-- The session with the work of a job done, before it catches up. -/
def begun (session : Session α) (job : Job) : Session α :=
  match job with
  | .openDocument document fileExtension _ => (session.withWork job).activate document fileExtension
  | _ => session.withWork job

theorem doJob_eq [Pixel α] (session : Session α) (job : Job) :
    session.doJob job = (session.begun job).sync := by
  cases job <;> rfl

/-- The work of a job leaves the subscriptions alone, and so does what is loaded afterwards. -/
theorem workOn_course {session : Session α} {ids : List SubscriptionId}
    (h : session.registry.Does (Editor.Spares ids) (· ∈ ids))
    (known : ∀ id ∈ ids, id ≤ session.editor.bus.lastId) {job : Job} (hjob : job.Spares ids) :
    Editor.Course (Editor.Spares ids) (· ∈ ids) session.editor (session.workOn job).2 ∧
    (session.workOn job).1.Does (Editor.Spares ids) (· ∈ ids) := by
  have operation (operation : Operation) (hspares : operation.spares ids) :
      Editor.Course (Editor.Spares ids) (· ∈ ids) session.editor
        (session.editor.perform operation).1 :=
    .one (.perform hspares (.done _))
  cases job with
  | openDocument document fileExtension text => exact ⟨operation (.openDocument document text) rfl, h⟩
  | typeText text => exact ⟨operation (.typeText text) rfl, h⟩
  | edit change => exact ⟨.one (hjob session.editor), h⟩
  | handleKey chord => exact h.dispatch chord session.editor
  | execute command => exact h.execute command session.editor
  | unload name => exact h.unload name session.editor
  | load extension =>
    have hgrown := (hjob.activate session.editor).lastId_le
    exact h.load hjob fun id hid => Nat.le_trans (known id hid) hgrown

def heeded : List EventKind := [.content, .cursor, .settings]

/-- Whether the session changes over to a document in the course of a job. -/
def reopens (session : Session α) : Job → Bool
  | .openDocument .. => true
  | job => (session.workOn job).2.document != session.document

/-- What the session hears of a job and acts upon: no edits if it changes over to a document. -/
def news (session : Session α) (job : Job) : Signals :=
  let heard := (session.withWork job).listen.signals
  if session.reopens job then { heard with edits := [] } else heard

theorem listen_activate (session : Session α) (document : DocumentId) (fileExtension : String) :
    (session.activate document fileExtension).listen.signals
      = { session.listen.signals with edits := [] } := by
  simp only [listen, activate, reproject, List.drop_length]
  rfl

theorem entered_withWork (session : Session α) (job : Job) :
    (session.withWork job).entered.listen.signals =
      let heard := (session.withWork job).listen.signals
      if (session.workOn job).2.document != session.document then { heard with edits := [] }
      else heard := by
  by_cases hdocument : (session.workOn job).2.document = session.document
  · rw [entered_of_eq hdocument]
    simp [hdocument]
  · rw [entered_of_ne hdocument, listen_activate]
    simp [hdocument]

/-- Where the job is to open a document, the session has changed over before it catches up. -/
theorem entered_begun (session : Session α) (job : Job) :
    (session.begun job).entered.listen.signals = session.news job := by
  cases job with
  | openDocument document fileExtension text =>
    have hdocument : (session.begun (.openDocument document fileExtension text)).editor.document
        = (session.begun (.openDocument document fileExtension text)).document :=
      openDocument_document session.editor document text
    rw [entered_of_eq hdocument]
    exact listen_activate _ document fileExtension
  | _ => exact session.entered_withWork _

theorem begun_editor (session : Session α) (job : Job) :
    (session.begun job).editor = (session.workOn job).2 := by
  cases job <;> rfl

theorem begun_registry (session : Session α) (job : Job) :
    (session.begun job).registry = (session.workOn job).1 := by
  cases job <;> rfl

theorem begun_view (session : Session α) (job : Job) : (session.begun job).view = session.view := by
  cases job <;> rfl

theorem entered_view (session : Session α) : session.entered.view = session.view := by
  unfold entered
  split
  · rfl
  · rfl

theorem acted_view [Pixel α] (session : Session α) :
    session.acted.view =
      if session.listen.signals.settingsChanged then session.view.withSettings session.editor.settings
      else session.view := by
  have hfollow : ∀ ready : Session α, ready.followContent.view = ready.view := by
    intro ready
    rw [followContent_eq]
    split
    · rfl
    · rfl
  simp only [acted, hfollow]
  split
  · rfl
  · rfl

theorem revealCaret_view [Pixel α] (session : Session α) :
    session.revealCaret.view = session.view.bringIn session.editor.caret.line := by
  unfold revealCaret Viewport.bringIn
  cases session.view.reveal? session.editor.caret.line with
  | none => rfl
  | some target =>
    dsimp only
    cases session.view.setScrollTop target with
    | mk view moved =>
      cases moved with
      | false => rfl
      | true => rfl

/-- The view follows what has been heard. -/
theorem sync_view [Pixel α] (session : Session α) :
    session.sync.view = session.view.follow session.entered.listen.signals session.editor := by
  let shown : Session α :=
    { session.entered.acted with
      view := session.entered.acted.view.setLineCount session.entered.acted.editor.buffer.lineCount }
  have hsync : session.sync =
      if session.entered.listen.signals.cursorMoved
          || !session.entered.listen.signals.edits.isEmpty
      then shown.revealCaret else shown := rfl
  have heditor : session.entered.acted.editor = session.editor :=
    session.entered.acted_catchesUp.editor.trans session.entered_editor
  have hshown : shown.view = session.view.fit session.entered.listen.signals session.editor := by
    show session.entered.acted.view.setLineCount _ = _
    rw [acted_view, heditor, entered_view, entered_editor]
    rfl
  rw [hsync, Viewport.follow]
  split
  · rw [revealCaret_view, hshown]
    show Viewport.bringIn _ session.entered.acted.editor.caret.line = _
    rw [heditor]
  · exact hshown

theorem doJob_view [Pixel α] (session : Session α) (job : Job) :
    (session.doJob job).view = session.view.follow (session.news job) (session.workOn job).2 := by
  rw [doJob_eq, sync_view, entered_begun, begun_view, begun_editor]

theorem doJob_editor [Pixel α] (session : Session α) (job : Job) :
    (session.doJob job).editor = (session.workOn job).2 := by
  rw [doJob_eq, sync_editor, begun_editor]

/-- The session has heard all there was to hear, and goes on hearing all it heeds: its subscriptions are
among those that extensions leave alone. -/
structure Attends (session : Session α) (ids : List SubscriptionId) : Prop where
  signals : session.signals = .none
  heard : session.heard = session.editor.journal.length
  subscribed : ∀ kind ∈ heeded, ∃ id ∈ ids, session.editor.Has ⟨id, kind, .session⟩
  registry : session.registry.Does (Editor.Spares ids) (· ∈ ids)
  known : ∀ id ∈ ids, id ≤ session.editor.bus.lastId

variable {session : Session α} {ids : List SubscriptionId}

theorem Attends.sound (h : session.Attends ids) : session.editor.Sound := by
  obtain ⟨_, -, hhas⟩ := h.subscribed .content (by decide)
  exact hhas.sound

/-- Of each kind that the session heeds, either it has heard or there is nothing to hear of. -/
theorem Attends.hears (h : session.Attends ids) {job : Job} (hjob : job.Spares ids)
    {kind : EventKind} (hkind : kind ∈ heeded) :
    session.editor.SameIn (session.workOn job).2 kind ∨
      (session.withWork job).listen.signals.noted kind := by
  obtain ⟨id, hid, hhas⟩ := h.subscribed kind hkind
  obtain ⟨hcourse, -⟩ := workOn_course h.registry h.known hjob
  obtain ⟨notices, hjournal, htold⟩ := (hcourse.informs hhas hid).told
  refine htold.imp_right ?_
  rintro ⟨event, hevent, hin⟩
  -- The session has listened to the whole journal before, so these notices are what it hears.
  have hnews : (session.withWork job).editor.journal.drop session.heard = notices := by
    rw [withWork, hjournal, h.heard, List.drop_left]
  rw [listen]
  show ((session.withWork job).signals.hear
    ((session.withWork job).editor.journal.drop session.heard)).noted kind
  rw [hnews]
  dsimp only at hevent
  rw [← hevent]
  exact Signals.noted_of_delivered hin rfl _

theorem Attends.doJob [Pixel α] (h : session.Attends ids) {job : Job} (hjob : job.Spares ids) :
    (session.doJob job).Attends ids := by
  obtain ⟨hcourse, hregistry⟩ := workOn_course h.registry h.known hjob
  have hs := (session.begun job).sync_catchesUp
  have heditor := session.doJob_editor job
  constructor
  · rw [doJob_eq]
    exact hs.signals
  · rw [heditor, doJob_eq, hs.heard, entered_editor, begun_editor]
  · intro kind hkind
    obtain ⟨id, hid, hhas⟩ := h.subscribed kind hkind
    rw [heditor]
    exact ⟨id, hid, (hcourse.informs hhas hid).has⟩
  · rw [doJob_eq, hs.registry, entered_registry, begun_registry]
    exact hregistry
  · intro id hid
    obtain ⟨other, hother, hhas⟩ := h.subscribed .content (by decide)
    rw [heditor]
    exact Nat.le_trans (h.known id hid) (hcourse.informs hhas hother).lastId

theorem Keeps.attends {after : Session α} (h : Keeps session after)
    (hregistry : after.registry.Does (Editor.Spares ids) (· ∈ ids)) (hattends : session.Attends ids) :
    after.Attends ids where
  signals := h.signals.trans hattends.signals
  heard := by rw [h.heard, h.editor, hattends.heard]
  subscribed := by
    rw [h.editor]
    exact hattends.subscribed
  registry := hregistry
  known := by
    rw [h.editor]
    exact hattends.known

theorem applyEvent_registry (session : Session α) (event : PipelineEvent) :
    (session.applyEvent event).1.registry = session.registry := by
  cases event with
  | failed document version error => rfl
  | tokens set =>
    simp only [applyEvent]
    split
    · rfl
    · rfl

theorem applyUpdates_registry (session : Session α) (bound : Nat) :
    (session.applyUpdates bound).1.registry = session.registry := by
  induction bound generalizing session with
  | zero => rfl
  | succ bound ih =>
    simp only [applyUpdates]
    split
    · rfl
    · rfl
    · exact (ih _).trans (applyEvent_registry _ _)

theorem keepUp_does [Pixel α] (h : session.registry.Does (Editor.Spares ids) (· ∈ ids))
    (upkeep : Upkeep α) :
    (session.keepUp upkeep).registry.Does (Editor.Spares ids) (· ∈ ids) := by
  cases upkeep with
  | applyTokenUpdates =>
    show (session.applyUpdates _).1.registry.Does _ _
    rw [applyUpdates_registry]
    exact h
  | waitForTokens =>
    simp only [keepUp, waitForTokens]
    split
    · exact h
    · exact h
    · rw [applyEvent_registry]
      exact h
  | render => exact h.provided
  | _ => exact h

/-- Whatever the turn, the session attends to its editor afterwards. -/
theorem Attends.turn [Pixel α] (h : session.Attends ids) {turn : Turn α} (hturn : turn.Spares ids) :
    (session.turn turn).Attends ids := by
  cases turn with
  | job job => exact h.doJob hturn
  | attach tokenizer runtime =>
    exact (session.withTokenizer_keeps tokenizer runtime).attends h.registry h
  | upkeep upkeep => exact (session.keepUp_keeps upkeep).attends (keepUp_does h.registry upkeep) h
  | deliver run => exact (session.deliver_keeps run).attends h.registry h

/-- A new session attends to its editor. -/
theorem new_attends [Pixel α] {editor : Editor} (h : editor.Sound) (height contentWidth : α) :
    (Session.new editor height contentWidth).Attends
      (Session.new editor height contentWidth).subscriptions := by
  let new := Session.new editor height contentWidth
  have hsound : new.editor.Sound := ⟨h.buffer, h.cursor, h.decorations⟩
  have hids : new.subscriptions =
      [editor.bus.lastId + 1, editor.bus.lastId + 2, editor.bus.lastId + 3] := rfl
  have hlast : new.editor.bus.lastId = editor.bus.lastId + 3 := rfl
  have hbus : new.editor.bus.subscribers = editor.bus.subscribers ++
      [⟨editor.bus.lastId + 1, .content, .session⟩] ++
      [⟨editor.bus.lastId + 2, .cursor, .session⟩] ++
      [⟨editor.bus.lastId + 3, .settings, .session⟩] := rfl
  have hknown : ∀ id ∈ new.subscriptions, id ≤ new.editor.bus.lastId := by
    rw [hids, hlast]
    simp
  refine ⟨rfl, rfl, ?_, Registry.empty_does, hknown⟩
  have subscribed : ∀ (id : SubscriptionId) {kind : EventKind}, id ∈ new.subscriptions →
      (⟨id, kind, .session⟩ : Subscriber) ∈ new.editor.bus.subscribers →
      ∃ id ∈ new.subscriptions, new.editor.Has ⟨id, kind, .session⟩ :=
    fun id _ hid hin => ⟨id, hid, hsound, hin, hknown id hid⟩
  intro kind hkind
  simp only [heeded, List.mem_cons, List.not_mem_nil, or_false] at hkind
  rcases hkind with rfl | rfl | rfl
  · exact subscribed (editor.bus.lastId + 1) (by simp [hids]) (by simp [hbus])
  · exact subscribed (editor.bus.lastId + 2) (by simp [hids]) (by simp [hbus])
  · exact subscribed (editor.bus.lastId + 3) (by simp [hids]) (by simp [hbus])

/-- What each turn keeps that leaves subscriptions alone is kept by all of them. -/
theorem turns_keeps [Pixel α] (good : Session α → Prop)
    (hturn : ∀ (session : Session α) (turn : Turn α), good session → turn.Spares ids →
      good (session.turn turn))
    (h : good session) {turns : List (Turn α)} (hturns : ∀ turn ∈ turns, turn.Spares ids) :
    good (session.turns turns) := by
  induction turns generalizing session with
  | nil => exact h
  | cons turn rest ih =>
    obtain ⟨hfirst, hrest⟩ := List.forall_mem_cons.1 hturns
    exact ih (hturn session turn h hfirst) hrest

theorem Attends.turns [Pixel α] (h : session.Attends ids) {turns : List (Turn α)}
    (hturns : ∀ turn ∈ turns, turn.Spares ids) : (session.turns turns).Attends ids :=
  turns_keeps (·.Attends ids) (fun _ _ hattends hturn => hattends.turn hturn) h hturns

end Session

end HeadlessEditor
