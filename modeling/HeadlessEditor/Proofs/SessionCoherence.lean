import HeadlessEditor.Proofs.SessionTurns
import HeadlessEditor.Proofs.TokenRuns

/-!
What a session shows belongs to its editor. Of the open document and the number of its lines it makes
sure whenever it catches up; what it takes from the settings it takes anew when it has heard of a
change. As it misses no change, all of it is at all times as the settings have it.
-/

namespace HeadlessEditor

namespace Viewport

variable {α : Type}

theorem settle_sameBut (view : Viewport α) (now : Nat) : view.SameBut (view.settle now).1 := by
  unfold settle
  split
  · exact ⟨rfl, rfl, rfl, rfl, rfl⟩
  · split
    · exact ⟨rfl, rfl, rfl, rfl, rfl⟩
    · exact ⟨rfl, rfl, rfl, rfl, rfl⟩

variable [Pixel α] {view : Viewport α} {settings : Settings}

structure Suits (view : Viewport α) (settings : Settings) : Prop where
  lineHeight : view.lineHeight = Pixel.ofFloat settings.lineHeight
  overscan : ∃ ratio, SameNumber ratio settings.viewport.overscanRatio ∧
    view.overscan = ⟨settings.viewport.minOverscan, Pixel.ofFloat ratio⟩
  settleWindow : view.settleWindow = settings.viewport.settleWindowMs

theorem withSettings_suits (view : Viewport α) (settings : Settings) :
    (view.withSettings settings).Suits settings :=
  ⟨rfl, ⟨_, .refl _, rfl⟩, rfl⟩

theorem Suits.of_sameAs (h : view.Suits settings) {changed : Settings}
    (hsame : settings.SameAs changed) : view.Suits changed where
  lineHeight := by rw [← hsame.lineHeight, h.lineHeight]
  overscan := by
    obtain ⟨ratio, hratio, hoverscan⟩ := h.overscan
    exact ⟨ratio, hratio.trans hsame.overscanRatio, by rw [hoverscan, hsame.minOverscan]⟩
  settleWindow := by rw [← hsame.settleWindowMs, h.settleWindow]

theorem SameBut.suits {after : Viewport α} (h : view.SameBut after) (hsuits : view.Suits settings) :
    after.Suits settings where
  lineHeight := h.lineHeight.trans hsuits.lineHeight
  overscan := by
    rw [h.overscan]
    exact hsuits.overscan
  settleWindow := h.settleWindow.trans hsuits.settleWindow

/-- A view that fits an editor counts its lines, and suits its settings if it did so before or they
have changed. -/
theorem fit_spec (view : Viewport α) {news : Signals} {editor : Editor}
    (h : news.settingsChanged ∨ view.Suits editor.settings) :
    (view.fit news editor).lineCount = editor.buffer.lineCount ∧
    (view.fit news editor).Suits editor.settings := by
  refine ⟨rfl, ?_⟩
  by_cases hchanged : news.settingsChanged
  · simp only [fit, if_pos hchanged]
    obtain ⟨lineHeight, overscan, settleWindow⟩ := view.withSettings_suits editor.settings
    exact ⟨lineHeight, overscan, settleWindow⟩
  · simp only [fit, if_neg hchanged]
    obtain ⟨lineHeight, overscan, settleWindow⟩ := h.resolve_left hchanged
    exact ⟨lineHeight, overscan, settleWindow⟩

theorem follow_spec (view : Viewport α) {news : Signals} {editor : Editor}
    (h : news.settingsChanged ∨ view.Suits editor.settings) :
    (view.follow news editor).lineCount = editor.buffer.lineCount ∧
    (view.follow news editor).Suits editor.settings := by
  obtain ⟨hcount, hsuits⟩ := view.fit_spec h
  have hsame := view.follow_sameBut news editor
  exact ⟨hsame.lineCount.trans hcount, hsame.suits hsuits⟩

end Viewport

/-- No window goes past the last line. -/
theorem ScrollMetrics.stop_window_le {α : Type} [Pixel α] (metrics : ScrollMetrics α)
    (overscan : Overscan α) : (metrics.window overscan).stop ≤ metrics.lineCount := by
  unfold window
  split
  · exact Nat.zero_le _
  · exact Nat.min_le_right _ _

namespace Session

variable {α : Type}

/-- Where a window ends with the text, each of its lines is drawn with its text. -/
theorem renderLines_index (session : Session α) {window : LineWindow}
    (h : window.stop ≤ session.editor.buffer.lineCount) :
    (session.renderLines window).map (·.index) = window.lines := by
  have hline : ∀ index ∈ window.lines,
      session.editor.buffer.line? index = some ((session.editor.buffer.lines[index]?).getD []) := by
    intro index hindex
    simp only [LineWindow.lines, List.mem_range'_1] at hindex
    have hbound : index < session.editor.buffer.lines.length :=
      Nat.lt_of_lt_of_le (by omega) h
    simp [Buffer.line?, hbound]
  rw [renderLines, List.map_filterMap]
  have hsome : ∀ index ∈ window.lines,
      ((session.editor.buffer.line? index).map fun text =>
        (⟨index, text, (session.lineTokens[index]?).getD []⟩ : RenderLine)).map (·.index)
        = some index := by
    intro index hindex
    rw [hline index hindex]
    rfl
  rw [List.filterMap_congr hsome, List.filterMap_some]

theorem text_of_mem_renderLines {session : Session α} {window : LineWindow} {line : RenderLine}
    (h : line ∈ session.renderLines window) :
    line.index < session.editor.buffer.lineCount ∧
      session.editor.buffer.line? line.index = some line.text := by
  obtain ⟨index, -, hline⟩ := List.mem_filterMap.1 h
  obtain ⟨text, htext, rfl⟩ := Option.map_eq_some_iff.1 hline
  exact ⟨(List.getElem?_eq_some_iff.1 htext).1, htext⟩

def Waits (session : Session α) (time : Nat) : Prop :=
  ∀ schedule ∈ session.schedule, schedule.pipeline.debounce = time

structure Suits [Pixel α] (session : Session α) (settings : Settings) : Prop where
  view : session.view.Suits settings
  metrics : session.metrics = settings.layoutMetrics session.contentWidth
  waits : session.Waits settings.tokenization.debounceMs

theorem waits_of_map {session after : Session α} {time : Nat} (h : session.Waits time)
    (change : Schedule → Schedule)
    (hchange : ∀ schedule, (change schedule).pipeline.debounce = schedule.pipeline.debounce)
    (hafter : after.schedule = session.schedule.map change) : after.Waits time := by
  intro schedule hschedule
  rw [hafter, Option.mem_map] at hschedule
  obtain ⟨old, hold, rfl⟩ := hschedule
  rw [hchange]
  exact h old hold

variable [Pixel α] {session : Session α} {settings : Settings}

theorem Suits.of_sameAs (h : session.Suits settings) {changed : Settings}
    (hsame : settings.SameAs changed) : session.Suits changed where
  view := h.view.of_sameAs hsame
  metrics := by
    rw [h.metrics, Settings.layoutMetrics, Settings.layoutMetrics, hsame.lineHeight,
      hsame.charWidth, hsame.tabSize]
  waits := by
    rw [← hsame.debounceMs]
    exact h.waits

theorem activate_suits (h : session.Suits settings) (document : DocumentId)
    (fileExtension : String) : (session.activate document fileExtension).Suits settings where
  view := h.view
  metrics := h.metrics
  waits := waits_of_map h.waits (·.openDocument document fileExtension _ _) (fun _ => rfl) rfl

theorem entered_suits (h : session.Suits settings) : session.entered.Suits settings := by
  unfold entered
  split
  · exact h
  · exact activate_suits h _ _

theorem begun_suits (h : session.Suits settings) (job : Job) : (session.begun job).Suits settings := by
  have hwork : (session.withWork job).Suits settings := ⟨h.view, h.metrics, h.waits⟩
  cases job with
  | openDocument document fileExtension text => exact activate_suits hwork _ _
  | _ => exact hwork

theorem applySettings_suits (session : Session α) :
    session.applySettings.Suits session.editor.settings where
  view := session.view.withSettings_suits session.editor.settings
  metrics := rfl
  waits := by
    intro schedule hschedule
    obtain ⟨old, -, rfl⟩ := Option.mem_map.1 hschedule
    rfl

theorem followContent_suits (h : session.Suits settings) : session.followContent.Suits settings := by
  rw [followContent_eq]
  split
  · exact h
  · exact ⟨h.view, h.metrics,
      waits_of_map h.waits (·.contentChanged _ _)
        (fun schedule => schedule.pipeline.debounce_contentChanged _ _) rfl⟩

theorem acted_suits
    (h : session.listen.signals.settingsChanged ∨ session.Suits session.editor.settings) :
    session.acted.Suits session.editor.settings := by
  unfold acted
  by_cases hchanged : session.listen.signals.settingsChanged
  · simp only [if_pos hchanged]
    exact followContent_suits (applySettings_suits _)
  · simp only [if_neg hchanged]
    have hsuits := h.resolve_left hchanged
    exact followContent_suits ⟨hsuits.view, hsuits.metrics, hsuits.waits⟩

/-- A session that has heard of changed settings, or is as they have it already, is as they have it
when it has caught up. -/
theorem sync_suits (h : session.entered.listen.signals.settingsChanged ∨
    session.Suits session.editor.settings) : session.sync.Suits session.editor.settings := by
  have hacted : session.entered.acted.Suits session.editor.settings := by
    rw [← session.entered_editor]
    apply acted_suits
    rw [session.entered_editor]
    exact h.imp_right entered_suits
  have hview := session.view.follow_spec (h.imp_right Suits.view)
  obtain ⟨view, hsync⟩ := session.sync_eq
  have hsuits : session.sync.view.Suits session.editor.settings := by
    rw [sync_view]
    exact hview.2
  rw [hsync] at hsuits ⊢
  exact ⟨hsuits, hacted.metrics, hacted.waits⟩

/-- What the session shows belongs to its editor: document, number of lines and settings, and the lines
of the next frame, which are the lines of its window in order, each with its text. -/
structure Coherent (session : Session α) : Prop where
  document : session.document = session.editor.document
  lineCount : session.view.lineCount = session.editor.buffer.lineCount
  suits : session.Suits session.editor.settings
  lines : session.render.2.lines.map (·.index) = session.render.2.visible.lines
  texts : ∀ line ∈ session.render.2.lines, line.index < session.editor.buffer.lineCount ∧
    session.editor.buffer.line? line.index = some line.text

/-- The lines of a frame come of themselves. -/
theorem coherent_of_suits (document : session.document = session.editor.document)
    (lineCount : session.view.lineCount = session.editor.buffer.lineCount)
    (suits : session.Suits session.editor.settings) : session.Coherent where
  document := document
  lineCount := lineCount
  suits := suits
  lines := session.renderLines_index
    (lineCount ▸ session.view.stop_window_le session.view.overscan)
  texts := fun _ => text_of_mem_renderLines

/-- After a job everything belongs to the editor again. -/
theorem doJob_coherent {ids : List SubscriptionId} (hattends : session.Attends ids)
    (h : session.Coherent) {job : Job} (hjob : job.Spares ids) : (session.doJob job).Coherent := by
  have heditor := session.doJob_editor job
  have hheard : (session.begun job).entered.listen.signals.settingsChanged ∨
      (session.begun job).Suits (session.begun job).editor.settings := by
    rw [entered_begun, begun_editor]
    -- Changing over to a document drops the edits heard, never that the settings have changed.
    rcases hattends.hears hjob (by decide : EventKind.settings ∈ heeded) with hsame | hnoted
    · exact Or.inr (begun_suits (h.suits.of_sameAs hsame) job)
    · left
      unfold news
      dsimp only
      split
      · exact hnoted
      · exact hnoted
  have hsuits := sync_suits hheard
  rw [← doJob_eq, begun_editor] at hsuits
  have hview := (session.begun job).view.follow_spec (hheard.imp_right Suits.view)
  rw [← sync_view, ← doJob_eq, begun_editor] at hview
  refine coherent_of_suits ?_ ?_ ?_
  · rw [heditor, doJob_eq, (session.begun job).sync_catchesUp.document, entered_document,
      begun_editor]
  · rw [heditor]
    exact hview.1
  · rw [heditor]
    exact hsuits

structure Leaves (session after : Session α) : Prop where
  view : after.view = session.view
  suits : ∀ settings, session.Suits settings → after.Suits settings

theorem Leaves.trans {after last : Session α} (h : Leaves session after) (hnext : Leaves after last) :
    Leaves session last :=
  ⟨hnext.view.trans h.view, fun settings hsuits => hnext.suits settings (h.suits settings hsuits)⟩

theorem leaves_of_eq {after : Session α} (view : after.view = session.view)
    (metrics : after.metrics = session.metrics)
    (contentWidth : after.contentWidth = session.contentWidth)
    (waits : ∀ time, session.Waits time → after.Waits time) : Leaves session after where
  view := view
  suits := fun settings hsuits =>
    ⟨view ▸ hsuits.view, by rw [metrics, contentWidth, hsuits.metrics], waits _ hsuits.waits⟩

theorem applyEvent_leaves {old schedule : Schedule} (hold : session.schedule = some old)
    (hsame : schedule.pipeline.debounce = old.pipeline.debounce) (event : PipelineEvent) :
    Leaves session ({ session with schedule := some schedule }.applyEvent event).1 := by
  have hwaits : ∀ time, session.Waits time →
      Waits { session with schedule := some schedule } time := by
    intro time h taken htaken
    obtain rfl := Option.some.inj htaken
    rw [hsame]
    exact h old hold
  cases event with
  | failed document version error => exact leaves_of_eq rfl rfl rfl hwaits
  | tokens set =>
    simp only [applyEvent]
    split
    · exact leaves_of_eq rfl rfl rfl hwaits
    · exact leaves_of_eq rfl rfl rfl hwaits

theorem applyUpdates_leaves (session : Session α) (bound : Nat) :
    Leaves session (session.applyUpdates bound).1 := by
  induction bound generalizing session with
  | zero => exact leaves_of_eq rfl rfl rfl fun _ h => h
  | succ bound ih =>
    simp only [applyUpdates]
    split
    · exact leaves_of_eq rfl rfl rfl fun _ h => h
    · rename_i schedule heq
      obtain ⟨old, hold, hreceived⟩ := Option.map_eq_some_iff.1 heq
      have hsame := old.debounce_receive
      rw [hreceived] at hsame
      refine leaves_of_eq rfl rfl rfl fun time h taken htaken => ?_
      obtain rfl := Option.some.inj htaken
      exact hsame.trans (h old hold)
    · rename_i schedule event heq
      obtain ⟨old, hold, hreceived⟩ := Option.map_eq_some_iff.1 heq
      have hsame := old.debounce_receive
      rw [hreceived] at hsame
      exact (applyEvent_leaves hold hsame event).trans (ih _)

theorem waitForTokens_leaves (session : Session α) : Leaves session session.waitForTokens.1 := by
  unfold waitForTokens
  split
  · exact leaves_of_eq rfl rfl rfl fun _ h => h
  · rename_i schedule heq
    obtain ⟨old, hold, hnext⟩ := Option.map_eq_some_iff.1 heq
    have hsame := old.debounce_next
    rw [hnext] at hsame
    refine leaves_of_eq rfl rfl rfl fun time h taken htaken => ?_
    obtain rfl := Option.some.inj htaken
    exact hsame.trans (h old hold)
  · rename_i schedule event heq
    obtain ⟨old, hold, hnext⟩ := Option.map_eq_some_iff.1 heq
    have hsame := old.debounce_next
    rw [hnext] at hsame
    exact applyEvent_leaves hold hsame event

theorem Coherent.of_keeps {after : Session α} (h : session.Coherent) (hkeeps : Keeps session after)
    (lineCount : after.view.lineCount = session.view.lineCount)
    (suits : after.Suits session.editor.settings) : after.Coherent := by
  refine coherent_of_suits ?_ ?_ ?_
  · rw [hkeeps.document, hkeeps.editor, h.document]
  · rw [hkeeps.editor, lineCount, h.lineCount]
  · rw [hkeeps.editor]
    exact suits

theorem Coherent.of_leaves {after : Session α} (h : session.Coherent) (hkeeps : Keeps session after)
    (hleaves : Leaves session after) : after.Coherent :=
  h.of_keeps hkeeps (by rw [hleaves.view]) (hleaves.suits _ h.suits)

theorem keepUp_coherent (h : session.Coherent) (upkeep : Upkeep α) :
    (session.keepUp upkeep).Coherent := by
  have hkeeps := session.keepUp_keeps upkeep
  cases upkeep with
  | applyTokenUpdates => exact h.of_leaves hkeeps (session.applyUpdates_leaves _)
  | waitForTokens => exact h.of_leaves hkeeps session.waitForTokens_leaves
  | advance duration =>
    have hleaves : Leaves session (session.advance duration) :=
      leaves_of_eq rfl rfl rfl fun _ hwaits =>
        waits_of_map hwaits (·.advance duration) (fun schedule => schedule.debounce_runUntil _) rfl
    exact h.of_leaves hkeeps hleaves
  | hostScroll actual now =>
    have hsame : session.view.SameBut (session.view.hostScroll actual now) :=
      ⟨rfl, rfl, rfl, rfl, rfl⟩
    exact h.of_keeps hkeeps rfl ⟨hsame.suits h.suits.view, h.suits.metrics, h.suits.waits⟩
  | settle now =>
    have hsame := session.view.settle_sameBut now
    exact h.of_keeps hkeeps hsame.lineCount
      ⟨hsame.suits h.suits.view, h.suits.metrics, h.suits.waits⟩
  | resize height contentWidth =>
    obtain ⟨lineHeight, overscan, settleWindow⟩ := h.suits.view
    exact h.of_keeps hkeeps rfl ⟨⟨lineHeight, overscan, settleWindow⟩, rfl, h.suits.waits⟩
  | render => exact h.of_leaves hkeeps (leaves_of_eq rfl rfl rfl fun _ hwaits => hwaits)

theorem withTokenizer_coherent (h : session.Coherent) (tokenizer : Tokenizer)
    (runtime : Runtime) : (session.withTokenizer tokenizer runtime).Coherent := by
  refine h.of_keeps (session.withTokenizer_keeps tokenizer runtime) rfl
    ⟨h.suits.view, h.suits.metrics, ?_⟩
  intro schedule hschedule
  obtain rfl := Option.some.inj hschedule
  rfl

theorem deliver_coherent (h : session.Coherent) (run : TokenRun) :
    (session.deliver run).Coherent := by
  refine h.of_leaves (session.deliver_keeps run) (leaves_of_eq rfl rfl rfl fun _ hwaits => ?_)
  exact waits_of_map hwaits
    (fun schedule => { schedule with
      pipeline := schedule.pipeline.finish (run.outcome schedule.tokenizer) }) (fun _ => rfl) rfl

/-- One turn. -/
theorem Coherent.turn {ids : List SubscriptionId} (h : session.Coherent)
    (hattends : session.Attends ids) {turn : Turn α} (hturn : turn.Spares ids) :
    (session.turn turn).Coherent := by
  cases turn with
  | job job => exact doJob_coherent hattends h hturn
  | attach tokenizer runtime => exact withTokenizer_coherent h tokenizer runtime
  | upkeep upkeep => exact keepUp_coherent h upkeep
  | deliver run => exact deliver_coherent h run

theorem new_coherent (editor : Editor) (height contentWidth : α) :
    (Session.new editor height contentWidth).Coherent :=
  coherent_of_suits rfl rfl
    ⟨⟨rfl, ⟨_, .refl _, rfl⟩, rfl⟩, rfl, fun _ hschedule => by cases hschedule⟩

/-- However a session is used, whatever hosts and extensions do to its editor, as long as they leave the
subscriptions of the session alone: after every turn what it shows belongs to its editor. -/
theorem turns_coherent (document : DocumentId) (text : Text) (settings : Settings)
    (operations : List Operation) (height contentWidth : α) (turns : List (Turn α)) :
    let session := Session.new ((Editor.new document text settings).performAll operations) height
      contentWidth
    (∀ turn ∈ turns, turn.Spares session.subscriptions) → (session.turns turns).Coherent := by
  intro session hturns
  have hsound := Editor.performAll_sound (Editor.new_sound document text settings) operations
  have hattends := new_attends hsound height contentWidth
  have hcoherent := new_coherent ((Editor.new document text settings).performAll operations) height
    contentWidth
  have hall := turns_keeps (fun session => session.Attends _ ∧ session.Coherent)
    (fun _ _ h hturn => ⟨h.1.turn hturn, h.2.turn h.1 hturn⟩) ⟨hattends, hcoherent⟩ hturns
  exact hall.2

/-- Settings change by an extension that is loaded, and again with another document opened at once. -/
theorem turns_coherent_reconfigured :
    let settings (tabSize : Int) : Operation :=
      .updateSettings (.object [("tab_size", .int tabSize), ("line_height", .int 30)])
    let wide : Extension := { Extension.bare "wide" with
      activate := fun editor => (editor.performAll [settings 8], .ok ()) }
    let session := Session.new (Editor.new "a.txt" ['a', '\n', 'b'] .default) (100 : Float) 400
    let turns : List (Turn Float) :=
      [.job (.load wide), .upkeep (.resize 60 200), .job (.typeText ['\n']),
        .job (.edit (·.performAll [.openDocument "b.txt" ['c'], settings 2]))]
    (session.turns turns).Coherent ∧
      (session.turns turns).editor.document = "b.txt" ∧ (session.turns turns).metrics.tabSize = 2 := by
  intro settings wide session turns
  have hsettings (tabSize : Int) : (settings tabSize).spares session.subscriptions := rfl
  refine ⟨turns_coherent "a.txt" ['a', '\n', 'b'] .default [] 100 400 turns ?_, by decide +kernel,
    by decide +kernel⟩
  intro turn hturn
  simp only [turns, List.mem_cons, List.not_mem_nil, or_false] at hturn
  rcases hturn with rfl | rfl | rfl | rfl
  · exact {
      commands := fun command hcommand => by cases hcommand
      activate := fun editor => Editor.spares_performAll editor fun operation hoperation => by
        obtain rfl := List.mem_singleton.1 hoperation
        exact hsettings 8
      dispose := .done }
  · trivial
  · trivial
  · intro editor
    refine Editor.spares_performAll editor fun operation hoperation => ?_
    rcases List.mem_pair.1 hoperation with rfl | rfl
    · rfl
    · exact hsettings 2

end Session

end HeadlessEditor
