import HeadlessEditor.Proofs.ScrollBounds
import HeadlessEditor.Proofs.SessionTurns

/-!
When a session shows the line of the caret. A line that is brought into a view is in view, if the view is
high enough for a line and nobody is scrolling. A session brings the line of the caret into view whenever
it has heard of an edit or of a move of the caret. When it changes over to another document it forgets
the edits, the one that opened the document among them; so where the caret is at the same place in both
documents the view stays where it was.
-/

namespace HeadlessEditor

namespace Viewport

variable {view : Viewport ℚ} {line : Nat}

/-- A line that is brought into view is in view. -/
theorem reveal?_bringIn (hstill : view.isScrolling = false) (hpositive : 0 < view.lineHeight)
    (hfits : view.lineHeight ≤ view.height) (hlines : 0 < view.lineCount) :
    (view.bringIn line).reveal? line = none := by
  cases hreveal : view.reveal? line with
  | none =>
    simp only [bringIn, hreveal]
  | some target =>
    have hbring : view.bringIn line = view.scrolledTo target := by
      simp [bringIn, hreveal, setScrollTop, hstill, scrolledTo]
    rw [hbring]
    rcases reveal?_eq_some hreveal with rfl | rfl
    · exact reveal?_scrolledTo hpositive hfits hlines (Or.inl rfl)
    · exact reveal?_scrolledTo hpositive hfits hlines (Or.inr rfl)

end Viewport

namespace Session

def ShowsCaret {α : Type} [Pixel α] (session : Session α) : Prop :=
  session.view.reveal? session.editor.caret.line = none

instance {α : Type} [Pixel α] (session : Session α) : Decidable session.ShowsCaret :=
  inferInstanceAs (Decidable (_ = none))

/-- Document, content or caret are not what they were. -/
def Changes {α : Type} (session after : Session α) : Prop :=
  after.editor.document ≠ session.editor.document ∨
    after.editor.buffer.content ≠ session.editor.buffer.content ∨
    after.editor.caret ≠ session.editor.caret

instance {α : Type} (session after : Session α) : Decidable (session.Changes after) :=
  inferInstanceAs (Decidable (_ ∨ _ ∨ _))

/-- The session changes over to a document in the course of a job, and hears of no move of the caret. -/
def Overlooks {α : Type} (session : Session α) (job : Job) : Prop :=
  session.reopens job ∧ (session.withWork job).listen.signals.cursorMoved = false

instance {α : Type} (session : Session α) (job : Job) : Decidable (session.Overlooks job) :=
  inferInstanceAs (Decidable (_ ∧ _))

/-- Only where the caret has the same place in both documents is a change overlooked. -/
theorem Overlooks.caret {α : Type} {session : Session α} {ids : List SubscriptionId} {job : Job}
    (h : session.Overlooks job) (hattends : session.Attends ids) (hjob : job.Spares ids) :
    (session.workOn job).2.caret = session.editor.caret := by
  rcases hattends.hears hjob (by decide : EventKind.cursor ∈ heeded) with hsame | hnoted
  · exact hsame
  · simp [Signals.noted, h.2] at hnoted

/-- What a session overlooks leaves nothing to follow, and nothing else does. -/
theorem follows_iff {α : Type} {session : Session α} {ids : List SubscriptionId}
    (hattends : session.Attends ids) {job : Job} (hjob : job.Spares ids)
    (hchanges : (session.workOn job).2.document ≠ session.editor.document ∨
      (session.workOn job).2.buffer.content ≠ session.editor.buffer.content ∨
      (session.workOn job).2.caret ≠ session.editor.caret) :
    ((session.news job).cursorMoved || !(session.news job).edits.isEmpty) ↔
      ¬ session.Overlooks job := by
  cases hreopens : session.reopens job with
  | true => simp [news, Overlooks, hreopens]
  | false =>
    have hover : ¬ session.Overlooks job := by simp [Overlooks, hreopens]
    refine iff_of_true ?_ hover
    rw [Bool.or_eq_true]
    have hcontent := hattends.hears hjob (by decide : EventKind.content ∈ heeded)
    have hcursor := hattends.hears hjob (by decide : EventKind.cursor ∈ heeded)
    rcases hcontent with ⟨hdocument, hbuffer⟩ | hedits
    · rcases hcursor with hcaret | hmoved
      · -- Nothing was to be heard, so nothing has changed.
        rcases hchanges with hother | hother | hother
        · exact absurd hdocument hother
        · exact absurd (congrArg Buffer.content hbuffer) hother
        · exact absurd hcaret hother
      · left
        simpa [news, hreopens, Signals.noted] using hmoved
    · right
      simpa [news, hreopens, Signals.noted] using hedits

variable {session : Session ℚ} {ids : List SubscriptionId}

/-- After a job that changed something the caret is in view, unless the session overlooked it and the
view did not show that line anyway. -/
theorem doJob_showsCaret_iff (hattends : session.Attends ids) {job : Job} (hjob : job.Spares ids)
    (hchanges : session.Changes (session.doJob job))
    (hstill : (session.doJob job).view.isScrolling = false)
    (hpositive : 0 < (session.doJob job).view.lineHeight)
    (hfits : (session.doJob job).view.lineHeight ≤ (session.doJob job).view.height) :
    (session.doJob job).ShowsCaret ↔
      ¬ session.Overlooks job ∨
        (session.view.fit (session.news job) (session.workOn job).2).reveal?
          (session.workOn job).2.caret.line = none := by
  have hsame := session.view.follow_sameBut (session.news job) (session.workOn job).2
  have hscrolling := session.view.follow_isScrolling (session.news job) (session.workOn job).2
  simp only [ShowsCaret, Changes, doJob_editor, doJob_view] at *
  have hiff := follows_iff hattends hjob hchanges
  by_cases hover : session.Overlooks job
  · have hstays : session.view.follow (session.news job) (session.workOn job).2
        = session.view.fit (session.news job) (session.workOn job).2 :=
      if_neg fun hfollows => hiff.1 hfollows hover
    simp [hstays, hover]
  · have hfollows : session.view.follow (session.news job) (session.workOn job).2
        = (session.view.fit (session.news job) (session.workOn job).2).bringIn
          (session.workOn job).2.caret.line := if_pos (hiff.2 hover)
    have hsound := (hattends.doJob hjob).sound
    rw [doJob_editor] at hsound
    have hlines : 0 < (session.workOn job).2.buffer.lineCount := hsound.buffer.lineCount_pos
    rw [hsame.lineHeight] at hpositive hfits
    rw [hsame.height] at hfits
    rw [hscrolling] at hstill
    refine iff_of_true ?_ (Or.inl hover)
    rw [hfollows]
    exact Viewport.reveal?_bringIn hstill hpositive hfits hlines

/-- However a session is used: after a job that changed document, content or caret, in a view that is high
enough and that nobody scrolls, the line of the caret is in view if and only if the session did not
overlook the change, or shows that line without following the caret. -/
theorem caret_shown_iff (document : DocumentId) (text : Text) (settings : Settings)
    (operations : List Operation) (height contentWidth : ℚ) (turns : List (Turn ℚ)) (job : Job) :
    let initial := Session.new ((Editor.new document text settings).performAll operations) height
      contentWidth
    let session := initial.turns turns
    let after := session.doJob job
    (∀ turn ∈ turns, turn.Spares initial.subscriptions) → job.Spares initial.subscriptions →
    session.Changes after → after.view.isScrolling = false →
    0 < after.view.lineHeight → after.view.lineHeight ≤ after.view.height →
    (after.ShowsCaret ↔ ¬ session.Overlooks job ∨
      (session.view.fit (session.news job) after.editor).reveal? after.editor.caret.line = none) := by
  intro initial session after hturns hjob hchanges hstill hpositive hfits
  have hsound := Editor.performAll_sound (Editor.new_sound document text settings) operations
  have hattends := (new_attends hsound height contentWidth).turns hturns
  have hiff := doJob_showsCaret_iff hattends hjob hchanges hstill hpositive hfits
  rw [← doJob_editor] at hiff
  exact hiff

/-- Ten lines, of which two are in view, scrolled past the first of them. -/
def scrolledAway : Session ℚ :=
  (Session.new (Editor.new "a.txt" (List.replicate 9 '\n') .default) 40 400).turns
    [.upkeep (.hostScroll 100 0), .upkeep (.settle 150)]

/-- Typing on the first line brings it back into view. -/
theorem caret_shown_typing :
    let after := scrolledAway.doJob (.typeText ['x'])
    scrolledAway.Changes after ∧ after.view.isScrolling = false ∧ 0 < after.view.lineHeight ∧
      after.view.lineHeight ≤ after.view.height ∧ after.ShowsCaret := by
  intro after
  have hchanges : scrolledAway.Changes after := by decide +kernel
  have hstill : after.view.isScrolling = false := by decide +kernel
  have hpositive : 0 < after.view.lineHeight := by decide +kernel
  have hfits : after.view.lineHeight ≤ after.view.height := by decide +kernel
  have hiff := caret_shown_iff "a.txt" (List.replicate 9 '\n') .default [] 40 400
    [.upkeep (.hostScroll 100 0), .upkeep (.settle 150)] (.typeText ['x'])
    (by simp [Turn.Spares]) trivial hchanges hstill hpositive hfits
  exact ⟨hchanges, hstill, hpositive, hfits, hiff.2 (Or.inl (by decide +kernel))⟩

/-- Another document is opened, with the caret on its first line; the view stays at the sixth. -/
theorem caret_lost_opening :
    let after := scrolledAway.doJob (.openDocument "b.txt" "txt" (List.replicate 9 '\n'))
    scrolledAway.Changes after ∧ after.view.isScrolling = false ∧ 0 < after.view.lineHeight ∧
      after.view.lineHeight ≤ after.view.height ∧ ¬ after.ShowsCaret := by
  decide +kernel

end Session

end HeadlessEditor
