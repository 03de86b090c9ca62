import HeadlessEditor.Proofs.ViewRuns

/-!
What the host is asked for does not move the view. Runs of operations that are the same but for requests
cannot be told apart by anything that the other operations give back or leave to be seen: the request is
kept in a place of its own, from which nothing else is computed. Nor does the program move the view while
the host does: from a report of the host until scrolling has settled, setting the offset does nothing.
-/

namespace HeadlessEditor

namespace Viewport

variable {α : Type}

def Operation.isRequest : Operation α → Bool
  | .requestScroll _ => true
  | _ => false

/-- The view as it is when nothing has been asked of the host. -/
def forgetRequest (view : Viewport α) : Viewport α := { view with request := none }

theorem settle_forgetRequest (view : Viewport α) (now : Nat) :
    view.forgetRequest.settle now = ((view.settle now).1.forgetRequest, (view.settle now).2) := by
  obtain ⟨metrics, overscan, settleWindow, lastReport, request⟩ := view
  cases lastReport with
  | none => rfl
  | some last =>
    simp only [settle, forgetRequest]
    -- One condition on both sides, read off different views: rewriting finds it on the right only.
    by_cases hearly : now - last < settleWindow
    · rw [if_pos hearly]
      exact if_pos hearly
    · rw [if_neg hearly]
      exact if_neg hearly

variable [Pixel α]

theorem setScrollTop_forgetRequest (view : Viewport α) (offset : α) :
    view.forgetRequest.setScrollTop offset
      = ((view.setScrollTop offset).1.forgetRequest, (view.setScrollTop offset).2) := by
  obtain ⟨metrics, overscan, settleWindow, lastReport, request⟩ := view
  cases lastReport with
  | none => rfl
  | some last => rfl

/-- What an operation other than a request gives back, and the view that it leaves but for the request,
do not depend on the request. -/
theorem perform_forgetRequest (view : Viewport α) {operation : Operation α}
    (hother : operation.isRequest = false) :
    view.forgetRequest.perform operation
      = ((view.perform operation).1.forgetRequest, (view.perform operation).2) := by
  cases operation with
  | requestScroll target => cases hother
  | settle now =>
    rw [perform, settle_forgetRequest]
    rfl
  | setScrollTop offset =>
    rw [perform, setScrollTop_forgetRequest]
    rfl
  | _ => rfl

/-- A request leaves all but the request as it is. -/
theorem request_forgetRequest (view : Viewport α) {operation : Operation α}
    (hrequest : operation.isRequest = true) :
    (view.perform operation).1.forgetRequest = view.forgetRequest := by
  cases operation with
  | requestScroll target => rfl
  | _ => cases hrequest

def Moment.forgetRequest (moment : Moment α) : Moment α :=
  ⟨moment.before.forgetRequest, moment.operation⟩

/-- Leaving requests out of a run leaves them out of its history, and changes nothing else there but what
the host is being asked for. -/
theorem history_forgetRequest (view : Viewport α) (operations : List (Operation α)) :
    view.forgetRequest.history (operations.filter (!·.isRequest))
      = ((view.history operations).filter (!·.operation.isRequest)).map Moment.forgetRequest := by
  induction operations generalizing view with
  | nil => rfl
  | cons operation rest ih =>
    cases hrequest : operation.isRequest with
    | true =>
      simp only [history, List.filter_cons, hrequest, Bool.not_true, Bool.false_eq_true, if_false]
      rw [← ih, request_forgetRequest view hrequest]
    | false =>
      simp only [history, List.filter_cons, hrequest, Bool.not_false, if_true, List.map_cons]
      rw [← ih, perform_forgetRequest view hrequest]
      rfl

theorem performAll_forgetRequest (view : Viewport α) (operations : List (Operation α)) :
    view.forgetRequest.performAll (operations.filter (!·.isRequest))
      = (view.performAll operations).forgetRequest := by
  induction operations generalizing view with
  | nil => rfl
  | cons operation rest ih =>
    cases hrequest : operation.isRequest with
    | true =>
      simp only [List.filter_cons, hrequest, Bool.not_true, Bool.false_eq_true, if_false]
      rw [← request_forgetRequest view hrequest, ih]
      rfl
    | false =>
      simp only [List.filter_cons, hrequest, Bool.not_false, if_true]
      rw [performAll, List.foldl_cons, perform_forgetRequest view hrequest]
      exact ih (view.perform operation).1

/-- What can be seen of a moment: what was done, what it gave back, and then the offset, whether somebody
is scrolling, and the lines to draw. -/
structure Sight (α : Type) where
  operation : Operation α
  answer : Answer α
  scrollTop : α
  isScrolling : Bool
  visibleRange : LineWindow

/-- What can be seen of the moment. -/
def Moment.sight (moment : Moment α) : Sight α :=
  ⟨moment.operation, moment.answer, moment.after.scrollTop, moment.after.isScrolling,
    moment.after.visibleRange⟩

/-- What can be seen of a run of operations, those that are requests left out. -/
def sights (view : Viewport α) (operations : List (Operation α)) : List (Sight α) :=
  ((view.history operations).filter (!·.operation.isRequest)).map Moment.sight

/-- The request cannot be seen. -/
theorem Moment.sight_forgetRequest (moment : Moment α) :
    moment.forgetRequest.sight = moment.sight := by
  obtain ⟨view, operation⟩ := moment
  cases hrequest : operation.isRequest with
  | true =>
    cases operation with
    | requestScroll target => rfl
    | _ => cases hrequest
  | false =>
    simp only [sight, Moment.forgetRequest, answer, after, perform_forgetRequest view hrequest]
    rfl

/-- Of a run can be seen what can be seen of it without its requests. -/
theorem sights_forgetRequest (view : Viewport α) (operations : List (Operation α)) :
    view.sights operations
      = (view.forgetRequest.history (operations.filter (!·.isRequest))).map Moment.sight := by
  rw [history_forgetRequest, List.map_map, sights]
  exact List.map_congr_left fun moment _ => moment.sight_forgetRequest.symm

def Moment.settles (moment : Moment α) : Bool :=
  match moment.operation, moment.answer with
  | .settle _, .flag settled => settled
  | _, _ => false

/-- Somebody goes on scrolling until that settles. -/
theorem Moment.after_isScrolling {moment : Moment α} (hbefore : moment.before.isScrolling = true)
    (hsettles : moment.settles = false) : moment.after.isScrolling = true := by
  obtain ⟨view, operation⟩ := moment
  cases operation with
  | settle now =>
    simp only [settles, answer, after, perform, settle] at hsettles ⊢
    split
    · exact hbefore
    · rename_i last hlast
      simp only [hlast] at hsettles
      split
      · exact hbefore
      · rename_i hlate
        simp [hlate] at hsettles
  | setScrollTop offset =>
    simp only [after, perform, setScrollTop, Prod.map]
    split
    · exact hbefore
    · exact hbefore
  | hostScroll actual now => rfl
  | _ => exact hbefore

theorem isScrolling_performAll {view : Viewport α} (hscrolling : view.isScrolling = true)
    {operations : List (Operation α)}
    (hnone : ∀ moment ∈ view.history operations, moment.settles = false) :
    (view.performAll operations).isScrolling = true := by
  induction operations generalizing view with
  | nil => exact hscrolling
  | cons operation rest ih =>
    rw [history, List.forall_mem_cons] at hnone
    exact ih (Moment.after_isScrolling hscrolling hnone.1) hnone.2

theorem perform_setScrollTop_of_isScrolling {view : Viewport α} (hscrolling : view.isScrolling = true)
    (offset : α) : view.perform (.setScrollTop offset) = (view, .flag false) := by
  simp [perform, setScrollTop, hscrolling]

/-- Two runs that are the same but for requests, made at whatever moments and for whatever offsets: all
other operations give back the same in both, and leave the same offset, the same lines to draw, and
somebody scrolling in both or in neither. The same holds of whatever is done next, be it a request. And
once the host has reported an offset, setting the offset is refused and leaves the view as it is, until
scrolling settles. -/
theorem requests_move_nothing (view : Viewport α) :
    (∀ run run' : List (Operation α),
      run.filter (!·.isRequest) = run'.filter (!·.isRequest) →
        view.sights run = view.sights run' ∧
        ∀ next, Moment.sight ⟨view.performAll run, next⟩ = Moment.sight ⟨view.performAll run', next⟩) ∧
    (∀ (actual : α) (now : Nat) (between : List (Operation α)) (offset : α),
      (∀ moment ∈ (view.hostScroll actual now).history between, moment.settles = false) →
        ((view.hostScroll actual now).performAll between).perform (.setScrollTop offset)
          = ((view.hostScroll actual now).performAll between, .flag false)) := by
  constructor
  · intro run run' hsame
    refine ⟨?_, fun next => ?_⟩
    · rw [sights_forgetRequest, sights_forgetRequest, hsame]
    · have hviews : (view.performAll run).forgetRequest = (view.performAll run').forgetRequest := by
        rw [← performAll_forgetRequest, ← performAll_forgetRequest, hsame]
      rw [← Moment.sight_forgetRequest, ← Moment.sight_forgetRequest ⟨view.performAll run', next⟩]
      simp only [Moment.forgetRequest, hviews]
  · intro actual now between offset hnone
    exact perform_setScrollTop_of_isScrolling (isScrolling_performAll rfl hnone) offset

/-- Offsets are asked for before, while and after the host scrolls, and the offset that the program sets is
refused until scrolling has settled. -/
theorem requests_move_nothing_scrolling :
    let view : Viewport ℚ := new 100 10 1000
    let run : List (Operation ℚ) :=
      [.hostScroll 500 0, .setScrollTop 0, .settle 100, .settle 200, .setScrollTop 30]
    let run' : List (Operation ℚ) :=
      [.requestScroll 70, .hostScroll 500 0, .requestScroll 0, .setScrollTop 0, .settle 100,
        .requestScroll 20000, .settle 200, .requestScroll 10, .setScrollTop 30]
    let between : List (Operation ℚ) := [.requestScroll 0, .settle 100, .resize 50]
    run.filter (!·.isRequest) = run'.filter (!·.isRequest) ∧
    view.sights run = view.sights run' ∧
    (∀ moment ∈ (view.hostScroll 500 0).history between, moment.settles = false) ∧
    ((view.hostScroll 500 0).performAll between).perform (.setScrollTop 30)
      = ((view.hostScroll 500 0).performAll between, .flag false) := by
  have hsettles : ∀ moment ∈ ((new 100 10 1000 : Viewport ℚ).hostScroll 500 0).history
      [.requestScroll 0, .settle 100, .resize 50], moment.settles = false := by
    decide +kernel
  exact ⟨rfl, ((requests_move_nothing (new 100 10 1000)).1 _ _ rfl).1, hsettles,
    (requests_move_nothing (new 100 10 1000)).2 500 0 _ 30 hsettles⟩

end Viewport

end HeadlessEditor
