import HeadlessEditor.Layout.ExactPixel
import HeadlessEditor.Layout.Viewport

/-!
A view in use: whatever host and program do to it, one thing after the other. What the host is asked
for is kept until scrolling settles or the program sets the offset itself; that the host has reported
an offset, be it the one it was asked for, does not end the request.
-/

namespace HeadlessEditor

namespace Viewport

inductive Operation (α : Type) where
  | hostScroll (actual : α) (now : Nat)
  | settle (now : Nat)
  | requestScroll (target : α)
  | setScrollTop (offset : α)
  | reveal (line : Nat)
  | resize (height : α)
  | setLineHeight (lineHeight : α)
  | setLineCount (lineCount : Nat)
  | setOverscan (overscan : Overscan α)
  | setSettleWindow (settleWindow : Nat)

inductive Answer (α : Type) where
  | nothing
  | flag (flag : Bool)
  | offset (offset : α)
  | target (target : Option α)
  | lines (window : LineWindow)
  deriving DecidableEq

variable {α : Type} [Pixel α]

def perform (view : Viewport α) : Operation α → Viewport α × Answer α
  | .hostScroll actual now =>
    let view := view.hostScroll actual now
    (view, .lines view.visibleRange)
  | .settle now => (view.settle now).map id .flag
  | .requestScroll target => (view.requestScroll target).map id .offset
  | .setScrollTop offset => (view.setScrollTop offset).map id .flag
  | .reveal line => (view, .target (view.reveal? line))
  | .resize height => (view.resize height, .nothing)
  | .setLineHeight lineHeight => (view.setLineHeight lineHeight, .nothing)
  | .setLineCount lineCount => (view.setLineCount lineCount, .nothing)
  | .setOverscan overscan => (view.setOverscan overscan, .nothing)
  | .setSettleWindow settleWindow => (view.setSettleWindow settleWindow, .nothing)

def performAll (view : Viewport α) (operations : List (Operation α)) : Viewport α :=
  operations.foldl (fun view operation => (view.perform operation).1) view

structure Moment (α : Type) where
  before : Viewport α
  operation : Operation α

namespace Moment

def after (moment : Moment α) : Viewport α := (moment.before.perform moment.operation).1

def answer (moment : Moment α) : Answer α := (moment.before.perform moment.operation).2

end Moment

def history (view : Viewport α) : List (Operation α) → List (Moment α)
  | [] => []
  | operation :: rest => ⟨view, operation⟩ :: (view.perform operation).1.history rest

theorem performAll_concat (view : Viewport α) (operations : List (Operation α))
    (operation : Operation α) :
    view.performAll (operations ++ [operation])
      = ((view.performAll operations).perform operation).1 := by
  rw [performAll, List.foldl_append]
  rfl

theorem history_concat (view : Viewport α) (operations : List (Operation α))
    (operation : Operation α) :
    view.history (operations ++ [operation])
      = view.history operations ++ [⟨view.performAll operations, operation⟩] := by
  induction operations generalizing view with
  | nil => rfl
  | cons first rest ih =>
    rw [List.cons_append, history, ih]
    rfl

namespace Moment

/-- The offset that the host is asked for at the moment. -/
def asked? (moment : Moment α) : Option α :=
  match moment.operation, moment.answer with
  | .requestScroll _, .offset target => some target
  | _, _ => none

/-- Whether the host is asked for an offset, scrolling settles, or the offset is set by the program. -/
def decides (moment : Moment α) : Bool :=
  match moment.operation, moment.answer with
  | .requestScroll _, _ => true
  | .settle _, .flag settled => settled
  | .setScrollTop _, .flag moved => moved
  | _, _ => false

def reports (moment : Moment α) : Bool :=
  match moment.operation with
  | .hostScroll _ _ => true
  | _ => false

/-- An operation that decides leaves the offset that it asks for, if any, as the request; all others leave
the request as it is. -/
theorem after_request (moment : Moment α) :
    moment.after.request = if moment.decides then moment.asked? else moment.before.request := by
  obtain ⟨view, operation⟩ := moment
  cases operation with
  | hostScroll actual now => rfl
  | settle now =>
    simp only [after, decides, asked?, answer, perform, settle]
    split
    · rfl
    · split
      · rfl
      · rfl
  | requestScroll target => rfl
  | setScrollTop offset =>
    simp only [after, decides, asked?, answer, perform, setScrollTop]
    split
    · rfl
    · rfl
  | reveal line => rfl
  | resize height => rfl
  | setLineHeight lineHeight => rfl
  | setLineCount lineCount => rfl
  | setOverscan overscan => rfl
  | setSettleWindow settleWindow => rfl

end Moment

theorem findRev?_concat {β : Type} (kind : β → Bool) (moments : List β) (moment : β) :
    (moments ++ [moment]).findRev? kind
      = if kind moment then some moment else moments.findRev? kind := by
  simp only [List.findRev?_eq_find?_reverse, List.reverse_concat, List.find?_cons]
  cases kind moment with
  | true => rfl
  | false => rfl

/-- A report of the host asks for nothing and decides nothing. -/
theorem Moment.of_reports {moment : Moment α} (h : moment.reports = true) :
    moment.decides = false ∧ moment.asked? = none := by
  obtain ⟨view, operation⟩ := moment
  cases operation with
  | hostScroll actual now => exact ⟨rfl, rfl⟩
  | _ => cases h

/-- With reports among what counts, the latest is the one that counts without them, or it is a report. -/
theorem findRev?_reports (moments : List (Moment α)) :
    (moments.findRev? fun moment => moment.decides || moment.reports)
        = moments.findRev? Moment.decides ∨
      ∃ report, (moments.findRev? fun moment => moment.decides || moment.reports) = some report ∧
        report.reports = true := by
  induction moments using List.reverseRecOn with
  | nil => exact Or.inl rfl
  | append_singleton moments moment ih =>
    rw [findRev?_concat, findRev?_concat]
    cases hdecides : moment.decides with
    | true => exact Or.inl rfl
    | false =>
      cases hreports : moment.reports with
      | true => exact Or.inr ⟨moment, rfl, hreports⟩
      | false => exact ih

/-- After a run there is a request if the latest operation that decided was one, and it is for the offset
that this gave back. -/
theorem request_performAll (view : Viewport α) (hnone : view.request = none)
    (operations : List (Operation α)) :
    (view.performAll operations).request
      = ((view.history operations).findRev? Moment.decides).bind Moment.asked? := by
  induction operations using List.reverseRecOn with
  | nil => exact hnone
  | append_singleton operations operation ih =>
    have hafter := Moment.after_request ⟨view.performAll operations, operation⟩
    rw [performAll_concat, history_concat, findRev?_concat]
    split
    · rename_i hdecides
      rw [if_pos hdecides] at hafter
      exact hafter
    · rename_i hdecides
      rw [if_neg hdecides] at hafter
      exact hafter.trans ih

/-- In every run of a new view: there is a request exactly when the latest among the requests, the settles
that ended scrolling and the offsets set by the program is a request, and it is for the offset that this
gave back. If reports of the host are counted among these, the same holds exactly when there is no request
or the latest of them all is not a report. -/
theorem request_of_latest (height lineHeight : α) (lineCount : Nat) (operations : List (Operation α)) :
    let view := new height lineHeight lineCount
    let moments := view.history operations
    let request := (view.performAll operations).request
    let latest := moments.findRev? fun moment => moment.decides || moment.reports
    request = (moments.findRev? Moment.decides).bind Moment.asked? ∧
    (request = latest.bind Moment.asked? ↔
      request = none ∨ ∀ moment ∈ latest, moment.reports = false) := by
  intro view moments request latest
  have hrequest : request = (moments.findRev? Moment.decides).bind Moment.asked? :=
    request_performAll view rfl operations
  refine ⟨hrequest, ?_⟩
  rcases findRev?_reports moments with hsame | ⟨report, hlatest, hreports⟩
  · -- No report has come since, so it is the same moment that counts.
    have hlatest : latest = moments.findRev? Moment.decides := hsame
    refine iff_of_true (hlatest ▸ hrequest) (Or.inr fun moment hmoment => ?_)
    rw [hlatest, List.findRev?_eq_find?_reverse] at hmoment
    have hdecides := List.find?_some hmoment
    cases hreports : moment.reports with
    | false => rfl
    | true =>
      rw [(Moment.of_reports hreports).1] at hdecides
      cases hdecides
  · -- A report counts as the end of the request, which in truth it is not.
    have hlatest : latest = some report := hlatest
    rw [hlatest, Option.bind_some, (Moment.of_reports hreports).2]
    constructor
    · exact Or.inl
    · rintro (hnone | hno)
      · exact hnone
      · rw [hno report rfl] at hreports
        cases hreports

/-- The host is asked for an offset and reports that very offset, and the request stays. -/
theorem request_outlives_report :
    let view : Viewport ℚ := new 200 20 1000
    let operations : List (Operation ℚ) := [.requestScroll 500, .hostScroll 500 0]
    let latest := (view.history operations).findRev? fun moment => moment.decides || moment.reports
    (view.performAll operations).scrollTop = 500 ∧
    (view.performAll operations).request = some 500 ∧ latest.bind Moment.asked? = none := by
  decide +kernel

end Viewport

end HeadlessEditor
