import HeadlessEditor.Proofs.TimedRuns
import HeadlessEditor.Proofs.TokenMemory

/-!
What giving up a run comes to. A run that is given up in time never ends, and nothing is heard of it. But
what it has left in the queue before, or leaves there because it could not be stopped any more, is of
the latest request still; so it is delivered all the same when the queue is looked through, unless the
document has been closed by then.
-/

namespace HeadlessEditor

namespace Tokenization

variable {world : Tokenization}

/-- Neither a document is opened nor its text changed. -/
def Step.isQuiet : Step → Bool
  | .call (.openDocument _ _ _ _) => false
  | .call (.contentChanged _ _) => false
  | _ => true

/-- The latest run has ended, what it left has not been looked at, and its document is still open. -/
def AnswerWaits (world : Tokenization) : Prop :=
  ∃ ended ∈ world.ended, world.asked.head? = some ended.run ∧
    world.pipeline.active = some ended.run.target ∧ ended.outcome ∈ world.pipeline.queue

/-- Nothing is heard of any run: no event, and the same tokens as before, but for a document that is
closed. -/
structure Moment.Silent (moment : Moment) : Prop where
  event : moment.event = none
  cache : moment.after.pipeline.cache = moment.before.pipeline.cache
  current : (∀ document, moment.step ≠ .call (.closeDocument document)) →
    moment.after.pipeline.current = moment.before.pipeline.current

theorem step_quiet_generation (world : Tokenization) {step : Step} (hquiet : step.isQuiet) :
    (world.step step).pipeline.generation = world.pipeline.generation := by
  cases step with
  | call call =>
    cases call with
    | openDocument document fileExtension content version => cases hquiet
    | contentChanged content version => cases hquiet
    | closeDocument document =>
      simp only [Tokenization.step, Pipeline.call, Pipeline.closeDocument]
      split
      · rfl
      · split
        · rfl
        · rfl
    | cancel => rfl
    | setDebounce debounce => rfl
  | finish index result =>
    rcases world.step_finish index result with heq | ⟨run, -, heq⟩
    · rw [heq]
    · rw [heq]
      rfl
  | receive => exact world.pipeline.receive_same.2.1

/-- No run is started. -/
theorem step_quiet_asked (world : Tokenization) {step : Step} (hquiet : step.isQuiet) :
    (world.step step).asked = world.asked := by
  have hgeneration := world.step_quiet_generation hquiet
  cases step with
  | call call =>
    have hnone : Pipeline.startedSince world.pipeline (world.pipeline.call call) = [] :=
      Pipeline.startedSince_of_generation hgeneration
    simp only [Tokenization.step, hnone, List.nil_append]
  | finish index result => exact world.finish_asked index result
  | receive => rfl

/-- Runs that have ended stay so. -/
theorem ended_subset_run (world : Tokenization) (steps : List Step) :
    world.ended ⊆ (world.run steps).ended := by
  induction steps generalizing world with
  | nil => exact List.Subset.refl _
  | cons step rest ih => exact List.Subset.trans (world.ended_subset step) (ih (world.step step))

/-- What happens while nothing is asked for finds the runs that there were, and of those that have ended
no others than at the end. -/
theorem Sound.history_quiet (h : world.Sound) {steps : List Step}
    (hquiet : ∀ step ∈ steps, step.isQuiet) :
    ∀ moment ∈ world.history steps, moment.before.Sound ∧ moment.step.isQuiet ∧
      moment.before.asked = world.asked ∧ moment.before.ended ⊆ (world.run steps).ended := by
  induction steps generalizing world with
  | nil => simp [history]
  | cons step rest ih =>
    obtain ⟨hstep, hrest⟩ := List.forall_mem_cons.1 hquiet
    intro moment hmoment
    rcases List.mem_cons.1 hmoment with rfl | hlater
    · exact ⟨h, hstep, rfl, world.ended_subset_run (step :: rest)⟩
    · obtain ⟨hsound, hmoment, hasked, hended⟩ := ih (h.step step) hrest moment hlater
      exact ⟨hsound, hmoment, hasked.trans (world.step_quiet_asked hstep), hended⟩

/-- An event is delivered exactly when an answer waits. -/
theorem Sound.receive_eq_none_iff (h : world.Sound) :
    world.pipeline.receive.2 = none ↔ ¬ world.AnswerWaits := by
  have hlooks := world.pipeline.receive_looks
  generalize world.pipeline.receive = result at hlooks
  generalize hqueue : world.pipeline.queue = queue at hlooks
  cases hlooks with
  | nothing stale =>
    -- An answer that waits would be of the latest request, and all in the queue is not.
    refine iff_of_true rfl ?_
    rintro ⟨ended, hended, hhead, hactive, hmem⟩
    exact stale _ (hqueue ▸ hmem) ((h.isLatest_iff hended).2 ⟨hhead, hactive⟩)
  | @delivers dropped outcome rest stale latest =>
    refine iff_of_false (by simp) ?_
    have hmem : outcome ∈ world.pipeline.queue := by simp [hqueue]
    obtain ⟨ended, hended, rfl⟩ := h.queue outcome hmem
    obtain ⟨hhead, hactive⟩ := (h.isLatest_iff hended).1 latest
    exact not_not.2 ⟨ended, hended, hhead, hactive, hmem⟩

/-- Looking through the queue without finding anything leaves the tokens as they are. -/
theorem receive_none_keeps {pipeline : Pipeline} (hnone : pipeline.receive.2 = none) :
    pipeline.receive.1.cache = pipeline.cache ∧ pipeline.receive.1.current = pipeline.current := by
  have hreceipt := pipeline.receive_receipt
  generalize pipeline.receive = result at hnone hreceipt
  cases hreceipt with
  | keeps _ current cache _ => exact ⟨cache, current⟩
  | takes _ _ _ _ => cases hnone

/-- Calls that ask for nothing are silent, that of giving up a run among them. -/
theorem call_silent (world : Tokenization) {call : Pipeline.Call}
    (hquiet : (Step.call call).isQuiet) : Moment.Silent ⟨world, .call call⟩ := by
  have hopened : call.opened? = none := by
    cases call with
    | openDocument document fileExtension content version => cases hquiet
    | _ => rfl
  have hcache := world.pipeline.call_cache call
  rw [hopened] at hcache
  refine ⟨rfl, hcache, fun hopen => ?_⟩
  cases call with
  | openDocument document fileExtension content version => cases hquiet
  | contentChanged content version => cases hquiet
  | closeDocument document => exact absurd rfl (hopen document)
  | cancel => rfl
  | setDebounce debounce => rfl

/-- A run that ends is not heard of until the queue is looked through. -/
theorem finish_silent (world : Tokenization) (index : Nat)
    (result : Except TokenizerError (List Token)) :
    Moment.Silent ⟨world, .finish index result⟩ := by
  have hkept : (world.step (.finish index result)).pipeline.cache = world.pipeline.cache ∧
      (world.step (.finish index result)).pipeline.current = world.pipeline.current := by
    rcases world.step_finish index result with heq | ⟨run, -, heq⟩
    · rw [heq]
      exact ⟨rfl, rfl⟩
    · rw [heq]
      exact ⟨rfl, rfl⟩
  exact ⟨rfl, hkept.1, fun _ => hkept.2⟩

theorem Sound.receive_silent_iff (h : world.Sound) :
    Moment.Silent ⟨world, .receive⟩ ↔ ¬ world.AnswerWaits := by
  have hnone : Moment.event ⟨world, .receive⟩ = none ↔ ¬ world.AnswerWaits :=
    h.receive_eq_none_iff
  constructor
  · exact fun hsilent => hnone.1 hsilent.event
  · intro hno
    have hevent := hnone.2 hno
    obtain ⟨hcache, hcurrent⟩ := receive_none_keeps hevent
    exact ⟨hevent, hcache, fun _ => hcurrent⟩

/-- While nothing is asked for, all is silent but a look at the queue that finds an answer waiting. -/
theorem Sound.silent_iff (h : world.Sound) {step : Step} (hquiet : step.isQuiet) :
    Moment.Silent ⟨world, step⟩ ↔ (step = .receive → ¬ world.AnswerWaits) := by
  cases step with
  | call call => exact iff_of_true (world.call_silent hquiet) (by simp)
  | finish index result => exact iff_of_true (world.finish_silent index result) (by simp)
  | receive => exact h.receive_silent_iff.trans (by simp)

/-- Once the latest request is settled there are no events until the next one. -/
theorem Settled.no_events (h : world.Settled world.pipeline.generation) {steps : List Step}
    (hquiet : ∀ step ∈ steps, step.isQuiet) : (world.history steps).filterMap Moment.event = [] := by
  induction steps generalizing world with
  | nil => rfl
  | cons step rest ih =>
    obtain ⟨hstep, hrest⟩ := List.forall_mem_cons.1 hquiet
    -- An event would answer the latest request a second time.
    have hevent : Moment.event ⟨world, step⟩ = none := by
      cases step with
      | call call => rfl
      | finish index result => rfl
      | receive =>
        refine Option.eq_none_iff_forall_ne_some.2 fun event hevent => ?_
        exact Nat.lt_irrefl _ (h.lt_generation hevent)
    have hnext := h.step step
    rw [← world.step_quiet_generation hstep] at hnext
    rw [history, List.filterMap_cons_none hevent]
    exact ih hnext hrest

/-- Until the next request there is one event at most. -/
theorem Sound.events_length_le (h : world.Sound) {steps : List Step}
    (hquiet : ∀ step ∈ steps, step.isQuiet) :
    ((world.history steps).filterMap Moment.event).length ≤ 1 := by
  induction steps generalizing world with
  | nil => exact Nat.zero_le _
  | cons step rest ih =>
    obtain ⟨hstep, hrest⟩ := List.forall_mem_cons.1 hquiet
    rw [history]
    cases hevent : Moment.event ⟨world, step⟩ with
    | none =>
      rw [List.filterMap_cons_none hevent]
      exact ih (h.step step) hrest
    | some event =>
      have hsettled : (world.step step).Settled (world.step step).pipeline.generation := by
        rw [world.step_quiet_generation hstep]
        cases step with
        | call call => cases hevent
        | finish index result => cases hevent
        | receive => exact h.receive_settled hevent
      rw [List.filterMap_cons_some hevent, hsettled.no_events hrest]
      exact Nat.le_refl 1

/-- However a pipeline was used before, and whichever runs end when: after the pending run is given up and
until the next document is opened or text changed, nothing is heard of any run if and only if the
queue is never looked through while an answer waits. What is heard otherwise is heard once, and is
what the run has ended with that was started last. If this run does not end, nothing is heard. -/
theorem given_up_silent_iff (debounce cacheCapacity : Nat) (earlier later : List Step)
    (hquiet : ∀ step ∈ later, step.isQuiet) :
    let world := ((start debounce cacheCapacity).run earlier).step (.call .cancel)
    let moments := world.history later
    ((∀ moment ∈ moments, moment.Silent) ↔
      ∀ moment ∈ moments, moment.step = .receive → ¬ moment.before.AnswerWaits) ∧
    (moments.filterMap Moment.event).length ≤ 1 ∧
    (∀ moment ∈ moments, ∀ event ∈ moment.event, ∃ ended ∈ moment.before.ended,
      world.asked.head? = some ended.run ∧ event = ended.outcome.event) ∧
    ((∀ ended ∈ (world.run later).ended, world.asked.head? ≠ some ended.run) →
      ∀ moment ∈ moments, moment.Silent) := by
  intro world moments
  have hsound : world.Sound := ((start_sound debounce cacheCapacity).run earlier).call .cancel
  have hmoments := hsound.history_quiet hquiet
  have hiff : ∀ moment ∈ moments,
      moment.Silent ↔ (moment.step = .receive → ¬ moment.before.AnswerWaits) := by
    intro moment hmoment
    obtain ⟨hbefore, hstep, -, -⟩ := hmoments moment hmoment
    exact hbefore.silent_iff hstep
  refine ⟨forall₂_congr hiff, hsound.events_length_le hquiet, ?_, ?_⟩
  · intro moment hmoment event hevent
    obtain ⟨hbefore, -, hasked, -⟩ := hmoments moment hmoment
    obtain ⟨ended, hended, heq, hanswered, -⟩ := (hbefore.moment_safe moment.step).latest event hevent
    refine ⟨ended, hended, ?_, heq⟩
    obtain ⟨-, -, hhead⟩ := Option.bind_eq_some_iff.1 hanswered
    exact hasked ▸ hhead
  · intro hnever moment hmoment
    obtain ⟨-, -, hasked, hended⟩ := hmoments moment hmoment
    refine (hiff moment hmoment).2 fun _ hwaits => ?_
    obtain ⟨ended, hmem, hhead, -, -⟩ := hwaits
    exact hnever ended (hended hmem) (hasked ▸ hhead)

/-- The run that was replaced ends too late and the one that was given up does not end: nothing is heard. -/
theorem given_up_silent_in_time :
    let earlier : List Step := [.call (.openDocument "a.txt" "txt" ['a'] 0),
      .call (.contentChanged ['b'] 1)]
    let later : List Step := [.finish 1 (.ok [⟨0, 1, "word"⟩]), .receive, .call (.setDebounce 10),
      .receive]
    let world := ((start 300 32).run earlier).step (.call .cancel)
    (∀ step ∈ later, step.isQuiet) ∧
    (∀ ended ∈ (world.run later).ended, world.asked.head? ≠ some ended.run) ∧
    (world.run later).ended ≠ [] ∧ ∀ moment ∈ world.history later, moment.Silent := by
  intro earlier later world
  have hquiet : ∀ step ∈ later, step.isQuiet := by decide
  have hnever : ∀ ended ∈ (world.run later).ended, world.asked.head? ≠ some ended.run := by decide
  obtain ⟨-, -, -, hsilent⟩ := given_up_silent_iff 300 32 earlier later hquiet
  exact ⟨hquiet, hnever, by decide, hsilent hnever⟩

/-- A run ends, is given up before the queue is looked through, and is delivered. -/
theorem given_up_run_delivered :
    let world := (start 300 32).run [.call (.openDocument "a.txt" "txt" ['a'] 0),
      .finish 0 (.ok [⟨0, 1, "word"⟩]), .call .cancel]
    let set : TokenSet := ⟨"a.txt", 0, [⟨0, 1, "word"⟩]⟩
    world.pipeline.pending = none ∧ world.pipeline.current = none ∧
    world.pipeline.receive.2 = some (.tokens set) ∧
    world.pipeline.receive.1.current = some set ∧
    world.pipeline.receive.1.cached? "a.txt" = some set := by
  decide

end Tokenization

end HeadlessEditor
