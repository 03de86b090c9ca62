import HeadlessEditor.Proofs.TokenRuns
import Mathlib.Data.List.Nodup

/-!
A pipeline among runs that end as they like: in any order, with any result, and also after they have
been replaced or given up. Whatever happens when, what is delivered is the answer to the latest
request, once at most, and for the document that is active at that moment; all else is dropped.
-/

namespace HeadlessEditor

def PipelineEvent.document : PipelineEvent → DocumentId
  | .tokens set => set.document
  | .failed document _ _ => document

def PipelineEvent.version : PipelineEvent → Nat
  | .tokens set => set.version
  | .failed _ version _ => version

@[simp] theorem TokenOutcome.event_document (outcome : TokenOutcome) :
    outcome.event.document = outcome.document := by
  unfold event
  split
  · rfl
  · rfl

@[simp] theorem TokenOutcome.event_version (outcome : TokenOutcome) :
    outcome.event.version = outcome.version := by
  unfold event
  split
  · rfl
  · rfl

namespace Pipeline

variable {pipeline after : Pipeline}

inductive Call where
  | openDocument (document : DocumentId) (fileExtension : String) (content : Text) (version : Nat)
  | contentChanged (content : Text) (version : Nat)
  | closeDocument (document : DocumentId)
  | cancel
  | setDebounce (debounce : Nat)

def call (pipeline : Pipeline) : Call → Pipeline
  | .openDocument document fileExtension content version =>
    pipeline.openDocument document fileExtension content version
  | .contentChanged content version => pipeline.contentChanged content version
  | .closeDocument document => pipeline.closeDocument document
  | .cancel => pipeline.cancel
  | .setDebounce debounce => pipeline.setDebounce debounce

/-- What a call does to runs: it starts one for the document that is active from then on, or it
starts none, and what was active or waited for is so still or no longer. -/
inductive Calls (pipeline after : Pipeline) : Prop where
  | starts (run : TokenRun) (queue : after.queue = pipeline.queue)
      (generation : after.generation = pipeline.generation + 1)
      (number : run.generation = pipeline.generation + 1) (pending : after.pending = some run)
      (active : after.active = some run.target)
  | keeps (queue : after.queue = pipeline.queue) (generation : after.generation = pipeline.generation)
      (pending : ∀ run ∈ after.pending, run ∈ pipeline.pending)
      (active : ∀ active ∈ after.active, active ∈ pipeline.active)

theorem call_calls (pipeline : Pipeline) (call : Call) : Calls pipeline (pipeline.call call) := by
  cases call with
  | openDocument document fileExtension content version =>
    exact .starts _ rfl rfl rfl rfl rfl
  | contentChanged content version =>
    simp only [Pipeline.call, contentChanged]
    split
    · exact .keeps rfl rfl (fun _ h => h) (fun _ h => h)
    · exact .starts _ rfl rfl rfl rfl rfl
  | closeDocument document =>
    simp only [Pipeline.call, closeDocument]
    split
    · exact .keeps rfl rfl (fun _ h => h) (fun _ h => h)
    · split
      · exact .keeps rfl rfl (by simp [cancel]) (by simp)
      · exact .keeps rfl rfl (fun _ h => h) (fun _ h => h)
  | cancel => exact .keeps rfl rfl (by simp [Pipeline.call, cancel]) (fun _ h => h)
  | setDebounce debounce => exact .keeps rfl rfl (fun _ h => h) (fun _ h => h)

/-- Calls leave outcomes in the queue. -/
theorem call_queue (pipeline : Pipeline) (call : Call) :
    (pipeline.call call).queue = pipeline.queue := by
  cases pipeline.call_calls call with
  | starts _ queue _ _ _ _ => exact queue
  | keeps queue _ _ _ => exact queue

theorem call_generation_le (pipeline : Pipeline) (call : Call) :
    pipeline.generation ≤ (pipeline.call call).generation := by
  cases pipeline.call_calls call with
  | starts _ _ generation _ _ _ => exact Nat.le_of_succ_le (Nat.le_of_eq generation.symm)
  | keeps _ generation _ _ => exact Nat.le_of_eq generation.symm

/-- The run that was started between two states of a pipeline. -/
def startedSince (before after : Pipeline) : List TokenRun :=
  if after.generation = before.generation then [] else after.pending.toList

theorem startedSince_of_generation (h : after.generation = pipeline.generation) :
    startedSince pipeline after = [] :=
  if_pos h

theorem startedSince_of_pending {run : TokenRun} (h : after.generation = pipeline.generation + 1)
    (hpending : after.pending = some run) : startedSince pipeline after = [run] := by
  have hne : after.generation ≠ pipeline.generation := by omega
  rw [startedSince, if_neg hne, hpending]
  rfl

/-- A run that a call starts has a number that no run had before. -/
theorem startedSince_number (pipeline : Pipeline) (call : Call) :
    ∀ run ∈ startedSince pipeline (pipeline.call call), pipeline.generation < run.generation := by
  cases pipeline.call_calls call with
  | starts run _ generation number pending _ =>
    rw [startedSince_of_pending generation pending]
    intro other hother
    obtain rfl := List.mem_singleton.1 hother
    omega
  | keeps _ generation _ _ =>
    rw [startedSince_of_generation generation]
    simp

end Pipeline

structure EndedRun where
  run : TokenRun
  result : Except TokenizerError (List Token)

def EndedRun.outcome (ended : EndedRun) : TokenOutcome :=
  ⟨ended.run.generation, ended.run.document, ended.run.version, ended.result⟩

/-- A pipeline, with all the runs that it has started and all that have ended, the latest first. -/
structure Tokenization where
  pipeline : Pipeline
  asked : List TokenRun
  ended : List EndedRun

namespace Tokenization

inductive Step where
  | call (call : Pipeline.Call)
  /-- The run started last, the one before it, and so on, ends, unless it has ended already. A run that
  ends while the queue is looked through comes too late for that, or was there before. -/
  | finish (index : Nat) (result : Except TokenizerError (List Token))
  | receive

def start (debounce cacheCapacity : Nat) : Tokenization := ⟨.new debounce cacheCapacity, [], []⟩

def step (world : Tokenization) : Step → Tokenization
  | .call call =>
    let pipeline := world.pipeline.call call
    { world with pipeline, asked := Pipeline.startedSince world.pipeline pipeline ++ world.asked }
  | .finish index result =>
    match world.asked[index]? with
    | none => world
    | some run =>
      if run ∈ world.ended.map (·.run) then world
      else
        let ended : EndedRun := ⟨run, result⟩
        { world with
          pipeline := world.pipeline.finish ended.outcome
          ended := ended :: world.ended }
  | .receive => { world with pipeline := world.pipeline.receive.1 }

structure Moment where
  before : Tokenization
  step : Step

namespace Moment

def after (moment : Moment) : Tokenization := moment.before.step moment.step

def event (moment : Moment) : Option PipelineEvent :=
  match moment.step with
  | .receive => moment.before.pipeline.receive.2
  | _ => none

/-- The run that is the latest when an event is delivered. -/
def answered (moment : Moment) : Option TokenRun :=
  moment.event.bind fun _ => moment.before.asked.head?

end Moment

def history (world : Tokenization) : List Step → List Moment
  | [] => []
  | step :: rest => ⟨world, step⟩ :: (world.step step).history rest

/-- Only the latest request is answered, and for nothing but the active document. -/
structure Moment.Safe (moment : Moment) : Prop where
  /-- What is delivered is what the latest run has ended with. -/
  latest : ∀ event ∈ moment.event, ∃ ended ∈ moment.before.ended,
    event = ended.outcome.event ∧ moment.answered = some ended.run ∧
    ∀ run ∈ moment.before.asked, run ≠ ended.run → run.generation < ended.run.generation
  active : ∀ event ∈ moment.event, ∃ active ∈ moment.before.pipeline.active,
    event.document = active.id ∧ event.version = active.version
  /-- Whatever else is taken from the queue, earlier runs and a run whose document has been closed,
  is dropped and changes nothing; the outcome that is delivered finds the pipeline as it was. -/
  dropped : moment.step = .receive → ∃ dropped kept, moment.before.pipeline.queue = dropped ++ kept ∧
    (∀ ended ∈ moment.before.ended, ended.outcome ∈ dropped →
      moment.before.asked.head? ≠ some ended.run ∨ moment.before.pipeline.active = none) ∧
    match kept with
    | [] => moment.event = none ∧ moment.after.pipeline = { moment.before.pipeline with queue := [] }
    | outcome :: rest =>
      moment.event = some outcome.event ∧
      moment.after.pipeline = { (moment.before.pipeline.accept outcome).1 with queue := rest }
  failed : ∀ document version error, moment.event = some (.failed document version error) →
    moment.after.pipeline.current = moment.before.pipeline.current ∧
    moment.after.pipeline.cache = moment.before.pipeline.cache

/-- Runs have their numbers, the active document is that of the latest run, and the queue holds the
outcomes of runs that have ended, one of each at most. -/
structure Sound (world : Tokenization) : Prop where
  numbered : Numbered world.pipeline.generation world.asked
  active : ∀ active ∈ world.pipeline.active,
    ∃ run, world.asked.head? = some run ∧ run.target = active
  ended : ∀ ended ∈ world.ended, ended.run ∈ world.asked
  queue : ∀ outcome ∈ world.pipeline.queue, ∃ ended ∈ world.ended, outcome = ended.outcome
  distinct : (world.pipeline.queue.map (·.generation)).Nodup

structure Settled (world : Tokenization) (number : Nat) : Prop where
  requested : number ≤ world.pipeline.generation
  queue : ∀ outcome ∈ world.pipeline.queue, outcome.generation ≠ number
  ended : ∀ run ∈ world.asked, run.generation = number → run ∈ world.ended.map (·.run)

variable {world : Tokenization}

theorem start_sound (debounce cacheCapacity : Nat) : (start debounce cacheCapacity).Sound where
  numbered := .nil
  active := by simp [start, Pipeline.new]
  ended := by simp [start]
  queue := by simp [start, Pipeline.new]
  distinct := by simp [start, Pipeline.new]

theorem start_settled (debounce cacheCapacity : Nat) :
    (start debounce cacheCapacity).Settled 0 where
  requested := Nat.le_refl 0
  queue := by simp [start, Pipeline.new]
  ended := by simp [start]

/-- A run in the queue is one that has ended. -/
theorem Sound.mem_ended (h : world.Sound) {run : TokenRun} (hrun : run ∈ world.asked)
    {outcome : TokenOutcome} (houtcome : outcome ∈ world.pipeline.queue)
    (hnumber : outcome.generation = run.generation) : run ∈ world.ended.map (·.run) := by
  obtain ⟨ended, hended, rfl⟩ := h.queue outcome houtcome
  have heq : ended.run = run := h.numbered.eq_of_generation (h.ended ended hended) hrun hnumber
  exact List.mem_map.2 ⟨ended, hended, heq⟩

/-- An outcome is that of the latest request if its run is the latest, and the document is not
closed. -/
theorem Sound.isLatest_iff (h : world.Sound) {ended : EndedRun} (hended : ended ∈ world.ended) :
    world.pipeline.isLatest ended.outcome ↔
      world.asked.head? = some ended.run ∧ world.pipeline.active = some ended.run.target := by
  rw [Pipeline.isLatest_iff]
  constructor
  · rintro ⟨hnumber, active, hactive, -⟩
    have hhead := h.numbered.head?_eq (h.ended ended hended) hnumber
    obtain ⟨run, hrun, rfl⟩ := h.active active hactive
    obtain rfl := Option.some.inj (hhead.symm.trans hrun)
    exact ⟨hhead, hactive⟩
  · rintro ⟨hhead, hactive⟩
    exact ⟨h.numbered.head_generation hhead, _, hactive, rfl, rfl⟩

/-- An outcome that is not: its run is an earlier one, or the document is closed. -/
theorem Sound.of_stale (h : world.Sound) {ended : EndedRun} (hended : ended ∈ world.ended)
    (hstale : ¬ world.pipeline.isLatest ended.outcome) :
    world.asked.head? ≠ some ended.run ∨ world.pipeline.active = none := by
  by_cases hhead : world.asked.head? = some ended.run
  · right
    cases hactive : world.pipeline.active with
    | none => rfl
    | some active =>
      obtain ⟨run, hrun, rfl⟩ := h.active active hactive
      obtain rfl := Option.some.inj (hhead.symm.trans hrun)
      exact absurd ((h.isLatest_iff hended).2 ⟨hhead, hactive⟩) hstale
  · left
    exact hhead

theorem Sound.call (h : world.Sound) (call : Pipeline.Call) : (world.step (.call call)).Sound := by
  have hqueue : (world.step (.call call)).pipeline.queue = world.pipeline.queue :=
    world.pipeline.call_queue call
  have hruns : Numbered (world.step (.call call)).pipeline.generation
        (world.step (.call call)).asked ∧
      ∀ active ∈ (world.step (.call call)).pipeline.active,
        ∃ run, (world.step (.call call)).asked.head? = some run ∧ run.target = active := by
    simp only [step]
    cases world.pipeline.call_calls call with
    | starts run _ generation number pending active =>
      rw [Pipeline.startedSince_of_pending generation pending, generation, active]
      refine ⟨.cons number h.numbered, ?_⟩
      intro other hother
      obtain rfl := Option.some.inj hother
      exact ⟨run, rfl, rfl⟩
    | keeps _ generation _ active =>
      rw [Pipeline.startedSince_of_generation generation, generation]
      exact ⟨h.numbered, fun other hother => h.active other (active other hother)⟩
  constructor
  · exact hruns.1
  · exact hruns.2
  · exact fun ended hended => List.mem_append_right _ (h.ended ended hended)
  · rw [hqueue]
    exact h.queue
  · rw [hqueue]
    exact h.distinct

theorem Sound.finish (h : world.Sound) (index : Nat)
    (result : Except TokenizerError (List Token)) : (world.step (.finish index result)).Sound := by
  simp only [step]
  split
  · exact h
  · rename_i run hrun
    split
    · exact h
    · rename_i hnew
      have hasked : run ∈ world.asked := List.mem_of_getElem? hrun
      constructor
      · exact h.numbered
      · exact h.active
      · exact List.forall_mem_cons.2 ⟨hasked, h.ended⟩
      · intro outcome houtcome
        rcases List.mem_append.1 houtcome with hold | hlast
        · obtain ⟨ended, hended, heq⟩ := h.queue outcome hold
          exact ⟨ended, List.mem_cons_of_mem _ hended, heq⟩
        · exact ⟨_, List.mem_cons_self, List.mem_singleton.1 hlast⟩
      · show ((world.pipeline.queue ++ [_]).map TokenOutcome.generation).Nodup
        rw [List.map_append]
        refine List.Nodup.append h.distinct (List.nodup_singleton _) ?_
        -- The run would have ended before.
        intro number hold hlast
        obtain ⟨outcome, houtcome, rfl⟩ := List.mem_map.1 hold
        exact hnew (h.mem_ended hasked houtcome (List.mem_singleton.1 hlast))

theorem Sound.receive (h : world.Sound) : (world.step .receive).Sound := by
  obtain ⟨hactive, hgeneration, hqueue⟩ := world.pipeline.receive_same
  constructor
  · show Numbered world.pipeline.receive.1.generation world.asked
    rw [hgeneration]
    exact h.numbered
  · show ∀ active ∈ world.pipeline.receive.1.active, _
    rw [hactive]
    exact h.active
  · exact h.ended
  · exact fun outcome houtcome => h.queue outcome (hqueue.subset houtcome)
  · exact h.distinct.sublist (hqueue.map _)

theorem Sound.step (h : world.Sound) (step : Step) : (world.step step).Sound := by
  cases step with
  | call call => exact h.call call
  | finish index result => exact h.finish index result
  | receive => exact h.receive

/-- Requests that are settled stay so. -/
theorem Settled.step {number : Nat} (h : world.Settled number) (step : Step) :
    (world.step step).Settled number := by
  obtain ⟨hrequested, hqueue, hended⟩ := h
  cases step with
  | call call =>
    constructor
    · exact Nat.le_trans hrequested (world.pipeline.call_generation_le call)
    · show ∀ outcome ∈ (world.pipeline.call call).queue, _
      rw [world.pipeline.call_queue call]
      exact hqueue
    · intro run hrun hnumber
      rcases List.mem_append.1 hrun with hnew | hold
      · have hlt := world.pipeline.startedSince_number call run hnew
        omega
      · exact hended run hold hnumber
  | finish index result =>
    simp only [Tokenization.step]
    split
    · exact ⟨hrequested, hqueue, hended⟩
    · rename_i run hrun
      split
      · exact ⟨hrequested, hqueue, hended⟩
      · rename_i hnew
        refine ⟨hrequested, ?_, ?_⟩
        · intro outcome houtcome
          rcases List.mem_append.1 houtcome with hold | hlast
          · exact hqueue outcome hold
          · obtain rfl := List.mem_singleton.1 hlast
            exact fun hnumber => hnew (hended run (List.mem_of_getElem? hrun) hnumber)
        · exact fun other hother hnumber => List.mem_cons_of_mem _ (hended other hother hnumber)
  | receive =>
    obtain ⟨-, hgeneration, hsublist⟩ := world.pipeline.receive_same
    refine ⟨?_, ?_, hended⟩
    · show number ≤ world.pipeline.receive.1.generation
      omega
    · exact fun outcome houtcome => hqueue outcome (hsublist.subset houtcome)

/-- A request that is answered is settled. -/
theorem Sound.receive_settled (h : world.Sound) {event : PipelineEvent}
    (hevent : world.pipeline.receive.2 = some event) :
    (world.step .receive).Settled world.pipeline.generation := by
  obtain ⟨-, hgeneration, -⟩ := world.pipeline.receive_same
  obtain ⟨dropped, outcome, hqueue, hnumber⟩ := Pipeline.receive_of_event hevent
  have hdistinct := h.distinct
  rw [hqueue, List.map_append, List.map_cons] at hdistinct
  have hrest := (List.nodup_cons.1 (List.nodup_append.1 hdistinct).2.1).1
  refine ⟨Nat.le_of_eq hgeneration.symm, ?_, ?_⟩
  · intro other hother heq
    exact hrest (List.mem_map.2 ⟨other, hother, heq.trans hnumber.symm⟩)
  · intro run hrun heq
    exact h.mem_ended hrun (by simp [hqueue]) (hnumber.trans heq.symm)

/-- A request that is settled is not answered again. -/
theorem Settled.lt_generation {number : Nat} (h : world.Settled number) {event : PipelineEvent}
    (hevent : world.pipeline.receive.2 = some event) : number < world.pipeline.generation := by
  obtain ⟨dropped, outcome, hqueue, hnumber⟩ := Pipeline.receive_of_event hevent
  have hle := h.requested
  have hne := h.queue outcome (by simp [hqueue])
  omega

/-- Where no event is looked for, none is delivered. -/
theorem Moment.safe_of_ne_receive {moment : Moment} (hstep : moment.step ≠ .receive) :
    moment.Safe := by
  have hevent : moment.event = none := by
    unfold event
    split
    · rename_i heq
      exact absurd heq hstep
    · rfl
  constructor
  · simp [hevent]
  · simp [hevent]
  · exact fun heq => absurd heq hstep
  · simp [hevent]

theorem Sound.receive_safe (h : world.Sound) : Moment.Safe ⟨world, .receive⟩ := by
  have hlooks := world.pipeline.receive_looks
  generalize hresult : world.pipeline.receive = result at hlooks
  generalize hqueue : world.pipeline.queue = queue at hlooks
  have hpipeline : (Moment.mk world .receive).after.pipeline = result.1 := congrArg Prod.fst hresult
  have hevent : (Moment.mk world .receive).event = result.2 := congrArg Prod.snd hresult
  cases hlooks with
  | nothing stale =>
    constructor
    · simp [hevent]
    · simp [hevent]
    · intro _
      refine ⟨queue, [], ?_, ?_, hevent, hpipeline⟩
      · exact hqueue.trans (List.append_nil queue).symm
      · exact fun ended hended hmem => h.of_stale hended (stale _ hmem)
    · simp [hevent]
  | @delivers dropped outcome rest stale latest =>
    obtain ⟨ended, hended, rfl⟩ := h.queue outcome (by simp [hqueue])
    obtain ⟨hhead, hactive⟩ := (h.isLatest_iff hended).1 latest
    constructor
    · intro event hother
      obtain rfl := Option.some.inj (hevent.symm.trans hother)
      refine ⟨ended, hended, rfl, ?_, fun run hrun => h.numbered.lt_head hhead hrun⟩
      rw [Moment.answered, hevent]
      exact hhead
    · intro event hother
      obtain rfl := Option.some.inj (hevent.symm.trans hother)
      refine ⟨_, hactive, ?_, ?_⟩
      · exact ended.outcome.event_document
      · exact ended.outcome.event_version
    · intro _
      refine ⟨dropped, ended.outcome :: rest, hqueue, ?_, hevent, hpipeline⟩
      exact fun other hother hmem => h.of_stale hother (stale _ hmem)
    · intro document version error hfailed
      rw [hpipeline]
      exact Pipeline.accept_failed (Option.some.inj (hevent.symm.trans hfailed))

theorem Sound.moment_safe (h : world.Sound) (step : Step) : Moment.Safe ⟨world, step⟩ := by
  cases step with
  | call call => exact Moment.safe_of_ne_receive (by simp)
  | finish index result => exact Moment.safe_of_ne_receive (by simp)
  | receive => exact h.receive_safe

/-- A request that is answered at a moment was not settled before, and is so afterwards. -/
theorem Sound.answered_settled (h : world.Sound) {step : Step} {run : TokenRun}
    (hrun : (Moment.mk world step).answered = some run) :
    (world.step step).Settled run.generation ∧
    ∀ number, world.Settled number → number < run.generation := by
  obtain ⟨event, hevent, hhead⟩ := Option.bind_eq_some_iff.1 hrun
  rw [h.numbered.head_generation hhead]
  cases step with
  | call call => cases hevent
  | finish index result => cases hevent
  | receive => exact ⟨h.receive_settled hevent, fun _ hsettled => hsettled.lt_generation hevent⟩

theorem Sound.history_safe (h : world.Sound) {number : Nat} (hsettled : world.Settled number)
    (steps : List Step) :
    (∀ moment ∈ world.history steps, moment.Safe) ∧
    (∀ run ∈ (world.history steps).filterMap Moment.answered, number < run.generation) ∧
    ((world.history steps).filterMap Moment.answered).Pairwise
      fun earlier later => earlier.generation < later.generation := by
  induction steps generalizing world number with
  | nil => simp [history]
  | cons step rest ih =>
    simp only [history]
    obtain ⟨hsafe, hlater, hordered⟩ := ih (h.step step) (hsettled.step step)
    refine ⟨List.forall_mem_cons.2 ⟨h.moment_safe step, hsafe⟩, ?_⟩
    cases hanswered : (Moment.mk world step).answered with
    | none =>
      rw [List.filterMap_cons_none hanswered]
      exact ⟨hlater, hordered⟩
    | some run =>
      rw [List.filterMap_cons_some hanswered]
      obtain ⟨hnext, hnew⟩ := h.answered_settled hanswered
      obtain ⟨-, hlater', -⟩ := ih (h.step step) hnext
      refine ⟨List.forall_mem_cons.2 ⟨hnew number hsettled, hlater⟩, ?_⟩
      exact List.pairwise_cons.2 ⟨hlater', hordered⟩

/-- However calls, ends of runs and looks at the queue come about: each event that is delivered is what
the latest run has ended with, is about the document that is active and leaves its tokens if the run
has failed; whatever else is in the queue is dropped and changes nothing; and no request is answered
twice, since the requests that are answered have larger and larger numbers. -/
theorem answers_only_latest (debounce cacheCapacity : Nat) (steps : List Step) :
    (∀ moment ∈ (start debounce cacheCapacity).history steps, moment.Safe) ∧
    (((start debounce cacheCapacity).history steps).filterMap Moment.answered).Pairwise
      fun earlier later => earlier.generation < later.generation := by
  obtain ⟨hsafe, -, hordered⟩ := (start_sound debounce cacheCapacity).history_safe
    (start_settled debounce cacheCapacity) steps
  exact ⟨hsafe, hordered⟩

/-- A run that has been replaced ends all the same, before the one that took its place. -/
example :
    ((start 0 1).history [.call (.openDocument "a.txt" "txt" ['x'] 0),
      .call (.contentChanged ['y'] 1), .finish 1 (.ok []), .finish 0 (.ok []), .receive,
      .receive]).filterMap Moment.answered = [⟨2, "a.txt", "txt", 1, ['y']⟩] := by
  decide

end Tokenization

end HeadlessEditor
