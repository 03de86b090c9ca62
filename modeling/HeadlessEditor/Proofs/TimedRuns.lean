import HeadlessEditor.Proofs.Tokenization

/-!
Runs of the tokenizer on a clock. A run waits for its timer, begins at some time after that and ends at
some time after it has begun; how soon, and in which order, is left open. A run that the pipeline no
longer waits for is given up: from then on its timer does not wake it, but if it was awake already it
may begin all the same, and if it has begun it may end. What a schedule does is one way in which all
this can go.
-/

namespace HeadlessEditor

structure TimedRun where
  run : TokenRun
  /-- When the timer is over. -/
  due : Nat
  dropped : Option Nat
  begun : Option Nat
  deriving DecidableEq

namespace TimedRun

/-- The timer is over, and was when the run was given up. -/
def Ready (timed : TimedRun) (now : Nat) : Prop :=
  timed.begun = none ∧ timed.due ≤ now ∧ ∀ time ∈ timed.dropped, timed.due ≤ time

instance (timed : TimedRun) (now : Nat) : Decidable (timed.Ready now) :=
  inferInstanceAs (Decidable (_ ∧ _ ∧ _))

def begin (timed : TimedRun) (number now : Nat) : TimedRun :=
  if timed.run.generation = number ∧ timed.Ready now then { timed with begun := some now } else timed

/-- Gives the run up unless it is waited for. -/
def keep (timed : TimedRun) (pending : Option TokenRun) (now : Nat) : TimedRun :=
  if pending = some timed.run then timed
  else { timed with dropped := timed.dropped.or (some now) }

inductive Follows (now : Nat) (timed : TimedRun) : TimedRun → Prop where
  | same : Follows now timed timed
  | begins (ready : timed.Ready now) : Follows now timed { timed with begun := some now }
  | givenUp (first : timed.dropped = none) : Follows now timed { timed with dropped := some now }

variable {timed later : TimedRun} {now horizon : Nat}

theorem begin_follows (timed : TimedRun) (number now : Nat) :
    Follows now timed (timed.begin number now) := by
  unfold begin
  split
  · rename_i h
    exact .begins h.2
  · exact .same

theorem keep_follows (timed : TimedRun) (pending : Option TokenRun) (now : Nat) :
    Follows now timed (timed.keep pending now) := by
  unfold keep
  split
  · exact .same
  · obtain ⟨run, due, dropped, begun⟩ := timed
    cases dropped with
    | none => exact .givenUp rfl
    | some time => exact .same

theorem keep_begun (timed : TimedRun) (pending : Option TokenRun) (now : Nat) :
    (timed.keep pending now).begun = timed.begun := by
  unfold keep
  split
  · rfl
  · rfl

theorem Follows.run (h : Follows now timed later) : later.run = timed.run := by
  cases h <;> rfl

theorem Follows.due (h : Follows now timed later) : later.due = timed.due := by
  cases h <;> rfl

/-- A run that has begun has done so for good. -/
theorem Follows.begun (h : Follows now timed later) (hbegun : timed.begun.isSome) :
    later.begun.isSome := by
  cases h with
  | same => exact hbegun
  | begins _ => rfl
  | givenUp _ => exact hbegun

/-- No timer wakes a run early. -/
theorem Follows.onTime (h : Follows now timed later) (hearlier : ∀ time ∈ timed.begun, timed.due ≤ time) :
    ∀ time ∈ later.begun, later.due ≤ time := by
  cases h with
  | same => exact hearlier
  | begins ready =>
    intro time htime
    obtain rfl := Option.some.inj htime
    exact ready.2.1
  | givenUp _ => exact hearlier

/-- The run has not begun, and does not by `horizon`: it was given up before its timer is over, or the
timer is not over then. -/
structure Held (timed : TimedRun) (horizon : Nat) : Prop where
  begun : timed.begun = none
  early : timed.dropped.getD horizon < timed.due

structure Missed (timed : TimedRun) : Prop where
  begun : timed.begun = none
  early : ∃ time ∈ timed.dropped, time < timed.due

theorem Missed.held (h : timed.Missed) (horizon : Nat) : timed.Held horizon := by
  obtain ⟨hbegun, time, htime, hlt⟩ := h
  refine ⟨hbegun, ?_⟩
  rw [htime]
  exact hlt

/-- A run that is given up while it is held has missed its time. -/
theorem Held.missed (h : timed.Held horizon) (hdropped : timed.dropped.isSome) : timed.Missed := by
  obtain ⟨time, htime⟩ := Option.isSome_iff_exists.1 hdropped
  refine ⟨h.begun, time, htime, ?_⟩
  have hearly := h.early
  rwa [htime] at hearly

theorem Held.not_ready (h : timed.Held horizon) (hnow : now ≤ horizon) : ¬ timed.Ready now := by
  rintro ⟨-, hdue, hdropped⟩
  have hearly := h.early
  cases htime : timed.dropped with
  | none =>
    rw [htime] at hearly
    exact absurd (Nat.lt_of_lt_of_le hearly hdue) (Nat.not_lt_of_le hnow)
  | some time =>
    rw [htime] at hearly
    exact absurd hearly (Nat.not_lt_of_le (hdropped time htime))

theorem Held.follows (h : timed.Held horizon) (hnow : now ≤ horizon) (hlater : Follows now timed later) :
    later.Held horizon := by
  cases hlater with
  | same => exact h
  | begins ready => exact absurd ready (h.not_ready hnow)
  | givenUp first =>
    refine ⟨h.begun, ?_⟩
    have hearly := h.early
    rw [first] at hearly
    exact Nat.lt_of_le_of_lt hnow hearly

theorem Missed.follows (h : timed.Missed) (hlater : Follows now timed later) : later.Missed := by
  have hheld := (h.held now).follows (Nat.le_refl now) hlater
  cases hlater with
  | same => exact h
  | begins _ => cases hheld.begun
  | givenUp first =>
    obtain ⟨time, htime, -⟩ := h.early
    rw [first] at htime
    cases htime

end TimedRun

namespace Tokenization

/-- A run that has not ended ends, or nothing happens. -/
theorem step_finish (world : Tokenization) (index : Nat)
    (result : Except TokenizerError (List Token)) :
    world.step (.finish index result) = world ∨
    ∃ run, world.asked[index]? = some run ∧ world.step (.finish index result) =
      { world with
        pipeline := world.pipeline.finish (EndedRun.mk run result).outcome
        ended := ⟨run, result⟩ :: world.ended } := by
  simp only [step]
  split
  · exact .inl rfl
  · rename_i run hrun
    split
    · exact .inl rfl
    · exact .inr ⟨run, hrun, rfl⟩

theorem finish_asked (world : Tokenization) (index : Nat)
    (result : Except TokenizerError (List Token)) :
    (world.step (.finish index result)).asked = world.asked := by
  rcases world.step_finish index result with heq | ⟨run, -, heq⟩
  · rw [heq]
  · rw [heq]

theorem mem_finish_ended {world : Tokenization} {index : Nat}
    {result : Except TokenizerError (List Token)} {ended : EndedRun}
    (h : ended ∈ (world.step (.finish index result)).ended) :
    ended ∈ world.ended ∨ world.asked[index]? = some ended.run := by
  rcases world.step_finish index result with heq | ⟨run, hrun, heq⟩
  · rw [heq] at h
    exact .inl h
  · rw [heq] at h
    rcases List.mem_cons.1 h with rfl | hold
    · exact .inr hrun
    · exact .inl hold

theorem generation_le_step (world : Tokenization) (step : Step) :
    world.pipeline.generation ≤ (world.step step).pipeline.generation := by
  cases step with
  | call call => exact world.pipeline.call_generation_le call
  | finish index result =>
    rcases world.step_finish index result with heq | ⟨run, -, heq⟩
    · exact Nat.le_of_eq (congrArg (·.pipeline.generation) heq.symm)
    · exact Nat.le_of_eq (congrArg (·.pipeline.generation) heq.symm)
  | receive => exact Nat.le_of_eq world.pipeline.receive_same.2.1.symm

theorem ended_subset (world : Tokenization) (step : Step) :
    world.ended ⊆ (world.step step).ended := by
  cases step with
  | call call => exact List.Subset.refl _
  | finish index result =>
    rcases world.step_finish index result with heq | ⟨run, -, heq⟩
    · rw [heq]
      exact List.Subset.refl _
    · rw [heq]
      exact List.subset_cons_self _ _
  | receive => exact List.Subset.refl _

end Tokenization

namespace Pipeline

def delay (pipeline : Pipeline) (runtime : Runtime) : Call → Nat
  | .contentChanged _ _ => runtime.wait pipeline.debounce
  | _ => 0

end Pipeline

structure Delivery where
  number : Nat
  event : PipelineEvent
  deriving DecidableEq

/-- A pipeline on a clock, with all its runs and all that it has delivered, the latest first. -/
structure Timeline where
  runtime : Runtime
  tokenization : Tokenization
  now : Nat
  runs : List TimedRun
  delivered : List Delivery

namespace Timeline

inductive Step where
  | call (call : Pipeline.Call)
  | pass (duration : Nat)
  /-- The run of this number begins, if it can. -/
  | begin (number : Nat)
  /-- The run of this number ends, if it has begun and not ended. -/
  | finish (number : Nat) (result : Except TokenizerError (List Token))
  | receive

def pipeline (timeline : Timeline) : Pipeline := timeline.tokenization.pipeline

def start (runtime : Runtime) (debounce cacheCapacity : Nat) : Timeline :=
  ⟨runtime, .start debounce cacheCapacity, 0, [], []⟩

def started (timeline : Timeline) (call : Pipeline.Call) : List TimedRun :=
  (Pipeline.startedSince timeline.pipeline (timeline.pipeline.call call)).map fun run =>
    ⟨run, timeline.now + timeline.pipeline.delay timeline.runtime call, none, none⟩

/-- The event that would be delivered now. -/
def delivery (timeline : Timeline) : Option Delivery :=
  timeline.pipeline.receive.2.map fun event => ⟨timeline.pipeline.generation, event⟩

def step (timeline : Timeline) : Step → Timeline
  | .call call =>
    let tokenization := timeline.tokenization.step (.call call)
    { timeline with
      tokenization
      runs := timeline.started call
        ++ timeline.runs.map (·.keep tokenization.pipeline.pending timeline.now) }
  | .pass duration => { timeline with now := timeline.now + duration }
  | .begin number =>
    { timeline with runs := timeline.runs.map (·.begin number timeline.now) }
  | .finish number result =>
    match timeline.runs.findIdx? fun timed => timed.run.generation == number && timed.begun.isSome with
    | none => timeline
    | some index =>
      { timeline with tokenization := timeline.tokenization.step (.finish index result) }
  | .receive =>
    let tokenization := timeline.tokenization.step .receive
    { timeline with
      tokenization
      runs := timeline.runs.map (·.keep tokenization.pipeline.pending timeline.now)
      delivered := timeline.delivery.toList ++ timeline.delivered }

def run (timeline : Timeline) (steps : List Step) : Timeline := steps.foldl step timeline

def elapsed : List Step → Nat
  | [] => 0
  | .pass duration :: rest => duration + elapsed rest
  | _ :: rest => elapsed rest

variable {timeline : Timeline}

@[simp] theorem run_nil (timeline : Timeline) : timeline.run [] = timeline := rfl

@[simp] theorem run_cons (timeline : Timeline) (step : Step) (rest : List Step) :
    timeline.run (step :: rest) = (timeline.step step).run rest :=
  rfl

@[simp] theorem run_append (timeline : Timeline) (earlier later : List Step) :
    timeline.run (earlier ++ later) = (timeline.run earlier).run later :=
  List.foldl_append

/-- No step takes the clock back, and only time that passes takes it on. -/
theorem step_runtime (timeline : Timeline) (step : Step) :
    (timeline.step step).runtime = timeline.runtime := by
  cases step with
  | finish number result =>
    simp only [Timeline.step]
    split
    · rfl
    · rfl
  | call _ | pass _ | begin _ | receive => rfl

theorem run_runtime (timeline : Timeline) (steps : List Step) :
    (timeline.run steps).runtime = timeline.runtime := by
  induction steps generalizing timeline with
  | nil => rfl
  | cons step rest ih => exact (ih _).trans (timeline.step_runtime step)

theorem step_now (timeline : Timeline) (step : Step) :
    (timeline.step step).now = timeline.now + elapsed [step] := by
  cases step with
  | finish number result =>
    simp only [Timeline.step]
    split
    · rfl
    · rfl
  | _ => rfl

theorem elapsed_cons (step : Step) (rest : List Step) :
    elapsed (step :: rest) = elapsed [step] + elapsed rest := by
  cases step with
  | pass duration => rfl
  | _ => exact (Nat.zero_add _).symm

def startedBy (timeline : Timeline) : Step → List TimedRun
  | .call call => timeline.started call
  | _ => []

/-- Runs are started and go on; none is forgotten. -/
theorem step_runs (timeline : Timeline) (step : Step) :
    ∃ follow : TimedRun → TimedRun, (∀ timed : TimedRun, timed.Follows timeline.now (follow timed)) ∧
      (timeline.step step).runs = timeline.startedBy step ++ timeline.runs.map follow := by
  cases step with
  | call call => exact ⟨_, fun timed => timed.keep_follows _ _, rfl⟩
  | pass duration => exact ⟨id, fun _ => .same, (List.map_id _).symm⟩
  | begin number => exact ⟨_, fun timed => timed.begin_follows _ _, rfl⟩
  | finish number result =>
    refine ⟨id, fun _ => .same, ?_⟩
    simp only [step]
    split
    · exact (List.map_id _).symm
    · exact (List.map_id _).symm
  | receive => exact ⟨_, fun timed => timed.keep_follows _ _, rfl⟩

/-- What was there goes on, and what is new has just been started. -/
theorem mem_step_runs (timeline : Timeline) (step : Step) :
    ∀ later ∈ (timeline.step step).runs,
      later ∈ timeline.startedBy step ∨
      ∃ timed ∈ timeline.runs, timed.Follows timeline.now later := by
  obtain ⟨follow, hfollow, hruns⟩ := timeline.step_runs step
  intro later hlater
  rw [hruns] at hlater
  rcases List.mem_append.1 hlater with hnew | hold
  · exact .inl hnew
  · obtain ⟨timed, htimed, rfl⟩ := List.mem_map.1 hold
    exact .inr ⟨timed, htimed, hfollow timed⟩

theorem mem_runs_of_mem {timed : TimedRun} (h : timed ∈ timeline.runs) (step : Step) :
    ∃ later ∈ (timeline.step step).runs, timed.Follows timeline.now later := by
  obtain ⟨follow, hfollow, hruns⟩ := timeline.step_runs step
  refine ⟨follow timed, ?_, hfollow timed⟩
  rw [hruns]
  exact List.mem_append_right _ (List.mem_map_of_mem h)

theorem startedBy_begun (timeline : Timeline) (step : Step) :
    ∀ timed ∈ timeline.startedBy step, timed.begun = none := by
  cases step with
  | call call =>
    intro timed htimed
    obtain ⟨run, -, rfl⟩ := List.mem_map.1 htimed
    rfl
  | _ => simp [startedBy]

theorem startedBy_number (timeline : Timeline) (step : Step) :
    ∀ timed ∈ timeline.startedBy step, timeline.pipeline.generation < timed.run.generation := by
  cases step with
  | call call =>
    intro timed htimed
    obtain ⟨run, hrun, rfl⟩ := List.mem_map.1 htimed
    exact timeline.pipeline.startedSince_number call run hrun
  | _ => simp [startedBy]

theorem startedBy_of_generation {call : Pipeline.Call}
    (h : (timeline.pipeline.call call).generation = timeline.pipeline.generation) :
    timeline.startedBy (.call call) = [] := by
  rw [startedBy, started, Pipeline.startedSince_of_generation h]
  rfl

/-- The runs are those that were asked for, none begins before its timer is over, only those that have
begun end, and what is delivered is what one of them has ended with, once at most. -/
structure Sound (timeline : Timeline) : Prop where
  sound : timeline.tokenization.Sound
  asked : timeline.runs.map (·.run) = timeline.tokenization.asked
  onTime : ∀ timed ∈ timeline.runs, ∀ time ∈ timed.begun, timed.due ≤ time
  ended : ∀ ended ∈ timeline.tokenization.ended,
    ∃ timed ∈ timeline.runs, timed.run = ended.run ∧ timed.begun.isSome
  delivered : ∀ delivery ∈ timeline.delivered, ∃ ended ∈ timeline.tokenization.ended,
    ended.run.generation = delivery.number ∧ ended.outcome.event = delivery.event
  settled : ∀ delivery ∈ timeline.delivered, timeline.tokenization.Settled delivery.number
  once : (timeline.delivered.map (·.number)).Nodup

theorem start_sound (runtime : Runtime) (debounce cacheCapacity : Nat) :
    (start runtime debounce cacheCapacity).Sound where
  sound := Tokenization.start_sound debounce cacheCapacity
  asked := rfl
  onTime := by simp [start]
  ended := by simp [start, Tokenization.start]
  delivered := by simp [start]
  settled := by simp [start]
  once := List.nodup_nil

theorem Sound.step_onTime (h : timeline.Sound) (step : Step) :
    ∀ timed ∈ (timeline.step step).runs, ∀ time ∈ timed.begun, timed.due ≤ time := by
  intro later hlater
  rcases timeline.mem_step_runs step later hlater with hnew | ⟨timed, htimed, hfollows⟩
  · rw [timeline.startedBy_begun step later hnew]
    simp
  · exact hfollows.onTime (h.onTime timed htimed)

/-- What a step does to the pipeline is a step of the pipeline, or nothing. -/
theorem step_tokenization (timeline : Timeline) (step : Step) :
    (timeline.step step).tokenization = timeline.tokenization ∨
    ∃ inner, (timeline.step step).tokenization = timeline.tokenization.step inner := by
  cases step with
  | call call => exact .inr ⟨.call call, rfl⟩
  | pass duration => exact .inl rfl
  | begin number => exact .inl rfl
  | finish number result =>
    simp only [step]
    split
    · exact .inl rfl
    · exact .inr ⟨.finish _ result, rfl⟩
  | receive => exact .inr ⟨.receive, rfl⟩

theorem generation_le_step (timeline : Timeline) (step : Step) :
    timeline.pipeline.generation ≤ (timeline.step step).pipeline.generation := by
  rcases timeline.step_tokenization step with heq | ⟨inner, heq⟩
  · exact Nat.le_of_eq (congrArg (·.pipeline.generation) heq.symm)
  · rw [pipeline, pipeline, heq]
    exact timeline.tokenization.generation_le_step inner

theorem step_asked (timeline : Timeline) (step : Step) :
    (timeline.step step).tokenization.asked
      = (timeline.startedBy step).map (·.run) ++ timeline.tokenization.asked := by
  cases step with
  | call call =>
    simp only [startedBy, started, List.map_map]
    exact congrArg (· ++ _) (List.map_id _).symm
  | pass duration => rfl
  | begin number => rfl
  | finish number result =>
    simp only [step]
    split
    · rfl
    · exact timeline.tokenization.finish_asked _ result
  | receive => rfl

/-- Only a run that has begun ends. -/
theorem Sound.step_ended (h : timeline.Sound) (step : Step) :
    ∀ ended ∈ (timeline.step step).tokenization.ended,
      ∃ timed ∈ timeline.runs, timed.run = ended.run ∧ timed.begun.isSome := by
  cases step with
  | call call => exact h.ended
  | pass duration => exact h.ended
  | begin number => exact h.ended
  | finish number result =>
    simp only [step]
    split
    · exact h.ended
    · rename_i index hindex
      obtain ⟨hlt, hfound, -⟩ := List.findIdx?_eq_some_iff_getElem.1 hindex
      intro ended hended
      rcases timeline.tokenization.mem_finish_ended hended with hold | hnew
      · exact h.ended ended hold
      · rw [← h.asked, List.getElem?_map, List.getElem?_eq_getElem hlt] at hnew
        refine ⟨_, List.getElem_mem hlt, Option.some.inj hnew, ?_⟩
        exact (Bool.and_eq_true_iff.1 hfound).2
  | receive => exact h.ended

/-- What has ended has ended. -/
theorem ended_step (timeline : Timeline) (step : Step) :
    timeline.tokenization.ended ⊆ (timeline.step step).tokenization.ended := by
  rcases timeline.step_tokenization step with heq | ⟨inner, heq⟩
  · rw [heq]
    exact List.Subset.refl _
  · rw [heq]
    exact timeline.tokenization.ended_subset inner

/-- What is delivered is what the latest run has ended with; its request is settled then, and was not
before. -/
theorem Sound.delivery_spec (h : timeline.Sound) {delivery : Delivery}
    (hdelivery : timeline.delivery = some delivery) :
    (∃ ended ∈ timeline.tokenization.ended,
      ended.run.generation = delivery.number ∧ ended.outcome.event = delivery.event) ∧
    (timeline.tokenization.step .receive).Settled delivery.number ∧
    ∀ number, timeline.tokenization.Settled number → number < delivery.number := by
  obtain ⟨event, hevent, rfl⟩ := Option.map_eq_some_iff.1 hdelivery
  obtain ⟨ended, hended, heq, hanswered, -⟩ := h.sound.receive_safe.latest event hevent
  obtain ⟨-, -, hhead⟩ := Option.bind_eq_some_iff.1 hanswered
  refine ⟨⟨ended, hended, h.sound.numbered.head_generation hhead, heq.symm⟩, ?_, ?_⟩
  · exact h.sound.receive_settled hevent
  · exact fun number hsettled => hsettled.lt_generation hevent

theorem step_delivered (timeline : Timeline) (step : Step) :
    (timeline.step step).delivered = timeline.delivered ∨
    step = .receive ∧ ∃ delivery ∈ timeline.delivery,
      (timeline.step step).delivered = delivery :: timeline.delivered := by
  cases step with
  | call call => exact .inl rfl
  | pass duration => exact .inl rfl
  | begin number => exact .inl rfl
  | finish number result =>
    simp only [step]
    split
    · exact .inl rfl
    · exact .inl rfl
  | receive =>
    cases hdelivery : timeline.delivery with
    | none =>
      left
      show timeline.delivery.toList ++ timeline.delivered = _
      rw [hdelivery]
      rfl
    | some delivery =>
      refine .inr ⟨rfl, delivery, rfl, ?_⟩
      show timeline.delivery.toList ++ timeline.delivered = _
      rw [hdelivery]
      rfl

theorem Sound.step (h : timeline.Sound) (step : Step) : (timeline.step step).Sound := by
  have hsound : (timeline.step step).tokenization.Sound := by
    rcases timeline.step_tokenization step with heq | ⟨inner, heq⟩
    · exact heq ▸ h.sound
    · exact heq ▸ h.sound.step inner
  have hasked : (timeline.step step).runs.map (·.run) = (timeline.step step).tokenization.asked := by
    obtain ⟨follow, hfollow, hruns⟩ := timeline.step_runs step
    rw [hruns, timeline.step_asked step, ← h.asked, List.map_append, List.map_map]
    exact congrArg _ (List.map_congr_left fun timed _ => (hfollow timed).run)
  have hended : ∀ ended ∈ (timeline.step step).tokenization.ended,
      ∃ timed ∈ (timeline.step step).runs, timed.run = ended.run ∧ timed.begun.isSome := by
    intro ended hmem
    obtain ⟨timed, htimed, hrun, hbegun⟩ := h.step_ended step ended hmem
    obtain ⟨later, hlater, hfollows⟩ := mem_runs_of_mem htimed step
    exact ⟨later, hlater, hfollows.run.trans hrun, hfollows.begun hbegun⟩
  have hsettled : ∀ number, timeline.tokenization.Settled number →
      (timeline.step step).tokenization.Settled number := by
    intro number hnumber
    rcases timeline.step_tokenization step with heq | ⟨inner, heq⟩
    · exact heq ▸ hnumber
    · exact heq ▸ hnumber.step inner
  have hdelivered : ∀ delivery ∈ timeline.delivered,
      ∃ ended ∈ (timeline.step step).tokenization.ended,
        ended.run.generation = delivery.number ∧ ended.outcome.event = delivery.event := by
    intro delivery hmem
    obtain ⟨ended, hended, hspec⟩ := h.delivered delivery hmem
    exact ⟨ended, timeline.ended_step step hended, hspec⟩
  rcases timeline.step_delivered step with hsame | ⟨rfl, delivery, hdelivery, hnew⟩
  · refine ⟨hsound, hasked, h.step_onTime step, hended, ?_, ?_, ?_⟩
    · rw [hsame]
      exact hdelivered
    · rw [hsame]
      exact fun other hmem => hsettled _ (h.settled other hmem)
    · rw [hsame]
      exact h.once
  · obtain ⟨hspec, hnow, hnumbers⟩ := h.delivery_spec hdelivery
    refine ⟨hsound, hasked, h.step_onTime .receive, hended, ?_, ?_, ?_⟩
    · rw [hnew]
      exact List.forall_mem_cons.2 ⟨hspec, hdelivered⟩
    · rw [hnew]
      exact List.forall_mem_cons.2 ⟨hnow, fun other hmem => hsettled _ (h.settled other hmem)⟩
    · rw [hnew, List.map_cons]
      refine List.nodup_cons.2 ⟨?_, h.once⟩
      -- The numbers of earlier deliveries are smaller.
      intro hmem
      obtain ⟨other, hother, heq⟩ := List.mem_map.1 hmem
      exact absurd heq (Nat.ne_of_lt (hnumbers _ (h.settled other hother)))

theorem Sound.run (h : timeline.Sound) (steps : List Step) : (timeline.run steps).Sound := by
  induction steps generalizing timeline with
  | nil => exact h
  | cons step rest ih => exact ih (h.step step)

end Timeline

end HeadlessEditor
