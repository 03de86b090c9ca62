import HeadlessEditor.Proofs.TimedRuns

/-!
A schedule on a timeline. What a schedule does when it is called, lets time go on or is asked for an
event is one of the ways in which things can go on a timeline: the latest run begins and ends right when
its timers are over, and a run that has been given up does neither. So what holds of all timelines holds
of a schedule.
-/

namespace HeadlessEditor

def RunStage.due? : RunStage → Option Nat
  | .waiting due => some due
  | .running due => some due
  | .finished => none

namespace Schedule

inductive Act where
  | call (call : Pipeline.Call)
  | advance (duration : Nat)
  | receive
  | next

def call (schedule : Schedule) : Pipeline.Call → Schedule
  | .openDocument document fileExtension content version =>
    schedule.openDocument document fileExtension content version
  | .contentChanged content version => schedule.contentChanged content version
  | .closeDocument document => schedule.closeDocument document
  | .cancel => schedule.cancel
  | .setDebounce debounce => schedule.setDebounce debounce

def act (schedule : Schedule) : Act → Schedule × Option PipelineEvent
  | .call call => (schedule.call call, none)
  | .advance duration => (schedule.advance duration, none)
  | .receive => schedule.receive
  | .next => schedule.next

/-- Does one thing after the other, and adds the events that come of it, the latest first. -/
def course (schedule : Schedule) (heard : List PipelineEvent) :
    List Act → Schedule × List PipelineEvent
  | [] => (schedule, heard)
  | act :: rest => (schedule.act act).1.course ((schedule.act act).2.toList ++ heard) rest

def Act.call? : Act → Option Pipeline.Call
  | .call made => some made
  | _ => none

variable {schedule : Schedule}

theorem call_pipeline (schedule : Schedule) (call : Pipeline.Call) :
    (schedule.call call).pipeline = schedule.pipeline.call call := by
  cases call <;> rfl

theorem call_calls (schedule : Schedule) (call : Pipeline.Call) :
    (schedule.call call).calls = schedule.calls := by
  cases call <;> rfl

theorem call_runtime (schedule : Schedule) (call : Pipeline.Call) :
    (schedule.call call).runtime = schedule.runtime := by
  cases call <;> rfl

theorem call_now (schedule : Schedule) (call : Pipeline.Call) :
    (schedule.call call).now = schedule.now := by
  cases call <;> rfl

/-- The run that a call starts waits for as long as the call has it wait; a call that starts none leaves
the pending run as far as it is. -/
theorem call_stage (schedule : Schedule) (call : Pipeline.Call) :
    (schedule.pipeline.call call).generation = schedule.pipeline.generation + 1 ∧
      (schedule.call call).stage = .waiting (schedule.now + schedule.pipeline.delay schedule.runtime call) ∨
    (schedule.pipeline.call call).generation = schedule.pipeline.generation ∧
      (schedule.call call).stage = schedule.stage := by
  cases call with
  | openDocument document fileExtension content version => exact .inl ⟨rfl, rfl⟩
  | contentChanged content version =>
    simp only [Pipeline.call, Pipeline.contentChanged, Schedule.call, Schedule.contentChanged]
    cases schedule.pipeline.active with
    | none => exact .inr ⟨rfl, rfl⟩
    | some active => exact .inl ⟨rfl, rfl⟩
  | closeDocument document =>
    refine .inr ⟨?_, rfl⟩
    simp only [Pipeline.call, Pipeline.closeDocument]
    split
    · rfl
    · split
      · rfl
      · rfl
  | cancel => exact .inr ⟨rfl, rfl⟩
  | setDebounce debounce => exact .inr ⟨rfl, rfl⟩

theorem end?_pending (schedule : Schedule) (time : Nat) :
    (schedule.end? time).pipeline.pending = schedule.pipeline.pending := by
  unfold end?
  split
  · split
    · rfl
    · rfl
  · rfl

theorem begin?_waiting {run : TokenRun} {time due : Nat} (hpending : schedule.pipeline.pending = some run)
    (hstage : (schedule.begin? time).stage = .waiting due) : time < due := by
  unfold begin? at hstage
  rw [hpending] at hstage
  cases hbefore : schedule.stage with
  | waiting before =>
    simp only [hbefore] at hstage
    split at hstage
    · cases hstage
    · rename_i hlate
      obtain rfl := RunStage.waiting.inj (hbefore.symm.trans hstage)
      exact Nat.lt_of_not_le hlate
  | running before =>
    simp only [hbefore] at hstage
    cases hstage
  | finished =>
    simp only [hbefore] at hstage
    cases hstage

theorem end?_due {run : TokenRun} {time due : Nat} (hpending : schedule.pipeline.pending = some run)
    (hwaiting : ∀ due, schedule.stage = .waiting due → time < due)
    (hdue : due ∈ (schedule.end? time).stage.due?) : time < due := by
  unfold end? at hdue
  rw [hpending] at hdue
  cases hbefore : schedule.stage with
  | waiting before =>
    simp only [hbefore] at hdue
    obtain rfl := Option.some.inj hdue
    exact hwaiting _ hbefore
  | running before =>
    simp only [hbefore] at hdue
    split at hdue
    · cases hdue
    · rename_i hlate
      rw [hbefore] at hdue
      obtain rfl := Option.some.inj hdue
      exact Nat.lt_of_not_le hlate
  | finished =>
    simp only [hbefore] at hdue
    cases hdue

/-- What is due by a time has happened then. -/
theorem lt_due (schedule : Schedule) (time : Nat) :
    ∀ run ∈ ((schedule.begin? time).end? time).pipeline.pending,
      ∀ due ∈ ((schedule.begin? time).end? time).stage.due?, time < due := by
  intro run hrun due hdue
  rw [end?_pending, begin?_pipeline] at hrun
  have hbegun : (schedule.begin? time).pipeline.pending = some run := by
    rw [begin?_pipeline]
    exact hrun
  exact end?_due hbegun (fun _ hstage => begin?_waiting hrun hstage) hdue

end Schedule

namespace Timeline

/-- The latest run has got as far as this. -/
def Reached (timeline : Timeline) (timed : TimedRun) : RunStage → Prop
  | .waiting due => timed.due = due ∧ timed.begun = none
  | .running _ => timed.begun.isSome ∧ timed.run ∉ timeline.tokenization.ended.map (·.run)
  | .finished => True

def begunCount (timeline : Timeline) : Nat := timeline.runs.countP (·.begun.isSome)

/-- The pending run of a schedule stands on the timeline as it does there. -/
structure Stands (timeline : Timeline) (stage : RunStage) (run : TokenRun) : Prop where
  latest : ∃ timed earlier, timeline.runs = timed :: earlier ∧ timed.run = run ∧
    timed.dropped = none ∧ timeline.Reached timed stage
  early : ∀ due ∈ stage.due?, timeline.now ≤ due

structure Mirrors (timeline : Timeline) (schedule : Schedule) : Prop where
  sound : timeline.Sound
  runtime : timeline.runtime = schedule.runtime
  pipeline : timeline.pipeline = schedule.pipeline
  calls : timeline.begunCount = schedule.calls
  pending : ∀ run ∈ schedule.pipeline.pending, timeline.Stands schedule.stage run

variable {timeline : Timeline} {schedule : Schedule}

/-- Runs before the latest have smaller numbers. -/
theorem Sound.lt_latest (h : timeline.Sound) {latest : TimedRun} {earlier : List TimedRun}
    (hruns : timeline.runs = latest :: earlier) :
    ∀ timed ∈ earlier, timed.run.generation < latest.run.generation := by
  have hnumbered := h.sound.numbered
  rw [← h.asked, hruns, List.map_cons] at hnumbered
  generalize timeline.tokenization.pipeline.generation = count at hnumbered
  intro timed htimed
  cases hnumbered with
  | cons number rest =>
    have hle := rest.le timed.run (List.mem_map_of_mem htimed)
    omega

/-- The latest run ends only after it has begun. -/
theorem Sound.begun_of_ended (h : timeline.Sound) {latest : TimedRun} {earlier : List TimedRun}
    (hruns : timeline.runs = latest :: earlier)
    (hended : latest.run ∈ timeline.tokenization.ended.map (·.run)) : latest.begun.isSome := by
  obtain ⟨ended, hmem, hrun⟩ := List.mem_map.1 hended
  obtain ⟨timed, htimed, hsame, hbegun⟩ := h.ended ended hmem
  rw [hruns] at htimed
  rcases List.mem_cons.1 htimed with rfl | hearlier
  · exact hbegun
  · have hlt := h.lt_latest hruns timed hearlier
    rw [hsame, hrun] at hlt
    exact absurd hlt (Nat.lt_irrefl _)

theorem countP_keep (runs : List TimedRun) (pending : Option TokenRun) (now : Nat) :
    (runs.map (·.keep pending now)).countP (·.begun.isSome) = runs.countP (·.begun.isSome) := by
  rw [List.countP_map]
  refine List.countP_congr fun timed _ => ?_
  simp only [Function.comp_apply, TimedRun.keep_begun]

theorem begunCount_call (timeline : Timeline) (call : Pipeline.Call) :
    (timeline.step (.call call)).begunCount = timeline.begunCount := by
  have hnew : (timeline.started call).countP (·.begun.isSome) = 0 := by
    rw [List.countP_eq_zero]
    intro timed htimed
    rw [timeline.startedBy_begun (.call call) timed htimed]
    simp
  show List.countP _ (_ ++ _) = _
  rw [List.countP_append, hnew, countP_keep, Nat.zero_add, begunCount]

/-- A run that stays pending while others are given up stands as it did. -/
theorem Stands.keep {stage : RunStage} {run : TokenRun} (h : timeline.Stands stage run)
    {after : Timeline} {now : Nat} (hruns : after.runs = timeline.runs.map (·.keep (some run) now))
    (hnow : after.now = timeline.now)
    (hended : after.tokenization.ended = timeline.tokenization.ended) : after.Stands stage run := by
  obtain ⟨⟨timed, earlier, hbefore, rfl, hdropped, hreached⟩, hearly⟩ := h
  have hkept : timed.keep (some timed.run) now = timed := if_pos rfl
  rw [hbefore, List.map_cons, hkept] at hruns
  refine ⟨⟨timed, _, hruns, rfl, hdropped, ?_⟩, hnow ▸ hearly⟩
  cases stage with
  | waiting due => exact hreached
  | running due =>
    rw [Reached, hended]
    exact hreached
  | finished => trivial

theorem Mirrors.call (h : timeline.Mirrors schedule) (hnow : timeline.now = schedule.now)
    (call : Pipeline.Call) : (timeline.step (.call call)).Mirrors (schedule.call call) := by
  have hpipeline : (timeline.step (.call call)).pipeline = (schedule.call call).pipeline := by
    rw [schedule.call_pipeline, ← h.pipeline]
    rfl
  have hruntime : (timeline.step (.call call)).runtime = (schedule.call call).runtime := by
    rw [schedule.call_runtime, ← h.runtime]
    rfl
  refine ⟨h.sound.step _, hruntime, hpipeline, ?_, ?_⟩
  · rw [begunCount_call, h.calls, schedule.call_calls]
  · intro run hrun
    have hruns : (timeline.step (.call call)).runs = timeline.started call
        ++ timeline.runs.map (·.keep (schedule.call call).pipeline.pending timeline.now) := by
      rw [← hpipeline]
      rfl
    rw [schedule.call_pipeline] at hrun
    rcases schedule.call_stage call with ⟨hgeneration, hstage⟩ | ⟨hgeneration, hstage⟩
    · rw [started, h.pipeline, h.runtime, Pipeline.startedSince_of_pending hgeneration hrun,
        hnow] at hruns
      rw [hstage]
      refine ⟨⟨_, _, hruns, rfl, rfl, rfl, rfl⟩, ?_⟩
      rintro due ⟨⟩
      exact hnow ▸ Nat.le_add_right _ _
    · have hold : run ∈ schedule.pipeline.pending := by
        cases schedule.pipeline.call_calls call with
        | starts _ _ generation _ _ _ => omega
        | keeps _ _ pending _ => exact pending run hrun
      rw [started, h.pipeline, Pipeline.startedSince_of_generation hgeneration,
        schedule.call_pipeline, Option.mem_def.1 hrun] at hruns
      rw [hstage]
      exact (h.pending run hold).keep hruns rfl rfl

theorem Mirrors.receive (h : timeline.Mirrors schedule) :
    (timeline.step .receive).Mirrors schedule.receive.1 := by
  have hpipeline : (timeline.step .receive).pipeline = schedule.receive.1.pipeline := by
    show timeline.pipeline.receive.1 = schedule.pipeline.receive.1
    rw [h.pipeline]
  refine ⟨h.sound.step _, h.runtime, hpipeline, ?_, ?_⟩
  · exact (countP_keep _ _ _).trans h.calls
  · intro run hrun
    have hruns : (timeline.step .receive).runs = timeline.runs.map
        (·.keep (timeline.step .receive).pipeline.pending timeline.now) :=
      rfl
    rw [hpipeline, Option.mem_def.1 hrun] at hruns
    have hold := schedule.pipeline.receive_pending run hrun
    exact (h.pending run hold).keep hruns rfl rfl

theorem Mirrors.pass (h : timeline.Mirrors schedule) (duration : Nat)
    (hearly : ∀ run ∈ schedule.pipeline.pending, ∀ due ∈ schedule.stage.due?,
      timeline.now + duration ≤ due) : (timeline.step (.pass duration)).Mirrors schedule where
  sound := h.sound.step _
  runtime := h.runtime
  pipeline := h.pipeline
  calls := h.calls
  pending := by
    intro run hrun
    exact ⟨(h.pending run hrun).latest, hearly run hrun⟩

theorem Mirrors.begin (h : timeline.Mirrors schedule) {run : TokenRun} {due : Nat}
    (hpending : schedule.pipeline.pending = some run) (hstage : schedule.stage = .waiting due)
    (hnow : timeline.now = due) :
    (timeline.step (.begin run.generation)).Mirrors { schedule with
      stage := .running (due + schedule.tokenizer.duration)
      calls := schedule.calls + 1 } := by
  obtain ⟨⟨timed, earlier, hruns, rfl, hdropped, hreached⟩, -⟩ := h.pending run hpending
  rw [hstage] at hreached
  obtain ⟨hdue, hbegun⟩ := hreached
  have hready : timed.Ready timeline.now := by
    refine ⟨hbegun, Nat.le_of_eq (hdue.trans hnow.symm), ?_⟩
    simp [hdropped]
  have hothers : earlier.map (·.begin timed.run.generation timeline.now) = earlier := by
    have hsame : ∀ other ∈ earlier, other.begin timed.run.generation timeline.now = other := by
      intro other hother
      have hne := Nat.ne_of_lt (h.sound.lt_latest hruns other hother)
      exact if_neg fun hready => hne hready.1
    rw [List.map_congr_left hsame, List.map_id']
  have hafter : (timeline.step (.begin timed.run.generation)).runs
      = { timed with begun := some timeline.now } :: earlier := by
    show timeline.runs.map _ = _
    rw [hruns, List.map_cons, hothers, TimedRun.begin, if_pos ⟨rfl, hready⟩]
  refine ⟨h.sound.step _, h.runtime, h.pipeline, ?_, ?_⟩
  · have hcalls := h.calls
    rw [begunCount, hruns, List.countP_cons_of_neg (by simp [hbegun])] at hcalls
    rw [begunCount, hafter, List.countP_cons_of_pos rfl, hcalls]
  · intro other hother
    obtain rfl := Option.some.inj (hpending.symm.trans hother)
    refine ⟨⟨_, _, hafter, rfl, hdropped, rfl, ?_⟩, ?_⟩
    · intro hended
      have hbefore := h.sound.begun_of_ended hruns hended
      rw [hbegun] at hbefore
      cases hbefore
    · rintro _ ⟨⟩
      exact Nat.le_trans (Nat.le_of_eq hnow) (Nat.le_add_right _ _)

theorem Mirrors.finish (h : timeline.Mirrors schedule) {run : TokenRun} {due : Nat}
    (hpending : schedule.pipeline.pending = some run) (hstage : schedule.stage = .running due) :
    (timeline.step (.finish run.generation
      (schedule.tokenizer.tokenize run.content run.fileExtension))).Mirrors { schedule with
        pipeline := schedule.pipeline.finish (run.outcome schedule.tokenizer)
        stage := .finished } := by
  obtain ⟨⟨timed, earlier, hruns, rfl, hdropped, hreached⟩, -⟩ := h.pending run hpending
  rw [hstage] at hreached
  obtain ⟨hbegun, hended⟩ := hreached
  have hasked : timeline.tokenization.asked[0]? = some timed.run := by
    rw [← h.sound.asked, hruns]
    rfl
  have hindex : timeline.runs.findIdx? (fun other =>
      other.run.generation == timed.run.generation && other.begun.isSome) = some 0 := by
    rw [hruns, List.findIdx?_cons, if_pos]
    simp [hbegun]
  generalize hresult : schedule.tokenizer.tokenize timed.run.content timed.run.fileExtension = result
  have hinner : (timeline.step (.finish timed.run.generation result)).tokenization
      = timeline.tokenization.step (.finish 0 result) := by
    simp only [step, hindex]
  have hpipeline : (timeline.step (.finish timed.run.generation result)).pipeline
      = schedule.pipeline.finish (timed.run.outcome schedule.tokenizer) := by
    rw [Timeline.pipeline, hinner]
    simp only [Tokenization.step, hasked, if_neg hended]
    rw [TokenRun.outcome, hresult, ← h.pipeline]
    rfl
  have hafter : (timeline.step (.finish timed.run.generation result)).runs = timeline.runs := by
    simp only [step, hindex]
  refine ⟨h.sound.step _, (timeline.step_runtime _).trans h.runtime, hpipeline, ?_, ?_⟩
  · rw [begunCount, hafter]
    exact h.calls
  · intro other hother
    obtain rfl := Option.some.inj (hpending.symm.trans hother)
    refine ⟨⟨timed, earlier, hafter.trans hruns, rfl, hdropped, trivial⟩, ?_⟩
    rintro _ ⟨⟩

/-- Time passes, or a run goes on. -/
def Step.Silent : Step → Prop
  | .pass _ => True
  | .begin _ => True
  | .finish _ _ => True
  | _ => False

def Step.call? : Step → Option Pipeline.Call
  | .call made => some made
  | _ => none

theorem run_silent {steps : List Step} (hsilent : ∀ step ∈ steps, step.Silent) (timeline : Timeline) :
    steps.filterMap Step.call? = [] ∧ (timeline.run steps).delivered = timeline.delivered := by
  induction steps generalizing timeline with
  | nil => exact ⟨rfl, rfl⟩
  | cons step rest ih =>
    obtain ⟨hstep, hrest⟩ := List.forall_mem_cons.1 hsilent
    obtain ⟨hcalls, hdelivered⟩ := ih hrest (timeline.step step)
    have hsame : (timeline.step step).delivered = timeline.delivered := by
      rcases timeline.step_delivered step with hsame | ⟨rfl, -⟩
      · exact hsame
      · cases hstep
    refine ⟨?_, hdelivered.trans hsame⟩
    rw [List.filterMap_cons_none ?_, hcalls]
    cases step with
    | call call => cases hstep
    | _ => rfl

/-- Time goes on until the pending run does. -/
theorem Mirrors.passTo (h : timeline.Mirrors schedule) {run : TokenRun} {due : Nat}
    (hpending : schedule.pipeline.pending = some run) (hdue : schedule.stage.due? = some due) :
    (timeline.step (.pass (due - timeline.now))).Mirrors schedule ∧
    (timeline.step (.pass (due - timeline.now))).now = due := by
  have hearly := (h.pending run hpending).early due hdue
  refine ⟨h.pass _ ?_, Nat.add_sub_cancel' hearly⟩
  intro _ _ later hlater
  obtain rfl := Option.some.inj (hdue.symm.trans hlater)
  exact Nat.le_of_eq (Nat.add_sub_cancel' hearly)

theorem Mirrors.begin? (h : timeline.Mirrors schedule) {time : Nat} (hnow : timeline.now ≤ time) :
    ∃ steps, (∀ step ∈ steps, step.Silent) ∧
      (timeline.run steps).Mirrors (schedule.begin? time) ∧ (timeline.run steps).now ≤ time := by
  unfold Schedule.begin?
  split
  · rename_i run due hpending hstage
    split
    · rename_i hdue
      obtain ⟨hpass, hthen⟩ := h.passTo hpending (congrArg RunStage.due? hstage)
      exact ⟨[.pass (due - timeline.now), .begin run.generation], by simp [Step.Silent],
        hpass.begin hpending hstage hthen, Nat.le_trans (Nat.le_of_eq hthen) hdue⟩
    · exact ⟨[], by simp, h, hnow⟩
  · exact ⟨[], by simp, h, hnow⟩

theorem Mirrors.end? (h : timeline.Mirrors schedule) {time : Nat} (hnow : timeline.now ≤ time) :
    ∃ steps, (∀ step ∈ steps, step.Silent) ∧
      (timeline.run steps).Mirrors (schedule.end? time) ∧ (timeline.run steps).now ≤ time := by
  unfold Schedule.end?
  split
  · rename_i run due hpending hstage
    split
    · rename_i hdue
      obtain ⟨hpass, hthen⟩ := h.passTo hpending (congrArg RunStage.due? hstage)
      refine ⟨[.pass (due - timeline.now), .finish run.generation
        (schedule.tokenizer.tokenize run.content run.fileExtension)], by simp [Step.Silent],
        hpass.finish hpending hstage, ?_⟩
      rw [run_cons, run_cons, run_nil, step_now, hthen]
      exact hdue
    · exact ⟨[], by simp, h, hnow⟩
  · exact ⟨[], by simp, h, hnow⟩

theorem Mirrors.runUntil (h : timeline.Mirrors schedule) (hnow : timeline.now = schedule.now)
    {time : Nat} (htime : schedule.now ≤ time) :
    ∃ steps, (∀ step ∈ steps, step.Silent) ∧
      (timeline.run steps).Mirrors (schedule.runUntil time) ∧
      (timeline.run steps).now = (schedule.runUntil time).now := by
  obtain ⟨begins, hbegins, hbegun, htime'⟩ := h.begin? (hnow ▸ htime)
  obtain ⟨ends, hends, hended, htime''⟩ := hbegun.end? htime'
  have hpass := hended.pass (time - ((timeline.run begins).run ends).now) (by
    intro run hrun due hdue
    have hlt := schedule.lt_due time run hrun due hdue
    omega)
  refine ⟨begins ++ ends ++ [.pass (time - ((timeline.run begins).run ends).now)], ?_, ?_, ?_⟩
  · intro step hstep
    rcases List.mem_append.1 hstep with hboth | hlast
    · rcases List.mem_append.1 hboth with hbegin | hend
      · exact hbegins step hbegin
      · exact hends step hend
    · obtain rfl := List.mem_singleton.1 hlast
      trivial
  · rw [run_append, run_append]
    exact ⟨hpass.sound, hpass.runtime, hpass.pipeline, hpass.calls, hpass.pending⟩
  · rw [run_append, run_append]
    show _ + (time - _) = max schedule.now time
    omega

structure KeepsUp (timeline : Timeline) (schedule : Schedule) (heard : List PipelineEvent) : Prop where
  mirrors : timeline.Mirrors schedule
  now : timeline.now = schedule.now
  heard : timeline.delivered.map (·.event) = heard

theorem start_keepsUp (tokenizer : Tokenizer) (runtime : Runtime) (debounce cacheCapacity : Nat) :
    (start runtime debounce cacheCapacity).KeepsUp
      (.new tokenizer runtime debounce cacheCapacity) [] where
  mirrors := ⟨start_sound runtime debounce cacheCapacity, rfl, rfl, rfl,
    by simp [Schedule.new, Pipeline.new]⟩
  now := rfl
  heard := rfl

variable {heard : List PipelineEvent}

theorem KeepsUp.runUntil (h : timeline.KeepsUp schedule heard) {time : Nat}
    (htime : schedule.now ≤ time) :
    ∃ steps, steps.filterMap Step.call? = [] ∧
      (timeline.run steps).KeepsUp (schedule.runUntil time) heard := by
  obtain ⟨steps, hsilent, hmirrors, hnow⟩ := h.mirrors.runUntil h.now htime
  obtain ⟨hcalls, hdelivered⟩ := run_silent hsilent timeline
  refine ⟨steps, hcalls, hmirrors, hnow, ?_⟩
  rw [hdelivered]
  exact h.heard

theorem KeepsUp.receive (h : timeline.KeepsUp schedule heard) :
    (timeline.step .receive).KeepsUp schedule.receive.1
      (schedule.receive.2.toList ++ heard) := by
  refine ⟨h.mirrors.receive, h.now, ?_⟩
  show (timeline.delivery.toList ++ timeline.delivered).map (·.event)
    = schedule.pipeline.receive.2.toList ++ heard
  rw [List.map_append, h.heard, delivery, h.mirrors.pipeline]
  cases schedule.pipeline.receive.2 with
  | none => rfl
  | some event => rfl

theorem KeepsUp.act (h : timeline.KeepsUp schedule heard) (act : Schedule.Act) :
    ∃ steps, steps.filterMap Step.call? = act.call?.toList ∧
      (timeline.run steps).KeepsUp (schedule.act act).1 ((schedule.act act).2.toList ++ heard) := by
  cases act with
  | call call =>
    refine ⟨[.call call], rfl, h.mirrors.call h.now call, ?_, h.heard⟩
    exact h.now.trans (schedule.call_now call).symm
  | advance duration => exact h.runUntil (Nat.le_add_right _ _)
  | receive => exact ⟨[.receive], rfl, h.receive⟩
  | next =>
    simp only [Schedule.act, Schedule.next]
    split
    · exact ⟨[], rfl, h⟩
    · obtain ⟨steps, hcalls, hkeeps⟩ := h.runUntil (Nat.le_max_left _ schedule.pendingEnd)
      refine ⟨steps ++ [.receive], ?_, ?_⟩
      · rw [List.filterMap_append, hcalls]
        rfl
      · rw [run_append]
        exact hkeeps.receive

theorem KeepsUp.course (h : timeline.KeepsUp schedule heard) (acts : List Schedule.Act) :
    ∃ steps, steps.filterMap Step.call? = acts.filterMap Schedule.Act.call? ∧
      (timeline.run steps).KeepsUp (schedule.course heard acts).1 (schedule.course heard acts).2 := by
  induction acts generalizing timeline schedule heard with
  | nil => exact ⟨[], rfl, h⟩
  | cons act rest ih =>
    obtain ⟨steps, hcalls, hkeeps⟩ := h.act act
    obtain ⟨later, hlater, hcourse⟩ := ih hkeeps
    refine ⟨steps ++ later, ?_, ?_⟩
    · rw [List.filterMap_append, hcalls, hlater]
      cases hcall : act.call? with
      | none => exact (List.filterMap_cons_none hcall).symm
      | some call => exact (List.filterMap_cons_some hcall).symm
    · rw [run_append]
      exact hcourse

/-- For all that a schedule is told to do there is a timeline with the same calls on which the pipeline,
the time, the number of runs that have begun and the events are those of the schedule. -/
theorem course_on_timeline (tokenizer : Tokenizer) (runtime : Runtime)
    (debounce cacheCapacity : Nat) (acts : List Schedule.Act) :
    ∃ steps, steps.filterMap Step.call? = acts.filterMap Schedule.Act.call? ∧
      let timeline := (start runtime debounce cacheCapacity).run steps
      let course := (Schedule.new tokenizer runtime debounce cacheCapacity).course [] acts
      timeline.pipeline = course.1.pipeline ∧ timeline.now = course.1.now ∧
      timeline.begunCount = course.1.calls ∧ timeline.delivered.map (·.event) = course.2 := by
  obtain ⟨steps, hcalls, hkeeps⟩ := (start_keepsUp tokenizer runtime debounce cacheCapacity).course acts
  exact ⟨steps, hcalls, hkeeps.mirrors.pipeline, hkeeps.now, hkeeps.mirrors.calls,
    hkeeps.heard⟩

end Timeline

end HeadlessEditor
