import HeadlessEditor.Proofs.TimedRuns
import Mathlib.Order.Interval.Finset.Nat

/-!
The debounce. Each change of the text gives up the run for the change before and puts off the run for
itself, so that of changes which follow each other closely only the last comes to the tokenizer. That
holds however runs begin and end otherwise, since the run for an earlier change is given up before its
timer is over.
-/

namespace HeadlessEditor

/-- A timer that is set to the delay is over no earlier. -/
def Runtime.Punctual (runtime : Runtime) (delay : Nat) : Prop := delay ≤ runtime.timer delay

theorem Runtime.Punctual.le_wait {runtime : Runtime} {delay : Nat} (h : runtime.Punctual delay) :
    delay ≤ runtime.wait delay := by
  unfold wait
  split
  · omega
  · exact h

namespace Timeline

variable {timeline : Timeline}

/-- Nothing is asked for, and the document stays as it is. -/
def Step.Quiet (document : DocumentId) : Step → Prop
  | .call .cancel => True
  | .call (.closeDocument other) => other ≠ document
  | .call _ => False
  | _ => True

structure Round where
  content : Text
  version : Nat
  pause : List Step

namespace Round

def steps (round : Round) : List Step :=
  .call (.contentChanged round.content round.version) :: round.pause

structure Brief (round : Round) (document : DocumentId) (delay : Nat) : Prop where
  elapsed : Timeline.elapsed round.pause < delay
  quiet : ∀ step ∈ round.pause, step.Quiet document

end Round

def changeRun (number : Nat) (active : ActiveDocument) (content : Text) (version : Nat) : TokenRun :=
  ⟨number, active.id, active.fileExtension, version, content⟩

theorem call_contentChanged {pipeline : Pipeline} {active : ActiveDocument}
    (hactive : pipeline.active = some active) (content : Text) (version : Nat) :
    pipeline.call (.contentChanged content version) = { pipeline with
      active := some { active with version }
      generation := pipeline.generation + 1
      pending := some (changeRun (pipeline.generation + 1) active content version) } := by
  simp [Pipeline.call, Pipeline.contentChanged, Pipeline.request, hactive, changeRun]

/-- Quiet steps leave the active document, the debounce and the requests alone. -/
theorem step_quiet {active : ActiveDocument} (hactive : timeline.pipeline.active = some active)
    {step : Step} (hquiet : step.Quiet active.id) :
    (timeline.step step).pipeline.active = some active ∧
    (timeline.step step).pipeline.debounce = timeline.pipeline.debounce ∧
    (timeline.step step).pipeline.generation = timeline.pipeline.generation ∧
    timeline.startedBy step = [] := by
  cases step with
  | call call =>
    cases call with
    | openDocument _ _ _ _ => cases hquiet
    | contentChanged _ _ => cases hquiet
    | closeDocument other =>
      have hother : active.id ≠ other := Ne.symm hquiet
      have hsame : timeline.pipeline.call (.closeDocument other) = timeline.pipeline := by
        simp [Pipeline.call, Pipeline.closeDocument, hactive, hother]
      have hpipeline : (timeline.step (.call (.closeDocument other))).pipeline = timeline.pipeline :=
        hsame
      rw [hpipeline]
      exact ⟨hactive, rfl, rfl, startedBy_of_generation (congrArg _ hsame)⟩
    | cancel => exact ⟨hactive, rfl, rfl, startedBy_of_generation rfl⟩
    | setDebounce _ => cases hquiet
  | pass duration => exact ⟨hactive, rfl, rfl, rfl⟩
  | begin number => exact ⟨hactive, rfl, rfl, rfl⟩
  | finish number result =>
    simp only [step]
    split
    · exact ⟨hactive, rfl, rfl, rfl⟩
    · rename_i index _
      rcases timeline.tokenization.step_finish index result with heq | ⟨run, -, heq⟩
      · rw [heq]
        exact ⟨hactive, rfl, rfl, rfl⟩
      · rw [heq]
        exact ⟨hactive, rfl, rfl, rfl⟩
  | receive =>
    obtain ⟨hsame, hgeneration, -⟩ := timeline.pipeline.receive_same
    exact ⟨hsame.trans hactive, timeline.pipeline.debounce_receiveFrom _, hgeneration, rfl⟩

/-- No request after the one of this number comes to the tokenizer until after `horizon`. -/
def HeldSince (timeline : Timeline) (first horizon : Nat) : Prop :=
  ∀ timed ∈ timeline.runs, first < timed.run.generation → timed.Held horizon

/-- As long as nothing new is asked for and it is not later than that, this stays so. -/
theorem HeldSince.step {first horizon : Nat} (h : timeline.HeldSince first horizon)
    (hnow : timeline.now ≤ horizon) {step : Step} (hstarted : timeline.startedBy step = []) :
    (timeline.step step).HeldSince first horizon := by
  intro later hlater hnumber
  rcases timeline.mem_step_runs step later hlater with hnew | ⟨timed, htimed, hfollows⟩
  · rw [hstarted] at hnew
    cases hnew
  · rw [hfollows.run] at hnumber
    exact (h timed htimed hnumber).follows hnow hfollows

structure Between (opened : Timeline) (active : ActiveDocument) (count : Nat) (timeline : Timeline) :
    Prop where
  runtime : timeline.runtime = opened.runtime
  active : ∃ version, timeline.pipeline.active = some { active with version }
  debounce : timeline.pipeline.debounce = opened.pipeline.debounce
  generation : timeline.pipeline.generation = opened.pipeline.generation + count

variable {opened : Timeline} {active : ActiveDocument} {count : Nat}

/-- Runs that are held until a pause is over are still held then. -/
theorem Between.pause (h : Between opened active count timeline) {first : Nat} {steps : List Step}
    (hheld : timeline.HeldSince first (timeline.now + elapsed steps))
    (hquiet : ∀ step ∈ steps, step.Quiet active.id) :
    Between opened active count (timeline.run steps) ∧
    (timeline.run steps).HeldSince first (timeline.run steps).now := by
  induction steps generalizing timeline with
  | nil => exact ⟨h, hheld⟩
  | cons step rest ih =>
    obtain ⟨hstep, hrest⟩ := List.forall_mem_cons.1 hquiet
    obtain ⟨version, hactive⟩ := h.active
    obtain ⟨hactive', hdebounce, hgeneration, hstarted⟩ := step_quiet hactive hstep
    have hnext := hheld.step (Nat.le_add_right _ _) hstarted
    rw [elapsed_cons, ← Nat.add_assoc, ← timeline.step_now step] at hnext
    refine ih ⟨?_, ⟨version, hactive'⟩, ?_, ?_⟩ hnext hrest
    · exact (timeline.step_runtime step).trans h.runtime
    · exact hdebounce.trans h.debounce
    · exact hgeneration.trans h.generation

/-- A change starts a run whose timer has the debounce to go, and gives up all others. -/
theorem Sound.step_change (h : timeline.Sound) (hactive : timeline.pipeline.active = some active)
    (content : Text) (version : Nat) :
    ∃ earlier, (timeline.step (.call (.contentChanged content version))).runs
        = ⟨changeRun (timeline.pipeline.generation + 1) active content version,
            timeline.now + timeline.runtime.wait timeline.pipeline.debounce, none, none⟩ :: earlier ∧
      ∀ later ∈ earlier, later.dropped.isSome ∧
        ∃ timed ∈ timeline.runs, timed.Follows timeline.now later := by
  have hcall := call_contentChanged hactive content version
  have hpending := congrArg Pipeline.pending hcall
  have hgeneration := congrArg Pipeline.generation hcall
  refine ⟨timeline.runs.map (·.keep (timeline.pipeline.call (.contentChanged content version)).pending
    timeline.now), ?_, ?_⟩
  · show timeline.started _ ++ _ = _
    rw [started, Pipeline.startedSince_of_pending hgeneration hpending]
    rfl
  · intro later hlater
    obtain ⟨timed, htimed, rfl⟩ := List.mem_map.1 hlater
    refine ⟨?_, timed, htimed, timed.keep_follows _ _⟩
    have hasked : timed.run ∈ timeline.tokenization.asked := by
      rw [← h.asked]
      exact List.mem_map_of_mem htimed
    have hle : timed.run.generation ≤ timeline.pipeline.generation :=
      h.sound.numbered.le timed.run hasked
    -- The pending run has a number that no run had before, so all of those are given up.
    have hother : changeRun (timeline.pipeline.generation + 1) active content version ≠ timed.run := by
      intro heq
      rw [← heq] at hle
      exact Nat.not_succ_le_self _ hle
    rw [hpending, TimedRun.keep, if_neg (fun heq => hother (Option.some.inj heq))]
    simp

/-- The earlier changes are missed. -/
theorem Between.change (h : Between opened active count timeline) (hsound : timeline.Sound)
    (content : Text) (version : Nat) :
    let last := changeRun (opened.pipeline.generation + count + 1) active content version
    let due := timeline.now + opened.runtime.wait opened.pipeline.debounce
    let after := timeline.step (.call (.contentChanged content version))
    Between opened active (count + 1) after ∧
    (∃ earlier, after.runs = ⟨last, due, none, none⟩ :: earlier) ∧
    ∀ first, timeline.HeldSince first timeline.now →
      ∀ timed ∈ after.runs, first < timed.run.generation →
        timed = ⟨last, due, none, none⟩ ∨ timed.Missed := by
  intro last due after
  obtain ⟨version', hactive⟩ := h.active
  obtain ⟨earlier, hruns, hearlier⟩ := hsound.step_change hactive content version
  rw [h.runtime, h.debounce, h.generation] at hruns
  have hpipeline : after.pipeline = _ := call_contentChanged hactive content version
  refine ⟨⟨?_, ⟨version, ?_⟩, ?_, ?_⟩, ⟨earlier, hruns⟩, ?_⟩
  · exact (timeline.step_runtime _).trans h.runtime
  · rw [hpipeline]
  · rw [hpipeline]
    exact h.debounce
  · rw [hpipeline, ← Nat.add_assoc, ← h.generation]
  · intro first hheld timed htimed hnumber
    rw [hruns] at htimed
    rcases List.mem_cons.1 htimed with hlast | hmem
    · exact .inl hlast
    · obtain ⟨hdropped, before, hbefore, hfollows⟩ := hearlier timed hmem
      rw [hfollows.run] at hnumber
      have hheld' := (hheld before hbefore hnumber).follows (Nat.le_refl _) hfollows
      exact .inr (hheld'.missed hdropped)

theorem Between.round (h : Between opened active count timeline) (hsound : timeline.Sound)
    (hpunctual : opened.runtime.Punctual opened.pipeline.debounce)
    {first : Nat} (hheld : timeline.HeldSince first timeline.now) {round : Round}
    (hbrief : round.Brief active.id opened.pipeline.debounce) :
    Between opened active (count + 1) (timeline.run round.steps) ∧
    (timeline.run round.steps).HeldSince first (timeline.run round.steps).now := by
  obtain ⟨hchange, -, hmissed⟩ := h.change hsound round.content round.version
  refine hchange.pause ?_ hbrief.quiet
  intro timed htimed hnumber
  rcases hmissed first hheld timed htimed hnumber with rfl | hmissed
  -- The timer of the run for this change has longer to go than the pause.
  · exact ⟨rfl, Nat.add_lt_add_left (Nat.lt_of_lt_of_le hbrief.elapsed hpunctual.le_wait) _⟩
  · exact hmissed.held _

theorem Between.rounds (h : Between opened active count timeline) (hsound : timeline.Sound)
    (hpunctual : opened.runtime.Punctual opened.pipeline.debounce)
    {first : Nat} (hheld : timeline.HeldSince first timeline.now) {rounds : List Round}
    (hbrief : ∀ round ∈ rounds, round.Brief active.id opened.pipeline.debounce) :
    Between opened active (count + rounds.length) (timeline.run (rounds.flatMap Round.steps)) ∧
    (timeline.run (rounds.flatMap Round.steps)).HeldSince first
      (timeline.run (rounds.flatMap Round.steps)).now := by
  induction rounds generalizing timeline count with
  | nil => exact ⟨h, hheld⟩
  | cons round rest ih =>
    obtain ⟨hround, hrest⟩ := List.forall_mem_cons.1 hbrief
    obtain ⟨hnext, hheld'⟩ := h.round hsound hpunctual hheld hround
    rw [List.flatMap_cons, run_append, List.length_cons, Nat.add_comm rest.length, ← Nat.add_assoc]
    exact ih hnext (hsound.run _) hheld' hrest

/-- Of the requests after the one of number `first` up to that for `last`, only that one can still come
to the tokenizer or has done so, and not before `due`. -/
structure Collapsed (timeline : Timeline) (first : Nat) (last : TokenRun) (due : Nat) : Prop where
  requested : last.generation ≤ timeline.pipeline.generation
  runs : ∀ timed ∈ timeline.runs, first < timed.run.generation →
    timed.run.generation ≤ last.generation → timed.Missed ∨ timed.run = last ∧ timed.due = due

variable {first due : Nat} {last : TokenRun}

/-- A change after brief rounds makes a burst of them. -/
theorem Between.collapsed (h : Between opened active count timeline) (hsound : timeline.Sound)
    (hheld : timeline.HeldSince first timeline.now) (content : Text) (version : Nat) :
    (timeline.step (.call (.contentChanged content version))).Collapsed first
      (changeRun (opened.pipeline.generation + count + 1) active content version)
      (timeline.now + opened.runtime.wait opened.pipeline.debounce) := by
  obtain ⟨hchange, -, hmissed⟩ := h.change hsound content version
  refine ⟨Nat.le_of_eq hchange.generation.symm, ?_⟩
  intro timed htimed hfirst _
  rcases hmissed first hheld timed htimed hfirst with rfl | hmissed
  · exact .inr ⟨rfl, rfl⟩
  · exact .inl hmissed

theorem Collapsed.step (h : timeline.Collapsed first last due) (step : Step) : (timeline.step step).Collapsed first last due := by
  refine ⟨Nat.le_trans h.requested (timeline.generation_le_step step), ?_⟩
  intro later hlater hfirst hlast
  rcases timeline.mem_step_runs step later hlater with hnew | ⟨timed, htimed, hfollows⟩
  -- What is asked for later has a number beyond them.
  · have hnumber := timeline.startedBy_number step later hnew
    have hrequested := h.requested
    omega
  · rw [hfollows.run] at hfirst hlast
    rcases h.runs timed htimed hfirst hlast with hmissed | ⟨hrun, hdue⟩
    · exact .inl (hmissed.follows hfollows)
    · exact .inr ⟨hfollows.run.trans hrun, hfollows.due.trans hdue⟩

theorem Collapsed.run (h : timeline.Collapsed first last due) (steps : List Step) : (timeline.run steps).Collapsed first last due := by
  induction steps generalizing timeline with
  | nil => exact h
  | cons step rest ih => exact ih (h.step step)

/-- Only the last run begins, and in time. -/
theorem Collapsed.begun (h : timeline.Collapsed first last due) (hsound : timeline.Sound)
    {timed : TimedRun} (htimed : timed ∈ timeline.runs)
    (hburst : timed.run.generation ∈ Finset.Ioc first last.generation) :
    ∀ time ∈ timed.begun, timed.run = last ∧ due ≤ time := by
  intro time htime
  obtain ⟨hfirst, hlast⟩ := Finset.mem_Ioc.1 hburst
  rcases h.runs timed htimed hfirst hlast with hmissed | ⟨hrun, rfl⟩
  · rw [hmissed.begun] at htime
    cases htime
  · exact ⟨hrun, hsound.onTime timed htimed time htime⟩

/-- Only the last run is heard of. -/
theorem Collapsed.delivered (h : timeline.Collapsed first last due) (hsound : timeline.Sound)
    {delivery : Delivery} (hdelivery : delivery ∈ timeline.delivered)
    (hburst : delivery.number ∈ Finset.Ioc first last.generation) :
    delivery.number = last.generation ∧
    ∃ result, delivery.event = (EndedRun.mk last result).outcome.event := by
  obtain ⟨ended, hended, hnumber, hevent⟩ := hsound.delivered delivery hdelivery
  obtain ⟨timed, htimed, hrun, hbegun⟩ := hsound.ended ended hended
  obtain ⟨time, htime⟩ := Option.isSome_iff_exists.1 hbegun
  rw [← hnumber, ← hrun] at hburst
  obtain ⟨hlatest, -⟩ := h.begun hsound htimed hburst time htime
  obtain ⟨run, result⟩ := ended
  obtain rfl : run = last := hrun.symm.trans hlatest
  exact ⟨hnumber.symm, result, hevent.symm⟩

theorem Collapsed.delivered_once (h : timeline.Collapsed first last due) (hsound : timeline.Sound) :
    (timeline.delivered.filter (·.number ∈ Finset.Ioc first last.generation)).length ≤ 1 := by
  have hsame : ∀ number ∈ (timeline.delivered.filter
      (·.number ∈ Finset.Ioc first last.generation)).map (·.number), number = last.generation := by
    intro number hnumber
    obtain ⟨delivery, hdelivery, rfl⟩ := List.mem_map.1 hnumber
    obtain ⟨hmem, hburst⟩ := List.mem_filter.1 hdelivery
    exact (h.delivered hsound hmem (of_decide_eq_true hburst)).1
  have honce := hsound.once.sublist (List.filter_sublist.map Delivery.number :
    ((timeline.delivered.filter (·.number ∈ Finset.Ioc first last.generation)).map _).Sublist _)
  rw [List.eq_replicate_of_mem hsame, List.nodup_replicate, List.length_map] at honce
  exact honce

/-- A run that is left alone begins as soon as its timer is over. -/
theorem begins_in_time {run : TokenRun} {duration : Nat} {earlier : List TimedRun}
    (h : timeline.runs = ⟨run, timeline.now + duration, none, none⟩ :: earlier) :
    (timeline.run [.pass duration, .begin run.generation]).runs.head?
      = some ⟨run, timeline.now + duration, none, some (timeline.now + duration)⟩ := by
  have hnow : (timeline.step (.pass duration)).now = timeline.now + duration := rfl
  show (timeline.runs.map (·.begin run.generation (timeline.step (.pass duration)).now)).head? = _
  rw [h, hnow]
  simp [TimedRun.begin, TimedRun.Ready]

/-- However runs begin and end and whatever comes before and after: of changes of the active document
of which each comes before the debounce for the one before is over, only the last comes to the
tokenizer, with the text and the version of that change and not before the debounce for it is over; it
does come there as soon as its timer is over if nothing else is asked for; and one event at most comes
of all of them, of that version. Timers that are set to the debounce must not be over before. -/
theorem burst_collapses (runtime : Runtime) (debounce cacheCapacity : Nat) (before : List Step)
    (active : ActiveDocument) (rounds : List Round) (content : Text) (version : Nat)
    (later : List Step)
    (hactive : ((start runtime debounce cacheCapacity).run before).pipeline.active = some active)
    (hpunctual : runtime.Punctual
      ((start runtime debounce cacheCapacity).run before).pipeline.debounce)
    (hbrief : ∀ round ∈ rounds, round.Brief active.id
      ((start runtime debounce cacheCapacity).run before).pipeline.debounce) :
    let opened := (start runtime debounce cacheCapacity).run before
    let changed := opened.run (rounds.flatMap Round.steps ++ [.call (.contentChanged content version)])
    let final := changed.run later
    let wait := runtime.wait opened.pipeline.debounce
    let last : TokenRun := ⟨opened.pipeline.generation + rounds.length + 1, active.id,
      active.fileExtension, version, content⟩
    let burst := Finset.Ioc opened.pipeline.generation changed.pipeline.generation
    changed.pipeline.generation = last.generation ∧
    (∀ timed ∈ final.runs, timed.run.generation ∈ burst → ∀ time ∈ timed.begun,
      timed.run = last ∧ changed.now + opened.pipeline.debounce ≤ time) ∧
    (∀ delivery ∈ final.delivered, delivery.number ∈ burst →
      (∃ result, delivery.event = (EndedRun.mk last result).outcome.event) ∧
      delivery.event.document = active.id ∧ delivery.event.version = version) ∧
    (final.delivered.filter (·.number ∈ burst)).length ≤ 1 ∧
    (changed.run [.pass wait, .begin last.generation]).runs.head?
      = some ⟨last, changed.now + wait, none, some (changed.now + wait)⟩ := by
  intro opened changed final wait last burst
  have hopened : opened.Sound := (start_sound runtime debounce cacheCapacity).run before
  have hruntime : opened.runtime = runtime := run_runtime _ before
  have hopenedPunctual : opened.runtime.Punctual opened.pipeline.debounce := by
    rw [hruntime]
    exact hpunctual
  have hbetween : Between opened active 0 opened :=
    ⟨rfl, ⟨active.version, hactive⟩, rfl, rfl⟩
  have hheld : opened.HeldSince opened.pipeline.generation opened.now := by
    intro timed htimed hnumber
    have hasked : timed.run ∈ opened.tokenization.asked := hopened.asked ▸ List.mem_map_of_mem htimed
    exact absurd hnumber (Nat.not_lt_of_le (hopened.sound.numbered.le timed.run hasked))
  obtain ⟨hrounds, hheld'⟩ := hbetween.rounds hopened hopenedPunctual hheld hbrief
  have hsound := hopened.run (rounds.flatMap Round.steps)
  obtain ⟨hchange, ⟨earlier, hruns⟩, -⟩ := hrounds.change hsound content version
  have hcollapsed := (hrounds.collapsed hsound hheld' content version).run later
  have hchanged : changed = (opened.run (rounds.flatMap Round.steps)).step
      (.call (.contentChanged content version)) :=
    run_append _ _ _
  have hnow : changed.now = (opened.run (rounds.flatMap Round.steps)).now := by rw [hchanged]; rfl
  rw [← hchanged, ← hnow, Nat.zero_add, hruntime] at hruns hcollapsed
  have hgeneration : changed.pipeline.generation = last.generation := by
    rw [hchanged, hchange.generation, Nat.zero_add]
    rfl
  have hburst : burst = Finset.Ioc opened.pipeline.generation last.generation :=
    congrArg (Finset.Ioc opened.pipeline.generation) hgeneration
  have hfinal : final.Sound := (hopened.run _).run later
  rw [hburst]
  refine ⟨hgeneration, ?_, ?_, hcollapsed.delivered_once hfinal, begins_in_time hruns⟩
  · intro timed htimed hnumber time htime
    obtain ⟨hlast, hdue⟩ := hcollapsed.begun hfinal htimed hnumber time htime
    have hwait : opened.pipeline.debounce ≤ wait := hpunctual.le_wait
    exact ⟨hlast, Nat.le_trans (Nat.add_le_add_left hwait _) hdue⟩
  · intro delivery hdelivery hnumber
    obtain ⟨-, result, hevent⟩ := hcollapsed.delivered hfinal hdelivery hnumber
    rw [hevent]
    exact ⟨⟨result, rfl⟩, TokenOutcome.event_document _, TokenOutcome.event_version _⟩

/-- Three changes, 5 and 299 milliseconds apart, whose runs are all given the chance to begin. -/
theorem burst_collapses_three_changes :
    let opened := (start ⟨id⟩ 300 8).run [.call (.openDocument "a.txt" "txt" [] 0), .begin 1,
      .finish 1 (.ok []), .receive]
    let rounds : List Round := [⟨['a'], 1, [.pass 5, .begin 2]⟩, ⟨['a', 'b'], 2, [.pass 299, .begin 3]⟩]
    let final := (opened.run (rounds.flatMap Round.steps ++ [.call (.contentChanged ['b'] 3)])).run
      [.pass 300, .begin 2, .begin 3, .begin 4, .finish 4 (.ok []), .receive, .receive]
    opened.pipeline.active = some ⟨"a.txt", "txt", 0⟩ ∧
    Runtime.Punctual ⟨id⟩ opened.pipeline.debounce ∧
    (∀ round ∈ rounds, round.Brief "a.txt" opened.pipeline.debounce) ∧
    (∀ timed ∈ final.runs, timed.run.generation ∈ Finset.Ioc 1 4 → ∀ time ∈ timed.begun,
      timed.run = ⟨4, "a.txt", "txt", 3, ['b']⟩ ∧ 604 ≤ time) ∧
    (∀ delivery ∈ final.delivered, delivery.number ∈ Finset.Ioc 1 4 → delivery.event.version = 3) ∧
    (final.delivered.filter (·.number ∈ Finset.Ioc 1 4)).length ≤ 1 := by
  intro opened rounds final
  have hactive : opened.pipeline.active = some ⟨"a.txt", "txt", 0⟩ := by decide
  have hpunctual : Runtime.Punctual ⟨id⟩ opened.pipeline.debounce := Nat.le_refl _
  have hbrief : ∀ round ∈ rounds, round.Brief "a.txt" opened.pipeline.debounce := by
    refine List.forall_mem_cons.2 ⟨⟨by decide, ?_⟩, List.forall_mem_singleton.2 ⟨by decide, ?_⟩⟩
    · simp [Step.Quiet]
    · simp [Step.Quiet]
  obtain ⟨-, hbegun, hdelivered, honce, -⟩ := burst_collapses ⟨id⟩ 300 8 _ _ rounds ['b'] 3
    [.pass 300, .begin 2, .begin 3, .begin 4, .finish 4 (.ok []), .receive, .receive] hactive
    hpunctual hbrief
  exact ⟨hactive, hpunctual, hbrief, hbegun,
    fun delivery hmem hburst => (hdelivered delivery hmem hburst).2.2, honce⟩

end Timeline

end HeadlessEditor
