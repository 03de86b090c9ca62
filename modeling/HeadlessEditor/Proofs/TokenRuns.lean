import HeadlessEditor.Syntax.Schedule

/-!
The runs of a tokenizer and their outcomes. Requests are numbered, so that an outcome with the number
of the latest request is the outcome of that request; whatever comes in late is of an earlier one and
is passed over.
-/

namespace HeadlessEditor

def TokenRun.target (run : TokenRun) : ActiveDocument := ⟨run.document, run.fileExtension, run.version⟩

/-- What the outcome of a run brings if it is accepted. -/
def TokenRun.event (run : TokenRun) (tokenizer : Tokenizer) : PipelineEvent :=
  match tokenizer.tokenize run.content run.fileExtension with
  | .ok tokens => .tokens ⟨run.document, run.version, tokens⟩
  | .error error => .failed run.document run.version error

theorem TokenRun.event_eq_tokens {run : TokenRun} {tokenizer : Tokenizer} {set : TokenSet}
    (h : PipelineEvent.tokens set = run.event tokenizer) :
    set.document = run.document ∧ set.version = run.version ∧
    tokenizer.tokenize run.content run.fileExtension = .ok set.tokens := by
  unfold event at h
  split at h
  · rename_i tokens hresult
    obtain rfl := PipelineEvent.tokens.inj h
    exact ⟨rfl, rfl, hresult⟩
  · cases h

inductive Numbered : Nat → List TokenRun → Prop where
  | nil : Numbered 0 []
  | cons {count : Nat} {run : TokenRun} {earlier : List TokenRun}
      (number : run.generation = count + 1) (rest : Numbered count earlier) :
      Numbered (count + 1) (run :: earlier)

theorem Numbered.le {count : Nat} {asked : List TokenRun} (h : Numbered count asked) :
    ∀ run ∈ asked, run.generation ≤ count := by
  induction h with
  | nil => simp
  | cons number _ ih =>
    intro run hrun
    rcases List.mem_cons.1 hrun with rfl | hrun
    · exact Nat.le_of_eq number
    · exact Nat.le_succ_of_le (ih run hrun)

/-- Only the latest run has the latest number. -/
theorem Numbered.head?_eq {count : Nat} {asked : List TokenRun} (h : Numbered count asked)
    {run : TokenRun} (hrun : run ∈ asked) (hlatest : run.generation = count) :
    asked.head? = some run := by
  cases h with
  | nil => cases hrun
  | cons _ rest =>
    rcases List.mem_cons.1 hrun with rfl | hrun
    · rfl
    · have hle := rest.le run hrun
      omega

/-- Each number is given once. -/
theorem Numbered.eq_of_generation {count : Nat} {asked : List TokenRun} (h : Numbered count asked)
    {run other : TokenRun} (hrun : run ∈ asked) (hother : other ∈ asked)
    (heq : run.generation = other.generation) : run = other := by
  induction h with
  | nil => cases hrun
  | @cons count latest earlier number rest ih =>
    rcases List.mem_cons.1 hrun with hfirst | hrun
    · rcases List.mem_cons.1 hother with hfirst' | hother
      · rw [hfirst, hfirst']
      · have hle := rest.le other hother
        rw [← heq, hfirst] at hle
        omega
    · rcases List.mem_cons.1 hother with hfirst | hother
      · have hle := rest.le run hrun
        rw [heq, hfirst] at hle
        omega
      · exact ih hrun hother

theorem Numbered.head_generation {count : Nat} {asked : List TokenRun} (h : Numbered count asked)
    {run : TokenRun} (hrun : asked.head? = some run) : run.generation = count := by
  cases h with
  | nil => cases hrun
  | cons number _ =>
    obtain rfl := Option.some.inj hrun
    exact number

theorem Numbered.lt_head {count : Nat} {asked : List TokenRun} (h : Numbered count asked)
    {run latest : TokenRun} (hlatest : asked.head? = some latest) (hrun : run ∈ asked)
    (hne : run ≠ latest) : run.generation < latest.generation := by
  have hcount := h.head_generation hlatest
  have hle := h.le run hrun
  have hother : run.generation ≠ latest.generation := fun heq =>
    hne (h.eq_of_generation hrun (List.mem_of_mem_head? hlatest) heq)
  omega

def TokenOutcome.event (outcome : TokenOutcome) : PipelineEvent :=
  match outcome.result with
  | .ok tokens => .tokens ⟨outcome.document, outcome.version, tokens⟩
  | .error error => .failed outcome.document outcome.version error

namespace Pipeline

variable {pipeline : Pipeline}

theorem isLatest_iff {outcome : TokenOutcome} :
    pipeline.isLatest outcome ↔ outcome.generation = pipeline.generation ∧
      ∃ active ∈ pipeline.active, active.id = outcome.document ∧ active.version = outcome.version := by
  cases hactive : pipeline.active with
  | none => simp [isLatest, hactive]
  | some active => simp [isLatest, hactive]

theorem accept_of_latest {outcome : TokenOutcome} (h : pipeline.isLatest outcome) :
    (pipeline.accept outcome).2 = some outcome.event := by
  unfold accept TokenOutcome.event
  rw [if_pos h]
  cases outcome.result with
  | ok tokens => rfl
  | error error => rfl

theorem accept_of_not_latest {outcome : TokenOutcome} (h : ¬ pipeline.isLatest outcome) :
    pipeline.accept outcome = (pipeline, none) :=
  if_neg h

/-- A failed run leaves the tokens as they are. -/
theorem accept_failed {outcome : TokenOutcome} {document : DocumentId} {version : Nat}
    {error : TokenizerError} (h : outcome.event = .failed document version error) :
    (pipeline.accept outcome).1.current = pipeline.current ∧
    (pipeline.accept outcome).1.cache = pipeline.cache := by
  by_cases hlatest : pipeline.isLatest outcome
  · unfold accept
    rw [if_pos hlatest]
    unfold TokenOutcome.event at h
    cases hresult : outcome.result with
    | ok tokens =>
      rw [hresult] at h
      cases h
    | error error => exact ⟨rfl, rfl⟩
  · rw [accept_of_not_latest hlatest]
    exact ⟨rfl, rfl⟩

/-- What looking through a queue comes to: outcomes are dropped until one is that of the latest
request, and that one finds the pipeline as though the others had never come in. -/
inductive Looks (pipeline : Pipeline) :
    List TokenOutcome → Pipeline × Option PipelineEvent → Prop where
  | nothing {dropped : List TokenOutcome} (stale : ∀ other ∈ dropped, ¬ pipeline.isLatest other) :
      Looks pipeline dropped ({ pipeline with queue := [] }, none)
  | delivers {dropped : List TokenOutcome} {outcome : TokenOutcome} {rest : List TokenOutcome}
      (stale : ∀ other ∈ dropped, ¬ pipeline.isLatest other) (latest : pipeline.isLatest outcome) :
      Looks pipeline (dropped ++ outcome :: rest)
        ({ (pipeline.accept outcome).1 with queue := rest }, some outcome.event)

theorem Looks.cons {outcome : TokenOutcome} (h : ¬ pipeline.isLatest outcome)
    {outcomes : List TokenOutcome} {result : Pipeline × Option PipelineEvent}
    (hrest : Looks pipeline outcomes result) : Looks pipeline (outcome :: outcomes) result := by
  cases hrest with
  | nothing stale => exact .nothing (List.forall_mem_cons.2 ⟨h, stale⟩)
  | @delivers dropped other rest stale latest =>
    rw [← List.cons_append]
    exact .delivers (List.forall_mem_cons.2 ⟨h, stale⟩) latest

theorem receiveFrom_looks (pipeline : Pipeline) (outcomes : List TokenOutcome) :
    Looks pipeline outcomes (pipeline.receiveFrom outcomes) := by
  induction outcomes with
  | nil => exact .nothing (by simp)
  | cons outcome rest ih =>
    by_cases hlatest : pipeline.isLatest outcome
    · have hevent := accept_of_latest hlatest
      have hlooks : Looks pipeline ([] ++ outcome :: rest) _ := .delivers (by simp) hlatest
      simp only [receiveFrom]
      split
      · rename_i next event haccept
        rw [haccept] at hlooks hevent
        rw [Option.some.inj hevent]
        exact hlooks
      · rename_i next haccept
        rw [haccept] at hevent
        cases hevent
    · simp only [receiveFrom, accept_of_not_latest hlatest]
      exact .cons hlatest ih

theorem receive_looks (pipeline : Pipeline) : Looks pipeline pipeline.queue pipeline.receive :=
  pipeline.receiveFrom_looks pipeline.queue

/-- A delivered event leaves the queue with all that came in before it. -/
theorem receive_of_event {event : PipelineEvent} (h : pipeline.receive.2 = some event) :
    ∃ dropped outcome, pipeline.queue = dropped ++ outcome :: pipeline.receive.1.queue ∧
      outcome.generation = pipeline.generation := by
  have hlooks := pipeline.receive_looks
  generalize pipeline.receive = result at h hlooks
  generalize pipeline.queue = queue at hlooks
  cases hlooks with
  | nothing _ => cases h
  | @delivers dropped outcome rest _ latest =>
    exact ⟨dropped, outcome, rfl, (isLatest_iff.1 latest).1⟩

/-- Looking at an outcome changes neither the active document nor the number of requests. -/
theorem accept_same (pipeline : Pipeline) (outcome : TokenOutcome) :
    (pipeline.accept outcome).1.active = pipeline.active ∧
    (pipeline.accept outcome).1.generation = pipeline.generation ∧
    (pipeline.accept outcome).1.queue = pipeline.queue ∧
    ∀ run ∈ (pipeline.accept outcome).1.pending, run ∈ pipeline.pending := by
  unfold accept
  split
  · split
    · exact ⟨rfl, rfl, rfl, by simp⟩
    · exact ⟨rfl, rfl, rfl, by simp⟩
  · exact ⟨rfl, rfl, rfl, fun _ hrun => hrun⟩

/-- Taking an event asks for nothing. -/
theorem receive_same (pipeline : Pipeline) :
    pipeline.receive.1.active = pipeline.active ∧
    pipeline.receive.1.generation = pipeline.generation ∧
    pipeline.receive.1.queue.Sublist pipeline.queue := by
  generalize hresult : pipeline.receive = result
  generalize hqueue : pipeline.queue = queue
  have hlooks := pipeline.receive_looks
  rw [hresult, hqueue] at hlooks
  cases hlooks with
  | nothing _ => exact ⟨rfl, rfl, List.nil_sublist _⟩
  | @delivers dropped outcome rest _ _ =>
    obtain ⟨hactive, hgeneration, -, -⟩ := pipeline.accept_same outcome
    refine ⟨hactive, hgeneration, ?_⟩
    exact (List.sublist_cons_self outcome rest).trans (List.sublist_append_right dropped _)

/-- After looking through the queue nothing is waited for that was not before. -/
theorem receive_pending (pipeline : Pipeline) :
    ∀ run ∈ pipeline.receive.1.pending, run ∈ pipeline.pending := by
  have hlooks := pipeline.receive_looks
  generalize pipeline.receive = result at hlooks ⊢
  generalize pipeline.queue = queue at hlooks
  cases hlooks with
  | nothing _ => exact fun _ hrun => hrun
  | @delivers dropped outcome rest _ _ => exact (pipeline.accept_same outcome).2.2.2

theorem debounce_contentChanged (pipeline : Pipeline) (content : Text) (version : Nat) :
    (pipeline.contentChanged content version).debounce = pipeline.debounce := by
  unfold contentChanged
  split
  · rfl
  · rfl

theorem debounce_accept (pipeline : Pipeline) (outcome : TokenOutcome) :
    (pipeline.accept outcome).1.debounce = pipeline.debounce := by
  unfold accept
  split
  · split
    · rfl
    · rfl
  · rfl

theorem debounce_receiveFrom (pipeline : Pipeline) (queue : List TokenOutcome) :
    (pipeline.receiveFrom queue).1.debounce = pipeline.debounce := by
  induction queue generalizing pipeline with
  | nil => rfl
  | cons outcome rest ih =>
    have haccept := pipeline.debounce_accept outcome
    unfold receiveFrom
    split
    · rename_i heq
      rw [heq] at haccept
      exact haccept
    · rename_i heq
      rw [heq] at haccept
      exact (ih _).trans haccept

variable {tokenizer : Tokenizer} {asked : List TokenRun}

structure Answers (pipeline : Pipeline) (tokenizer : Tokenizer) (asked : List TokenRun) :
    Prop where
  numbered : Numbered pipeline.generation asked
  pending : ∀ run ∈ pipeline.pending, asked.head? = some run
  queue : ∀ outcome ∈ pipeline.queue, ∃ run ∈ asked, outcome = run.outcome tokenizer

theorem new_answers (debounce cacheCapacity : Nat) (tokenizer : Tokenizer) :
    (new debounce cacheCapacity).Answers tokenizer [] where
  numbered := .nil
  pending := by simp [new]
  queue := by simp [new]

/-- A request for an active document is the latest from now on. -/
theorem Answers.request {pipeline : Pipeline} (h : pipeline.Answers tokenizer asked)
    {active : ActiveDocument} (hactive : pipeline.active = some active) (content : Text) :
    ∃ run, run.content = content ∧ run.target = active ∧
      (pipeline.request content).pending = some run ∧
      (pipeline.request content).Answers tokenizer (run :: asked) := by
  refine ⟨⟨pipeline.generation + 1, active.id, active.fileExtension, active.version, content⟩,
    rfl, rfl, ?_, ?_⟩
  · simp [Pipeline.request, hactive]
  · constructor
    · simp only [Pipeline.request, hactive]
      exact .cons rfl h.numbered
    · simp [Pipeline.request, hactive]
    · intro outcome houtcome
      simp only [Pipeline.request, hactive] at houtcome
      obtain ⟨run, hrun, heq⟩ := h.queue outcome houtcome
      exact ⟨run, List.mem_cons_of_mem _ hrun, heq⟩

@[simp] theorem request_active (pipeline : Pipeline) (content : Text) :
    (pipeline.request content).active = pipeline.active := by
  unfold request
  split
  · rfl
  · rfl

theorem request_generation {pipeline : Pipeline} {active : ActiveDocument}
    (hactive : pipeline.active = some active) (content : Text) :
    (pipeline.request content).generation = pipeline.generation + 1 := by
  simp [request, hactive]

theorem Answers.finish {pipeline : Pipeline} (h : pipeline.Answers tokenizer asked)
    {run : TokenRun} (hrun : run ∈ asked) :
    (pipeline.finish (run.outcome tokenizer)).Answers tokenizer asked where
  numbered := h.numbered
  pending := h.pending
  queue := by
    intro outcome houtcome
    rcases List.mem_append.1 houtcome with hold | hnew
    · exact h.queue outcome hold
    · exact ⟨run, hrun, List.mem_singleton.1 hnew⟩

theorem Answers.accept {pipeline : Pipeline} (h : pipeline.Answers tokenizer asked)
    (outcome : TokenOutcome) : (pipeline.accept outcome).1.Answers tokenizer asked := by
  obtain ⟨-, hgeneration, hqueue, hpending⟩ := pipeline.accept_same outcome
  constructor
  · rw [hgeneration]
    exact h.numbered
  · intro run hrun
    exact h.pending run (hpending run hrun)
  · rw [hqueue]
    exact h.queue

/-- What is accepted is of the latest run. -/
theorem Answers.head?_of_isLatest {pipeline : Pipeline} (h : pipeline.Answers tokenizer asked)
    {run : TokenRun} (hrun : run ∈ asked)
    (hlatest : pipeline.isLatest (run.outcome tokenizer)) : asked.head? = some run :=
  h.numbered.head?_eq hrun (isLatest_iff.1 hlatest).1

structure Receives (pipeline : Pipeline) (tokenizer : Tokenizer) (asked : List TokenRun)
    (result : Pipeline × Option PipelineEvent) : Prop where
  answers : result.1.Answers tokenizer asked
  active : result.1.active = pipeline.active
  generation : result.1.generation = pipeline.generation
  event : ∀ event ∈ result.2, ∃ run, asked.head? = some run ∧ event = run.event tokenizer

theorem Answers.receive {pipeline : Pipeline} (h : pipeline.Answers tokenizer asked) :
    Receives pipeline tokenizer asked pipeline.receive := by
  have hqueue := h.queue
  have hlooks := pipeline.receive_looks
  generalize pipeline.receive = result at hlooks
  generalize pipeline.queue = queue at hlooks hqueue
  cases hlooks with
  | nothing _ => exact ⟨⟨h.numbered, h.pending, by simp⟩, rfl, rfl, by simp⟩
  | @delivers dropped outcome rest _ latest =>
    obtain ⟨run, hrun, rfl⟩ := hqueue outcome (by simp)
    obtain ⟨hactive, hgeneration, -, -⟩ := pipeline.accept_same (run.outcome tokenizer)
    have hnext := h.accept (run.outcome tokenizer)
    refine ⟨⟨hnext.numbered, hnext.pending, ?_⟩, hactive, hgeneration, ?_⟩
    · intro other hother
      exact hqueue other (by simp [show other ∈ rest from hother])
    · intro event hevent
      exact ⟨run, h.head?_of_isLatest hrun latest, (Option.some.inj hevent).symm⟩

/-- The outcome of the latest run is not overlooked in the queue. -/
theorem Answers.receive_isSome {pipeline : Pipeline} (h : pipeline.Answers tokenizer asked)
    {run : TokenRun} (hrun : asked.head? = some run) (hactive : pipeline.active = some run.target)
    (hmem : run.outcome tokenizer ∈ pipeline.queue) : pipeline.receive.2.isSome := by
  have hlatest : pipeline.isLatest (run.outcome tokenizer) :=
    isLatest_iff.2 ⟨h.numbered.head_generation hrun, _, hactive, rfl, rfl⟩
  have hlooks := pipeline.receive_looks
  generalize pipeline.receive = result at hlooks ⊢
  generalize pipeline.queue = queue at hlooks hmem
  cases hlooks with
  | nothing stale => exact absurd hlatest (stale _ hmem)
  | delivers _ _ => rfl

/-- Opening a document asks for its tokens. -/
theorem Answers.openDocument {pipeline : Pipeline} (h : pipeline.Answers tokenizer asked)
    (document : DocumentId) (fileExtension : String) (content : Text) (version : Nat) :
    ∃ run, run.content = content ∧ run.target = ⟨document, fileExtension, version⟩ ∧
      (pipeline.openDocument document fileExtension content version).pending = some run ∧
      (pipeline.openDocument document fileExtension content version).Answers tokenizer
        (run :: asked) := by
  have hactive : Answers { pipeline with
      current := pipeline.cached? document
      cache := pipeline.cache.touch document
      active := some ⟨document, fileExtension, version⟩ } tokenizer asked :=
    ⟨h.numbered, h.pending, h.queue⟩
  exact hactive.request rfl content

/-- So does another version of the active document. -/
theorem Answers.contentChanged {pipeline : Pipeline} (h : pipeline.Answers tokenizer asked)
    {active : ActiveDocument} (hactive : pipeline.active = some active) (content : Text)
    (version : Nat) :
    ∃ run, run.content = content ∧ run.target = { active with version } ∧
      (pipeline.contentChanged content version).pending = some run ∧
      (pipeline.contentChanged content version).active = some { active with version } ∧
      (pipeline.contentChanged content version).generation = pipeline.generation + 1 ∧
      (pipeline.contentChanged content version).Answers tokenizer (run :: asked) := by
  have hnext : Answers { pipeline with active := some { active with version } } tokenizer asked :=
    ⟨h.numbered, h.pending, h.queue⟩
  obtain ⟨run, hcontent, htarget, hpending, hanswers⟩ := hnext.request rfl content
  simp only [Pipeline.contentChanged, hactive]
  refine ⟨run, hcontent, htarget, hpending, ?_, ?_, hanswers⟩
  · exact request_active _ content
  · exact request_generation rfl content

end Pipeline

namespace Schedule

variable {tokenizer : Tokenizer} {asked : List TokenRun}

theorem begin?_pipeline (schedule : Schedule) (time : Nat) :
    (schedule.begin? time).pipeline = schedule.pipeline := by
  unfold begin?
  split
  · split
    · rfl
    · rfl
  · rfl

structure Serves (schedule : Schedule) (tokenizer : Tokenizer) (asked : List TokenRun) :
    Prop where
  uses : schedule.tokenizer = tokenizer
  answers : schedule.pipeline.Answers tokenizer asked

/-- Letting time go on starts and ends the pending run, and asks for nothing. -/
theorem Serves.runUntil {schedule : Schedule} (h : schedule.Serves tokenizer asked) (time : Nat) :
    (schedule.runUntil time).Serves tokenizer asked ∧
    (schedule.runUntil time).pipeline.active = schedule.pipeline.active ∧
    (schedule.runUntil time).pipeline.generation = schedule.pipeline.generation := by
  have htokenizer : (schedule.begin? time).tokenizer = tokenizer := by
    unfold begin?
    split
    · split
      · exact h.uses
      · exact h.uses
    · exact h.uses
  have hpipeline := schedule.begin?_pipeline time
  have hanswers : (schedule.begin? time).pipeline.Answers tokenizer asked :=
    hpipeline ▸ h.answers
  simp only [Schedule.runUntil]
  rw [← hpipeline]
  unfold end?
  split
  · rename_i run due hpending _
    split
    · refine ⟨⟨htokenizer, ?_⟩, rfl, rfl⟩
      rw [htokenizer]
      exact hanswers.finish (List.mem_of_mem_head? (hanswers.pending run hpending))
    · exact ⟨⟨htokenizer, hanswers⟩, rfl, rfl⟩
  · exact ⟨⟨htokenizer, hanswers⟩, rfl, rfl⟩

structure Receives (schedule : Schedule) (tokenizer : Tokenizer) (asked : List TokenRun)
    (result : Schedule × Option PipelineEvent) : Prop where
  serves : result.1.Serves tokenizer asked
  active : result.1.pipeline.active = schedule.pipeline.active
  generation : result.1.pipeline.generation = schedule.pipeline.generation
  event : ∀ event ∈ result.2, ∃ run, asked.head? = some run ∧ event = run.event tokenizer

theorem Serves.receive {schedule : Schedule} (h : schedule.Serves tokenizer asked) :
    Receives schedule tokenizer asked schedule.receive := by
  obtain ⟨hanswers, hactive, hgeneration, hevent⟩ := h.answers.receive
  exact ⟨⟨h.uses, hanswers⟩, hactive, hgeneration, hevent⟩

theorem Serves.next {schedule : Schedule} (h : schedule.Serves tokenizer asked) :
    Receives schedule tokenizer asked schedule.next := by
  unfold Schedule.next
  split
  · exact ⟨h, rfl, rfl, by simp⟩
  · obtain ⟨hserves, hactive, hgeneration⟩ :=
      h.runUntil (max schedule.now schedule.pendingEnd)
    obtain ⟨hserves', hactive', hgeneration', hevent⟩ := hserves.receive
    exact ⟨hserves', hactive'.trans hactive, hgeneration'.trans hgeneration, hevent⟩

theorem debounce_runUntil (schedule : Schedule) (time : Nat) :
    (schedule.runUntil time).pipeline.debounce = schedule.pipeline.debounce := by
  have hend : ∀ begun : Schedule,
      (begun.end? time).pipeline.debounce = begun.pipeline.debounce := by
    intro begun
    unfold end?
    split
    · split
      · rfl
      · rfl
    · rfl
  exact (hend _).trans (congrArg Pipeline.debounce (schedule.begin?_pipeline time))

theorem debounce_receive (schedule : Schedule) :
    schedule.receive.1.pipeline.debounce = schedule.pipeline.debounce :=
  schedule.pipeline.debounce_receiveFrom schedule.pipeline.queue

theorem debounce_next (schedule : Schedule) :
    schedule.next.1.pipeline.debounce = schedule.pipeline.debounce := by
  unfold next
  split
  · rfl
  · exact (debounce_receive _).trans (schedule.debounce_runUntil _)

end Schedule

end HeadlessEditor
