import HeadlessEditor.Proofs.TokenAlignment
import HeadlessEditor.Proofs.TokenRuns

/-!
Where the tokens that a session takes over come from. They are always those of the run requested last,
and a session requests a run where it sees another document or another version. So they are of the
text as it is, unless a call puts another text under the name and version that the session has seen.
-/

namespace HeadlessEditor

variable {α : Type}

namespace Session

variable {session after : Session α} {tokenizer : Tokenizer} {asked : List TokenRun}

/-- The document in the version that the session has seen. -/
def target (session : Session α) : ActiveDocument :=
  ⟨session.document, session.fileExtension, session.seenVersion⟩

/-- The tokenizer works for the session, and the run requested last is for the text it has seen. -/
structure Served (session : Session α) (tokenizer : Tokenizer) (asked : List TokenRun) : Prop where
  schedule : ∃ schedule, session.schedule = some schedule ∧ schedule.Serves tokenizer asked ∧
    schedule.pipeline.active = some session.target
  latest : ∃ run, asked.head? = some run ∧ run.target = session.target

/-- Nothing was requested, as far as one can see from outside. -/
theorem requestedSince_of_generation (h : after.generation = session.generation) :
    requestedSince session after = [] :=
  if_pos h

theorem requestedSince_of_pending {run : TokenRun} (h : after.generation = session.generation + 1)
    (hpending : after.pendingRun = some run) : requestedSince session after = [run] := by
  have hne : after.generation ≠ session.generation := by omega
  rw [requestedSince, if_neg hne, hpending]
  rfl

/-- Only the schedule changes, and it goes on with the same document. -/
theorem Served.goesOn (h : session.Served tokenizer asked) {before next : Schedule}
    (hbefore : session.schedule = some before) (hafter : after.schedule = some next)
    (htarget : after.target = session.target) (hserves : next.Serves tokenizer asked)
    (hactive : next.pipeline.active = before.pipeline.active)
    (hgeneration : next.pipeline.generation = before.pipeline.generation) :
    after.Served tokenizer asked ∧ after.generation = session.generation := by
  obtain ⟨schedule, hschedule, -, hactive'⟩ := h.schedule
  obtain rfl := Option.some.inj (hschedule.symm.trans hbefore)
  refine ⟨⟨⟨next, hafter, hserves, ?_⟩, ?_⟩, ?_⟩
  · rw [hactive, hactive', htarget]
  · rw [htarget]
    exact h.latest
  · rw [generation, generation, hafter, hbefore]
    exact hgeneration

/-- A document that the session enters is requested. -/
theorem Served.activate (h : session.Served tokenizer asked) (document : DocumentId)
    (fileExtension : String) :
    ∃ run, run.content = session.editor.buffer.content ∧
      (session.activate document fileExtension).Served tokenizer (run :: asked) ∧
      (session.activate document fileExtension).generation = session.generation + 1 ∧
      (session.activate document fileExtension).pendingRun = some run := by
  obtain ⟨schedule, hschedule, hserves, -⟩ := h.schedule
  obtain ⟨run, hcontent, htarget, hpending, hanswers⟩ := hserves.answers.openDocument document
    fileExtension session.editor.buffer.content session.editor.buffer.version
  have hafter : (session.activate document fileExtension).schedule =
      some (schedule.openDocument document fileExtension session.editor.buffer.content
        session.editor.buffer.version) := by
    show session.schedule.map _ = _
    rw [hschedule]
    rfl
  refine ⟨run, hcontent, ⟨⟨_, hafter, ⟨hserves.uses, hanswers⟩, ?_⟩, run, rfl, htarget⟩, ?_, ?_⟩
  · exact Pipeline.request_active _ _
  · rw [generation, generation, hafter, hschedule]
    exact Pipeline.request_generation rfl _
  · rw [pendingRun, hafter]
    exact hpending

theorem debounce_serves {schedule : Schedule} (h : schedule.Serves tokenizer asked)
    {debounce : Schedule → Schedule}
    (hdebounce : debounce = id ∨ ∃ time, debounce = (·.setDebounce time)) :
    (debounce schedule).Serves tokenizer asked ∧
    (debounce schedule).pipeline.active = schedule.pipeline.active ∧
    (debounce schedule).pipeline.generation = schedule.pipeline.generation ∧
    (debounce schedule).pipeline.pending = schedule.pipeline.pending := by
  rcases hdebounce with rfl | ⟨time, rfl⟩
  · exact ⟨h, rfl, rfl, rfl⟩
  · exact ⟨⟨h.uses, h.answers.numbered, h.answers.pending, h.answers.queue⟩, rfl, rfl, rfl⟩

/-- Catching up in a document that is entered, with no other version of it. -/
theorem CatchesUp.served_of_version (h : CatchesUp session after)
    (hserved : session.Served tokenizer asked)
    (hversion : session.editor.buffer.version = session.seenVersion) :
    after.Served tokenizer asked ∧ after.generation = session.generation ∧
    after.pendingRun = session.pendingRun := by
  obtain ⟨schedule, hschedule, hserves, -⟩ := hserved.schedule
  obtain ⟨debounce, hdebounce, hafter⟩ := h.schedule
  obtain ⟨hnext, hactive, hgeneration, hpending⟩ := debounce_serves hserves hdebounce
  have htarget : after.target = session.target := by
    rw [target, target, h.document, h.fileExtension, h.seenVersion, hversion]
  rw [if_pos hversion, hschedule] at hafter
  obtain ⟨hserved', hgeneration'⟩ := hserved.goesOn hschedule hafter htarget hnext hactive hgeneration
  refine ⟨hserved', hgeneration', ?_⟩
  rw [pendingRun, pendingRun, hafter, hschedule]
  exact hpending

/-- Catching up with another version. -/
theorem CatchesUp.served_of_ne (h : CatchesUp session after)
    (hserved : session.Served tokenizer asked)
    (hversion : session.editor.buffer.version ≠ session.seenVersion) :
    ∃ run, run.content = session.editor.buffer.content ∧ after.Served tokenizer (run :: asked) ∧
      after.generation = session.generation + 1 ∧ after.pendingRun = some run := by
  obtain ⟨schedule, hschedule, hserves, hactive⟩ := hserved.schedule
  obtain ⟨debounce, hdebounce, hafter⟩ := h.schedule
  obtain ⟨hnext, hactive', hgeneration, -⟩ := debounce_serves hserves hdebounce
  rw [hactive] at hactive'
  obtain ⟨run, hcontent, htarget, hpending, hchanged, hgeneration', hanswers⟩ :=
    hnext.answers.contentChanged hactive' session.editor.buffer.content session.editor.buffer.version
  have hsame : after.target = { session.target with version := session.editor.buffer.version } := by
    rw [target, target, h.document, h.fileExtension, h.seenVersion]
  rw [if_neg hversion, hschedule] at hafter
  refine ⟨run, hcontent, ⟨⟨_, hafter, ⟨hnext.uses, hanswers⟩, ?_⟩, run, rfl, ?_⟩, ?_, ?_⟩
  · rw [hsame]
    exact hchanged
  · rw [hsame]
    exact htarget
  · rw [generation, generation, hafter, hschedule]
    exact hgeneration'.trans (congrArg (· + 1) hgeneration)
  · rw [pendingRun, hafter]
    exact hpending

/-- The session with its editor gone on is served as before. -/
theorem Served.withEditor (h : session.Served tokenizer asked) (editor : Editor)
    (registry : Registry) : Served { session with editor, registry } tokenizer asked :=
  ⟨h.schedule, h.latest⟩

/-- Where the session sees another document or another version it requests a run. -/
theorem Served.sync_of_unseen [Pixel α] (h : session.Served tokenizer asked)
    {seen : Editor} (hbehind : session.Behind seen)
    (hunseen : ¬ (session.editor.document = session.document ∧
      session.editor.buffer.version = session.seenVersion)) :
    ∃ run, run.content = session.editor.buffer.content ∧
      session.sync.Served tokenizer (run :: asked) ∧
      session.sync.generation = session.generation + 1 ∧ session.sync.pendingRun = some run := by
  have hs := session.sync_catchesUp
  by_cases hdocument : session.editor.document = session.document
  · have hversion : session.editor.buffer.version ≠ session.seenVersion :=
      fun heq => hunseen ⟨hdocument, heq⟩
    rw [entered_of_eq hdocument] at hs
    exact hs.served_of_ne h hversion
  · have hcaught := activate_caughtUp session hbehind.listens
      (DocumentId.fileExtension session.editor.document)
    obtain ⟨run, hcontent, hserved, hgeneration, hpending⟩ := h.activate session.editor.document
      (DocumentId.fileExtension session.editor.document)
    rw [entered_of_ne hdocument] at hs
    obtain ⟨hserved', hgeneration', hpending'⟩ := hs.served_of_version hserved hcaught.version
    exact ⟨run, hcontent, hserved', hgeneration'.trans hgeneration, hpending'.trans hpending⟩

theorem Served.sync_of_seen [Pixel α] (h : session.Served tokenizer asked)
    (hdocument : session.editor.document = session.document)
    (hversion : session.editor.buffer.version = session.seenVersion) :
    session.sync.Served tokenizer asked ∧ session.sync.generation = session.generation ∧
    session.sync.pendingRun = session.pendingRun := by
  have hs := session.sync_catchesUp
  rw [entered_of_eq hdocument] at hs
  exact hs.served_of_version h hversion

/-- The work puts another text under the name and the version that the session has seen. -/
def SwapsText (session : Session α) (work : Work) : Prop :=
  (session.worked work).MissesReplacement ∧
  (session.worked work).editor.buffer.content ≠ session.editor.buffer.content

/-- Either a run is requested for the text as it is, or none, and then the text has not changed but by a
replacement that the session misses. -/
theorem Served.carryOut [Pixel α] (h : session.Served tokenizer asked) (hcaught : session.CaughtUp)
    (work : Work) :
    (∃ run, run.content = (session.carryOut work).editor.buffer.content ∧
      (session.carryOut work).Served tokenizer (run :: asked) ∧
      requestedSince session (session.carryOut work) = [run] ∧ ¬ session.SwapsText work) ∨
    ((session.carryOut work).Served tokenizer asked ∧
      requestedSince session (session.carryOut work) = [] ∧
      ((session.carryOut work).editor.buffer.content = session.editor.buffer.content ↔
        ¬ session.SwapsText work)) := by
  rw [carryOut_eq, sync_editor]
  rcases hcaught.worked work with ⟨editor, registry, hworked, hbehind⟩ |
    ⟨editor, extension, hworked, hnext⟩
  · have hserved : (session.worked work).Served tokenizer asked := by
      rw [hworked]
      exact h.withEditor editor registry
    have hsame : (session.worked work).generation = session.generation := by rw [hworked]; rfl
    by_cases hseen : (session.worked work).editor.document = (session.worked work).document ∧
        (session.worked work).editor.buffer.version = (session.worked work).seenVersion
    · right
      obtain ⟨hdocument, hversion⟩ := hseen
      obtain ⟨hsync, hgeneration, -⟩ := hserved.sync_of_seen hdocument hversion
      refine ⟨hsync, requestedSince_of_generation (hgeneration.trans hsame), ?_⟩
      constructor
      · intro hcontent hswaps
        exact hswaps.2 hcontent
      · intro hkept
        cases hbehind.fate with
        | same _ hbuffer _ => rw [hbuffer]
        | newer _ hnewer =>
          rw [hbehind.version, hversion] at hnewer
          exact absurd hnewer (Nat.lt_irrefl _)
        | replaced hheard =>
          by_cases hcontent : (session.worked work).editor.buffer.content
              = session.editor.buffer.content
          · exact hcontent
          · exact absurd ⟨⟨hdocument, hversion, hheard⟩, hcontent⟩ hkept
    · left
      obtain ⟨run, hcontent, hsync, hgeneration, hpending⟩ := hserved.sync_of_unseen hbehind hseen
      rw [hsame] at hgeneration
      refine ⟨run, hcontent, hsync, requestedSince_of_pending hgeneration hpending, ?_⟩
      intro hswaps
      exact hseen ⟨hswaps.1.1, hswaps.1.2.1⟩
  · left
    obtain ⟨run, hcontent, hserved, hgeneration, hpending⟩ :=
      (h.withEditor editor session.registry).activate editor.document extension
    have hactivated : (session.worked work).Served tokenizer (run :: asked) := by
      rw [hworked]
      exact hserved
    obtain ⟨hsync, hgeneration', hpending'⟩ :=
      hactivated.sync_of_seen hnext.document hnext.version
    have hunheard := hnext.unheardEdits
    rw [hworked] at hgeneration' hpending' hsync hunheard
    rw [hworked]
    refine ⟨run, hcontent, hsync, requestedSince_of_pending (hgeneration'.trans hgeneration)
      (hpending'.trans hpending), ?_⟩
    rintro ⟨⟨-, -, hnone⟩, -⟩
    rw [hworked, hunheard] at hnone
    cases hnone

/-- The token set of an event, if the session takes it over. -/
def takenFrom (session : Session α) : PipelineEvent → List TokenSet
  | .tokens set =>
    if set.document = session.document ∧ set.version = session.editor.buffer.version then [set]
    else []
  | .failed .. => []

def takenUpdates (session : Session α) : Nat → List TokenSet
  | 0 => []
  | bound + 1 =>
    match session.schedule.map (·.receive) with
    | some (schedule, some event) =>
      let ready := { session with schedule := some schedule }
      ready.takenFrom event ++ (ready.applyEvent event).1.takenUpdates bound
    | _ => []

def takenWaiting (session : Session α) : List TokenSet :=
  match session.schedule.map (·.next) with
  | some (schedule, some event) => takenFrom { session with schedule := some schedule } event
  | _ => []

/-- The token sets by which a call replaces the tokens of the session. -/
def taken (session : Session α) : Upkeep α → List TokenSet
  | .applyTokenUpdates =>
    session.takenUpdates ((session.schedule.map (·.pipeline.queue.length)).getD 0 + 1)
  | .waitForTokens => session.takenWaiting
  | _ => []

def tokensAfter (tokens : List Token) (sets : List TokenSet) : List Token :=
  (sets.getLast?.map (·.tokens)).getD tokens

theorem tokensAfter_append (tokens : List Token) (first second : List TokenSet) :
    tokensAfter tokens (first ++ second) = tokensAfter (tokensAfter tokens first) second := by
  rw [tokensAfter, tokensAfter, tokensAfter, List.getLast?_append]
  cases second.getLast? with
  | none => rfl
  | some set => rfl

theorem applyEvent_tokens (session : Session α) (event : PipelineEvent) :
    (session.applyEvent event).1.tokens = tokensAfter session.tokens (session.takenFrom event) := by
  cases event with
  | failed document version error => rfl
  | tokens set =>
    simp only [applyEvent, takenFrom]
    split
    · rfl
    · rfl

theorem applyUpdates_tokens (session : Session α) (bound : Nat) :
    (session.applyUpdates bound).1.tokens
      = tokensAfter session.tokens (session.takenUpdates bound) := by
  induction bound generalizing session with
  | zero => rfl
  | succ bound ih =>
    simp only [applyUpdates, takenUpdates]
    cases session.schedule.map (·.receive) with
    | none => rfl
    | some result =>
      obtain ⟨schedule, event⟩ := result
      cases event with
      | none => rfl
      | some event =>
        dsimp only
        rw [ih, applyEvent_tokens, tokensAfter_append]

/-- Nothing but the sets taken over replaces the tokens. -/
theorem keepUp_tokens [Pixel α] (session : Session α) (upkeep : Upkeep α) :
    (session.keepUp upkeep).tokens = tokensAfter session.tokens (session.taken upkeep) := by
  cases upkeep with
  | applyTokenUpdates => exact session.applyUpdates_tokens _
  | waitForTokens =>
    simp only [keepUp, waitForTokens, taken, takenWaiting]
    cases session.schedule.map (·.next) with
    | none => rfl
    | some result =>
      obtain ⟨schedule, event⟩ := result
      cases event with
      | none => rfl
      | some event => exact applyEvent_tokens _ event
  | advance duration | hostScroll actual now | settle now | resize height contentWidth | render => rfl

theorem applyEvent_schedule (session : Session α) (event : PipelineEvent) :
    (session.applyEvent event).1.schedule = session.schedule ∧
    (session.applyEvent event).1.target = session.target := by
  cases event with
  | failed document version error => exact ⟨rfl, rfl⟩
  | tokens set =>
    simp only [applyEvent]
    split
    · exact ⟨rfl, rfl⟩
    · exact ⟨rfl, rfl⟩

theorem mem_takenFrom {session : Session α} {event : PipelineEvent} {set : TokenSet}
    (h : set ∈ session.takenFrom event) : event = .tokens set := by
  cases event with
  | failed document version error => cases h
  | tokens other =>
    simp only [takenFrom] at h
    split at h
    · rw [List.mem_singleton.1 h]
    · cases h

/-- Taking an event, with what it brings. -/
theorem Served.takes (h : session.Served tokenizer asked) {before next : Schedule}
    {event : PipelineEvent} (hbefore : session.schedule = some before)
    (hreceives : Schedule.Receives before tokenizer asked (next, some event)) :
    (applyEvent { session with schedule := some next } event).1.Served tokenizer asked ∧
    (applyEvent { session with schedule := some next } event).1.generation = session.generation ∧
    ∃ run, asked.head? = some run ∧ event = run.event tokenizer := by
  obtain ⟨hserves, hactive, hgeneration, hevent⟩ := hreceives
  obtain ⟨hschedule, htarget⟩ := applyEvent_schedule { session with schedule := some next } event
  obtain ⟨hserved, hsame⟩ := h.goesOn hbefore hschedule htarget hserves hactive hgeneration
  exact ⟨hserved, hsame, hevent event rfl⟩

structure TakesLatest (session after : Session α) (tokenizer : Tokenizer) (asked : List TokenRun)
    (sets : List TokenSet) : Prop where
  served : after.Served tokenizer asked
  generation : after.generation = session.generation
  sets : ∀ set ∈ sets, ∃ run, asked.head? = some run ∧ .tokens set = run.event tokenizer

theorem Served.takesNothing (h : session.Served tokenizer asked)
    (hschedule : after.schedule = session.schedule) (htarget : after.target = session.target) :
    TakesLatest session after tokenizer asked [] := by
  constructor
  · constructor
    · rw [hschedule, htarget]
      exact h.schedule
    · rw [htarget]
      exact h.latest
  · rw [Session.generation, Session.generation, hschedule]
  · intro set hset
    cases hset

/-- Looking for an event in vain. -/
theorem Served.takesNone (h : session.Served tokenizer asked) {before next : Schedule}
    (hbefore : session.schedule = some before)
    (hreceives : Schedule.Receives before tokenizer asked (next, none)) :
    TakesLatest session { session with schedule := some next } tokenizer asked [] := by
  obtain ⟨hserves, hactive, hgeneration, -⟩ := hreceives
  have hafter : Served { session with schedule := some next } tokenizer asked ∧
      Session.generation { session with schedule := some next } = session.generation :=
    h.goesOn hbefore rfl rfl hserves hactive hgeneration
  exact ⟨hafter.1, hafter.2, fun set hset => nomatch hset⟩

theorem Served.applyUpdates (h : session.Served tokenizer asked) (bound : Nat) :
    TakesLatest session (session.applyUpdates bound).1 tokenizer asked
      (session.takenUpdates bound) := by
  induction bound generalizing session with
  | zero => exact h.takesNothing rfl rfl
  | succ bound ih =>
    obtain ⟨schedule, hschedule, hserves, hactive⟩ := h.schedule
    have hreceives := hserves.receive
    simp only [Session.applyUpdates, takenUpdates, hschedule, Option.map_some]
    generalize schedule.receive = result at hreceives ⊢
    obtain ⟨next, event⟩ := result
    cases event with
    | none => exact h.takesNone hschedule hreceives
    | some event =>
      obtain ⟨hserved, hgeneration, run, hrun, hevent⟩ := h.takes hschedule hreceives
      obtain ⟨hserved', hgeneration', hsets⟩ := ih hserved
      refine ⟨hserved', hgeneration'.trans hgeneration, ?_⟩
      intro set hset
      rcases List.mem_append.1 hset with hfirst | hrest
      · exact ⟨run, hrun, (mem_takenFrom hfirst).symm.trans hevent⟩
      · exact hsets set hrest

theorem Served.waitForTokens (h : session.Served tokenizer asked) :
    TakesLatest session session.waitForTokens.1 tokenizer asked session.takenWaiting := by
  obtain ⟨schedule, hschedule, hserves, hactive⟩ := h.schedule
  have hreceives := hserves.next
  simp only [Session.waitForTokens, takenWaiting, hschedule, Option.map_some]
  generalize schedule.next = result at hreceives ⊢
  obtain ⟨next, event⟩ := result
  cases event with
  | none => exact h.takesNone hschedule hreceives
  | some event =>
    obtain ⟨hserved, hgeneration, run, hrun, hevent⟩ := h.takes hschedule hreceives
    refine ⟨hserved, hgeneration, ?_⟩
    intro set hset
    exact ⟨run, hrun, (mem_takenFrom hset).symm.trans hevent⟩

theorem Served.keepUp [Pixel α] (h : session.Served tokenizer asked) (upkeep : Upkeep α) :
    TakesLatest session (session.keepUp upkeep) tokenizer asked (session.taken upkeep) := by
  cases upkeep with
  | applyTokenUpdates => exact h.applyUpdates _
  | waitForTokens => exact h.waitForTokens
  | advance duration =>
    obtain ⟨schedule, hschedule, hserves, hactive⟩ := h.schedule
    obtain ⟨hnext, hactive', hgeneration⟩ := hserves.runUntil (schedule.now + duration)
    have hmap : (session.advance duration).schedule = some (schedule.advance duration) := by
      simp only [Session.advance, hschedule, Option.map_some]
    obtain ⟨hserved, hsame⟩ := h.goesOn hschedule hmap rfl hnext hactive' hgeneration
    exact ⟨hserved, hsame, fun set hset => nomatch hset⟩
  | hostScroll actual now => exact h.takesNothing rfl rfl
  | settle now => exact h.takesNothing rfl rfl
  | resize height contentWidth => exact h.takesNothing rfl rfl
  | render => exact h.takesNothing rfl rfl

/-- The outcome of a run goes to the end of the queue. -/
theorem Served.deliver_schedule (h : session.Served tokenizer asked) {run : TokenRun}
    (hrun : run ∈ asked) :
    ∃ schedule, (session.deliver run).schedule = some schedule ∧ schedule.Serves tokenizer asked ∧
      schedule.pipeline.active = some session.target ∧
      run.outcome tokenizer ∈ schedule.pipeline.queue := by
  obtain ⟨schedule, hschedule, hserves, hactive⟩ := h.schedule
  have hmap : (session.deliver run).schedule = some { schedule with
      pipeline := schedule.pipeline.finish (run.outcome tokenizer) } := by
    simp only [Session.deliver, hschedule, Option.map_some, hserves.uses]
  refine ⟨_, hmap, ⟨hserves.uses, hserves.answers.finish hrun⟩, hactive, ?_⟩
  exact List.mem_append_right _ (List.mem_singleton.2 rfl)

theorem Served.deliver (h : session.Served tokenizer asked) {run : TokenRun} (hrun : run ∈ asked) :
    (session.deliver run).Served tokenizer asked := by
  obtain ⟨schedule, hschedule, hserves, hactive, -⟩ := h.deliver_schedule hrun
  exact ⟨⟨schedule, hschedule, hserves, hactive⟩, h.latest⟩

/-- The outcome of the run requested last is taken over when it has come in. -/
theorem Served.takes_latest (h : session.Served tokenizer asked) (hcaught : session.CaughtUp)
    {run : TokenRun} (hrun : asked.head? = some run) {set : TokenSet}
    (hanswer : run.event tokenizer = .tokens set) :
    set ∈ (session.deliver run).taken .applyTokenUpdates := by
  have htarget : run.target = session.target := by
    obtain ⟨latest, hlatest, htarget⟩ := h.latest
    obtain rfl := Option.some.inj (hlatest.symm.trans hrun)
    exact htarget
  obtain ⟨schedule, hschedule, hserves, hactive, hqueue⟩ :=
    h.deliver_schedule (List.mem_of_mem_head? hrun)
  have hsome : schedule.receive.2.isSome :=
    hserves.answers.receive_isSome hrun (hactive.trans (congrArg some htarget.symm)) hqueue
  have hfirst := hserves.receive.event
  simp only [taken, takenUpdates, hschedule, Option.map_some]
  generalize schedule.receive = result at hsome hfirst ⊢
  obtain ⟨next, event⟩ := result
  cases event with
  | none => cases hsome
  | some event =>
    obtain ⟨latest, hlatest, rfl⟩ := hfirst event rfl
    obtain rfl := Option.some.inj (hrun.symm.trans hlatest)
    obtain ⟨hdocument, hversion, -⟩ := TokenRun.event_eq_tokens hanswer.symm
    have htaken : set.document = (session.deliver run).document ∧
        set.version = (session.deliver run).editor.buffer.version :=
      ⟨hdocument.trans (congrArg ActiveDocument.id htarget),
        (hversion.trans (congrArg ActiveDocument.version htarget)).trans hcaught.version.symm⟩
    simp only [hanswer, takenFrom]
    rw [if_pos htaken]
    exact List.mem_cons_self

end Session

/-- The run requested last is for the text as it is. -/
def World.Fresh (world : World α) : Prop :=
  ∃ run, world.asked.head? = some run ∧ run.content = world.session.editor.buffer.content

def Moment.SwapsText (moment : Moment α) : Prop :=
  match moment.step with
  | .call (.work work) => moment.before.session.SwapsText work
  | _ => False

def Moment.taken (moment : Moment α) : List TokenSet :=
  match moment.step with
  | .call (.upkeep upkeep) => moment.before.session.taken upkeep
  | _ => []

/-- All that is taken over at this moment is what the tokenizer makes of the text as it is. -/
def Moment.TakesOwnText (moment : Moment α) (tokenizer : Tokenizer) : Prop :=
  ∀ set ∈ moment.taken, tokenizer.tokenize moment.before.session.editor.buffer.content
    moment.before.session.fileExtension = .ok set.tokens

/-- The session has seen all of its editor, and has a tokenizer for it. -/
structure World.InService (world : World α) (tokenizer : Tokenizer) : Prop where
  caughtUp : world.session.CaughtUp
  served : world.session.Served tokenizer world.asked

namespace World

variable {world : World α} {tokenizer : Tokenizer}

/-- The run requested last is for a file of the same kind, too. -/
theorem InService.latest_of_fresh (h : world.InService tokenizer) (hfresh : world.Fresh) :
    ∃ run, world.asked.head? = some run ∧ run.content = world.session.editor.buffer.content ∧
      run.fileExtension = world.session.fileExtension := by
  obtain ⟨run, hrun, hcontent⟩ := hfresh
  obtain ⟨latest, hlatest, htarget⟩ := h.served.latest
  obtain rfl := Option.some.inj (hrun.symm.trans hlatest)
  exact ⟨run, hrun, hcontent, congrArg ActiveDocument.fileExtension htarget⟩

variable [Pixel α]

theorem start_inService {editor : Editor} (h : editor.Sound) (height contentWidth : α)
    (tokenizer : Tokenizer) (runtime : Runtime) :
    (start editor height contentWidth (some tokenizer) runtime).InService tokenizer ∧
    (start editor height contentWidth (some tokenizer) runtime).Fresh := by
  have hcaught := start_caughtUp h height contentWidth (some tokenizer) runtime
  let bare := Session.new editor height contentWidth
  have hnew : (Schedule.new tokenizer runtime bare.editor.settings.tokenization.debounceMs
      bare.editor.settings.tokenization.cacheCapacity).pipeline.Answers tokenizer [] :=
    Pipeline.new_answers _ _ tokenizer
  obtain ⟨run, hcontent, htarget, hpending, hanswers⟩ := hnew.openDocument bare.document
    bare.fileExtension bare.editor.buffer.content bare.editor.buffer.version
  have hasked : (start editor height contentWidth (some tokenizer) runtime).asked = [run] :=
    congrArg Option.toList hpending
  refine ⟨⟨hcaught, ⟨⟨_, rfl, ⟨rfl, ?_⟩, ?_⟩, run, ?_, htarget⟩⟩, run, ?_, hcontent⟩
  · rw [hasked]
    exact hanswers
  · exact Pipeline.request_active _ _
  · rw [hasked]
    rfl
  · rw [hasked]
    rfl

/-- What a call to keep the session up or an outcome that comes in leaves as it is. -/
theorem InService.step_keeps (h : world.InService tokenizer) {step : Step α}
    (hstep : ∀ work, step ≠ .call (.work work)) :
    (world.step step).session.Served tokenizer world.asked ∧
    (world.step step).asked = world.asked ∧
    (world.step step).session.editor = world.session.editor := by
  cases step with
  | call call =>
    cases call with
    | work work => exact absurd rfl (hstep work)
    | upkeep upkeep =>
      have htakes := h.served.keepUp upkeep
      refine ⟨htakes.served, ?_, (world.session.keepUp_keeps upkeep).editor⟩
      show Session.requestedSince world.session (world.session.keepUp upkeep) ++ world.asked = _
      rw [Session.requestedSince_of_generation htakes.generation, List.nil_append]
  | arrive index =>
    simp only [World.step]
    split
    · exact ⟨h.served, rfl, rfl⟩
    · rename_i run hrun
      exact ⟨h.served.deliver (List.mem_of_getElem? hrun), rfl, rfl⟩

/-- Work either has a run requested for the text as it is, or has none requested and then leaves the
text alone, unless it puts another one in its place unseen. -/
theorem InService.step_work (h : world.InService tokenizer) (work : Session.Work) :
    (∃ run, run.content = (world.step (.call (.work work))).session.editor.buffer.content ∧
      (world.step (.call (.work work))).session.Served tokenizer (run :: world.asked) ∧
      (world.step (.call (.work work))).asked = run :: world.asked ∧
      ¬ world.session.SwapsText work) ∨
    ((world.step (.call (.work work))).session.Served tokenizer world.asked ∧
      (world.step (.call (.work work))).asked = world.asked ∧
      ((world.step (.call (.work work))).session.editor.buffer.content
        = world.session.editor.buffer.content ↔ ¬ world.session.SwapsText work)) := by
  have hasked : (world.step (.call (.work work))).asked =
      Session.requestedSince world.session (world.session.carryOut work) ++ world.asked := rfl
  rcases h.served.carryOut h.caughtUp work with ⟨run, hrun, hserved, hrequested, hkept⟩ |
    ⟨hserved, hrequested, hiff⟩
  · left
    rw [hrequested] at hasked
    exact ⟨run, hrun, hserved, hasked, hkept⟩
  · right
    rw [hrequested] at hasked
    exact ⟨hserved, hasked, hiff⟩

theorem InService.step (h : world.InService tokenizer) (step : Step α) :
    (world.step step).InService tokenizer := by
  have hcaught := step_caughtUp h.caughtUp step
  refine ⟨hcaught, ?_⟩
  by_cases hwork : ∃ work, step = .call (.work work)
  · obtain ⟨work, rfl⟩ := hwork
    rcases h.step_work work with ⟨run, -, hserved, hasked, -⟩ | ⟨hserved, hasked, -⟩
    · rw [hasked]
      exact hserved
    · rw [hasked]
      exact hserved
  · obtain ⟨hserved, hasked, -⟩ := h.step_keeps fun work hstep => hwork ⟨work, hstep⟩
    rw [hasked]
    exact hserved

theorem InService.step_fresh_iff (h : world.InService tokenizer) (hfresh : world.Fresh)
    (step : Step α) : (world.step step).Fresh ↔ ¬ Moment.SwapsText ⟨world, step⟩ := by
  obtain ⟨latest, hlatest, hcontent⟩ := hfresh
  by_cases hwork : ∃ work, step = .call (.work work)
  · obtain ⟨work, rfl⟩ := hwork
    show _ ↔ ¬ world.session.SwapsText work
    rcases h.step_work work with ⟨run, hrun, -, hasked, hkept⟩ | ⟨-, hasked, hiff⟩
    · rw [Fresh, hasked]
      exact ⟨fun _ => hkept, fun _ => ⟨run, rfl, hrun⟩⟩
    · rw [Fresh, hasked, ← hiff, hlatest]
      constructor
      · rintro ⟨run, hsame, hrun⟩
        obtain rfl := Option.some.inj hsame
        exact hrun.symm.trans hcontent
      · intro hsame
        exact ⟨latest, rfl, hcontent.trans hsame.symm⟩
  · have hnone : ∀ work, step ≠ .call (.work work) := fun work hstep => hwork ⟨work, hstep⟩
    obtain ⟨-, hasked, heditor⟩ := h.step_keeps hnone
    have hafter : (world.step step).Fresh := by
      refine ⟨latest, ?_, ?_⟩
      · rw [hasked]
        exact hlatest
      · rw [heditor]
        exact hcontent
    refine ⟨fun _ hswaps => ?_, fun _ => hafter⟩
    cases step with
    | call call =>
      cases call with
      | work work => exact hnone work rfl
      | upkeep upkeep => exact hswaps
    | arrive index => exact hswaps

/-- A text that is put under the name and the version seen is not requested. -/
theorem InService.asked_of_swapsText (h : world.InService tokenizer) {work : Session.Work}
    (hswaps : world.session.SwapsText work) :
    (world.step (.call (.work work))).asked = world.asked := by
  rcases h.step_work work with ⟨_, -, -, -, hkept⟩ | ⟨-, hasked, -⟩
  · exact absurd hswaps hkept
  · exact hasked

theorem InService.taken_latest {moment : Moment α} (h : moment.before.InService tokenizer) :
    ∀ set ∈ moment.taken,
      ∃ run, moment.before.asked.head? = some run ∧ .tokens set = run.event tokenizer := by
  obtain ⟨before, step⟩ := moment
  intro set hset
  cases step with
  | call call =>
    cases call with
    | work work => cases hset
    | upkeep upkeep => exact (h.served.keepUp upkeep).sets set hset
  | arrive index => cases hset

theorem InService.takesOwnText {moment : Moment α} (h : moment.before.InService tokenizer)
    (hfresh : moment.before.Fresh) : moment.TakesOwnText tokenizer := by
  intro set hset
  obtain ⟨latest, hlatest, hcontent, hextension⟩ := h.latest_of_fresh hfresh
  obtain ⟨run, hrun, hevent⟩ := h.taken_latest set hset
  obtain rfl := Option.some.inj (hlatest.symm.trans hrun)
  rw [← hcontent, ← hextension]
  exact (TokenRun.event_eq_tokens hevent).2.2

/-- The outcome of the run requested last can come in at any time, and is taken over. -/
theorem InService.takes_latest (h : world.InService tokenizer) {run : TokenRun}
    (hrun : world.asked.head? = some run) {set : TokenSet}
    (hanswer : run.event tokenizer = .tokens set) :
    set ∈ Moment.taken ⟨world.step (.arrive 0), .call (.upkeep .applyTokenUpdates)⟩ := by
  have hindex : world.asked[0]? = some run := List.head?_eq_getElem?.symm.trans hrun
  have hstep : world.step (.arrive 0) = { world with session := world.session.deliver run } := by
    simp only [World.step, hindex]
  rw [hstep]
  exact h.served.takes_latest h.caughtUp hrun hanswer

theorem history_inService (h : world.InService tokenizer) (steps : List (Step α)) :
    ∀ moment ∈ world.history steps, moment.before.InService tokenizer := by
  intro moment hmoment
  have hstep : ∀ (world : World α) (step : Step α), world.InService tokenizer →
      (world.step step).InService tokenizer := fun _ step hservice => hservice.step step
  exact history_keeps hstep h steps moment hmoment

/-- Up to the first call that puts another text under the name and the version seen, the run requested
last is for the text as it is, and after that call it is not. -/
theorem history_fresh_iff (h : world.InService tokenizer) (hfresh : world.Fresh)
    (steps : List (Step α)) :
    (∀ moment ∈ world.history steps, moment.after.Fresh) ↔
      ∀ moment ∈ world.history steps, ¬ moment.SwapsText := by
  apply history_iff (·.InService tokenizer) Fresh Moment.SwapsText _ _ h hfresh
  · intro world step hservice
    exact InService.step hservice step
  · intro world step hservice hfresh
    exact InService.step_fresh_iff hservice hfresh step

theorem history_takesOwnText (h : world.InService tokenizer) (hfresh : world.Fresh)
    {steps : List (Step α)} (hkept : ∀ moment ∈ world.history steps, ¬ moment.SwapsText) :
    ∀ moment ∈ world.history steps, moment.TakesOwnText tokenizer := by
  intro moment hmoment
  have hafter := (history_fresh_iff h hfresh steps).2 hkept
  have hbefore := history_before hfresh hafter
  exact (history_inService h steps moment hmoment).takesOwnText (hbefore moment hmoment)

/-- However a session with a tokenizer is used, and whenever outcomes come in, the tokens are replaced by
those of the run requested last. These are of the text as it is, after all calls if and only if none of
them puts another text under the name and the version that the session has seen; and what the run
requested last comes to is taken over at once if it comes in then. -/
theorem tokens_of_text_iff (document : DocumentId) (text : Text) (settings : Settings)
    (operations : List Operation) (height contentWidth : α) (tokenizer : Tokenizer)
    (runtime : Runtime) (steps : List (Step α)) :
    let world := start ((Editor.new document text settings).performAll operations) height
      contentWidth (some tokenizer) runtime
    (∀ moment ∈ world.history steps, ∀ upkeep, moment.step = .call (.upkeep upkeep) →
      moment.after.session.tokens = Session.tokensAfter moment.before.session.tokens moment.taken) ∧
    (∀ moment ∈ world.history steps, ∀ set ∈ moment.taken,
      ∃ run, moment.before.asked.head? = some run ∧ .tokens set = run.event tokenizer) ∧
    ((∀ moment ∈ world.history steps, ¬ moment.SwapsText) →
      ∀ moment ∈ world.history steps, moment.TakesOwnText tokenizer) ∧
    ((∀ moment ∈ world.history steps, moment.after.Fresh) ↔
      ∀ moment ∈ world.history steps, ¬ moment.SwapsText) ∧
    ∀ moment ∈ world.history steps, ∀ run set,
      moment.after.asked.head? = some run → run.event tokenizer = .tokens set →
      set ∈ Moment.taken ⟨moment.after.step (.arrive 0), .call (.upkeep .applyTokenUpdates)⟩ := by
  intro world
  have hsound := Editor.performAll_sound (Editor.new_sound document text settings) operations
  obtain ⟨hservice, hfresh⟩ := start_inService hsound height contentWidth tokenizer runtime
  have hbefore := history_inService hservice steps
  refine ⟨?_, ?_, history_takesOwnText hservice hfresh, history_fresh_iff hservice hfresh steps, ?_⟩
  · rintro ⟨before, step⟩ _ upkeep rfl
    exact before.session.keepUp_tokens upkeep
  · intro moment hmoment
    exact (hbefore moment hmoment).taken_latest
  · intro moment hmoment run set hrun hanswer
    exact ((hbefore moment hmoment).step moment.step).takes_latest hrun hanswer

/-- After a text was put under the name and the version seen, the tokens of the text before it are taken
over. -/
theorem InService.takes_swapped (h : world.InService tokenizer) (hfresh : world.Fresh)
    {work : Session.Work} (hswaps : world.session.SwapsText work) {tokens : List Token}
    (hanswer : tokenizer.tokenize world.session.editor.buffer.content world.session.fileExtension
      = .ok tokens) :
    ∃ set ∈ Moment.taken ⟨(world.step (.call (.work work))).step (.arrive 0),
      .call (.upkeep .applyTokenUpdates)⟩, set.tokens = tokens := by
  obtain ⟨run, hrun, hcontent, hextension⟩ := h.latest_of_fresh hfresh
  have hevent : run.event tokenizer = .tokens ⟨run.document, run.version, tokens⟩ := by
    rw [TokenRun.event, hcontent, hextension, hanswer]
  have hasked : (world.step (.call (.work work))).asked.head? = some run := by
    rw [h.asked_of_swapsText hswaps]
    exact hrun
  exact ⟨_, (h.step (.call (.work work))).takes_latest hasked hevent, rfl⟩

/-- These are not those of the new text, if the tokenizer tells the two apart. -/
theorem InService.not_takesOwnText (h : world.InService tokenizer) (hfresh : world.Fresh)
    {work : Session.Work} (hswaps : world.session.SwapsText work) {tokens : List Token}
    (hanswer : tokenizer.tokenize world.session.editor.buffer.content world.session.fileExtension
      = .ok tokens)
    (hother : ∀ fileExtension, tokenizer.tokenize
      (world.session.worked work).editor.buffer.content fileExtension ≠ .ok tokens) :
    ¬ Moment.TakesOwnText ⟨(world.step (.call (.work work))).step (.arrive 0),
      .call (.upkeep .applyTokenUpdates)⟩ tokenizer := by
  intro hown
  obtain ⟨set, hset, rfl⟩ := h.takes_swapped hfresh hswaps hanswer
  have htaken := hown set hset
  simp only [step_arrive_editor, step_work_editor] at htaken
  exact hother _ htaken

/-- A document is opened once more with another text, and the outcome for the first text comes in after
that. -/
theorem reopening_takes_tokens_of_another_text :
    let tokenizer : Tokenizer := ⟨fun text _ => .ok [⟨0, text.length, "text"⟩], 0⟩
    let world := start (Editor.new "a.txt" ['a', 'b'] .default) (100 : Float) 400 (some tokenizer) ⟨id⟩
    let reopening : Session.Work := .edit [⟨.openDocument "a.txt" ['1'], rfl⟩]
    let reopened := world.step (.call (.work reopening))
    ¬ Moment.TakesOwnText ⟨reopened.step (.arrive 0), .call (.upkeep .applyTokenUpdates)⟩
      tokenizer := by
  intro tokenizer world reopening reopened
  have hsound := Editor.new_sound "a.txt" ['a', 'b'] .default
  obtain ⟨hservice, hfresh⟩ := start_inService hsound (100 : Float) 400 tokenizer ⟨id⟩
  have hswaps : world.session.SwapsText reopening := ⟨⟨by decide, by decide, by decide⟩, by decide⟩
  have hcontent : (world.session.worked reopening).editor.buffer.content = ['1'] := by decide
  apply hservice.not_takesOwnText hfresh hswaps rfl
  intro fileExtension
  rw [hcontent]
  exact fun hsame => nomatch hsame

end World

end HeadlessEditor
