import HeadlessEditor.Proofs.Recency
import HeadlessEditor.Proofs.Tokenization

/-!
Which tokens a pipeline has at hand. Accepted sets are put into the memory, and opening a document
whose set is still there counts as a use of it. So the memory holds the set accepted last for each of
the documents used last, and the tokens in use are those that the memory holds for the active document.
-/

namespace HeadlessEditor

def PipelineEvent.set? : PipelineEvent → Option TokenSet
  | .tokens set => some set
  | .failed _ _ _ => none

namespace Pipeline

variable {pipeline : Pipeline} {room : Nat} {uses : List (DocumentId × TokenSet)}

@[simp] theorem request_cache (pipeline : Pipeline) (content : Text) :
    (pipeline.request content).cache = pipeline.cache := by
  unfold request
  split
  · rfl
  · rfl

@[simp] theorem request_current (pipeline : Pipeline) (content : Text) :
    (pipeline.request content).current = pipeline.current := by
  unfold request
  split
  · rfl
  · rfl

/-- The tokens in use are those that the memory has for the active document. -/
def UsesKept (pipeline : Pipeline) : Prop :=
  pipeline.current = pipeline.active.bind fun active => pipeline.cached? active.id

def Call.opened? : Call → Option DocumentId
  | .openDocument document _ _ _ => some document
  | _ => none

theorem call_cache (pipeline : Pipeline) (call : Call) :
    (pipeline.call call).cache = match call.opened? with
      | some document => pipeline.cache.touch document
      | none => pipeline.cache := by
  cases call with
  | openDocument document fileExtension content version =>
    simp [Pipeline.call, openDocument, Call.opened?]
  | contentChanged content version =>
    simp only [Pipeline.call, contentChanged, Call.opened?]
    split
    · rfl
    · rw [request_cache]
  | closeDocument document =>
    simp only [Pipeline.call, closeDocument, Call.opened?]
    split
    · rfl
    · split
      · rfl
      · rfl
  | cancel => rfl
  | setDebounce debounce => rfl

/-- Opening a document brings its tokens from the memory, another version keeps them, and without an
active document there are none. -/
theorem UsesKept.call (h : pipeline.UsesKept) (hholds : pipeline.cache.Holds room uses) (call : Call) :
    (pipeline.call call).UsesKept := by
  cases call with
  | openDocument document fileExtension content version =>
    have htouch := hholds.peek?_touch_self document
    simp only [UsesKept, Pipeline.call, openDocument, request_current, request_active, cached?,
      request_cache, Option.bind_some]
    exact htouch.symm
  | contentChanged content version =>
    simp only [Pipeline.call, contentChanged]
    split
    · exact h
    · rename_i active hactive
      unfold UsesKept at h ⊢
      rw [hactive] at h
      simpa [cached?] using h
  | closeDocument document =>
    simp only [Pipeline.call, closeDocument]
    split
    · exact h
    · split
      · rfl
      · exact h
  | cancel => exact h
  | setDebounce debounce => exact h

inductive Receipt (pipeline : Pipeline) : Pipeline × Option PipelineEvent → Prop where
  | keeps {after : Pipeline} {event : Option PipelineEvent}
      (none : event.bind PipelineEvent.set? = none) (current : after.current = pipeline.current)
      (cache : after.cache = pipeline.cache) (active : after.active = pipeline.active) :
      Receipt pipeline (after, event)
  | takes {after : Pipeline} {set : TokenSet} (current : after.current = some set)
      (cache : after.cache = pipeline.cache.put set.document set)
      (active : after.active = pipeline.active)
      (own : ∃ active ∈ pipeline.active, active.id = set.document) :
      Receipt pipeline (after, some (.tokens set))

theorem receive_receipt (pipeline : Pipeline) : Receipt pipeline pipeline.receive := by
  have hlooks := pipeline.receive_looks
  generalize pipeline.receive = result at hlooks ⊢
  generalize pipeline.queue = queue at hlooks
  cases hlooks with
  | nothing _ => exact .keeps rfl rfl rfl rfl
  | @delivers dropped outcome rest _ latest =>
    obtain ⟨hactive, -, -, -⟩ := pipeline.accept_same outcome
    obtain ⟨-, active, hmem, hdocument, -⟩ := isLatest_iff.1 latest
    cases hresult : outcome.result with
    | ok tokens =>
      have hevent : outcome.event = .tokens ⟨outcome.document, outcome.version, tokens⟩ := by
        rw [TokenOutcome.event, hresult]
      rw [hevent]
      refine .takes ?_ ?_ hactive ⟨active, hmem, hdocument⟩
      · simp [accept, latest, hresult]
      · simp [accept, latest, hresult]
    | error error =>
      have hevent : outcome.event = .failed outcome.document outcome.version error := by
        rw [TokenOutcome.event, hresult]
      obtain ⟨hcurrent, hcache⟩ := pipeline.accept_failed hevent
      rw [hevent]
      exact .keeps rfl hcurrent hcache hactive

theorem UsesKept.receive (h : pipeline.UsesKept) (hholds : pipeline.cache.Holds room uses) :
    pipeline.receive.1.UsesKept := by
  have hreceipt := pipeline.receive_receipt
  generalize pipeline.receive = result at hreceipt ⊢
  cases hreceipt with
  | keeps _ current cache active =>
    unfold UsesKept cached? at h ⊢
    rw [current, cache, active]
    exact h
  | takes current cache active own =>
    obtain ⟨document, hactive, hid⟩ := own
    unfold UsesKept cached?
    rw [current, cache, active, Option.mem_def.1 hactive, Option.bind_some, hid,
      hholds.peek?_put_self]

end Pipeline

namespace Tokenization

def run (world : Tokenization) (steps : List Step) : Tokenization := steps.foldl step world

namespace Moment

def accepted (moment : Moment) : Option TokenSet := moment.event.bind PipelineEvent.set?

/-- What the memory is used for at the moment: a set is found there for a document that is opened, or is
put there. -/
def use (moment : Moment) : Option (DocumentId × TokenSet) :=
  match moment.step with
  | .call call => call.opened?.bind fun document =>
    (moment.before.pipeline.cached? document).map (document, ·)
  | _ => moment.accepted.map fun set => (set.document, set)

end Moment

def acceptedIn (moments : List Moment) : List TokenSet :=
  (moments.filterMap Moment.accepted).reverse

def usesIn (moments : List Moment) : List (DocumentId × TokenSet) :=
  (moments.filterMap Moment.use).reverse

variable {world : Tokenization} {room : Nat} {uses : List (DocumentId × TokenSet)}
  {accepted : List TokenSet}

/-- The memory has what was put there, and each use of it is of the set accepted last. -/
structure Remembers (world : Tokenization) (room : Nat) (uses : List (DocumentId × TokenSet))
    (accepted : List TokenSet) : Prop where
  cache : world.pipeline.cache.Holds room uses
  latest : ∀ document, uses.lookup document = accepted.find? (·.document == document)
  inUse : world.pipeline.UsesKept
  pending : ∀ run ∈ world.pipeline.pending, world.asked.head? = some run

theorem start_remembers (debounce cacheCapacity : Nat) :
    (start debounce cacheCapacity).Remembers cacheCapacity [] [] where
  cache := RecencyCache.new_holds cacheCapacity
  latest _ := rfl
  inUse := rfl
  pending := by simp [start, Pipeline.new]

/-- What the memory has for a document is the set accepted last for it, unless as many other documents
as there is room for were used since. -/
theorem Remembers.cached?_eq (h : world.Remembers room uses accepted) (document : DocumentId) :
    world.pipeline.cached? document =
      if (RecencyCache.keysOf (RecencyCache.usesSince uses document)).toFinset.card < max room 1
      then accepted.find? (·.document == document) else none := by
  rw [Pipeline.cached?, h.cache.peek?_eq, RecencyCache.recalled, h.latest]

/-- A set that is found is the one accepted last, so finding it is no news. -/
theorem Remembers.latest_of_found (h : world.Remembers room uses accepted) {found : DocumentId}
    {set : TokenSet} (hset : world.pipeline.cached? found = some set) (document : DocumentId) :
    ((found, set) :: uses).lookup document = accepted.find? (·.document == document) := by
  rw [List.lookup_cons]
  cases hkey : document == found with
  | false => exact h.latest document
  | true =>
    obtain rfl := eq_of_beq hkey
    rw [h.cached?_eq] at hset
    split at hset
    · exact hset.symm
    · cases hset

theorem Remembers.call (h : world.Remembers room uses accepted) (call : Pipeline.Call) :
    (world.step (.call call)).Remembers room
      ((Moment.mk world (.call call)).use.toList ++ uses) accepted := by
  have huse : (Moment.mk world (.call call)).use = call.opened?.bind fun document =>
    (world.pipeline.cached? document).map (document, ·) := rfl
  have hcache := world.pipeline.call_cache call
  rw [huse]
  constructor
  · change (world.pipeline.call call).cache.Holds room _
    rw [hcache]
    cases call.opened? with
    | none => exact h.cache
    | some document =>
      exact h.cache.touch document
  · intro document
    cases call.opened? with
    | none => exact h.latest document
    | some opened =>
      rw [Option.bind_some]
      cases hfound : world.pipeline.cached? opened with
      | none => exact h.latest document
      | some set => exact h.latest_of_found hfound document
  · exact h.inUse.call h.cache call
  · change ∀ run ∈ (world.pipeline.call call).pending, _
    simp only [step]
    cases world.pipeline.call_calls call with
    | starts run _ generation _ pending _ =>
      rw [Pipeline.startedSince_of_pending generation pending, pending]
      rintro other hother
      exact Option.mem_def.1 hother
    | keeps _ generation pending _ =>
      rw [Pipeline.startedSince_of_generation generation]
      exact fun run hrun => h.pending run (pending run hrun)

theorem Remembers.finish (h : world.Remembers room uses accepted) (index : Nat)
    (result : Except TokenizerError (List Token)) :
    (world.step (.finish index result)).Remembers room uses accepted := by
  simp only [step]
  split
  · exact h
  · split
    · exact h
    · exact ⟨h.cache, h.latest, h.inUse, h.pending⟩

theorem Remembers.receive (h : world.Remembers room uses accepted) :
    (world.step .receive).Remembers room
      ((Moment.mk world .receive).use.toList ++ uses)
      ((Moment.mk world .receive).accepted.toList ++ accepted) := by
  have hkept := h.inUse.receive h.cache
  have hreceipt := world.pipeline.receive_receipt
  have hpending : ∀ run ∈ world.pipeline.receive.1.pending, world.asked.head? = some run :=
    fun run hrun => h.pending run (world.pipeline.receive_pending run hrun)
  have haccepted : (Moment.mk world .receive).accepted
      = world.pipeline.receive.2.bind PipelineEvent.set? := rfl
  have huse : (Moment.mk world .receive).use
      = (world.pipeline.receive.2.bind PipelineEvent.set?).map fun set => (set.document, set) := rfl
  rw [huse, haccepted]
  simp only [step]
  generalize world.pipeline.receive = result at hkept hreceipt hpending ⊢
  cases hreceipt with
  | keeps none current cache active =>
    rw [none]
    exact ⟨cache ▸ h.cache, h.latest, hkept, hpending⟩
  | @takes after set current cache active own =>
    refine ⟨?_, ?_, hkept, hpending⟩
    · change after.cache.Holds room ((set.document, set) :: uses)
      rw [cache]
      exact h.cache.put set.document set
    · intro document
      change ((set.document, set) :: uses).lookup document
        = (set :: accepted).find? (·.document == document)
      rw [List.lookup_cons, List.find?_cons, Bool.beq_comm]
      cases set.document == document with
      | true => rfl
      | false => exact h.latest document

theorem Remembers.step (h : world.Remembers room uses accepted) (step : Step) :
    (world.step step).Remembers room ((Moment.mk world step).use.toList ++ uses)
      ((Moment.mk world step).accepted.toList ++ accepted) := by
  cases step with
  | call call => exact h.call call
  | finish index result => exact h.finish index result
  | receive => exact h.receive

theorem Remembers.run (h : world.Remembers room uses accepted) (steps : List Step) :
    (world.run steps).Remembers room (usesIn (world.history steps) ++ uses)
      (acceptedIn (world.history steps) ++ accepted) := by
  induction steps generalizing world uses accepted with
  | nil => exact h
  | cons step rest ih =>
    have hrest := ih (h.step step)
    have huses : usesIn (world.history (step :: rest))
        = usesIn ((world.step step).history rest) ++ (Moment.mk world step).use.toList := by
      rw [usesIn, usesIn, history]
      cases huse : (Moment.mk world step).use with
      | none => simp [huse]
      | some use => simp [huse]
    have haccepted : acceptedIn (world.history (step :: rest))
        = acceptedIn ((world.step step).history rest)
          ++ (Moment.mk world step).accepted.toList := by
      rw [acceptedIn, acceptedIn, history]
      cases hset : (Moment.mk world step).accepted with
      | none => simp [hset]
      | some set => simp [hset]
    rw [huses, haccepted, List.append_assoc, List.append_assoc]
    exact hrest

theorem Sound.run (h : world.Sound) (steps : List Step) : (world.run steps).Sound := by
  induction steps generalizing world with
  | nil => exact h
  | cons step rest ih => exact ih (h.step step)

/-- However calls, ends of runs and looks at the queue come about: the memory has for a document the set
accepted last for it, unless as many other documents as there is room for were used since; the tokens
in use are those that the memory has for the active document; there are never more documents in the
memory than there is room for; and what is waited for is the latest run. -/
theorem keeps_last_accepted (debounce cacheCapacity : Nat) (steps : List Step) :
    let moments := (start debounce cacheCapacity).history steps
    let world := (start debounce cacheCapacity).run steps
    let lastAccepted (document : DocumentId) : Option TokenSet :=
      (acceptedIn moments).find? (·.document == document)
    (∀ document, world.pipeline.cached? document =
      if (RecencyCache.keysOf (RecencyCache.usesSince (usesIn moments) document)).toFinset.card
          < max cacheCapacity 1
      then lastAccepted document else none) ∧
    (world.pipeline.current
      = world.pipeline.active.bind fun active => world.pipeline.cached? active.id) ∧
    (∀ set ∈ world.pipeline.current, ∃ active ∈ world.pipeline.active,
      set.document = active.id ∧ lastAccepted active.id = some set) ∧
    (RecencyCache.keysOf world.pipeline.cache.entries).Nodup ∧
    world.pipeline.cache.size ≤ max 1 cacheCapacity ∧
    (∀ run ∈ world.pipeline.pending, world.asked.head? = some run ∧
      run.generation = world.pipeline.generation) := by
  intro moments world lastAccepted
  have hsound : world.Sound := (start_sound debounce cacheCapacity).run steps
  have hremembers : world.Remembers cacheCapacity (usesIn moments) (acceptedIn moments) := by
    have hrun := (start_remembers debounce cacheCapacity).run steps
    rwa [List.append_nil, List.append_nil] at hrun
  have hbounded := hremembers.cache.bounded
  refine ⟨hremembers.cached?_eq, hremembers.inUse, ?_, hbounded.1, ?_, ?_⟩
  · intro set hset
    rw [hremembers.inUse] at hset
    obtain ⟨active, hactive, hfound⟩ := Option.bind_eq_some_iff.1 hset
    rw [hremembers.cached?_eq] at hfound
    split at hfound
    · have hown : set.document = active.id := by simpa using List.find?_some hfound
      exact ⟨active, hactive, hown, hfound⟩
    · cases hfound
  · rw [Nat.max_comm]
    exact hbounded.2
  · intro run hrun
    have hhead := hremembers.pending run hrun
    exact ⟨hhead, hsound.numbered.head_generation hhead⟩

/-- Opening a document whose tokens are there counts as a use: of two others, those of the one that was
opened again stay. -/
example :
    let world := (start 0 2).run [.call (.openDocument "a.txt" "txt" [] 0), .finish 0 (.ok []), .receive,
      .call (.openDocument "b.txt" "txt" [] 0), .finish 0 (.ok []), .receive,
      .call (.openDocument "a.txt" "txt" [] 0),
      .call (.openDocument "c.txt" "txt" [] 0), .finish 0 (.ok []), .receive]
    world.pipeline.cached? "a.txt" = some ⟨"a.txt", 0, []⟩ ∧ world.pipeline.cached? "b.txt" = none := by
  decide

end Tokenization

end HeadlessEditor
