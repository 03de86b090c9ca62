import HeadlessEditor.Syntax.Pipeline

/-!
When runs of the tokenizer happen. Time stands still but when it is told to go on. The pending run
begins when its delay is over, takes as long as the tokenizer takes and then leaves its outcome; a
run that has been replaced or given up goes no further. At most one run is under way. The delay is
kept by a timer of the runtime, which says how long it is for it.
-/

namespace HeadlessEditor

structure Runtime where
  /-- For how many milliseconds a timer runs that is set to some. -/
  timer : Nat → Nat

/-- How long a run waits that is put off for a delay. Without a delay no timer is set. -/
def Runtime.wait (runtime : Runtime) (delay : Nat) : Nat :=
  if delay = 0 then 0 else runtime.timer delay

inductive RunStage where
  | waiting (due : Nat)
  | running (due : Nat)
  /-- Its outcome is in the queue. -/
  | finished
  deriving DecidableEq, Repr

/-- A pipeline with its tokenizer and a clock in milliseconds. -/
structure Schedule where
  pipeline : Pipeline
  tokenizer : Tokenizer
  runtime : Runtime
  now : Nat
  stage : RunStage
  calls : Nat

namespace Schedule

def new (tokenizer : Tokenizer) (runtime : Runtime) (debounce cacheCapacity : Nat) : Schedule :=
  ⟨.new debounce cacheCapacity, tokenizer, runtime, 0, .finished, 0⟩

/-- Opens a document; the run for it begins at once. -/
def openDocument (schedule : Schedule) (document : DocumentId) (fileExtension : String)
    (content : Text) (version : Nat) : Schedule :=
  { schedule with
    pipeline := schedule.pipeline.openDocument document fileExtension content version
    stage := .waiting schedule.now }

/-- Takes note of a change; the run for it begins after the debounce. -/
def contentChanged (schedule : Schedule) (content : Text) (version : Nat) : Schedule :=
  { schedule with
    pipeline := schedule.pipeline.contentChanged content version
    stage :=
      if schedule.pipeline.active.isSome then
        .waiting (schedule.now + schedule.runtime.wait schedule.pipeline.debounce)
      else schedule.stage }

def cancel (schedule : Schedule) : Schedule :=
  { schedule with pipeline := schedule.pipeline.cancel }

def closeDocument (schedule : Schedule) (document : DocumentId) : Schedule :=
  { schedule with pipeline := schedule.pipeline.closeDocument document }

def setDebounce (schedule : Schedule) (debounce : Nat) : Schedule :=
  { schedule with pipeline := schedule.pipeline.setDebounce debounce }

/-- Begins the pending run if its time has come by `time`. -/
def begin? (schedule : Schedule) (time : Nat) : Schedule :=
  match schedule.pipeline.pending, schedule.stage with
  | some _, .waiting due =>
    if due ≤ time then
      { schedule with
        stage := .running (due + schedule.tokenizer.duration)
        calls := schedule.calls + 1 }
    else schedule
  | _, _ => schedule

/-- Ends the pending run if its time has come by `time`. -/
def end? (schedule : Schedule) (time : Nat) : Schedule :=
  match schedule.pipeline.pending, schedule.stage with
  | some run, .running due =>
    if due ≤ time then
      { schedule with
        pipeline := schedule.pipeline.finish (run.outcome schedule.tokenizer)
        stage := .finished }
    else schedule
  | _, _ => schedule

/-- Lets all happen that is due by a time, and sets the clock to it. -/
def runUntil (schedule : Schedule) (time : Nat) : Schedule :=
  { (schedule.begin? time).end? time with now := max schedule.now time }

def advance (schedule : Schedule) (duration : Nat) : Schedule :=
  schedule.runUntil (schedule.now + duration)

/-- When the pending run ends; now, if it has ended. -/
def pendingEnd (schedule : Schedule) : Nat :=
  match schedule.stage with
  | .waiting due => due + schedule.tokenizer.duration
  | .running due => due
  | .finished => schedule.now

def receive (schedule : Schedule) : Schedule × Option PipelineEvent :=
  let (pipeline, event) := schedule.pipeline.receive
  ({ schedule with pipeline }, event)

/-- Waits for the pending run and takes its event; `none` at once if no run is pending. -/
def next (schedule : Schedule) : Schedule × Option PipelineEvent :=
  if schedule.pipeline.pending.isNone then (schedule, none)
  else (schedule.runUntil (max schedule.now schedule.pendingEnd)).receive

end Schedule

end HeadlessEditor
