import HeadlessEditor.Document.Buffer
import HeadlessEditor.RecencyCache
import HeadlessEditor.Syntax.Token

/-!
Which tokens belong to the active document. Each request for tokens starts a run of the tokenizer
under a new generation and takes the place of the run before it. Runs leave their outcomes in a
queue; one is accepted only if it is of the latest generation and of the active document in its
latest version, so that tokens are never applied to another text than theirs. A failed run leaves
the tokens as they are. The tokens accepted last for a document are kept for when it is opened
again.
-/

namespace HeadlessEditor

structure TokenSet where
  document : DocumentId
  version : Nat
  tokens : List Token
  deriving DecidableEq, Repr

inductive PipelineEvent where
  | tokens (set : TokenSet)
  | failed (document : DocumentId) (version : Nat) (error : TokenizerError)
  deriving DecidableEq, Repr

structure TokenRun where
  generation : Nat
  document : DocumentId
  fileExtension : String
  version : Nat
  content : Text
  deriving DecidableEq, Repr

structure TokenOutcome where
  generation : Nat
  document : DocumentId
  version : Nat
  result : Except TokenizerError (List Token)

structure ActiveDocument where
  id : DocumentId
  fileExtension : String
  version : Nat
  deriving DecidableEq, Repr

structure Pipeline where
  /-- Milliseconds from a change of the text to the run for it. -/
  debounce : Nat
  active : Option ActiveDocument
  current : Option TokenSet
  cache : RecencyCache DocumentId TokenSet
  /-- The run that is waited for. -/
  pending : Option TokenRun
  /-- The generation of the latest request. -/
  generation : Nat
  queue : List TokenOutcome

def TokenRun.outcome (run : TokenRun) (tokenizer : Tokenizer) : TokenOutcome :=
  ⟨run.generation, run.document, run.version, tokenizer.tokenize run.content run.fileExtension⟩

namespace Pipeline

def new (debounce cacheCapacity : Nat) : Pipeline where
  debounce
  active := none
  current := none
  cache := .new cacheCapacity
  pending := none
  generation := 0
  queue := []

def cached? (pipeline : Pipeline) (document : DocumentId) : Option TokenSet :=
  pipeline.cache.peek? document

/-- Starts a run for the active document in place of the pending one. -/
def request (pipeline : Pipeline) (content : Text) : Pipeline :=
  match pipeline.active with
  | none => pipeline
  | some active =>
    let generation := pipeline.generation + 1
    { pipeline with
      generation
      pending := some ⟨generation, active.id, active.fileExtension, active.version, content⟩ }

/-- Makes a document active and starts a run for it. Tokens kept for it are used in the meantime. -/
def openDocument (pipeline : Pipeline) (document : DocumentId) (fileExtension : String)
    (content : Text) (version : Nat) : Pipeline :=
  { pipeline with
    current := pipeline.cached? document
    cache := pipeline.cache.touch document
    active := some ⟨document, fileExtension, version⟩ }.request content

def contentChanged (pipeline : Pipeline) (content : Text) (version : Nat) : Pipeline :=
  match pipeline.active with
  | none => pipeline
  | some active => { pipeline with active := some { active with version } }.request content

def cancel (pipeline : Pipeline) : Pipeline := { pipeline with pending := none }

/-- Gives up a document if it is the active one. -/
def closeDocument (pipeline : Pipeline) (document : DocumentId) : Pipeline :=
  match pipeline.active with
  | none => pipeline
  | some active =>
    if active.id = document then { pipeline.cancel with active := none, current := none }
    else pipeline

def setDebounce (pipeline : Pipeline) (debounce : Nat) : Pipeline := { pipeline with debounce }

def finish (pipeline : Pipeline) (outcome : TokenOutcome) : Pipeline :=
  { pipeline with queue := pipeline.queue ++ [outcome] }

def isLatest (pipeline : Pipeline) (outcome : TokenOutcome) : Bool :=
  outcome.generation == pipeline.generation
    && pipeline.active.any fun active =>
      active.id == outcome.document && active.version == outcome.version

/-- Looks at an outcome and takes it over if it is that of the latest request. -/
def accept (pipeline : Pipeline) (outcome : TokenOutcome) : Pipeline × Option PipelineEvent :=
  if pipeline.isLatest outcome then
    match outcome.result with
    | .ok tokens =>
      let set : TokenSet := ⟨outcome.document, outcome.version, tokens⟩
      ({ pipeline with
          pending := none
          current := some set
          cache := pipeline.cache.put outcome.document set },
        some (.tokens set))
    | .error error =>
      ({ pipeline with pending := none },
        some (.failed outcome.document outcome.version error))
  else (pipeline, none)

/-- Looks at outcomes until one is accepted; the rest of them stay queued. -/
def receiveFrom (pipeline : Pipeline) : List TokenOutcome → Pipeline × Option PipelineEvent
  | [] => ({ pipeline with queue := [] }, none)
  | outcome :: rest =>
    match pipeline.accept outcome with
    | (pipeline, some event) => ({ pipeline with queue := rest }, some event)
    | (pipeline, none) => pipeline.receiveFrom rest

def receive (pipeline : Pipeline) : Pipeline × Option PipelineEvent :=
  pipeline.receiveFrom pipeline.queue

end Pipeline

end HeadlessEditor
