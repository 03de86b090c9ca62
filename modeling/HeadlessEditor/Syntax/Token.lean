import HeadlessEditor.Text.Edit

/-!
Syntax tokens: stretches of a document with a class such as `keyword`. Until a tokenizer has seen
the latest text, the tokens of an older one are carried through the edits since.
-/

namespace HeadlessEditor

/-- The class of the characters with offsets in `[start, stop)`. -/
structure Token where
  start : Nat
  stop : Nat
  className : String
  deriving DecidableEq, Repr, Inhabited

namespace Token

def length (token : Token) : Nat := token.stop - token.start

def isEmpty (token : Token) : Bool := token.stop ≤ token.start

/-- Where an edit leaves a token; `none` if nothing of it is left. -/
def mapThroughEdit (edit : TextEdit) (token : Token) : Option Token :=
  (edit.mapSpan token.start token.stop).bind fun (start, stop) =>
    if start < stop then some { token with start, stop } else none

/-- The same in machine numbers; `none` if a step leaves them. -/
def mapThroughEdit? (edit : TextEdit) (token : Token) : Option (Option Token) := do
  let span ← edit.mapSpan? token.start token.stop
  return span.bind fun (start, stop) =>
    if start < stop then some { token with start, stop } else none

end Token

def mapTokensThroughEdit (tokens : List Token) (edit : TextEdit) : List Token :=
  tokens.filterMap (·.mapThroughEdit edit)

def mapTokensThroughEdit? (edit : TextEdit) : List Token → Option (List Token)
  | [] => some []
  | token :: rest => do
    let carried ← token.mapThroughEdit? edit
    let others ← mapTokensThroughEdit? edit rest
    return carried.toList ++ others

inductive TokenizerError where
  /-- There is no grammar for files with this extension. -/
  | unsupported (fileExtension : String)
  | failed (message : String)
  deriving DecidableEq, Repr

def TokenizerError.message : TokenizerError → String
  | unsupported fileExtension => s!"no grammar for file extension `{fileExtension}`"
  | failed message => s!"tokenization failed: {message}"

/-- Finds the tokens of a whole document, by the extension of its file. -/
structure Tokenizer where
  tokenize : Text → String → Except TokenizerError (List Token)
  /-- Milliseconds that a run takes. -/
  duration : Nat

end HeadlessEditor
