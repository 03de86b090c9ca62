import HeadlessEditor.Syntax.Token

/-!
A tokenizer without grammars, for trying out a pipeline: it finds words and numbers, takes as long
as one likes, and fails or answers out of order for some file extensions.
-/

namespace HeadlessEditor.WordTokenizer

def classOf (c : Char) : Option String :=
  if c.isAlpha then some "word" else if c.isDigit then some "num" else none

/-- The runs of characters of one class. `started` is the run that goes on: its class and start. -/
def runs (offset : Nat) (started : Option (String × Nat)) : Text → List Token
  | [] => (started.map fun (name, start) => Token.mk start offset name).toList
  | c :: rest =>
    if started.map (·.1) = classOf c then runs (offset + 1) started rest
    else
      (started.map fun (name, start) => Token.mk start offset name).toList
        ++ runs (offset + 1) ((classOf c).map (·, offset)) rest

def tokenize (text : Text) (fileExtension : String) : Except TokenizerError (List Token) :=
  if fileExtension = "bad" then .error (.failed "boom")
  else if fileExtension = "none" then .error (.unsupported "none")
  else if fileExtension = "rev" then .ok (runs 0 none text).reverse
  else .ok (runs 0 none text)

def tokenizer (duration : Nat) : Tokenizer := ⟨tokenize, duration⟩

end HeadlessEditor.WordTokenizer
