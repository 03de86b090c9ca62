import HeadlessEditor.Text.Basic

/-!
Line endings. Documents are held with `'\n'` alone between lines, so that every terminator is one
character; the convention of the file is noted on loading and put back on saving. A `'\r'` that no
newline follows is an ordinary character.
-/

namespace HeadlessEditor

inductive LineEnding where
  | lf
  | crlf
  deriving DecidableEq, Repr, Inhabited

namespace LineEnding

def terminator : LineEnding → Text
  | lf => ['\n']
  | crlf => ['\r', '\n']

/-- Newlines in `text` with and without a carriage return before them; `afterReturn` tells whether
one stands before the text. -/
def census (afterReturn : Bool) : Text → Nat × Nat
  | [] => (0, 0)
  | c :: rest =>
    let (paired, bare) := census (c == '\r') rest
    if c = '\n' then if afterReturn then (paired + 1, bare) else (paired, bare + 1)
    else (paired, bare)

/-- The convention of most terminators in `text`; `lf` on a tie. -/
def detect (text : Text) : LineEnding :=
  let (paired, bare) := census false text
  if paired > bare then crlf else lf

/-- Drops the carriage return of every `"\r\n"`. -/
def normalize : Text → Text
  | '\r' :: '\n' :: rest => '\n' :: normalize rest
  | c :: rest => c :: normalize rest
  | [] => []

def expand (ending : LineEnding) (text : Text) : Text :=
  match ending with
  | lf => text
  | crlf => text.flatMap fun c => if c = '\n' then ['\r', '\n'] else [c]

end LineEnding

end HeadlessEditor
