import HeadlessEditor.Pattern.Matcher
import HeadlessEditor.Syntax.Token

/-!
Highlighting by rules. Each rule is matched on each line by itself. Of matches that overlap, the one
that starts first stays, and of those that start together the one of the earlier rule.
-/

namespace HeadlessEditor

structure HighlightRule where
  matcher : Matcher
  className : String
  /-- The group that gets the class; group zero is the whole match. -/
  group : Nat

structure Highlighter where
  rules : List HighlightRule

namespace Highlighter

structure Candidate where
  rule : Nat
  token : Token
  deriving DecidableEq, Repr

/-- The token that covers the bytes from `start` to `stop` of a line that starts at `lineStart`, if it
covers a character. -/
def tokenOfBytes (lineStart : Nat) (line : Text) (start stop : Nat) (className : String) :
    Option Token :=
  if stop ≤ start ∨ line.utf8.length < stop then none
  else if line.charCount stop ≤ line.charCount start then none
  else some ⟨lineStart + line.charCount start, lineStart + line.charCount stop, className⟩

def tokenOf (rule : HighlightRule) (lineStart : Nat) (line : Text) (found : Pattern.Match) :
    Option Token :=
  (found.group? rule.group).bind fun (start, stop) =>
    tokenOfBytes lineStart line start stop rule.className

/-- The tokens that the rule number `index` proposes on a line. -/
def ruleCandidates (index : Nat) (rule : HighlightRule) (lineStart : Nat) (line : Text) :
    List Candidate :=
  (rule.matcher.matchesIn line).filterMap fun found =>
    (tokenOf rule lineStart line found).map (⟨index, ·⟩)

def lineCandidates (index : Nat) (lineStart : Nat) (line : Text) :
    List HighlightRule → List Candidate
  | [] => []
  | rule :: rest =>
    ruleCandidates index rule lineStart line ++ lineCandidates (index + 1) lineStart line rest

/-- The tokens that all rules propose on lines, the first of which starts at `lineStart`. -/
def candidates (highlighter : Highlighter) (lineStart : Nat) : List Text → List Candidate
  | [] => []
  | line :: rest =>
    lineCandidates 0 lineStart line highlighter.rules
      ++ highlighter.candidates (lineStart + line.length + 1) rest

def Candidate.before (a b : Candidate) : Bool :=
  a.token.start < b.token.start || (a.token.start == b.token.start && a.rule ≤ b.rule)

/-- Keeps candidates that start at or after the end of the last one kept, which is `lastStop` at
first. -/
def keepApart (lastStop : Nat) : List Candidate → List Candidate
  | [] => []
  | candidate :: rest =>
    if lastStop ≤ candidate.token.start then
      candidate :: keepApart candidate.token.stop rest
    else keepApart lastStop rest

def kept (highlighter : Highlighter) (text : Text) : List Candidate :=
  keepApart 0 ((highlighter.candidates 0 text.lines).mergeSort Candidate.before)

def highlight (highlighter : Highlighter) (text : Text) : List Token :=
  (highlighter.kept text).map (·.token)

end Highlighter

end HeadlessEditor
