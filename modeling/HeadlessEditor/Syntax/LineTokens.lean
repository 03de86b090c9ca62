import HeadlessEditor.Document.LineTable
import HeadlessEditor.Syntax.Token

/-!
Tokens line by line, as they are drawn. One sweep over the lines cuts the tokens at line ends; a
token that goes on below its first line is carried along. Lines whose tokens are as they were before
are told apart from changed ones, so that only the latter are drawn again.
-/

namespace HeadlessEditor

structure LineToken where
  startColumn : Nat
  stopColumn : Nat
  className : String
  deriving DecidableEq, Repr, Inhabited

inductive LineEntry where
  | reused (earlier : List LineToken)
  | fresh (tokens : List LineToken)
  deriving DecidableEq, Repr

def LineEntry.tokens : LineEntry → List LineToken
  | reused earlier => earlier
  | fresh tokens => tokens

def LineEntry.isReused : LineEntry → Bool
  | reused _ => true
  | fresh _ => false

/-- The entries of all lines, and the lines that are to be drawn again. -/
structure TokenProjection where
  entries : List LineEntry
  changed : List Nat
  deriving DecidableEq, Repr

/-- The part of a token that is in `[lineStart, lineStop)`, if there is any. -/
def Token.clip (lineStart lineStop : Nat) (token : Token) : Option LineToken :=
  let start := max token.start lineStart
  let stop := min token.stop lineStop
  if start < stop then some ⟨start - lineStart, stop - lineStart, token.className⟩ else none

namespace TokenProjection

def lines (projection : TokenProjection) : List (List LineToken) :=
  projection.entries.map (·.tokens)

def kept (projection : TokenProjection) : List Nat :=
  (List.range projection.entries.length).filter fun line =>
    projection.entries[line]?.any (·.isReused)

/-- Tokens in the order of their starts; those with one start stay as they were. -/
def sorted (tokens : List Token) : List Token :=
  tokens.mergeSort fun a b => a.start ≤ b.start

/-- The tokens of a line and the state for the next one. `carried` holds the tokens that started
further up and may go on, `waiting` those that start here or further down. -/
def sweepLine (lineStart lineStop : Nat) (carried waiting : List Token) :
    List LineToken × List Token × List Token :=
  let startsHere (token : Token) : Bool := token.start < max lineStop (lineStart + 1)
  let carried :=
    (carried.filter (lineStart < ·.stop))
      ++ (waiting.takeWhile startsHere).filter (lineStart < ·.stop)
  (carried.filterMap (·.clip lineStart lineStop), carried, waiting.dropWhile startsHere)

def sweep (table : LineTable) (line : Nat) (carried waiting : List Token) :
    Nat → List (List LineToken)
  | 0 => []
  | count + 1 =>
    let start := table.lineStart line
    let (tokens, carried, waiting) :=
      sweepLine start (start + table.lineLength line) carried waiting
    tokens :: sweep table (line + 1) carried waiting count

/-- The entries of lines that are counted from `line`. An earlier entry that has the same tokens is
used again. -/
def settle (line : Nat) : List (List LineToken) → List (List LineToken) → TokenProjection
  | [], _ => ⟨[], []⟩
  | tokens :: rest, previous =>
    let below := settle (line + 1) rest previous.tail
    match previous.head?.filter (· = tokens) with
    | some earlier => ⟨.reused earlier :: below.entries, below.changed⟩
    | none => ⟨.fresh tokens :: below.entries, line :: below.changed⟩

/-- An entry that is used again has the tokens of the line. -/
theorem lines_settle (line : Nat) (lines previous : List (List LineToken)) :
    (settle line lines previous).lines = lines := by
  induction lines generalizing line previous with
  | nil => rfl
  | cons tokens rest ih =>
    have hbelow := ih (line + 1) previous.tail
    rw [settle]
    split
    · rename_i earlier hearlier
      obtain ⟨-, hsame⟩ := Option.filter_eq_some_iff.1 hearlier
      obtain rfl : earlier = tokens := by simpa using hsame
      exact congrArg (earlier :: ·) hbelow
    · exact congrArg (tokens :: ·) hbelow

/-- Cuts tokens, in any order, into the lines of a document and compares them with the lines of an
earlier cut. -/
def project (tokens : List Token) (table : LineTable) (previous : List (List LineToken)) :
    TokenProjection :=
  settle 0 (sweep table 0 [] (sorted tokens) table.lineCount) previous

theorem lines_project_eq_sweep (tokens : List Token) (table : LineTable)
    (previous : List (List LineToken)) :
    (project tokens table previous).lines = sweep table 0 [] (sorted tokens) table.lineCount :=
  lines_settle _ _ _

end TokenProjection

end HeadlessEditor
