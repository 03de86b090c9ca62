import HeadlessEditor.Pattern.Normal
import HeadlessEditor.Text.Basic

/-!
Reading patterns as they are usually written: `.` for all characters but newlines, `^` and `$` for
the ends of the text, sets in brackets, groups that are numbered by their opening parentheses, `|`,
and `*`, `+`, `?` and counts in braces, lazy with another `?` behind. What is read is put together
in normal form.
-/

namespace HeadlessEditor.Pattern

def escapedSet? : Char → Option CharSet
  | 'd' => some .digit
  | 's' => some .blank
  | 'w' => some .word
  | 'D' => some (.complement .digit)
  | 'S' => some (.complement .blank)
  | 'W' => some (.complement .word)
  | 'n' => some (.one '\n')
  | 't' => some (.one '\t')
  | 'r' => some (.one '\r')
  | 'f' => some (.one '\x0c')
  | 'v' => some (.one '\x0b')
  | 'a' => some (.one '\x07')
  | c => if c.toNat < 0x80 ∧ ¬c.isAlphanum ∧ c ≠ '<' ∧ c ≠ '>' then some (.one c) else none

def escaped? : Char → Option Pattern
  | 'b' => some (.wordBoundary true)
  | 'B' => some (.wordBoundary false)
  | 'A' => some .atStart
  | 'z' => some .atEnd
  | c => (escapedSet? c).map fun set => char set.normal

def setItem? : Text → Option (CharSet × Text)
  | '\\' :: c :: rest => (escapedSet? c).map (·, rest)
  | '\\' :: [] | [] | '[' :: _ => none
  | c :: rest => some (.one c, rest)

/-- Reads a set up to its closing bracket, in so many items at most. -/
def setRest? (set : CharSet) : Nat → Text → Option (CharSet × Text)
  | _, ']' :: rest => some (set, rest)
  | 0, _ => none
  | bound + 1, text => do
    let (item, rest) ← setItem? text
    match item, rest with
    | .one lo, '-' :: ']' :: rest =>
      setRest? (.union (.union set (.one lo)) (.one '-')) bound (']' :: rest)
    | .one lo, '-' :: rest =>
      let (.one hi, rest) ← setItem? rest | none
      if lo ≤ hi then setRest? (.union set (.range lo hi)) bound rest else none
    | item, rest => setRest? (.union set item) bound rest

/-- Reads a set after its opening bracket. A closing bracket that comes first is a member. -/
def set? (text : Text) : Option (CharSet × Text) := do
  let (negated, text) := match text with
    | '^' :: rest => (true, rest)
    | text => (false, text)
  let (start, text) := match text with
    | ']' :: rest => (CharSet.one ']', rest)
    | text => (CharSet.empty, text)
  let (set, rest) ← setRest? start text.length text
  return (if negated then .complement set else set, rest)

def number? (text : Text) : Option (Nat × Text) :=
  let (digits, rest) := text.span Char.isDigit
  if digits.isEmpty then none
  else some (digits.foldl (fun n d => n * 10 + (d.toNat - '0'.toNat)) 0, rest)

/-- Reads a count after its opening brace: the least and the greatest number of times. -/
def count? (text : Text) : Option ((Nat × Option Nat) × Text) := do
  let (least, rest) ← number? text
  match rest with
  | '}' :: rest => return ((least, some least), rest)
  | ',' :: '}' :: rest => return ((least, none), rest)
  | ',' :: rest =>
    let (greatest, rest) ← number? rest
    match rest with
    | '}' :: rest => if least ≤ greatest then return ((least, some greatest), rest) else none
    | _ => none
  | _ => none

def exactly (a : Pattern) : Nat → Pattern
  | 0 => empty
  | n + 1 => joined [a, exactly a n]

def atMost (greedy : Bool) (a : Pattern) : Nat → Pattern
  | 0 => empty
  | n + 1 => optional greedy (joined [a, atMost greedy a n])

def counted (greedy : Bool) (a : Pattern) (least : Nat) : Option Nat → Pattern
  | none =>
    if least = 0 then anyTimes greedy a
    else joined [exactly a (least - 1), onceOrMore greedy a]
  | some greatest => joined [exactly a least, atMost greedy a (greatest - least)]

def greedy (text : Text) : Bool × Text :=
  match text with
  | '?' :: rest => (false, rest)
  | text => (true, text)

def repetitions? (a : Pattern) : Nat → Text → Option (Pattern × Text)
  | 0, text => some (a, text)
  | bound + 1, text =>
    match text with
    | '*' :: rest => let (g, rest) := greedy rest; repetitions? (anyTimes g a) bound rest
    | '+' :: rest => let (g, rest) := greedy rest; repetitions? (onceOrMore g a) bound rest
    | '?' :: rest => let (g, rest) := greedy rest; repetitions? (optional g a) bound rest
    | '\x7b' :: rest => do
      let ((least, greatest), rest) ← count? rest
      let (g, rest) := greedy rest
      repetitions? (counted g a least greatest) bound rest
    | text => some (a, text)

/-- What an opening parenthesis begins: the text of the group, and whether it is numbered. -/
def groupStart? (text : Text) : Option (Bool × Text) :=
  let named (text : Text) : Option (Bool × Text) :=
    match text.span (· ≠ '>') with
    | (c :: _, '>' :: rest) => if c.isDigit then none else some (true, rest)
    | _ => none
  match text with
  | '?' :: ':' :: rest => some (false, rest)
  | '?' :: 'P' :: '<' :: rest => named rest
  | '?' :: '<' :: rest => named rest
  | '?' :: _ => none
  | text => some (true, text)

mutual

/-- Reads alternatives up to a closing parenthesis or the end, in so many steps at most. `groups`
counts the groups so far. -/
def alternatives? : Nat → Nat → Text → Option (List Pattern × Nat × Text)
  | 0, _, _ => none
  | bound + 1, groups, text => do
    let (first, groups, rest) ← sequence? bound groups text
    match rest with
    | '|' :: rest =>
      let (others, groups, rest) ← alternatives? bound groups rest
      return (joined first :: others, groups, rest)
    | rest => return ([joined first], groups, rest)

def sequence? : Nat → Nat → Text → Option (List Pattern × Nat × Text)
  | 0, _, _ => none
  | bound + 1, groups, text => do
    match text with
    | [] | '|' :: _ | ')' :: _ => return ([], groups, text)
    | text =>
      let (item, groups, rest) ← item? bound groups text
      let (item, rest) ← repetitions? item rest.length rest
      let (others, groups, rest) ← sequence? bound groups rest
      return (item :: others, groups, rest)

def item? : Nat → Nat → Text → Option (Pattern × Nat × Text)
  | 0, _, _ => none
  | bound + 1, groups, text => do
    match text with
    | '(' :: rest =>
      let (numbered, rest) ← groupStart? rest
      let index := groups + 1
      let (inner, groups, rest) ←
        alternatives? bound (if numbered then index else groups) rest
      let inner := alternatives inner
      match rest with
      | ')' :: rest => return (if numbered then group index inner else inner, groups, rest)
      | _ => none
    | '[' :: rest =>
      let (set, rest) ← set? rest
      return (char set.normal, groups, rest)
    | '.' :: rest => return (char (CharSet.complement (.one '\n')).normal, groups, rest)
    | '^' :: rest => return (atStart, groups, rest)
    | '$' :: rest => return (atEnd, groups, rest)
    | '\\' :: c :: rest => return (← escaped? c, groups, rest)
    | '\\' :: [] | '*' :: _ | '+' :: _ | '?' :: _ | '\x7b' :: _ | [] => none
    | c :: rest => return (char (.one c), groups, rest)

end

/-- Reads a pattern; `none` if the text is none. Three steps at most go by for each character. -/
def parse? (text : Text) : Option Pattern := do
  let (patterns, _, rest) ← alternatives? (3 * text.length + 3) 0 text
  if rest.isEmpty then some (alternatives patterns) else none

end HeadlessEditor.Pattern
