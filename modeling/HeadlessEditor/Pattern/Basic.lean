import HeadlessEditor.Pattern.CharSet

/-!
Regular expressions. Where a pattern leaves a choice, alternatives are tried from left to right and
repetitions as often as possible first (or as seldom, for lazy ones); the first way to match the
whole is the match. Choices are numbered from left to right, an outer one before those in it, so
that a search can tell them apart.
-/

namespace HeadlessEditor

inductive Pattern where
  | empty
  | char (set : CharSet)
  | atStart
  | atEnd
  /-- A place between a word character and none, or no such place. -/
  | wordBoundary (present : Bool)
  | seq (a b : Pattern)
  | alt (a b : Pattern)
  /-- The pattern or nothing; nothing first, if lazy. -/
  | optional (greedy : Bool) (a : Pattern)
  | star (greedy : Bool) (a : Pattern)
  | plus (greedy : Bool) (a : Pattern)
  /-- A pattern whose part of the text is noted under a number. -/
  | group (index : Nat) (a : Pattern)
  deriving DecidableEq, Repr

namespace Pattern

/-- How many choices a pattern leaves at most. A repetition leaves one behind each round, and one
that may have no rounds leaves another ahead of them. -/
def choices : Pattern → Nat
  | empty | char _ | atStart | atEnd | wordBoundary _ => 0
  | seq a b => a.choices + b.choices
  | alt a b => 1 + a.choices + b.choices
  | optional _ a | plus _ a => 1 + a.choices
  | star _ a => 2 + a.choices
  | group _ a => a.choices

def canBeEmpty : Pattern → Bool
  | empty | atStart | atEnd | wordBoundary _ | optional _ _ | star _ _ => true
  | char _ => false
  | seq a b => a.canBeEmpty && b.canBeEmpty
  | alt a b => a.canBeEmpty || b.canBeEmpty
  | plus _ a | group _ a => a.canBeEmpty

def chain : List Pattern → Pattern
  | [] => empty
  | [a] => a
  | a :: rest => seq a (chain rest)

/-- The first pattern of several that lets the rest match. -/
def choice : List Pattern → Pattern
  | [] => char .empty
  | [a] => a
  | a :: rest => alt a (choice rest)

def links : Pattern → List Pattern
  | empty => []
  | seq a b => a.links ++ b.links
  | a => [a]

def branches : Pattern → List Pattern
  | alt a b => a.branches ++ b.branches
  | a => [a]

end Pattern

end HeadlessEditor
