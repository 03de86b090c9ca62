import HeadlessEditor.Pattern.Basic
import HeadlessEditor.Text.Basic
import Std.Data.HashSet

/-!
How patterns match. A search hands what is left of the text to the way on behind a pattern, and goes
back to the last choice when that leads nowhere. It takes up a choice once at each place: a second
time it would go in circles or fail as before. So repetitions end even where a round takes no
character, and the time is bounded by the number of choices times the length of the text.
-/

namespace HeadlessEditor.Pattern

/-- A place in a text: the character before it, what follows, and its offset. -/
structure Spot where
  previous : Option Char
  rest : Text
  offset : Nat
  deriving DecidableEq, Repr

/-- Whether exactly one side of a place is a word character. -/
def Spot.isWordBoundary (spot : Spot) : Bool :=
  spot.previous.any Unicode.isWordChar != spot.rest.head?.any Unicode.isWordChar

/-- Groups with the start and the end of their part of the text, the latest first. -/
abbrev Captures := List (Nat × Nat × Nat)

/-- The choices that a search has taken up, each with the offset where. -/
abbrev Tried := Std.HashSet (Nat × Nat)

/-- A way on from a place: the end and the groups of the match that it leads to, if any, and the
choices taken up by then. -/
abbrev Route := Spot → Captures → Tried → Option (Nat × Captures) × Tried

namespace Route

def deadEnd : Route := fun _ _ tried => (none, tried)

def arrive : Route := fun spot captures tried => (some (spot.offset, captures), tried)

def orElse (first second : Route) : Route := fun spot captures tried =>
  match first spot captures tried with
  | (none, tried) => second spot captures tried
  | found => found

/-- A choice between going through one more pattern and going on without it. Where it has been taken
up before, it leads nowhere. -/
def choose (number : Nat) (greedy : Bool) (more less : Route) : Route := fun spot captures tried =>
  if tried.contains (number, spot.offset) then (none, tried)
  else
    (if greedy then more.orElse less else less.orElse more) spot captures
      (tried.insert (number, spot.offset))

/-- The choice between another round of a repetition and what follows. It is taken up once at each
place that is left, and once at the end of the text. -/
def again (number : Nat) (greedy : Bool) (once : Route → Route) (next : Route) : Text → Route
  | [], spot, captures, tried => choose number greedy (once deadEnd) next spot captures tried
  | _ :: left, spot, captures, tried =>
    choose number greedy (once (again number greedy once next left)) next spot captures tried

def rounds (number : Nat) (greedy : Bool) (once : Route → Route) (next : Route) : Route :=
  fun spot captures tried =>
    once (again number greedy once next spot.rest) spot captures tried

end Route

open Route

/-- The way through a pattern, whose choices are numbered from `number`, to `next`. Where a round of
a repetition may be empty, having a first round is told apart from having another one, since the
first is worth having even if it is empty. -/
def route : Pattern → Nat → Route → Route
  | empty, _, next => next
  | char set, _, next => fun spot captures tried =>
    match spot.rest with
    | [] => (none, tried)
    | c :: rest =>
      if set.contains c then next ⟨some c, rest, spot.offset + 1⟩ captures tried
      else (none, tried)
  | atStart, _, next => fun spot captures tried =>
    if spot.offset = 0 then next spot captures tried else (none, tried)
  | atEnd, _, next => fun spot captures tried =>
    if spot.rest.isEmpty then next spot captures tried else (none, tried)
  | wordBoundary present, _, next => fun spot captures tried =>
    if spot.isWordBoundary = present then next spot captures tried else (none, tried)
  | seq a b, number, next => a.route number (b.route (number + a.choices) next)
  | alt a b, number, next =>
    choose number true (a.route (number + 1) next) (b.route (number + 1 + a.choices) next)
  | optional greedy a, number, next => choose number greedy (a.route (number + 1) next) next
  | star greedy a, number, next =>
    if a.canBeEmpty then
      choose number greedy (rounds (number + 1) greedy (a.route (number + 2)) next) next
    else fun spot captures tried =>
      again number greedy (a.route (number + 1)) next spot.rest spot captures tried
  | plus greedy a, number, next => rounds number greedy (a.route (number + 1)) next
  | group index a, number, next => fun spot captures tried =>
    a.route number (fun after captures tried =>
      next after ((index, spot.offset, after.offset) :: captures) tried) spot captures tried

structure Match where
  start : Nat
  stop : Nat
  captures : Captures
  deriving DecidableEq, Repr

/-- Where a group of a match starts and ends; group zero is the whole match. -/
def Match.group? (found : Match) (index : Nat) : Option (Nat × Nat) :=
  if index = 0 then some (found.start, found.stop) else found.captures.lookup index

/-- The matches from a place on that start at or after `next`, none of them in another. A match of
no characters does not count right where the last match ended. What has been tried since the last
match led nowhere and is not tried again. -/
def matchesFrom (route : Route) (previous : Option Char) (offset : Nat) (next : Nat)
    (lastStop : Option Nat) (tried : Tried) : Text → List Match
  | [] =>
    if offset < next then []
    else
      match route ⟨previous, [], offset⟩ [] tried with
      | (some (stop, captures), _) =>
        if lastStop = some offset then [] else [⟨offset, stop, captures⟩]
      | (none, _) => []
  | c :: rest =>
    if offset < next then matchesFrom route (some c) (offset + 1) next lastStop tried rest
    else
      match route ⟨previous, c :: rest, offset⟩ [] tried with
      | (some (stop, captures), _) =>
        if stop = offset ∧ lastStop = some offset then
          matchesFrom route (some c) (offset + 1) next lastStop ∅ rest
        else
          ⟨offset, stop, captures⟩ :: matchesFrom route (some c) (offset + 1)
            (max stop (offset + 1)) (some stop) ∅ rest
      | (none, tried) => matchesFrom route (some c) (offset + 1) next lastStop tried rest

def matchesIn (pattern : Pattern) (text : Text) : List Match :=
  matchesFrom (pattern.route 0 arrive) none 0 0 none ∅ text

end HeadlessEditor.Pattern
