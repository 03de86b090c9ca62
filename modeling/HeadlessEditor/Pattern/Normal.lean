import HeadlessEditor.Pattern.Basic

/-!
Patterns put together in normal form. Chains and choices in chains and choices are dissolved,
alternatives of one character each become a set, a repetition of what takes no characters has one
round, and alternatives that begin alike share that beginning. Sharing also decides what is found:
the beginning settles on its part of the text before an alternative is chosen.
-/

namespace HeadlessEditor.Pattern

/-- Whether the pattern can only match without a character. -/
def takesNothing : Pattern → Bool
  | empty | atStart | atEnd | wordBoundary _ => true
  | char _ => false
  | seq a b | alt a b => a.takesNothing && b.takesNothing
  | optional _ a | star _ a | plus _ a | group _ a => a.takesNothing

def anyTimes (greedy : Bool) (a : Pattern) : Pattern :=
  if a.takesNothing then optional greedy a else star greedy a

def onceOrMore (greedy : Bool) (a : Pattern) : Pattern :=
  if a.takesNothing then a else plus greedy a

def joined (patterns : List Pattern) : Pattern := chain (patterns.flatMap links)

def charSet? : Pattern → Option CharSet
  | char set => some set
  | _ => none

def isLiteral : Pattern → Bool
  | char (.one _) => true
  | _ => false

/-- The set of what alternatives match if all of them are literal characters or all of them are
other sets. -/
def mergedSet? (patterns : List Pattern) : Option CharSet := do
  let sets ← patterns.mapM charSet?
  if patterns.all isLiteral || !patterns.any isLiteral then
    some (sets.foldr CharSet.union CharSet.empty).normal
  else none

def firstOf (patterns : List Pattern) : Pattern :=
  let patterns := patterns.flatMap branches
  match mergedSet? patterns with
  | some set => char set
  | none => choice patterns

/-- The links of a pattern, with literal characters side by side in one part. -/
def parts (a : Pattern) : List (List Pattern) :=
  a.links.splitBy fun b c => b.isLiteral && c.isLiteral

def sharedStart {α : Type} [DecidableEq α] : List α → List α → List α
  | a :: as, b :: bs => if a = b then a :: sharedStart as bs else []
  | _, _ => []

/-- The first pattern of several that lets the rest match. If all of them have two parts at least
and begin alike, the parts that they share go ahead of the choice. -/
def alternatives (patterns : List Pattern) : Pattern :=
  match (patterns.flatMap branches).map parts with
  | first :: second :: others =>
    let all := first :: second :: others
    let shared := (second :: others).foldl sharedStart first
    if shared.isEmpty || all.any (·.length < 2) then firstOf patterns
    else
      joined (shared.flatten ++
        [firstOf (all.map fun parts => joined (parts.drop shared.length).flatten)])
  | _ => firstOf patterns

end HeadlessEditor.Pattern
