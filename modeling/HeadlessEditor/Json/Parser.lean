import HeadlessEditor.Json.Number

/-!
Reading JSON text. A text holds one value and blanks around it. Strings may hold neither raw control
characters nor halves of a surrogate pair, and values nest at most 127 deep.
-/

namespace HeadlessEditor.Json

def isSpace (c : Char) : Bool := c == ' ' || c == '\n' || c == '\t' || c == '\r'

def skipSpaces (text : Text) : Text := text.dropWhile isSpace

def hexValue? (c : Char) : Option Nat :=
  if '0' ≤ c ∧ c ≤ '9' then some (c.toNat - '0'.toNat)
  else if 'a' ≤ c ∧ c ≤ 'f' then some (c.toNat - 'a'.toNat + 10)
  else if 'A' ≤ c ∧ c ≤ 'F' then some (c.toNat - 'A'.toNat + 10)
  else none

/-- The unit that four hexadecimal digits name. -/
def unit? (a b c d : Char) : Option Nat := do
  return (((← hexValue? a) * 16 + (← hexValue? b)) * 16 + (← hexValue? c)) * 16 + (← hexValue? d)

/-- The character that one letter after a backslash stands for. -/
def simpleEscape? : Char → Option Char
  | '"' => some '"'
  | '\\' => some '\\'
  | '/' => some '/'
  | 'b' => some '\x08'
  | 'f' => some '\x0c'
  | 'n' => some '\n'
  | 'r' => some '\r'
  | 't' => some '\t'
  | _ => none

/-- Reads a string after its opening quote. Characters come in reverse in `read`. -/
def stringRest? (read : List Char) : Text → Option (String × Text)
  | [] => none
  | '"' :: rest => some (String.ofList read.reverse, rest)
  | '\\' :: 'u' :: a :: b :: c :: d :: rest => do
    let high ← unit? a b c d
    if high < 0xd800 ∨ 0xdfff < high then stringRest? (Char.ofNat high :: read) rest
    else
      match rest with
      | '\\' :: 'u' :: a :: b :: c :: d :: rest =>
        let low ← unit? a b c d
        if high < 0xdc00 ∧ 0xdc00 ≤ low ∧ low ≤ 0xdfff then
          let code := 0x10000 + (high - 0xd800) * 0x400 + (low - 0xdc00)
          stringRest? (Char.ofNat code :: read) rest
        else none
      | _ => none
  | '\\' :: c :: rest => do stringRest? ((← simpleEscape? c) :: read) rest
  | c :: rest => if c.toNat < 0x20 ∨ c = '\\' then none else stringRest? (c :: read) rest

def afterWord? (word : List Char) (text : Text) : Option Text :=
  if word.isPrefixOf text then some (text.drop word.length) else none

mutual

/-- Reads a value that may hold `depth - 1` levels more, in so many steps at most. -/
def valueRest? : Nat → Nat → Text → Option (Json × Text)
  | 0, _, _ => none
  | steps + 1, depth, text =>
    match skipSpaces text with
    | [] => none
    | '"' :: rest => (stringRest? [] rest).map fun (s, rest) => (string s, rest)
    | '[' :: rest =>
      if depth ≤ 1 then none
      else
        match skipSpaces rest with
        | ']' :: rest => some (array [], rest)
        | rest => (itemsRest? steps (depth - 1) rest).map fun (items, rest) => (array items, rest)
    | '{' :: rest =>
      if depth ≤ 1 then none
      else
        match skipSpaces rest with
        | '}' :: rest => some (object [], rest)
        | rest =>
          (membersRest? steps (depth - 1) rest).map fun (members, rest) => (object members, rest)
    | 'n' :: rest => (afterWord? ['u', 'l', 'l'] rest).map (null, ·)
    | 't' :: rest => (afterWord? ['r', 'u', 'e'] rest).map (bool true, ·)
    | 'f' :: rest => (afterWord? ['a', 'l', 's', 'e'] rest).map (bool false, ·)
    | text => do
      let (number, rest) ← NumberText.read? text
      return (← number.value?, rest)

def itemsRest? : Nat → Nat → Text → Option (List Json × Text)
  | 0, _, _ => none
  | steps + 1, depth, text => do
    let (item, rest) ← valueRest? steps depth text
    match skipSpaces rest with
    | ',' :: rest =>
      let (items, rest) ← itemsRest? steps depth rest
      return (item :: items, rest)
    | ']' :: rest => return ([item], rest)
    | _ => none

def membersRest? : Nat → Nat → Text → Option (List (String × Json) × Text)
  | 0, _, _ => none
  | steps + 1, depth, text => do
    match skipSpaces text with
    | '"' :: rest =>
      let (key, rest) ← stringRest? [] rest
      match skipSpaces rest with
      | ':' :: rest =>
        let (value, rest) ← valueRest? steps depth rest
        match skipSpaces rest with
        | ',' :: rest =>
          let (members, rest) ← membersRest? steps depth rest
          return ((key, value) :: members, rest)
        | '}' :: rest => return ([(key, value)], rest)
        | _ => none
      | _ => none
    | _ => none

end

/-- The value that a text holds, its objects as written. Each step but one in two reads a
character, which bounds their number. -/
def parse? (text : Text) : Option Json := do
  let (value, rest) ← valueRest? (2 * text.length + 2) 128 text
  if (skipSpaces rest).isEmpty then some value else none

end HeadlessEditor.Json
