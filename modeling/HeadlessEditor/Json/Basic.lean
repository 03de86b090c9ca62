/-!
JSON values. Numbers that are written as integers stay apart from those with a point or an exponent.
As it is read, an object lists its members as written; `Json.canonical` sorts them by key and
keeps the last of those with one key, which is the form in which values are compared and stored.
-/

namespace HeadlessEditor

inductive Json where
  | null
  | bool (value : Bool)
  | int (value : Int)
  | real (value : Float)
  | string (value : String)
  | array (items : List Json)
  | object (members : List (String × Json))
  deriving Inhabited

namespace Json

/-- Members with `key` in its place by order, in place of an older member of that key. -/
def insertMember (key : String) (value : Json) : List (String × Json) → List (String × Json)
  | [] => [(key, value)]
  | member :: rest =>
    if key = member.1 then (key, value) :: rest
    else if key < member.1 then (key, value) :: member :: rest
    else member :: insertMember key value rest

mutual

/-- The value with the members of all its objects sorted, the last of each key kept. -/
def canonical : Json → Json
  | array items => array (canonicalItems items)
  | object members => object (canonicalMembers [] members)
  | value => value

def canonicalItems : List Json → List Json
  | [] => []
  | item :: rest => canonical item :: canonicalItems rest

def canonicalMembers (sorted : List (String × Json)) :
    List (String × Json) → List (String × Json)
  | [] => sorted
  | (key, value) :: rest => canonicalMembers (insertMember key (canonical value) sorted) rest

end

mutual

/-- Equality of values. Floating-point numbers are equal as numbers. -/
def same : Json → Json → Bool
  | null, null => true
  | bool a, bool b => a == b
  | int a, int b => a == b
  | real a, real b => a == b
  | string a, string b => a == b
  | array a, array b => sameItems a b
  | object a, object b => sameMembers a b
  | _, _ => false

def sameItems : List Json → List Json → Bool
  | [], [] => true
  | a :: as, b :: bs => same a b && sameItems as bs
  | _, _ => false

def sameMembers : List (String × Json) → List (String × Json) → Bool
  | [], [] => true
  | (k, a) :: as, (l, b) :: bs => k == l && same a b && sameMembers as bs
  | _, _ => false

end

def isObject : Json → Bool
  | object _ => true
  | _ => false

def member? (key : String) : Json → Option Json
  | object members => members.lookup key
  | _ => none

/-- A floating-point number as a value; JSON has none for infinities and what is not a number. -/
def ofFloat (x : Float) : Json := if x.isFinite then real x else null

@[simp] theorem isObject_ofFloat (x : Float) : (ofFloat x).isObject = false := by
  unfold ofFloat
  split <;> rfl

/-- A count below `2 ^ 64`. -/
def count? : Json → Option Nat
  | int value => if 0 ≤ value ∧ value < 0x10000000000000000 then some value.toNat else none
  | _ => none

/-- A count below `2 ^ 32`. -/
def count32? : Json → Option Nat
  | int value => if 0 ≤ value ∧ value < 0x100000000 then some value.toNat else none
  | _ => none

def int64? : Json → Option Int
  | int value =>
    if -0x8000000000000000 ≤ value ∧ value < 0x8000000000000000 then some value else none
  | _ => none

/-- A floating-point number that JSON has. -/
def finite? (x : Float) : Option Float := if x.isFinite then some x else none

def float? : Json → Option Float
  | int value => finite? (Float.ofInt value)
  | real value => finite? value
  | _ => none

def bool? : Json → Option Bool
  | bool value => some value
  | _ => none

def string? : Json → Option String
  | string value => some value
  | _ => none

def items? : Json → Option (List Json)
  | array items => some items
  | _ => none

def strings? (json : Json) : Option (List String) := json.items?.bind (·.mapM string?)

end Json

end HeadlessEditor
