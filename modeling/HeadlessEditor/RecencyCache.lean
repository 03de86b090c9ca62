/-!
A bounded memory that forgets what has not been used for longest. Entries stand in order of use,
the latest first, so that forgetting is cutting off the end.
-/

namespace HeadlessEditor

/-- At most `capacity` values under distinct keys, the latest used first. -/
structure RecencyCache (κ ν : Type) where
  capacity : Nat
  entries : List (κ × ν)

namespace RecencyCache

variable {κ ν : Type} [DecidableEq κ]

/-- An empty cache for `capacity` entries, for one if that is zero. -/
def new (capacity : Nat) : RecencyCache κ ν := ⟨max capacity 1, []⟩

def size (cache : RecencyCache κ ν) : Nat := cache.entries.length

/-- The value of a key; looking does not count as use. -/
def peek? (cache : RecencyCache κ ν) (key : κ) : Option ν := cache.entries.lookup key

/-- Stores a value as the latest used, in place of an older one or of the one unused longest. -/
def put (cache : RecencyCache κ ν) (key : κ) (value : ν) : RecencyCache κ ν :=
  { cache with
    entries := ((key, value) :: cache.entries.filter (·.1 ≠ key)).take cache.capacity }

def touch (cache : RecencyCache κ ν) (key : κ) : RecencyCache κ ν :=
  match cache.peek? key with
  | none => cache
  | some value => cache.put key value

end RecencyCache

end HeadlessEditor
