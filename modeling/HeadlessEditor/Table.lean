/-!
Finite maps that keep the order in which their keys came. A table never holds a key twice.
-/

namespace HeadlessEditor

/-- Values under distinct keys, in the order in which the keys came. -/
structure Table (κ ν : Type) where
  entries : List (κ × ν)

namespace Table

variable {κ ν : Type} [DecidableEq κ]

def empty : Table κ ν := ⟨[]⟩

instance : Inhabited (Table κ ν) := ⟨⟨[]⟩⟩

def size (table : Table κ ν) : Nat := table.entries.length

def keys (table : Table κ ν) : List κ := table.entries.map (·.1)

def values (table : Table κ ν) : List ν := table.entries.map (·.2)

def get? (table : Table κ ν) (key : κ) : Option ν := table.entries.lookup key

def contains (table : Table κ ν) (key : κ) : Bool := (table.get? key).isSome

def insertEntry (key : κ) (value : ν) : List (κ × ν) → List (κ × ν)
  | [] => [(key, value)]
  | entry :: rest =>
    if entry.1 = key then (key, value) :: rest else entry :: insertEntry key value rest

/-- Gives a key a value; a key that is there keeps its place. -/
def insert (table : Table κ ν) (key : κ) (value : ν) : Table κ ν :=
  ⟨insertEntry key value table.entries⟩

def erase (table : Table κ ν) (key : κ) : Table κ ν := ⟨table.entries.filter (·.1 ≠ key)⟩

def filter (table : Table κ ν) (test : κ → ν → Bool) : Table κ ν :=
  ⟨table.entries.filter fun entry => test entry.1 entry.2⟩

@[simp] theorem get?_empty (key : κ) : (empty : Table κ ν).get? key = none := rfl

theorem lookup_cons_of_ne {key other : κ} (h : other ≠ key) (value : ν) (entries : List (κ × ν)) :
    ((key, value) :: entries).lookup other = entries.lookup other := by
  rw [List.lookup_cons, beq_eq_false_iff_ne.2 h]

theorem lookup_insertEntry (key other : κ) (value : ν) (entries : List (κ × ν)) :
    (insertEntry key value entries).lookup other
      = if other = key then some value else entries.lookup other := by
  induction entries with
  | nil =>
    by_cases ho : other = key
    · subst ho; simp [insertEntry]
    · simp [insertEntry, lookup_cons_of_ne ho, ho]
  | cons entry rest ih =>
    obtain ⟨k, v⟩ := entry
    simp only [insertEntry]
    by_cases hk : k = key
    · subst hk
      by_cases ho : other = k
      · subst ho; simp
      · simp [lookup_cons_of_ne ho, ho]
    · by_cases ho : other = k
      · subst ho; simp [hk]
      · simp [hk, lookup_cons_of_ne ho, ih]

@[simp] theorem get?_insert (table : Table κ ν) (key other : κ) (value : ν) :
    (table.insert key value).get? other = if other = key then some value else table.get? other :=
  lookup_insertEntry key other value table.entries

theorem lookup_filter_key (key other : κ) (entries : List (κ × ν)) :
    (entries.filter (·.1 ≠ key)).lookup other
      = if other = key then none else entries.lookup other := by
  induction entries with
  | nil => simp
  | cons entry rest ih =>
    obtain ⟨k, v⟩ := entry
    by_cases hk : k = key
    · subst hk
      by_cases ho : other = k
      · simpa [ho] using ih
      · simpa [lookup_cons_of_ne ho, ho] using ih
    · by_cases ho : other = k
      · subst ho; simp [hk]
      · simpa [hk, lookup_cons_of_ne ho] using ih

theorem mem_of_get? {table : Table κ ν} {key : κ} {value : ν} (h : table.get? key = some value) :
    (key, value) ∈ table.entries := by
  obtain ⟨before, after, he, -⟩ := List.lookup_eq_some_iff.1 h
  simp [he]

theorem mem_insertEntry {key : κ} {value : ν} {entries : List (κ × ν)} {entry : κ × ν}
    (h : entry ∈ insertEntry key value entries) : entry = (key, value) ∨ entry ∈ entries := by
  induction entries with
  | nil => simpa [insertEntry] using h
  | cons first rest ih =>
    simp only [insertEntry] at h
    split at h
    · rcases List.mem_cons.1 h with h | h
      · exact Or.inl h
      · exact Or.inr (List.mem_cons_of_mem _ h)
    · rcases List.mem_cons.1 h with h | h
      · exact Or.inr (h ▸ List.mem_cons_self)
      · exact (ih h).imp_right (List.mem_cons_of_mem _)

/-- A key that is there keeps its place. -/
theorem keys_insert_of_mem {table : Table κ ν} {key : κ} (h : key ∈ table.keys) (value : ν) :
    (table.insert key value).keys = table.keys := by
  obtain ⟨entries⟩ := table
  simp only [insert, keys] at h ⊢
  induction entries with
  | nil => simp at h
  | cons first rest ih =>
    by_cases hkey : first.1 = key
    · simp [insertEntry, hkey]
    · have hne : key ≠ first.1 := fun he => hkey he.symm
      have hrest := ih ((List.mem_cons.1 h).resolve_left hne)
      simp [insertEntry, hkey, hrest]

/-- A new entry goes to the end. -/
theorem entries_insert_of_notMem {table : Table κ ν} {key : κ} (h : key ∉ table.keys) (value : ν) :
    (table.insert key value).entries = table.entries ++ [(key, value)] := by
  obtain ⟨entries⟩ := table
  simp only [insert, keys] at h ⊢
  induction entries with
  | nil => simp [insertEntry]
  | cons first rest ih =>
    have hne : first.1 ≠ key := fun he => h (List.mem_cons.2 (Or.inl he.symm))
    have hrest := ih fun hin => h (List.mem_cons_of_mem _ hin)
    simp [insertEntry, hne, hrest]

/-- A new key goes to the end. -/
theorem keys_insert_of_notMem {table : Table κ ν} {key : κ} (h : key ∉ table.keys) (value : ν) :
    (table.insert key value).keys = table.keys ++ [key] := by
  rw [keys, entries_insert_of_notMem h, List.map_append]
  rfl

theorem contains_iff {table : Table κ ν} {key : κ} : table.contains key ↔ key ∈ table.keys := by
  simp only [contains, get?, List.lookup_isSome_iff, keys, List.mem_map, beq_iff_eq]
  constructor
  · rintro ⟨entry, hmem, hkey⟩
    exact ⟨entry, hmem, hkey.symm⟩
  · rintro ⟨entry, hmem, hkey⟩
    exact ⟨entry, hmem, hkey.symm⟩

theorem keys_erase (table : Table κ ν) (key : κ) :
    (table.erase key).keys = table.keys.filter (· ≠ key) := by
  rw [keys, keys, erase, List.filter_map]
  rfl

theorem contains_eq_false_iff {table : Table κ ν} {key : κ} :
    table.contains key = false ↔ key ∉ table.keys := by
  rw [← Bool.not_eq_true, contains_iff]

theorem lookup_eq_none_iff {key : κ} {entries : List (κ × ν)} :
    entries.lookup key = none ↔ key ∉ entries.map (·.1) := by
  simp only [List.lookup_eq_none_iff, List.mem_map, bne_iff_ne, ne_eq, not_exists, not_and]
  exact forall₂_congr fun _ _ => not_congr eq_comm

theorem get?_eq_none_iff {table : Table κ ν} {key : κ} : table.get? key = none ↔ key ∉ table.keys :=
  lookup_eq_none_iff

/-- Giving a key its old value back undoes the change. -/
theorem insert_insert_of_get? {table : Table κ ν} {key : κ} {old : ν} (h : table.get? key = some old)
    (value : ν) : (table.insert key value).insert key old = table := by
  obtain ⟨entries⟩ := table
  simp only [insert, get?, mk.injEq] at h ⊢
  induction entries with
  | nil => cases h
  | cons first rest ih =>
    obtain ⟨other, kept⟩ := first
    by_cases hkey : other = key
    · subst hkey
      rw [List.lookup_cons_self] at h
      obtain rfl := Option.some.inj h
      simp [insertEntry]
    · rw [lookup_cons_of_ne (Ne.symm hkey)] at h
      simp [insertEntry, hkey, ih h]

/-- Taking a new key out again undoes its entry. -/
theorem erase_insert_of_notMem {table : Table κ ν} {key : κ} (h : key ∉ table.keys) (value : ν) :
    (table.insert key value).erase key = table := by
  have hkept : ∀ entry ∈ table.entries, entry.1 ≠ key := by
    rintro entry hentry rfl
    exact h (List.mem_map_of_mem hentry)
  obtain ⟨entries⟩ := table
  rw [erase, entries_insert_of_notMem h, List.filter_append, mk.injEq]
  simpa using hkept

theorem nodup_keys_insert {table : Table κ ν} (h : table.keys.Nodup) (key : κ) (value : ν) :
    (table.insert key value).keys.Nodup := by
  by_cases hkey : key ∈ table.keys
  · rw [keys_insert_of_mem hkey]
    exact h
  · rw [keys_insert_of_notMem hkey]
    refine List.nodup_append.2 ⟨h, List.pairwise_singleton _ _, ?_⟩
    rintro first hfirst second hsecond rfl
    exact hkey (List.mem_singleton.1 hsecond ▸ hfirst)

/-- With distinct keys, an entry that fails the test hides no other. -/
theorem get?_filter {table : Table κ ν} (h : table.keys.Nodup) (test : κ → ν → Bool) (key : κ) :
    (table.filter test).get? key = (table.get? key).filter (test key) := by
  obtain ⟨entries⟩ := table
  simp only [filter, get?, keys] at h ⊢
  induction entries with
  | nil => rfl
  | cons entry rest ih =>
    obtain ⟨other, value⟩ := entry
    obtain ⟨hother, hrest⟩ := List.nodup_cons.1 h
    by_cases hkey : key = other
    · subst hkey
      have hnone : rest.lookup key = none := lookup_eq_none_iff.2 hother
      by_cases htest : test key value
      · simp [htest, Option.filter]
      · simp [htest, ih hrest, hnone, Option.filter]
    · by_cases htest : test other value
      · simp [htest, lookup_cons_of_ne hkey, ih hrest]
      · simp [htest, lookup_cons_of_ne hkey, ih hrest]

/-- With distinct keys, a key has no other entry. -/
theorem filter_key_eq {table : Table κ ν} (h : table.keys.Nodup) (key : κ) :
    table.entries.filter (·.1 = key) = ((table.get? key).map (key, ·)).toList := by
  obtain ⟨entries⟩ := table
  simp only [get?, keys] at h ⊢
  induction entries with
  | nil => rfl
  | cons entry rest ih =>
    obtain ⟨other, value⟩ := entry
    obtain ⟨hother, hrest⟩ := List.nodup_cons.1 h
    by_cases hkey : key = other
    · subst hkey
      have hnone : rest.lookup key = none := lookup_eq_none_iff.2 hother
      simp [ih hrest, hnone]
    · simp [lookup_cons_of_ne hkey, Ne.symm hkey, ih hrest]

@[simp] theorem get?_erase (table : Table κ ν) (key other : κ) :
    (table.erase key).get? other = if other = key then none else table.get? other :=
  lookup_filter_key key other table.entries

end Table

end HeadlessEditor
