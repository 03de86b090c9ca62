import HeadlessEditor.RecencyCache
import Mathlib.Data.Finset.Card
import Mathlib.Data.List.TakeWhile
import Mathlib.Tactic.Tauto

/-!
What a recency cache holds after any uses. Without a bound it would hold the latest use of every key;
with one it holds the first of these, so a value is forgotten exactly when as many other keys as the
cache has room for were used after it. All that is said elsewhere of remembered carets and tokens rests
on how `Holds` goes on with a use and what is found then, not on how the cache is made.
-/

namespace HeadlessEditor.RecencyCache

variable {κ ν : Type}

def keysOf (uses : List (κ × ν)) : List κ := uses.map (·.1)

@[simp] theorem keysOf_nil : keysOf ([] : List (κ × ν)) = [] := rfl

@[simp] theorem keysOf_cons (use : κ × ν) (uses : List (κ × ν)) :
    keysOf (use :: uses) = use.1 :: keysOf uses := rfl

variable [DecidableEq κ]

theorem mem_keysOf_filter (entries : List (κ × ν)) (key used : κ) :
    key ∈ keysOf (entries.filter (·.1 ≠ used)) ↔ key ≠ used ∧ key ∈ keysOf entries := by
  simp only [keysOf, List.mem_map, List.mem_filter, decide_eq_true_eq]
  constructor
  · rintro ⟨entry, ⟨hentry, hne⟩, rfl⟩
    exact ⟨hne, entry, hentry, rfl⟩
  · rintro ⟨hne, entry, hentry, rfl⟩
    exact ⟨entry, ⟨hentry, hne⟩, rfl⟩

/-- The latest use of every key, the latest of all first. -/
def latest : List (κ × ν) → List (κ × ν)
  | [] => []
  | (key, value) :: earlier => (key, value) :: (latest earlier).filter (·.1 ≠ key)

theorem mem_keysOf_latest (uses : List (κ × ν)) (key : κ) :
    key ∈ keysOf (latest uses) ↔ key ∈ keysOf uses := by
  induction uses with
  | nil => rfl
  | cons use earlier ih =>
    obtain ⟨used, value⟩ := use
    rw [latest, keysOf_cons, keysOf_cons, List.mem_cons, List.mem_cons, mem_keysOf_filter, ih]
    tauto

theorem nodup_latest (uses : List (κ × ν)) : (keysOf (latest uses)).Nodup := by
  induction uses with
  | nil => exact List.nodup_nil
  | cons use earlier ih =>
    rw [latest, keysOf_cons, List.nodup_cons]
    refine ⟨fun hmem => ((mem_keysOf_filter _ _ _).1 hmem).1 rfl, ?_⟩
    exact ih.sublist (List.filter_sublist.map _)

theorem length_latest (uses : List (κ × ν)) :
    (latest uses).length = (keysOf uses).toFinset.card := by
  have hkeys : (keysOf (latest uses)).toFinset = (keysOf uses).toFinset := by
    ext key
    simp only [List.mem_toFinset, mem_keysOf_latest]
  rw [← hkeys, List.toFinset_card_of_nodup (nodup_latest uses), keysOf, List.length_map]

/-- A key not used since keeps its place behind the keys that were. -/
theorem latest_append (since earlier : List (κ × ν)) :
    latest (since ++ earlier)
      = latest since ++ (latest earlier).filter (·.1 ∉ keysOf since) := by
  induction since with
  | nil => simp [latest]
  | cons use since ih =>
    obtain ⟨key, value⟩ := use
    rw [List.cons_append, latest, ih, latest, List.filter_append, List.filter_filter,
      List.cons_append]
    congr 3
    ext entry
    simp only [keysOf_cons, List.mem_cons, not_or, Bool.decide_and]

/-- Cutting off the end before a key is taken out or after it makes no difference to the entries that
stay when the key is used anew. -/
theorem take_filter_take (entries : List (κ × ν)) (h : (keysOf entries).Nodup) (key : κ)
    (room : Nat) :
    ((entries.take (room + 1)).filter (·.1 ≠ key)).take room
      = (entries.filter (·.1 ≠ key)).take room := by
  induction entries generalizing room with
  | nil => rfl
  | cons entry rest ih =>
    rw [keysOf_cons, List.nodup_cons] at h
    by_cases hkey : entry.1 = key
    · have hout : ∀ other ∈ rest, decide (other.1 ≠ key) = true := by
        rintro other hother
        rw [decide_eq_true_eq, ← hkey]
        rintro heq
        exact h.1 (List.mem_map.2 ⟨other, hother, heq⟩)
      have hrest : rest.filter (·.1 ≠ key) = rest := List.filter_eq_self.2 hout
      have htaken : (rest.take room).filter (·.1 ≠ key) = rest.take room :=
        List.filter_eq_self.2 fun other hother => hout other (List.mem_of_mem_take hother)
      simp only [List.take_succ_cons, List.filter_cons, hkey, ne_eq, not_true_eq_false,
        decide_false, Bool.false_eq_true, if_false]
      simp only [ne_eq] at hrest htaken
      rw [hrest, htaken, List.take_take, Nat.min_self]
    · cases room with
      | zero => rfl
      | succ room =>
        have hrest := ih h.2 room
        simp only [List.take_succ_cons, List.filter_cons, hkey, ne_eq, not_false_eq_true,
          decide_true, if_true] at hrest ⊢
        rw [hrest]

theorem lookup_eq_none_of_notMem {entries : List (κ × ν)} {key : κ} (h : key ∉ keysOf entries) :
    entries.lookup key = none := by
  rw [List.lookup_eq_none_iff]
  intro entry hentry
  have hne : key ≠ entry.1 := fun heq => h (heq ▸ List.mem_map_of_mem hentry)
  simpa using hne

theorem lookup_take_latest_of_notMem {uses : List (κ × ν)} {key : κ} (h : key ∉ keysOf uses)
    (room : Nat) : ((latest uses).take room).lookup key = none := by
  refine lookup_eq_none_of_notMem fun hmem => ?_
  have hin : key ∈ keysOf (latest uses) := (List.take_sublist _ _).map _ |>.subset hmem
  exact h ((mem_keysOf_latest uses key).1 hin)

/-- Of the latest uses, one is among the first so many if fewer other keys were used since. -/
theorem lookup_take_latest {since : List (κ × ν)} {key : κ} (h : key ∉ keysOf since)
    (earlier : List (κ × ν)) (value : ν) (room : Nat) :
    ((latest (since ++ (key, value) :: earlier)).take room).lookup key
      = if (keysOf since).toFinset.card < room then some value else none := by
  have hlatest : latest (since ++ (key, value) :: earlier)
      = latest since ++ (key, value)
          :: ((latest earlier).filter (·.1 ≠ key)).filter (·.1 ∉ keysOf since) := by
    rw [latest_append, latest, List.filter_cons, if_pos (by simpa using h)]
  have hsince : (latest since).lookup key = none :=
    lookup_eq_none_of_notMem (mt (mem_keysOf_latest since key).1 h)
  rw [hlatest, ← length_latest]
  split
  · rename_i hroom
    obtain ⟨more, hsplit⟩ := Nat.exists_eq_add_of_lt hroom
    rw [hsplit, Nat.add_assoc, List.take_length_add_append, List.take_succ_cons,
      List.lookup_append, hsince]
    simp
  · rename_i hfull
    rw [List.take_append_of_le_length (by omega)]
    exact lookup_take_latest_of_notMem h room

/-- The uses after the last use of a key. -/
def usesSince (uses : List (κ × ν)) (key : κ) : List (κ × ν) := uses.takeWhile (·.1 ≠ key)

theorem notMem_usesSince (uses : List (κ × ν)) (key : κ) : key ∉ keysOf (usesSince uses key) := by
  intro hmem
  obtain ⟨use, huse, rfl⟩ := List.mem_map.1 hmem
  simpa using List.mem_takeWhile_imp huse

/-- The last use of a key, with what was used after it. -/
theorem split_usesSince {uses : List (κ × ν)} {key : κ} (h : key ∈ keysOf uses) :
    ∃ value earlier, uses = usesSince uses key ++ (key, value) :: earlier ∧
      uses.lookup key = some value := by
  induction uses with
  | nil => cases h
  | cons use earlier ih =>
    obtain ⟨used, value⟩ := use
    by_cases hkey : used = key
    · subst hkey
      exact ⟨value, earlier, by simp [usesSince], List.lookup_cons_self⟩
    · have hmem : key ∈ keysOf earlier := by
        rw [keysOf_cons, List.mem_cons] at h
        exact h.resolve_left fun heq => hkey heq.symm
      obtain ⟨found, rest, hsplit, hlookup⟩ := ih hmem
      refine ⟨found, rest, ?_, ?_⟩
      · rw [usesSince, List.takeWhile_cons_of_pos (by simpa using hkey), List.cons_append]
        exact congrArg _ hsplit
      · rw [List.lookup_cons, beq_false_of_ne (Ne.symm hkey)]
        exact hlookup

/-- What is found of a key after uses: its last value, as long as there has been room for all keys used
since. -/
def recalled (room : Nat) (uses : List (κ × ν)) (key : κ) : Option ν :=
  if (keysOf (usesSince uses key)).toFinset.card < max room 1 then uses.lookup key else none

theorem recalled_of_notMem {uses : List (κ × ν)} {key : κ} (h : key ∉ keysOf uses) (room : Nat) :
    recalled room uses key = none := by
  rw [recalled, lookup_eq_none_of_notMem h, ite_self]

theorem recalled_append {since : List (κ × ν)} {key : κ} (h : key ∉ keysOf since)
    (earlier : List (κ × ν)) (value : ν) (room : Nat) :
    recalled room (since ++ (key, value) :: earlier) key
      = if (keysOf since).toFinset.card < max room 1 then some value else none := by
  have hsince : usesSince (since ++ (key, value) :: earlier) key = since := by
    have hother : ∀ use ∈ since, decide (use.1 ≠ key) = true := by
      rintro use huse
      rw [decide_eq_true_eq]
      rintro rfl
      exact h (List.mem_map_of_mem huse)
    rw [usesSince, List.takeWhile_append_of_pos hother, List.takeWhile_cons_of_neg (by simp),
      List.append_nil]
  rw [recalled, hsince, List.lookup_append, lookup_eq_none_of_notMem h, Option.none_or,
    List.lookup_cons_self]

theorem recalled_cons_self (room : Nat) (earlier : List (κ × ν)) (key : κ) (value : ν) :
    recalled room ((key, value) :: earlier) key = some value := by
  have hnone : key ∉ keysOf ([] : List (κ × ν)) := List.not_mem_nil
  have hcons := recalled_append hnone earlier value room
  rw [List.nil_append] at hcons
  rw [hcons, if_pos]
  simp

/-- The cache holds the latest uses, as many of them as it has room for. -/
structure Holds (cache : RecencyCache κ ν) (room : Nat) (uses : List (κ × ν)) : Prop where
  capacity : cache.capacity = max room 1
  entries : cache.entries = (latest uses).take (max room 1)

theorem filter_put (cache : RecencyCache κ ν) (key : κ) (value : ν) :
    (cache.put key value).entries.filter (·.1 ≠ key)
      = (cache.entries.filter (·.1 ≠ key)).take (cache.capacity - 1) := by
  unfold put
  cases cache.capacity with
  | zero => rfl
  | succ room =>
    rw [List.take_succ_cons, List.filter_cons, if_neg (by simp), Nat.add_sub_cancel]
    exact List.filter_eq_self.2 fun entry hentry =>
      (List.mem_filter.1 (List.mem_of_mem_take hentry)).2

/-- A key that is stored anew need not have been touched before. -/
theorem put_touch (cache : RecencyCache κ ν) (key : κ) (value : ν) :
    (cache.touch key).put key value = cache.put key value := by
  unfold touch
  split
  · rfl
  · rename_i old hold
    obtain ⟨capacity, entries⟩ := cache
    have hfilter := filter_put ⟨capacity, entries⟩ key old
    cases capacity with
    | zero => rfl
    | succ room =>
      rw [put, hfilter]
      simp only [put, List.take_succ_cons, Nat.add_sub_cancel, List.take_take, Nat.min_self]

theorem new_holds (room : Nat) : (new room : RecencyCache κ ν).Holds room [] :=
  ⟨rfl, by simp [new, latest]⟩

namespace Holds

variable {cache : RecencyCache κ ν} {room : Nat} {uses : List (κ × ν)}

theorem put (h : cache.Holds room uses) (key : κ) (value : ν) :
    (cache.put key value).Holds room ((key, value) :: uses) := by
  refine ⟨h.capacity, ?_⟩
  obtain ⟨more, hmore⟩ : ∃ more, max room 1 = more + 1 := ⟨max room 1 - 1, by omega⟩
  rw [RecencyCache.put, h.capacity, h.entries, hmore, latest, List.take_succ_cons,
    List.take_succ_cons, take_filter_take _ (nodup_latest uses)]

theorem peek?_eq (h : cache.Holds room uses) (key : κ) :
    cache.peek? key = recalled room uses key := by
  rw [peek?, h.entries]
  by_cases hmem : key ∈ keysOf uses
  · obtain ⟨value, earlier, hsplit, -⟩ := split_usesSince hmem
    have hsince := notMem_usesSince uses key
    generalize usesSince uses key = since at hsplit hsince
    rw [hsplit, lookup_take_latest hsince, recalled_append hsince]
  · rw [lookup_take_latest_of_notMem hmem, recalled_of_notMem hmem]

/-- Touching is a use of what is there. -/
theorem touch (h : cache.Holds room uses) (key : κ) :
    (cache.touch key).Holds room (((cache.peek? key).map (key, ·)).toList ++ uses) := by
  unfold RecencyCache.touch
  split
  · rename_i hnone
    rw [hnone]
    exact h
  · rename_i value hvalue
    rw [hvalue]
    exact h.put key value

theorem peek?_put_self (h : cache.Holds room uses) (key : κ) (value : ν) :
    (cache.put key value).peek? key = some value := by
  rw [(h.put key value).peek?_eq, recalled_cons_self]

/-- Touching keeps what is stored. -/
theorem peek?_touch_self (h : cache.Holds room uses) (key : κ) :
    (cache.touch key).peek? key = cache.peek? key := by
  rw [(h.touch key).peek?_eq]
  cases hfound : cache.peek? key with
  | none => exact (h.peek?_eq key).symm.trans hfound
  | some value => exact recalled_cons_self room uses key value

theorem put_touch (h : cache.Holds room uses) (key : κ) (value : ν) :
    ((cache.touch key).put key value).Holds room ((key, value) :: uses) := by
  rw [RecencyCache.put_touch]
  exact h.put key value

/-- A touched key that has the value already need not be stored anew. -/
theorem touch_of_peek? (h : cache.Holds room uses) {key : κ} {value : ν}
    (hvalue : (cache.touch key).peek? key = some value) :
    (cache.touch key).Holds room ((key, value) :: uses) := by
  rw [h.peek?_touch_self] at hvalue
  have htouch := h.touch key
  rwa [hvalue] at htouch

/-- No key is there twice, and there is never more than there is room for. -/
theorem bounded (h : cache.Holds room uses) :
    (keysOf cache.entries).Nodup ∧ cache.size ≤ max room 1 := by
  constructor
  · rw [h.entries]
    exact (nodup_latest uses).sublist ((List.take_sublist _ _).map _)
  · rw [size, h.entries]
    exact List.length_take_le _ _

end Holds

end HeadlessEditor.RecencyCache
