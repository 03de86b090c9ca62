import HeadlessEditor.Settings.Patch
import HeadlessEditor.Table
import Mathlib

/-!
Merging members into members, key by key. Sorted members hold each key once, and putting in, taking
out and merging keep them sorted; so what a patch makes of a member depends on nothing but the two
members of that key.
-/

namespace HeadlessEditor.Json

variable {members patch : List (String × Json)}

theorem mem_of_lookup {key : String} {value : Json} (h : members.lookup key = some value) :
    (key, value) ∈ members := by
  obtain ⟨before, after, he, -⟩ := List.lookup_eq_some_iff.1 h
  simp [he]

theorem filter_key_eq (h : (members.map (·.1)).Nodup) (key : String) :
    members.filter (·.1 = key) = ((members.lookup key).map (key, ·)).toList :=
  @Table.filter_key_eq String Json _ ⟨members⟩ h key

theorem lookup_of_mem (h : (members.map (·.1)).Nodup) {key : String} {value : Json}
    (hmem : (key, value) ∈ members) : members.lookup key = some value := by
  have hfound : (key, value) ∈ members.filter (·.1 = key) := List.mem_filter.2 ⟨hmem, by simp⟩
  rw [filter_key_eq h] at hfound
  simpa using hfound

/-- Members in the order of their keys, each key once. -/
def Sorted (members : List (String × Json)) : Prop := members.Pairwise (·.1 < ·.1)

theorem Sorted.nodup (h : Sorted members) : (members.map (·.1)).Nodup := by
  rw [List.Nodup, List.pairwise_map]
  exact h.imp fun hlt => ne_of_lt hlt

theorem lookup_insertMember (key other : String) (value : Json) (members : List (String × Json)) :
    (insertMember key value members).lookup other
      = if other = key then some value else members.lookup other := by
  induction members with
  | nil =>
    by_cases ho : other = key
    · simp [insertMember, ho]
    · simp [insertMember, Table.lookup_cons_of_ne ho, ho]
  | cons member rest ih =>
    obtain ⟨name, found⟩ := member
    by_cases ho : other = key
    · subst ho
      simp only [insertMember, if_true] at ih ⊢
      by_cases hname : other = name
      · simp [hname]
      · by_cases hlt : other < name
        · simp [hname, hlt]
        · simp [hname, hlt, Table.lookup_cons_of_ne hname, ih]
    · by_cases hname : key = name
      · subst hname
        simp [insertMember, ho, Table.lookup_cons_of_ne ho]
      · by_cases hlt : key < name
        · simp [insertMember, hname, hlt, ho, Table.lookup_cons_of_ne ho]
        · by_cases hother : other = name
          · simp [insertMember, hname, hlt, hother, Ne.symm hname]
          · simp [insertMember, hname, hlt, ho, Table.lookup_cons_of_ne hother, ih]

theorem mem_insertMember {key : String} {value : Json} {member : String × Json}
    (h : member ∈ insertMember key value members) : member = (key, value) ∨ member ∈ members := by
  induction members with
  | nil => simpa [insertMember] using h
  | cons first rest ih =>
    rw [insertMember] at h
    split at h
    · rcases List.mem_cons.1 h with h | h
      · exact Or.inl h
      · exact Or.inr (List.mem_cons_of_mem _ h)
    · split at h
      · exact List.mem_cons.1 h
      · rcases List.mem_cons.1 h with h | h
        · exact Or.inr (h ▸ List.mem_cons_self)
        · exact (ih h).imp_right (List.mem_cons_of_mem _)

theorem Sorted.insertMember (h : Sorted members) (key : String) (value : Json) :
    Sorted (insertMember key value members) := by
  induction members with
  | nil => exact List.pairwise_singleton _ _
  | cons first rest ih =>
    obtain ⟨hfirst, hrest⟩ := List.pairwise_cons.1 h
    rw [Json.insertMember]
    split
    · rename_i hkey
      subst hkey
      exact List.pairwise_cons.2 ⟨hfirst, hrest⟩
    · rename_i hkey
      split
      · rename_i hlt
        refine List.pairwise_cons.2 ⟨fun member hmember => ?_, h⟩
        rcases List.mem_cons.1 hmember with rfl | hmember
        · exact hlt
        · exact lt_trans hlt (hfirst member hmember)
      · rename_i hlt
        refine List.pairwise_cons.2 ⟨fun member hmember => ?_, ih hrest⟩
        rcases mem_insertMember hmember with rfl | hmember
        · exact lt_of_le_of_ne (not_lt.1 hlt) (Ne.symm hkey)
        · exact hfirst member hmember

theorem Sorted.filter (h : Sorted members) (test : String × Json → Bool) :
    Sorted (members.filter test) :=
  List.Pairwise.filter test h

theorem Sorted.canonicalMembers (h : Sorted members) (given : List (String × Json)) :
    Sorted (canonicalMembers members given) := by
  induction given generalizing members with
  | nil => rwa [Json.canonicalMembers]
  | cons member rest ih =>
    rw [Json.canonicalMembers]
    exact ih (h.insertMember _ _)

/-- In canonical form objects are sorted. -/
theorem sorted_of_canonical_eq {given : Json} (h : given.canonical = object members) :
    Sorted members := by
  cases given with
  | object given =>
    rw [canonical] at h
    obtain rfl := Json.object.inj h
    exact Sorted.canonicalMembers List.Pairwise.nil given
  | null | bool _ | int _ | real _ | string _ | array _ => simp [canonical] at h

theorem canonical_of_mem {given : List (String × Json)} {member : String × Json}
    (h : member ∈ canonicalMembers members given) :
    member ∈ members ∨ ∃ value : Json, value.canonical = member.2 := by
  induction given generalizing members with
  | nil =>
    rw [canonicalMembers] at h
    exact Or.inl h
  | cons first rest ih =>
    rw [canonicalMembers] at h
    rcases ih h with h | h
    · rcases mem_insertMember h with rfl | h
      · exact Or.inr ⟨first.2, rfl⟩
      · exact Or.inl h
    · exact Or.inr h

/-- What a patch makes of a member: `null` takes it out, anything else is merged into it. -/
def amended (old : Option Json) : Option Json → Option Json
  | none => old
  | some null => none
  | some given => some ((old.getD null).merge given)

theorem merge_of_not_objects {old given : Json} (h : (old.isObject && given.isObject) = false) :
    old.merge given = given := by
  cases given with
  | object patch =>
    cases old with
    | object members => simp [isObject] at h
    | null | bool _ | int _ | real _ | string _ | array _ => rfl
  | null | bool _ | int _ | real _ | string _ | array _ => rfl

def mergeMember (members : List (String × Json)) (key : String) (given : Json) :
    List (String × Json) :=
  match amended (members.lookup key) (some given) with
  | none => members.filter (·.1 ≠ key)
  | some value => insertMember key value members

theorem mergeMembers_cons (key : String) (given : Json) (rest : List (String × Json)) :
    mergeMembers members ((key, given) :: rest)
      = mergeMembers (mergeMember members key given) rest := by
  cases given with
  | null => rfl
  | bool _ | int _ | real _ | string _ | array _ | object _ =>
    change mergeMembers _ rest = _
    congr 1
    simp only [mergeMember, amended]
    cases members.lookup key with
    | none => rfl
    | some old =>
      dsimp only [Option.getD_some]
      split
      · rfl
      · rename_i h
        rw [merge_of_not_objects (Bool.eq_false_iff.2 h)]

theorem lookup_mergeMember (key other : String) (given : Json) :
    (mergeMember members key given).lookup other
      = if other = key then amended (members.lookup key) (some given)
        else members.lookup other := by
  unfold mergeMember
  split
  · rename_i h
    rw [Table.lookup_filter_key, h]
  · rename_i h
    rw [lookup_insertMember, h]

/-- What a patch makes of a member depends on the two members of that key alone. -/
theorem lookup_mergeMembers (h : (patch.map (·.1)).Nodup) (key : String) :
    (mergeMembers members patch).lookup key
      = amended (members.lookup key) (patch.lookup key) := by
  induction patch generalizing members with
  | nil => rfl
  | cons first rest ih =>
    obtain ⟨name, given⟩ := first
    obtain ⟨hname, hrest⟩ := List.nodup_cons.1 h
    rw [mergeMembers_cons, ih hrest, lookup_mergeMember]
    by_cases hkey : key = name
    · subst hkey
      rw [Table.lookup_eq_none_iff.2 hname, if_pos rfl, List.lookup_cons_self]
      rfl
    · rw [if_neg hkey, Table.lookup_cons_of_ne hkey]

theorem Sorted.mergeMembers (h : Sorted members) (patch : List (String × Json)) :
    Sorted (mergeMembers members patch) := by
  induction patch generalizing members with
  | nil => exact h
  | cons first rest ih =>
    rw [mergeMembers_cons]
    refine ih ?_
    unfold mergeMember
    split
    · exact h.filter _
    · exact h.insertMember _ _

/-- A section that is an object has the values of its members, if it names no other keys. -/
theorem section?_object_eq_some_iff (h : (members.map (·.1)).Nodup) (keys : List String)
    (values : List (Option Json)) :
    Json.section? keys (object members) = some values ↔
      (∀ key, members.lookup key ≠ none → key ∈ keys) ∧
        keys.map (fun key => members.lookup key) = values := by
  have honce : ∀ key, (members.filter (·.1 == key)).length ≤ 1 := by
    intro key
    simp only [beq_eq_decide, filter_key_eq h]
    cases members.lookup key <;> simp
  have hknown : (∀ key, members.lookup key ≠ none → key ∈ keys) ↔
      ∀ member ∈ members, member.1 ∈ keys := by
    constructor
    · intro hall member hmember
      refine hall member.1 fun hnone => ?_
      exact Table.lookup_eq_none_iff.1 hnone (List.mem_map_of_mem hmember)
    · intro hall key hkey
      have hmem : key ∈ members.map (·.1) := not_not.1 (mt Table.lookup_eq_none_iff.2 hkey)
      obtain ⟨member, hmember, rfl⟩ := List.mem_map.1 hmem
      exact hall member hmember
  rw [hknown]
  simp [section?, honce]

end HeadlessEditor.Json
