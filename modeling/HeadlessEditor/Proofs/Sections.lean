import HeadlessEditor.Proofs.Merging

/-!
Reading what a patch was merged into. A setting is written under a key of its section and read from
there; a patch leaves it, takes it out, or is merged into it. Whatever is read then is read once more
when the patch comes again, and from defaults it is what the patch alone is read as. Sections are
made of such settings, and are such settings themselves.
-/

namespace HeadlessEditor

namespace Json

/-- What a patch makes of a setting: it stays, takes its default, or takes what is given. -/
def Settled {α : Type} (read : Json → Option α) (default old : α) : Option Json → α → Prop
  | none, new => new = old
  | some null, new => new = default
  | some given, new => read given = some new

def SettledWithin {σ : Type} (read : Json → Option σ) (default old : σ)
    (within : (String → Option Json) → σ → Prop) : Option Json → σ → Prop
  | some (object members), new => within (members.lookup ·) new
  | given, new => Settled read default old given new

/-- All keys with a value, other than `null`, are among these. -/
def Known (keys : List String) (given : String → Option Json) : Prop :=
  ∀ key value, given key = some value → value ≠ null → key ∈ keys

def IsCanonical (json : Json) : Prop := ∃ given : Json, given.canonical = json

inductive Occurs (value : Json) : Json → Prop
  | here : Occurs value value
  | item {item : Json} {items : List Json} (hmem : item ∈ items) (h : Occurs value item) :
    Occurs value (array items)
  | member {key : String} {found : Json} {members : List (String × Json)}
    (hmem : (key, found) ∈ members) (h : Occurs value found) : Occurs value (object members)

variable {members inner : List (String × Json)} {α : Type} {read : Json → Option α} {default : α}
  {write : α → Json}

theorem IsCanonical.nodup (h : (object members).IsCanonical) : (members.map (·.1)).Nodup := by
  obtain ⟨given, hgiven⟩ := h
  exact (sorted_of_canonical_eq hgiven).nodup

theorem IsCanonical.lookup (h : (object members).IsCanonical) {key : String} {value : Json}
    (hvalue : members.lookup key = some value) : value.IsCanonical := by
  obtain ⟨given, hgiven⟩ := h
  cases given with
  | object given =>
    rw [canonical] at hgiven
    have hmem := mem_of_lookup hvalue
    rw [← Json.object.inj hgiven] at hmem
    rcases canonical_of_mem hmem with hmem | hcanonical
    · cases hmem
    · exact hcanonical
  | null | bool _ | int _ | real _ | string _ | array _ => simp [canonical] at hgiven

theorem IsCanonical.lookup_free (h : (object members).IsCanonical)
    (hfree : ¬ Occurs null (object members)) {key : String} (value : Json)
    (hvalue : members.lookup key = some value) : value.IsCanonical ∧ ¬ Occurs null value :=
  ⟨h.lookup hvalue, fun hnull => hfree (.member (mem_of_lookup hvalue) hnull)⟩

structure Mergeable (read : Json → Option α) (default : α) (write : α → Json) : Prop where
  /-- What is written is read as nothing else. -/
  only : ∀ {old new}, read (write old) = some new → new = old
  stored : read (write default) = some default
  /-- What was merged once can be merged again. -/
  again : ∀ {old new given}, IsCanonical given → read ((write old).merge given) = some new →
    read ((write new).merge given) = some new
  /-- Without `null`, to merge into the defaults is to leave the rest to them. -/
  fill : ∀ {given}, IsCanonical given → ¬ Occurs null given →
    read ((write default).merge given) = read given

structure Whole (read : Json → Option α) (write : α → Json) : Prop where
  isObject : ∀ x, (write x).isObject = false
  only : ∀ {old new}, read (write old) = some new → new = old

theorem Whole.merge (h : Whole read write) (old : α) (given : Json) :
    (write old).merge given = given :=
  merge_of_not_objects (by rw [h.isObject, Bool.false_and])

theorem Whole.mergeable (h : Whole read write) (hstored : read (write default) = some default) :
    Mergeable read default write where
  only := h.only
  stored := hstored
  again := by
    intro old new given _ hread
    rwa [h.merge] at hread ⊢
  fill := by
    intro given _ _
    rw [h.merge]

theorem counts : Whole count? fun n : Nat => int n where
  isObject _ := rfl
  only := by
    intro old new h
    simp only [count?] at h
    split at h
    · simpa using h.symm
    · cases h

theorem floats : Whole float? ofFloat where
  isObject := isObject_ofFloat
  only := by
    intro old new h
    unfold ofFloat at h
    split at h
    · rename_i hfinite
      simpa [float?, finite?, hfinite] using h.symm
    · cases h

theorem bools : Whole bool? bool where
  isObject _ := rfl
  only h := (Option.some.inj h).symm

theorem strings : Whole string? string where
  isObject _ := rfl
  only h := (Option.some.inj h).symm

theorem mergeable_count {n : Nat} (h : n < 0x10000000000000000) :
    Mergeable count? n fun n : Nat => int n :=
  counts.mergeable (by simp [count?]; omega)

theorem mergeable_float {x : Float} (h : x.isFinite) : Mergeable float? x ofFloat :=
  floats.mergeable (by simp [ofFloat, float?, finite?, h])

theorem amended_some {old given : Json} (h : given ≠ null) :
    amended (some old) (some given) = some (old.merge given) := by
  cases given with
  | null => exact absurd rfl h
  | bool _ | int _ | real _ | string _ | array _ | object _ => rfl

def amendedBy (members : List (String × Json)) (given : String → Option Json) (key : String) :
    Option Json :=
  amended (members.lookup key) (given key)

structure Setting {σ : Type} (members : σ → List (String × Json)) (default : σ) (key : String)
    (read : Json → Option α) (write : α → Json) (get : σ → α) : Prop where
  mergeable : Mergeable read (get default) write
  lookup : ∀ x, (members x).lookup key = some (write (get x))

namespace Setting

variable {σ : Type} {members : σ → List (String × Json)} {default old : σ} {key : String}
  {get : σ → α} {given : String → Option Json} {new : α}

/-- All that can be read after a patch: what was written, the default, or what came of merging. -/
theorem reads_iff (h : Setting members default key read write get) :
    orDefault (get default) read (amendedBy (members old) given key) = some new ↔
      (given key = none ∧ read (write (get old)) = some new) ∨
      (given key = some null ∧ new = get default) ∨
      ∃ value, value ≠ null ∧ given key = some value ∧
        read ((write (get old)).merge value) = some new := by
  rw [amendedBy, h.lookup]
  cases hvalue : given key with
  | none => simp [amended, orDefault]
  | some value =>
    by_cases hnull : value = null
    · subst hnull
      simp [amended, orDefault, eq_comm]
    · simp [amended_some hnull, orDefault, hnull]

/-- A setting that a patch does not reach stays. -/
theorem kept (h : Setting members default key read write get)
    (hread : orDefault (get default) read (amendedBy (members old) (fun _ => none) key)
      = some new) : new = get old := by
  rw [amendedBy, h.lookup] at hread
  exact h.mergeable.only hread

/-- A setting that a patch has settled is settled by it. -/
theorem again (h : Setting members default key read write get)
    (hgiven : ∀ value, given key = some value → value.IsCanonical) {next : σ}
    (hread : orDefault (get default) read (amendedBy (members old) given key) = some (get next)) :
    orDefault (get default) read (amendedBy (members next) given key) = some (get next) := by
  rw [h.reads_iff] at hread ⊢
  rcases hread with ⟨hnone, hread⟩ | hnull | ⟨value, hnull, hvalue, hread⟩
  · have hkept : get next = get old := h.mergeable.only hread
    rw [← hkept] at hread
    exact Or.inl ⟨hnone, hread⟩
  · exact Or.inr (Or.inl hnull)
  · exact Or.inr (Or.inr ⟨value, hnull, hvalue, h.mergeable.again (hgiven value hvalue) hread⟩)

/-- A default is merged into as if nothing were there. -/
theorem fill (h : Setting members default key read write get)
    (hgiven : ∀ value, given key = some value → value.IsCanonical ∧ ¬ Occurs null value) :
    orDefault (get default) read (amendedBy (members default) given key) = some new ↔
      orDefault (get default) read (given key) = some new := by
  rw [amendedBy, h.lookup]
  cases hvalue : given key with
  | none => exact iff_of_eq (congrArg (· = some new) h.mergeable.stored)
  | some value =>
    obtain ⟨hcanonical, hfree⟩ := hgiven value hvalue
    have hnull : value ≠ null := by
      rintro rfl
      exact hfree .here
    rw [amended_some hnull]
    exact iff_of_eq (congrArg (· = some new) (h.mergeable.fill hcanonical hfree))

/-- What a patch makes of a value that is replaced as a whole. -/
theorem settled (h : Setting members default key read write get) (hwhole : Whole read write)
    (hread : orDefault (get default) read (amendedBy (members old) given key) = some new) :
    Settled read (get default) (get old) (given key) new := by
  rcases h.reads_iff.1 hread with ⟨hnone, hread⟩ | ⟨hnull, hdefault⟩ | ⟨value, hnull, hvalue, hread⟩
  · rw [hnone]
    exact h.mergeable.only hread
  · rw [hnull]
    exact hdefault
  · rw [hwhole.merge] at hread
    rw [hvalue]
    cases value with
    | null => exact absurd rfl hnull
    | bool _ | int _ | real _ | string _ | array _ | object _ => exact hread

/-- What a patch makes of a section. -/
theorem settledWithin (h : Setting members default key read write get)
    {within : (String → Option Json) → α → Prop}
    (hgiven : ∀ value, given key = some value → value.IsCanonical)
    (hwithin : ∀ {inner}, (object inner).IsCanonical →
      read ((write (get old)).merge (object inner)) = some new → within (inner.lookup ·) new)
    (hread : orDefault (get default) read (amendedBy (members old) given key) = some new) :
    SettledWithin read (get default) (get old) within (given key) new := by
  rcases h.reads_iff.1 hread with ⟨hnone, hread⟩ | ⟨hnull, hdefault⟩ | ⟨value, hnull, hvalue, hread⟩
  · rw [hnone]
    exact h.mergeable.only hread
  · rw [hnull]
    exact hdefault
  · rw [hvalue]
    cases value with
    | null => exact absurd rfl hnull
    | object inner => exact hwithin (hgiven _ hvalue) hread
    | bool _ | int _ | real _ | string _ | array _ => exact hread

end Setting

/-- The keys that are left with a value are known if those of the patch are. -/
theorem known_amendedBy_iff {keys : List String} {given : String → Option Json}
    (hmembers : ∀ member ∈ members, member.1 ∈ keys) :
    (∀ key, amendedBy members given key ≠ none → key ∈ keys) ↔ Known keys given := by
  constructor
  · intro hall key value hvalue hnull
    have hkey := hall key
    rw [amendedBy, hvalue] at hkey
    cases value with
    | null => exact absurd rfl hnull
    | bool _ | int _ | real _ | string _ | array _ | object _ => exact hkey (by simp [amended])
  · intro hall key hkey
    cases hgiven : given key with
    | none =>
      rw [amendedBy, hgiven] at hkey
      have hmem : key ∈ members.map (·.1) := not_not.1 (mt Table.lookup_eq_none_iff.2 hkey)
      obtain ⟨member, hmember, rfl⟩ := List.mem_map.1 hmem
      exact hmembers member hmember
    | some value =>
      refine hall key value hgiven ?_
      rintro rfl
      rw [amendedBy, hgiven] at hkey
      exact hkey rfl

/-- Without `null` the keys of an object are known if there are no others. -/
theorem known_lookup_iff {keys : List String} (h : ¬ Occurs null (object members)) :
    Known keys (members.lookup ·) ↔ ∀ key, members.lookup key ≠ none → key ∈ keys := by
  constructor
  · intro hknown key hkey
    obtain ⟨value, hvalue⟩ := Option.ne_none_iff_exists'.1 hkey
    refine hknown key value hvalue ?_
    rintro rfl
    exact h (.member (mem_of_lookup hvalue) .here)
  · intro hall key value hvalue _
    exact hall key (by simp_all)

structure Section {σ : Type} (keys : List String) (read : Json → Option σ) (default : σ)
    (members : σ → List (String × Json)) (Holds : (String → Option Json) → σ → Prop) : Prop where
  /-- The section is read by reading the values of its keys. -/
  read_iff : ∀ {json : Json} {given : String → Option Json} {shaped : Prop},
    (∀ values, json.section? keys = some values ↔ shaped ∧ keys.map given = values) →
    ∀ {found}, read json = some found ↔ shaped ∧ Holds given found
  sorted : ∀ x, Sorted (members x)
  known : ∀ x, ∀ member ∈ members x, member.1 ∈ keys
  stored : read (object (members default)) = some default
  only : ∀ {old new}, Holds (amendedBy (members old) fun _ => none) new → new = old
  again : ∀ {old new given}, (∀ key value, given key = some value → value.IsCanonical) →
    Holds (amendedBy (members old) given) new → Holds (amendedBy (members new) given) new
  fill : ∀ {given},
    (∀ key value, given key = some value → value.IsCanonical ∧ ¬ Occurs null value) →
    ∀ found, Holds (amendedBy (members default) given) found ↔ Holds given found

namespace Section

variable {σ : Type} {keys : List String} {read : Json → Option σ} {default : σ}
  {members : σ → List (String × Json)} {Holds : (String → Option Json) → σ → Prop}

theorem read_object_iff (h : Section keys read default members Holds)
    (hinner : (inner.map (·.1)).Nodup) {found : σ} :
    read (object inner) = some found ↔
      (∀ key, inner.lookup key ≠ none → key ∈ keys) ∧ Holds (inner.lookup ·) found :=
  h.read_iff fun values => section?_object_eq_some_iff hinner keys values

/-- After a patch the keys of the patch are known, and each value is what the patch makes of it. -/
theorem read_merge_iff (h : Section keys read default members Holds) (old : σ)
    (hinner : (inner.map (·.1)).Nodup) {found : σ} :
    read ((object (members old)).merge (object inner)) = some found ↔
      Known keys (inner.lookup ·) ∧ Holds (amendedBy (members old) (inner.lookup ·)) found := by
  rw [← known_amendedBy_iff (h.known old)]
  refine h.read_iff fun values => ?_
  have hmerge : (object (members old)).merge (object inner)
      = object (mergeMembers (members old) inner) := rfl
  rw [hmerge, section?_object_eq_some_iff ((h.sorted old).mergeMembers inner).nodup]
  simp only [lookup_mergeMembers hinner]
  rfl

/-- So a section can be merged into. -/
theorem mergeable (h : Section keys read default members Holds) :
    Mergeable read default fun x => object (members x) where
  only := by
    intro old new hread
    have hnone : (([] : List (String × Json)).map (·.1)).Nodup := List.nodup_nil
    exact h.only ((h.read_merge_iff old hnone).1 hread).2
  stored := h.stored
  again := by
    intro old new given hgiven hread
    cases given with
    | object inner =>
      rw [h.read_merge_iff _ hgiven.nodup] at hread ⊢
      exact hread.imp_right (h.again fun _ _ => hgiven.lookup)
    -- anything else takes the place of the section, whatever the section was
    | null | bool _ | int _ | real _ | string _ | array _ => exact hread
  fill := by
    intro given hgiven hfree
    cases given with
    | object inner =>
      refine Option.ext fun found => ?_
      rw [h.read_merge_iff _ hgiven.nodup, h.read_object_iff hgiven.nodup, known_lookup_iff hfree,
        h.fill fun _ => hgiven.lookup_free hfree]
    | null | bool _ | int _ | real _ | string _ | array _ => rfl

end Section

end Json

end HeadlessEditor
