import HeadlessEditor.Proofs.Announcements
import HeadlessEditor.Proofs.Merging
import HeadlessEditor.Proofs.SettingsPatches

/-!
What a patch reports. The settings form a tree; a setting is a leaf of it, found by its keys with dots
between them. Of two trees of one shape the changed keys are those of the leaves that differ, in the
order of the leaves, and the leaves of settings are in the order of their dotted keys.
-/

namespace HeadlessEditor

/-- Splitting at a dot as a string is splitting at it as a character. -/
theorem splitOnAux_dot (s : String) (start stop : String.Pos.Raw) (found : List String) :
    s.splitOnAux "." start stop 0 found = s.splitAux (· == '.') start stop found := by
  fun_induction String.splitAux s (· == '.') start stop found with
  | case1 start stop found hend =>
    rw [String.splitOnAux, if_pos hend]
  | case2 start stop found hend _ hdot next ih =>
    have hget : (String.Pos.Raw.get s stop == String.Pos.Raw.get "." 0) = true := hdot
    -- the dot is one byte long, so the part before it ends where the dot was found
    have hback : next.unoffsetBy (String.Pos.Raw.next "." 0) = stop := by
      have hsize : (String.Pos.Raw.get s stop).utf8Size = 1 := by
        rw [eq_of_beq hdot]
        rfl
      show String.Pos.Raw.mk (stop.byteIdx + (String.Pos.Raw.get s stop).utf8Size - 1) = stop
      rw [hsize]
      rfl
    rw [String.splitOnAux, if_neg hend, if_pos hget]
    dsimp only
    rw [if_pos (by rfl), ← ih, hback]
  | case3 start stop found hend _ hdot ih =>
    have hget : ¬ (String.Pos.Raw.get s stop == String.Pos.Raw.get "." 0) = true := hdot
    rw [String.splitOnAux, if_neg hend, if_neg hget]
    exact ih

theorem splitOn_dot (s : String) :
    s.splitOn "." = (s.toList.splitOn '.').map String.ofList :=
  (splitOnAux_dot s 0 0 []).trans (String.splitToList_of_valid s _)

theorem intercalate_splitOn (s : String) : ".".intercalate (s.splitOn ".") = s := by
  rw [splitOn_dot]
  apply String.toList_injective
  rw [String.toList_intercalate]
  simp [List.intercalate_splitOn]

theorem splitOn_intercalate {parts : List String} (hne : parts ≠ [])
    (h : ∀ part ∈ parts, '.' ∉ part.toList) : (".".intercalate parts).splitOn "." = parts := by
  rw [splitOn_dot, String.toList_intercalate]
  have hdot : ".".toList = ['.'] := rfl
  rw [hdot, List.splitOn_intercalate]
  · simp
  · simpa using h
  · simpa using hne

namespace Json

def at? (json : Json) (path : List String) : Option Json :=
  path.foldlM (fun value key => value.member? key) json

@[simp] theorem at?_nil (json : Json) : json.at? [] = some json := rfl

theorem at?_cons (json : Json) (key : String) (path : List String) :
    json.at? (key :: path) = (json.member? key).bind (at? · path) := rfl

theorem at?_cons_of_not_object {json : Json} (h : json.isObject = false) (key : String)
    (path : List String) : json.at? (key :: path) = none := by
  cases json with
  | object members => cases h
  | null | bool _ | int _ | real _ | string _ | array _ => rfl

/-- A member that is missing counts as `null`. -/
theorem getD_at?_cons (old : List (String × Json)) (key : String) (path : List String) :
    ((object old).at? (key :: path)).getD null
      = (((old.lookup key).getD null).at? path).getD null := by
  rw [at?_cons, member?]
  cases old.lookup key with
  | some value => rfl
  | none =>
    cases path with
    | nil => rfl
    | cons next path => rw [Option.getD_none, at?_cons_of_not_object rfl]; rfl

mutual

def leaves : Json → List (List String × Json)
  | object members => memberLeaves members
  | json => [([], json)]

def memberLeaves : List (String × Json) → List (List String × Json)
  | [] => []
  | (key, value) :: rest =>
    (leaves value).map (fun leaf => (key :: leaf.1, leaf.2)) ++ memberLeaves rest

end

theorem leaves_of_not_object {json : Json} (h : json.isObject = false) :
    json.leaves = [([], json)] := by
  cases json with
  | object members => cases h
  | null | bool _ | int _ | real _ | string _ | array _ => rfl

inductive Keyed : Json → Prop
  | leaf {json : Json} (h : json.isObject = false) : Keyed json
  | object {members : List (String × Json)} (hkeys : (members.map (·.1)).Nodup)
    (h : ∀ member ∈ members, Keyed member.2) : Keyed (object members)

theorem keyed_object_iff {members : List (String × Json)} :
    Keyed (object members) ↔ (members.map (·.1)).Nodup ∧ ∀ member ∈ members, Keyed member.2 := by
  constructor
  · rintro (⟨⟨⟩⟩ | ⟨hkeys, h⟩)
    exact ⟨hkeys, h⟩
  · rintro ⟨hkeys, h⟩
    exact .object hkeys h

theorem mem_memberLeaves_iff {members : List (String × Json)} {path : List String} {leaf : Json} :
    (path, leaf) ∈ memberLeaves members ↔
      ∃ member ∈ members, ∃ rest, path = member.1 :: rest ∧ (rest, leaf) ∈ member.2.leaves := by
  induction members with
  | nil => simp [memberLeaves]
  | cons member rest ih =>
    rw [memberLeaves, List.mem_append, ih]
    simp [eq_comm, and_comm]

/-- The leaves are what is found at the end of paths and is no object. -/
theorem Keyed.mem_leaves_iff {json : Json} (h : json.Keyed) {path : List String} {leaf : Json} :
    (path, leaf) ∈ json.leaves ↔ json.at? path = some leaf ∧ leaf.isObject = false := by
  induction h generalizing path with
  | @leaf json h =>
    rw [leaves_of_not_object h]
    cases path with
    | nil =>
      simp only [List.mem_singleton, Prod.mk.injEq, true_and, at?_nil, Option.some.injEq]
      exact ⟨fun he => ⟨he.symm, he ▸ h⟩, fun he => he.1.symm⟩
    | cons key path => simp [at?_cons_of_not_object h]
  | @object members hkeys _ ih =>
    rw [leaves, mem_memberLeaves_iff]
    cases path with
    | nil =>
      simp only [at?_nil, Option.some.injEq]
      constructor
      · rintro ⟨_, _, _, ⟨⟩, _⟩
      · rintro ⟨rfl, ⟨⟩⟩
    | cons key path =>
      rw [at?_cons, member?]
      constructor
      · rintro ⟨member, hmember, _, ⟨⟩, hleaf⟩
        rw [lookup_of_mem hkeys hmember]
        exact (ih member hmember).1 hleaf
      · rintro ⟨hat, hleaf⟩
        obtain ⟨value, hvalue, hat⟩ := Option.bind_eq_some_iff.1 hat
        have hmember := mem_of_lookup hvalue
        exact ⟨_, hmember, path, rfl, (ih _ hmember).2 ⟨hat, hleaf⟩⟩

inductive Shaped : Json → Json → Prop
  | leaf {before after : Json} (h : after.isObject = false) : Shaped before after
  | object {old members : List (String × Json)}
    (h : ∀ member ∈ members, Shaped ((old.lookup member.1).getD null) member.2) :
    Shaped (object old) (object members)

theorem shaped_object_iff {old members : List (String × Json)} :
    Shaped (object old) (object members) ↔
      ∀ member ∈ members, Shaped ((old.lookup member.1).getD null) member.2 := by
  constructor
  · rintro (⟨⟨⟩⟩ | ⟨h⟩)
    exact h
  · exact .object

def dotted (path key : String) : String := if path.isEmpty then key else path ++ "." ++ key

/-- Keys with dots between them, within a path. -/
def dottedAll (path : String) (keys : List String) : String := keys.foldl dotted path

def changedLeaf (before : Json) (leaf : List String × Json) : Bool :=
  !same ((before.at? leaf.1).getD null) leaf.2

/-- The changed keys are those of the changed leaves. -/
theorem changedKeys_eq {before after : Json} (h : Shaped before after) (path : String) :
    changedKeys path before after
      = (after.leaves.filter before.changedLeaf).map fun leaf => dottedAll path leaf.1 := by
  induction h generalizing path with
  | @leaf before after h =>
    rw [changedKeys_of_not_object h, leaves_of_not_object h]
    by_cases hsame : same before after <;> simp [changedLeaf, hsame, dottedAll]
  | @object old members h ih =>
    rw [changedKeys, leaves]
    clear h
    -- member by member; what is left of the old value under a key is the old value of the member
    induction members with
    | nil => rfl
    | cons member rest ihrest =>
      obtain ⟨key, value⟩ := member
      have hchanged : (object old).changedLeaf ∘ (fun leaf => (key :: leaf.1, leaf.2))
          = ((old.lookup key).getD null).changedLeaf := by
        funext leaf
        simp only [changedLeaf, Function.comp, getD_at?_cons]
      have hfirst := ih (key, value) List.mem_cons_self (dotted path key)
      have hrest := ihrest fun member hmember => ih member (List.mem_cons_of_mem _ hmember)
      rw [changedMembers, memberLeaves, List.filter_append, List.map_append, List.filter_map,
        hchanged, List.map_map, hrest]
      exact congrArg (· ++ _) hfirst

/-- Nothing changed where nothing differs. -/
theorem changedKeys_self {json : Json} (h : json.Keyed)
    (hsame : ∀ leaf ∈ json.leaves, same leaf.2 leaf.2) (hshaped : Shaped json json)
    (path : String) : changedKeys path json json = [] := by
  rw [changedKeys_eq hshaped, List.map_eq_nil_iff, List.filter_eq_nil_iff]
  intro leaf hleaf
  have hat := (h.mem_leaves_iff.1 hleaf).1
  rw [changedLeaf, hat, Option.getD_some, hsame leaf hleaf]
  decide

/-- A path of keys that can be told apart when dots are put between them. -/
def Plain (path : List String) : Prop :=
  path ≠ [] ∧ ∀ key ∈ path, key ≠ "" ∧ '.' ∉ key.toList

theorem dottedAll_of_ne_empty {path : String} (hpath : path ≠ "") (key : String)
    (rest : List String) :
    dottedAll path (key :: rest) = path ++ "." ++ ".".intercalate (key :: rest) := by
  induction rest generalizing path key with
  | nil => simp [dottedAll, dotted, hpath]
  | cons next rest ih =>
    have hdotted : dotted path key ≠ "" := by
      simp [dotted, hpath]
    show dottedAll (dotted path key) (next :: rest) = _
    rw [ih hdotted, String.intercalate_cons_cons]
    simp [dotted, hpath, String.append_assoc]

theorem dottedAll_eq_intercalate {path : List String} (h : Plain path) :
    dottedAll "" path = ".".intercalate path := by
  cases path with
  | nil => rfl
  | cons key rest =>
    cases rest with
    | nil => simp [dottedAll, dotted]
    | cons next rest =>
      show dottedAll key (next :: rest) = _
      rw [dottedAll_of_ne_empty (h.2 key List.mem_cons_self).1, String.intercalate_cons_cons]

end Json

namespace Settings

/-- The paths of the settings, in the order of their dotted keys. -/
def leafPaths : List (List String) := [
  ["char_width"],
  ["cursor", "position_cache_capacity"],
  ["font_size"],
  ["insert_spaces"],
  ["line_height"],
  ["tab_size"],
  ["theme"],
  ["tokenization", "cache_capacity"],
  ["tokenization", "debounce_ms"],
  ["viewport", "min_overscan"],
  ["viewport", "overscan_ratio"],
  ["viewport", "settle_window_ms"]]

theorem leaves_toJson (settings : Settings) :
    settings.toJson.leaves.map (·.1) = leafPaths := by
  simp [toJson, leafPaths, Json.leaves, Json.memberLeaves,
    Json.leaves_of_not_object (Json.isObject_ofFloat _)]

theorem keyed_toJson (settings : Settings) : settings.toJson.Keyed := by
  simp only [toJson, Json.keyed_object_iff, List.map_cons, List.map_nil, List.nodup_cons,
    List.mem_cons, String.reduceEq, List.not_mem_nil, or_self, not_false_eq_true, List.nodup_nil,
    and_self, or_false, forall_eq_or_imp, forall_eq, true_and]
  and_intros <;> first | exact .leaf rfl | exact .leaf (Json.isObject_ofFloat _)

theorem shaped_toJson (before after : Settings) : Json.Shaped before.toJson after.toJson := by
  simp only [toJson, Json.shaped_object_iff, List.mem_cons, List.not_mem_nil, or_false, List.lookup,
    forall_eq_or_imp, BEq.rfl, Option.getD_some, String.reduceBEq, forall_eq]
  and_intros <;> first | exact .leaf rfl | exact .leaf (Json.isObject_ofFloat _)

theorem plain_of_mem {path : List String} (h : path ∈ leafPaths) : Json.Plain path := by
  have hall : ∀ path ∈ leafPaths, path ≠ [] ∧ ∀ key ∈ path, key ≠ "" ∧ '.' ∉ key.toList := by
    decide
  exact hall path h

theorem leafPaths_sorted : (leafPaths.map (Json.dottedAll "")).Pairwise (· < ·) := by
  decide

/-- A patch that is applied is an object, is merged and read, and reports the changed keys. -/
theorem patch_eq_ok_iff {settings next : Settings} {change : Json} {changed : List String} :
    settings.patch change = .ok (next, changed) ↔
      change.isObject ∧ read (settings.toJson.merge change) = .ok next ∧
        changed = Json.changedKeys "" settings.toJson next.toJson := by
  unfold patch
  cases hobject : change.isObject with
  | false => simp
  | true =>
    cases hread : read (settings.toJson.merge change) with
    | error error => simp [bind, Except.bind]
    | ok found =>
      simp only [if_true, bind, Except.bind, pure, Except.pure, Except.ok.injEq, Prod.mk.injEq,
        true_and]
      constructor
      · rintro ⟨rfl, rfl⟩
        exact ⟨rfl, rfl⟩
      · rintro ⟨rfl, rfl⟩
        exact ⟨rfl, rfl⟩

theorem mem_leafPaths {settings : Settings} {path : List String} {leaf : Json}
    (h : (path, leaf) ∈ settings.toJson.leaves) : path ∈ leafPaths := by
  rw [← leaves_toJson settings]
  exact List.mem_map_of_mem h

/-- Settings have values at the same paths. -/
theorem exists_leaf {path : List String} (h : path ∈ leafPaths) (settings : Settings) :
    ∃ leaf, (path, leaf) ∈ settings.toJson.leaves := by
  rw [← leaves_toJson settings] at h
  obtain ⟨⟨_, leaf⟩, hleaf, rfl⟩ := List.mem_map.1 h
  exact ⟨leaf, hleaf⟩

/-- A setting is found by its path with dots between the keys. -/
theorem get?_dottedAll {path : List String} (h : path ∈ leafPaths) (settings : Settings) :
    settings.get? (Json.dottedAll "" path) = settings.toJson.at? path := by
  have hplain := plain_of_mem h
  have hsplit := splitOn_intercalate hplain.1 fun part hpart => (hplain.2 part hpart).2
  rw [Json.dottedAll_eq_intercalate hplain, get?, hsplit, Json.at?]

/-- Whether a key is that of a setting, not of a section, whose value differs. -/
def DiffersAt (before after : Settings) (key : String) : Prop :=
  ∃ old new, before.get? key = some old ∧ after.get? key = some new ∧
    old.isObject = false ∧ new.isObject = false ∧ ¬ Json.same old new

theorem mem_changedKeys_iff {before after : Settings} {key : String} :
    key ∈ Json.changedKeys "" before.toJson after.toJson ↔ before.DiffersAt after key := by
  rw [Json.changedKeys_eq (shaped_toJson before after)]
  constructor
  · intro h
    obtain ⟨⟨path, new⟩, hleaf, rfl⟩ := List.mem_map.1 h
    obtain ⟨hleaf, hchanged⟩ := List.mem_filter.1 hleaf
    have hpath := mem_leafPaths hleaf
    obtain ⟨old, hold⟩ := exists_leaf hpath before
    obtain ⟨hnew, hnewleaf⟩ := (keyed_toJson after).mem_leaves_iff.1 hleaf
    obtain ⟨hold, holdleaf⟩ := (keyed_toJson before).mem_leaves_iff.1 hold
    refine ⟨old, new, ?_, ?_, holdleaf, hnewleaf, ?_⟩
    · rw [get?_dottedAll hpath, hold]
    · rw [get?_dottedAll hpath, hnew]
    · simpa [Json.changedLeaf, hold] using hchanged
  · rintro ⟨old, new, hold, hnew, -, hnewleaf, hdiffers⟩
    have hleaf := (keyed_toJson after).mem_leaves_iff.2 ⟨hnew, hnewleaf⟩
    have hplain := plain_of_mem (mem_leafPaths hleaf)
    refine List.mem_map.2 ⟨_, List.mem_filter.2 ⟨hleaf, ?_⟩, ?_⟩
    · have hold : before.toJson.at? (key.splitOn ".") = some old := hold
      simpa [Json.changedLeaf, hold] using hdiffers
    · rw [Json.dottedAll_eq_intercalate hplain, intercalate_splitOn]

theorem changedKeys_sorted (before after : Settings) :
    (Json.changedKeys "" before.toJson after.toJson).Pairwise (· < ·) := by
  rw [Json.changedKeys_eq (shaped_toJson before after)]
  have hsorted := leafPaths_sorted
  rw [← leaves_toJson after, List.map_map] at hsorted
  exact hsorted.sublist (List.filter_sublist.map _)

end Settings

namespace Editor

/-- A patch is refused and changes nothing, or it leaves valid settings and is reported exactly: the
keys are those of the settings whose values differ, in order and each once, and subscribers are told
of them if there are any. -/
theorem updateSettings_exact (editor : Editor) (change : Json) :
    (∃ error, editor.settings.patch change = .error error ∧
        editor.updateSettings change = (editor, .error (.settings error))) ∨
      ∃ next changed, editor.settings.patch change = .ok (next, changed) ∧
        next.validate = .ok () ∧
        changed.Pairwise (· < ·) ∧
        (∀ key, key ∈ changed ↔ editor.settings.DiffersAt next key) ∧
        editor.updateSettings change =
          ({ editor with settings := next }.emitAll
            (if changed = [] then [] else [.settings changed]), .ok changed) := by
  cases hpatch : editor.settings.patch change with
  | error error =>
    refine Or.inl ⟨error, rfl, ?_⟩
    rw [updateSettings, hpatch]
  | ok result =>
    obtain ⟨next, changed⟩ := result
    obtain ⟨-, hread, hchanged⟩ := Settings.patch_eq_ok_iff.1 hpatch
    refine Or.inr ⟨next, changed, rfl, (Settings.read_ok hread).2, ?_, fun key => ?_, ?_⟩
    · rw [hchanged]
      exact Settings.changedKeys_sorted _ _
    · rw [hchanged]
      exact Settings.mem_changedKeys_iff
    · rw [updateSettings, hpatch]
      cases changed with
      | nil => simp
      | cons key rest => simp [emit_eq_emitAll]

end Editor

end HeadlessEditor
