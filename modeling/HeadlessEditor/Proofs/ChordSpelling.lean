import HeadlessEditor.Proofs.ChordParts
import HeadlessEditor.Proofs.UpperCasing

/-!
Chords read back from their spelling. Reading puts the key that was written into normal form once more.
So a chord comes back as it is only if its key is its own normal form, and if it is not the name of a
modifier. Keys that begin with an ASCII character are so; a few others, which have capitals of ASCII in
their upper-case forms, are not.
-/

namespace HeadlessEditor

namespace KeyChord

open Unicode (isBlank upperCase)

@[simp] theorem lower_cons (c : Char) (rest : Text) : lower (c :: rest) = c.toLower :: lower rest :=
  rfl

@[simp] theorem lower_lower (text : Text) : lower (lower text) = lower text := by
  simp [lower, Function.comp_def]

/-- What the names of modifiers are like: they are in ASCII, and few have the initial of a form that is
in ASCII though its character is not. -/
theorem named?_eq_some {name : String} {modifier : Modifiers}
    (h : Modifiers.named? name = some modifier) :
    (name.toList.all fun c => c.toNat < 0x80) = true ∧ name.toList.head? ≠ some 'i' ∧
    (name.toList.head? = some 's' → name = "shift" ∨ name = "super") := by
  unfold Modifiers.named? at h
  split at h
  all_goals first
    | decide
    | cases h

set_option maxRecDepth 4000 in
/-- What the names of keys are like. -/
theorem namedKey?_eq_some {name key : String} (h : namedKey? name = some key) :
    (name.toList.all fun c => c.toNat < 0x80) = true ∧ 1 < name.toList.length ∧
    (name.toList.head? = some 'i' → name = "ins" ∨ key.toList = 'I' :: name.toList.tail) ∧
    (name.toList.head? = some 's' → key.toList = 'S' :: name.toList.tail) := by
  unfold namedKey? at h
  split at h
  all_goals first
    | obtain rfl := Option.some.inj h
      decide
    | cases h

set_option maxRecDepth 4000 in
/-- The normal forms that names of keys stand for are read as themselves. -/
theorem namedKey?_key {name key : String} (h : namedKey? name = some key) :
    namedKey? (String.ofList (lower key.toList)) = some key ∧
    Modifiers.named? (String.ofList (lower key.toList)) = none ∧
    key ≠ "Shift" ∧ key ≠ "Super" ∧ key ≠ "Ins" := by
  unfold namedKey? at h
  split at h
  all_goals first
    | obtain rfl := Option.some.inj h
      exact ⟨rfl, rfl, by decide⟩
    | cases h

/-- A normal form is what the name stands for, or the name with a capital. -/
theorem normalizeKey_eq (key : Text) :
    normalizeKey key =
      (namedKey? (String.ofList (lower key))).getD (String.ofList (capitalize (lower key))) := by
  unfold normalizeKey
  split
  · rename_i c
    have hnone : namedKey? (String.ofList (lower [c])) = none := by
      by_contra hsome
      obtain ⟨name, hname⟩ := Option.ne_none_iff_exists'.1 hsome
      have hlength := (namedKey?_eq_some hname).2.1
      simp [lower] at hlength
    rw [hnone]
    simp [capitalize, Unicode.upperCase_toLower, lower]
  · cases hnamed : namedKey? (String.ofList (lower key)) with
    | some name => simp [hnamed]
    | none =>
      simp only [hnamed, Option.getD_none]
      split
      · rename_i number hnumber
        split
        · rw [hnumber]
          rfl
        · rfl
      · rfl

theorem normalizeKey_of_named {key : Text} {name : String}
    (h : namedKey? (String.ofList (lower key)) = some name) : normalizeKey key = name := by
  rw [normalizeKey_eq, h, Option.getD_some]

theorem normalizeKey_of_unnamed {key : Text} (h : namedKey? (String.ofList (lower key)) = none) :
    normalizeKey key = String.ofList (capitalize (lower key)) := by
  rw [normalizeKey_eq, h, Option.getD_none]

theorem lower_eq_self_iff (text : Text) : lower text = text ↔ text.any Char.isUpper = false := by
  induction text with
  | nil => simp [lower]
  | cons c rest ih =>
    rw [lower_cons, List.cons.injEq, ih, List.any_cons, Bool.or_eq_false_iff]
    refine and_congr_left fun _ => ⟨fun heq => ?_, fun hupper => ?_⟩
    · rw [← heq]
      exact Char.isUpper_toLower_eq_false c
    · exact Char.toLower_eq_of_not_isUpper (by simp [hupper])

/-- A key that is read back as it is written: it does not look like the name of a modifier or like the
short name of another key, and has no capitals of ASCII behind its first character unless it is a known
key. -/
def Legible (key : String) : Prop :=
  (key ≠ "Shift" ∧ key ≠ "Super" ∧ key ≠ "Ins") ∧
  (namedKey? (String.ofList (lower key.toList)) = some key
    ∨ key.toList.tail.any Char.isUpper = false)

instance (key : String) : Decidable (Legible key) := inferInstanceAs (Decidable (_ ∧ _))

theorem capitalize_lower {part : Text} (hne : part ≠ []) :
    ∃ c rest d ds, part = c :: rest ∧ upperCase c = d :: ds ∧
      capitalize (lower part) = d :: (ds ++ lower rest) := by
  obtain ⟨c, rest, rfl⟩ := List.exists_cons_of_ne_nil hne
  obtain ⟨d, ds, hform⟩ := List.exists_cons_of_ne_nil (Unicode.upperCase_ne_nil c)
  refine ⟨c, rest, d, ds, rfl, hform, ?_⟩
  rw [lower_cons, capitalize, Unicode.upperCase_toLower, hform]
  rfl

/-- Where the lower-case letters of a key are in ASCII, they are those of the part that it was read from,
or the key begins with the form of `ı` or `ſ`. -/
theorem lower_of_ascii {c d : Char} {ds rest : Text} (hform : upperCase c = d :: ds)
    (hsmall : (ds ++ lower rest).any Char.isUpper = false)
    (hascii : ((d.toLower :: (ds ++ lower rest)).all fun x => x.toNat < 0x80) = true) :
    lower (c :: rest) = d.toLower :: (ds ++ lower rest) ∨ d = 'I' ∨ d = 'S' := by
  simp only [List.all_cons, List.all_append, Bool.and_eq_true, decide_eq_true_eq,
    List.all_eq_true] at hascii
  simp only [List.any_append, Bool.or_eq_false_iff, List.any_eq_false, Bool.not_eq_true] at hsmall
  have hd : d.toNat < 0x80 := by
    by_contra hd
    rw [Unicode.toLower_of_not_ascii (Nat.le_of_not_lt hd)] at hascii
    exact hd hascii.1
  obtain ⟨rfl, ⟨hc, rfl⟩ | ⟨-, rfl⟩ | ⟨-, rfl⟩⟩ := Unicode.upperCase_eq_ascii hform
    (List.forall_mem_cons.2 ⟨hd, hascii.2.1⟩) hsmall.1
  · left
    rw [Char.toLower_toUpper_eq_toLower]
    rfl
  · exact .inr (.inl rfl)
  · exact .inr (.inr rfl)

/-- Reading a capitalized name once more. -/
theorem normalizeKey_capital {d : Char} (hd : upperCase d.toLower = [d]) (tail : Text) :
    normalizeKey (d :: tail) =
      (namedKey? (String.ofList (d.toLower :: lower tail))).getD
        (String.ofList (d :: lower tail)) := by
  rw [normalizeKey_eq, lower_cons, capitalize, hd]
  rfl

/-- Keys that are read back are legible. -/
theorem legible_of_reads {d : Char} (hd : upperCase d.toLower = [d]) {tail : Text}
    (hunheld : Modifiers.named? (String.ofList (lower (d :: tail))) = none)
    (hback : normalizeKey (d :: tail) = String.ofList (d :: tail)) :
    Legible (String.ofList (d :: tail)) := by
  have hother : ∀ name : String, String.ofList (d :: tail) = name →
      Modifiers.named? (String.ofList (lower name.toList)) = none ∧
      normalizeKey name.toList = name := by
    rintro _ rfl
    rw [String.toList_ofList]
    exact ⟨hunheld, hback⟩
  refine ⟨⟨?_, ?_, ?_⟩, ?_⟩
  · intro hkey
    exact absurd (hother _ hkey).1 (by decide)
  · intro hkey
    exact absurd (hother _ hkey).1 (by decide)
  · intro hkey
    exact absurd (hother _ hkey).2 (by decide)
  · rw [normalizeKey_capital hd] at hback
    rw [String.toList_ofList, lower_cons]
    cases hnamed : namedKey? (String.ofList (d.toLower :: lower tail)) with
    | some name =>
      rw [hnamed] at hback
      exact .inl (congrArg some hback)
    | none =>
      rw [hnamed, Option.getD_none, String.ofList_inj] at hback
      exact .inr ((lower_eq_self_iff tail).1 (List.cons.inj hback).2)

section Capitals

variable {c d : Char} {ds rest : Text} (hform : upperCase c = d :: ds)
  (hsmall : (ds ++ lower rest).any Char.isUpper = false)
include hform hsmall

/-- A capitalized name is that of a modifier only if it was one before, or begins with `ſ`. -/
theorem unheld_capital (hunheld : Modifiers.named? (String.ofList (lower (c :: rest))) = none)
    (hshift : String.ofList (d :: (ds ++ lower rest)) ≠ "Shift")
    (hsuper : String.ofList (d :: (ds ++ lower rest)) ≠ "Super") :
    Modifiers.named? (String.ofList (d.toLower :: (ds ++ lower rest))) = none := by
  by_contra hheld
  obtain ⟨modifier, hmodifier⟩ := Option.ne_none_iff_exists'.1 hheld
  obtain ⟨hascii, hi, hs⟩ := named?_eq_some hmodifier
  rw [String.toList_ofList] at hascii hi hs
  have hwhere := lower_of_ascii hform hsmall hascii
  generalize ds ++ lower rest = tail at *
  rcases hwhere with hsame | rfl | rfl
  · rw [hsame, hmodifier] at hunheld
    cases hunheld
  · exact hi rfl
  · rcases hs rfl with hname | hname
    · rw [← String.toList_inj, String.toList_ofList] at hname
      obtain rfl : tail = ['h', 'i', 'f', 't'] := (List.cons.inj hname).2
      exact hshift rfl
    · rw [← String.toList_inj, String.toList_ofList] at hname
      obtain rfl : tail = ['u', 'p', 'e', 'r'] := (List.cons.inj hname).2
      exact hsuper rfl

/-- A capitalized name that was not known before is its own normal form, but for the short name of
another key. -/
theorem normalizeKey_capitalized
    (hunnamed : namedKey? (String.ofList (lower (c :: rest))) = none)
    (hins : String.ofList (d :: (ds ++ lower rest)) ≠ "Ins") :
    normalizeKey (d :: (ds ++ lower rest)) = String.ofList (d :: (ds ++ lower rest)) := by
  have hwhere := lower_of_ascii hform hsmall
  rw [normalizeKey_capital (Unicode.upperCase_toLower_head hform),
    (lower_eq_self_iff (ds ++ lower rest)).2 hsmall]
  generalize ds ++ lower rest = tail at *
  cases hnamed : namedKey? (String.ofList (d.toLower :: tail)) with
  | none => rfl
  | some name =>
    obtain ⟨hascii, -, hi, hs⟩ := namedKey?_eq_some hnamed
    rw [String.toList_ofList] at hascii hi hs
    rw [Option.getD_some, ← String.toList_inj, String.toList_ofList]
    rcases hwhere hascii with hsame | rfl | rfl
    · rw [hsame, hnamed] at hunnamed
      cases hunnamed
    · rcases hi rfl with hname | hname
      · rw [← String.toList_inj, String.toList_ofList] at hname
        obtain rfl : tail = ['n', 's'] := (List.cons.inj hname).2
        exact absurd rfl hins
      · exact hname
    · exact hs rfl

end Capitals

/-- Legible keys are read back. -/
theorem reads_of_legible {c d : Char} {ds rest : Text} (hform : upperCase c = d :: ds)
    (hunheld : Modifiers.named? (String.ofList (lower (c :: rest))) = none)
    (hunnamed : namedKey? (String.ofList (lower (c :: rest))) = none)
    (h : Legible (String.ofList (d :: (ds ++ lower rest)))) :
    Modifiers.named? (String.ofList (lower (d :: (ds ++ lower rest)))) = none ∧
    normalizeKey (d :: (ds ++ lower rest)) = String.ofList (d :: (ds ++ lower rest)) := by
  obtain ⟨⟨hshift, hsuper, hins⟩, hknown | hsmall⟩ := h
  · have hfree := (namedKey?_key hknown).2.1
    rw [String.toList_ofList] at hknown hfree
    exact ⟨hfree, normalizeKey_of_named hknown⟩
  · rw [String.toList_ofList, List.tail_cons] at hsmall
    rw [lower_cons, (lower_eq_self_iff (ds ++ lower rest)).2 hsmall]
    exact ⟨unheld_capital hform hsmall hunheld hshift hsuper,
      normalizeKey_capitalized hform hsmall hunnamed hins⟩

/-- A key is read back as it is if and only if it is legible. -/
theorem legible_iff {part : Text} (hne : part ≠ [])
    (hunheld : Modifiers.named? (String.ofList (lower part)) = none) :
    Legible (normalizeKey part) ↔
      Modifiers.named? (String.ofList (lower (normalizeKey part).toList)) = none ∧
      normalizeKey (normalizeKey part).toList = normalizeKey part := by
  cases hnamed : namedKey? (String.ofList (lower part)) with
  | some name =>
    obtain ⟨hknown, hfree, hother⟩ := namedKey?_key hnamed
    rw [normalizeKey_of_named hnamed]
    exact iff_of_true ⟨hother, .inl hknown⟩ ⟨hfree, normalizeKey_of_named hknown⟩
  | none =>
    obtain ⟨c, rest, d, ds, rfl, hform, hcapital⟩ := capitalize_lower hne
    rw [normalizeKey_of_unnamed hnamed, hcapital, String.toList_ofList]
    constructor
    · exact reads_of_legible hform hunheld hnamed
    · rintro ⟨hfree, hback⟩
      exact legible_of_reads (Unicode.upperCase_toLower_head hform) hfree hback

set_option maxRecDepth 4000 in
theorem namedKey?_spelling {name key : String} (h : namedKey? name = some key) :
    key.toList ≠ [] ∧ Trimmed key.toList ∧ '+' ∉ key.toList := by
  unfold namedKey? at h
  split at h
  all_goals first
    | obtain rfl := Option.some.inj h
      decide
    | cases h

theorem capital_spelling {c d : Char} {ds rest : Text} (hform : upperCase c = d :: ds)
    (htrimmed : Trimmed (c :: rest)) (hplus : '+' ∉ c :: rest) :
    Trimmed (d :: (ds ++ lower rest)) ∧ '+' ∉ d :: (ds ++ lower rest) := by
  have hfirst : ∀ x ∈ d :: ds, isBlank x = false ∧ x ≠ '+' := by
    intro x hx
    rcases Unicode.mem_upperCase (hform ▸ hx) with rfl | hplain
    · exact ⟨htrimmed.1, fun heq => hplus (heq ▸ List.mem_cons_self)⟩
    · exact hplain
  refine ⟨⟨(hfirst d List.mem_cons_self).1, ?_⟩, ?_⟩
  · rcases List.eq_nil_or_concat' rest with rfl | ⟨front, last, rfl⟩
    · change (d :: (ds ++ [])).getLast?.any isBlank = false
      rw [List.append_nil]
      cases hlast : (d :: ds).getLast? with
      | none => rfl
      | some x => exact (hfirst x (List.mem_of_getLast? hlast)).1
    · have hblank : isBlank last = false := by
        have hlast := htrimmed.2
        rwa [← List.cons_append, List.getLast?_append_of_ne_nil _ (List.cons_ne_nil _ _)] at hlast
      have hlower : d :: (ds ++ lower (front ++ [last]))
          = (d :: (ds ++ lower front)) ++ [last.toLower] := by
        simp [lower]
      rw [hlower, List.getLast?_append_of_ne_nil _ (List.cons_ne_nil _ _)]
      rcases Unicode.toLower_eq_or last with hsame | hplain
      · rw [hsame]
        exact hblank
      · exact hplain.1
  · intro hmem
    rw [← List.cons_append] at hmem
    rcases List.mem_append.1 hmem with hin | hin
    · exact (hfirst _ hin).2 rfl
    · obtain ⟨y, hy, heq⟩ := List.mem_map.1 hin
      rcases Unicode.toLower_eq_or y with hsame | ⟨-, hne⟩
      · rw [hsame] at heq
        exact hplus (List.mem_cons_of_mem _ (heq ▸ hy))
      · exact hne heq

/-- A normal form is written without blanks around it and, but for the plus key, without plus signs. -/
theorem IsKey.spelling {part : Text} (h : IsKey part) (hplus : '+' ∉ part) :
    let key := (normalizeKey part).toList
    key ≠ [] ∧ Trimmed key ∧ '+' ∉ key := by
  intro key
  cases hnamed : namedKey? (String.ofList (lower part)) with
  | some name =>
    simp only [key, normalizeKey_of_named hnamed]
    exact namedKey?_spelling hnamed
  | none =>
    obtain ⟨c, rest, d, ds, rfl, hform, hcapital⟩ := capitalize_lower h.nonempty
    simp only [key, normalizeKey_of_unnamed hnamed, hcapital, String.toList_ofList]
    exact ⟨List.cons_ne_nil _ _, capital_spelling hform h.trimmed hplus⟩

theorem IsKey.parse_display_iff_legible {part : Text} (h : IsKey part) (modifiers : Modifiers) :
    parse (display ⟨modifiers, normalizeKey part⟩) = .ok ⟨modifiers, normalizeKey part⟩
      ↔ Legible (normalizeKey part) := by
  rcases h.plus with hplus | rfl
  · obtain ⟨hne, htrimmed, hspelled⟩ := h.spelling hplus
    have hread := parse_display modifiers hne htrimmed hspelled
    rw [String.ofList_toList] at hread
    rw [hread, legible_iff h.nonempty h.unheld]
    cases hheld : Modifiers.named? (String.ofList (lower (normalizeKey part).toList)) with
    | some modifier => simp
    | none => simp
  · exact iff_of_true (parse_display_plus modifiers) (show Legible "+" by decide)

/-- A chord that was read is read back from its spelling if and only if its key is legible. -/
theorem parse_display_iff (text : String) (chord : KeyChord) (h : parse text = .ok chord) :
    parse chord.display = .ok chord ↔ Legible chord.key := by
  obtain ⟨part, hpart, -, hkey⟩ := parse_eq_ok h
  obtain ⟨modifiers, key⟩ := chord
  obtain rfl : key = normalizeKey part := hkey
  exact hpart.parse_display_iff_legible modifiers

theorem parse_display_three_names :
    let chord : KeyChord := ⟨{ Modifiers.none with ctrl := true, shift := true }, "ArrowUp"⟩
    parse " shift + up+CTRL" = .ok chord ∧ chord.display = "Ctrl+Shift+ArrowUp" ∧
    parse chord.display = .ok chord := by
  intro chord
  have hread : parse " shift + up+CTRL" = .ok chord := by rfl
  exact ⟨hread, by rfl, (parse_display_iff _ chord hread).2 (by decide)⟩

/-- The upper-case form of `ß` is read as a name of two letters. -/
theorem sharp_s_not_read_back :
    parse "ß" = .ok ⟨.none, "SS"⟩ ∧ parse (display ⟨.none, "SS"⟩) ≠ .ok ⟨.none, "SS"⟩ := by
  have hread : parse (display ⟨.none, "SS"⟩) = .ok ⟨.none, "Ss"⟩ := by rfl
  refine ⟨by rfl, ?_⟩
  rw [hread]
  intro hsame
  exact absurd (congrArg KeyChord.key (Except.ok.inj hsame)) (by decide)

/-- A key that begins with an ASCII character is legible. -/
theorem legible_of_ascii {c : Char} {rest : Text} (hc : c.toNat < 0x80)
    (hunheld : Modifiers.named? (String.ofList (lower (c :: rest))) = none) :
    Legible (normalizeKey (c :: rest)) := by
  rw [legible_iff (List.cons_ne_nil _ _) hunheld]
  cases hnamed : namedKey? (String.ofList (lower (c :: rest))) with
  | some name =>
    obtain ⟨hknown, hfree, -⟩ := namedKey?_key hnamed
    rw [normalizeKey_of_named hnamed]
    exact ⟨hfree, normalizeKey_of_named hknown⟩
  | none =>
    have hkey : normalizeKey (c :: rest) = String.ofList (c.toUpper :: lower rest) := by
      rw [normalizeKey_of_unnamed hnamed, lower_cons, capitalize, Unicode.upperCase_toLower,
        Unicode.upperCase_ascii hc]
      rfl
    -- Upper-casing the first letter is all that was done to the part.
    have hlower : lower (c.toUpper :: lower rest) = lower (c :: rest) := by
      rw [lower_cons, lower_cons, Char.toLower_toUpper_eq_toLower, lower_lower]
    rw [hkey, String.toList_ofList, normalizeKey_eq, hlower, hunheld, ← normalizeKey_eq, hkey]
    exact ⟨rfl, rfl⟩

/-- All chords of ASCII characters are read back. -/
theorem parse_display_of_ascii {text : String} {chord : KeyChord}
    (hascii : ∀ c ∈ text.toList, c.toNat < 0x80) (h : parse text = .ok chord) :
    parse chord.display = .ok chord := by
  obtain ⟨part, hpart, hwhere, hkey⟩ := parse_eq_ok h
  obtain ⟨modifiers, key⟩ := chord
  obtain rfl : key = normalizeKey part := hkey
  rw [hpart.parse_display_iff_legible]
  obtain ⟨c, rest, rfl⟩ := List.exists_cons_of_ne_nil hpart.nonempty
  refine legible_of_ascii ?_ hpart.unheld
  rcases hwhere with hplus | hsubset
  · rw [(List.cons.inj hplus).1]
    decide
  · exact hascii c (hsubset List.mem_cons_self)

end KeyChord

end HeadlessEditor
