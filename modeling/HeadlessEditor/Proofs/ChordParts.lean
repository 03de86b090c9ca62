import HeadlessEditor.Keys.Chord
import Mathlib.Data.List.DropRight

/-!
The parts of a chord. Reading takes the text apart at the plus signs and looks at each part without the
blanks around it; one of them is the key, or the text ends in the plus key. Writing puts the names of the
modifiers in front of the key, so that reading finds the modifiers again and puts the key into normal
form.
-/

namespace HeadlessEditor

namespace KeyChord

open Unicode (isBlank)

def Trimmed (text : Text) : Prop :=
  text.head?.any isBlank = false ∧ text.getLast?.any isBlank = false

instance (text : Text) : Decidable (Trimmed text) := inferInstanceAs (Decidable (_ ∧ _))

theorem trim_eq (text : Text) : trim text = (text.dropWhile isBlank).rdropWhile isBlank := rfl

theorem Trimmed.trim_eq_self {text : Text} (h : Trimmed text) : trim text = text := by
  have hhead : text.dropWhile isBlank = text := by
    cases text with
    | nil => rfl
    | cons c rest =>
      have hc : isBlank c = false := h.1
      rw [List.dropWhile_cons, hc, if_neg Bool.false_ne_true]
  rw [trim_eq, hhead, List.rdropWhile_eq_self_iff]
  intro hne
  have hlast := h.2
  rw [List.getLast?_eq_some_getLast hne] at hlast
  exact Bool.eq_false_iff.1 hlast

theorem trim_sublist (text : Text) : (trim text).Sublist text :=
  ((List.rdropWhile_prefix _ _).sublist).trans (List.dropWhile_sublist _)

theorem trimmed_trim (text : Text) : Trimmed (trim text) := by
  rw [trim_eq]
  constructor
  · cases hhead : ((text.dropWhile isBlank).rdropWhile isBlank).head? with
    | none => rfl
    | some c =>
      obtain ⟨others, hothers⟩ := List.head?_eq_some_iff.1 hhead
      obtain ⟨rest, hrest⟩ := List.rdropWhile_prefix isBlank (text.dropWhile isBlank)
      have hfront := List.head?_dropWhile_not isBlank text
      rw [← hrest, hothers] at hfront
      exact hfront
  · cases hlast : ((text.dropWhile isBlank).rdropWhile isBlank).getLast? with
    | none => rfl
    | some c =>
      obtain ⟨hne, rfl⟩ := List.mem_getLast?_eq_getLast hlast
      exact Bool.eq_false_iff.2 (List.rdropWhile_last_not isBlank _ hne)

theorem pieces_of_notMem {text : Text} (h : '+' ∉ text) : pieces text = [text] := by
  induction text with
  | nil => rfl
  | cons c rest ih =>
    obtain ⟨hc, hrest⟩ := not_or.1 (mt List.mem_cons.2 h)
    rw [pieces, if_neg (Ne.symm hc), ih hrest]

theorem pieces_ne_nil (text : Text) : pieces text ≠ [] := by
  cases text with
  | nil => exact List.cons_ne_nil _ _
  | cons c rest =>
    rw [pieces]
    split
    · exact List.cons_ne_nil _ _
    · split <;> exact List.cons_ne_nil _ _

/-- Pieces are those of what is in front of a plus sign and those of what is behind it. -/
theorem pieces_append (front back : Text) :
    pieces (front ++ '+' :: back) = pieces front ++ pieces back := by
  induction front with
  | nil => simp [pieces]
  | cons c rest ih =>
    rw [List.cons_append, pieces, pieces, ih]
    split
    · rfl
    · obtain ⟨first, others, hrest⟩ := List.exists_cons_of_ne_nil (pieces_ne_nil rest)
      rw [hrest]
      rfl

theorem pieces_append_plus {name : Text} (h : '+' ∉ name) (rest : Text) :
    pieces (name ++ '+' :: rest) = name :: pieces rest := by
  rw [pieces_append, pieces_of_notMem h, List.singleton_append]

theorem notMem_of_mem_pieces {text piece : Text} (h : piece ∈ pieces text) : '+' ∉ piece := by
  induction text generalizing piece with
  | nil =>
    obtain rfl := List.mem_singleton.1 h
    exact List.not_mem_nil
  | cons c rest ih =>
    rw [pieces] at h
    split at h
    · rcases List.mem_cons.1 h with rfl | hrest
      · exact List.not_mem_nil
      · exact ih hrest
    · rename_i hc
      cases hpieces : pieces rest with
      | nil =>
        rw [hpieces] at h
        obtain rfl := List.mem_singleton.1 h
        simpa using Ne.symm hc
      | cons first others =>
        rw [hpieces] at h ih
        rcases List.mem_cons.1 h with rfl | hothers
        · intro hmem
          rcases List.mem_cons.1 hmem with hplus | hfirst
          · exact hc hplus.symm
          · exact ih List.mem_cons_self hfirst
        · exact ih (List.mem_cons_of_mem _ hothers)

theorem subset_of_mem_pieces {text piece : Text} (h : piece ∈ pieces text) : piece ⊆ text := by
  induction text generalizing piece with
  | nil =>
    obtain rfl := List.mem_singleton.1 h
    exact List.nil_subset _
  | cons c rest ih =>
    rw [pieces] at h
    split at h
    · rcases List.mem_cons.1 h with rfl | hrest
      · exact List.nil_subset _
      · exact List.subset_cons_of_subset _ (ih hrest)
    · cases hpieces : pieces rest with
      | nil =>
        rw [hpieces] at h
        obtain rfl := List.mem_singleton.1 h
        simp
      | cons first others =>
        rw [hpieces] at h ih
        rcases List.mem_cons.1 h with rfl | hothers
        · exact List.cons_subset_cons _ (ih List.mem_cons_self)
        · exact List.subset_cons_of_subset _ (ih (List.mem_cons_of_mem _ hothers))

theorem splitPlus_subset (text : Text) : (splitPlus text).1 ⊆ text := by
  unfold splitPlus
  split
  · exact List.nil_subset _
  · split
    · rename_i rest hreverse
      have htext : text = rest.reverse ++ ['+', '+'] := by
        rw [← List.reverse_inj, hreverse]
        simp
      rw [htext]
      exact List.subset_append_left _ _
    · exact List.Subset.refl _

structure IsKey (part : Text) : Prop where
  nonempty : part ≠ []
  trimmed : Trimmed part
  plus : '+' ∉ part ∨ part = ['+']
  unheld : Modifiers.named? (String.ofList (lower part)) = none

theorem mem_of_foldlM_addPart? {parts : List Text} {modifiers : Modifiers} {found : Option Text}
    {held : Modifiers} {key : Text}
    (h : parts.foldlM addPart? (modifiers, found) = some (held, some key)) :
    found = some key ∨ key ∈ parts ∧ Modifiers.named? (String.ofList (lower key)) = none := by
  induction parts generalizing modifiers found with
  | nil =>
    left
    simpa using congrArg Prod.snd (Option.some.inj h)
  | cons part rest ih =>
    rw [List.foldlM_cons, Option.bind_eq_bind, Option.bind_eq_some_iff] at h
    obtain ⟨next, hnext, hrest⟩ := h
    unfold addPart? at hnext
    split at hnext
    · obtain rfl := Option.some.inj hnext
      exact (ih hrest).imp_right fun hmem => ⟨List.mem_cons_of_mem _ hmem.1, hmem.2⟩
    · rename_i hunheld
      split at hnext
      · cases hnext
      · obtain rfl := Option.some.inj hnext
        right
        rcases ih hrest with hkey | ⟨hmem, hkey⟩
        · obtain rfl := Option.some.inj hkey
          exact ⟨List.mem_cons_self, hunheld⟩
        · exact ⟨List.mem_cons_of_mem _ hmem, hkey⟩

/-- A chord that is read has a part of the text as its key, or the plus key, put into normal form. -/
theorem parse_eq_ok {text : String} {chord : KeyChord} (h : parse text = .ok chord) :
    ∃ part, IsKey part ∧ (part = ['+'] ∨ part ⊆ text.toList) ∧ chord.key = normalizeKey part := by
  simp only [parse] at h
  split at h
  · cases h
  · split at h
    · cases h
    · cases h
    · rename_i held key hfold
      obtain rfl := Except.ok.inj h
      rcases mem_of_foldlM_addPart? hfold with hplus | ⟨hmem, hunheld⟩
      · obtain rfl : key = ['+'] := by
          split at hplus
          · exact (Option.some.inj hplus).symm
          · cases hplus
        exact ⟨['+'], ⟨List.cons_ne_nil _ _, by decide, .inr rfl, rfl⟩, .inl rfl, rfl⟩
      · obtain ⟨hmem, hne⟩ := List.mem_filter.1 hmem
        obtain ⟨piece, hpiece, rfl⟩ := List.mem_map.1 hmem
        have hin : trim piece ⊆ piece := (trim_sublist piece).subset
        have hout : piece ⊆ text.toList :=
          List.Subset.trans (subset_of_mem_pieces hpiece)
            (List.Subset.trans (splitPlus_subset _) (trim_sublist text.toList).subset)
        have hplus : '+' ∉ trim piece := fun hmem => notMem_of_mem_pieces hpiece (hin hmem)
        exact ⟨trim piece, ⟨by simpa using hne, trimmed_trim piece, .inl hplus, hunheld⟩,
          .inr (List.Subset.trans hin hout), rfl⟩

def spell (names : List Text) (key : Text) : Text := names.flatMap (· ++ ['+']) ++ key

theorem toList_display (chord : KeyChord) :
    chord.display.toList = spell (chord.modifiers.names.map String.toList) chord.key.toList := by
  rw [display, String.toList_append, String.toList_join, List.flatMap_map, spell, List.flatMap_map]
  simp

def Prefixes (names : List Text) : Prop := ∀ name ∈ names, name ≠ [] ∧ Trimmed name ∧ '+' ∉ name

theorem prefixes_names (modifiers : Modifiers) :
    Prefixes (modifiers.names.map String.toList) := by
  have hall : ∀ name ∈ ["Ctrl", "Alt", "Shift", "Meta"],
      name.toList ≠ [] ∧ Trimmed name.toList ∧ '+' ∉ name.toList := by
    decide
  intro text htext
  obtain ⟨name, hname, rfl⟩ := List.mem_map.1 htext
  obtain ⟨⟨held, known⟩, hknown, hheld⟩ := List.mem_filterMap.1 hname
  obtain ⟨-, hsame⟩ := Option.ite_none_right_eq_some.1 hheld
  obtain rfl := Option.some.inj hsame
  exact hall known (List.mem_map_of_mem (f := Prod.snd) hknown)

/-- The names of modifiers are read as the modifiers. -/
theorem foldlM_names (modifiers : Modifiers) (found : Option Text) :
    (modifiers.names.map String.toList).foldlM addPart? (.none, found) = some (modifiers, found) := by
  obtain ⟨ctrl, alt, shift, super⟩ := modifiers
  cases ctrl <;> cases alt <;> cases shift <;> cases super <;> rfl

theorem pieces_spell {names : List Text} (h : Prefixes names) (key : Text) :
    pieces (spell names key) = names ++ pieces key := by
  induction names with
  | nil => rfl
  | cons name rest ih =>
    have hrest := ih fun other hother => h other (List.mem_cons_of_mem _ hother)
    have hname := (h name List.mem_cons_self).2.2
    rw [spell, List.flatMap_cons, List.append_assoc, List.append_assoc, List.singleton_append,
      pieces_append_plus hname]
    exact congrArg (name :: ·) hrest

theorem trimmed_spell {names : List Text} (h : Prefixes names) {key : Text} (hne : key ≠ [])
    (hkey : Trimmed key) : Trimmed (spell names key) := by
  constructor
  · cases names with
    | nil => exact hkey.1
    | cons name rest =>
      obtain ⟨hname, htrimmed, -⟩ := h name List.mem_cons_self
      obtain ⟨c, others, rfl⟩ := List.exists_cons_of_ne_nil hname
      exact htrimmed.1
  · rw [spell, List.getLast?_append_of_ne_nil _ hne]
    exact hkey.2

/-- Only a plus key is taken off the end. -/
theorem splitPlus_spell (names : List Text) {key : Text} (hne : key ≠ []) (hplus : '+' ∉ key) :
    splitPlus (spell names key) = (spell names key, false) := by
  obtain ⟨front, last, rfl⟩ := (List.eq_nil_or_concat' key).resolve_left hne
  have hlast : last ≠ '+' := by
    rintro rfl
    exact hplus (by simp)
  have hreverse : (spell names (front ++ [last])).reverse
      = last :: (names.flatMap (· ++ ['+']) ++ front).reverse := by simp [spell]
  have hone : spell names (front ++ [last]) ≠ ['+'] := by
    intro heq
    rw [heq] at hreverse
    exact hlast (List.cons.inj hreverse).1.symm
  rw [splitPlus, if_neg hone, hreverse]
  simp [hlast]

/-- What is written is read with its key put into normal form, or without a key if that is the name of a
modifier. -/
theorem parse_display (modifiers : Modifiers) {key : Text} (hne : key ≠ []) (htrimmed : Trimmed key)
    (hplus : '+' ∉ key) :
    parse (display ⟨modifiers, String.ofList key⟩) =
      if (Modifiers.named? (String.ofList (lower key))).isSome
      then .error (.missingKey (display ⟨modifiers, String.ofList key⟩))
      else .ok ⟨modifiers, normalizeKey key⟩ := by
  have hnames := prefixes_names modifiers
  have hfold := foldlM_names modifiers none
  have htext := toList_display ⟨modifiers, String.ofList key⟩
  rw [String.toList_ofList] at htext
  generalize modifiers.names.map String.toList = names at hnames hfold htext
  have htrim := (trimmed_spell hnames hne htrimmed).trim_eq_self
  have hempty : (spell names key).isEmpty = false := by simp [spell, hne]
  have hparts : ((pieces (spell names key)).map trim).filter (!·.isEmpty) = names ++ [key] := by
    have hall : ∀ part ∈ names ++ [key], part ≠ [] ∧ Trimmed part := by
      intro part hpart
      rcases List.mem_append.1 hpart with hname | hkey
      · exact ⟨(hnames part hname).1, (hnames part hname).2.1⟩
      · obtain rfl := List.mem_singleton.1 hkey
        exact ⟨hne, htrimmed⟩
    have hmap : (names ++ [key]).map trim = names ++ [key] :=
      (List.map_congr_left fun part hpart => (hall part hpart).2.trim_eq_self).trans
        (List.map_id _)
    rw [pieces_spell hnames, pieces_of_notMem hplus, hmap, List.filter_eq_self]
    intro part hpart
    simp [(hall part hpart).1]
  unfold parse
  simp only [htext, htrim, hempty, splitPlus_spell names hne hplus, hparts, Bool.false_eq_true,
    if_false, List.foldlM_append, hfold]
  cases hheld : Modifiers.named? (String.ofList (lower key)) with
  | none => simp [addPart?, hheld]
  | some modifier => simp [addPart?, hheld]

/-- The plus key is read back, whatever is held. -/
theorem parse_display_plus (modifiers : Modifiers) :
    parse (display ⟨modifiers, "+"⟩) = .ok ⟨modifiers, "+"⟩ := by
  obtain ⟨ctrl, alt, shift, super⟩ := modifiers
  cases ctrl <;> cases alt <;> cases shift <;> cases super <;> rfl

end KeyChord

end HeadlessEditor
