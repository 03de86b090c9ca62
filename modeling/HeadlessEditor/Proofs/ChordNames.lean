import HeadlessEditor.Proofs.ChordSpelling

/-!
Chords as they are written by hand: names joined by plus signs, in any order, in upper or lower case and
with blanks around them, and at the end the plus key, if it is wanted. Only the names count. Those of
modifiers are held down, in whatever order and however often they come, and one other name is the key.
-/

namespace HeadlessEditor

namespace KeyChord

open Unicode (isBlank)

section Blanks

variable {blanks : Text} (h : ∀ c ∈ blanks, isBlank c = true)
include h

theorem trim_append_left (text : Text) : trim (blanks ++ text) = trim text := by
  rw [trim_eq, trim_eq, List.dropWhile_append_of_pos h]

theorem trim_append_right (text : Text) : trim (text ++ blanks) = trim text := by
  have hback : ∀ front : Text, (front ++ blanks).rdropWhile isBlank = front.rdropWhile isBlank := by
    intro front
    rw [List.rdropWhile, List.reverse_append,
      List.dropWhile_append_of_pos fun c hc => h c (List.mem_reverse.1 hc), List.rdropWhile]
  rw [trim_eq, trim_eq, List.dropWhile_append]
  split
  · rename_i hblank
    rw [List.isEmpty_iff.1 hblank, List.dropWhile_eq_nil_iff.2 h]
  · exact hback _

theorem plus_notMem_blanks : '+' ∉ blanks := by
  intro hplus
  have hblank := h '+' hplus
  revert hblank
  decide

/-- Blanks in front of a text make no difference to its pieces without the blanks around them. -/
theorem map_trim_pieces_append_left (text : Text) :
    (pieces (blanks ++ text)).map trim = (pieces text).map trim := by
  by_cases hplus : '+' ∈ text
  · obtain ⟨front, back, rfl, hfront⟩ := List.eq_append_cons_of_mem hplus
    have hin : '+' ∉ blanks ++ front := by
      rw [List.mem_append, not_or]
      exact ⟨plus_notMem_blanks h, hfront⟩
    rw [← List.append_assoc, pieces_append_plus hin, pieces_append_plus hfront, List.map_cons,
      List.map_cons, trim_append_left h]
  · have hin : '+' ∉ blanks ++ text := by
      rw [List.mem_append, not_or]
      exact ⟨plus_notMem_blanks h, hplus⟩
    rw [pieces_of_notMem hin, pieces_of_notMem hplus, List.map_singleton, List.map_singleton,
      trim_append_left h]

/-- Nor do blanks behind it: the pieces in front of the last one stay. -/
theorem map_trim_pieces_append_right (text : Text) :
    (pieces (text ++ blanks)).map trim = (pieces text).map trim := by
  by_cases hplus : '+' ∈ text
  · obtain ⟨front, back, hsplit, -⟩ := List.eq_append_cons_of_mem hplus
    have hback := map_trim_pieces_append_right back
    rw [hsplit, List.append_assoc, List.cons_append, pieces_append, pieces_append, List.map_append,
      List.map_append, hback]
  · have hin : '+' ∉ text ++ blanks := by
      rw [List.mem_append, not_or]
      exact ⟨hplus, plus_notMem_blanks h⟩
    rw [pieces_of_notMem hin, pieces_of_notMem hplus, List.map_singleton, List.map_singleton,
      trim_append_right h]
termination_by text.length
decreasing_by
  rw [hsplit, List.length_append, List.length_cons]
  omega

end Blanks

/-- What trimming takes off are blanks. -/
theorem trim_split (text : Text) : ∃ before after, (∀ c ∈ before, isBlank c = true) ∧
    (∀ c ∈ after, isBlank c = true) ∧ text = before ++ trim text ++ after := by
  refine ⟨text.takeWhile isBlank, (text.dropWhile isBlank).rtakeWhile isBlank,
    fun c => List.mem_takeWhile_imp, fun c => List.mem_rtakeWhile_imp, ?_⟩
  rw [trim_eq, List.append_assoc, List.rdropWhile_append_rtakeWhile, List.takeWhile_append_dropWhile]

theorem map_trim_pieces_trim (text : Text) :
    (pieces (trim text)).map trim = (pieces text).map trim := by
  obtain ⟨before, after, hbefore, hafter, htext⟩ := trim_split text
  calc (pieces (trim text)).map trim
      = (pieces (before ++ trim text)).map trim :=
        (map_trim_pieces_append_left hbefore _).symm
    _ = (pieces (before ++ trim text ++ after)).map trim :=
        (map_trim_pieces_append_right hafter _).symm
    _ = (pieces text).map trim := by rw [← htext]

theorem map_trim_pieces_dropWhile (text : Text) :
    (pieces (text.dropWhile isBlank)).map trim = (pieces text).map trim := by
  have hblanks : ∀ c ∈ text.takeWhile isBlank, isBlank c = true := fun c => List.mem_takeWhile_imp
  have hsplit := map_trim_pieces_append_left hblanks (text.dropWhile isBlank)
  rw [List.takeWhile_append_dropWhile] at hsplit
  exact hsplit.symm

structure SpacedName where
  before : Text
  name : Text
  after : Text
  blank_before : ∀ c ∈ before, isBlank c = true
  blank_after : ∀ c ∈ after, isBlank c = true
  nonempty : name ≠ []
  trimmed : Trimmed name
  plus : '+' ∉ name

namespace SpacedName

def text (part : SpacedName) : Text := part.before ++ part.name ++ part.after

theorem trim_text (part : SpacedName) : trim part.text = part.name := by
  rw [text, trim_append_right part.blank_after, trim_append_left part.blank_before,
    part.trimmed.trim_eq_self]

theorem plus_notMem_text (part : SpacedName) : '+' ∉ part.text := by
  simp only [text, List.mem_append, not_or]
  exact ⟨⟨plus_notMem_blanks part.blank_before, part.plus⟩, plus_notMem_blanks part.blank_after⟩

/-- There is more than blanks. -/
theorem not_blank_text (part : SpacedName) : ¬ ∀ c ∈ part.text, isBlank c = true := by
  intro hblank
  have hnone : trim part.text = trim [] := trim_append_left hblank [] ▸ by rw [List.append_nil]
  rw [trim_text] at hnone
  exact part.nonempty hnone

end SpacedName

def joined (parts : List SpacedName) : Text := ['+'].intercalate (parts.map SpacedName.text)

theorem pieces_joined {parts : List SpacedName} (hne : parts ≠ []) :
    pieces (joined parts) = parts.map SpacedName.text := by
  induction parts with
  | nil => exact absurd rfl hne
  | cons part rest ih =>
    cases rest with
    | nil =>
      rw [joined, List.map_singleton, List.intercalate_singleton]
      exact pieces_of_notMem part.plus_notMem_text
    | cons next others =>
      have hrest := ih (List.cons_ne_nil next others)
      rw [joined, List.map_cons] at hrest
      rw [joined, List.map_cons, List.map_cons, List.intercalate_cons_cons, List.append_assoc,
        List.singleton_append, pieces_append_plus part.plus_notMem_text, hrest]

theorem map_trim_pieces_joined {parts : List SpacedName} (hne : parts ≠ []) :
    (pieces (joined parts)).map trim = parts.map (·.name) := by
  rw [pieces_joined hne, List.map_map]
  exact List.map_congr_left fun part _ => part.trim_text

/-- The chord of these names, with the plus key behind them if it is wanted. -/
def written (parts : List SpacedName) (plusKey : Bool) : Text :=
  joined parts ++ if plusKey then ['+', '+'] else []

/-- The last name is followed by no plus sign but those of the plus key. -/
theorem getLast?_trim_joined {parts : List SpacedName} (hne : parts ≠ []) :
    (trim (joined parts)).getLast? ≠ some '+' := by
  intro hlast
  obtain ⟨before, after, -, hafter, htext⟩ := trim_split (joined parts)
  obtain ⟨front, hfront⟩ := List.getLast?_eq_some_iff.1 hlast
  -- The blanks at the end would be a piece of their own, but each piece has a name in it.
  have hpieces := pieces_joined hne
  rw [htext, hfront, List.append_assoc, List.append_assoc, List.singleton_append,
    ← List.append_assoc, pieces_append, pieces_of_notMem (plus_notMem_blanks hafter)] at hpieces
  have hmem : after ∈ parts.map SpacedName.text := by
    rw [← hpieces]
    exact List.mem_append_right _ (List.mem_singleton_self _)
  obtain ⟨part, -, rfl⟩ := List.mem_map.1 hmem
  exact part.not_blank_text hafter

theorem splitPlus_of_getLast {text : Text} (h : text.getLast? ≠ some '+') :
    splitPlus text = (text, false) := by
  unfold splitPlus
  split
  · rename_i hplus
    rw [hplus] at h
    exact absurd rfl h
  · split
    · rename_i rest hreverse
      rw [List.getLast?_eq_head?_reverse, hreverse] at h
      exact absurd rfl h
    · rfl

theorem splitPlus_append_plus (text : Text) : splitPlus (text ++ ['+', '+']) = (text, true) := by
  have hlonger : text ++ ['+', '+'] ≠ ['+'] := by
    intro heq
    have hlength := congrArg List.length heq
    simp at hlength
  have hreverse : (text ++ ['+', '+']).reverse = '+' :: '+' :: text.reverse := by simp
  rw [splitPlus, if_neg hlonger, hreverse]
  simp

theorem trim_append_plus (text : Text) :
    trim (text ++ ['+', '+']) = text.dropWhile isBlank ++ ['+', '+'] := by
  have hplus : ['+', '+'].dropWhile isBlank = ['+', '+'] := by decide
  have hfront : (text ++ ['+', '+']).dropWhile isBlank = text.dropWhile isBlank ++ ['+', '+'] := by
    rw [List.dropWhile_append]
    split
    · rename_i hblank
      rw [List.isEmpty_iff.1 hblank, hplus, List.nil_append]
    · rfl
  have hlast := List.rdropWhile_concat_neg isBlank (text.dropWhile isBlank ++ ['+']) '+' (by decide)
  rw [List.append_assoc, List.singleton_append] at hlast
  rw [trim_eq, hfront, hlast]

/-- What a written chord is taken apart into. -/
theorem splitPlus_trim_written {parts : List SpacedName} (hne : parts ≠ []) (plusKey : Bool) :
    ∃ body, splitPlus (trim (written parts plusKey)) = (body, plusKey) ∧
      trim (written parts plusKey) ≠ [] ∧ (pieces body).map trim = parts.map (·.name) := by
  cases plusKey with
  | true =>
    refine ⟨(joined parts).dropWhile isBlank, ?_, ?_, ?_⟩
    · rw [written, if_pos rfl, trim_append_plus, splitPlus_append_plus]
    · rw [written, if_pos rfl, trim_append_plus]
      simp
    · rw [map_trim_pieces_dropWhile, map_trim_pieces_joined hne]
  | false =>
    have hnames := (map_trim_pieces_trim (joined parts)).trans (map_trim_pieces_joined hne)
    refine ⟨trim (joined parts), ?_, ?_, hnames⟩
    · rw [written, if_neg Bool.false_ne_true, List.append_nil,
        splitPlus_of_getLast (getLast?_trim_joined hne)]
    · rw [written, if_neg Bool.false_ne_true, List.append_nil]
      intro hempty
      rw [hempty] at hnames
      have hname : [] ∈ parts.map (·.name) := hnames ▸ List.mem_singleton_self _
      obtain ⟨part, -, hpart⟩ := List.mem_map.1 hname
      exact part.nonempty hpart

/-- The modifier that a name stands for, whatever the case of its letters. -/
def modifier? (name : Text) : Option Modifiers := Modifiers.named? (String.ofList (lower name))

def heldBy (names : List Text) : Modifiers where
  ctrl := names.any fun name => (modifier? name).any (·.ctrl)
  alt := names.any fun name => (modifier? name).any (·.alt)
  shift := names.any fun name => (modifier? name).any (·.shift)
  super := names.any fun name => (modifier? name).any (·.super)

def keyNames (names : List Text) : List Text := names.filter fun name => (modifier? name).isNone

theorem heldBy_cons_of_modifier {name : Text} {modifier : Modifiers}
    (h : modifier? name = some modifier) (held : Modifiers) (names : List Text) :
    held.union (heldBy (name :: names)) = (held.union modifier).union (heldBy names) := by
  simp [Modifiers.union, heldBy, h, Bool.or_assoc]

theorem heldBy_cons_of_key {name : Text} (h : modifier? name = none) (names : List Text) :
    heldBy (name :: names) = heldBy names := by
  simp [heldBy, h]

/-- All modifiers count, and there may be one key in all. -/
theorem foldlM_addPart? (names : List Text) (held : Modifiers) (found : Option Text) :
    names.foldlM addPart? (held, found) =
      let keys := found.toList ++ keyNames names
      if keys.length ≤ 1 then some (held.union (heldBy names), keys.head?) else none := by
  induction names generalizing held found with
  | nil => cases found <;> simp [keyNames, heldBy, Modifiers.union]
  | cons name rest ih =>
    rw [List.foldlM_cons]
    cases hname : modifier? name with
    | some modifier =>
      have hkeys : keyNames (name :: rest) = keyNames rest := by simp [keyNames, hname]
      have hadd : addPart? (held, found) name = some (held.union modifier, found) := by
        rw [modifier?] at hname
        simp [addPart?, hname]
      rw [hadd, Option.bind_eq_bind, Option.bind_some, ih, hkeys, heldBy_cons_of_modifier hname]
    | none =>
      have hkeys : keyNames (name :: rest) = name :: keyNames rest := by simp [keyNames, hname]
      rw [modifier?] at hname
      cases found with
      | none =>
        have hadd : addPart? (held, none) name = some (held, some name) := by
          simp [addPart?, hname]
        rw [hadd, Option.bind_eq_bind, Option.bind_some, ih, hkeys, heldBy_cons_of_key hname]
        rfl
      | some key =>
        have hadd : addPart? (held, some key) name = none := by simp [addPart?, hname]
        rw [hadd, hkeys]
        simp

/-- A chord with its keys counted. -/
def reading (text : String) (held : Modifiers) : List Text → Except ChordError KeyChord
  | [] => .error (.missingKey text)
  | [key] => .ok ⟨held, normalizeKey key⟩
  | _ :: _ :: _ => .error (.multipleKeys text)

theorem reading_eq_ok_iff {text : String} {held : Modifiers} {keys : List Text} {chord : KeyChord} :
    reading text held keys = .ok chord ↔
      ∃ key, keys = [key] ∧ chord = ⟨held, normalizeKey key⟩ := by
  match keys with
  | [] => simp [reading]
  | [key] => simp [reading, eq_comm]
  | _ :: _ :: _ => simp [reading]

theorem reading_of_two_le {text : String} {held : Modifiers} {keys : List Text}
    (h : 2 ≤ keys.length) : reading text held keys = .error (.multipleKeys text) := by
  match keys with
  | [] | [_] => simp at h
  | _ :: _ :: _ => rfl

def keysOf (names : List Text) (plusKey : Bool) : List Text :=
  (if plusKey then [['+']] else []) ++ keyNames names

theorem parse_written {parts : List SpacedName} (hne : parts ≠ []) (plusKey : Bool) :
    let text := String.ofList (written parts plusKey)
    parse text =
      reading text (heldBy (parts.map (·.name))) (keysOf (parts.map (·.name)) plusKey) := by
  intro text
  obtain ⟨body, hbody, hsome, hnames⟩ := splitPlus_trim_written hne plusKey
  have hempty : (trim (written parts plusKey)).isEmpty = false := by simpa using hsome
  have hall : (parts.map (·.name)).filter (!·.isEmpty) = parts.map (·.name) := by
    rw [List.filter_eq_self]
    intro name hname
    obtain ⟨part, -, rfl⟩ := List.mem_map.1 hname
    simp [part.nonempty]
  have hkeys : (if plusKey then some ['+'] else none).toList ++ keyNames (parts.map (·.name))
      = keysOf (parts.map (·.name)) plusKey := by
    cases plusKey <;> rfl
  have hnone : Modifiers.none.union (heldBy (parts.map (·.name))) = heldBy (parts.map (·.name)) := by
    simp [Modifiers.union, Modifiers.none]
  simp only [parse, text, String.toList_ofList, hempty, hbody, hnames, hall, foldlM_addPart?, hkeys,
    hnone, Bool.false_eq_true, if_false]
  generalize keysOf (parts.map (·.name)) plusKey = keys
  rcases keys with _ | ⟨key, _ | ⟨other, rest⟩⟩
  · rfl
  · rfl
  · simp [reading]

inductive Reworded : List Text → List Text → Prop where
  | permuted {names others : List Text} (h : names.Perm others) : Reworded names others
  | repeated {names : List Text} {name : Text} (mem : name ∈ names)
      (modifier : (modifier? name).isSome) : Reworded names (name :: names)
  | recased {names others : List Text} (h : names.map lower = others.map lower) :
      Reworded names others
  | trans {names between others : List Text} (first : Reworded names between)
      (second : Reworded between others) : Reworded names others

/-- Only the letters in lower case count. -/
theorem modifier?_lower (name : Text) : modifier? (lower name) = modifier? name := by
  rw [modifier?, modifier?, lower_lower]

theorem any_modifier?_lower (names : List Text) (holds : Modifiers → Bool) :
    (names.map lower).any (fun name => (modifier? name).any holds)
      = names.any fun name => (modifier? name).any holds := by
  simp [List.any_map, Function.comp_def, modifier?_lower]

theorem map_lower_keyNames (names : List Text) :
    (keyNames names).map lower = keyNames (names.map lower) := by
  rw [keyNames, keyNames, List.filter_map]
  simp [Function.comp_def, modifier?_lower]

/-- Other words name the same modifiers, and the same keys but for the case of letters. -/
theorem Reworded.same {names others : List Text} (h : Reworded names others) :
    (∀ holds : Modifiers → Bool, names.any (fun name => (modifier? name).any holds)
      = others.any fun name => (modifier? name).any holds) ∧
    ((keyNames names).map lower).Perm ((keyNames others).map lower) ∧ (names = [] ↔ others = []) := by
  induction h with
  | permuted h =>
    refine ⟨fun holds => h.any_eq, (h.filter _).map _, ?_⟩
    rw [← List.length_eq_zero_iff, h.length_eq, List.length_eq_zero_iff]
  | @repeated names name mem modifier =>
    refine ⟨fun holds => ?_, ?_, ?_⟩
    · have hin : (modifier? name).any holds = true →
          names.any (fun name => (modifier? name).any holds) = true :=
        fun hholds => List.any_eq_true.2 ⟨name, mem, hholds⟩
      rw [List.any_cons, Bool.eq_iff_iff, Bool.or_eq_true]
      exact ⟨Or.inr, fun hholds => hholds.elim hin id⟩
    · have hkeys : keyNames (name :: names) = keyNames names := by
        simp [keyNames, Option.isNone_eq_false_iff.2 modifier]
      rw [hkeys]
    · exact iff_of_false (List.ne_nil_of_mem mem) (List.cons_ne_nil _ _)
  | recased h =>
    refine ⟨fun holds => ?_, ?_, ?_⟩
    · rw [← any_modifier?_lower, h, any_modifier?_lower]
    · rw [map_lower_keyNames, h, map_lower_keyNames]
    · rw [← List.map_eq_nil_iff (f := lower), h, List.map_eq_nil_iff]
  | trans first second ihFirst ihSecond =>
    obtain ⟨hheld, hkeys, hnil⟩ := ihFirst
    obtain ⟨hheld', hkeys', hnil'⟩ := ihSecond
    exact ⟨fun holds => (hheld holds).trans (hheld' holds), hkeys.trans hkeys', hnil.trans hnil'⟩

theorem normalizeKey_congr {key other : Text} (h : lower key = lower other) :
    normalizeKey key = normalizeKey other := by
  rw [normalizeKey_eq, normalizeKey_eq, h]

/-- A chord that is read is read alike from other words. -/
theorem Reworded.reading {names others : List Text} (h : Reworded names others) {plusKey : Bool}
    {text other : String} {chord : KeyChord}
    (hok : reading text (heldBy names) (keysOf names plusKey) = .ok chord) :
    KeyChord.reading other (heldBy others) (keysOf others plusKey) = .ok chord := by
  obtain ⟨hheld, hperm, -⟩ := h.same
  have hsame : heldBy names = heldBy others := by simp only [heldBy, hheld]
  obtain ⟨key, hkeys, rfl⟩ := reading_eq_ok_iff.1 hok
  have hone : (keysOf others plusKey).map lower = [lower key] := by
    have hboth := hperm.append_left (((if plusKey then [['+']] else []) : List Text).map lower)
    rw [← List.map_append, ← List.map_append, ← keysOf, ← keysOf, hkeys] at hboth
    exact List.perm_singleton.1 hboth.symm
  obtain ⟨key', hkeys', hlower⟩ := List.map_eq_singleton_iff.1 hone
  rw [reading_eq_ok_iff]
  exact ⟨key', hkeys', by rw [hsame, normalizeKey_congr hlower]⟩

/-- Reading takes a chord for its names, wherever there are blanks. It is the modifiers among them and the
one key that there is, the plus key counted; without a key, or with several, it is refused. Other words
for a chord that is read are read as that chord. -/
theorem parse_written_names (parts : List SpacedName) (plusKey : Bool) :
    let names := parts.map (·.name)
    let keys := (if plusKey then [['+']] else []) ++ keyNames names
    let text := String.ofList (written parts plusKey)
    parts ≠ [] →
    (keys.length = 0 → parse text = .error (.missingKey text)) ∧
    (∀ key, keys = [key] → parse text = .ok ⟨heldBy names, normalizeKey key⟩) ∧
    (2 ≤ keys.length → parse text = .error (.multipleKeys text)) ∧
    ∀ (others : List SpacedName) (chord : KeyChord), Reworded names (others.map (·.name)) →
      parse text = .ok chord → parse (String.ofList (written others plusKey)) = .ok chord := by
  intro names keys text hne
  have hread : parse text = reading text (heldBy names) keys := parse_written hne plusKey
  refine ⟨fun hnone => ?_, fun key hone => ?_, fun hseveral => ?_, fun others chord hwords hok => ?_⟩
  · rw [hread, List.length_eq_zero_iff.1 hnone]
    rfl
  · rw [hread, hone]
    rfl
  · rw [hread, reading_of_two_le hseveral]
  · have hothers : others ≠ [] := by
      rintro rfl
      exact hne (List.map_eq_nil_iff.1 (hwords.same.2.2.2 rfl))
    rw [hread] at hok
    rw [parse_written hothers]
    exact hwords.reading hok

/-- `" Shift+k "` and `"K+SHIFT+ Shift"`. -/
theorem parse_written_names_repeated :
    let blank : ∀ c ∈ [' '], isBlank c = true := List.forall_mem_singleton.2 (by decide)
    let none : ∀ c ∈ [], isBlank c = true := List.forall_mem_nil _
    let key : SpacedName := ⟨[], ['k'], [' '], none, blank, by decide, by decide, by decide⟩
    let capital : SpacedName := ⟨[], ['K'], [], none, none, by decide, by decide, by decide⟩
    let shift : SpacedName :=
      ⟨[' '], ['S', 'h', 'i', 'f', 't'], [], blank, none, by decide, by decide, by decide⟩
    let capitals : SpacedName :=
      ⟨[], ['S', 'H', 'I', 'F', 'T'], [], none, none, by decide, by decide, by decide⟩
    let chord : KeyChord := ⟨⟨false, false, true, false⟩, "K"⟩
    parse (String.ofList (written [shift, key] false)) = .ok chord ∧
    parse (String.ofList (written [capital, capitals, shift] false)) = .ok chord := by
  intro blank none key capital shift capitals chord
  obtain ⟨-, hone, -, hwords⟩ := parse_written_names [shift, key] false (List.cons_ne_nil _ _)
  have hread := hone ['k'] (by rfl)
  have hchord : (⟨heldBy [shift.name, key.name], normalizeKey ['k']⟩ : KeyChord) = chord := by rfl
  have hswapped : Reworded [shift.name, key.name] [key.name, shift.name] :=
    .permuted (List.Perm.swap _ _ _)
  have hrepeated : Reworded [key.name, shift.name] [shift.name, key.name, shift.name] :=
    .repeated (by decide) (by decide)
  have hback : Reworded [shift.name, key.name, shift.name] [key.name, shift.name, shift.name] :=
    .permuted (List.Perm.swap _ _ _)
  have hcapitals : Reworded [key.name, shift.name, shift.name]
      [capital.name, capitals.name, shift.name] := .recased (by decide)
  have hread' := hwords [capital, capitals, shift] _
    (.trans hswapped (.trans hrepeated (.trans hback hcapitals))) hread
  exact ⟨hread.trans (congrArg _ hchord), hread'.trans (congrArg _ hchord)⟩

end KeyChord

end HeadlessEditor
