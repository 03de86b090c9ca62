import HeadlessEditor.Unicode.Blank
import HeadlessEditor.Unicode.UpperCase
import Mathlib

/-!
Upper-casing done twice. The first character of an upper-case form is the form of its own lower-case
letter. The tables tell this run by run: the forms of a run are a run as well, and none of them is in a
run of the table or has a text as its form. The forms have no blanks and no plus signs, and only `ı` and
`ſ` have a form in ASCII without being there themselves, but for forms with capitals behind the first.
-/

namespace HeadlessEditor.Unicode

theorem RangeTable.search_sound {table : RangeTable} {code steps lo hi : Nat}
    (h : table.search code steps lo hi = true) :
    ∃ range ∈ table.toList, range.1 ≤ code ∧ code ≤ range.2 := by
  induction steps generalizing lo hi with
  | zero => simp [search] at h
  | succ steps ih =>
    simp only [search] at h
    split at h
    · split at h
      · cases h
      · rename_i first last hrange
        split at h
        · exact ih h
        · split at h
          · exact ih h
          · exact ⟨_, Array.mem_toList_iff.2 (Array.mem_of_getElem? hrange), by omega, by omega⟩
    · cases h

theorem isBlank_range {c : Char} (h : isBlank c = true) :
    ∃ range ∈ blankRanges.toList, range.1 ≤ c.toNat ∧ c.toNat ≤ range.2 :=
  RangeTable.search_sound h

/-- A run `(first, last, stride, shift)` of characters whose upper-case forms are at one distance. -/
abbrev CaseRun := Nat × Nat × Nat × Int

def Covers (run : CaseRun) (code : Nat) : Prop :=
  run.1 ≤ code ∧ code ≤ run.2.1 ∧ (code - run.1) % run.2.2.1 = 0

def formIn (run : CaseRun) (code : Nat) : Nat := (run.1 + run.2.2.2).toNat + (code - run.1)

/-- Whether no form of the run is in a run, is the character of a text, or is a blank. Where stretches
overlap, the forms are of even and the run of odd characters or the other way round. The comparisons are
those that evaluate fast. -/
def formsApart (run : CaseRun) : Bool :=
  let low := (run.1 + run.2.2.2).toNat
  let high := low + (run.2.1 - run.1)
  let alternate := Nat.beq run.2.2.1 2 || Nat.beq run.1 run.2.1
  (upperCaseRuns.toList.all fun other =>
      Nat.blt high other.1 || Nat.blt other.2.1 low
        || (alternate && Nat.beq other.2.2.1 2 && Nat.beq ((low + other.1) % 2) 1))
    && (upperCaseTexts.toList.all fun entry => Nat.blt high entry.1 || Nat.blt entry.1 low)
    && blankRanges.toList.all fun range => Nat.blt high range.1 || Nat.blt range.2 low

/-- Whether the forms of a run are characters, and none of ASCII but those of `ı` and `ſ`. -/
def formsValid (run : CaseRun) : Bool :=
  let low := (run.1 + run.2.2.2).toNat
  let high := low + (run.2.1 - run.1)
  Nat.blt 0 low && (Nat.blt high 0xd800 || Nat.blt 0xdfff low && Nat.blt high 0x110000)
    && (Nat.ble 0x80 low || run == (0x131, 0x131, 1, -232) || run == (0x17f, 0x17f, 1, -300))

set_option maxRecDepth 10000 in
/-- All runs but that of the ASCII letters. -/
theorem runs_checked : (upperCaseRuns.toList.all fun run =>
    Nat.blt run.2.1 0x80 || formsApart run && formsValid run) = true := by
  decide +kernel

variable {run : CaseRun} {code : Nat}

theorem checked_of_mem (hmem : run ∈ upperCaseRuns.toList) (hcovers : Covers run code)
    (hcode : 0x80 ≤ code) : formsApart run = true ∧ formsValid run = true := by
  have hrun := List.all_eq_true.1 runs_checked run hmem
  obtain ⟨-, hlast, -⟩ := hcovers
  simp only [Bool.or_eq_true, Bool.and_eq_true, Nat.blt_eq] at hrun
  exact hrun.resolve_left (by omega)

/-- A form is in no run. -/
theorem not_covers_formIn (h : formsApart run = true) (hcovers : Covers run code) {other : CaseRun}
    (hother : other ∈ upperCaseRuns.toList) : ¬ Covers other (formIn run code) := by
  simp only [formsApart, Bool.and_eq_true] at h
  have happart := List.all_eq_true.1 h.1.1 other hother
  simp only [Bool.or_eq_true, Bool.and_eq_true, Nat.blt_eq, Nat.beq_eq] at happart
  obtain ⟨hfirst, hlast, hstride⟩ := hcovers
  rintro ⟨hfirst', hlast', hstride'⟩
  unfold formIn at hfirst' hlast' hstride'
  rcases happart with (h | h) | ⟨⟨heven | hone, htwo⟩, hodd⟩
  · omega
  · omega
  · rw [heven] at hstride
    rw [htwo] at hstride'
    omega
  · rw [htwo] at hstride'
    omega

/-- No character with a text for its form is the form of another. -/
theorem formIn_ne_of_text (h : formsApart run = true) (hcovers : Covers run code)
    {entry : Nat × List Nat} (hentry : entry ∈ upperCaseTexts.toList) :
    entry.1 ≠ formIn run code := by
  simp only [formsApart, Bool.and_eq_true] at h
  have happart := List.all_eq_true.1 h.1.2 entry hentry
  simp only [Bool.or_eq_true, Nat.blt_eq] at happart
  obtain ⟨hfirst, hlast, -⟩ := hcovers
  unfold formIn
  omega

theorem formIn_not_blank (h : formsApart run = true) (hcovers : Covers run code)
    {range : Nat × Nat} (hrange : range ∈ blankRanges.toList) :
    ¬ (range.1 ≤ formIn run code ∧ formIn run code ≤ range.2) := by
  simp only [formsApart, Bool.and_eq_true] at h
  have happart := List.all_eq_true.1 h.2 range hrange
  simp only [Bool.or_eq_true, Nat.blt_eq] at happart
  obtain ⟨hfirst, hlast, -⟩ := hcovers
  unfold formIn
  omega

theorem toNat_formIn (h : formsValid run = true) (hcovers : Covers run code) :
    (Char.ofNat (formIn run code)).toNat = formIn run code := by
  simp only [formsValid, Bool.and_eq_true, Bool.or_eq_true, Nat.blt_eq] at h
  obtain ⟨hfirst, hlast, -⟩ := hcovers
  have hvalid : (formIn run code).isValidChar := by
    unfold formIn
    obtain ⟨⟨-, hlow | ⟨hlow, hhigh⟩⟩, -⟩ := h
    · left
      omega
    · right
      omega
  rw [Char.toNat_ofNat, if_pos hvalid]

/-- Only `ı` and `ſ` have their forms in ASCII. -/
theorem formIn_ascii (h : formsValid run = true) (hcovers : Covers run code) :
    0x80 ≤ formIn run code ∨ code = 0x131 ∧ formIn run code = 0x49
      ∨ code = 0x17f ∧ formIn run code = 0x53 := by
  simp only [formsValid, Bool.and_eq_true, Bool.or_eq_true, Nat.ble_eq, beq_iff_eq] at h
  obtain ⟨hfirst, hlast, -⟩ := hcovers
  obtain ⟨-, (hlow | rfl) | rfl⟩ := h
  · left
    unfold formIn
    omega
  · obtain rfl : code = 0x131 := Nat.le_antisymm hlast hfirst
    exact .inr (.inl ⟨rfl, rfl⟩)
  · obtain rfl : code = 0x17f := Nat.le_antisymm hlast hfirst
    exact .inr (.inr ⟨rfl, rfl⟩)

inductive UpperForm (c : Char) : List Char → Prop where
  | ascii (h : c.toNat < 0x80) : UpperForm c [c.toUpper]
  | text (codes : List Nat) (h : 0x80 ≤ c.toNat) (mem : (c.toNat, codes) ∈ upperCaseTexts.toList) :
    UpperForm c (codes.map Char.ofNat)
  | run (run : CaseRun) (h : 0x80 ≤ c.toNat) (mem : run ∈ upperCaseRuns.toList)
    (covers : Covers run c.toNat) : UpperForm c [Char.ofNat (formIn run c.toNat)]
  | itself (h : 0x80 ≤ c.toNat) : UpperForm c [c]

theorem upperForm_upperCase (c : Char) : UpperForm c (upperCase c) := by
  unfold upperCase
  split
  · rename_i h
    exact .ascii h
  · rename_i h
    have hc : 0x80 ≤ c.toNat := Nat.le_of_not_lt h
    split
    · rename_i code codes hfind
      have hmem := Array.mem_toList_iff.2 (Array.mem_of_find?_eq_some hfind)
      have hcode : code = c.toNat := by simpa using Array.find?_some hfind
      exact .text codes hc (hcode ▸ hmem)
    · unfold upperCaseShift
      split
      · rename_i first last stride shift hfind
        have hmem := Array.mem_toList_iff.2 (Array.mem_of_find?_eq_some hfind)
        have hcovers : Covers (first, last, stride, shift) c.toNat := by
          simpa [Covers, and_assoc] using Array.find?_some hfind
        have hform : (c.toNat + shift).toNat = formIn (first, last, stride, shift) c.toNat := by
          obtain ⟨-, hvalid⟩ := checked_of_mem hmem hcovers hc
          simp only [formsValid, Bool.and_eq_true, Nat.blt_eq] at hvalid
          obtain ⟨hfirst, -, -⟩ := hcovers
          simp only [formIn]
          omega
        rw [hform]
        exact .run _ hc hmem hcovers
      · simpa using UpperForm.itself hc

/-- A character outside ASCII that is in no table is its own form. -/
theorem upperCase_eq_self {c : Char} (hc : 0x80 ≤ c.toNat)
    (htexts : ∀ entry ∈ upperCaseTexts.toList, entry.1 ≠ c.toNat)
    (hruns : ∀ run ∈ upperCaseRuns.toList, ¬ Covers run c.toNat) : upperCase c = [c] := by
  have hform := upperForm_upperCase c
  generalize upperCase c = form at hform ⊢
  cases hform with
  | ascii h => omega
  | text codes _ mem => exact absurd rfl (htexts _ mem)
  | run run _ mem covers => exact absurd covers (hruns run mem)
  | itself _ => rfl

/-- A text that is the form of a character begins with a capital of ASCII or with a character that is in
no table. Behind it stands a capital of ASCII or a character outside ASCII. -/
def textValid (codes : List Nat) : Bool :=
  match codes.map Char.ofNat with
  | [] => false
  | d :: ds =>
    (d.isUpper || Nat.ble 0x80 d.toNat && formsApart (d.toNat, d.toNat, 1, 0))
      && ((d :: ds).all fun x => !isBlank x && x != '+')
      && ds.any fun x => x.isUpper || Nat.ble 0x80 x.toNat

set_option maxRecDepth 10000 in
theorem texts_checked : (upperCaseTexts.toList.all fun entry => textValid entry.2) = true := by
  decide +kernel

theorem toNat_of_isUpper {c : Char} (h : c.isUpper = true) : 65 ≤ c.toNat ∧ c.toNat ≤ 90 := by
  simp only [Char.isUpper, decide_eq_true_eq, ge_iff_le, UInt32.le_iff_toNat_le] at h
  exact h

theorem toLower_of_not_ascii {c : Char} (h : 0x80 ≤ c.toNat) : c.toLower = c := by
  apply Char.toLower_eq_of_not_isUpper
  intro hupper
  have hrange := toNat_of_isUpper hupper
  omega

theorem toLower_ascii {c : Char} (h : c.toNat < 0x80) : c.toLower.toNat < 0x80 := by
  by_cases hupper : c.isUpper = true
  · have hrange := toNat_of_isUpper hupper
    rw [Char.toLower_eq_of_isUpper hupper, Char.toNat_ofNat, if_pos (Or.inl (by omega))]
    omega
  · rwa [Char.toLower_eq_of_not_isUpper hupper]

theorem upperCase_ascii {c : Char} (h : c.toNat < 0x80) : upperCase c = [c.toUpper] := if_pos h

/-- The case of ASCII letters makes no difference to the form. -/
theorem upperCase_toLower (c : Char) : upperCase c.toLower = upperCase c := by
  by_cases hc : c.toNat < 0x80
  · rw [upperCase_ascii (toLower_ascii hc), upperCase_ascii hc, Char.toUpper_toLower_eq_toUpper]
  · rw [toLower_of_not_ascii (Nat.le_of_not_lt hc)]

/-- A character that all tables leave alone. -/
theorem upperCase_of_formsApart {c : Char} (hc : 0x80 ≤ c.toNat)
    (h : formsApart (c.toNat, c.toNat, 1, 0) = true) : upperCase c = [c] := by
  have hcovers : Covers (c.toNat, c.toNat, 1, 0) c.toNat := by simp [Covers]
  have hform : formIn (c.toNat, c.toNat, 1, 0) c.toNat = c.toNat := by simp [formIn]
  refine upperCase_eq_self hc (fun entry hentry => ?_) (fun run hrun => ?_)
  · exact hform ▸ formIn_ne_of_text h hcovers hentry
  · exact hform ▸ not_covers_formIn h hcovers hrun

theorem upperCase_toLower_of_isUpper {c : Char} (h : c.isUpper = true) :
    upperCase c.toLower = [c] := by
  have hrange := toNat_of_isUpper h
  rw [upperCase_ascii (toLower_ascii (by omega)), Char.toUpper_toLower_eq_toUpper,
    Char.toUpper_eq_of_not_isLower (Char.not_isLower_of_isUpper h)]

/-- The first character of a form is the form of its lower-case letter. -/
theorem upperCase_toLower_head {c d : Char} {ds : List Char} (h : upperCase c = d :: ds) :
    upperCase d.toLower = [d] := by
  have hform := h ▸ upperForm_upperCase c
  generalize hshape : d :: ds = form at hform
  cases hform with
  | ascii hc =>
    obtain ⟨rfl, rfl⟩ := List.cons.inj hshape
    rw [Char.toLower_toUpper_eq_toLower, upperCase_toLower, h]
  | text codes hc mem =>
    have hvalid := List.all_eq_true.1 texts_checked _ mem
    simp only [textValid, ← hshape, Bool.and_eq_true, Bool.or_eq_true, Nat.ble_eq] at hvalid
    rcases hvalid.1.1 with hupper | ⟨hd, happart⟩
    · exact upperCase_toLower_of_isUpper hupper
    · rw [toLower_of_not_ascii hd, upperCase_of_formsApart hd happart]
  | run run hc mem covers =>
    obtain ⟨rfl, rfl⟩ := List.cons.inj hshape
    obtain ⟨happart, hvalid⟩ := checked_of_mem mem covers hc
    have hcode := toNat_formIn hvalid covers
    rcases formIn_ascii hvalid covers with hd | ⟨-, hd⟩ | ⟨-, hd⟩
    · rw [← hcode] at hd
      rw [toLower_of_not_ascii hd]
      apply upperCase_eq_self hd
      · intro entry hentry
        rw [hcode]
        exact formIn_ne_of_text happart covers hentry
      · intro other hother
        rw [hcode]
        exact not_covers_formIn happart covers hother
    · rw [hd]
      rfl
    · rw [hd]
      rfl
  | itself hc =>
    obtain ⟨rfl, rfl⟩ := List.cons.inj hshape
    rw [toLower_of_not_ascii hc, h]

theorem upperCase_ne_nil (c : Char) : upperCase c ≠ [] := by
  have hform := upperForm_upperCase c
  generalize upperCase c = form at hform ⊢
  cases hform with
  | text codes _ mem =>
    have hvalid := List.all_eq_true.1 texts_checked _ mem
    intro hnil
    simp [textValid, hnil] at hvalid
  | ascii _ | run _ _ _ _ | itself _ => exact List.cons_ne_nil _ _

theorem not_blank_of_isAlpha {c : Char} (h : c.isAlpha = true) : isBlank c = false ∧ c ≠ '+' := by
  have hrange : 65 ≤ c.toNat ∧ c.toNat ≤ 122 := by
    simp only [Char.isAlpha, Char.isUpper, Char.isLower, Bool.or_eq_true, Bool.and_eq_true,
      decide_eq_true_eq, ge_iff_le, UInt32.le_iff_toNat_le] at h
    have hupper : 65 ≤ c.val.toNat ∧ c.val.toNat ≤ 90 ∨ 97 ≤ c.val.toNat ∧ c.val.toNat ≤ 122 := h
    simp only [Char.toNat]
    omega
  have hblanks : ∀ range ∈ blankRanges.toList, range.2 < 65 ∨ 122 < range.1 := by decide
  constructor
  · by_contra hblank
    obtain ⟨range, hmem, hin⟩ := isBlank_range (Bool.not_eq_false _ ▸ hblank)
    have happart := hblanks range hmem
    omega
  · rintro rfl
    cases h

/-- Lower-casing makes no blanks and no plus signs. -/
theorem toLower_eq_or (c : Char) : c.toLower = c ∨ isBlank c.toLower = false ∧ c.toLower ≠ '+' := by
  by_cases hupper : c.isUpper = true
  · have halpha : c.toLower.isAlpha = true := by simp [Char.isAlpha, hupper]
    exact .inr (not_blank_of_isAlpha halpha)
  · exact .inl (Char.toLower_eq_of_not_isUpper hupper)

/-- Nor does upper-casing. -/
theorem mem_upperCase {c x : Char} (h : x ∈ upperCase c) : x = c ∨ isBlank x = false ∧ x ≠ '+' := by
  have hform := upperForm_upperCase c
  generalize upperCase c = form at h hform
  cases hform with
  | ascii _ =>
    obtain rfl := List.mem_singleton.1 h
    by_cases hlower : c.isLower = true
    · have halpha : c.toUpper.isAlpha = true := by simp [Char.isAlpha, hlower]
      exact .inr (not_blank_of_isAlpha halpha)
    · exact .inl (Char.toUpper_eq_of_not_isLower hlower)
  | text codes _ mem =>
    have hvalid := List.all_eq_true.1 texts_checked _ mem
    simp only [textValid] at hvalid
    split at hvalid
    · cases hvalid
    · rename_i d ds hcodes
      rw [hcodes] at h
      simp only [Bool.and_eq_true] at hvalid
      have hx := List.all_eq_true.1 hvalid.1.2 x h
      simp only [Bool.and_eq_true, Bool.not_eq_true', bne_iff_ne] at hx
      exact .inr hx
  | run run hc mem covers =>
    obtain rfl := List.mem_singleton.1 h
    obtain ⟨happart, hvalid⟩ := checked_of_mem mem covers hc
    have hcode := toNat_formIn hvalid covers
    refine .inr ⟨?_, ?_⟩
    · by_contra hblank
      obtain ⟨range, hrange, hin⟩ := isBlank_range (Bool.not_eq_false _ ▸ hblank)
      rw [hcode] at hin
      exact formIn_not_blank happart covers hrange hin
    · intro hplus
      rw [hplus] at hcode
      have hplus : (43 : Nat) = formIn run c.toNat := hcode
      rcases formIn_ascii hvalid covers with hd | ⟨-, hd⟩ | ⟨-, hd⟩ <;> omega
  | itself _ => exact .inl (List.mem_singleton.1 h)

/-- A form in ASCII with no capital behind the first character is that of an ASCII character, or of `ı`
or `ſ`. -/
theorem upperCase_eq_ascii {c d : Char} {ds : List Char} (h : upperCase c = d :: ds)
    (hascii : ∀ x ∈ d :: ds, x.toNat < 0x80) (hsmall : ∀ x ∈ ds, x.isUpper = false) :
    ds = [] ∧ (c.toNat < 0x80 ∧ d = c.toUpper ∨ c = 'ı' ∧ d = 'I' ∨ c = 'ſ' ∧ d = 'S') := by
  have hform := h ▸ upperForm_upperCase c
  generalize hshape : d :: ds = form at hform
  cases hform with
  | ascii hc =>
    obtain ⟨rfl, rfl⟩ := List.cons.inj hshape
    exact ⟨rfl, .inl ⟨hc, rfl⟩⟩
  | text codes hc mem =>
    have hvalid := List.all_eq_true.1 texts_checked _ mem
    simp only [textValid, ← hshape, Bool.and_eq_true] at hvalid
    obtain ⟨x, hx, hkind⟩ := List.any_eq_true.1 hvalid.2
    simp only [Bool.or_eq_true, Nat.ble_eq, hsmall x hx, Bool.false_eq_true, false_or] at hkind
    have hlt := hascii x (List.mem_cons_of_mem _ hx)
    omega
  | run run hc mem covers =>
    obtain ⟨rfl, rfl⟩ := List.cons.inj hshape
    obtain ⟨-, hvalid⟩ := checked_of_mem mem covers hc
    have hcode := toNat_formIn hvalid covers
    have hlt := hascii _ List.mem_cons_self
    rw [hcode] at hlt
    refine ⟨rfl, .inr ?_⟩
    rcases formIn_ascii hvalid covers with hd | ⟨hchar, hd⟩ | ⟨hchar, hd⟩
    · omega
    · exact .inl ⟨Char.toNat_inj.1 hchar, by rw [hd]⟩
    · exact .inr ⟨Char.toNat_inj.1 hchar, by rw [hd]⟩
  | itself hc =>
    obtain ⟨rfl, rfl⟩ := List.cons.inj hshape
    have hlt := hascii _ List.mem_cons_self
    omega

end HeadlessEditor.Unicode
