import HeadlessEditor.Pattern.Matcher
import Mathlib.Data.List.Basic

/-!
The ways through a pattern. From a place on there can be several, one preferred to the other, and each takes
characters that the pattern admits. A repetition whose rounds end with a character is one round and the
same repetition behind it, or nothing.
-/

namespace HeadlessEditor.Pattern

namespace Spot

variable {spot spot' : Spot} {text rest : Text} {c : Char}

def skip (spot : Spot) (count : Nat) : Spot :=
  ⟨(spot.rest.take count).getLast?.or spot.previous, spot.rest.drop count, spot.offset + count⟩

@[simp] theorem skip_rest (spot : Spot) (count : Nat) : (spot.skip count).rest = spot.rest.drop count :=
  rfl

@[simp] theorem skip_offset (spot : Spot) (count : Nat) :
    (spot.skip count).offset = spot.offset + count := rfl

@[simp] theorem skip_zero (spot : Spot) : spot.skip 0 = spot := by
  simp [skip]

@[simp] theorem skip_skip (spot : Spot) (first second : Nat) :
    (spot.skip first).skip second = spot.skip (first + second) := by
  simp [skip, List.take_add, List.getLast?_append, Option.or_assoc, Nat.add_assoc, List.drop_drop]

theorem skip_one (h : spot.rest = c :: rest) : spot.skip 1 = ⟨some c, rest, spot.offset + 1⟩ := by
  simp [skip, h]

def start (text : Text) : Spot := ⟨none, text, 0⟩

def On (spot : Spot) (text : Text) : Prop := ∃ offset ≤ text.length, spot = (start text).skip offset

theorem start_on (text : Text) : (start text).On text := ⟨0, Nat.zero_le _, (skip_zero _).symm⟩

theorem On.skip (h : spot.On text) {count : Nat} (hcount : count ≤ spot.rest.length) :
    (spot.skip count).On text := by
  obtain ⟨offset, hoffset, rfl⟩ := h
  refine ⟨offset + count, ?_, skip_skip _ _ _⟩
  simp only [skip_rest, start, List.length_drop] at hcount
  omega

theorem On.eq_skip (h : spot.On text) : spot = (start text).skip spot.offset := by
  obtain ⟨offset, hoffset, rfl⟩ := h
  simp [start]

/-- A place is known by its offset. -/
theorem On.eq (h : spot.On text) (h' : spot'.On text) (hoffset : spot.offset = spot'.offset) :
    spot = spot' := by
  rw [h.eq_skip, h'.eq_skip, hoffset]

theorem On.rest_eq (h : spot.On text) : spot.rest = text.drop spot.offset := by
  rw [h.eq_skip]
  simp [start]

theorem On.offset_add (h : spot.On text) : spot.offset + spot.rest.length = text.length := by
  obtain ⟨offset, hoffset, rfl⟩ := h
  simp only [start, skip_offset, skip_rest, List.length_drop]
  omega

end Spot

/-- Where a way ends, and the groups on it, the latest first. -/
abbrev Way := Spot × Captures

def preferred (greedy : Bool) (more less : List Way) : List Way :=
  if greedy then more ++ less else less ++ more

/-- Ways, each of which goes on where another one ends. -/
def goingOn (ways : List Way) (next : Spot → List Way) : List Way :=
  ways.flatMap fun way => (next way.1).map fun later => (later.1, later.2 ++ way.2)

/-- Any number of rounds, but no more than there are characters left. -/
def inRounds (greedy : Bool) (once : Spot → List Way) : Text → Spot → List Way
  | [], spot => [(spot, [])]
  | _ :: left, spot =>
    preferred greedy (goingOn (once spot) (inRounds greedy once left)) [(spot, [])]

/-- The ways through a pattern, preferred ones first. -/
def ways : Pattern → Spot → List Way
  | empty, spot => [(spot, [])]
  | char set, spot => if spot.rest.head?.any set.contains then [(spot.skip 1, [])] else []
  | atStart, spot => if spot.offset = 0 then [(spot, [])] else []
  | atEnd, spot => if spot.rest.isEmpty then [(spot, [])] else []
  | wordBoundary present, spot => if spot.isWordBoundary = present then [(spot, [])] else []
  | seq a b, spot => goingOn (a.ways spot) b.ways
  | alt a b, spot => a.ways spot ++ b.ways spot
  | optional greedy a, spot => preferred greedy (a.ways spot) [(spot, [])]
  | star greedy a, spot => inRounds greedy a.ways spot.rest spot
  | plus greedy a, spot => goingOn (a.ways spot) (inRounds greedy a.ways spot.rest)
  | group index a, spot =>
    (a.ways spot).map fun way => (way.1, (index, spot.offset, way.1.offset) :: way.2)

/-- Some character of the pattern can be this one. -/
def admits (c : Char) : Pattern → Bool
  | empty | atStart | atEnd | wordBoundary _ => false
  | char set => set.contains c
  | seq a b | alt a b => a.admits c || b.admits c
  | optional _ a | star _ a | plus _ a | group _ a => a.admits c

def opensWith (c : Char) : Pattern → Bool
  | empty | atStart | atEnd | wordBoundary _ => false
  | char set => set.contains c
  | seq a b => a.opensWith c || a.canBeEmpty && b.opensWith c
  | alt a b => a.opensWith c || b.opensWith c
  | optional _ a | star _ a | plus _ a | group _ a => a.opensWith c

variable {p a b : Pattern} {spot : Spot} {way : Way} {greedy : Bool} {more less firsts : List Way}
  {next once : Spot → List Way}

theorem mem_preferred : way ∈ preferred greedy more less ↔ way ∈ more ∨ way ∈ less := by
  cases greedy <;> simp [preferred, or_comm]

theorem mem_goingOn :
    way ∈ goingOn firsts next ↔
      ∃ first ∈ firsts, ∃ later ∈ next first.1, way = (later.1, later.2 ++ first.2) := by
  simp [goingOn, eq_comm]

@[simp] theorem goingOn_nil (next : Spot → List Way) : goingOn [] next = [] := rfl

@[simp] theorem goingOn_singleton (spot : Spot) (next : Spot → List Way) :
    goingOn [(spot, [])] next = next spot := by
  simp [goingOn]

theorem goingOn_append (firsts seconds : List Way) (next : Spot → List Way) :
    goingOn (firsts ++ seconds) next = goingOn firsts next ++ goingOn seconds next :=
  List.flatMap_append

theorem goingOn_goingOn (firsts : List Way) (next after : Spot → List Way) :
    goingOn (goingOn firsts next) after = goingOn firsts fun spot => goingOn (next spot) after := by
  simp [goingOn, List.flatMap_assoc, List.flatMap_map, List.map_flatMap, Function.comp_def]

def Leads (spot after : Spot) (least : Nat) (fits : Char → Prop) : Prop :=
  ∃ count, least ≤ count ∧ count ≤ spot.rest.length ∧ after = spot.skip count ∧
    ∀ c ∈ spot.rest.take count, fits c

namespace Leads

variable {after later : Spot} {least least' : Nat} {fits fits' : Char → Prop}

theorem refl (spot : Spot) (fits : Char → Prop) : Leads spot spot 0 fits :=
  ⟨0, Nat.le_refl _, Nat.zero_le _, (Spot.skip_zero _).symm, by simp⟩

theorem mono (h : Leads spot after least fits) (hle : least' ≤ least)
    (himp : ∀ c, fits c → fits' c) : Leads spot after least' fits' := by
  obtain ⟨count, hcount, hlength, hafter, htaken⟩ := h
  exact ⟨count, Nat.le_trans hle hcount, hlength, hafter, fun c hc => himp c (htaken c hc)⟩

theorem trans (h : Leads spot after least fits) (h' : Leads after later least' fits) :
    Leads spot later (least + least') fits := by
  obtain ⟨count, hcount, hlength, rfl, htaken⟩ := h
  obtain ⟨count', hcount', hlength', rfl, htaken'⟩ := h'
  rw [Spot.skip_rest] at hlength' htaken'
  rw [List.length_drop] at hlength'
  refine ⟨count + count', by omega, by omega, Spot.skip_skip _ _ _, fun c hc => ?_⟩
  rw [List.take_add, List.mem_append] at hc
  exact hc.elim (htaken c) (htaken' c)

theorem length_rest (h : Leads spot after least fits) :
    after.rest.length + least ≤ spot.rest.length := by
  obtain ⟨count, hcount, hlength, rfl, -⟩ := h
  rw [Spot.skip_rest, List.length_drop]
  omega

end Leads

theorem inRounds_leads {fits : Char → Prop} (honce : ∀ spot, ∀ way ∈ once spot, Leads spot way.1 0 fits)
    (left : Text) (h : way ∈ inRounds greedy once left spot) : Leads spot way.1 0 fits := by
  induction left generalizing spot way with
  | nil =>
    obtain rfl := List.mem_singleton.1 h
    exact Leads.refl _ _
  | cons c left ih =>
    rcases mem_preferred.1 h with hmore | hless
    · obtain ⟨first, hfirst, later, hlater, rfl⟩ := mem_goingOn.1 hmore
      exact (honce spot first hfirst).trans (ih hlater)
    · obtain rfl := List.mem_singleton.1 hless
      exact Leads.refl _ _

/-- The fewest characters that a way can take, as far as that is known from what can be empty. -/
def least (p : Pattern) : Nat := if p.canBeEmpty then 0 else 1

/-- A way takes characters that the pattern admits, and some if the pattern cannot be empty. -/
theorem ways_leads (p : Pattern) (h : way ∈ p.ways spot) :
    Leads spot way.1 p.least fun c => p.admits c := by
  induction p generalizing spot way with
  | empty =>
    obtain rfl := List.mem_singleton.1 h
    exact Leads.refl _ _
  | char set =>
    obtain ⟨hin, hway⟩ := List.mem_ite_nil_right.1 h
    obtain rfl := List.mem_singleton.1 hway
    obtain ⟨c, hhead, hset⟩ := (Option.any_eq_true _ _).1 hin
    obtain ⟨rest, hrest⟩ := List.head?_eq_some_iff.1 hhead
    exact ⟨1, by simp [least, canBeEmpty], by simp [hrest], rfl, by simpa [hrest, admits] using hset⟩
  | atStart | atEnd | wordBoundary _ =>
    obtain ⟨-, hway⟩ := List.mem_ite_nil_right.1 h
    obtain rfl := List.mem_singleton.1 hway
    exact Leads.refl _ _
  | seq a b iha ihb =>
    obtain ⟨first, hfirst, later, hlater, rfl⟩ := mem_goingOn.1 h
    have hfront : Leads spot first.1 a.least fun c => (seq a b).admits c :=
      (iha hfirst).mono (Nat.le_refl _) fun c hc => by simp [admits, hc]
    have hback : Leads first.1 later.1 b.least fun c => (seq a b).admits c :=
      (ihb hlater).mono (Nat.le_refl _) fun c hc => by simp [admits, hc]
    refine (hfront.trans hback).mono ?_ fun _ => id
    cases ha : a.canBeEmpty <;> simp [least, canBeEmpty, ha]
  | alt a b iha ihb =>
    rcases List.mem_append.1 h with hfirst | hsecond
    · refine (iha hfirst).mono ?_ fun c hc => by simp [admits, hc]
      cases ha : a.canBeEmpty <;> simp [least, canBeEmpty, ha]
      split <;> simp
    · refine (ihb hsecond).mono ?_ fun c hc => by simp [admits, hc]
      cases hb : b.canBeEmpty <;> simp [least, canBeEmpty, hb]
      split <;> simp
  | optional greedy a ih =>
    rcases mem_preferred.1 h with hmore | hless
    · exact (ih hmore).mono (Nat.zero_le _) fun _ => id
    · obtain rfl := List.mem_singleton.1 hless
      exact Leads.refl _ _
  | star greedy a ih =>
    exact inRounds_leads (fun _ _ hway => (ih hway).mono (Nat.zero_le _) fun _ => id) _ h
  | plus greedy a ih =>
    obtain ⟨first, hfirst, later, hlater, rfl⟩ := mem_goingOn.1 h
    have hrounds : Leads first.1 later.1 0 fun c => a.admits c :=
      inRounds_leads (fun _ _ hway => (ih hway).mono (Nat.zero_le _) fun _ => id) _ hlater
    exact (ih hfirst).trans hrounds
  | group index a ih =>
    obtain ⟨inner, hinner, rfl⟩ := List.mem_map.1 h
    have hleads := ih hinner
    exact hleads

theorem inRounds_opensWith {opens : Char → Bool}
    (honce : ∀ spot, ∀ way ∈ once spot, way.1 = spot ∨ spot.rest.head?.any opens) (left : Text)
    (h : way ∈ inRounds greedy once left spot) : way.1 = spot ∨ spot.rest.head?.any opens := by
  induction left generalizing spot way with
  | nil =>
    obtain rfl := List.mem_singleton.1 h
    exact Or.inl rfl
  | cons c left ih =>
    rcases mem_preferred.1 h with hmore | hless
    · obtain ⟨first, hfirst, later, hlater, rfl⟩ := mem_goingOn.1 hmore
      rcases honce spot first hfirst with hstays | hopens
      · rw [hstays] at hlater
        have hopens := ih hlater
        exact hopens
      · exact Or.inr hopens
    · obtain rfl := List.mem_singleton.1 hless
      exact Or.inl rfl

/-- A way that takes characters begins with one that a match can begin with. -/
theorem ways_opensWith (p : Pattern) (h : way ∈ p.ways spot) :
    way.1 = spot ∨ spot.rest.head?.any fun c => p.opensWith c := by
  induction p generalizing spot way with
  | empty =>
    obtain rfl := List.mem_singleton.1 h
    exact Or.inl rfl
  | char set =>
    obtain ⟨hin, -⟩ := List.mem_ite_nil_right.1 h
    exact Or.inr hin
  | atStart | atEnd | wordBoundary _ =>
    obtain ⟨-, hway⟩ := List.mem_ite_nil_right.1 h
    obtain rfl := List.mem_singleton.1 hway
    exact Or.inl rfl
  | seq a b iha ihb =>
    obtain ⟨first, hfirst, later, hlater, rfl⟩ := mem_goingOn.1 h
    rcases iha hfirst with hstays | hopens
    · have hempty : a.canBeEmpty := by
        by_contra hfull
        have hlength := (a.ways_leads hfirst).length_rest
        rw [least, if_neg hfull, hstays] at hlength
        omega
      rw [hstays] at hlater
      refine (ihb hlater).imp_right fun hopens => ?_
      obtain ⟨c, hc, hfirst⟩ := (Option.any_eq_true _ _).1 hopens
      simp [hc, opensWith, hempty, hfirst]
    · obtain ⟨c, hc, hfirst⟩ := (Option.any_eq_true _ _).1 hopens
      exact Or.inr (by simp [hc, opensWith, hfirst])
  | alt a b iha ihb =>
    rcases List.mem_append.1 h with hfirst | hsecond
    · refine (iha hfirst).imp_right fun hopens => ?_
      obtain ⟨c, hc, hfirst⟩ := (Option.any_eq_true _ _).1 hopens
      simp [hc, opensWith, hfirst]
    · refine (ihb hsecond).imp_right fun hopens => ?_
      obtain ⟨c, hc, hsecond⟩ := (Option.any_eq_true _ _).1 hopens
      simp [hc, opensWith, hsecond]
  | optional greedy a ih =>
    rcases mem_preferred.1 h with hmore | hless
    · exact ih hmore
    · obtain rfl := List.mem_singleton.1 hless
      exact Or.inl rfl
  | star greedy a ih => exact inRounds_opensWith (fun _ _ hway => ih hway) _ h
  | plus greedy a ih =>
    obtain ⟨first, hfirst, later, hlater, rfl⟩ := mem_goingOn.1 h
    rcases ih hfirst with hstays | hopens
    · rw [hstays] at hlater
      have hopens := inRounds_opensWith (fun _ _ hway => ih hway) _ hlater
      exact hopens
    · exact Or.inr hopens
  | group index a ih =>
    obtain ⟨inner, hinner, rfl⟩ := List.mem_map.1 h
    have hinner := ih hinner
    exact hinner

def endsInCharacter : Pattern → Bool
  | char _ => true
  | seq _ b => b.endsInCharacter
  | alt a b => a.endsInCharacter && b.endsInCharacter
  | group _ a => a.endsInCharacter
  | _ => false

/-- Each round of a repetition ends by taking a character. -/
def steady : Pattern → Bool
  | seq a b | alt a b => a.steady && b.steady
  | optional _ a | group _ a => a.steady
  | star _ a | plus _ a => a.endsInCharacter && a.steady
  | _ => true

def progresses (p : Pattern) : Bool := p.steady && !p.canBeEmpty

theorem least_of_progresses (h : p.progresses) : p.least = 1 := by
  have hfull : p.canBeEmpty = false := by simpa using (Bool.and_eq_true_iff.1 h).2
  simp [least, hfull]

theorem canBeEmpty_of_endsInCharacter (h : p.endsInCharacter) : p.canBeEmpty = false := by
  induction p with
  | char set => rfl
  | seq a b _ ihb => simp [canBeEmpty, ihb h]
  | alt a b iha ihb =>
    obtain ⟨ha, hb⟩ := Bool.and_eq_true_iff.1 h
    simp [canBeEmpty, iha ha, ihb hb]
  | group index a ih => exact ih h
  | _ => cases h

theorem length_lt_of_endsInCharacter (h : a.endsInCharacter) (hway : way ∈ a.ways spot) :
    way.1.rest.length < spot.rest.length := by
  have hlength := (a.ways_leads hway).length_rest
  rw [least, canBeEmpty_of_endsInCharacter h] at hlength
  exact hlength

theorem inRounds_of_rest_eq_nil (ha : a.endsInCharacter) (left : Text) (hrest : spot.rest = []) :
    inRounds greedy a.ways left spot = [(spot, [])] := by
  have hnone : a.ways spot = [] := List.eq_nil_iff_forall_not_mem.2 fun way hway => by
    have hlt := length_lt_of_endsInCharacter ha hway
    simp [hrest] at hlt
  cases left <;> cases greedy <;> simp [inRounds, hnone, goingOn, preferred]

theorem goingOn_congr {next' : Spot → List Way} (h : ∀ first ∈ firsts, next first.1 = next' first.1) :
    goingOn firsts next = goingOn firsts next' :=
  List.flatMap_congr fun first hfirst => by rw [h first hfirst]

/-- Rounds that take characters are no more than those, so the bound does not matter. -/
theorem inRounds_eq (ha : a.endsInCharacter) {left left' : Text}
    (hleft : spot.rest.length ≤ left.length) (hleft' : spot.rest.length ≤ left'.length) :
    inRounds greedy a.ways left spot = inRounds greedy a.ways left' spot := by
  induction left generalizing left' spot with
  | nil =>
    have hrest := List.eq_nil_of_length_eq_zero (Nat.le_zero.1 hleft)
    rw [inRounds_of_rest_eq_nil ha _ hrest, inRounds_of_rest_eq_nil ha _ hrest]
  | cons c left ih =>
    cases left' with
    | nil =>
      have hrest := List.eq_nil_of_length_eq_zero (Nat.le_zero.1 hleft')
      rw [inRounds_of_rest_eq_nil ha _ hrest, inRounds_of_rest_eq_nil ha _ hrest]
    | cons c' left' =>
      rw [inRounds, inRounds, goingOn_congr fun first hfirst => ?_]
      have hlt := length_lt_of_endsInCharacter ha hfirst
      simp only [List.length_cons] at hleft hleft'
      exact ih (by omega) (by omega)

/-- Any number of rounds are one and any number of them, or none. -/
theorem ways_star (ha : a.endsInCharacter) (greedy : Bool) (spot : Spot) :
    (star greedy a).ways spot
      = preferred greedy (goingOn (a.ways spot) (star greedy a).ways) [(spot, [])] := by
  cases hrest : spot.rest with
  | nil =>
    have hnone : a.ways spot = [] := List.eq_nil_iff_forall_not_mem.2 fun way hway => by
      have hlt := length_lt_of_endsInCharacter ha hway
      simp [hrest] at hlt
    rw [ways, inRounds_of_rest_eq_nil ha _ hrest, hnone]
    cases greedy <;> rfl
  | cons c rest =>
    rw [ways, hrest, inRounds, goingOn_congr fun first hfirst => ?_]
    have hlt := length_lt_of_endsInCharacter ha hfirst
    rw [hrest, List.length_cons] at hlt
    exact inRounds_eq ha (by omega) (Nat.le_refl _)

/-- One round or more are one and any number of them. -/
theorem ways_plus (ha : a.endsInCharacter) (greedy : Bool) (spot : Spot) :
    (plus greedy a).ways spot = goingOn (a.ways spot) (star greedy a).ways := by
  rw [ways]
  refine goingOn_congr fun first hfirst => ?_
  exact inRounds_eq ha (Nat.le_of_lt (length_lt_of_endsInCharacter ha hfirst)) (Nat.le_refl _)

/-- As many rounds as possible and what follows: one round and all that again, or what follows. -/
theorem ways_star_seq (ha : a.endsInCharacter) (b : Pattern) (spot : Spot) :
    (seq (star true a) b).ways spot
      = goingOn (a.ways spot) (seq (star true a) b).ways ++ b.ways spot := by
  rw [ways, ways_star ha, preferred, if_pos rfl, goingOn_append, goingOn_goingOn, goingOn_singleton]
  rfl

end HeadlessEditor.Pattern
