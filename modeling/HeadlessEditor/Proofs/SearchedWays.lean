import HeadlessEditor.Proofs.PatternWays

/-!
What a search finds. It takes up no choice twice at a place, and still it finds the first way through a
pattern: what it does not take up again led nowhere. That is so where each round of a repetition ends with
a character. Then a choice only comes up again further on in the text, so none comes up again while it is
being tried.
-/

namespace HeadlessEditor.Pattern

variable {p a b : Pattern} {spot : Spot} {way : Way}

/-- What a search brings from a place on, with groups found before. -/
abbrev Aim := Spot → Captures → Option (Nat × Captures)

def through (ways : Spot → List Way) (aim : Aim) : Aim := fun spot captures =>
  (ways spot).findSome? fun way => aim way.1 (way.2 ++ captures)

/-- Whether a choice, with the offset where, is met at a place with this offset from the number on, or
further on in the text. -/
def Ahead (number offset : Nat) (choice : Nat × Nat) : Prop :=
  offset < choice.2 ∨ offset = choice.2 ∧ number ≤ choice.1

/-- The search does what is aimed at, as long as what was tried and may be met is dead; and if it brings
nothing, all that it has tried as well is dead. It has less than so many characters left. -/
def Route.Follows (text : Text) (dead : Nat → Spot → Prop) (number bound : Nat) (route : Route)
    (aim : Aim) : Prop :=
  ∀ spot captures tried, spot.On text → spot.rest.length < bound →
    (∀ choice place, place.On text → (choice, place.offset) ∈ tried →
      Ahead number spot.offset (choice, place.offset) → dead choice place) →
    (route spot captures tried).1 = aim spot captures ∧
    (aim spot captures = none → ∀ choice place, place.On text →
      (choice, place.offset) ∈ (route spot captures tried).2 →
      (choice, place.offset) ∈ tried ∨ dead choice place)

namespace Route

variable {text : Text} {dead : Nat → Spot → Prop} {number level bound bound' : Nat}
  {first second next : Route} {aim aim' : Aim}

theorem Follows.mono (h : next.Follows text dead level bound' aim) (hnumber : number ≤ level)
    (hbound : bound ≤ bound') : next.Follows text dead number bound aim := by
  intro spot captures tried hspot hleft htried
  refine h spot captures tried hspot (by omega) fun choice place hplace hmem hahead => ?_
  refine htried choice place hplace hmem ?_
  unfold Ahead at *
  omega

theorem Follows.orElse (hfirst : first.Follows text dead number bound aim)
    (hsecond : second.Follows text dead number bound aim') :
    (first.orElse second).Follows text dead number bound
      fun spot captures => (aim spot captures).or (aim' spot captures) := by
  intro spot captures tried hspot hleft htried
  obtain ⟨hfound, hdead⟩ := hfirst spot captures tried hspot hleft htried
  unfold Route.orElse
  cases hresult : first spot captures tried with
  | mk found tried' =>
    rw [hresult] at hfound hdead
    cases found with
    | some found => simp [← hfound]
    | none =>
      have hdead := hdead hfound.symm
      obtain ⟨hfound', hdead'⟩ := hsecond spot captures tried' hspot hleft
        fun choice place hplace hmem hahead =>
          (hdead choice place hplace hmem).elim (htried choice place hplace · hahead) id
      simp only [← hfound, Option.none_or]
      refine ⟨hfound', fun hnone choice place hplace hmem => ?_⟩
      exact (hdead' hnone choice place hplace hmem).elim (hdead choice place hplace) Or.inr

def choosing (greedy : Bool) (more less : Aim) : Aim := fun spot captures =>
  if greedy then (more spot captures).or (less spot captures)
  else (less spot captures).or (more spot captures)

/-- A choice is dead if both sides of it lead nowhere. It is not met again on either side. -/
theorem Follows.choose {more less : Aim} {greedy : Bool}
    (hmore : first.Follows text dead (number + 1) bound more)
    (hless : second.Follows text dead (number + 1) bound less)
    (hdead : ∀ spot captures, spot.On text → spot.rest.length < bound →
      (dead number spot ↔ choosing greedy more less spot captures = none)) :
    (choose number greedy first second).Follows text dead number bound
      (choosing greedy more less) := by
  have hside : (if greedy then first.orElse second else second.orElse first).Follows text dead
      (number + 1) bound (choosing greedy more less) := by
    cases greedy with
    | true => exact hmore.orElse hless
    | false => exact hless.orElse hmore
  intro spot captures tried hspot hleft htried
  unfold Route.choose
  split
  · rename_i hcontains
    have hthis := htried number spot hspot (Std.HashSet.contains_iff_mem.1 hcontains)
      (Or.inr ⟨rfl, Nat.le_refl _⟩)
    have hnone := (hdead spot captures hspot hleft).1 hthis
    exact ⟨hnone.symm, fun _ _ _ _ => Or.inl⟩
  · obtain ⟨hfound, hleads⟩ := hside spot captures (tried.insert (number, spot.offset)) hspot hleft (by
      intro choice place hplace hmem hahead
      rcases Std.HashSet.mem_insert.1 hmem with hsame | hbefore
      · obtain ⟨rfl, hoffset⟩ := Prod.mk.inj (eq_of_beq hsame)
        unfold Ahead at hahead
        simp only at hahead
        omega
      · refine htried choice place hplace hbefore ?_
        unfold Ahead at *
        omega)
    refine ⟨hfound, fun hnone choice place hplace hmem => ?_⟩
    rcases hleads hnone choice place hplace hmem with hinserted | hdeadPlace
    · rcases Std.HashSet.mem_insert.1 hinserted with hsame | hbefore
      · obtain ⟨rfl, hoffset⟩ := Prod.mk.inj (eq_of_beq hsame)
        obtain rfl := hspot.eq hplace hoffset
        exact Or.inr ((hdead spot captures hspot hleft).2 hnone)
      · exact Or.inl hbefore
    · exact Or.inr hdeadPlace

/-- Where the condition fails the search leads nowhere. -/
theorem Follows.guard (h : next.Follows text dead number bound aim) (holds : Spot → Prop)
    [DecidablePred holds] :
    Route.Follows text dead number bound
      (fun spot captures tried => if holds spot then next spot captures tried else (none, tried))
      (through (fun spot => if holds spot then [(spot, [])] else []) aim) := by
  intro spot captures tried hspot hleft htried
  by_cases hholds : holds spot
  · simpa [hholds, through] using h spot captures tried hspot hleft htried
  · simp only [hholds, through]
    exact ⟨rfl, fun _ _ _ _ => Or.inl⟩

end Route

/-- A choice of the pattern, whose choices are numbered from `number`, leads nowhere: no way from it ends
at a place that leads on. -/
def stuck : Pattern → Nat → (Spot → Prop) → Nat → Spot → Prop
  | seq a b, number, leads, choice, spot =>
    if choice < number + a.choices then
      a.stuck number (fun after => ∃ way ∈ b.ways after, leads way.1) choice spot
    else b.stuck (number + a.choices) leads choice spot
  | alt a b, number, leads, choice, spot =>
    if choice = number then ¬ ∃ way ∈ (alt a b).ways spot, leads way.1
    else if choice < number + 1 + a.choices then a.stuck (number + 1) leads choice spot
    else b.stuck (number + 1 + a.choices) leads choice spot
  | optional greedy a, number, leads, choice, spot =>
    if choice = number then ¬ ∃ way ∈ (optional greedy a).ways spot, leads way.1
    else a.stuck (number + 1) leads choice spot
  | star greedy a, number, leads, choice, spot
  | plus greedy a, number, leads, choice, spot =>
    if choice = number then ¬ ∃ way ∈ (star greedy a).ways spot, leads way.1
    else a.stuck (number + 1) (fun after => ∃ way ∈ (star greedy a).ways after, leads way.1) choice spot
  | group _ a, number, leads, choice, spot => a.stuck number leads choice spot
  | empty, _, _, _, _ | char _, _, _, _, _ | atStart, _, _, _, _ | atEnd, _, _, _, _
  | wordBoundary _, _, _, _, _ => False

section Through

variable {aim aim' : Aim} {leads : Spot → Prop} {captures : Captures}

theorem through_eq_none (haim : ∀ spot captures, aim spot captures = none ↔ ¬ leads spot)
    (ways : Spot → List Way) (spot : Spot) (captures : Captures) :
    through ways aim spot captures = none ↔ ¬ ∃ way ∈ ways spot, leads way.1 := by
  simp [through, List.findSome?_eq_none_iff, haim]

theorem findSome?_goingOn (firsts : List Way) (next : Spot → List Way) (aim : Aim)
    (captures : Captures) :
    (goingOn firsts next).findSome? (fun way => aim way.1 (way.2 ++ captures))
      = firsts.findSome? fun way => through next aim way.1 (way.2 ++ captures) := by
  induction firsts with
  | nil => rfl
  | cons first firsts ih =>
    rw [goingOn, List.flatMap_cons, List.findSome?_append, ← goingOn, ih, List.findSome?_cons]
    simp only [through, List.findSome?_map, Function.comp_def, List.append_assoc]
    cases List.findSome? _ (next first.1) <;> rfl

theorem findSome?_preferred (greedy : Bool) (more less : List Way) (f : Way → Option (Nat × Captures)) :
    (preferred greedy more less).findSome? f
      = if greedy then (more.findSome? f).or (less.findSome? f)
        else (less.findSome? f).or (more.findSome? f) := by
  cases greedy <;> simp [preferred, List.findSome?_append]

end Through

open Route

variable {text : Text} {dead : Nat → Spot → Prop}

/-- Through the pattern a search does what it does behind the first way that brings something there. It is
enough to know of what follows where no choice of the pattern is met again, or, behind a character, from
there on. -/
def Followed (text : Text) (dead : Nat → Spot → Prop) (p : Pattern) : Prop :=
  ∀ ⦃number level bound bound' : Nat⦄ ⦃next : Route⦄ ⦃aim : Aim⦄ ⦃leads : Spot → Prop⦄,
    next.Follows text dead level bound' aim →
    (∀ spot captures, aim spot captures = none ↔ ¬ leads spot) →
    (number + p.choices ≤ level ∧ bound ≤ bound' ∨ p.endsInCharacter ∧ bound ≤ bound' + 1) →
    (∀ choice spot, number ≤ choice → choice < number + p.choices → spot.On text →
      (dead choice spot ↔ p.stuck number leads choice spot)) →
    (p.route number next).Follows text dead number bound (through p.ways aim)

section Rounds

variable {a : Pattern} {number bound : Nat} {next : Route} {aim : Aim} {leads : Spot → Prop}
  (ha : a.endsInCharacter) (hfollowed : a.Followed text dead) (greedy : Bool)
  (haim : ∀ spot captures, aim spot captures = none ↔ ¬ leads spot)
  (hdead : ∀ choice spot, number ≤ choice → choice < number + 1 + a.choices → spot.On text →
    (dead choice spot ↔ (plus greedy a).stuck number leads choice spot))
include ha hfollowed haim hdead

/-- One round before others. -/
theorem Followed.round {after : Route}
    (hafter : after.Follows text dead number bound (through (star greedy a).ways aim)) :
    (a.route (number + 1) after).Follows text dead (number + 1) (bound + 1)
      (through a.ways (through (star greedy a).ways aim)) := by
  refine hfollowed hafter (through_eq_none haim _) (Or.inr ⟨ha, Nat.le_refl _⟩)
    fun choice spot hlow hhigh hspot => ?_
  have hthis := hdead choice spot (by omega) (by omega) hspot
  rwa [stuck, if_neg (by omega)] at hthis

/-- Any number of rounds. -/
theorem Followed.rounds (hnext : next.Follows text dead (number + 1) bound aim) (left : Text)
    (hleft : left.length < bound) :
    (again number greedy (a.route (number + 1)) next left).Follows text dead number (left.length + 1)
      (through (star greedy a).ways aim) := by
  have haims : through (star greedy a).ways aim
      = choosing greedy (through a.ways (through (star greedy a).ways aim)) aim := by
    funext spot captures
    conv => lhs; rw [through, ways_star ha, findSome?_preferred, findSome?_goingOn]
    simp [choosing, through]
  have hround : ∀ {after rest}, rest < bound →
      Follows text dead number rest after (through (star greedy a).ways aim) →
      (choose number greedy (a.route (number + 1) after) next).Follows text dead number (rest + 1)
        (through (star greedy a).ways aim) := by
    intro after rest hrest hafter
    have honce := Followed.round ha hfollowed greedy haim hdead hafter
    have hchoose := honce.choose (hnext.mono (Nat.le_refl _) hrest) fun spot captures hspot _ => by
      rw [← haims, through_eq_none haim, hdead number spot (by omega) (by omega) hspot, stuck,
        if_pos rfl]
    rwa [← haims] at hchoose
  induction left with
  | nil =>
    refine hround hleft fun spot captures tried _ hnone => ?_
    exact absurd hnone (Nat.not_lt_zero _)
  | cons c left ih => exact hround hleft (ih (Nat.lt_of_succ_lt hleft))

end Rounds

namespace Followed

variable {a b : Pattern}

theorem empty : Pattern.empty.Followed text dead := by
  intro number level bound bound' next aim leads hnext haim hroom hdead
  obtain ⟨hnumber, hbound⟩ := hroom.resolve_right fun h => Bool.noConfusion h.1
  have hself : through Pattern.empty.ways aim = aim := by
    funext spot captures
    simp [through, ways]
  rw [hself]
  exact hnext.mono hnumber hbound

theorem char (set : CharSet) : (Pattern.char set).Followed text dead := by
  intro number level bound bound' next aim leads hnext haim hroom hdead
  have hbound : bound ≤ bound' + 1 := hroom.elim (fun h => Nat.le_succ_of_le h.2) (·.2)
  intro spot captures tried hspot hleft htried
  cases hrest : spot.rest with
  | nil =>
    simp only [route, hrest, through, ways]
    exact ⟨rfl, fun _ _ _ _ => Or.inl⟩
  | cons c rest =>
    by_cases hset : set.contains c
    · -- What may be met from the next place on is ahead of this one.
      have hon : (spot.skip 1).On text := hspot.skip (by simp [hrest])
      have hnext := hnext (spot.skip 1) captures tried hon
        (by simp [hrest] at hleft ⊢; omega) fun choice place hplace hmem hahead => by
          refine htried choice place hplace hmem ?_
          unfold Ahead at *
          simp only [Spot.skip_offset] at hahead
          omega
      rw [Spot.skip_one hrest] at hnext
      simpa [route, hrest, through, ways, hset, Spot.skip_one hrest] using hnext
    · simp only [route, hrest, through, ways, List.head?_cons, Option.any_some, hset,
        Bool.false_eq_true, if_false]
      exact ⟨rfl, fun _ _ _ _ => Or.inl⟩

theorem seq (ha : a.Followed text dead) (hb : b.Followed text dead) :
    (Pattern.seq a b).Followed text dead := by
  intro number level bound bound' next aim leads hnext haim hroom hdead
  simp only [choices, stuck] at hroom hdead
  have hback : (b.route (number + a.choices) next).Follows text dead (number + a.choices) bound
      (through b.ways aim) := by
    refine hb hnext haim ?_ fun choice spot hlow hhigh hspot => ?_
    · exact hroom.imp_left fun h => ⟨by omega, h.2⟩
    · have hthis := hdead choice spot (by omega) (by omega) hspot
      rwa [if_neg (by omega)] at hthis
  have haims : through (Pattern.seq a b).ways aim = through a.ways (through b.ways aim) := by
    funext spot captures
    exact findSome?_goingOn _ _ _ _
  rw [haims]
  refine ha hback (through_eq_none haim b.ways) (Or.inl ⟨Nat.le_refl _, Nat.le_refl _⟩)
    fun choice spot hlow hhigh hspot => ?_
  have hthis := hdead choice spot hlow (by omega) hspot
  rwa [if_pos hhigh] at hthis

theorem alt (ha : a.Followed text dead) (hb : b.Followed text dead) :
    (Pattern.alt a b).Followed text dead := by
  intro number level bound bound' next aim leads hnext haim hroom hdead
  simp only [choices, stuck] at hroom hdead
  have hfirst : (a.route (number + 1) next).Follows text dead (number + 1) bound
      (through a.ways aim) := by
    refine ha hnext haim ?_ fun choice spot hlow hhigh hspot => ?_
    · exact hroom.imp (fun h => ⟨by omega, h.2⟩) fun h => ⟨(Bool.and_eq_true_iff.1 h.1).1, h.2⟩
    · have hthis := hdead choice spot (by omega) (by omega) hspot
      rwa [if_neg (by omega), if_pos hhigh] at hthis
  have hsecond : (b.route (number + 1 + a.choices) next).Follows text dead
      (number + 1 + a.choices) bound (through b.ways aim) := by
    refine hb hnext haim ?_ fun choice spot hlow hhigh hspot => ?_
    · exact hroom.imp (fun h => ⟨by omega, h.2⟩) fun h => ⟨(Bool.and_eq_true_iff.1 h.1).2, h.2⟩
    · have hthis := hdead choice spot (by omega) (by omega) hspot
      rwa [if_neg (by omega), if_neg (by omega)] at hthis
  have haims : through (Pattern.alt a b).ways aim
      = choosing true (through a.ways aim) (through b.ways aim) := by
    funext spot captures
    exact List.findSome?_append
  rw [haims]
  refine hfirst.choose (hsecond.mono (by omega) (Nat.le_refl _)) fun spot captures hspot _ => ?_
  rw [← haims, through_eq_none haim, hdead number spot (by omega) (by omega) hspot, if_pos rfl]

theorem optional (greedy : Bool) (ha : a.Followed text dead) :
    (Pattern.optional greedy a).Followed text dead := by
  intro number level bound bound' next aim leads hnext haim hroom hdead
  obtain ⟨hnumber, hbound⟩ := hroom.resolve_right fun h => Bool.noConfusion h.1
  simp only [choices, stuck] at hnumber hdead
  have hmore : (a.route (number + 1) next).Follows text dead (number + 1) bound
      (through a.ways aim) := by
    refine ha hnext haim (Or.inl ⟨by omega, hbound⟩) fun choice spot hlow hhigh hspot => ?_
    have hthis := hdead choice spot (by omega) (by omega) hspot
    rwa [if_neg (by omega)] at hthis
  have haims : through (Pattern.optional greedy a).ways aim
      = choosing greedy (through a.ways aim) aim := by
    funext spot captures
    simp [through, ways, findSome?_preferred, choosing]
  rw [haims]
  refine hmore.choose (hnext.mono (by omega) hbound) fun spot captures hspot _ => ?_
  rw [← haims, through_eq_none haim, hdead number spot (by omega) (by omega) hspot, if_pos rfl]

theorem star (greedy : Bool) (hends : a.endsInCharacter) (ha : a.Followed text dead) :
    (Pattern.star greedy a).Followed text dead := by
  intro number level bound bound' next aim leads hnext haim hroom hdead
  obtain ⟨hnumber, hbound⟩ := hroom.resolve_right fun h => Bool.noConfusion h.1
  simp only [choices] at hnumber hdead
  have hrounds := Followed.rounds hends ha greedy haim
    (fun choice spot hlow hhigh => hdead choice spot hlow (by omega)) (hnext.mono (by omega) hbound)
  intro spot captures tried hspot hleft htried
  rw [route, if_neg (by simp [canBeEmpty_of_endsInCharacter hends])]
  exact hrounds spot.rest hleft spot captures tried hspot (Nat.lt_succ_self _) htried

theorem plus (greedy : Bool) (hends : a.endsInCharacter) (ha : a.Followed text dead) :
    (Pattern.plus greedy a).Followed text dead := by
  intro number level bound bound' next aim leads hnext haim hroom hdead
  obtain ⟨hnumber, hbound⟩ := hroom.resolve_right fun h => Bool.noConfusion h.1
  simp only [choices] at hnumber hdead
  have hdead : ∀ choice spot, number ≤ choice → choice < number + 1 + a.choices → spot.On text →
      (dead choice spot ↔ (Pattern.plus greedy a).stuck number leads choice spot) :=
    fun choice spot hlow hhigh => hdead choice spot hlow (by omega)
  have hrounds := Followed.rounds hends ha greedy haim hdead (hnext.mono (by omega) hbound)
  intro spot captures tried hspot hleft htried
  have haims : through (Pattern.plus greedy a).ways aim spot captures
      = through a.ways (through (Pattern.star greedy a).ways aim) spot captures := by
    rw [through, ways_plus hends, findSome?_goingOn]
    rfl
  rw [haims]
  have hround := Followed.round hends ha greedy haim hdead (hrounds spot.rest hleft)
  exact hround.mono (Nat.le_succ _) (Nat.le_refl _) spot captures tried hspot (by omega) htried

/-- The way on behind a group depends on where the group began. -/
theorem group (index : Nat) (ha : a.Followed text dead) : (Pattern.group index a).Followed text dead := by
  intro number level bound bound' next aim leads hnext haim hroom hdead spot captures tried hspot
    hleft htried
  have hinner : Follows text dead level bound'
      (fun after captures tried => next after ((index, spot.offset, after.offset) :: captures) tried)
      (fun after captures => aim after ((index, spot.offset, after.offset) :: captures)) :=
    fun after captures tried => hnext after _ tried
  have hfollows := ha hinner (fun after captures => haim after _) hroom hdead spot captures tried
    hspot hleft htried
  have haims : through (Pattern.group index a).ways aim spot captures
      = through a.ways (fun after captures => aim after ((index, spot.offset, after.offset) :: captures))
        spot captures := by
    simp [through, ways, List.findSome?_map, Function.comp_def]
  rw [haims]
  exact hfollows

end Followed

theorem followed_of_steady (p : Pattern) (hsteady : p.steady) : p.Followed text dead := by
  induction p with
  | empty => exact Followed.empty
  | char set => exact Followed.char set
  | atStart =>
    intro number level bound bound' next aim leads hnext haim hroom hdead
    obtain ⟨hnumber, hbound⟩ := hroom.resolve_right fun h => Bool.noConfusion h.1
    exact (hnext.mono hnumber hbound).guard fun spot => spot.offset = 0
  | atEnd =>
    intro number level bound bound' next aim leads hnext haim hroom hdead
    obtain ⟨hnumber, hbound⟩ := hroom.resolve_right fun h => Bool.noConfusion h.1
    exact (hnext.mono hnumber hbound).guard fun spot => spot.rest.isEmpty
  | wordBoundary present =>
    intro number level bound bound' next aim leads hnext haim hroom hdead
    obtain ⟨hnumber, hbound⟩ := hroom.resolve_right fun h => Bool.noConfusion h.1
    exact (hnext.mono hnumber hbound).guard fun spot => spot.isWordBoundary = present
  | seq a b iha ihb =>
    obtain ⟨ha, hb⟩ := Bool.and_eq_true_iff.1 hsteady
    exact (iha ha).seq (ihb hb)
  | alt a b iha ihb =>
    obtain ⟨ha, hb⟩ := Bool.and_eq_true_iff.1 hsteady
    exact (iha ha).alt (ihb hb)
  | optional greedy a ih => exact (ih hsteady).optional greedy
  | star greedy a ih =>
    obtain ⟨hends, ha⟩ := Bool.and_eq_true_iff.1 hsteady
    exact (ih ha).star greedy hends
  | plus greedy a ih =>
    obtain ⟨hends, ha⟩ := Bool.and_eq_true_iff.1 hsteady
    exact (ih ha).plus greedy hends
  | group index a ih => exact (ih hsteady).group index

def first? (p : Pattern) (spot : Spot) : Option (Nat × Captures) :=
  (p.ways spot).head?.map fun way => (way.1.offset, way.2)

theorem through_arrive (p : Pattern) (spot : Spot) :
    through p.ways (fun after captures => some (after.offset, captures)) spot [] = p.first? spot := by
  rw [through, first?]
  cases p.ways spot <;> simp

/-- All that was tried, if anything, leads nowhere in the pattern. -/
def Spent (p : Pattern) (text : Text) (tried : Tried) : Prop :=
  ∀ choice place, place.On text → (choice, place.offset) ∈ tried →
    p.stuck 0 (fun _ => True) choice place

theorem spent_empty (p : Pattern) (text : Text) : p.Spent text ∅ := by
  intro choice place _ hmem
  exact absurd hmem Std.HashSet.not_mem_empty

/-- A search finds the first way. -/
theorem route_first (hp : p.progresses) (hspot : spot.On text) {tried : Tried}
    (htried : p.Spent text tried) :
    (p.route 0 arrive spot [] tried).1 = p.first? spot ∧
    (p.first? spot = none → p.Spent text (p.route 0 arrive spot [] tried).2) := by
  have harrive : Follows text (p.stuck 0 fun _ => True) p.choices (spot.rest.length + 1) arrive
      fun after captures => some (after.offset, captures) := by
    intro after captures tried _ _ _
    exact ⟨rfl, fun hnone => absurd hnone (Option.some_ne_none _)⟩
  have hfollows := p.followed_of_steady (Bool.and_eq_true_iff.1 hp).1 harrive (by simp)
    (Or.inl ⟨Nat.le_of_eq (Nat.zero_add _), Nat.le_refl _⟩) (fun _ _ _ _ _ => Iff.rfl) spot [] tried hspot
    (Nat.lt_succ_self _) fun choice place hplace hmem _ => htried choice place hplace hmem
  rw [through_arrive] at hfollows
  refine hfollows.imp_right fun hdead hnone choice place hplace hmem => ?_
  exact (hdead hnone choice place hplace hmem).elim (htried choice place hplace) id

theorem first?_eq_some {stop : Nat} {captures : Captures} (h : p.first? spot = some (stop, captures)) :
    ∃ count, p.least ≤ count ∧ count ≤ spot.rest.length ∧ stop = spot.offset + count ∧
      ∀ c ∈ spot.rest.take count, p.admits c := by
  obtain ⟨way, hhead, hway⟩ := Option.map_eq_some_iff.1 h
  obtain ⟨rfl, rfl⟩ := Prod.mk.inj hway
  obtain ⟨count, hleast, hlength, hafter, hadmits⟩ := p.ways_leads (List.mem_of_mem_head? hhead)
  exact ⟨count, hleast, hlength, by rw [hafter, Spot.skip_offset], hadmits⟩

/-- The match is the first way from where it starts in the text. -/
def Starts (p : Pattern) (text : Text) (found : Match) : Prop :=
  ∃ spot : Spot, spot.On text ∧ spot.offset = found.start ∧
    p.first? spot = some (found.stop, found.captures)

theorem starts_iff {text : Text} {found : Match} :
    p.Starts text found ↔ found.start ≤ text.length ∧
      p.first? ((Spot.start text).skip found.start) = some (found.stop, found.captures) := by
  constructor
  · rintro ⟨spot, hspot, hstart, hfirst⟩
    have hlength := hspot.offset_add
    rw [hspot.eq_skip, hstart] at hfirst
    exact ⟨by omega, hfirst⟩
  · rintro ⟨hle, hfirst⟩
    exact ⟨_, ⟨_, hle, rfl⟩, Nat.zero_add _, hfirst⟩

/-- A match takes characters of the text that the pattern admits, and some if it cannot be empty. -/
theorem Starts.takes {text : Text} {found : Match} (h : p.Starts text found) :
    found.start + p.least ≤ found.stop ∧ found.stop ≤ text.length ∧
      ∀ c ∈ text.slice found.start found.stop, p.admits c := by
  obtain ⟨spot, hspot, hstart, hfirst⟩ := h
  obtain ⟨count, hleast, hlength, hstop, hadmits⟩ := first?_eq_some hfirst
  have hall := hspot.offset_add
  refine ⟨by omega, by omega, ?_⟩
  rw [Text.slice, ← hstart, ← hspot.rest_eq, hstop, Nat.add_sub_cancel_left]
  exact hadmits

theorem Starts.start_lt_stop {text : Text} {found : Match} (h : p.Starts text found)
    (hp : p.progresses) : found.start < found.stop := by
  have hstop := h.takes.1
  rwa [least_of_progresses hp] at hstop

/-- A match that takes characters begins with one that it can begin with. -/
theorem Starts.opens {text : Text} {found : Match} (h : p.Starts text found)
    (hlt : found.start < found.stop) : ∃ c, text[found.start]? = some c ∧ p.opensWith c := by
  obtain ⟨spot, hspot, hstart, hfirst⟩ := h
  obtain ⟨way, hhead, hway⟩ := Option.map_eq_some_iff.1 hfirst
  obtain ⟨hstop, -⟩ := Prod.mk.inj hway
  rcases p.ways_opensWith (List.mem_of_mem_head? hhead) with hstays | hopens
  · rw [hstays] at hstop
    omega
  · rwa [Option.any_eq_true, hspot.rest_eq, List.head?_drop, hstart] at hopens

theorem Starts.first?_eq {text : Text} {found : Match} (h : p.Starts text found) (hspot : spot.On text)
    (hstart : found.start = spot.offset) : p.first? spot = some (found.stop, found.captures) := by
  obtain ⟨place, hplace, hoffset, hfirst⟩ := h
  rwa [hplace.eq hspot (hoffset.trans hstart)] at hfirst

/-- Where there is only one way through the pattern, it is the first. -/
theorem first?_eq_some_iff {stop : Nat} {captures : Captures}
    (hunique : ∀ way ∈ p.ways spot, ∀ other ∈ p.ways spot, way = other) :
    p.first? spot = some (stop, captures) ↔
      ∃ way ∈ p.ways spot, (way.1.offset, way.2) = (stop, captures) := by
  rw [first?, Option.map_eq_some_iff]
  constructor
  · rintro ⟨way, hhead, hway⟩
    exact ⟨way, List.mem_of_mem_head? hhead, hway⟩
  · rintro ⟨way, hmem, hway⟩
    obtain ⟨first, hfirst⟩ := Option.isSome_iff_exists.1 (List.isSome_head?.2 (List.ne_nil_of_mem hmem))
    obtain rfl := hunique way hmem first (List.mem_of_mem_head? hfirst)
    exact ⟨way, hfirst, hway⟩

/-- A pattern that begins with the start of the text matches only there. -/
theorem starts_atStart_iff {text : Text} {found : Match} :
    (seq atStart p).Starts text found ↔
      found.start = 0 ∧ p.first? (Spot.start text) = some (found.stop, found.captures) := by
  have hways : ∀ spot, (seq atStart p).ways spot = if spot.offset = 0 then p.ways spot else [] := by
    intro spot
    rw [ways, ways]
    split <;> simp
  constructor
  · rintro ⟨spot, hspot, hstart, hfirst⟩
    rw [first?, hways] at hfirst
    split at hfirst
    · rename_i hzero
      obtain rfl := hspot.eq (Spot.start_on text) hzero
      exact ⟨hstart.symm, hfirst⟩
    · cases hfirst
  · rintro ⟨hstart, hfirst⟩
    refine ⟨Spot.start text, Spot.start_on text, hstart.symm, ?_⟩
    rw [first?, hways]
    exact hfirst

/-- There is no match behind the last character, as no match is empty. -/
theorem matchesFrom_nil (hp : p.progresses) {text : Text} {previous : Option Char} {offset : Nat}
    (hspot : Spot.On ⟨previous, [], offset⟩ text) (next : Nat) (lastStop : Option Nat) {tried : Tried}
    (htried : p.Spent text tried) :
    matchesFrom (p.route 0 arrive) previous offset next lastStop tried [] = [] := by
  have hnone : p.first? ⟨previous, [], offset⟩ = none := by
    refine Option.eq_none_iff_forall_ne_some.2 fun way hway => ?_
    obtain ⟨count, hleast, hcount, -⟩ := first?_eq_some hway
    rw [least_of_progresses hp] at hleast
    exact absurd hleast (Nat.not_le.2 (Nat.lt_succ_of_le hcount))
  have hfound := (route_first hp hspot htried).1.trans hnone
  unfold matchesFrom
  split
  · rfl
  · split
    · rename_i hresult
      rw [hresult] at hfound
      cases hfound
    · rfl

/-- From a place on the matches are those that no earlier one of them reaches into. -/
theorem mem_matchesFrom (hp : p.progresses) {text rest : Text}
    {previous : Option Char} {offset : Nat} (hspot : Spot.On ⟨previous, rest, offset⟩ text)
    (next : Nat) (lastStop : Option Nat) {tried : Tried} (htried : p.Spent text tried) (found : Match) :
    found ∈ matchesFrom (p.route 0 arrive) previous offset next lastStop tried rest ↔
      p.Starts text found ∧ offset ≤ found.start ∧ next ≤ found.start ∧
        ∀ other ∈ matchesFrom (p.route 0 arrive) previous offset next lastStop tried rest,
          other.start < found.start → other.stop ≤ found.start := by
  induction rest generalizing previous offset next lastStop tried found with
  | nil =>
    have hend : offset = text.length := by simpa using hspot.offset_add
    rw [matchesFrom_nil hp hspot next lastStop htried]
    simp only [List.not_mem_nil, false_iff]
    rintro ⟨hstarts, hle, -⟩
    have hlt := hstarts.start_lt_stop hp
    have hstop := hstarts.takes.2.1
    omega
  | cons c rest ih =>
    have hon : Spot.On ⟨some c, rest, offset + 1⟩ text := by
      have hskip := hspot.skip (show 1 ≤ (c :: rest).length from Nat.succ_le_succ (Nat.zero_le _))
      rwa [Spot.skip_one rfl] at hskip
    obtain ⟨hfirst, hspent⟩ := route_first hp hspot htried
    unfold matchesFrom
    split
    · rename_i hbefore
      rw [ih hon next lastStop htried]
      refine and_congr_right fun _ => ?_
      constructor
      · rintro ⟨-, hnext, hothers⟩
        exact ⟨by omega, hnext, hothers⟩
      · rintro ⟨-, hnext, hothers⟩
        exact ⟨by omega, hnext, hothers⟩
    · rename_i hnext
      split
      · rename_i stop captures _ hresult
        rw [hresult] at hfirst
        obtain ⟨count, hleast, hcount, hstop, -⟩ := first?_eq_some hfirst.symm
        rw [least_of_progresses hp] at hleast
        dsimp only at hstop
        rw [if_neg (by omega)]
        have hlater := fun other => ih hon (max stop (offset + 1)) (some stop) (p.spent_empty text) other
        constructor
        · intro hmem
          rcases List.mem_cons.1 hmem with rfl | htail
          · refine ⟨⟨_, hspot, rfl, hfirst.symm⟩, Nat.le_refl _, by dsimp only; omega,
              fun other hother hlt => ?_⟩
            rcases List.mem_cons.1 hother with rfl | hother
            · exact absurd hlt (Nat.lt_irrefl _)
            · have hle := ((hlater other).1 hother).2.1
              dsimp only at hlt
              omega
          · obtain ⟨hstarts, hle, hmax, hothers⟩ := (hlater found).1 htail
            refine ⟨hstarts, by omega, by omega, fun other hother hlt => ?_⟩
            rcases List.mem_cons.1 hother with rfl | hother
            · dsimp only
              omega
            · exact hothers other hother hlt
        · rintro ⟨hstarts, hle, -, hothers⟩
          rcases Nat.eq_or_lt_of_le hle with heq | hlt
          · have hsame := hstarts.first?_eq hspot heq.symm
            rw [← hfirst] at hsame
            obtain ⟨rfl, rfl⟩ := Prod.mk.inj (Option.some.inj hsame)
            exact List.mem_cons.2 (Or.inl (by rw [heq]))
          · have hstop' := hothers _ List.mem_cons_self hlt
            dsimp only at hstop'
            refine List.mem_cons_of_mem _ ((hlater found).2 ⟨hstarts, hlt, by omega, ?_⟩)
            exact fun other hother => hothers other (List.mem_cons_of_mem _ hother)
      · rename_i tried' hresult
        rw [hresult] at hfirst hspent
        rw [ih hon next lastStop (hspent hfirst.symm)]
        refine and_congr_right fun hstarts => and_congr_left fun _ => ?_
        refine ⟨Nat.le_of_succ_le, fun hle => Nat.lt_of_le_of_ne hle fun heq => ?_⟩
        have hsame := hstarts.first?_eq hspot heq.symm
        rw [← hfirst] at hsame
        cases hsame

/-- The matches in a text are the first ways from where they start, of those that no earlier match reaches
into. -/
theorem mem_matchesIn_iff (hp : p.progresses) {text : Text}
    {found : Match} :
    found ∈ p.matchesIn text ↔ p.Starts text found ∧
      ∀ other ∈ p.matchesIn text, other.start < found.start → other.stop ≤ found.start := by
  have hmem := mem_matchesFrom hp (Spot.start_on text) 0 none (p.spent_empty text) found
  simp only [Nat.zero_le, true_and] at hmem
  exact hmem

end HeadlessEditor.Pattern

namespace HeadlessEditor.PatternEngine

open Pattern

/-- The matches are the first ways from where they start, of those that no earlier match reaches into. All
of this is about patterns whose matches take a character. -/
structure LeftmostFirst (engine : PatternEngine) : Prop where
  mem_iff {p : Pattern} (hp : p.progresses) {text : Text} {found : Match} :
    found ∈ engine.matchesIn p text ↔ p.Starts text found ∧
      ∀ other ∈ engine.matchesIn p text, other.start < found.start → other.stop ≤ found.start

theorem backtracking_leftmostFirst : backtracking.LeftmostFirst := ⟨mem_matchesIn_iff⟩

end HeadlessEditor.PatternEngine
