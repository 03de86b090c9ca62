import HeadlessEditor.Pattern.Search
import HeadlessEditor.Text.Bytes

/-!
What a search brings. It goes forward only, so a match ends where it starts or behind, its groups lie in
it, and the next one starts where it ends or behind. A matcher is whatever finds such matches in a line,
which it names by the bytes of the line.
-/

namespace HeadlessEditor

namespace Pattern

def Within (start stop : Nat) (captures : Captures) : Prop :=
  ∀ capture ∈ captures, start ≤ capture.2.1 ∧ capture.2.2 ≤ stop

theorem Within.mono {start stop stop' : Nat} {captures : Captures} (h : Within start stop captures)
    (hle : stop ≤ stop') : Within start stop' captures :=
  fun capture hcapture => ⟨(h capture hcapture).1, Nat.le_trans (h capture hcapture).2 hle⟩

theorem within_nil (start stop : Nat) : Within start stop [] := by
  intro capture hcapture
  cases hcapture

/-- A way on that goes forward: behind `start` it ends where it was taken up or behind, and the groups
between `start` and there become groups between `start` and its end. -/
def Route.Forward (start : Nat) (route : Route) : Prop :=
  ∀ spot captures tried stop found, start ≤ spot.offset → Within start spot.offset captures →
    (route spot captures tried).1 = some (stop, found) →
    spot.offset ≤ stop ∧ Within start stop found

namespace Route

variable {start : Nat} {first second next : Route}

theorem deadEnd_forward : deadEnd.Forward start := by
  intro spot captures tried stop found _ _ hfound
  cases hfound

theorem arrive_forward : arrive.Forward start := by
  intro spot captures tried stop found _ hwithin hfound
  obtain ⟨rfl, rfl⟩ := Prod.mk.inj (Option.some.inj hfound)
  exact ⟨Nat.le_refl _, hwithin⟩

theorem Forward.orElse (hfirst : first.Forward start) (hsecond : second.Forward start) :
    (first.orElse second).Forward start := by
  intro spot captures tried stop found hstart hwithin hfound
  unfold Route.orElse at hfound
  split at hfound
  · exact hsecond _ _ _ _ _ hstart hwithin hfound
  · exact hfirst _ _ _ _ _ hstart hwithin hfound

theorem Forward.choose (hfirst : first.Forward start) (hsecond : second.Forward start)
    (number : Nat) (greedy : Bool) : (choose number greedy first second).Forward start := by
  intro spot captures tried stop found hstart hwithin hfound
  unfold Route.choose at hfound
  split at hfound
  · cases hfound
  · cases greedy with
    | true => exact hfirst.orElse hsecond _ _ _ _ _ hstart hwithin hfound
    | false => exact hsecond.orElse hfirst _ _ _ _ _ hstart hwithin hfound

section Rounds

variable {once : Route → Route} (honce : ∀ {next}, Forward start next → Forward start (once next))
  (hnext : next.Forward start) (number : Nat) (greedy : Bool)
include honce hnext

theorem Forward.again (left : Text) : (again number greedy once next left).Forward start := by
  induction left with
  | nil => exact (honce deadEnd_forward).choose hnext number greedy
  | cons c left ih => exact (honce ih).choose hnext number greedy

theorem Forward.rounds : (rounds number greedy once next).Forward start := by
  intro spot captures tried stop found
  exact honce (Forward.again honce hnext number greedy spot.rest) spot captures tried stop found

end Rounds

end Route

open Route

/-- Through a pattern it goes forward, if it does behind the pattern. -/
theorem route_forward (pattern : Pattern) {start : Nat} {next : Route} (h : next.Forward start)
    (number : Nat) : (pattern.route number next).Forward start := by
  induction pattern generalizing number next with
  | empty => exact h
  | char set =>
    intro spot captures tried stop found hstart hwithin hfound
    simp only [route] at hfound
    split at hfound
    · cases hfound
    · split at hfound
      · obtain ⟨hstop, hgroups⟩ := h _ _ _ _ _ (Nat.le_succ_of_le hstart)
          (hwithin.mono (Nat.le_succ _)) hfound
        exact ⟨Nat.le_of_succ_le hstop, hgroups⟩
      · cases hfound
  | atStart | atEnd | wordBoundary _ =>
    intro spot captures tried stop found hstart hwithin hfound
    simp only [route] at hfound
    split at hfound
    · exact h _ _ _ _ _ hstart hwithin hfound
    · cases hfound
  | seq a b iha ihb => exact iha (ihb h _) _
  | alt a b iha ihb => exact (iha h _).choose (ihb h _) _ _
  | optional greedy a ih => exact (ih h _).choose h _ _
  | star greedy a ih =>
    have honce : ∀ {number next}, next.Forward start → (a.route number next).Forward start :=
      fun hnext => ih hnext _
    simp only [route]
    split
    · exact (Forward.rounds honce h _ _).choose h _ _
    · intro spot captures tried stop found
      exact Forward.again honce h _ _ spot.rest spot captures tried stop found
  | plus greedy a ih => exact Forward.rounds (fun hnext => ih hnext _) h _ _
  | group index a ih =>
    intro spot captures tried stop found hstart hwithin hfound
    refine ih ?_ _ spot captures tried stop found hstart hwithin hfound
    -- The group ends where the way on behind it begins.
    intro after captures tried stop found hstart' hwithin' hfound
    refine h after _ tried stop found hstart' ?_ hfound
    intro capture hcapture
    rcases List.mem_cons.1 hcapture with rfl | hbefore
    · exact ⟨hstart, Nat.le_refl _⟩
    · exact hwithin' capture hbefore

structure Match.Sound (found : Match) : Prop where
  start_le_stop : found.start ≤ found.stop
  groups : Within found.start found.stop found.captures

theorem Match.Sound.group_within {found : Match} (h : found.Sound) {index start stop : Nat}
    (hgroup : found.group? index = some (start, stop)) : found.start ≤ start ∧ stop ≤ found.stop := by
  unfold Match.group? at hgroup
  split at hgroup
  · obtain ⟨rfl, rfl⟩ := Prod.mk.inj (Option.some.inj hgroup)
    exact ⟨Nat.le_refl _, Nat.le_refl _⟩
  · obtain ⟨before, after, hsplit, -⟩ := List.lookup_eq_some_iff.1 hgroup
    exact h.groups (index, start, stop) (by simp [hsplit])

theorem sound_of_route {route : Route} (h : ∀ start, route.Forward start) {spot : Spot}
    {tried : Tried} {stop : Nat} {captures : Captures}
    (hfound : (route spot [] tried).1 = some (stop, captures)) :
    (Match.mk spot.offset stop captures).Sound := by
  obtain ⟨hstop, hgroups⟩ :=
    h spot.offset spot [] tried stop captures (Nat.le_refl _) (within_nil _ _) hfound
  exact ⟨hstop, hgroups⟩

/-- Matches come from left to right. The next one is looked for behind the last. -/
theorem matchesFrom_ordered {route : Route} (h : ∀ start, route.Forward start)
    (previous : Option Char) (offset next : Nat) (lastStop : Option Nat) (tried : Tried) (text : Text) :
    (∀ found ∈ matchesFrom route previous offset next lastStop tried text,
      next ≤ found.start ∧ found.Sound) ∧
    (matchesFrom route previous offset next lastStop tried text).Pairwise
      fun a b => a.stop ≤ b.start := by
  induction text generalizing previous offset next lastStop tried with
  | nil =>
    unfold matchesFrom
    split
    · simp
    · rename_i hnext
      split
      · rename_i stop captures _ hroute
        split
        · simp
        · have hsound := sound_of_route h (congrArg Prod.fst hroute)
          simpa [Nat.le_of_not_lt hnext] using hsound
      · simp
  | cons c rest ih =>
    unfold matchesFrom
    split
    · exact ih ..
    · rename_i hnext
      have hstart : next ≤ offset := Nat.le_of_not_lt hnext
      split
      · rename_i stop captures _ hroute
        split
        · exact ih ..
        · have hsound := sound_of_route h (congrArg Prod.fst hroute)
          obtain ⟨hlater, hordered⟩ := ih (some c) (offset + 1) (max stop (offset + 1)) (some stop) ∅
          refine ⟨?_, List.pairwise_cons.2 ⟨fun found hfound => ?_, hordered⟩⟩
          · intro found hfound
            rcases List.mem_cons.1 hfound with rfl | hrest
            · exact ⟨hstart, hsound⟩
            · obtain ⟨hle, hfoundSound⟩ := hlater found hrest
              exact ⟨by omega, hfoundSound⟩
          · exact Nat.le_trans (Nat.le_max_left _ _) (hlater found hfound).1
      · exact ih ..

theorem matchesIn_sound {pattern : Pattern} {text : Text} {found : Match}
    (h : found ∈ pattern.matchesIn text) : found.Sound :=
  ((matchesFrom_ordered (fun _ => pattern.route_forward arrive_forward 0) none 0 0 none ∅ text).1
    found h).2

theorem matchesIn_ordered (pattern : Pattern) (text : Text) :
    (pattern.matchesIn text).Pairwise fun a b => a.stop ≤ b.start :=
  (matchesFrom_ordered (fun _ => pattern.route_forward arrive_forward 0) none 0 0 none ∅ text).2

/-- A match in a text, by bytes instead of characters. -/
def Match.inBytes (text : Text) (found : Match) : Match where
  start := text.byteIndex found.start
  stop := text.byteIndex found.stop
  captures := found.captures.map fun (index, start, stop) =>
    (index, text.byteIndex start, text.byteIndex stop)

theorem Match.group?_inBytes (text : Text) (found : Match) (index : Nat) :
    (found.inBytes text).group? index =
      (found.group? index).map fun (start, stop) => (text.byteIndex start, text.byteIndex stop) := by
  unfold group?
  split
  · rfl
  · dsimp only [inBytes]
    induction found.captures with
    | nil => rfl
    | cons capture rest ih =>
      rw [List.map_cons, List.lookup_cons, List.lookup_cons]
      split
      · rfl
      · exact ih

end Pattern

/-- Finds matches in a line, by bytes. None of them overlaps another one. Their groups lie in them, and
start and end between characters. -/
structure Matcher where
  matchesIn : Text → List Pattern.Match
  apart : ∀ line, (matchesIn line).Pairwise fun a b => a.stop ≤ b.start ∨ b.stop ≤ a.start
  groups : ∀ line, ∀ found ∈ matchesIn line, ∀ index start stop,
    found.group? index = some (start, stop) → found.start ≤ start ∧ stop ≤ found.stop
  boundaries : ∀ line, ∀ found ∈ matchesIn line, ∀ index start stop,
    found.group? index = some (start, stop) → line.IsBoundary start ∧ line.IsBoundary stop

/-- Finds the matches of patterns in texts, from left to right. -/
structure PatternEngine where
  matchesIn : Pattern → Text → List Pattern.Match
  sound : ∀ pattern text, ∀ found ∈ matchesIn pattern text, found.Sound
  ordered : ∀ pattern text, (matchesIn pattern text).Pairwise fun a b => a.stop ≤ b.start

namespace PatternEngine

open Pattern

variable {engine : PatternEngine} {pattern : Pattern} {line : Text}

theorem group_of_mem_inBytes {found : Match} {index start stop : Nat}
    (hfound : found ∈ (engine.matchesIn pattern line).map (·.inBytes line))
    (hgroup : found.group? index = some (start, stop)) :
    (found.start ≤ start ∧ stop ≤ found.stop) ∧ line.IsBoundary start ∧ line.IsBoundary stop := by
  obtain ⟨original, horiginal, rfl⟩ := List.mem_map.1 hfound
  rw [Match.group?_inBytes] at hgroup
  obtain ⟨⟨first, last⟩, hwithin, hsame⟩ := Option.map_eq_some_iff.1 hgroup
  obtain ⟨rfl, rfl⟩ := Prod.mk.inj hsame
  obtain ⟨hstart, hstop⟩ := (engine.sound _ _ _ horiginal).group_within hwithin
  exact ⟨⟨line.byteIndex_mono hstart, line.byteIndex_mono hstop⟩,
    line.isBoundary_byteIndex first, line.isBoundary_byteIndex last⟩

def matcher (engine : PatternEngine) (pattern : Pattern) : Matcher where
  matchesIn line := (engine.matchesIn pattern line).map (·.inBytes line)
  apart line := by
    refine List.pairwise_map.2 ((engine.ordered pattern line).imp fun hle => Or.inl ?_)
    exact line.byteIndex_mono hle
  groups _ _ hfound _ _ _ hgroup := (group_of_mem_inBytes hfound hgroup).1
  boundaries _ _ hfound _ _ _ hgroup := (group_of_mem_inBytes hfound hgroup).2

/-- The engine that goes back to the last choice when a way leads nowhere. -/
def backtracking : PatternEngine :=
  ⟨Pattern.matchesIn, fun _ _ _ => matchesIn_sound, matchesIn_ordered⟩

end PatternEngine

end HeadlessEditor
