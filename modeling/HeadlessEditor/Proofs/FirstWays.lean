import HeadlessEditor.Proofs.SearchedWays
import HeadlessEditor.Syntax.Grammars

/-!
The first way through a pattern, put together from those through its parts, for patterns that note no groups.
-/

namespace HeadlessEditor.Pattern

variable {p a b : Pattern} {spot : Spot} {count further : Nat} {set : CharSet} {c : Char} {front back : Text}

theorem ways_one (c : Char) (spot : Spot) :
    (one c).ways spot = if spot.rest.head? = some c then [(spot.skip 1, [])] else [] := by
  rw [one, ways]
  refine if_congr ?_ rfl rfl
  cases spot.rest.head? <;> simp [CharSet.contains]

theorem ways_chain_cons (a : Pattern) (rest : List Pattern) (spot : Spot) :
    (chain (a :: rest)).ways spot = goingOn (a.ways spot) (chain rest).ways := by
  cases rest with
  | nil => simp [chain, goingOn, ways]
  | cons b rest => rfl

/-- The characters of a word. -/
theorem ways_word (word : List Char) (spot : Spot) :
    (chain (word.map one)).ways spot = if word <+: spot.rest then [(spot.skip word.length, [])] else [] := by
  induction word generalizing spot with
  | nil => simp [chain, ways]
  | cons c word ih =>
    rw [List.map_cons, ways_chain_cons, ways_one]
    cases hrest : spot.rest with
    | nil => simp
    | cons d rest =>
      by_cases hc : c = d
      · simp [hc, ih, hrest, Nat.add_comm]
      · simp [hc, Ne.symm hc]

/-- The first way through the pattern takes so many characters. -/
def Takes (p : Pattern) (spot : Spot) (count : Nat) : Prop :=
  (p.ways spot).head? = some (spot.skip count, [])

def Fails (p : Pattern) (spot : Spot) : Prop := p.ways spot = []

theorem Takes.seq (ha : a.Takes spot count) (hb : b.Takes (spot.skip count) further) :
    (seq a b).Takes spot (count + further) := by
  obtain ⟨firsts, hfirsts⟩ := List.head?_eq_some_iff.1 ha
  obtain ⟨laters, hlaters⟩ := List.head?_eq_some_iff.1 hb
  simp [Takes, ways, goingOn, hfirsts, hlaters]

theorem Fails.seq (ha : a.Fails spot) : (seq a b).Fails spot := by
  have hnone : a.ways spot = [] := ha
  rw [Fails, ways, hnone, goingOn_nil]

theorem Takes.alt (ha : a.Takes spot count) : (alt a b).Takes spot count := by
  have hfirst : (a.ways spot).head? = _ := ha
  rw [Takes, ways, List.head?_append, hfirst, Option.some_or]

theorem Fails.alt (ha : a.Fails spot) (hb : b.Takes spot count) : (alt a b).Takes spot count := by
  have hnone : a.ways spot = [] := ha
  rw [Takes, ways, hnone, List.nil_append]
  exact hb

theorem Takes.maybe (ha : a.Takes spot count) : (maybe a).Takes spot count := by
  have hfirst : (a.ways spot).head? = _ := ha
  rw [Takes, Pattern.maybe, ways, preferred, if_pos rfl, List.head?_append, hfirst, Option.some_or]

theorem Fails.maybe (ha : a.Fails spot) : (maybe a).Takes spot 0 := by
  have hnone : a.ways spot = [] := ha
  simp [Takes, Pattern.maybe, ways, preferred, hnone]

theorem takes_char (hrest : spot.rest = c :: back) (hc : set.contains c) : (char set).Takes spot 1 := by
  simp [Takes, ways, hrest, hc]

theorem fails_char (h : ¬ spot.rest.head?.any set.contains) : (char set).Fails spot := by
  simp [Fails, ways, h]

theorem takes_wordBoundary (h : spot.isWordBoundary) : (wordBoundary true).Takes spot 0 := by
  simp [Takes, ways, h]

/-- As many rounds over characters of a set as there are. -/
theorem takes_many (hrest : spot.rest = front ++ back) (hfront : ∀ c ∈ front, set.contains c)
    (hback : ¬ back.head?.any set.contains) : (many (char set)).Takes spot front.length := by
  induction front generalizing spot with
  | nil =>
    have hfails : (char set).ways spot = [] := fails_char (by rwa [hrest])
    simp [Takes, many, ways_star (a := char set) rfl, hfails, preferred]
  | cons c front ih =>
    obtain ⟨hc, hfront⟩ := List.forall_mem_cons.1 hfront
    have hround : (char set).ways spot = [(spot.skip 1, [])] := by simp [ways, hrest, hc]
    have hrounds : ((many (char set)).ways (spot.skip 1)).head? = _ := ih (by simp [hrest]) hfront
    rw [many] at hrounds
    rw [Takes, many, ways_star rfl, hround, goingOn_singleton, preferred, if_pos rfl, List.head?_append,
      hrounds]
    simp [Nat.add_comm]

theorem takes_many1 (hrest : spot.rest = c :: (front ++ back)) (hfront : ∀ d ∈ c :: front, set.contains d)
    (hback : ¬ back.head?.any set.contains) : (many1 (char set)).Takes spot (front.length + 1) := by
  obtain ⟨hc, hfront⟩ := List.forall_mem_cons.1 hfront
  have hround : (char set).Takes spot 1 := takes_char hrest hc
  have hrounds : (many (char set)).Takes (spot.skip 1) front.length :=
    takes_many (by simp [hrest]) hfront hback
  have hboth := hround.seq hrounds
  rw [Takes, ways] at hboth
  rw [Takes, many1, ways_plus rfl, Nat.add_comm]
  exact hboth

theorem Takes.starts {text : Text} {start : Nat} (h : p.Takes ((Spot.start text).skip start) count)
    (hstart : start ≤ text.length) : p.Starts text ⟨start, start + count, []⟩ := by
  have hfirst : (p.ways ((Spot.start text).skip start)).head? = _ := h
  rw [starts_iff, first?, hfirst]
  simpa [Spot.start] using hstart

end HeadlessEditor.Pattern
