import HeadlessEditor.Proofs.QuotedLiterals

/-!
Marks that begin a comment where they are met outside of literals, and the rest of the line, which the comment
covers.
-/

namespace HeadlessEditor

open Pattern Quoting

/-- No mark is met outside of literals before an offset. -/
def Unmet (singleQuotes : Bool) (mark line : Text) (place : Nat) : Prop :=
  ∀ before < place, Outside singleQuotes line before → ¬ mark <+: line.drop before

structure Meets (singleQuotes : Bool) (mark line : Text) (place : Nat) : Prop where
  outside : Outside singleQuotes line place
  found : mark <+: line.drop place
  unmet : Unmet singleQuotes mark line place

instance (singleQuotes : Bool) (mark line : Text) (place : Nat) :
    Decidable (Unmet singleQuotes mark line place) :=
  inferInstanceAs (Decidable (∀ before < place, _ → _))

instance (singleQuotes : Bool) (mark line : Text) (place : Nat) :
    Decidable (Meets singleQuotes mark line place) :=
  decidable_of_iff (Outside singleQuotes line place ∧ mark <+: line.drop place ∧
      Unmet singleQuotes mark line place)
    ⟨fun ⟨houtside, hfound, hfree⟩ => ⟨houtside, hfound, hfree⟩,
      fun h => ⟨h.outside, h.found, h.unmet⟩⟩

section Marks

variable {singleQuotes : Bool} {mark text : Text} {place other count : Nat}

theorem Meets.unique (h : Meets singleQuotes mark text place) (h' : Meets singleQuotes mark text other) :
    place = other := by
  refine Nat.le_antisymm (Nat.le_of_not_lt fun hlt => ?_) (Nat.le_of_not_lt fun hlt => ?_)
  · exact h.unmet other hlt h'.outside h'.found
  · exact h'.unmet place hlt h.outside h.found

theorem Meets.getElem? {c : Char} {rest : Text} (h : Meets singleQuotes (c :: rest) text place) :
    text[place]? = some c := by
  obtain ⟨tail, htail⟩ := h.found
  have hhead := congrArg List.head? htail
  simpa [List.head?_drop] using hhead.symm

theorem unmet_add_iff (h : Outside singleQuotes text count) :
    Unmet singleQuotes mark text (count + place) ↔
      Unmet singleQuotes mark text count ∧ Unmet singleQuotes mark (text.drop count) place := by
  constructor
  · intro hfree
    refine ⟨fun before hbefore => hfree before (by omega), fun before hbefore houtside => ?_⟩
    rw [List.drop_drop]
    exact hfree _ (by omega) (h.add_iff.2 houtside)
  · rintro ⟨hfront, hback⟩ before hbefore houtside
    rcases Nat.lt_or_ge before count with hlt | hge
    · exact hfront before hlt houtside
    · obtain ⟨further, rfl⟩ := Nat.exists_eq_add_of_le hge
      have hthere := hback further (by omega) (h.add_iff.1 houtside)
      rwa [List.drop_drop] at hthere

theorem meets_add_iff (h : Outside singleQuotes text count) :
    Meets singleQuotes mark text (count + place) ↔
      Unmet singleQuotes mark text count ∧ Meets singleQuotes mark (text.drop count) place := by
  constructor
  · rintro ⟨houtside, hmark, hfree⟩
    obtain ⟨hfront, hback⟩ := (unmet_add_iff h).1 hfree
    exact ⟨hfront, h.add_iff.1 houtside, by rwa [List.drop_drop], hback⟩
  · rintro ⟨hfront, houtside, hmark, hback⟩
    exact ⟨h.add_iff.2 houtside, by rwa [List.drop_drop] at hmark, (unmet_add_iff h).2 ⟨hfront, hback⟩⟩

end Marks

section Rest

variable {spot : Spot} {way : Way}

/-- Any characters and the end of the line: that leaves one way, whatever is noted on it. -/
theorem rest_ways (hline : '\n' ∉ spot.rest) (note : Way → Captures) :
    goingOn (((many any).ways spot).map fun way => (way.1, note way)) atEnd.ways
      = [(spot.skip spot.rest.length, note (spot.skip spot.rest.length, []))] := by
  induction hrest : spot.rest generalizing spot with
  | nil =>
    rw [many, ways_star (by decide)]
    simp [any, noneOf, ways, hrest, preferred, goingOn]
  | cons c rest ih =>
    have hc : c ≠ '\n' := fun hc => hline (by simp [hrest, hc])
    have hlater : '\n' ∉ (spot.skip 1).rest := fun hmem => hline (List.mem_of_mem_drop hmem)
    have hskip := ih hlater (by simp [hrest])
    have hnone : goingOn [(spot, note (spot, []))] atEnd.ways = [] := by
      simp [goingOn, ways, hrest]
    rw [many] at hskip
    rw [many, ways_star (by decide), ways_any hrest hc, goingOn_singleton, preferred, if_pos rfl,
      List.map_append, goingOn_append, hskip, List.map_singleton, hnone]
    simp [Nat.add_comm]

end Rest

end HeadlessEditor
