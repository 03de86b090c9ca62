import HeadlessEditor.Proofs.EditorState
import Mathlib.Data.List.Infix
import Mathlib.Data.List.TakeWhile
import Mathlib.Logic.Function.Iterate
import Mathlib.Order.Bounds.Defs

/-!
Left and right go from one place between clusters to the next. These places of all lines, one line after
the other, stand in the order of the document. A step to the right goes to the first of them behind the
caret and a step to the left to the last of them before it, wherever the caret is; so a caret that is on
one of them goes through all of them in turn.
-/

namespace HeadlessEditor

namespace Segmentation

variable {segmentation : Segmentation} {line : Text} {column : Nat}

/-- Clusters end where those up to them do together. -/
theorem cons_endsFrom (column : Nat) (parts : List Text) :
    column :: endsFrom column parts = parts.inits.map fun front => column + front.flatten.length := by
  induction parts generalizing column with
  | nil => simp [endsFrom]
  | cons part rest ih =>
    rw [endsFrom, ih]
    simp [Function.comp_def, Nat.add_assoc]

theorem boundaries_eq (segmentation : Segmentation) (line : Text) :
    segmentation.boundaries line = (segmentation.clusters line).inits.map fun front => front.flatten.length := by
  rw [boundaries, cons_endsFrom]
  simp

theorem pairwise_endsFrom (column : Nat) {parts : List Text} (h : [] ∉ parts) :
    (column :: endsFrom column parts).Pairwise (· < ·) := by
  induction parts generalizing column with
  | nil => simp [endsFrom]
  | cons part rest ih =>
    obtain ⟨hpart, hrest⟩ := not_or.1 (mt List.mem_cons.2 h)
    have hlonger : column < column + part.length :=
      Nat.lt_add_of_pos_right (List.length_pos_iff.2 (Ne.symm hpart))
    have hsorted := ih (column + part.length) hrest
    rw [endsFrom, List.pairwise_cons]
    refine ⟨?_, hsorted⟩
    intro stop hstop
    rcases List.mem_cons.1 hstop with rfl | hlater
    · exact hlonger
    · exact Nat.lt_trans hlonger (List.rel_of_pairwise_cons hsorted hlater)

/-- Boundaries are listed from left to right, each of them once. -/
theorem pairwise_boundaries (segmentation : Segmentation) (line : Text) :
    (segmentation.boundaries line).Pairwise (· < ·) :=
  pairwise_endsFrom 0 (segmentation.nonempty line)

theorem zero_mem_boundaries (segmentation : Segmentation) (line : Text) :
    0 ∈ segmentation.boundaries line :=
  List.mem_cons_self

theorem length_mem_boundaries (segmentation : Segmentation) (line : Text) :
    line.length ∈ segmentation.boundaries line := by
  rw [boundaries_eq, List.mem_map]
  refine ⟨segmentation.clusters line, (List.mem_inits _ _).2 (List.prefix_refl _), ?_⟩
  rw [segmentation.flatten]

theorem le_length_of_mem_boundaries (h : column ∈ segmentation.boundaries line) : column ≤ line.length := by
  rw [boundaries_eq] at h
  obtain ⟨front, hfront, rfl⟩ := List.mem_map.1 h
  obtain ⟨back, hback⟩ := (List.mem_inits _ _).1 hfront
  rw [← segmentation.flatten line, ← hback, List.flatten_append, List.length_append]
  exact Nat.le_add_right _ _

theorem nextBoundary_isLeast (segmentation : Segmentation) (h : column < line.length) :
    IsLeast {stop | stop ∈ segmentation.boundaries line ∧ column < stop}
      (segmentation.nextBoundary line column) := by
  have hsome : ((segmentation.boundaries line).find? (column < ·)).isSome := by
    rw [List.find?_isSome]
    exact ⟨line.length, segmentation.length_mem_boundaries line, by simpa using h⟩
  obtain ⟨found, hfound⟩ := Option.isSome_iff_exists.1 hsome
  have hnext : segmentation.nextBoundary line column = found := by simp [nextBoundary, hfound]
  obtain ⟨hafter, front, back, hsplit, hfront⟩ := List.find?_eq_some_iff_append.1 hfound
  have hsorted := segmentation.pairwise_boundaries line
  rw [hsplit, List.pairwise_append] at hsorted
  rw [hnext]
  refine ⟨⟨List.mem_of_find?_eq_some hfound, by simpa using hafter⟩, ?_⟩
  intro stop hstop
  obtain ⟨hmem, hlater⟩ := hstop
  rw [hsplit, List.mem_append, List.mem_cons] at hmem
  rcases hmem with hbefore | rfl | hbehind
  · simp only [Bool.not_eq_true', decide_eq_false_iff_not] at hfront
    exact absurd hlater (hfront stop hbefore)
  · exact Nat.le_refl _
  · exact Nat.le_of_lt (List.rel_of_pairwise_cons hsorted.2.1 hbehind)

/-- In a sorted list all that is small comes first. -/
theorem mem_takeWhile_of_lt {columns : List Nat} (hsorted : columns.Pairwise (· < ·)) {stop : Nat}
    (hmem : stop ∈ columns) (h : stop < column) : stop ∈ columns.takeWhile (· < column) := by
  induction columns with
  | nil => cases hmem
  | cons first rest ih =>
    rcases List.mem_cons.1 hmem with rfl | hrest
    · simp [h]
    · have hfirst : first < column := Nat.lt_trans (List.rel_of_pairwise_cons hsorted hrest) h
      have hlater := ih hsorted.of_cons hrest
      simp [hfirst, hlater]

theorem previousBoundary_isGreatest (segmentation : Segmentation) (line : Text) (h : 0 < column) :
    IsGreatest {stop | stop ∈ segmentation.boundaries line ∧ stop < column}
      (segmentation.previousBoundary line column) := by
  have hstarts : (segmentation.boundaries line).takeWhile (· < column) ≠ [] := by simp [boundaries, h]
  have hlast : ((segmentation.boundaries line).takeWhile (· < column)).getLast?
      = some (segmentation.previousBoundary line column) := by
    simp [previousBoundary, List.getLast?_eq_some_getLast hstarts]
  obtain ⟨front, hfront⟩ := List.getLast?_eq_some_iff.1 hlast
  have hmem : segmentation.previousBoundary line column ∈ (segmentation.boundaries line).takeWhile (· < column) := by
    simp [hfront]
  refine ⟨⟨(List.takeWhile_sublist _).subset hmem, by simpa using List.mem_takeWhile_imp hmem⟩, ?_⟩
  intro stop hstop
  have hin := mem_takeWhile_of_lt (segmentation.pairwise_boundaries line) hstop.1 hstop.2
  have hsorted := (segmentation.pairwise_boundaries line).sublist (List.takeWhile_sublist (· < column))
  rw [hfront] at hin hsorted
  rcases List.mem_append.1 hin with hbefore | hsame
  · exact Nat.le_of_lt ((List.pairwise_append.1 hsorted).2.2 stop hbefore _ (List.mem_singleton.2 rfl))
  · exact Nat.le_of_eq (List.mem_singleton.1 hsame)

end Segmentation

namespace Buffer

variable {buffer : Buffer} {segmentation : Segmentation} {caret : Position}

/-- The places between clusters: on each line, behind so many clusters as make up a start of it. -/
def stops (buffer : Buffer) (segmentation : Segmentation) : List Position :=
  (List.finRange buffer.lines.length).flatMap fun line : Fin buffer.lines.length =>
    (segmentation.clusters buffer.lines[line]).inits.map fun front =>
      ⟨line, front.flatten.length, lineOffset buffer.lines line + front.flatten.length⟩

theorem stops_eq (buffer : Buffer) (segmentation : Segmentation) :
    buffer.stops segmentation =
      (List.finRange buffer.lines.length).flatMap fun line : Fin buffer.lines.length =>
        (segmentation.boundaries buffer.lines[line]).map fun column =>
          ⟨line, column, lineOffset buffer.lines line + column⟩ := by
  simp [stops, Segmentation.boundaries_eq, Function.comp_def]

/-- The places of all lines stand in the order of the document. -/
theorem pairwise_stops (buffer : Buffer) (segmentation : Segmentation) :
    (buffer.stops segmentation).Pairwise (· < ·) := by
  rw [stops_eq, List.pairwise_flatMap]
  constructor
  · intro line _
    rw [List.pairwise_map]
    refine (segmentation.pairwise_boundaries _).imp ?_
    intro column column' hlt
    exact (Position.lt_iff _ _).2 (Or.inr ⟨rfl, Or.inl hlt⟩)
  · refine (List.pairwise_lt_finRange _).imp ?_
    intro line line' hlt stop hstop stop' hstop'
    obtain ⟨column, -, rfl⟩ := List.mem_map.1 hstop
    obtain ⟨column', -, rfl⟩ := List.mem_map.1 hstop'
    exact (Position.lt_iff _ _).2 (Or.inl hlt)

/-- They are the places of the document whose columns are boundaries of their lines. -/
theorem Sound.mem_stops_iff (h : buffer.Sound) {stop : Position} :
    stop ∈ buffer.stops segmentation ↔ buffer.HasPlace stop ∧
      stop.column ∈ segmentation.boundaries ((buffer.line? stop.line).getD []) := by
  rw [stops_eq]
  constructor
  · intro hstop
    obtain ⟨⟨line, hline⟩, -, hline'⟩ := List.mem_flatMap.1 hstop
    obtain ⟨column, hcolumn, rfl⟩ := List.mem_map.1 hline'
    have hle : column ≤ buffer.lines[line].length := Segmentation.le_length_of_mem_boundaries hcolumn
    refine ⟨?_, by simpa [line?, hline] using hcolumn⟩
    rw [HasPlace, h.positionOf_eq, Position.ofOffset_lineOffset_add _ _ _ hline hle]
  · rintro ⟨hplace, hcolumn⟩
    obtain ⟨hline, -, hoffset⟩ := hplace.spec h
    rw [line?, List.getElem?_eq_getElem hline, Option.getD_some] at hcolumn
    refine List.mem_flatMap.2 ⟨⟨stop.line, hline⟩, List.mem_finRange _, ?_⟩
    exact List.mem_map.2 ⟨stop.column, hcolumn, congrArg (Position.mk _ _) hoffset.symm⟩

inductive StepsRight (segmentation : Segmentation) (buffer : Buffer) (caret : Position) : Position → Prop where
  /-- At the end of the document the caret stays. -/
  | last (column : buffer.lineLength caret.line ≤ caret.column)
      (line : buffer.lineCount ≤ caret.line + 1) : StepsRight segmentation buffer caret caret
  /-- From the end of a line to the start of the one below. -/
  | lineBelow (next : Position) (place : buffer.HasPlace next)
      (column : buffer.lineLength caret.line ≤ caret.column)
      (nextLine : next.line = caret.line + 1) (nextColumn : next.column = 0) :
      StepsRight segmentation buffer caret next
  | onLine (next : Position) (place : buffer.HasPlace next)
      (column : caret.column < buffer.lineLength caret.line) (nextLine : next.line = caret.line)
      (nextColumn : next.column =
        segmentation.nextBoundary ((buffer.line? caret.line).getD []) caret.column) :
      StepsRight segmentation buffer caret next

inductive StepsLeft (segmentation : Segmentation) (buffer : Buffer) (caret : Position) : Position → Prop where
  /-- At the start of the document the caret stays. -/
  | first (column : caret.column = 0) (line : caret.line = 0) : StepsLeft segmentation buffer caret caret
  /-- From the start of a line to the end of the one above. -/
  | lineAbove (next : Position) (place : buffer.HasPlace next) (column : caret.column = 0)
      (nextLine : next.line + 1 = caret.line)
      (nextColumn : next.column = buffer.lineLength next.line) : StepsLeft segmentation buffer caret next
  | onLine (next : Position) (place : buffer.HasPlace next) (column : 0 < caret.column)
      (nextLine : next.line = caret.line)
      (nextColumn : next.column =
        segmentation.previousBoundary ((buffer.line? caret.line).getD []) caret.column) :
      StepsLeft segmentation buffer caret next

theorem Sound.stepRight_steps (h : buffer.Sound) (hcaret : buffer.HasPlace caret) :
    buffer.StepsRight segmentation caret (Cursor.stepRight segmentation caret buffer) := by
  have hline : caret.line < buffer.lineCount := (hcaret.spec h).1
  unfold Cursor.stepRight
  split
  · rename_i hend
    split
    · rename_i hlast
      exact .last hend hlast
    · obtain ⟨hnext, hcolumn⟩ := h.positionAt_eq (caret.line + 1) 0 (by omega)
      exact .lineBelow _ (h.hasPlace_positionAt _ _) hend hnext (by rw [hcolumn, Nat.zero_min])
  · rename_i hend
    obtain ⟨hnext, hcolumn⟩ := h.positionAt_eq caret.line
      (segmentation.nextBoundary ((buffer.line? caret.line).getD []) caret.column) hline
    have hshort : caret.column < ((buffer.line? caret.line).getD []).length := by
      rw [← h.lineLength_eq_length]
      omega
    have hin := Segmentation.le_length_of_mem_boundaries (segmentation.nextBoundary_isLeast hshort).1.1
    rw [← h.lineLength_eq_length] at hin
    exact .onLine _ (h.hasPlace_positionAt _ _) (by omega) hnext
      (by rw [hcolumn, Nat.min_eq_left hin])

theorem Sound.stepLeft_steps (h : buffer.Sound) (hcaret : buffer.HasPlace caret)
    (hlength : buffer.content.length ≤ maxOffset) :
    buffer.StepsLeft segmentation caret (Cursor.stepLeft segmentation caret buffer) := by
  have hline : caret.line < buffer.lineCount := (hcaret.spec h).1
  have hin := hcaret.column_le h
  unfold Cursor.stepLeft
  split
  · rename_i hstart
    split
    · rename_i hfirst
      exact .first hstart hfirst
    · obtain ⟨hnext, hcolumn⟩ := h.positionAt_eq (caret.line - 1) maxOffset (by omega)
      have hshort : buffer.lineLength (caret.line - 1) ≤ maxOffset :=
        Nat.le_trans (h.lineLength_le (by omega)) (h.length_eq ▸ hlength)
      exact .lineAbove _ (h.hasPlace_positionAt _ _) hstart (by omega)
        (by rw [hcolumn, hnext, Nat.min_eq_right hshort])
  · rename_i hstart
    obtain ⟨hnext, hcolumn⟩ := h.positionAt_eq caret.line
      (segmentation.previousBoundary ((buffer.line? caret.line).getD []) caret.column) hline
    have hbefore : segmentation.previousBoundary ((buffer.line? caret.line).getD []) caret.column
        < caret.column := (segmentation.previousBoundary_isGreatest _ (by omega)).1.2
    exact .onLine _ (h.hasPlace_positionAt _ _) (by omega) hnext
      (by rw [hcolumn, Nat.min_eq_left (by omega)])

/-- What is known of a place between clusters. -/
theorem Sound.stop_spec (h : buffer.Sound) {stop : Position} (hstop : stop ∈ buffer.stops segmentation) :
    buffer.HasPlace stop ∧ stop.line < buffer.lineCount ∧
    stop.column ∈ segmentation.boundaries ((buffer.line? stop.line).getD []) ∧
    stop.column ≤ buffer.lineLength stop.line := by
  obtain ⟨hplace, hcolumn⟩ := h.mem_stops_iff.1 hstop
  exact ⟨hplace, (hplace.spec h).1, hcolumn, hplace.column_le h⟩

/-- A step to the right goes to the first place between clusters behind the caret. There is none only at
the end of the document, and there the caret stays. -/
theorem Sound.stepRight_next (h : buffer.Sound) (hcaret : buffer.HasPlace caret) :
    (caret ∈ buffer.stops segmentation ∧ Cursor.stepRight segmentation caret buffer = caret ∧
      ∀ stop ∈ buffer.stops segmentation, ¬ caret < stop) ∨
    IsLeast {stop | stop ∈ buffer.stops segmentation ∧ caret < stop} (Cursor.stepRight segmentation caret buffer) := by
  have hsteps : buffer.StepsRight segmentation caret _ := h.stepRight_steps hcaret
  generalize Cursor.stepRight segmentation caret buffer = next at hsteps ⊢
  cases hsteps with
  | last hcolumn hline =>
    refine Or.inl ⟨?_, rfl, fun stop hstop => ?_⟩
    · have hend := Nat.le_antisymm (hcaret.column_le h) hcolumn
      rw [h.mem_stops_iff, hend, h.lineLength_eq_length]
      exact ⟨hcaret, segmentation.length_mem_boundaries _⟩
    · obtain ⟨hplace, hin, -, hlength⟩ := h.stop_spec hstop
      rw [hcaret.lt_iff_line_column hplace h]
      rintro (hbelow | ⟨hsame, hbehind⟩)
      · omega
      · rw [hsame] at hcolumn
        omega
  | lineBelow next hnext hcolumn hline hstart =>
    refine Or.inr ⟨⟨?_, ?_⟩, ?_⟩
    · rw [h.mem_stops_iff, hstart]
      exact ⟨hnext, segmentation.zero_mem_boundaries _⟩
    · rw [hcaret.lt_iff_line_column hnext h]
      omega
    · rintro stop ⟨hstop, hlater⟩
      obtain ⟨hplace, -, -, hlength⟩ := h.stop_spec hstop
      rw [hcaret.lt_iff_line_column hplace h] at hlater
      rw [hnext.le_iff_line_column hplace h]
      rcases hlater with hbelow | ⟨hsame, hbehind⟩
      · omega
      · rw [hsame] at hcolumn
        omega
  | onLine next hnext hcolumn hline hnextColumn =>
    rw [h.lineLength_eq_length] at hcolumn
    obtain ⟨⟨hboundary, hbehind⟩, hfirst⟩ := segmentation.nextBoundary_isLeast hcolumn
    rw [← hnextColumn] at hboundary hbehind hfirst
    refine Or.inr ⟨⟨?_, ?_⟩, ?_⟩
    · rw [h.mem_stops_iff, hline]
      exact ⟨hnext, hboundary⟩
    · rw [hcaret.lt_iff_line_column hnext h]
      exact Or.inr ⟨hline.symm, hbehind⟩
    · rintro stop ⟨hstop, hlater⟩
      obtain ⟨hplace, -, hstopBoundary, -⟩ := h.stop_spec hstop
      rw [hcaret.lt_iff_line_column hplace h] at hlater
      rw [hnext.le_iff_line_column hplace h, hline]
      rcases hlater with hbelow | ⟨hsame, hlater⟩
      · exact Or.inl hbelow
      · rw [← hsame] at hstopBoundary
        exact Or.inr ⟨hsame, hfirst ⟨hstopBoundary, hlater⟩⟩

/-- A step to the left goes to the last place between clusters before the caret, and stays at the start of
the document. -/
theorem Sound.stepLeft_next (h : buffer.Sound) (hcaret : buffer.HasPlace caret)
    (hlength : buffer.content.length ≤ maxOffset) :
    (caret ∈ buffer.stops segmentation ∧ Cursor.stepLeft segmentation caret buffer = caret ∧
      ∀ stop ∈ buffer.stops segmentation, ¬ stop < caret) ∨
    IsGreatest {stop | stop ∈ buffer.stops segmentation ∧ stop < caret} (Cursor.stepLeft segmentation caret buffer) := by
  have hsteps : buffer.StepsLeft segmentation caret _ := h.stepLeft_steps hcaret hlength
  generalize Cursor.stepLeft segmentation caret buffer = next at hsteps ⊢
  cases hsteps with
  | first hcolumn hline =>
    refine Or.inl ⟨?_, rfl, fun stop hstop => ?_⟩
    · rw [h.mem_stops_iff, hcolumn]
      exact ⟨hcaret, segmentation.zero_mem_boundaries _⟩
    · rw [(h.stop_spec hstop).1.lt_iff_line_column hcaret h]
      omega
  | lineAbove next hnext hcolumn hline hend =>
    refine Or.inr ⟨⟨?_, ?_⟩, ?_⟩
    · rw [h.mem_stops_iff, hend, h.lineLength_eq_length]
      exact ⟨hnext, segmentation.length_mem_boundaries _⟩
    · rw [hnext.lt_iff_line_column hcaret h]
      omega
    · rintro stop ⟨hstop, hearlier⟩
      obtain ⟨hplace, -, -, hstopColumn⟩ := h.stop_spec hstop
      rw [hplace.lt_iff_line_column hcaret h] at hearlier
      rw [hplace.le_iff_line_column hnext h]
      rcases Nat.lt_or_ge stop.line next.line with habove | hbelow
      · exact Or.inl habove
      · have hsame : stop.line = next.line := by omega
        rw [hsame, ← hend] at hstopColumn
        exact Or.inr ⟨hsame, hstopColumn⟩
  | onLine next hnext hcolumn hline hnextColumn =>
    obtain ⟨⟨hboundary, hbefore⟩, hlast⟩ :=
      segmentation.previousBoundary_isGreatest ((buffer.line? caret.line).getD []) hcolumn
    rw [← hnextColumn] at hboundary hbefore hlast
    refine Or.inr ⟨⟨?_, ?_⟩, ?_⟩
    · rw [h.mem_stops_iff, hline]
      exact ⟨hnext, hboundary⟩
    · rw [hnext.lt_iff_line_column hcaret h]
      exact Or.inr ⟨hline, hbefore⟩
    · rintro stop ⟨hstop, hearlier⟩
      obtain ⟨hplace, -, hstopBoundary, -⟩ := h.stop_spec hstop
      rw [hplace.lt_iff_line_column hcaret h] at hearlier
      rw [hplace.le_iff_line_column hnext h, hline]
      rcases hearlier with habove | ⟨hsame, hearlier⟩
      · exact Or.inl habove
      · rw [hsame] at hstopBoundary
        exact Or.inr ⟨hsame, hlast ⟨hstopBoundary, hearlier⟩⟩

/-- Neighbours in a sorted list stand next to each other in it. -/
theorem eq_succ_of_none_between {places : List Position} (hsorted : places.Pairwise (· < ·)) {i j : Nat}
    (hi : i < places.length) (hj : j < places.length) (hlt : places[i] < places[j])
    (hnone : ∀ place ∈ places, places[i] < place → ¬ place < places[j]) : j = i + 1 := by
  have hget := List.pairwise_iff_getElem.1 hsorted
  have hij : i < j := by
    rcases Nat.lt_trichotomy i j with hbefore | rfl | hbehind
    · exact hbefore
    · exact absurd hlt (Position.lt_asymm hlt)
    · exact absurd hlt (Position.lt_asymm (hget j i hj hi hbehind))
  by_contra hne
  have hnext : i + 1 < places.length := by omega
  exact hnone _ (List.getElem_mem hnext) (hget i (i + 1) hi hnext (Nat.lt_succ_self i))
    (hget (i + 1) j hnext hj (by omega))

theorem Sound.getElem?_stepRight (h : buffer.Sound) {i : Nat} (hi : (buffer.stops segmentation)[i]? = some caret) :
    (buffer.stops segmentation)[min (i + 1) ((buffer.stops segmentation).length - 1)]? = some (Cursor.stepRight segmentation caret buffer) := by
  obtain ⟨hlt, rfl⟩ := List.getElem?_eq_some_iff.1 hi
  have hget := List.pairwise_iff_getElem.1 (buffer.pairwise_stops segmentation)
  rcases h.stepRight_next (h.stop_spec (List.getElem_mem hlt)).1 with ⟨-, hstay, hlast⟩ | hleast
  · have hend : (buffer.stops segmentation).length ≤ i + 1 := by
      by_contra hmore
      exact hlast _ (List.getElem_mem (by omega)) (hget i (i + 1) hlt (by omega) (Nat.lt_succ_self i))
    rw [hstay, Nat.min_eq_right (by omega), show (buffer.stops segmentation).length - 1 = i by omega, hi]
  · obtain ⟨j, hj, hnext⟩ := List.getElem_of_mem hleast.1.1
    rw [← hnext] at hleast ⊢
    have hsucc := eq_succ_of_none_between (buffer.pairwise_stops segmentation) hlt hj hleast.1.2
      fun place hplace hafter => Position.not_lt_of_le (hleast.2 ⟨hplace, hafter⟩)
    subst hsucc
    rw [Nat.min_eq_left (by omega), List.getElem?_eq_getElem hj]

theorem Sound.getElem?_stepLeft (h : buffer.Sound) (hlength : buffer.content.length ≤ maxOffset)
    {i : Nat} (hi : (buffer.stops segmentation)[i]? = some caret) :
    (buffer.stops segmentation)[i - 1]? = some (Cursor.stepLeft segmentation caret buffer) := by
  obtain ⟨hlt, rfl⟩ := List.getElem?_eq_some_iff.1 hi
  have hget := List.pairwise_iff_getElem.1 (buffer.pairwise_stops segmentation)
  rcases h.stepLeft_next (h.stop_spec (List.getElem_mem hlt)).1 hlength with
    ⟨-, hstay, hfirst⟩ | hgreatest
  · have hstart : i = 0 := by
      by_contra hmore
      exact hfirst _ (List.getElem_mem (by omega)) (hget (i - 1) i (by omega) hlt (by omega))
    rw [hstay, ← hi, hstart]
  · obtain ⟨j, hj, hnext⟩ := List.getElem_of_mem hgreatest.1.1
    rw [← hnext] at hgreatest ⊢
    have hsucc := eq_succ_of_none_between (buffer.pairwise_stops segmentation) hj hlt hgreatest.1.2
      fun place hplace hafter hbefore =>
        Position.not_lt_of_le (hgreatest.2 ⟨hplace, hbefore⟩) hafter
    rw [hsucc, Nat.add_sub_cancel, List.getElem?_eq_getElem hj]

/-- The first place is the start of the document. -/
theorem Sound.getElem?_stops_zero (h : buffer.Sound) : (buffer.stops segmentation)[0]? = some .zero := by
  have hmem : Position.zero ∈ buffer.stops segmentation :=
    h.mem_stops_iff.2 ⟨h.hasPlace_zero, segmentation.zero_mem_boundaries _⟩
  obtain ⟨i, hi, hget⟩ := List.getElem_of_mem hmem
  cases i with
  | zero => rw [List.getElem?_eq_getElem hi, hget]
  | succ i =>
    have hbefore := List.pairwise_iff_getElem.1 (buffer.pairwise_stops segmentation) 0 (i + 1) (by omega) hi (by omega)
    rw [hget, Position.lt_iff] at hbefore
    simp [Position.zero] at hbefore

end Buffer

namespace Cursor

variable {cursor : Cursor} {buffer : Buffer} {segmentation : Segmentation} {i : Nat}

/-- Without a selection a step to the right is nothing but that. -/
theorem move_right_of_none (buffer : Buffer) (hnone : cursor.selection = none) :
    (cursor.move segmentation .right false buffer).1.caret = stepRight segmentation cursor.caret buffer ∧
    (cursor.move segmentation .right false buffer).1.selection = none := by
  have hstate : cursor.state.selection = none := hnone
  simp [move, become, destination, collapseTarget?, hstate, selection, caret]

theorem move_left_of_none (buffer : Buffer) (hnone : cursor.selection = none) :
    (cursor.move segmentation .left false buffer).1.caret = stepLeft segmentation cursor.caret buffer ∧
    (cursor.move segmentation .left false buffer).1.selection = none := by
  have hstate : cursor.state.selection = none := hnone
  simp [move, become, destination, collapseTarget?, hstate, selection, caret]

theorem getElem?_right (h : buffer.Sound) (hnone : cursor.selection = none)
    (hi : (buffer.stops segmentation)[i]? = some cursor.caret) :
    (buffer.stops segmentation)[min (i + 1) ((buffer.stops segmentation).length - 1)]?
      = some (cursor.move segmentation .right false buffer).1.caret := by
  rw [(move_right_of_none buffer hnone).1]
  exact h.getElem?_stepRight hi

theorem getElem?_left (h : buffer.Sound) (hlength : buffer.content.length ≤ maxOffset)
    (hnone : cursor.selection = none) (hi : (buffer.stops segmentation)[i]? = some cursor.caret) :
    (buffer.stops segmentation)[i - 1]? = some (cursor.move segmentation .left false buffer).1.caret := by
  rw [(move_left_of_none buffer hnone).1]
  exact h.getElem?_stepLeft hlength hi

/-- Away from the end of the document a step to the left undoes one to the right. -/
theorem left_right_caret (h : buffer.Sound) (hlength : buffer.content.length ≤ maxOffset)
    (hnone : cursor.selection = none) (hi : (buffer.stops segmentation)[i]? = some cursor.caret)
    (hmore : i + 1 < (buffer.stops segmentation).length) :
    ((cursor.move segmentation .right false buffer).1.move segmentation .left false buffer).1.caret = cursor.caret := by
  have hright := getElem?_right h hnone hi
  have hback := getElem?_left h hlength (move_right_of_none buffer hnone).2 hright
  rw [Nat.min_eq_left (by omega), Nat.add_sub_cancel, hi] at hback
  exact (Option.some.inj hback).symm

/-- Away from the start of the document a step to the right undoes one to the left. -/
theorem right_left_caret (h : buffer.Sound) (hlength : buffer.content.length ≤ maxOffset)
    (hnone : cursor.selection = none) (hi : (buffer.stops segmentation)[i]? = some cursor.caret) (hmore : 0 < i) :
    ((cursor.move segmentation .left false buffer).1.move segmentation .right false buffer).1.caret = cursor.caret := by
  have hlt := (List.getElem?_eq_some_iff.1 hi).1
  have hleft := getElem?_left h hlength hnone hi
  have hback := getElem?_right h (move_left_of_none buffer hnone).2 hleft
  rw [Nat.sub_add_cancel hmore, Nat.min_eq_left (by omega), hi] at hback
  exact (Option.some.inj hback).symm

/-- Steps to the right, one after the other, go from place to place up to the last one. -/
theorem getElem?_iterate_right (h : buffer.Sound) (hnone : cursor.selection = none)
    (hi : (buffer.stops segmentation)[i]? = some cursor.caret) (n : Nat) :
    let after := (fun cursor : Cursor => (cursor.move segmentation .right false buffer).1)^[n] cursor
    after.selection = none ∧
      (buffer.stops segmentation)[min (i + n) ((buffer.stops segmentation).length - 1)]? = some after.caret := by
  induction n with
  | zero =>
    have hlt := (List.getElem?_eq_some_iff.1 hi).1
    refine ⟨hnone, ?_⟩
    rw [Nat.add_zero, Nat.min_eq_left (by omega), hi]
    rfl
  | succ n ih =>
    obtain ⟨hselection, hcaret⟩ := ih
    have hnext := getElem?_right h hselection hcaret
    rw [Function.iterate_succ_apply']
    refine ⟨(move_right_of_none buffer hselection).2, ?_⟩
    rw [← hnext]
    congr 1
    omega

/-- From the start of the document they come to every place, and to each of them once. -/
theorem map_iterate_right (h : buffer.Sound) (hnone : cursor.selection = none)
    (hstart : cursor.caret = .zero) :
    (List.range (buffer.stops segmentation).length).map
      (fun n => ((fun cursor : Cursor => (cursor.move segmentation .right false buffer).1)^[n] cursor).caret)
      = buffer.stops segmentation := by
  have hzero : (buffer.stops segmentation)[0]? = some cursor.caret := hstart ▸ h.getElem?_stops_zero
  refine List.ext_getElem (by simp) ?_
  intro n _ hn
  have hget := (getElem?_iterate_right h hnone hzero n).2
  rw [Nat.zero_add, Nat.min_eq_left (by omega), List.getElem?_eq_getElem hn] at hget
  simpa using (Option.some.inj hget).symm

/-- A document is walked cluster by cluster, whatever way there is to split its lines into clusters that
are not empty and make up the line. From a place between clusters a plain step to the right or to the
left goes to the next or the previous such place and stays at the ends of the document, so that one step
undoes the other, and steps to the right from the start come to each of the places in turn. From anywhere
else a step goes to the nearest of them on its side. -/
theorem sideways_steps_walk (segmentation : Segmentation) (text : Text)
    (operations : List BufferOperation) (cursor : Cursor) :
    let buffer := (Buffer.load text).performAll operations
    let stops := buffer.stops segmentation
    let right := fun cursor : Cursor => (cursor.move segmentation .right false buffer).1
    let left := fun cursor : Cursor => (cursor.move segmentation .left false buffer).1
    buffer.content.length ≤ maxOffset → cursor.selection = none → buffer.HasPlace cursor.caret →
    stops.Pairwise (· < ·) ∧
    (∀ i, stops[i]? = some cursor.caret →
      stops[min (i + 1) (stops.length - 1)]? = some (right cursor).caret ∧
      stops[i - 1]? = some (left cursor).caret ∧
      (i + 1 < stops.length → (left (right cursor)).caret = cursor.caret) ∧
      (0 < i → (right (left cursor)).caret = cursor.caret)) ∧
    (cursor.caret = .zero →
      (List.range stops.length).map (fun n => (right^[n] cursor).caret) = stops) ∧
    (cursor.caret ∉ stops →
      IsLeast {stop | stop ∈ stops ∧ cursor.caret < stop} (right cursor).caret ∧
      IsGreatest {stop | stop ∈ stops ∧ stop < cursor.caret} (left cursor).caret) := by
  intro buffer stops right left hlength hnone hplace
  have h : buffer.Sound := (Buffer.sound_load text).performAll operations
  refine ⟨buffer.pairwise_stops segmentation, ?_, map_iterate_right h hnone, ?_⟩
  · intro i hi
    exact ⟨getElem?_right h hnone hi, getElem?_left h hlength hnone hi,
      left_right_caret h hlength hnone hi, right_left_caret h hlength hnone hi⟩
  · intro hinside
    rw [(move_right_of_none buffer hnone).1, (move_left_of_none buffer hnone).1]
    exact ⟨(h.stepRight_next hplace).resolve_left fun hend => hinside hend.1,
      (h.stepLeft_next hplace hlength).resolve_left fun hend => hinside hend.1⟩

/-- A letter with an accent, on the first of two lines, and the caret between the two. -/
theorem sideways_steps_walk_inside :
    let segmentation := Grapheme.segmentation
    let buffer := Buffer.load ['e', '\u0301', '\n', 'y']
    let cursor : Cursor := ⟨.ofCaret ⟨0, 1, 1⟩, .new 1⟩
    let stops := buffer.stops segmentation
    buffer.content.length ≤ maxOffset ∧ cursor.selection = none ∧ buffer.HasPlace cursor.caret ∧
    stops = [⟨0, 0, 0⟩, ⟨0, 2, 2⟩, ⟨1, 0, 3⟩, ⟨1, 1, 4⟩] ∧
    IsLeast {stop | stop ∈ stops ∧ cursor.caret < stop}
      (cursor.move segmentation .right false buffer).1.caret := by
  intro segmentation buffer cursor stops
  have hlength : buffer.content.length ≤ maxOffset := by decide
  have hplace : buffer.HasPlace cursor.caret := by
    unfold Buffer.HasPlace
    decide
  have hstops : stops = [⟨0, 0, 0⟩, ⟨0, 2, 2⟩, ⟨1, 0, 3⟩, ⟨1, 1, 4⟩] := by decide +kernel
  have hinside : cursor.caret ∉ stops := by
    rw [hstops]
    decide
  have hwalk := sideways_steps_walk segmentation ['e', '\u0301', '\n', 'y'] [] cursor hlength rfl
    hplace
  exact ⟨hlength, rfl, hplace, hstops, (hwalk.2.2.2 hinside).1⟩

end Cursor

end HeadlessEditor
