import HeadlessEditor.Layout.Cells
import Mathlib.Order.Bounds.Basic

/-!
Where the columns of a line start, in cells. Columns never go back, and a tab goes on to the next tab stop:
the first multiple of the tab size to the right of it. Cells are counted up to the largest offset, which
shows only where the exact count goes past it.
-/

namespace HeadlessEditor

namespace Cells

variable {width : Char → Nat} {tabSize cell column : Nat} {text : Text} {c : Char}

variable (width tabSize) in
/-- The cell after a text that starts at cell `cell`, however far to the right it is. -/
def advanceExact (cell : Nat) (text : Text) : Nat :=
  text.foldl (fun x c => x + widthAt width tabSize c x) cell

theorem le_advanceExact (text : Text) : cell ≤ advanceExact width tabSize cell text := by
  induction text generalizing cell with
  | nil => exact Nat.le_refl cell
  | cons c rest ih => exact Nat.le_trans (Nat.le_add_right _ _) ih

theorem advanceExact_le_of_prefix {text longer : Text} (h : text <+: longer) :
    advanceExact width tabSize cell text ≤ advanceExact width tabSize cell longer := by
  obtain ⟨rest, rfl⟩ := h
  rw [advanceExact, advanceExact, List.foldl_append]
  exact le_advanceExact rest

theorem advanceExact_take_succ (h : text[column]? = some c) :
    advanceExact width tabSize cell (text.take (column + 1)) =
      advanceExact width tabSize cell (text.take column) +
        widthAt width tabSize c (advanceExact width tabSize cell (text.take column)) := by
  rw [List.take_add_one, h, advanceExact, List.foldl_append]
  rfl

/-- Counting up to the largest offset comes to the exact count, cut off there: a count that has been cut
off stays cut off, whatever a tab then takes. -/
theorem advance_eq_min (text : Text) :
    advance width tabSize (min cell maxOffset) text =
      min (advanceExact width tabSize cell text) maxOffset := by
  induction text generalizing cell with
  | nil => rfl
  | cons c rest ih =>
    have hstep : min (min cell maxOffset + widthAt width tabSize c (min cell maxOffset)) maxOffset =
        min (cell + widthAt width tabSize c cell) maxOffset := by
      rcases Nat.le_total cell maxOffset with hsmall | hlarge
      · rw [Nat.min_eq_left hsmall]
      · rw [Nat.min_eq_right hlarge, Nat.min_eq_right (Nat.le_add_right _ _),
          Nat.min_eq_right (Nat.le_trans hlarge (Nat.le_add_right _ _))]
    calc advance width tabSize (min cell maxOffset) (c :: rest)
        = advance width tabSize (min (cell + widthAt width tabSize c cell) maxOffset) rest :=
          congrArg (advance width tabSize · rest) hstep
      _ = min (advanceExact width tabSize (cell + widthAt width tabSize c cell) rest) maxOffset := ih

theorem ofColumn_eq_min (text : Text) (column : Nat) :
    ofColumn width tabSize text column =
      min (advanceExact width tabSize 0 (text.take column)) maxOffset := by
  rw [← advance_eq_min, Nat.zero_min, ofColumn]

theorem monotone_ofColumn (text : Text) : Monotone (ofColumn width tabSize text) := by
  intro column later hle
  rw [ofColumn_eq_min, ofColumn_eq_min]
  have hexact : advanceExact width tabSize 0 (text.take column) ≤
      advanceExact width tabSize 0 (text.take later) :=
    advanceExact_le_of_prefix (List.take_prefix_take_left hle)
  omega

/-- Nothing is cut off on a line whose cells can be counted. -/
theorem ofColumn_eq_exact (hsum : advanceExact width tabSize 0 text ≤ maxOffset) (column : Nat) :
    ofColumn width tabSize text column = advanceExact width tabSize 0 (text.take column) := by
  have hle : advanceExact width tabSize 0 (text.take column) ≤ advanceExact width tabSize 0 text :=
    advanceExact_le_of_prefix (List.take_prefix column text)
  rw [ofColumn_eq_min, Nat.min_eq_left (Nat.le_trans hle hsum)]

theorem ofColumn_succ (hsum : advanceExact width tabSize 0 text ≤ maxOffset)
    (h : text[column]? = some c) :
    ofColumn width tabSize text (column + 1) =
      ofColumn width tabSize text column +
        widthAt width tabSize c (ofColumn width tabSize text column) := by
  rw [ofColumn_eq_exact hsum, ofColumn_eq_exact hsum, advanceExact_take_succ h]

/-- What a number of cells lacks to the next tab stop leads to the first stop to the right of it. -/
theorem isLeast_next_multiple {size : Nat} (hsize : 0 < size) (cell : Nat) :
    IsLeast {stop | size ∣ stop ∧ cell < stop} (cell + (size - cell % size)) := by
  have hrest := Nat.mod_lt cell hsize
  have hcell := Nat.div_add_mod cell size
  have hnext : cell + (size - cell % size) = size * (cell / size + 1) := by
    rw [Nat.mul_add, Nat.mul_one]
    omega
  constructor
  · refine ⟨⟨cell / size + 1, hnext⟩, ?_⟩
    omega
  · rintro stop ⟨⟨count, rfl⟩, hlater⟩
    rw [hnext]
    apply Nat.mul_le_mul_left
    rw [Nat.mul_comm] at hlater
    exact (Nat.div_lt_iff_lt_mul hsize).2 hlater

/-- Columns never go back, and those past the end of a line are where it ends. Where the exact count of the
line's cells is an offset, a tab leads to the first tab stop to the right of it, and any other character
takes its own width. Where a column starts is told by the characters before it. -/
theorem columns_at_tab_stops (width : Char → Nat) (tabSize : Nat) (text : Text) :
    Monotone (ofColumn width tabSize text) ∧
    (∀ column, text.length ≤ column →
      ofColumn width tabSize text column = lineWidth width tabSize text) ∧
    (1 ≤ tabSize → advanceExact width tabSize 0 text ≤ maxOffset → ∀ column,
      (text[column]? = some '\t' →
        IsLeast {stop | tabSize ∣ stop ∧ ofColumn width tabSize text column < stop}
          (ofColumn width tabSize text (column + 1))) ∧
      ∀ c, text[column]? = some c → c ≠ '\t' →
        ofColumn width tabSize text (column + 1) = ofColumn width tabSize text column + width c) ∧
    (∀ other column, other.take column = text.take column →
      ofColumn width tabSize other column = ofColumn width tabSize text column) := by
  refine ⟨monotone_ofColumn text, fun column hend => ?_, fun htab hsum column => ⟨?_, ?_⟩,
    fun other column hbefore => ?_⟩
  · rw [ofColumn, lineWidth, List.take_of_length_le hend]
  · intro h
    rw [ofColumn_succ hsum h, widthAt, if_pos rfl, Nat.max_eq_left htab]
    exact isLeast_next_multiple htab _
  · intro c h hplain
    rw [ofColumn_succ hsum h, widthAt, if_neg hplain]
  · rw [ofColumn, ofColumn, hbefore]

/-- Three cells to the right, behind a wide character and another one, a tab takes the last cell before the
tab stop; the tab that starts there takes all four to the next. -/
theorem columns_at_tab_stops_wide :
    let text : Text := ['\u4f60', 'a', '\t', '\t', 'b']
    1 ≤ 4 ∧ advanceExact Unicode.cellWidth 4 0 text ≤ maxOffset ∧
    text[2]? = some '\t' ∧ ofColumn Unicode.cellWidth 4 text 2 = 3 ∧
    IsLeast {stop | 4 ∣ stop ∧ ofColumn Unicode.cellWidth 4 text 2 < stop}
      (ofColumn Unicode.cellWidth 4 text 3) ∧
    text[3]? = some '\t' ∧
    IsLeast {stop | 4 ∣ stop ∧ ofColumn Unicode.cellWidth 4 text 3 < stop}
      (ofColumn Unicode.cellWidth 4 text 4) ∧
    ofColumn Unicode.cellWidth 4 text 5 = 9 := by
  have hsum : advanceExact Unicode.cellWidth 4 0 ['\u4f60', 'a', '\t', '\t', 'b'] ≤ maxOffset := by
    decide +kernel
  have hcolumns := (columns_at_tab_stops Unicode.cellWidth 4 ['\u4f60', 'a', '\t', '\t', 'b']).2.2.1
    (by decide) hsum
  exact ⟨by decide, hsum, rfl, by decide +kernel, (hcolumns 2).1 rfl, rfl, (hcolumns 3).1 rfl,
    by decide +kernel⟩

end Cells

end HeadlessEditor
