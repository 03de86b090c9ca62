import HeadlessEditor.Proofs.ViewRuns

/-!
Where a view may be scrolled to, and how a line is brought into view. Whatever is done to a view, its
offset stays between zero and the largest that the document allows. So the offset that brings a line
into view is never moved by that bound: it shows the whole line, and no other offset that does is nearer.
-/

namespace HeadlessEditor

namespace Viewport

variable {view : Viewport ℚ} {line : Nat} {target : ℚ}

theorem maxScrollTop_exact (view : Viewport ℚ) :
    view.maxScrollTop = max (view.lineCount * view.lineHeight - view.height) 0 :=
  Pixel.larger_exact _ _

theorem maxScrollTop_nonneg (view : Viewport ℚ) : 0 ≤ view.maxScrollTop := by
  rw [maxScrollTop_exact]
  exact le_max_right _ _

theorem le_maxScrollTop (view : Viewport ℚ) :
    view.lineCount * view.lineHeight - view.height ≤ view.maxScrollTop := by
  rw [maxScrollTop_exact]
  exact le_max_left _ _

theorem clampScroll_exact (view : Viewport ℚ) (offset : ℚ) :
    view.clampScroll offset = max 0 (min offset view.maxScrollTop) :=
  Pixel.within_exact view.maxScrollTop_nonneg offset

theorem clampScroll_bounds (view : Viewport ℚ) (offset : ℚ) :
    0 ≤ view.clampScroll offset ∧ view.clampScroll offset ≤ view.maxScrollTop := by
  rw [clampScroll_exact]
  exact ⟨le_max_left _ _, max_le view.maxScrollTop_nonneg (min_le_right _ _)⟩

theorem clampScroll_of_bounds {offset : ℚ} (hlow : 0 ≤ offset) (hhigh : offset ≤ view.maxScrollTop) :
    view.clampScroll offset = offset := by
  rw [clampScroll_exact, min_eq_left hhigh, max_eq_right hlow]

structure InBounds (view : Viewport ℚ) : Prop where
  nonneg : 0 ≤ view.scrollTop
  le_max : view.scrollTop ≤ view.maxScrollTop

theorem reclamp_inBounds (view : Viewport ℚ) : view.reclamp.InBounds := by
  obtain ⟨hlow, hhigh⟩ := view.clampScroll_bounds view.scrollTop
  exact ⟨hlow, hhigh⟩

theorem new_inBounds (height lineHeight : ℚ) (lineCount : Nat) :
    (new height lineHeight lineCount).InBounds :=
  ⟨le_refl 0, maxScrollTop_nonneg _⟩

theorem InBounds.perform (h : view.InBounds) (operation : Operation ℚ) :
    (view.perform operation).1.InBounds := by
  have hclamped := view.clampScroll_bounds
  cases operation with
  | hostScroll actual now => exact ⟨(hclamped actual).1, (hclamped actual).2⟩
  | settle now =>
    simp only [Viewport.perform, settle]
    split
    · exact h
    · split
      · exact h
      · exact ⟨h.nonneg, h.le_max⟩
  | requestScroll target => exact ⟨h.nonneg, h.le_max⟩
  | setScrollTop offset =>
    simp only [Viewport.perform, setScrollTop]
    split
    · exact h
    · exact ⟨(hclamped offset).1, (hclamped offset).2⟩
  | reveal line => exact h
  | resize height => exact reclamp_inBounds _
  | setLineHeight lineHeight => exact reclamp_inBounds _
  | setLineCount lineCount => exact reclamp_inBounds _
  | setOverscan overscan => exact ⟨h.nonneg, h.le_max⟩
  | setSettleWindow settleWindow => exact ⟨h.nonneg, h.le_max⟩

theorem InBounds.performAll (h : view.InBounds) (operations : List (Operation ℚ)) :
    (view.performAll operations).InBounds := by
  induction operations generalizing view with
  | nil => exact h
  | cons operation rest ih => exact ih (h.perform operation)

/-- The upper edge of a line; of the last one for a line past the end. -/
def lineTop (view : Viewport ℚ) (line : Nat) : ℚ :=
  (min line (view.lineCount - 1) : ℕ) * view.lineHeight

theorem reveal?_exact (view : Viewport ℚ) (line : Nat) :
    view.reveal? line =
      if view.lineTop line < view.scrollTop then some (view.clampScroll (view.lineTop line))
      else if view.scrollTop + view.height < view.lineTop line + view.lineHeight then
        some (view.clampScroll (view.lineTop line + view.lineHeight - view.height))
      else none := by
  simp only [← Pixel.less_exact]
  rfl

theorem reveal?_eq_none_iff :
    view.reveal? line = none ↔
      view.scrollTop ≤ view.lineTop line ∧
        view.lineTop line + view.lineHeight ≤ view.scrollTop + view.height := by
  rw [reveal?_exact]
  split
  · rename_i h
    simp [h]
  · rename_i h
    split
    · rename_i hbelow
      simp [hbelow]
    · rename_i hbelow
      simp [not_lt.1 h, not_lt.1 hbelow]

/-- What is asked for to bring a line into view: its upper edge at the top, or its lower edge at the
bottom. -/
theorem reveal?_eq_some (h : view.reveal? line = some target) :
    target = view.clampScroll (view.lineTop line) ∨
      target = view.clampScroll (view.lineTop line + view.lineHeight - view.height) := by
  rw [reveal?_exact] at h
  split at h
  · exact Or.inl (Option.some.inj h).symm
  · split at h
    · exact Or.inr (Option.some.inj h).symm
    · cases h

/-- The lines fill the document. -/
theorem lineTop_bounds (hpositive : 0 < view.lineHeight) (hlines : 0 < view.lineCount) (line : Nat) :
    0 ≤ view.lineTop line ∧
      view.lineTop line + view.lineHeight ≤ view.lineCount * view.lineHeight := by
  constructor
  · exact mul_nonneg (Nat.cast_nonneg _) hpositive.le
  · have hlast : min line (view.lineCount - 1) + 1 ≤ view.lineCount := by omega
    have hcast : ((min line (view.lineCount - 1) : ℕ) : ℚ) + 1 ≤ view.lineCount := by
      exact_mod_cast hlast
    calc view.lineTop line + view.lineHeight
        = ((min line (view.lineCount - 1) : ℕ) + 1) * view.lineHeight := by
          rw [lineTop, add_mul, one_mul]
      _ ≤ view.lineCount * view.lineHeight := mul_le_mul_of_nonneg_right hcast hpositive.le

def scrolledTo (view : Viewport ℚ) (offset : ℚ) : Viewport ℚ :=
  { view with scrollTop := view.clampScroll offset, request := none }

/-- A line is in view where its upper edge is at the top or its lower edge at the bottom, or as near to
that as the view allows. -/
theorem reveal?_scrolledTo (hpositive : 0 < view.lineHeight) (hfits : view.lineHeight ≤ view.height)
    (hlines : 0 < view.lineCount) {offset : ℚ}
    (hoffset : offset = view.lineTop line ∨
      offset = view.lineTop line + view.lineHeight - view.height) :
    (view.scrolledTo (view.clampScroll offset)).reveal? line = none := by
  obtain ⟨htop, hbottom⟩ := view.lineTop_bounds hpositive hlines line
  have htotal := view.le_maxScrollTop
  have hagain : view.clampScroll (view.clampScroll offset) = view.clampScroll offset :=
    clampScroll_of_bounds (view.clampScroll_bounds offset).1 (view.clampScroll_bounds offset).2
  have hoffset : offset ≤ view.lineTop line ∧
      view.lineTop line + view.lineHeight ≤ offset + view.height := by
    rcases hoffset with rfl | rfl
    · constructor <;> linarith
    · constructor <;> linarith
  rw [reveal?_eq_none_iff]
  show view.clampScroll (view.clampScroll offset) ≤ view.lineTop line ∧
    view.lineTop line + view.lineHeight ≤ view.clampScroll (view.clampScroll offset) + view.height
  rw [hagain, clampScroll_exact]
  constructor
  · exact max_le htop ((min_le_left _ _).trans hoffset.1)
  · rcases le_total offset view.maxScrollTop with hle | hle
    · rw [min_eq_left hle]
      linarith [le_max_right 0 offset]
    · rw [min_eq_right hle, max_eq_right view.maxScrollTop_nonneg]
      linarith

/-- At this offset the whole of the line is in view. -/
def ShowsAt (view : Viewport ℚ) (line : Nat) (offset : ℚ) : Prop :=
  offset ≤ line * view.lineHeight ∧ (line + 1) * view.lineHeight ≤ offset + view.height

def Shows (view : Viewport ℚ) (line : Nat) : Prop := view.ShowsAt line view.scrollTop

theorem lineTop_of_lt (hline : line < view.lineCount) :
    view.lineTop line = line * view.lineHeight := by
  have hmin : min line (view.lineCount - 1) = line := by omega
  rw [lineTop, hmin]

theorem showsAt_iff (hline : line < view.lineCount) (offset : ℚ) :
    view.ShowsAt line offset ↔
      offset ≤ view.lineTop line ∧ view.lineTop line + view.lineHeight ≤ offset + view.height := by
  rw [ShowsAt, lineTop_of_lt hline, add_mul, one_mul]

theorem reveal?_eq_none_iff_shows (hline : line < view.lineCount) :
    view.reveal? line = none ↔ view.Shows line := by
  rw [reveal?_eq_none_iff, Shows, showsAt_iff hline]

inductive Brings (view : Viewport ℚ) (line : Nat) (target : ℚ) : Prop where
  | up (target_eq : target = view.lineTop line) (lt : target < view.scrollTop)
  | down (target_eq : target = view.lineTop line + view.lineHeight - view.height)
      (lt : view.scrollTop < target)

/-- From an offset that the view allows a line is brought in by one that it allows too. -/
theorem Brings.clampScroll (hbrings : view.Brings line target) (h : view.InBounds)
    (hpositive : 0 < view.lineHeight) (hline : line < view.lineCount) :
    view.clampScroll target = target := by
  obtain ⟨htop, hbottom⟩ := view.lineTop_bounds hpositive (Nat.zero_lt_of_lt hline) line
  have htotal := view.le_maxScrollTop
  cases hbrings with
  | up target_eq lt => exact clampScroll_of_bounds (target_eq ▸ htop) (lt.le.trans h.le_max)
  | down target_eq lt =>
    -- The line ends no later than the document, whose end is at the bottom for the largest offset.
    exact clampScroll_of_bounds (h.nonneg.trans lt.le) (by linarith)

/-- So nothing is taken off the offset that is asked for to bring a line into view. -/
theorem InBounds.brings (h : view.InBounds) (hpositive : 0 < view.lineHeight)
    (hline : line < view.lineCount) (htarget : view.reveal? line = some target) :
    view.Brings line target := by
  rw [reveal?_exact] at htarget
  split at htarget
  · rename_i habove
    have hedge : view.Brings line (view.lineTop line) := .up rfl habove
    have hsame := hedge.clampScroll h hpositive hline
    obtain rfl := hsame.symm.trans (Option.some.inj htarget)
    exact hedge
  · split at htarget
    · rename_i hbelow
      have hedge : view.Brings line (view.lineTop line + view.lineHeight - view.height) :=
        .down rfl (by linarith)
      have hsame := hedge.clampScroll h hpositive hline
      obtain rfl := hsame.symm.trans (Option.some.inj htarget)
      exact hedge
    · cases htarget

/-- At the offset that brings it into view the line is in view, if the view is high enough. -/
theorem Brings.showsAt (hbrings : view.Brings line target) (hline : line < view.lineCount)
    (hfits : view.lineHeight ≤ view.height) : view.ShowsAt line target := by
  rw [showsAt_iff hline]
  cases hbrings with
  | up target_eq _ => constructor <;> linarith
  | down target_eq _ => constructor <;> linarith

/-- No offset at which the line is in view is nearer. -/
theorem Brings.nearest (hbrings : view.Brings line target) (hline : line < view.lineCount) {offset : ℚ}
    (hshows : view.ShowsAt line offset) :
    |target - view.scrollTop| ≤ |offset - view.scrollTop| := by
  obtain ⟨habove, hbelow⟩ := (showsAt_iff hline offset).1 hshows
  cases hbrings with
  | up target_eq lt =>
    rw [abs_of_neg (by linarith), abs_of_neg (by linarith)]
    linarith
  | down target_eq lt =>
    rw [abs_of_pos (by linarith), abs_of_pos (by linarith)]
    linarith

/-- Whatever was done to a view, its offset is between zero and the largest. If nobody is scrolling and the
view is high enough for a line, there is nothing to do for a line that is wholly in view, and for any
other one there is an offset that, once set, shows all of it and leaves nothing more to do; nothing
else that can be set shows all of it with a shorter move. -/
theorem reveals_by_shortest_move (height lineHeight : ℚ) (lineCount : Nat)
    (operations : List (Operation ℚ)) (line : Nat) :
    let view := (new height lineHeight lineCount).performAll operations
    (0 ≤ view.scrollTop ∧ view.scrollTop ≤ view.maxScrollTop) ∧
    (view.isScrolling = false → line < view.lineCount → 0 < view.lineHeight →
      view.lineHeight ≤ view.height →
      (view.reveal? line = none ↔ view.Shows line) ∧
      ∀ target, view.reveal? line = some target →
        ∃ after, view.setScrollTop target = (after, true) ∧ after.scrollTop = target ∧
          after.Shows line ∧ after.reveal? line = none ∧
          ∀ offset, (view.setScrollTop offset).1.Shows line →
            |after.scrollTop - view.scrollTop|
              ≤ |(view.setScrollTop offset).1.scrollTop - view.scrollTop|) := by
  intro view
  have hbounds : view.InBounds := (new_inBounds height lineHeight lineCount).performAll operations
  refine ⟨⟨hbounds.nonneg, hbounds.le_max⟩, ?_⟩
  intro hstill hline hpositive hfits
  refine ⟨reveal?_eq_none_iff_shows hline, ?_⟩
  intro target htarget
  have hset : ∀ offset, view.setScrollTop offset = (view.scrolledTo offset, true) := by
    intro offset
    simp [setScrollTop, hstill, scrolledTo]
  have hbrings := hbounds.brings hpositive hline htarget
  have hsame := hbrings.clampScroll hbounds hpositive hline
  have hscrolled : ∀ offset, (view.scrolledTo offset).Shows line ↔
      view.ShowsAt line (view.clampScroll offset) := fun _ => Iff.rfl
  have hshows : (view.scrolledTo target).Shows line := by
    rw [hscrolled, hsame]
    exact hbrings.showsAt hline hfits
  have hline' : line < (view.scrolledTo target).lineCount := hline
  refine ⟨_, hset target, hsame, hshows, (reveal?_eq_none_iff_shows hline').2 hshows, ?_⟩
  intro offset hother
  rw [hset offset] at hother ⊢
  have hnearest := hbrings.nearest hline ((hscrolled offset).1 hother)
  rw [← hsame] at hnearest
  exact hnearest

/-- The document shrinks under a view that was at its end, and then a line above the view is brought in. -/
theorem reveals_by_shortest_move_shrunk :
    let view := (new 100 20 10 : Viewport ℚ).performAll
      [.hostScroll 400 0, .settle 150, .setLineCount 8]
    (view.isScrolling = false ∧ 1 < view.lineCount ∧ 0 < view.lineHeight ∧
      view.lineHeight ≤ view.height) ∧
    view.scrollTop = 60 ∧ view.reveal? 1 = some 20 ∧
    ∃ after, view.setScrollTop 20 = (after, true) ∧ after.Shows 1 ∧ after.reveal? 1 = none := by
  intro view
  have hview : (view.isScrolling = false ∧ 1 < view.lineCount ∧ 0 < view.lineHeight ∧
      view.lineHeight ≤ view.height) ∧ view.scrollTop = 60 ∧ view.reveal? 1 = some 20 := by
    decide +kernel
  obtain ⟨⟨hstill, hline, hpositive, hfits⟩, htop, htarget⟩ := hview
  obtain ⟨-, hreveals⟩ := reveals_by_shortest_move 100 20 10
    [.hostScroll 400 0, .settle 150, .setLineCount 8] 1
  obtain ⟨after, hset, -, hshows, hnone, -⟩ :=
    (hreveals hstill hline hpositive hfits).2 20 htarget
  exact ⟨⟨hstill, hline, hpositive, hfits⟩, htop, htarget, after, hset, hshows, hnone⟩

end Viewport

end HeadlessEditor
