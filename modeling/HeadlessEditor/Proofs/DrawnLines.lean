import HeadlessEditor.Layout.ExactPixel
import HeadlessEditor.Layout.Viewport

/-!
Which lines are drawn for a scroll offset. A line is seen if the stretch of pixels that it takes up
meets the stretch that is in view, be it by a fraction of a pixel. The window has the lines seen and the
margin around them, as far as the document goes, and no others.
-/

namespace HeadlessEditor

namespace Pixel

theorem floorNat_le_iff {a : ℚ} {line : Nat} (hline : line < maxOffset) :
    floorNat a ≤ line ↔ a < line + 1 := by
  have hcut : floorNat a ≤ line ↔ ⌊a⌋ ≤ (line : Int) := by
    show min ⌊a⌋.toNat maxOffset ≤ line ↔ _
    omega
  have hnext : a < line + 1 ↔ ⌊a⌋ < (line : Int) + 1 := by
    rw [Int.floor_lt]
    push_cast
    rfl
  rw [hcut, hnext]
  omega

theorem lt_ceilNat_iff {a : ℚ} {line : Nat} (hline : line < maxOffset) :
    line < ceilNat a ↔ (line : ℚ) < a := by
  have hcut : line < ceilNat a ↔ (line : Int) < ⌈a⌉ := by
    show line < min ⌈a⌉.toNat maxOffset ↔ _
    omega
  rw [hcut, Int.lt_ceil]
  rfl

theorem floorNat_le_ceilNat {a b : ℚ} (h : a ≤ b) : floorNat a ≤ ceilNat b := by
  have hle : ⌊a⌋ ≤ ⌈b⌉ := (Int.floor_le_ceil a).trans (Int.ceil_mono h)
  exact min_le_min_right maxOffset (Int.toNat_le_toNat hle)

theorem le_ceilNat (a : ℚ) : min a maxOffset ≤ (ceilNat a : ℚ) := by
  have hceil : a ≤ (⌈a⌉.toNat : ℚ) :=
    (Int.le_ceil a).trans (by exact_mod_cast Int.self_le_toNat ⌈a⌉)
  show min a maxOffset ≤ ((min ⌈a⌉.toNat maxOffset : ℕ) : ℚ)
  rw [Nat.cast_min]
  exact min_le_min_right _ hceil

end Pixel

namespace ScrollMetrics

variable {metrics : ScrollMetrics ℚ}

def lineSpan (metrics : ScrollMetrics ℚ) (line : Nat) : Set ℚ :=
  Set.Ico (line * metrics.lineHeight) ((line + 1) * metrics.lineHeight)

def viewSpan (metrics : ScrollMetrics ℚ) : Set ℚ :=
  Set.Ico metrics.scrollTop (metrics.scrollTop + metrics.height)

/-- Some of the line is in view. -/
def Sees (metrics : ScrollMetrics ℚ) (line : Nat) : Prop :=
  (metrics.lineSpan line ∩ metrics.viewSpan).Nonempty

/-- The line that the upper edge of the view is in. -/
def firstSeen (metrics : ScrollMetrics ℚ) : Nat :=
  Pixel.floorNat (metrics.scrollTop / metrics.lineHeight)

/-- The first line that begins at the lower edge of the view or below it. -/
def firstBelow (metrics : ScrollMetrics ℚ) : Nat :=
  Pixel.ceilNat ((metrics.scrollTop + metrics.height) / metrics.lineHeight)

theorem firstSeen_le_firstBelow (hheight : 0 < metrics.height) (hline : 0 < metrics.lineHeight) :
    metrics.firstSeen ≤ metrics.firstBelow := by
  apply Pixel.floorNat_le_ceilNat
  exact div_le_div_of_nonneg_right (by linarith) hline.le

/-- A line is seen if it ends below the upper edge of the view and begins above the lower one. -/
theorem sees_iff (hheight : 0 < metrics.height) (hline : 0 < metrics.lineHeight) (line : Nat) :
    metrics.Sees line ↔ metrics.scrollTop < (line + 1) * metrics.lineHeight ∧
      line * metrics.lineHeight < metrics.scrollTop + metrics.height := by
  have hthick : (line : ℚ) * metrics.lineHeight < (line + 1) * metrics.lineHeight := by
    linarith
  rw [Sees, lineSpan, viewSpan, Set.Ico_inter_Ico, Set.nonempty_Ico, sup_lt_iff, lt_inf_iff, lt_inf_iff]
  constructor
  · rintro ⟨⟨-, habove⟩, hbelow, -⟩
    exact ⟨hbelow, habove⟩
  · rintro ⟨hbelow, habove⟩
    exact ⟨⟨hthick, habove⟩, hbelow, by linarith⟩

/-- The lines seen are consecutive. -/
theorem sees_iff_between (hheight : 0 < metrics.height) (hline : 0 < metrics.lineHeight) {line : Nat}
    (hoffset : line < maxOffset) :
    metrics.Sees line ↔ metrics.firstSeen ≤ line ∧ line < metrics.firstBelow := by
  rw [sees_iff hheight hline, firstSeen, firstBelow, Pixel.floorNat_le_iff hoffset,
    Pixel.lt_ceilNat_iff hoffset, div_lt_iff₀ hline, lt_div_iff₀ hline]

/-- The window of a document with lines. -/
theorem window_of_pos (overscan : Overscan ℚ) (htop : 0 ≤ metrics.scrollTop)
    (hheight : 0 < metrics.height) (hline : 0 < metrics.lineHeight) (hcount : 0 < metrics.lineCount) :
    metrics.window overscan =
      let margin := overscan.margin (metrics.firstBelow - metrics.firstSeen)
      { start := min (metrics.firstSeen - margin) metrics.lineCount
        stop := min (metrics.firstBelow + margin) metrics.lineCount
        firstVisible := min metrics.firstSeen metrics.lineCount
        lastVisible := max (min metrics.firstBelow metrics.lineCount)
          (min metrics.firstSeen metrics.lineCount)
        overscan := margin } := by
  have hdrawn : ¬ ((!Pixel.less Pixel.zero metrics.lineHeight && !Pixel.isNaN metrics.lineHeight)
      || metrics.lineCount = 0) := by
    simp [hline, hcount.ne']
  have htop' : Pixel.larger metrics.scrollTop Pixel.zero = metrics.scrollTop := by
    rw [Pixel.larger_exact, Pixel.zero_exact, max_eq_left htop]
  have hheight' : Pixel.larger metrics.height Pixel.zero = metrics.height := by
    rw [Pixel.larger_exact, Pixel.zero_exact, max_eq_left hheight.le]
  unfold window
  rw [if_neg hdrawn, htop', hheight']
  rfl

theorem window_of_no_lines (overscan : Overscan ℚ) (hcount : metrics.lineCount = 0) :
    metrics.window overscan = .empty := by
  simp [window, hcount]

/-- The margin is what is asked for: so many lines at least, and a share of those in view. -/
theorem le_margin (overscan : Overscan ℚ) (count : Nat) :
    overscan.minimum ≤ overscan.margin count ∧
      min (count * overscan.ratio) maxOffset ≤ (overscan.margin count : ℚ) := by
  refine ⟨Nat.le_max_left _ _, ?_⟩
  have hshare : (count : ℚ) * overscan.ratio ≤ count * max overscan.ratio 0 :=
    mul_le_mul_of_nonneg_left (le_max_left _ _) (Nat.cast_nonneg _)
  calc min ((count : ℚ) * overscan.ratio) maxOffset
      ≤ min ((count : ℚ) * max overscan.ratio 0) maxOffset := min_le_min_right _ hshare
    _ ≤ (Pixel.ceilNat ((count : ℚ) * max overscan.ratio 0) : ℚ) := Pixel.le_ceilNat _
    _ ≤ (overscan.margin count : ℚ) := by
      rw [Overscan.margin, Pixel.larger_exact, Pixel.ofNat_exact, Pixel.zero_exact]
      exact_mod_cast Nat.le_max_right _ _

/-- The line is within a margin of a line of the document that is seen. -/
def Near (metrics : ScrollMetrics ℚ) (margin line : Nat) : Prop :=
  ∃ seen < metrics.lineCount, metrics.Sees seen ∧ seen ≤ line + margin ∧ line ≤ seen + margin

/-- Around lines that are seen a window has those that are within the margin of one of them. -/
theorem drawn_iff {first below margin count line : Nat} (hsome : first < min below count)
    (hline : line < count) :
    min (first - margin) count ≤ line ∧ line < min (below + margin) count ↔
      ∃ seen < count, (first ≤ seen ∧ seen < below) ∧ seen ≤ line + margin ∧ line ≤ seen + margin := by
  constructor
  · rintro ⟨hstart, hstop⟩
    -- The line itself, or the line seen next to it.
    refine ⟨max first (min line (min below count - 1)), ?_⟩
    omega
  · rintro ⟨seen, -, hseen, hnear⟩
    omega

/-- For every offset in the document or past it, every height of the view and of a line, and every policy:
the window is in order and does not go past the last line; the visible lines are those of which some is
in view; all lines of the document within the margin of one of them are drawn and, if any is in view, no
others; and the margin is not less than what the policy says. -/
theorem window_covers_view (metrics : ScrollMetrics ℚ) (overscan : Overscan ℚ)
    (htop : 0 ≤ metrics.scrollTop) (hheight : 0 < metrics.height) (hline : 0 < metrics.lineHeight)
    (hratio : 0 ≤ overscan.ratio) (hcount : metrics.lineCount ≤ maxOffset) :
    let window := metrics.window overscan
    (window.start ≤ window.firstVisible ∧ window.firstVisible ≤ window.lastVisible ∧
      window.lastVisible ≤ window.stop ∧ window.stop ≤ metrics.lineCount) ∧
    (∀ line < metrics.lineCount,
      window.firstVisible ≤ line ∧ line < window.lastVisible ↔ metrics.Sees line) ∧
    (∀ line < metrics.lineCount, metrics.Near window.overscan line → window.contains line) ∧
    ((∃ seen < metrics.lineCount, metrics.Sees seen) →
      ∀ line, window.contains line → metrics.Near window.overscan line) ∧
    (0 < metrics.lineCount → overscan.minimum ≤ window.overscan ∧
      min ((window.lastVisible - window.firstVisible : ℕ) * overscan.ratio) maxOffset
        ≤ (window.overscan : ℚ)) := by
  intro window
  rcases Nat.eq_zero_or_pos metrics.lineCount with hnone | hlines
  · have hwindow : window = .empty := window_of_no_lines overscan hnone
    simp [hwindow, hnone, LineWindow.empty, LineWindow.contains]
  · have hwindow : window = _ := window_of_pos overscan htop hheight hline hlines
    have hsees : ∀ line < metrics.lineCount,
        metrics.Sees line ↔ metrics.firstSeen ≤ line ∧ line < metrics.firstBelow := fun line hin =>
      sees_iff_between hheight hline (Nat.lt_of_lt_of_le hin hcount)
    have hle : metrics.firstSeen ≤ metrics.firstBelow := firstSeen_le_firstBelow hheight hline
    have hnear : ∀ margin line, metrics.Near margin line ↔ ∃ seen < metrics.lineCount,
        (metrics.firstSeen ≤ seen ∧ seen < metrics.firstBelow) ∧
          seen ≤ line + margin ∧ line ≤ seen + margin := fun margin line =>
      exists_congr fun seen => and_congr_right fun hin => and_congr_left fun _ => hsees seen hin
    rw [hwindow]
    simp only [LineWindow.contains, Bool.and_eq_true, decide_eq_true_eq, hnear]
    refine ⟨by omega, ?_, ?_, ?_, ?_⟩
    · intro line hin
      rw [hsees line hin]
      omega
    · rintro line hin ⟨seen, hseen, hbetween, hmargin⟩
      omega
    · rintro ⟨seen, hseen, hin⟩ line ⟨hstart, hstop⟩
      have hbetween := (hsees seen hseen).1 hin
      have hline : line < metrics.lineCount := by omega
      exact (drawn_iff (by omega) hline).1 ⟨hstart, hstop⟩
    · intro _
      obtain ⟨hminimum, hshare⟩ := le_margin overscan (metrics.firstBelow - metrics.firstSeen)
      have hfewer : max (min metrics.firstBelow metrics.lineCount)
            (min metrics.firstSeen metrics.lineCount) - min metrics.firstSeen metrics.lineCount
          ≤ metrics.firstBelow - metrics.firstSeen := by omega
      refine ⟨hminimum, le_trans (min_le_min_right _ ?_) hshare⟩
      exact mul_le_mul_of_nonneg_right (by exact_mod_cast hfewer) hratio

/-- Three lines and two halves are in view, and two lines on either side are drawn with them. -/
theorem window_covers_view_halves :
    let metrics : ScrollMetrics ℚ := ⟨50, 80, 20, 12⟩
    let overscan : Overscan ℚ := ⟨1, 1 / 3⟩
    (0 ≤ metrics.scrollTop ∧ 0 < metrics.height ∧ 0 < metrics.lineHeight ∧ 0 ≤ overscan.ratio ∧
      metrics.lineCount ≤ maxOffset) ∧
    metrics.window overscan = ⟨0, 9, 2, 7, 2⟩ ∧
    (∀ line < 12, 2 ≤ line ∧ line < 7 ↔ metrics.Sees line) ∧ metrics.Near 2 8 := by
  intro metrics overscan
  have hmetrics : 0 ≤ metrics.scrollTop ∧ 0 < metrics.height ∧ 0 < metrics.lineHeight ∧
      0 ≤ overscan.ratio ∧ metrics.lineCount ≤ maxOffset := by decide +kernel
  have hwindow : metrics.window overscan = ⟨0, 9, 2, 7, 2⟩ := by decide +kernel
  obtain ⟨htop, hheight, hline, hratio, hcount⟩ := hmetrics
  obtain ⟨-, hsees, -, hdrawn, -⟩ :=
    window_covers_view metrics overscan htop hheight hline hratio hcount
  rw [hwindow] at hsees hdrawn
  have hsome : metrics.Sees 2 := (hsees 2 (by decide)).1 (by decide)
  exact ⟨⟨htop, hheight, hline, hratio, hcount⟩, hwindow, hsees,
    hdrawn ⟨2, by decide, hsome⟩ 8 (by decide)⟩

end ScrollMetrics

end HeadlessEditor
