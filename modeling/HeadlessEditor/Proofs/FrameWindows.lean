import HeadlessEditor.Layout.Frame
import Mathlib.Data.List.Basic

/-!
Frames of windows. A decoration stands on lines of the document, whatever the window, and what it puts
on one of them depends on the decoration and the line only. So a window shows of the frame of the whole
document what is on its lines; which piece of a stretch a line gets is not decided by where the window
cuts.
-/

namespace HeadlessEditor

def inWindow (window : Nat × Nat) (line : Nat) : Bool := window.1 ≤ line ∧ line < window.2

theorem inWindow_iff (window : Nat × Nat) (line : Nat) :
    inWindow window line ↔ window.1 ≤ line ∧ line < window.2 :=
  decide_eq_true_iff

/-- The lines of a window of a document are consecutive. -/
theorem filter_inWindow_range (window : Nat × Nat) (count : Nat) :
    (List.range count).filter (inWindow window)
      = List.range' window.1 (min window.2 count - window.1) := by
  induction count with
  | zero => simp
  | succ count ih =>
    rw [List.range_succ, List.filter_append, ih, List.filter_singleton]
    by_cases hin : inWindow window count
    · obtain ⟨hlow, hhigh⟩ := (inWindow_iff window count).1 hin
      have hmore : min window.2 (count + 1) - window.1 = min window.2 count - window.1 + 1 := by
        omega
      have hlast : window.1 + 1 * (min window.2 count - window.1) = count := by omega
      rw [hin, cond_true, hmore, List.range'_concat, hlast]
    · have hout := mt (inWindow_iff window count).2 hin
      have hsame : min window.2 (count + 1) - window.1 = min window.2 count - window.1 := by
        omega
      rw [Bool.eq_false_iff.2 hin, cond_false, hsame, List.append_nil]

namespace Decoration

/-- Whether a decoration is on a line of a document of so many lines; what is past the last line counts
as on it. -/
def isOn (decoration : Decoration) (count line : Nat) : Bool :=
  let range := decoration.range.normalized
  min range.start.line (count - 1) ≤ line ∧ line ≤ min range.stop.line (count - 1)

theorem isOn_iff (decoration : Decoration) (count line : Nat) :
    decoration.isOn count line ↔
      min decoration.range.normalized.start.line (count - 1) ≤ line ∧
      line ≤ min decoration.range.normalized.stop.line (count - 1) :=
  decide_eq_true_iff

/-- The lines that a decoration is on and a window shows. -/
def linesIn (decoration : Decoration) (count : Nat) (window : Nat × Nat) : List Nat :=
  (List.range count).filter fun line => decoration.isOn count line && inWindow window line

def Meets (decoration : Decoration) (count : Nat) (window : Nat × Nat) : Prop :=
  ∃ line < count, decoration.isOn count line ∧ inWindow window line

instance (decoration : Decoration) (count : Nat) (window : Nat × Nat) :
    Decidable (decoration.Meets count window) :=
  inferInstanceAs (Decidable (∃ line < count, _))

theorem linesIn_ne_nil_iff (decoration : Decoration) (count : Nat) (window : Nat × Nat) :
    decoration.linesIn count window ≠ [] ↔ decoration.Meets count window := by
  simp [linesIn, Meets, List.filter_eq_nil_iff]

/-- A window takes its lines out of those of the whole document. -/
theorem linesIn_window (decoration : Decoration) (count : Nat) (window : Nat × Nat) :
    decoration.linesIn count window
      = (decoration.linesIn count (0, count)).filter (inWindow window) := by
  rw [linesIn, linesIn, List.filter_filter]
  refine List.filter_congr fun line hline => ?_
  have hwhole : inWindow (0, count) line = true :=
    (inWindow_iff _ _).2 ⟨Nat.zero_le line, List.mem_range.1 hline⟩
  rw [hwhole, Bool.and_true, Bool.and_comm]

/-- The same lines as they are counted off when a frame is built. -/
theorem linesIn_eq_range' (decoration : Decoration) (count : Nat) (window : Nat × Nat) :
    let range := decoration.range.normalized
    let low := max (min range.start.line (count - 1)) window.1
    let high := min (min range.stop.line (count - 1) + 1) (min window.2 count)
    decoration.linesIn count window = List.range' low (high - low) := by
  intro range low high
  have hrange : List.range' low (high - low) = (List.range count).filter (inWindow (low, high)) := by
    rw [filter_inWindow_range]
    congr 2
    omega
  rw [hrange, linesIn]
  refine List.filter_congr fun line hline => ?_
  have hcount := List.mem_range.1 hline
  rw [Bool.eq_iff_iff, Bool.and_eq_true, inWindow_iff, inWindow_iff, isOn_iff]
  simp only [low, high, range]
  omega

end Decoration

namespace LayoutMetrics

variable {α : Type} [Pixel α]

/-- The rectangle that a decoration puts on a line it is on; gutter marks and overlays are none. -/
def rectsOn (metrics : LayoutMetrics α) (lines : List Text) (decoration : Decoration) (line : Nat) :
    List (DecorationRect α) :=
  match decoration.kind with
  | .inline =>
    let range := decoration.range.normalized
    let piece := metrics.inlineRect range (min range.start.line (lines.length - 1))
      (min range.stop.line (lines.length - 1)) line ((lines[line]?).getD [])
    [⟨line, piece.1, .inline, decoration.className, piece.2⟩]
  | .line =>
    [⟨line, metrics.lineRect line Pixel.zero metrics.contentWidth, .line, decoration.className,
      .fullLine⟩]
  | .gutter | .overlay => []

def marksOn (decoration : Decoration) (line : Nat) : List GutterMark :=
  match decoration.kind with
  | .gutter => [⟨line, decoration.className, decoration.content⟩]
  | .inline | .line | .overlay => []

def overlayAt (metrics : LayoutMetrics α) (lines : List Text) (decoration : Decoration) :
    OverlayPlacement α :=
  let start := decoration.range.normalized.start
  ⟨start, metrics.caretRect start lines, decoration.className, decoration.content⟩

/-- A decoration is placed line by line; for an overlay one line is enough. -/
theorem place_eq (metrics : LayoutMetrics α) (lines : List Text) (window : Nat × Nat)
    (decoration : Decoration) :
    metrics.place lines window decoration =
      { rects := (decoration.linesIn lines.length window).flatMap (metrics.rectsOn lines decoration)
        gutter := (decoration.linesIn lines.length window).flatMap (marksOn decoration)
        overlays :=
          if decoration.kind = .overlay ∧ decoration.Meets lines.length window then
            [metrics.overlayAt lines decoration]
          else [] } := by
  have hcovered := decoration.linesIn_eq_range' lines.length window
  have hmeets := decoration.linesIn_ne_nil_iff lines.length window
  simp only [place]
  rw [← hcovered]
  generalize decoration.linesIn lines.length window = shown at hmeets ⊢
  unfold rectsOn marksOn
  cases hkind : decoration.kind with
  | inline => simp [Frame.empty, List.map_eq_flatMap]
  | line => simp [Frame.empty, List.map_eq_flatMap]
  | gutter => simp [Frame.empty, List.map_eq_flatMap]
  | overlay =>
    by_cases hshown : shown = []
    · have hnot : ¬ decoration.Meets lines.length window := fun h => hmeets.2 h hshown
      simp [Frame.empty, hshown, hnot]
    · simp [Frame.empty, hshown, hmeets.1 hshown, overlayAt]

variable (metrics : LayoutMetrics α) (lines : List Text) (window : Nat × Nat)

/-- A document without lines shows nothing, as no window meets it. -/
theorem place_nil (decoration : Decoration) : metrics.place [] window decoration = .empty := by
  have hmeets : ¬ decoration.Meets 0 window := by simp [Decoration.Meets]
  rw [place_eq]
  simp [Decoration.linesIn, hmeets, Frame.empty]

theorem compose_eq (decorations : List Decoration) :
    metrics.compose decorations lines window =
      decorations.foldr (fun decoration => (metrics.place lines window decoration).append)
        .empty := by
  unfold compose
  split
  · rename_i hnone
    obtain rfl := List.isEmpty_iff.1 hnone
    induction decorations with
    | nil => rfl
    | cons decoration rest ih =>
      rw [List.foldr_cons, ← ih, place_nil]
      rfl
  · rfl

theorem compose_nil : metrics.compose [] lines window = .empty := by
  rw [compose_eq, List.foldr_nil]

theorem compose_cons (decoration : Decoration) (rest : List Decoration) :
    metrics.compose (decoration :: rest) lines window
      = (metrics.place lines window decoration).append (metrics.compose rest lines window) := by
  rw [compose_eq, compose_eq, List.foldr_cons]

/-- A frame lists the pieces of each decoration, those of earlier ones first. -/
theorem compose_pieces (decorations : List Decoration) :
    metrics.compose decorations lines window =
      { rects := decorations.flatMap fun decoration =>
          (decoration.linesIn lines.length window).flatMap (metrics.rectsOn lines decoration)
        gutter := decorations.flatMap fun decoration =>
          (decoration.linesIn lines.length window).flatMap (marksOn decoration)
        overlays :=
          (decorations.filter fun decoration =>
            decoration.kind = .overlay ∧ decoration.Meets lines.length window).map
              (metrics.overlayAt lines) } := by
  induction decorations with
  | nil => exact metrics.compose_nil lines window
  | cons decoration rest ih =>
    rw [compose_cons, ih, place_eq]
    simp only [Frame.append, List.flatMap_cons, List.filter_cons, decide_eq_true_iff]
    split <;> simp

/-- Pieces that are put on lines can be picked out by their lines, or the lines can be picked out
before anything is put on them. -/
theorem filter_pieces {β : Type} {pieces : Nat → List β} {lineOf : β → Nat}
    (h : ∀ line, ∀ piece ∈ pieces line, lineOf piece = line) (shown : List Nat) :
    (shown.flatMap pieces).filter (fun piece => inWindow window (lineOf piece))
      = (shown.filter (inWindow window)).flatMap pieces := by
  induction shown with
  | nil => rfl
  | cons line rest ih =>
    rw [List.flatMap_cons, List.filter_append, ih, List.filter_cons]
    by_cases hin : inWindow window line
    · have hall : ∀ piece ∈ pieces line, inWindow window (lineOf piece) = true := by
        intro piece hpiece
        rw [h line piece hpiece, hin]
      rw [if_pos hin, List.flatMap_cons, List.filter_eq_self.2 hall]
    · have hnone : ∀ piece ∈ pieces line, ¬ inWindow window (lineOf piece) = true := by
        intro piece hpiece
        rwa [h line piece hpiece]
      rw [if_neg hin, List.filter_eq_nil_iff.2 hnone, List.nil_append]

theorem line_of_mem_rectsOn (decoration : Decoration) (line : Nat) :
    ∀ rect ∈ metrics.rectsOn lines decoration line, rect.line = line := by
  intro rect hrect
  unfold rectsOn at hrect
  split at hrect <;> simp_all

theorem line_of_mem_marksOn (decoration : Decoration) (line : Nat) :
    ∀ mark ∈ marksOn decoration line, mark.line = line := by
  intro mark hmark
  unfold marksOn at hmark
  split at hmark <;> simp_all

/-- A window shows of the rectangles and the marks of the whole document those on its lines, and of the
overlays those whose decorations are on one of its lines, all in the order of the whole. -/
theorem compose_window (decorations : List Decoration) :
    let whole := metrics.compose decorations lines (0, lines.length)
    let shown := metrics.compose decorations lines window
    shown.rects = whole.rects.filter (fun rect => window.1 ≤ rect.line ∧ rect.line < window.2) ∧
    shown.gutter = whole.gutter.filter (fun mark => window.1 ≤ mark.line ∧ mark.line < window.2) ∧
    shown.overlays =
      (decorations.filter fun decoration =>
        decoration.kind = .overlay ∧ ∃ line < lines.length,
          min decoration.range.normalized.start.line (lines.length - 1) ≤ line ∧
          line ≤ min decoration.range.normalized.stop.line (lines.length - 1) ∧
          window.1 ≤ line ∧ line < window.2).map (metrics.overlayAt lines) := by
  intro whole shown
  simp only [whole, shown, compose_pieces]
  refine ⟨?_, ?_, ?_⟩
  · rw [List.filter_flatMap]
    refine List.flatMap_congr fun decoration _ => ?_
    rw [Decoration.linesIn_window]
    exact (filter_pieces window (metrics.line_of_mem_rectsOn lines decoration) _).symm
  · rw [List.filter_flatMap]
    refine List.flatMap_congr fun decoration _ => ?_
    rw [Decoration.linesIn_window]
    exact (filter_pieces window (line_of_mem_marksOn decoration) _).symm
  · refine congrArg (List.map _) (List.filter_congr fun decoration _ => ?_)
    simp only [Decoration.Meets, Decoration.isOn_iff, inWindow_iff, and_assoc]

/-- A window that begins in the middle of a stretch shows the middle as such. -/
example :
    let stretch : Decoration := ⟨.inline, ⟨⟨0, 1, 1⟩, ⟨2, 1, 7⟩⟩, "mark", none⟩
    let metrics : LayoutMetrics Float := .standard
    (metrics.compose [stretch] [['a', 'b'], ['c', 'd'], ['e', 'f']] (1, 9)).rects.map
      (fun rect => (rect.line, rect.span)) = [(1, .fullLine), (2, .partialLine)] := by
  decide

end LayoutMetrics

end HeadlessEditor
