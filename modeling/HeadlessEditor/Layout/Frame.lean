import HeadlessEditor.Decoration.Basic
import HeadlessEditor.Layout.Cells
import HeadlessEditor.Layout.Pixel

/-!
From decorations to rectangles. Each decoration is placed by itself on the lines of the window that
it touches; a frame lists the pieces in the order of the decorations, so that later ones paint over
earlier ones. A stretch over several lines is cut at line ends: from its start to the end of the
first line, whole lines, and from the left edge to its end on the last.
-/

namespace HeadlessEditor

structure LayoutMetrics (α : Type) where
  lineHeight : α
  charWidth : α
  tabSize : Nat
  contentWidth : α

structure Rect (α : Type) where
  x : α
  y : α
  width : α
  height : α

inductive RectSpan where
  | partialLine
  | fullLine
  deriving DecidableEq, Repr

structure DecorationRect (α : Type) where
  line : Nat
  rect : Rect α
  kind : DecorationKind
  className : String
  span : RectSpan

structure GutterMark where
  line : Nat
  className : String
  content : Option String
  deriving DecidableEq, Repr

structure OverlayPlacement (α : Type) where
  anchor : Position
  rect : Rect α
  className : String
  content : Option String

structure Frame (α : Type) where
  rects : List (DecorationRect α)
  gutter : List GutterMark
  overlays : List (OverlayPlacement α)

namespace Frame

def empty {α : Type} : Frame α := ⟨[], [], []⟩

def append {α : Type} (a b : Frame α) : Frame α :=
  ⟨a.rects ++ b.rects, a.gutter ++ b.gutter, a.overlays ++ b.overlays⟩

def rectsOnLine {α : Type} (frame : Frame α) (line : Nat) : List (DecorationRect α) :=
  frame.rects.filter (·.line == line)

def rectsOfClass {α : Type} (frame : Frame α) (className : String) : List (DecorationRect α) :=
  frame.rects.filter (·.className == className)

end Frame

namespace LayoutMetrics

variable {α : Type} [Pixel α]

def standard : LayoutMetrics α :=
  ⟨Pixel.ofNat 20, Pixel.ofNat 8, 4, Pixel.ofNat 800⟩

def columnX (metrics : LayoutMetrics α) (line : Text) (column : Nat) : α :=
  Pixel.ofNat (Cells.ofColumn Unicode.cellWidth metrics.tabSize line column) * metrics.charWidth

def lineEndX (metrics : LayoutMetrics α) (line : Text) : α :=
  Pixel.ofNat (Cells.lineWidth Unicode.cellWidth metrics.tabSize line) * metrics.charWidth

def lineY (metrics : LayoutMetrics α) (line : Nat) : α := Pixel.ofNat line * metrics.lineHeight

/-- The rectangle without width where a caret is drawn. -/
def caretRect (metrics : LayoutMetrics α) (position : Position) (lines : List Text) : Rect α where
  x := metrics.columnX ((lines[position.line]?).getD []) position.column
  y := metrics.lineY position.line
  width := Pixel.zero
  height := metrics.lineHeight

/-- The rectangle on a line from `left` to `right`, without width if they are crossed. -/
def lineRect (metrics : LayoutMetrics α) (line : Nat) (left right : α) : Rect α where
  x := left
  y := metrics.lineY line
  width := Pixel.larger (right - left) Pixel.zero
  height := metrics.lineHeight

/-- The rectangle that a stretch takes on one of its lines. -/
def inlineRect (metrics : LayoutMetrics α) (range : TextRange) (firstLine lastLine line : Nat)
    (text : Text) : Rect α × RectSpan :=
  if firstLine = lastLine then
    (metrics.lineRect line (metrics.columnX text range.start.column)
      (metrics.columnX text range.stop.column), .partialLine)
  else if line = firstLine then
    (metrics.lineRect line (metrics.columnX text range.start.column) (metrics.lineEndX text),
      .partialLine)
  else if line = lastLine then
    (metrics.lineRect line Pixel.zero (metrics.columnX text range.stop.column), .partialLine)
  else (metrics.lineRect line Pixel.zero metrics.contentWidth, .fullLine)

/-- What one decoration puts on the lines of the window `[from, to)`. -/
def place (metrics : LayoutMetrics α) (lines : List Text) (window : Nat × Nat)
    (decoration : Decoration) : Frame α :=
  let range := decoration.range.normalized
  let firstLine := min range.start.line (lines.length - 1)
  let lastLine := min range.stop.line (lines.length - 1)
  let low := max firstLine window.1
  let high := min (lastLine + 1) (min window.2 lines.length)
  let covered := List.range' low (high - low)
  match decoration.kind with
  | .inline =>
    { Frame.empty with
      rects := covered.map fun line =>
        let (rect, span) :=
          metrics.inlineRect range firstLine lastLine line ((lines[line]?).getD [])
        ⟨line, rect, .inline, decoration.className, span⟩ }
  | .line =>
    { Frame.empty with
      rects := covered.map fun line =>
        ⟨line, metrics.lineRect line Pixel.zero metrics.contentWidth, .line,
          decoration.className, .fullLine⟩ }
  | .gutter =>
    { Frame.empty with
      gutter := covered.map fun line => ⟨line, decoration.className, decoration.content⟩ }
  | .overlay =>
    if covered.isEmpty then .empty
    else
      { Frame.empty with
        overlays := [⟨range.start, metrics.caretRect range.start lines, decoration.className,
          decoration.content⟩] }

def compose (metrics : LayoutMetrics α) (decorations : List Decoration) (lines : List Text)
    (window : Nat × Nat) : Frame α :=
  if lines.isEmpty then .empty
  else decorations.foldr (fun decoration => (metrics.place lines window decoration).append) .empty

end LayoutMetrics

end HeadlessEditor
