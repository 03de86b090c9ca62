import HeadlessEditor.Layout.Pixel

/-!
Which lines have to be drawn for a scroll offset, and who may change the offset.

What the host's scroller reports is the offset. A program may ask the host to scroll (a request
waits until the host has reported back), or set the offset itself while nobody is scrolling.
Scrolling ends when no report has come for the settle window.
-/

namespace HeadlessEditor

/-- Lines drawn above and below the visible ones: a fixed number or a share of them. -/
structure Overscan (α : Type) where
  minimum : Nat
  ratio : α
  deriving Repr

/-- The lines to draw, those among them that can be seen, and the margin. Ends are exclusive. -/
structure LineWindow where
  start : Nat
  stop : Nat
  firstVisible : Nat
  lastVisible : Nat
  overscan : Nat
  deriving DecidableEq, Repr, Inhabited

namespace LineWindow

def empty : LineWindow := ⟨0, 0, 0, 0, 0⟩

def lines (window : LineWindow) : List Nat := List.range' window.start (window.stop - window.start)

def size (window : LineWindow) : Nat := window.stop - window.start

def isEmpty (window : LineWindow) : Bool := window.start == window.stop

def contains (window : LineWindow) (line : Nat) : Bool :=
  window.start ≤ line && line < window.stop

end LineWindow

/-- Lines drawn around the visible ones unless the settings say otherwise. -/
def defaultOverscan {α : Type} [Pixel α] : Overscan α := ⟨5, Pixel.ofFloat 0.5⟩

/-- Milliseconds without a scroll report that end scrolling unless the settings say otherwise. -/
def defaultSettleWindow : Nat := 150

variable {α : Type} [Pixel α]

def Overscan.margin (overscan : Overscan α) (visible : Nat) : Nat :=
  max overscan.minimum
    (Pixel.ceilNat (Pixel.ofNat visible * Pixel.larger overscan.ratio Pixel.zero))

structure ScrollMetrics (α : Type) where
  scrollTop : α
  height : α
  lineHeight : α
  lineCount : Nat
  deriving Repr

/-- The lines to draw. A line height that is not positive leaves none. -/
def ScrollMetrics.window (metrics : ScrollMetrics α) (overscan : Overscan α) : LineWindow :=
  if (!Pixel.less Pixel.zero metrics.lineHeight && !Pixel.isNaN metrics.lineHeight)
      || metrics.lineCount = 0 then .empty
  else
    let top := Pixel.larger metrics.scrollTop Pixel.zero
    let height := Pixel.larger metrics.height Pixel.zero
    let first := Pixel.floorNat (top / metrics.lineHeight)
    let last := Pixel.ceilNat ((top + height) / metrics.lineHeight)
    let margin := overscan.margin (last - first)
    let firstVisible := min first metrics.lineCount
    { start := min (first - margin) metrics.lineCount
      stop := min (last + margin) metrics.lineCount
      firstVisible
      lastVisible := max (min last metrics.lineCount) firstVisible
      overscan := margin }

structure Viewport (α : Type) extends ScrollMetrics α where
  overscan : Overscan α
  settleWindow : Nat
  /-- When the host last reported an offset, while scrolling goes on. -/
  lastReport : Option Nat
  /-- The offset that the host was asked for and has not answered. -/
  request : Option α
  deriving Repr

namespace Viewport

def new (height lineHeight : α) (lineCount : Nat) : Viewport α :=
  { scrollTop := Pixel.zero, height, lineHeight, lineCount, overscan := defaultOverscan
    settleWindow := defaultSettleWindow, lastReport := none, request := none }

/-- Whether reports of the host are still coming in. -/
def isScrolling (view : Viewport α) : Bool := view.lastReport.isSome

def totalHeight (view : Viewport α) : α := Pixel.ofNat view.lineCount * view.lineHeight

def maxScrollTop (view : Viewport α) : α :=
  Pixel.larger (view.totalHeight - view.height) Pixel.zero

def clampScroll (view : Viewport α) (offset : α) : α := Pixel.within view.maxScrollTop offset

def visibleRange (view : Viewport α) : LineWindow := view.window view.overscan

/-- Takes over an offset reported by the host. -/
def hostScroll (view : Viewport α) (actual : α) (now : Nat) : Viewport α :=
  { view with scrollTop := view.clampScroll actual, lastReport := some now }

/-- Ends scrolling, and gives up an unanswered request, if the last report is old enough. The flag
tells whether it was. -/
def settle (view : Viewport α) (now : Nat) : Viewport α × Bool :=
  match view.lastReport with
  | none => (view, false)
  | some last =>
    if now - last < view.settleWindow then (view, false)
    else ({ view with lastReport := none, request := none }, true)

/-- Asks the host for an offset, which is the second result. -/
def requestScroll (view : Viewport α) (target : α) : Viewport α × α :=
  let target := view.clampScroll target
  ({ view with request := some target }, target)

/-- Sets the offset unless somebody is scrolling. The flag tells whether it was set. -/
def setScrollTop (view : Viewport α) (offset : α) : Viewport α × Bool :=
  if view.isScrolling then (view, false)
  else ({ view with scrollTop := view.clampScroll offset, request := none }, true)

/-- The offset that brings a line into view, `none` if it is in view. -/
def reveal? (view : Viewport α) (line : Nat) : Option α :=
  let top := Pixel.ofNat (min line (view.lineCount - 1)) * view.lineHeight
  let bottom := top + view.lineHeight
  if Pixel.less top view.scrollTop then some (view.clampScroll top)
  else if Pixel.less (view.scrollTop + view.height) bottom then
    some (view.clampScroll (bottom - view.height))
  else none

def reclamp (view : Viewport α) : Viewport α :=
  { view with scrollTop := view.clampScroll view.scrollTop }

def resize (view : Viewport α) (height : α) : Viewport α :=
  reclamp { view with height := Pixel.larger height Pixel.zero }

def setLineHeight (view : Viewport α) (lineHeight : α) : Viewport α :=
  reclamp { view with lineHeight }

def setLineCount (view : Viewport α) (lineCount : Nat) : Viewport α :=
  reclamp { view with lineCount }

def setOverscan (view : Viewport α) (overscan : Overscan α) : Viewport α := { view with overscan }

def setSettleWindow (view : Viewport α) (settleWindow : Nat) : Viewport α :=
  { view with settleWindow }

end Viewport

end HeadlessEditor
