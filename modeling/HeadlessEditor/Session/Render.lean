import HeadlessEditor.Session.Basic

/-!
What a renderer gets: the lines to draw with their tokens, and the decorations over them. The
selection is painted first, then the stored decorations, then those that extensions show.
-/

namespace HeadlessEditor

def selectionClass : String := "selection"

structure RenderLine where
  index : Nat
  text : Text
  tokens : List LineToken
  deriving DecidableEq, Repr

structure RenderFrame (α : Type) where
  visible : LineWindow
  scrollTop : α
  lines : List RenderLine
  decorations : Frame α
  caret : Option (Rect α)

namespace Session

variable {α : Type} [Pixel α]

def renderLines (session : Session α) (window : LineWindow) : List RenderLine :=
  window.lines.filterMap fun index =>
    (session.editor.buffer.line? index).map fun text =>
      ⟨index, text, (session.lineTokens[index]?).getD []⟩

def selectionDecoration (session : Session α) : Option Decoration :=
  session.editor.selection.map fun range => ⟨.inline, range, selectionClass, none⟩

/-- Builds a frame. Extensions are asked for their decorations, which the session takes note of. -/
def render (session : Session α) : Session α × RenderFrame α :=
  let visible := session.view.visibleRange
  let lines := session.editor.buffer.lines
  let (registry, provided) := session.registry.provided
  let decorations :=
    session.selectionDecoration.toList ++ session.editor.decorations.items.values ++ provided
  let caret := session.editor.caret
  ({ session with registry },
    { visible
      scrollTop := session.view.scrollTop
      lines := session.renderLines visible
      decorations := session.metrics.compose decorations lines (visible.start, visible.stop)
      caret :=
        if visible.contains caret.line then some (session.metrics.caretRect caret lines)
        else none })

end Session

end HeadlessEditor
