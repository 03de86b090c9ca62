import HeadlessEditor.Cursor.Basic
import HeadlessEditor.Cursor.Controller
import HeadlessEditor.Decoration.Basic
import HeadlessEditor.Decoration.Store
import HeadlessEditor.Document.Buffer
import HeadlessEditor.Document.FileExtension
import HeadlessEditor.Document.LineTable
import HeadlessEditor.Document.Operation
import HeadlessEditor.Document.Position
import HeadlessEditor.Editor.Basic
import HeadlessEditor.Editor.Operation
import HeadlessEditor.Event.Basic
import HeadlessEditor.Event.Bus
import HeadlessEditor.Extension.Basic
import HeadlessEditor.Extension.Command
import HeadlessEditor.Extension.CoreEditing
import HeadlessEditor.Extension.Registry
import HeadlessEditor.Extension.Script
import HeadlessEditor.Extension.Storage
import HeadlessEditor.Json.Basic
import HeadlessEditor.Json.Number
import HeadlessEditor.Json.Parser
import HeadlessEditor.Keys.Chord
import HeadlessEditor.Keys.Keymap
import HeadlessEditor.Layout.Cells
import HeadlessEditor.Layout.ExactPixel
import HeadlessEditor.Layout.Frame
import HeadlessEditor.Layout.Pixel
import HeadlessEditor.Layout.Viewport
import HeadlessEditor.Pattern.Basic
import HeadlessEditor.Pattern.CharSet
import HeadlessEditor.Pattern.Matcher
import HeadlessEditor.Pattern.Normal
import HeadlessEditor.Pattern.Parser
import HeadlessEditor.Pattern.Search
import HeadlessEditor.Proofs.Anchors
import HeadlessEditor.Proofs.Attention
import HeadlessEditor.Proofs.BufferEdits
import HeadlessEditor.Proofs.Cancelling
import HeadlessEditor.Proofs.CaretInView
import HeadlessEditor.Proofs.CaretMemory
import HeadlessEditor.Proofs.ChordNames
import HeadlessEditor.Proofs.ChordParts
import HeadlessEditor.Proofs.ChordSpelling
import HeadlessEditor.Proofs.ClusterSteps
import HeadlessEditor.Proofs.CommentMarks
import HeadlessEditor.Proofs.Coordinates
import HeadlessEditor.Proofs.CoreCommands
import HeadlessEditor.Proofs.Debounce
import HeadlessEditor.Proofs.Deletion
import HeadlessEditor.Proofs.DrawnLines
import HeadlessEditor.Proofs.EditorState
import HeadlessEditor.Proofs.FirstWays
import HeadlessEditor.Proofs.FittedRanges
import HeadlessEditor.Proofs.Hearing
import HeadlessEditor.Proofs.HighlightedLines
import HeadlessEditor.Proofs.Highlighting
import HeadlessEditor.Proofs.HookDelivery
import HeadlessEditor.Proofs.JsonGrammar
import HeadlessEditor.Proofs.JsonHighlighting
import HeadlessEditor.Proofs.JsonLexemes
import HeadlessEditor.Proofs.JsonLiterals
import HeadlessEditor.Proofs.KeyBindings
import HeadlessEditor.Proofs.LineCuts
import HeadlessEditor.Proofs.LineRules
import HeadlessEditor.Proofs.LineTable
import HeadlessEditor.Proofs.Mirroring
import HeadlessEditor.Proofs.MotionRuns
import HeadlessEditor.Proofs.OffsetRange
import HeadlessEditor.Proofs.OneLineEdits
import HeadlessEditor.Proofs.OrdinaryExtensions
import HeadlessEditor.Proofs.Patching
import HeadlessEditor.Proofs.PatternWays
import HeadlessEditor.Proofs.QuotedLiterals
import HeadlessEditor.Proofs.RustComments
import HeadlessEditor.Proofs.Saving
import HeadlessEditor.Proofs.ScheduleRuns
import HeadlessEditor.Proofs.ScrollBounds
import HeadlessEditor.Proofs.SearchedWays
import HeadlessEditor.Proofs.SelectionEdits
import HeadlessEditor.Proofs.SessionCalls
import HeadlessEditor.Proofs.SessionCoherence
import HeadlessEditor.Proofs.SessionRuns
import HeadlessEditor.Proofs.SilentRequests
import HeadlessEditor.Proofs.TabStops
import HeadlessEditor.Proofs.TokenAlignment
import HeadlessEditor.Proofs.TokenMemory
import HeadlessEditor.Proofs.TokenOrigin
import HeadlessEditor.Proofs.TokenRuns
import HeadlessEditor.Proofs.Tokenization
import HeadlessEditor.Proofs.TomlComments
import HeadlessEditor.Proofs.Typing
import HeadlessEditor.Proofs.UpperCasing
import HeadlessEditor.Proofs.ViewRuns
import HeadlessEditor.RecencyCache
import HeadlessEditor.Report
import HeadlessEditor.Session.Basic
import HeadlessEditor.Session.Render
import HeadlessEditor.Settings.Basic
import HeadlessEditor.Settings.Decode
import HeadlessEditor.Settings.Patch
import HeadlessEditor.Syntax.Grammars
import HeadlessEditor.Syntax.Highlighter
import HeadlessEditor.Syntax.LineTokens
import HeadlessEditor.Syntax.Pipeline
import HeadlessEditor.Syntax.Schedule
import HeadlessEditor.Syntax.Token
import HeadlessEditor.Syntax.WordTokenizer
import HeadlessEditor.Table
import HeadlessEditor.Text.Basic
import HeadlessEditor.Text.Bytes
import HeadlessEditor.Text.Edit
import HeadlessEditor.Text.Grapheme
import HeadlessEditor.Text.LineEnding
import HeadlessEditor.Text.Quoted
import HeadlessEditor.Unicode.Blank
import HeadlessEditor.Unicode.CellWidth
import HeadlessEditor.Unicode.ClusterClass
import HeadlessEditor.Unicode.DecimalDigit
import HeadlessEditor.Unicode.GraphemeExtend
import HeadlessEditor.Unicode.RangeTable
import HeadlessEditor.Unicode.Unprintable
import HeadlessEditor.Unicode.UpperCase
import HeadlessEditor.Unicode.WordChar
