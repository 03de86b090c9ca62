import HeadlessEditor.Cursor.Controller
import HeadlessEditor.Json.Basic
import HeadlessEditor.Layout.Frame
import HeadlessEditor.Layout.Viewport

/-!
The settings of an editor, their defaults, and the values that would break layout or scheduling.
-/

namespace HeadlessEditor

structure ViewportSettings where
  minOverscan : Nat
  overscanRatio : Float
  settleWindowMs : Nat

structure TokenizationSettings where
  debounceMs : Nat
  cacheCapacity : Nat

structure CursorSettings where
  positionCacheCapacity : Nat

structure Settings where
  tabSize : Nat
  insertSpaces : Bool
  fontSize : Float
  lineHeight : Float
  charWidth : Float
  theme : String
  viewport : ViewportSettings
  tokenization : TokenizationSettings
  cursor : CursorSettings

inductive SettingsError where
  /-- The text is no JSON, or a value has the wrong shape. -/
  | malformed
  /-- A patch is something else than an object. -/
  | notAnObject
  /-- A value is out of range. -/
  | invalid (key reason : String)
  deriving DecidableEq, Repr

def SettingsError.message : SettingsError → String
  | malformed => "invalid settings JSON"
  | notAnObject => "settings patch must be a JSON object"
  | invalid key reason => s!"invalid value for `{key}`: {reason}"

def ViewportSettings.default : ViewportSettings :=
  ⟨(defaultOverscan : Overscan Float).minimum, (defaultOverscan : Overscan Float).ratio,
    defaultSettleWindow⟩

def TokenizationSettings.default : TokenizationSettings := ⟨300, 32⟩

def CursorSettings.default : CursorSettings := ⟨defaultPositionCacheCapacity⟩

namespace Settings

def default : Settings where
  tabSize := 4
  insertSpaces := true
  fontSize := 14.0
  lineHeight := 20.0
  charWidth := 8.4
  theme := "vellum-dark"
  viewport := .default
  tokenization := .default
  cursor := .default

/-- Whether a size is above zero; what is not a number is not. -/
def isPositive (x : Float) : Bool := 0.0 < x

/-- Refuses what would break layout or scheduling; the first fault is reported. -/
def validate (settings : Settings) : Except SettingsError Unit :=
  if settings.tabSize = 0 then .error (.invalid "tab_size" "must be at least 1")
  else if !isPositive settings.lineHeight then .error (.invalid "line_height" "must be positive")
  else if !isPositive settings.charWidth then .error (.invalid "char_width" "must be positive")
  else if !(0.0 ≤ settings.viewport.overscanRatio) then
    .error (.invalid "viewport.overscan_ratio" "must not be negative")
  else .ok ()

/-- What the Tab key types. -/
def indentUnit (settings : Settings) : Text :=
  if settings.insertSpaces then List.replicate settings.tabSize ' ' else ['\t']

def overscan {α : Type} [Pixel α] (settings : Settings) : Overscan α :=
  ⟨settings.viewport.minOverscan, Pixel.ofFloat settings.viewport.overscanRatio⟩

def layoutMetrics {α : Type} [Pixel α] (settings : Settings) (contentWidth : α) :
    LayoutMetrics α where
  lineHeight := Pixel.ofFloat settings.lineHeight
  charWidth := Pixel.ofFloat settings.charWidth
  tabSize := settings.tabSize
  contentWidth := contentWidth

end Settings

end HeadlessEditor
