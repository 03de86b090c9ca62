import HeadlessEditor.Json.Parser
import HeadlessEditor.Settings.Basic

/-!
Settings as JSON. A section is an object with some of its keys, each at most once and no others, or
an array of its values in order, from which the last ones may be missing. What is missing takes its
default; `null` stands for no value.
-/

namespace HeadlessEditor

/-- The values of a section with these keys, `none` for a missing one. -/
def Json.section? (keys : List String) : Json → Option (List (Option Json))
  | .object members =>
    if members.all (fun member => keys.contains member.1)
        && keys.all (fun key => (members.filter (·.1 == key)).length ≤ 1) then
      some (keys.map fun key => members.lookup key)
    else none
  | .array items =>
    if items.length ≤ keys.length then
      some (items.map some ++ List.replicate (keys.length - items.length) none)
    else none
  | _ => none

/-- Reads a value, a missing one as the default. -/
def Json.orDefault {α : Type} (default : α) (read : Json → Option α) : Option Json → Option α
  | none => some default
  | some value => read value

def ViewportSettings.ofJson? (json : Json) : Option ViewportSettings := do
  let [minOverscan, overscanRatio, settleWindowMs] ←
    json.section? ["min_overscan", "overscan_ratio", "settle_window_ms"] | none
  let default := ViewportSettings.default
  return {
    minOverscan := ← Json.orDefault default.minOverscan Json.count? minOverscan
    overscanRatio := ← Json.orDefault default.overscanRatio Json.float? overscanRatio
    settleWindowMs := ← Json.orDefault default.settleWindowMs Json.count? settleWindowMs }

def TokenizationSettings.ofJson? (json : Json) : Option TokenizationSettings := do
  let [debounceMs, cacheCapacity] ← json.section? ["debounce_ms", "cache_capacity"] | none
  let default := TokenizationSettings.default
  return {
    debounceMs := ← Json.orDefault default.debounceMs Json.count? debounceMs
    cacheCapacity := ← Json.orDefault default.cacheCapacity Json.count? cacheCapacity }

def CursorSettings.ofJson? (json : Json) : Option CursorSettings := do
  let [capacity] ← json.section? ["position_cache_capacity"] | none
  let default := CursorSettings.default
  return {
    positionCacheCapacity := ← Json.orDefault default.positionCacheCapacity Json.count? capacity }

namespace Settings

/-- Reads settings, without looking at their ranges. -/
def ofJson? (json : Json) : Option Settings := do
  let [tabSize, insertSpaces, fontSize, lineHeight, charWidth, theme, viewport, tokenization,
      cursor] ←
    json.section? ["tab_size", "insert_spaces", "font_size", "line_height", "char_width", "theme",
      "viewport", "tokenization", "cursor"] | none
  return {
    tabSize := ← Json.orDefault default.tabSize Json.count? tabSize
    insertSpaces := ← Json.orDefault default.insertSpaces Json.bool? insertSpaces
    fontSize := ← Json.orDefault default.fontSize Json.float? fontSize
    lineHeight := ← Json.orDefault default.lineHeight Json.float? lineHeight
    charWidth := ← Json.orDefault default.charWidth Json.float? charWidth
    theme := ← Json.orDefault default.theme Json.string? theme
    viewport := ← Json.orDefault default.viewport ViewportSettings.ofJson? viewport
    tokenization := ← Json.orDefault default.tokenization TokenizationSettings.ofJson? tokenization
    cursor := ← Json.orDefault default.cursor CursorSettings.ofJson? cursor }

def read (json : Json) : Except SettingsError Settings := do
  let some settings := ofJson? json | throw .malformed
  settings.validate
  return settings

def parse (text : Text) : Except SettingsError Settings :=
  match Json.parse? text with
  | none => .error .malformed
  | some json => read json

/-- The settings as a value in canonical form. -/
def toJson (settings : Settings) : Json :=
  .object [
    ("char_width", .ofFloat settings.charWidth),
    ("cursor", .object [
      ("position_cache_capacity", .int settings.cursor.positionCacheCapacity)]),
    ("font_size", .ofFloat settings.fontSize),
    ("insert_spaces", .bool settings.insertSpaces),
    ("line_height", .ofFloat settings.lineHeight),
    ("tab_size", .int settings.tabSize),
    ("theme", .string settings.theme),
    ("tokenization", .object [
      ("cache_capacity", .int settings.tokenization.cacheCapacity),
      ("debounce_ms", .int settings.tokenization.debounceMs)]),
    ("viewport", .object [
      ("min_overscan", .int settings.viewport.minOverscan),
      ("overscan_ratio", .ofFloat settings.viewport.overscanRatio),
      ("settle_window_ms", .int settings.viewport.settleWindowMs)])]

/-- One setting, or one section, by its keys with a dot between them. -/
def get? (settings : Settings) (path : String) : Option Json :=
  (path.splitOn ".").foldlM (fun value key => value.member? key) settings.toJson

end Settings

end HeadlessEditor
