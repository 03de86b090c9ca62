import HeadlessEditor.Proofs.ChangedKeys
import HeadlessEditor.Proofs.Sections

/-!
What a patch makes of settings. A setting that the patch does not reach stays as it is, `null` gives
it its default, and any other value is read as it would be in settings of its own; a section given as
an object is patched setting by setting. So a patch that was applied changes nothing when it is
applied again, and to patch the defaults is to read the patch as settings.
-/

namespace HeadlessEditor

namespace ViewportSettings

def members (viewport : ViewportSettings) : List (String × Json) := [
  ("min_overscan", .int viewport.minOverscan),
  ("overscan_ratio", .ofFloat viewport.overscanRatio),
  ("settle_window_ms", .int viewport.settleWindowMs)]

def keys : List String := ["min_overscan", "overscan_ratio", "settle_window_ms"]

/-- The settings hold the values given for them. -/
@[mk_iff] structure Holds (given : String → Option Json) (found : ViewportSettings) : Prop where
  minOverscan : Json.orDefault default.minOverscan Json.count? (given "min_overscan")
    = some found.minOverscan
  overscanRatio : Json.orDefault default.overscanRatio Json.float? (given "overscan_ratio")
    = some found.overscanRatio
  settleWindowMs : Json.orDefault default.settleWindowMs Json.count? (given "settle_window_ms")
    = some found.settleWindowMs

structure Patched (old : ViewportSettings) (given : String → Option Json)
    (new : ViewportSettings) : Prop where
  known : Json.Known keys given
  minOverscan : Json.Settled Json.count? default.minOverscan old.minOverscan
    (given "min_overscan") new.minOverscan
  overscanRatio : Json.Settled Json.float? default.overscanRatio old.overscanRatio
    (given "overscan_ratio") new.overscanRatio
  settleWindowMs : Json.Settled Json.count? default.settleWindowMs old.settleWindowMs
    (given "settle_window_ms") new.settleWindowMs

theorem minOverscan_setting :
    Json.Setting members default "min_overscan" Json.count? (fun n : Nat => .int n) minOverscan :=
  ⟨Json.mergeable_count (by decide), fun _ => rfl⟩

theorem overscanRatio_setting :
    Json.Setting members default "overscan_ratio" Json.float? .ofFloat overscanRatio :=
  ⟨Json.mergeable_float (by decide), fun _ => rfl⟩

theorem settleWindowMs_setting :
    Json.Setting members default "settle_window_ms" Json.count? (fun n : Nat => .int n)
      settleWindowMs :=
  ⟨Json.mergeable_count (by decide), fun _ => rfl⟩

theorem ofJson?_iff {json : Json} {given : String → Option Json} {shaped : Prop}
    (h : ∀ values, json.section? keys = some values ↔ shaped ∧ keys.map given = values)
    {found : ViewportSettings} : ofJson? json = some found ↔ shaped ∧ Holds given found := by
  simp only [ofJson?, Option.bind_eq_bind, Option.bind_eq_some_iff]
  change (∃ values, json.section? keys = some values ∧ _) ↔ _
  simp only [h]
  constructor
  · rintro ⟨_, ⟨hshaped, rfl⟩, hread⟩
    simp only [keys, List.map, Option.bind_eq_some_iff, Option.pure_def, Option.some.injEq] at hread
    obtain ⟨_, hmin, _, hratio, _, hsettle, rfl⟩ := hread
    exact ⟨hshaped, hmin, hratio, hsettle⟩
  · rintro ⟨hshaped, hmin, hratio, hsettle⟩
    exact ⟨_, ⟨hshaped, rfl⟩, by simp [keys, hmin, hratio, hsettle]⟩

theorem isSection : Json.Section keys ofJson? default members Holds where
  read_iff h := ofJson?_iff h
  sorted _ := by
    refine List.pairwise_map.1 ?_
    show keys.Pairwise (· < ·)
    decide
  known _ := by simp [members, keys]
  stored := by rfl
  only := by
    rintro ⟨_, _, _⟩ ⟨_, _, _⟩ h
    obtain rfl := minOverscan_setting.kept h.minOverscan
    obtain rfl := overscanRatio_setting.kept h.overscanRatio
    obtain rfl := settleWindowMs_setting.kept h.settleWindowMs
    rfl
  again := by
    intro old new given hgiven h
    exact ⟨minOverscan_setting.again (hgiven _) h.minOverscan,
      overscanRatio_setting.again (hgiven _) h.overscanRatio,
      settleWindowMs_setting.again (hgiven _) h.settleWindowMs⟩
  fill := by
    intro given hgiven found
    rw [holds_iff, holds_iff, minOverscan_setting.fill (hgiven _),
      overscanRatio_setting.fill (hgiven _), settleWindowMs_setting.fill (hgiven _)]

theorem Holds.patched {old new : ViewportSettings} {given : String → Option Json}
    (h : Holds (Json.amendedBy old.members given) new) (hknown : Json.Known keys given) :
    old.Patched given new where
  known := hknown
  minOverscan := minOverscan_setting.settled Json.counts h.minOverscan
  overscanRatio := overscanRatio_setting.settled Json.floats h.overscanRatio
  settleWindowMs := settleWindowMs_setting.settled Json.counts h.settleWindowMs

end ViewportSettings

namespace TokenizationSettings

def members (tokenization : TokenizationSettings) : List (String × Json) := [
  ("cache_capacity", .int tokenization.cacheCapacity),
  ("debounce_ms", .int tokenization.debounceMs)]

def keys : List String := ["debounce_ms", "cache_capacity"]

/-- The settings hold the values given for them. -/
@[mk_iff] structure Holds (given : String → Option Json) (found : TokenizationSettings) : Prop where
  debounceMs : Json.orDefault default.debounceMs Json.count? (given "debounce_ms")
    = some found.debounceMs
  cacheCapacity : Json.orDefault default.cacheCapacity Json.count? (given "cache_capacity")
    = some found.cacheCapacity

structure Patched (old : TokenizationSettings) (given : String → Option Json)
    (new : TokenizationSettings) : Prop where
  known : Json.Known keys given
  debounceMs : Json.Settled Json.count? default.debounceMs old.debounceMs
    (given "debounce_ms") new.debounceMs
  cacheCapacity : Json.Settled Json.count? default.cacheCapacity old.cacheCapacity
    (given "cache_capacity") new.cacheCapacity

theorem debounceMs_setting :
    Json.Setting members default "debounce_ms" Json.count? (fun n : Nat => .int n) debounceMs :=
  ⟨Json.mergeable_count (by decide), fun _ => rfl⟩

theorem cacheCapacity_setting :
    Json.Setting members default "cache_capacity" Json.count? (fun n : Nat => .int n)
      cacheCapacity :=
  ⟨Json.mergeable_count (by decide), fun _ => rfl⟩

theorem ofJson?_iff {json : Json} {given : String → Option Json} {shaped : Prop}
    (h : ∀ values, json.section? keys = some values ↔ shaped ∧ keys.map given = values)
    {found : TokenizationSettings} : ofJson? json = some found ↔ shaped ∧ Holds given found := by
  simp only [ofJson?, Option.bind_eq_bind, Option.bind_eq_some_iff]
  change (∃ values, json.section? keys = some values ∧ _) ↔ _
  simp only [h]
  constructor
  · rintro ⟨_, ⟨hshaped, rfl⟩, hread⟩
    simp only [keys, List.map, Option.bind_eq_some_iff, Option.pure_def, Option.some.injEq] at hread
    obtain ⟨_, hdebounce, _, hcapacity, rfl⟩ := hread
    exact ⟨hshaped, hdebounce, hcapacity⟩
  · rintro ⟨hshaped, hdebounce, hcapacity⟩
    exact ⟨_, ⟨hshaped, rfl⟩, by simp [keys, hdebounce, hcapacity]⟩

theorem isSection : Json.Section keys ofJson? default members Holds where
  read_iff h := ofJson?_iff h
  sorted _ := by
    refine List.pairwise_map.1 ?_
    show ["cache_capacity", "debounce_ms"].Pairwise (· < ·)
    decide
  known _ := by simp [members, keys]
  stored := by rfl
  only := by
    rintro ⟨_, _⟩ ⟨_, _⟩ h
    obtain rfl := debounceMs_setting.kept h.debounceMs
    obtain rfl := cacheCapacity_setting.kept h.cacheCapacity
    rfl
  again := by
    intro old new given hgiven h
    exact ⟨debounceMs_setting.again (hgiven _) h.debounceMs,
      cacheCapacity_setting.again (hgiven _) h.cacheCapacity⟩
  fill := by
    intro given hgiven found
    rw [holds_iff, holds_iff, debounceMs_setting.fill (hgiven _),
      cacheCapacity_setting.fill (hgiven _)]

theorem Holds.patched {old new : TokenizationSettings} {given : String → Option Json}
    (h : Holds (Json.amendedBy old.members given) new) (hknown : Json.Known keys given) :
    old.Patched given new where
  known := hknown
  debounceMs := debounceMs_setting.settled Json.counts h.debounceMs
  cacheCapacity := cacheCapacity_setting.settled Json.counts h.cacheCapacity

end TokenizationSettings

namespace CursorSettings

def members (cursor : CursorSettings) : List (String × Json) :=
  [("position_cache_capacity", .int cursor.positionCacheCapacity)]

def keys : List String := ["position_cache_capacity"]

/-- The setting holds the value given for it. -/
@[mk_iff] structure Holds (given : String → Option Json) (found : CursorSettings) : Prop where
  positionCacheCapacity : Json.orDefault default.positionCacheCapacity Json.count?
    (given "position_cache_capacity") = some found.positionCacheCapacity

structure Patched (old : CursorSettings) (given : String → Option Json)
    (new : CursorSettings) : Prop where
  known : Json.Known keys given
  positionCacheCapacity : Json.Settled Json.count? default.positionCacheCapacity
    old.positionCacheCapacity (given "position_cache_capacity") new.positionCacheCapacity

theorem positionCacheCapacity_setting :
    Json.Setting members default "position_cache_capacity" Json.count? (fun n : Nat => .int n)
      positionCacheCapacity :=
  ⟨Json.mergeable_count (by decide), fun _ => rfl⟩

theorem ofJson?_iff {json : Json} {given : String → Option Json} {shaped : Prop}
    (h : ∀ values, json.section? keys = some values ↔ shaped ∧ keys.map given = values)
    {found : CursorSettings} : ofJson? json = some found ↔ shaped ∧ Holds given found := by
  simp only [ofJson?, Option.bind_eq_bind, Option.bind_eq_some_iff]
  change (∃ values, json.section? keys = some values ∧ _) ↔ _
  simp only [h]
  constructor
  · rintro ⟨_, ⟨hshaped, rfl⟩, hread⟩
    simp only [keys, List.map, Option.bind_eq_some_iff, Option.pure_def, Option.some.injEq] at hread
    obtain ⟨_, hcapacity, rfl⟩ := hread
    exact ⟨hshaped, ⟨hcapacity⟩⟩
  · rintro ⟨hshaped, ⟨hcapacity⟩⟩
    exact ⟨_, ⟨hshaped, rfl⟩, by simp [keys, hcapacity]⟩

theorem isSection : Json.Section keys ofJson? default members Holds where
  read_iff h := ofJson?_iff h
  sorted _ := List.pairwise_singleton _ _
  known _ := by simp [members, keys]
  stored := by rfl
  only := by
    rintro ⟨_⟩ ⟨_⟩ h
    obtain rfl := positionCacheCapacity_setting.kept h.positionCacheCapacity
    rfl
  again := by
    intro old new given hgiven h
    exact ⟨positionCacheCapacity_setting.again (hgiven _) h.positionCacheCapacity⟩
  fill := by
    intro given hgiven found
    rw [holds_iff, holds_iff, positionCacheCapacity_setting.fill (hgiven _)]

theorem Holds.patched {old new : CursorSettings} {given : String → Option Json}
    (h : Holds (Json.amendedBy old.members given) new) (hknown : Json.Known keys given) :
    old.Patched given new where
  known := hknown
  positionCacheCapacity :=
    positionCacheCapacity_setting.settled Json.counts h.positionCacheCapacity

end CursorSettings

namespace Settings

def members (settings : Settings) : List (String × Json) := [
  ("char_width", .ofFloat settings.charWidth),
  ("cursor", .object settings.cursor.members),
  ("font_size", .ofFloat settings.fontSize),
  ("insert_spaces", .bool settings.insertSpaces),
  ("line_height", .ofFloat settings.lineHeight),
  ("tab_size", .int settings.tabSize),
  ("theme", .string settings.theme),
  ("tokenization", .object settings.tokenization.members),
  ("viewport", .object settings.viewport.members)]

def keys : List String := ["tab_size", "insert_spaces", "font_size", "line_height", "char_width",
  "theme", "viewport", "tokenization", "cursor"]

/-- The settings hold the values given for them. -/
@[mk_iff] structure Holds (given : String → Option Json) (found : Settings) : Prop where
  tabSize : Json.orDefault default.tabSize Json.count? (given "tab_size") = some found.tabSize
  insertSpaces : Json.orDefault default.insertSpaces Json.bool? (given "insert_spaces")
    = some found.insertSpaces
  fontSize : Json.orDefault default.fontSize Json.float? (given "font_size") = some found.fontSize
  lineHeight : Json.orDefault default.lineHeight Json.float? (given "line_height")
    = some found.lineHeight
  charWidth : Json.orDefault default.charWidth Json.float? (given "char_width")
    = some found.charWidth
  theme : Json.orDefault default.theme Json.string? (given "theme") = some found.theme
  viewport : Json.orDefault default.viewport ViewportSettings.ofJson? (given "viewport")
    = some found.viewport
  tokenization : Json.orDefault default.tokenization TokenizationSettings.ofJson?
    (given "tokenization") = some found.tokenization
  cursor : Json.orDefault default.cursor CursorSettings.ofJson? (given "cursor")
    = some found.cursor

structure Patched (old : Settings) (given : String → Option Json) (new : Settings) : Prop where
  known : Json.Known keys given
  tabSize : Json.Settled Json.count? default.tabSize old.tabSize (given "tab_size") new.tabSize
  insertSpaces : Json.Settled Json.bool? default.insertSpaces old.insertSpaces
    (given "insert_spaces") new.insertSpaces
  fontSize : Json.Settled Json.float? default.fontSize old.fontSize (given "font_size") new.fontSize
  lineHeight : Json.Settled Json.float? default.lineHeight old.lineHeight (given "line_height")
    new.lineHeight
  charWidth : Json.Settled Json.float? default.charWidth old.charWidth (given "char_width")
    new.charWidth
  theme : Json.Settled Json.string? default.theme old.theme (given "theme") new.theme
  viewport : Json.SettledWithin ViewportSettings.ofJson? default.viewport old.viewport
    old.viewport.Patched (given "viewport") new.viewport
  tokenization : Json.SettledWithin TokenizationSettings.ofJson? default.tokenization
    old.tokenization old.tokenization.Patched (given "tokenization") new.tokenization
  cursor : Json.SettledWithin CursorSettings.ofJson? default.cursor old.cursor
    old.cursor.Patched (given "cursor") new.cursor

theorem tabSize_setting :
    Json.Setting members default "tab_size" Json.count? (fun n : Nat => .int n) tabSize :=
  ⟨Json.mergeable_count (by decide), fun _ => rfl⟩

theorem insertSpaces_setting :
    Json.Setting members default "insert_spaces" Json.bool? .bool insertSpaces :=
  ⟨Json.bools.mergeable rfl, fun _ => rfl⟩

theorem fontSize_setting :
    Json.Setting members default "font_size" Json.float? .ofFloat fontSize :=
  ⟨Json.mergeable_float (by decide), fun _ => rfl⟩

theorem lineHeight_setting :
    Json.Setting members default "line_height" Json.float? .ofFloat lineHeight :=
  ⟨Json.mergeable_float (by decide), fun _ => rfl⟩

theorem charWidth_setting :
    Json.Setting members default "char_width" Json.float? .ofFloat charWidth :=
  ⟨Json.mergeable_float (by decide), fun _ => rfl⟩

theorem theme_setting : Json.Setting members default "theme" Json.string? .string theme :=
  ⟨Json.strings.mergeable rfl, fun _ => rfl⟩

theorem viewport_setting :
    Json.Setting members default "viewport" ViewportSettings.ofJson?
      (fun viewport => .object viewport.members) viewport :=
  ⟨ViewportSettings.isSection.mergeable, fun _ => rfl⟩

theorem tokenization_setting :
    Json.Setting members default "tokenization" TokenizationSettings.ofJson?
      (fun tokenization => .object tokenization.members) tokenization :=
  ⟨TokenizationSettings.isSection.mergeable, fun _ => rfl⟩

theorem cursor_setting :
    Json.Setting members default "cursor" CursorSettings.ofJson?
      (fun cursor => .object cursor.members) cursor :=
  ⟨CursorSettings.isSection.mergeable, fun _ => rfl⟩

theorem ofJson?_iff {json : Json} {given : String → Option Json} {shaped : Prop}
    (h : ∀ values, json.section? keys = some values ↔ shaped ∧ keys.map given = values)
    {found : Settings} : ofJson? json = some found ↔ shaped ∧ Holds given found := by
  simp only [ofJson?, Option.bind_eq_bind, Option.bind_eq_some_iff]
  change (∃ values, json.section? keys = some values ∧ _) ↔ _
  simp only [h]
  constructor
  · rintro ⟨_, ⟨hshaped, rfl⟩, hread⟩
    simp only [keys, List.map, Option.bind_eq_some_iff, Option.pure_def, Option.some.injEq] at hread
    obtain ⟨_, htab, _, hspaces, _, hfont, _, hline, _, hchar, _, htheme, _, hviewport, _,
      htokenization, _, hcursor, rfl⟩ := hread
    exact ⟨hshaped, htab, hspaces, hfont, hline, hchar, htheme, hviewport, htokenization, hcursor⟩
  · rintro ⟨hshaped, htab, hspaces, hfont, hline, hchar, htheme, hviewport, htokenization, hcursor⟩
    exact ⟨_, ⟨hshaped, rfl⟩, by
      simp [keys, htab, hspaces, hfont, hline, hchar, htheme, hviewport, htokenization, hcursor]⟩

theorem isSection : Json.Section keys ofJson? default members Holds where
  read_iff h := ofJson?_iff h
  sorted _ := by
    refine List.pairwise_map.1 ?_
    show ["char_width", "cursor", "font_size", "insert_spaces", "line_height", "tab_size", "theme",
      "tokenization", "viewport"].Pairwise (· < ·)
    decide
  known _ := by simp [members, keys]
  stored := by rfl
  only := by
    rintro ⟨_, _, _, _, _, _, _, _, _⟩ ⟨_, _, _, _, _, _, _, _, _⟩ h
    obtain rfl := tabSize_setting.kept h.tabSize
    obtain rfl := insertSpaces_setting.kept h.insertSpaces
    obtain rfl := fontSize_setting.kept h.fontSize
    obtain rfl := lineHeight_setting.kept h.lineHeight
    obtain rfl := charWidth_setting.kept h.charWidth
    obtain rfl := theme_setting.kept h.theme
    obtain rfl := viewport_setting.kept h.viewport
    obtain rfl := tokenization_setting.kept h.tokenization
    obtain rfl := cursor_setting.kept h.cursor
    rfl
  again := by
    intro old new given hgiven h
    exact ⟨tabSize_setting.again (hgiven _) h.tabSize,
      insertSpaces_setting.again (hgiven _) h.insertSpaces,
      fontSize_setting.again (hgiven _) h.fontSize,
      lineHeight_setting.again (hgiven _) h.lineHeight,
      charWidth_setting.again (hgiven _) h.charWidth,
      theme_setting.again (hgiven _) h.theme,
      viewport_setting.again (hgiven _) h.viewport,
      tokenization_setting.again (hgiven _) h.tokenization,
      cursor_setting.again (hgiven _) h.cursor⟩
  fill := by
    intro given hgiven found
    rw [holds_iff, holds_iff, tabSize_setting.fill (hgiven _), insertSpaces_setting.fill (hgiven _),
      fontSize_setting.fill (hgiven _), lineHeight_setting.fill (hgiven _),
      charWidth_setting.fill (hgiven _), theme_setting.fill (hgiven _),
      viewport_setting.fill (hgiven _), tokenization_setting.fill (hgiven _),
      cursor_setting.fill (hgiven _)]

/-- A section of which a patch gives an object is patched. -/
theorem Holds.patched {old new : Settings} {given : String → Option Json}
    (h : Holds (Json.amendedBy old.members given) new) (hknown : Json.Known keys given)
    (hgiven : ∀ key value, given key = some value → value.IsCanonical) :
    old.Patched given new where
  known := hknown
  tabSize := tabSize_setting.settled Json.counts h.tabSize
  insertSpaces := insertSpaces_setting.settled Json.bools h.insertSpaces
  fontSize := fontSize_setting.settled Json.floats h.fontSize
  lineHeight := lineHeight_setting.settled Json.floats h.lineHeight
  charWidth := charWidth_setting.settled Json.floats h.charWidth
  theme := theme_setting.settled Json.strings h.theme
  viewport := viewport_setting.settledWithin (hgiven _) (fun hinner hread => by
    obtain ⟨hknown, hholds⟩ := (ViewportSettings.isSection.read_merge_iff _ hinner.nodup).1 hread
    exact hholds.patched hknown) h.viewport
  tokenization := tokenization_setting.settledWithin (hgiven _) (fun hinner hread => by
    obtain ⟨hknown, hholds⟩ :=
      (TokenizationSettings.isSection.read_merge_iff _ hinner.nodup).1 hread
    exact hholds.patched hknown) h.tokenization
  cursor := cursor_setting.settledWithin (hgiven _) (fun hinner hread => by
    obtain ⟨hknown, hholds⟩ := (CursorSettings.isSection.read_merge_iff _ hinner.nodup).1 hread
    exact hholds.patched hknown) h.cursor

theorem ne_nan_of_isFinite {x : Float} (h : x.isFinite) : x ≠ Float.nan := by
  rintro rfl
  exact absurd h (by decide)

theorem changedKeys_toJson_self {settings : Settings} (h : settings.Finite) :
    Json.changedKeys "" settings.toJson settings.toJson = [] := by
  refine Json.changedKeys_self (keyed_toJson settings) ?_ (shaped_toJson settings settings) ""
  simp [toJson, Json.leaves, Json.memberLeaves, Json.ofFloat, Json.same, h.fontSize, h.lineHeight,
    h.charWidth, h.overscanRatio, ne_nan_of_isFinite]

/-- What a patch makes of settings: each is kept, given its default or read, the same patch then
changes nothing more, and the defaults become what the patch reads as. -/
theorem patch_settles (settings : Settings) {change : List (String × Json)}
    (h : (Json.object change).IsCanonical) :
    (∀ next changed, settings.patch (.object change) = .ok (next, changed) →
      settings.Patched (change.lookup ·) next ∧ next.patch (.object change) = .ok (next, [])) ∧
    (¬ Json.Occurs .null (.object change) →
      (default.patch (.object change)).map (·.1) = read (.object change)) := by
  constructor
  · intro next changed hpatch
    obtain ⟨-, hread, -⟩ := patch_eq_ok_iff.1 hpatch
    obtain ⟨hread, hvalid⟩ := read_eq_ok_iff.1 hread
    obtain ⟨hknown, hholds⟩ := (isSection.read_merge_iff settings h.nodup).1 hread
    refine ⟨hholds.patched hknown fun _ _ => h.lookup, patch_eq_ok_iff.2 ⟨rfl, ?_, ?_⟩⟩
    · exact read_eq_ok_iff.2 ⟨isSection.mergeable.again h hread, hvalid⟩
    · exact (changedKeys_toJson_self (finite_ofJson? hread)).symm
  · intro hfree
    have hread : read (default.toJson.merge (.object change)) = read (.object change) := by
      have hfill := isSection.mergeable.fill h hfree
      unfold read
      rw [← hfill]
      rfl
    simp only [patch, Json.isObject, if_true, hread]
    cases read (.object change) <;> rfl

/-- A setting that is given, one reset, a section as an array and a section in part. -/
def mixedPatch : List (String × Json) := [
  ("tab_size", .int 2),
  ("theme", .null),
  ("tokenization", .array [.int 100]),
  ("viewport", .object [("min_overscan", .int 8), ("settle_window_ms", .null)])]

theorem patch_settles_mixed :
    ((Json.object mixedPatch).IsCanonical ∧ ∃ next, default.patch (.object mixedPatch)
        = .ok (next, ["tab_size", "tokenization.debounce_ms", "viewport.min_overscan"]) ∧
      default.Patched (mixedPatch.lookup ·) next ∧
      next.patch (.object mixedPatch) = .ok (next, [])) ∧
    ((Json.object [("tab_size", .int 0)]).IsCanonical ∧
      ¬ Json.Occurs .null (.object [("tab_size", .int 0)]) ∧
      (default.patch (.object [("tab_size", .int 0)])).map (·.1)
        = read (.object [("tab_size", .int 0)])) := by
  have hmixed : (Json.object mixedPatch).IsCanonical := ⟨.object mixedPatch, rfl⟩
  have hzero : (Json.object [("tab_size", .int 0)]).IsCanonical :=
    ⟨.object [("tab_size", .int 0)], rfl⟩
  have hfree : ¬ Json.Occurs .null (.object [("tab_size", .int 0)]) := by
    rintro (_ | _ | ⟨hmem, hnull⟩)
    obtain ⟨rfl, rfl⟩ := Prod.mk.inj (List.mem_singleton.1 hmem)
    cases hnull
  refine ⟨⟨hmixed, _, rfl, ?_⟩, hzero, hfree, (patch_settles default hzero).2 hfree⟩
  exact (patch_settles default hmixed).1 _ _ rfl

end Settings

end HeadlessEditor
