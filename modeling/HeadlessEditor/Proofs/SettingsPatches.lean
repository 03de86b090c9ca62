import HeadlessEditor.Settings.Patch
import Mathlib

/-!
Patches that announce nothing. The answer of a patch lists the settings whose value differs as JSON,
where numbers are compared as numbers. So settings that are listed nowhere are the same, but for the
sign of a zero; line height and character width are above zero and do not even differ in that.
-/

namespace HeadlessEditor

/-- The same number, or the very same value. -/
def SameNumber (x y : Float) : Prop := x = y ∨ x == y

theorem SameNumber.refl (x : Float) : SameNumber x x := Or.inl rfl

theorem SameNumber.trans {x y z : Float} (h : SameNumber x y) (hnext : SameNumber y z) :
    SameNumber x z := by
  rcases h with rfl | h
  · exact hnext
  · rcases hnext with rfl | hnext
    · exact Or.inr h
    · exact Or.inr (PartialEquivBEq.trans h hnext)

/-- Above zero, equal numbers are the same. -/
theorem eq_of_beq_of_positive {x y : Float} (h : x == y) (hy : Settings.isPositive y) : x = y := by
  obtain ⟨-, -, heq | ⟨-, rfl⟩ | ⟨-, rfl⟩⟩ := Float.beq_iff_ne_nan_and_eq.1 h
  · exact heq
  · exact absurd hy (by decide)
  · exact absurd hy (by decide)

/-- The two zeros are equal numbers and not the same. -/
example : ((0.0 : Float) == -0.0) ∧ (0.0 : Float) ≠ -0.0 := by decide

structure Settings.SameAs (a b : Settings) : Prop where
  tabSize : a.tabSize = b.tabSize
  insertSpaces : a.insertSpaces = b.insertSpaces
  fontSize : SameNumber a.fontSize b.fontSize
  lineHeight : a.lineHeight = b.lineHeight
  charWidth : a.charWidth = b.charWidth
  theme : a.theme = b.theme
  minOverscan : a.viewport.minOverscan = b.viewport.minOverscan
  overscanRatio : SameNumber a.viewport.overscanRatio b.viewport.overscanRatio
  settleWindowMs : a.viewport.settleWindowMs = b.viewport.settleWindowMs
  debounceMs : a.tokenization.debounceMs = b.tokenization.debounceMs
  cacheCapacity : a.tokenization.cacheCapacity = b.tokenization.cacheCapacity
  positionCacheCapacity : a.cursor.positionCacheCapacity = b.cursor.positionCacheCapacity

namespace Settings.SameAs

theorem refl (settings : Settings) : settings.SameAs settings :=
  ⟨rfl, rfl, .refl _, rfl, rfl, rfl, rfl, .refl _, rfl, rfl, rfl, rfl⟩

theorem trans {a b c : Settings} (h : a.SameAs b) (hnext : b.SameAs c) : a.SameAs c where
  tabSize := h.tabSize.trans hnext.tabSize
  insertSpaces := h.insertSpaces.trans hnext.insertSpaces
  fontSize := h.fontSize.trans hnext.fontSize
  lineHeight := h.lineHeight.trans hnext.lineHeight
  charWidth := h.charWidth.trans hnext.charWidth
  theme := h.theme.trans hnext.theme
  minOverscan := h.minOverscan.trans hnext.minOverscan
  overscanRatio := h.overscanRatio.trans hnext.overscanRatio
  settleWindowMs := h.settleWindowMs.trans hnext.settleWindowMs
  debounceMs := h.debounceMs.trans hnext.debounceMs
  cacheCapacity := h.cacheCapacity.trans hnext.cacheCapacity
  positionCacheCapacity := h.positionCacheCapacity.trans hnext.positionCacheCapacity

end Settings.SameAs

namespace Json

theorem isFinite_of_float? {json : Json} {x : Float} (h : json.float? = some x) : x.isFinite := by
  have hfinite : ∀ {y : Float}, finite? y = some x → x.isFinite := by
    intro y hy
    unfold finite? at hy
    split at hy
    · rename_i hy'
      obtain rfl := Option.some.inj hy
      exact hy'
    · cases hy
  cases json with
  | int value => exact hfinite h
  | real value => exact hfinite h
  | null | bool _ | string _ | array _ | object _ => cases h

/-- What is read, or its default. -/
theorem orDefault_cases {α : Type} {default found : α} {read : Json → Option α}
    {given : Option Json} (h : orDefault default read given = some found) :
    found = default ∨ ∃ json, read json = some found := by
  cases given with
  | none => exact Or.inl (Option.some.inj h).symm
  | some json => exact Or.inr ⟨json, h⟩

theorem isFinite_orDefault {default found : Float} (hdefault : default.isFinite)
    {given : Option Json} (h : orDefault default float? given = some found) : found.isFinite := by
  rcases orDefault_cases h with rfl | ⟨json, hjson⟩
  · exact hdefault
  · exact isFinite_of_float? hjson

end Json

structure Settings.Finite (settings : Settings) : Prop where
  fontSize : settings.fontSize.isFinite
  lineHeight : settings.lineHeight.isFinite
  charWidth : settings.charWidth.isFinite
  overscanRatio : settings.viewport.overscanRatio.isFinite

theorem ViewportSettings.isFinite_ofJson? {json : Json} {viewport : ViewportSettings}
    (h : ofJson? json = some viewport) : viewport.overscanRatio.isFinite := by
  simp only [ofJson?, Option.bind_eq_bind, Option.bind_eq_some_iff] at h
  obtain ⟨values, -, h⟩ := h
  split at h
  · simp only [Option.bind_eq_some_iff, Option.pure_def, Option.some.injEq] at h
    obtain ⟨_, -, ratio, hratio, _, -, rfl⟩ := h
    exact Json.isFinite_orDefault (by decide) hratio
  · cases h

namespace Settings

theorem finite_ofJson? {json : Json} {settings : Settings} (h : ofJson? json = some settings) :
    settings.Finite := by
  simp only [ofJson?, Option.bind_eq_bind, Option.bind_eq_some_iff] at h
  obtain ⟨values, -, h⟩ := h
  split at h
  · simp only [Option.bind_eq_some_iff, Option.pure_def, Option.some.injEq] at h
    obtain ⟨_, -, _, -, fontSize, hfont, lineHeight, hline, charWidth, hchar, _, -, viewport,
      hviewport, _, -, _, -, rfl⟩ := h
    refine ⟨Json.isFinite_orDefault (by decide) hfont, Json.isFinite_orDefault (by decide) hline,
      Json.isFinite_orDefault (by decide) hchar, ?_⟩
    rcases Json.orDefault_cases hviewport with rfl | ⟨_, hread⟩
    · show ViewportSettings.default.overscanRatio.isFinite
      decide
    · exact ViewportSettings.isFinite_ofJson? hread
  · cases h

theorem read_eq_ok_iff {json : Json} {settings : Settings} :
    read json = .ok settings ↔ ofJson? json = some settings ∧ settings.validate = .ok () := by
  unfold read
  cases ofJson? json with
  | none => simp [throw, throwThe, MonadExceptOf.throw]
  | some found =>
    cases hvalid : found.validate with
    | error error =>
      simp only [hvalid, bind, Except.bind, Option.some.injEq]
      constructor
      · rintro ⟨⟩
      · rintro ⟨rfl, hok⟩
        rw [hvalid] at hok
        cases hok
    | ok _ =>
      simp only [hvalid, bind, Except.bind, pure, Except.pure, Except.ok.injEq, Option.some.injEq]
      constructor
      · rintro rfl
        exact ⟨rfl, hvalid⟩
      · exact And.left

theorem read_ok {json : Json} {settings : Settings} (h : read json = .ok settings) :
    settings.Finite ∧ settings.validate = .ok () :=
  (read_eq_ok_iff.1 h).imp_left finite_ofJson?

theorem positive_of_validate {settings : Settings} (h : settings.validate = .ok ()) :
    isPositive settings.lineHeight ∧ isPositive settings.charWidth := by
  unfold validate at h
  split at h
  · cases h
  · split at h
    · cases h
    · rename_i hline
      split at h
      · cases h
      · rename_i hchar
        simp only [Bool.not_eq_true', Bool.not_eq_false] at hline hchar
        exact ⟨hline, hchar⟩

end Settings

namespace Json

/-- What is listed of an object is listed of its members. -/
theorem changedKeys_member {path : String} {before after old value : Json}
    (h : changedKeys path before after = []) (key : String) (hold : before.member? key = some old)
    (hvalue : after.member? key = some value) : ∃ inner, changedKeys inner old value = [] := by
  have members : ∀ (found : List (String × Json)) (members : List (String × Json)),
      found.lookup key = some old → members.lookup key = some value →
      changedMembers path found members = [] → ∃ inner, changedKeys inner old value = [] := by
    intro found members hfound
    induction members with
    | nil => rintro ⟨⟩
    | cons member rest ih =>
      obtain ⟨name, given⟩ := member
      intro hmember hchanged
      rw [changedMembers, List.append_eq_nil_iff] at hchanged
      rw [List.lookup_cons] at hmember
      split at hmember
      · rename_i hname
        obtain rfl := Option.some.inj hmember
        rw [← eq_of_beq hname, hfound] at hchanged
        exact ⟨_, hchanged.1⟩
      · exact ih hmember hchanged.2
  cases after with
  | object given =>
    cases before with
    | object found =>
      rw [changedKeys] at h
      exact members found given hold hvalue h
    | null | bool _ | int _ | real _ | string _ | array _ => cases hold
  | null | bool _ | int _ | real _ | string _ | array _ => cases hvalue

theorem changedKeys_of_not_object {path : String} {before after : Json}
    (h : after.isObject = false) :
    changedKeys path before after = if same before after then [] else [path] := by
  cases after with
  | object members => cases h
  | null | bool _ | int _ | real _ | string _ | array _ => simp [changedKeys]

/-- A leaf that is not listed has the same value. -/
theorem same_of_changedKeys {path : String} {before after : Json} (hleaf : after.isObject = false)
    (h : changedKeys path before after = []) : same before after := by
  rw [changedKeys_of_not_object hleaf] at h
  simpa using h

theorem same_member {path : String} {before after old value : Json}
    (h : changedKeys path before after = []) (key : String) (hold : before.member? key = some old)
    (hvalue : after.member? key = some value) (hleaf : value.isObject = false) : same old value := by
  obtain ⟨inner, hinner⟩ := changedKeys_member h key hold hvalue
  exact same_of_changedKeys hleaf hinner

theorem eq_of_same_int {m n : Nat} (h : same (int m) (int n)) : m = n := by
  simpa [same] using h

theorem eq_of_same_bool {a b : Bool} (h : same (bool a) (bool b)) : a = b := by
  simpa [same] using h

theorem eq_of_same_string {a b : String} (h : same (string a) (string b)) : a = b := by
  simpa [same] using h

theorem beq_of_changedKeys {path : String} {x y : Float} (hy : y.isFinite)
    (h : changedKeys path (ofFloat x) (ofFloat y) = []) : x == y := by
  have hreal : ofFloat y = real y := if_pos hy
  rw [hreal] at h
  have hsame := same_of_changedKeys rfl h
  unfold ofFloat at hsame
  split at hsame
  · simpa [same] using hsame
  · simp [same] at hsame

end Json

namespace Settings

/-- Settings of which no key is listed are the same. -/
theorem sameAs_of_changedKeys {before after : Settings} (hfinite : after.Finite)
    (hvalid : after.validate = .ok ())
    (h : Json.changedKeys "" before.toJson after.toJson = []) : before.SameAs after := by
  obtain ⟨hline, hchar⟩ := positive_of_validate hvalid
  obtain ⟨_, hlineHeight⟩ := Json.changedKeys_member h "line_height" rfl rfl
  obtain ⟨_, hcharWidth⟩ := Json.changedKeys_member h "char_width" rfl rfl
  obtain ⟨_, hfontSize⟩ := Json.changedKeys_member h "font_size" rfl rfl
  obtain ⟨_, hviewport⟩ := Json.changedKeys_member h "viewport" rfl rfl
  obtain ⟨_, hratio⟩ := Json.changedKeys_member hviewport "overscan_ratio" rfl rfl
  obtain ⟨_, htokenization⟩ := Json.changedKeys_member h "tokenization" rfl rfl
  obtain ⟨_, hcursor⟩ := Json.changedKeys_member h "cursor" rfl rfl
  constructor
  · exact Json.eq_of_same_int (Json.same_member h "tab_size" rfl rfl rfl)
  · exact Json.eq_of_same_bool (Json.same_member h "insert_spaces" rfl rfl rfl)
  · exact Or.inr (Json.beq_of_changedKeys hfinite.fontSize hfontSize)
  · exact eq_of_beq_of_positive (Json.beq_of_changedKeys hfinite.lineHeight hlineHeight) hline
  · exact eq_of_beq_of_positive (Json.beq_of_changedKeys hfinite.charWidth hcharWidth) hchar
  · exact Json.eq_of_same_string (Json.same_member h "theme" rfl rfl rfl)
  · exact Json.eq_of_same_int (Json.same_member hviewport "min_overscan" rfl rfl rfl)
  · exact Or.inr (Json.beq_of_changedKeys hfinite.overscanRatio hratio)
  · exact Json.eq_of_same_int (Json.same_member hviewport "settle_window_ms" rfl rfl rfl)
  · exact Json.eq_of_same_int (Json.same_member htokenization "debounce_ms" rfl rfl rfl)
  · exact Json.eq_of_same_int (Json.same_member htokenization "cache_capacity" rfl rfl rfl)
  · exact Json.eq_of_same_int (Json.same_member hcursor "position_cache_capacity" rfl rfl rfl)

/-- A patch that changes no key makes no difference. -/
theorem sameAs_of_patch {settings next : Settings} {change : Json}
    (h : settings.patch change = .ok (next, [])) : settings.SameAs next := by
  unfold patch at h
  split at h
  · cases hread : read (settings.toJson.merge change) with
    | error error =>
      rw [hread] at h
      cases h
    | ok found =>
      rw [hread] at h
      obtain ⟨rfl, hchanged⟩ := Prod.mk.inj (Except.ok.inj h)
      obtain ⟨hfinite, hvalid⟩ := read_ok hread
      exact sameAs_of_changedKeys hfinite hvalid hchanged
  · cases h

end Settings

end HeadlessEditor
