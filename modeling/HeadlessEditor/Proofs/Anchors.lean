import HeadlessEditor.Proofs.EditorState
import HeadlessEditor.Syntax.Token
import Mathlib.Data.List.Forall2

/-!
Anchors follow their text. An edit puts what it inserts in the place of what it deletes, and all that
stands before or behind stays as it is. So a span that is carried across the edit covers what is left of
its characters, with the inserted text among them if the edit was inside. A span goes only if the edit
deletes all of it.
-/

namespace HeadlessEditor

namespace Text

theorem slice_of_le (text : Text) {start stop : Nat} (h : stop ≤ start) :
    text.slice start stop = [] := by
  rw [slice, Nat.sub_eq_zero_of_le h, List.take_zero]

theorem slice_append_left (first second : Text) (start : Nat) {stop : Nat}
    (h : stop ≤ first.length) : (first ++ second).slice start stop = first.slice start stop := by
  by_cases hle : start ≤ first.length
  · rw [slice, slice, List.drop_append_of_le_length hle, List.take_append_of_le_length]
    rw [List.length_drop]
    omega
  · rw [slice_of_le _ (by omega), slice_of_le _ (by omega)]

theorem slice_append_right (first second : Text) (start stop : Nat) :
    (first ++ second).slice (first.length + start) (first.length + stop)
      = second.slice start stop := by
  rw [slice, slice, ← List.drop_drop, List.drop_left, Nat.add_sub_add_left]

theorem slice_append_slice (text : Text) {start middle stop : Nat} (hstart : start ≤ middle)
    (hstop : middle ≤ stop) :
    text.slice start middle ++ text.slice middle stop = text.slice start stop := by
  have hmiddle : text.drop middle = (text.drop start).drop (middle - start) := by
    rw [List.drop_drop]
    congr 1
    omega
  have hlength : stop - start = (middle - start) + (stop - middle) := by omega
  rw [slice, slice, slice, hmiddle, hlength, List.take_add]

end Text

namespace TextEdit

variable {edit : TextEdit} {old new : Text} {start stop : Nat}

/-- The edit makes one text of the other: at its offset, what it deletes gives way to what it
inserts. -/
def Turns (edit : TextEdit) (old new : Text) : Prop :=
  ∃ before after : Text, before.length = edit.offset ∧
    old = before ++ (edit.deleted ++ after) ∧ new = before ++ (edit.inserted ++ after)

namespace Turns

theorem length_eq (h : edit.Turns old new) :
    edit.offset + edit.deleted.length ≤ old.length ∧
    new.length + edit.deleted.length = old.length + edit.inserted.length := by
  obtain ⟨before, after, hbefore, rfl, rfl⟩ := h
  simp only [List.length_append]
  omega

/-- Whoever has the old text and the edit can make the new one. -/
theorem splice_eq (h : edit.Turns old new) :
    old.splice edit.offset (edit.offset + edit.deleted.length) edit.inserted = new := by
  obtain ⟨before, after, hbefore, rfl, rfl⟩ := h
  have hbehind : (before ++ (edit.deleted ++ after)).drop (edit.offset + edit.deleted.length)
      = after := by
    rw [← hbefore, ← List.append_assoc, ← List.length_append, List.drop_left]
  rw [Text.splice, hbehind, ← hbefore, List.take_left, List.append_assoc]

/-- No text is so long that the end of an edit in it is past all offsets. -/
theorem stop_eq (h : edit.Turns old new) (hlength : old.length ≤ maxOffset) :
    edit.stop = edit.offset + edit.deleted.length := by
  have hle := h.length_eq.1
  unfold TextEdit.stop
  omega

theorem slice_before (h : edit.Turns old new) (hstop : stop ≤ edit.offset) :
    new.slice start stop = old.slice start stop := by
  obtain ⟨before, after, hbefore, rfl, rfl⟩ := h
  rw [Text.slice_append_left _ _ _ (by omega), Text.slice_append_left _ _ _ (by omega)]

theorem slice_inserted (h : edit.Turns old new) :
    new.slice edit.offset (edit.offset + edit.inserted.length) = edit.inserted := by
  obtain ⟨before, after, hbefore, rfl, rfl⟩ := h
  have hslice := Text.slice_append_right before (edit.inserted ++ after) 0 edit.inserted.length
  rw [Nat.add_zero, hbefore] at hslice
  rw [hslice]
  simp [Text.slice]

theorem slice_behind (h : edit.Turns old new)
    (hend : edit.stop = edit.offset + edit.deleted.length) (start stop : Nat) :
    new.slice (edit.offset + edit.inserted.length + start)
        (edit.offset + edit.inserted.length + stop)
      = old.slice (edit.stop + start) (edit.stop + stop) := by
  obtain ⟨before, after, hbefore, rfl, rfl⟩ := h
  rw [hend, ← hbefore, ← List.length_append, ← List.length_append, ← List.append_assoc,
    ← List.append_assoc, Text.slice_append_right, Text.slice_append_right]

theorem slice_around (h : edit.Turns old new)
    (hend : edit.stop = edit.offset + edit.deleted.length) (hstart : start ≤ edit.offset)
    (stop : Nat) :
    new.slice start (edit.offset + edit.inserted.length + stop)
      = old.slice start edit.offset ++ edit.inserted ++ old.slice edit.stop (edit.stop + stop) := by
  have hbehind := h.slice_behind hend 0 stop
  rw [Nat.add_zero, Nat.add_zero] at hbehind
  have hfront : new.slice start (edit.offset + edit.inserted.length)
      = old.slice start edit.offset ++ edit.inserted := by
    rw [← Text.slice_append_slice new hstart (Nat.le_add_right _ _), h.slice_before (Nat.le_refl _),
      h.slice_inserted]
  rw [← hbehind, ← hfront, Text.slice_append_slice]
  · omega
  · omega

end Turns

/-- A start goes past the inserted text unless it is before the edit. -/
theorem mapOffset_after (hend : edit.stop = edit.offset + edit.deleted.length) (offset : Nat) :
    edit.mapOffset offset .after =
      if offset < edit.offset then offset
      else edit.offset + edit.inserted.length + (offset - edit.stop) := by
  simp only [mapOffset]
  split
  · rfl
  · split <;> omega

/-- An end goes back to the edit unless it is behind it. -/
theorem mapOffset_before (hend : edit.stop = edit.offset + edit.deleted.length) (offset : Nat) :
    edit.mapOffset offset .before =
      if edit.stop < offset then edit.offset + edit.inserted.length + (offset - edit.stop)
      else min offset edit.offset := by
  simp only [mapOffset]
  split
  · rw [if_neg (by omega)]
    omega
  · split <;> omega

/-- Starts stay in their order. -/
theorem mapOffset_mono (hend : edit.stop = edit.offset + edit.deleted.length) {a b : Nat}
    (h : a ≤ b) : edit.mapOffset a .after ≤ edit.mapOffset b .after := by
  rw [mapOffset_after hend, mapOffset_after hend]
  split <;> split <;> omega

theorem mapOffset_le (hend : edit.stop = edit.offset + edit.deleted.length) (hle : stop ≤ start) :
    edit.mapOffset stop .before ≤ edit.mapOffset start .after := by
  rw [mapOffset_after hend, mapOffset_before hend]
  split <;> split <;> omega

/-- The edit deletes the whole span, which is not empty. -/
def Swallows (edit : TextEdit) (start stop : Nat) : Prop :=
  start < stop ∧ edit.deleted ≠ [] ∧ edit.offset ≤ start ∧ stop ≤ edit.stop

instance (edit : TextEdit) (start stop : Nat) : Decidable (edit.Swallows start stop) :=
  inferInstanceAs (Decidable (_ ∧ _))

/-- The ends of a swallowed span meet past the inserted text. -/
theorem Swallows.meet (h : edit.Swallows start stop) :
    edit.mapOffset start .after
      = max (edit.mapOffset stop .before) (edit.mapOffset start .after) := by
  obtain ⟨hlt, -, hstart, hstop⟩ := h
  simp only [mapOffset]
  rw [if_neg (by omega), if_neg (by omega), if_neg (by omega), if_neg (by omega)]
  omega

theorem mapSpan_eq (edit : TextEdit) (start stop : Nat) :
    edit.mapSpan start stop =
      if edit.Swallows start stop then none
      else some (edit.mapOffset start .after,
        max (edit.mapOffset stop .before) (edit.mapOffset start .after)) := by
  have hdeleted : 0 < edit.deleted.length ↔ edit.deleted ≠ [] := List.length_pos_iff
  unfold mapSpan
  refine ite_congr (propext ?_) (fun _ => rfl) (fun _ => rfl)
  constructor
  · rintro ⟨hlt, -, hpos, hstart, hstop⟩
    exact ⟨hlt, hdeleted.1 hpos, hstart, hstop⟩
  · intro h
    exact ⟨h.1, h.meet, hdeleted.2 h.2.1, h.2.2.1, h.2.2.2⟩

theorem mapSpan_eq_none_iff (edit : TextEdit) (start stop : Nat) :
    edit.mapSpan start stop = none ↔ edit.Swallows start stop := by
  rw [mapSpan_eq]
  split <;> simp [*]

/-- A span that is kept ends on the deleted stretch or before it, or has the edit inside, or is all
that is left of it behind the edit. -/
theorem mapSpan_before (hend : edit.stop = edit.offset + edit.deleted.length)
    (hstart : start < edit.offset) (hstop : stop ≤ edit.stop) (hlt : start < stop) :
    edit.mapSpan start stop = some (start, min stop edit.offset) := by
  have hkept : ¬ edit.Swallows start stop := fun hswallows =>
    absurd hswallows.2.2.1 (Nat.not_le.2 hstart)
  rw [mapSpan_eq, if_neg hkept, mapOffset_after hend, mapOffset_before hend, if_pos hstart,
    if_neg (Nat.not_lt.2 hstop)]
  congr 2
  omega

theorem mapSpan_inside (hend : edit.stop = edit.offset + edit.deleted.length)
    (hstart : start < edit.offset) (hstop : edit.stop < stop) :
    edit.mapSpan start stop
      = some (start, edit.offset + edit.inserted.length + (stop - edit.stop)) := by
  have hkept : ¬ edit.Swallows start stop := fun hswallows =>
    absurd hswallows.2.2.1 (Nat.not_le.2 hstart)
  rw [mapSpan_eq, if_neg hkept, mapOffset_after hend, mapOffset_before hend, if_pos hstart,
    if_pos hstop]
  congr 2
  omega

theorem mapSpan_behind (hend : edit.stop = edit.offset + edit.deleted.length)
    (hstart : edit.offset ≤ start) (hstop : edit.stop < stop) (hlt : start < stop) :
    edit.mapSpan start stop
      = some (edit.offset + edit.inserted.length + (start - edit.stop),
          edit.offset + edit.inserted.length + (stop - edit.stop)) := by
  have hkept : ¬ edit.Swallows start stop := fun hswallows =>
    absurd hswallows.2.2.2 (Nat.not_le.2 hstop)
  rw [mapSpan_eq, if_neg hkept, mapOffset_after hend, mapOffset_before hend,
    if_neg (Nat.not_lt.2 hstart), if_pos hstop]
  congr 2
  omega

/-- What an edit makes of the text of a span: what is left of it before the edit, the inserted text if
the edit is inside the span, and what is left behind the edit. -/
def remnant (edit : TextEdit) (text : Text) (start stop : Nat) : Text :=
  text.slice start (min stop edit.offset)
    ++ (if start < edit.offset ∧ edit.stop < stop then edit.inserted else [])
    ++ text.slice (max start edit.stop) stop

/-- A span that is not swallowed goes to what is left of its text. -/
theorem Turns.mapSpan_kept (h : edit.Turns old new)
    (hend : edit.stop = edit.offset + edit.deleted.length) (hlt : start < stop)
    (hlength : stop ≤ old.length) (hkept : ¬ edit.Swallows start stop) :
    ∃ start' stop', edit.mapSpan start stop = some (start', stop') ∧ start' < stop' ∧
      stop' ≤ new.length ∧ new.slice start' stop' = edit.remnant old start stop := by
  have hsizes := h.length_eq
  by_cases hstop : edit.stop < stop
  · have hpast : edit.stop + (stop - edit.stop) = stop := by omega
    by_cases hstart : start < edit.offset
    · refine ⟨_, _, mapSpan_inside hend hstart hstop, by omega, by omega, ?_⟩
      rw [h.slice_around hend (Nat.le_of_lt hstart), hpast, remnant, if_pos ⟨hstart, hstop⟩,
        Nat.min_eq_right (by omega), Nat.max_eq_right (by omega)]
    · have hmax : edit.stop + (start - edit.stop) = max start edit.stop := by omega
      refine ⟨_, _, mapSpan_behind hend (by omega) hstop hlt, by omega, by omega, ?_⟩
      rw [h.slice_behind hend, hpast, hmax, remnant, if_neg fun hin => hstart hin.1,
        Text.slice_of_le _ (Nat.le_trans (Nat.min_le_right _ _) (Nat.not_lt.1 hstart))]
      rfl
  · have hstart : start < edit.offset := by
      by_cases hdeleted : edit.deleted = []
      · simp only [hdeleted, List.length_nil] at hend
        omega
      · exact Nat.not_le.1 fun hle => hkept ⟨hlt, hdeleted, hle, Nat.not_lt.1 hstop⟩
    refine ⟨_, _, mapSpan_before hend hstart (Nat.not_lt.1 hstop) hlt, by omega, by omega, ?_⟩
    rw [h.slice_before (Nat.min_le_right _ _), remnant, if_neg fun hin => hstop hin.2,
      Text.slice_of_le _ (Nat.le_trans (Nat.not_lt.1 hstop) (Nat.le_max_right _ _)), List.append_nil,
      List.append_nil]

/-- A start in the old text goes to a place of the new one. -/
theorem Turns.mapOffset_le_length (h : edit.Turns old new)
    (hend : edit.stop = edit.offset + edit.deleted.length) {offset : Nat}
    (hoffset : offset ≤ old.length) : edit.mapOffset offset .after ≤ new.length := by
  have hsizes := h.length_eq
  rw [mapOffset_after hend]
  split <;> omega

/-- An empty span stays one. -/
theorem Turns.mapSpan_empty (h : edit.Turns old new)
    (hend : edit.stop = edit.offset + edit.deleted.length) {offset : Nat}
    (hlength : offset ≤ old.length) :
    ∃ offset', edit.mapSpan offset offset = some (offset', offset') ∧ offset' ≤ new.length := by
  have hkept : ¬ edit.Swallows offset offset := fun hswallows => Nat.lt_irrefl _ hswallows.1
  refine ⟨edit.mapOffset offset .after, ?_, h.mapOffset_le_length hend hlength⟩
  rw [mapSpan_eq, if_neg hkept, mapOffset_after hend, mapOffset_before hend]
  congr 2
  split <;> split <;> omega

/-- A span of the old text goes to one of the new text. -/
theorem Turns.mapSpan_le_length (h : edit.Turns old new)
    (hend : edit.stop = edit.offset + edit.deleted.length) (hle : start ≤ stop)
    (hlength : stop ≤ old.length) {span : Nat × Nat} (hspan : edit.mapSpan start stop = some span) :
    span.2 ≤ new.length := by
  rcases Nat.lt_or_eq_of_le hle with hlt | rfl
  · have hkept : ¬ edit.Swallows start stop := by
      rw [← mapSpan_eq_none_iff, hspan]
      exact Option.some_ne_none span
    obtain ⟨start', stop', hspan', -, hlength', -⟩ := h.mapSpan_kept hend hlt hlength hkept
    obtain rfl := Option.some.inj (hspan'.symm.trans hspan)
    exact hlength'
  · obtain ⟨offset', hspan', hlength'⟩ := h.mapSpan_empty hend hlength
    obtain rfl := Option.some.inj (hspan'.symm.trans hspan)
    exact hlength'

end TextEdit

namespace Buffer

theorem clampSpan_le (buffer : Buffer) (start stop : Nat) :
    (buffer.clampSpan start stop).1 ≤ (buffer.clampSpan start stop).2 ∧
    (buffer.clampSpan start stop).2 ≤ buffer.length := by
  simp only [clampSpan]
  omega

/-- The edit that a buffer reports is the one that it makes. -/
theorem Sound.replace_turns {buffer : Buffer} (h : buffer.Sound) (start stop : Nat) (text : Text) :
    (buffer.replace start stop text).2.Turns buffer.content
      (buffer.replace start stop text).1.content := by
  obtain ⟨hle, hlength⟩ := buffer.clampSpan_le start stop
  have hback := Text.splice_slice buffer.content hle
  rw [h.length_eq] at hlength
  simp only [Buffer.replace]
  generalize buffer.clampSpan start stop = span at hle hlength hback ⊢
  refine ⟨buffer.content.take span.1, buffer.content.drop span.2, ?_, ?_, ?_⟩
  · split <;> exact List.length_take_of_le (by omega)
  · rw [← List.append_assoc]
    split <;> exact hback.symm
  · rw [← List.append_assoc]
    split
    · rename_i hnoop
      rw [← eq_of_beq hnoop]
      exact hback.symm
    · rfl

theorem Sound.rangeOf_offsets {buffer : Buffer} (h : buffer.Sound) {start stop : Nat}
    (hle : start ≤ stop) (hlength : stop ≤ buffer.length) :
    (buffer.rangeOf start stop).offsets = (start, stop) := by
  have hstart : buffer.HasPlace (buffer.rangeOf start stop).start := h.hasPlace_positionOf start
  have hstop : buffer.HasPlace (buffer.rangeOf start stop).stop := h.hasPlace_positionOf stop
  obtain ⟨hmin, hmax⟩ := normalized_offsets hstart hstop h
  rw [TextRange.offsets, hmin, hmax]
  simp only [rangeOf, h.positionOf_offset]
  congr 1 <;> omega

end Buffer

/-- The entries that are carried, each beside what it is carried to. -/
theorem forall₂_filterMap {α β : Type} {entries : List α} (carry : α → Option β) (keeps : α → Bool)
    (h : ∀ entry ∈ entries, keeps entry = (carry entry).isSome) :
    List.Forall₂ (fun old new => carry old = some new) (entries.filter keeps)
      (entries.filterMap carry) := by
  induction entries with
  | nil => exact .nil
  | cons entry rest ih =>
    have hrest := ih fun other hother => h other (List.mem_cons_of_mem _ hother)
    have hkeeps := h entry List.mem_cons_self
    cases hcarry : carry entry with
    | none => simpa [List.filterMap_cons, hkeeps, hcarry] using hrest
    | some next => simpa [List.filterMap_cons, hkeeps, hcarry] using hrest

def Decoration.SwallowedBy (decoration : Decoration) (edit : TextEdit) : Prop :=
  edit.Swallows decoration.range.offsets.1 decoration.range.offsets.2

instance (decoration : Decoration) (edit : TextEdit) : Decidable (decoration.SwallowedBy edit) :=
  inferInstanceAs (Decidable (_ ∧ _))

namespace DecorationStore

variable {buffer after : Buffer} {edit : TextEdit}

def Within (store : DecorationStore) (text : Text) : Prop :=
  ∀ entry ∈ store.items.entries, entry.2.range.offsets.1 ≤ entry.2.range.offsets.2 ∧
    entry.2.range.offsets.2 ≤ text.length

theorem carry_eq_none_iff (edit : TextEdit) (after : Buffer) (decoration : Decoration) :
    carry edit after decoration = none ↔ decoration.SwallowedBy edit := by
  rw [carry, Option.map_eq_none_iff, TextEdit.mapSpan_eq_none_iff, Decoration.SwallowedBy]

/-- The ids reported are those of the decorations that are swallowed. -/
theorem mapThroughEdit_removed (store : DecorationStore) (edit : TextEdit) (after : Buffer) :
    (store.mapThroughEdit edit after).2
      = (store.items.entries.filter fun entry => entry.2.SwallowedBy edit).map (·.1) := by
  obtain ⟨lastId, ⟨entries⟩⟩ := store
  simp only [mapThroughEdit, Option.isNone_iff_eq_none, carry_eq_none_iff]
  induction entries with
  | nil => rfl
  | cons entry rest ih =>
    by_cases hswallowed : entry.2.SwallowedBy edit
    · simp [hswallowed, ih]
    · simp [hswallowed, ih]

/-- A decoration of the text that is carried has its range between the places of the carried span. -/
theorem carry_eq_some (hturns : edit.Turns buffer.content after.content) (h : after.Sound)
    (hend : edit.stop = edit.offset + edit.deleted.length) {decoration next : Decoration}
    (hle : decoration.range.offsets.1 ≤ decoration.range.offsets.2)
    (hlength : decoration.range.offsets.2 ≤ buffer.content.length)
    (hcarry : carry edit after decoration = some next) :
    edit.mapSpan decoration.range.offsets.1 decoration.range.offsets.2 = some next.range.offsets ∧
    next = { decoration with
      range := after.rangeOf next.range.offsets.1 next.range.offsets.2 } := by
  obtain ⟨span, hspan, rfl⟩ := Option.map_eq_some_iff.1 hcarry
  have hin := hturns.mapSpan_le_length hend hle hlength hspan
  rw [← h.length_eq] at hin
  have hoffsets := h.rangeOf_offsets (mapSpan_le hspan) hin
  simp only [hoffsets]
  exact ⟨hspan, trivial⟩

/-- A decoration and its entry after an edit that it survives. -/
def Carried (edit : TextEdit) (after : Buffer) (old new : DecorationId × Decoration) : Prop :=
  new.1 = old.1 ∧
  edit.mapSpan old.2.range.offsets.1 old.2.range.offsets.2 = some new.2.range.offsets ∧
  new.2 = { old.2 with range := after.rangeOf new.2.range.offsets.1 new.2.range.offsets.2 }

/-- All other decorations are carried, in their order. -/
theorem mapThroughEdit_carried (hturns : edit.Turns buffer.content after.content) (h : after.Sound)
    (hend : edit.stop = edit.offset + edit.deleted.length) {store : DecorationStore}
    (hwithin : store.Within buffer.content) :
    List.Forall₂ (Carried edit after)
      (store.items.entries.filter fun entry => ¬ entry.2.SwallowedBy edit)
      (store.mapThroughEdit edit after).1.items.entries := by
  have hkeeps : ∀ entry ∈ store.items.entries, decide (¬ entry.2.SwallowedBy edit)
      = ((carry edit after entry.2).map (entry.1, ·)).isSome := by
    intro entry _
    rw [Option.isSome_map, Bool.eq_iff_iff, Option.isSome_iff_ne_none, decide_eq_true_iff, ne_eq,
      carry_eq_none_iff]
  have hpairs := forall₂_filterMap _ _ hkeeps
  have hkept : ∀ entry ∈ store.items.entries.filter fun entry => ¬ entry.2.SwallowedBy edit,
      entry ∈ store.items.entries := fun entry hentry => (List.mem_filter.1 hentry).1
  refine ((List.forall₂_and_left _ _).2 ⟨hkept, hpairs⟩).imp ?_
  rintro old new ⟨hold, hnew⟩
  obtain ⟨next, hcarry, rfl⟩ := Option.map_eq_some_iff.1 hnew
  obtain ⟨hle, hlength⟩ := hwithin old hold
  exact ⟨rfl, carry_eq_some hturns h hend hle hlength hcarry⟩

end DecorationStore

namespace Token

variable {edit : TextEdit} {old new : Text}

def Carried (edit : TextEdit) (old new : Token) : Prop :=
  edit.mapSpan old.start old.stop = some (new.start, new.stop) ∧ new.className = old.className

theorem carried_of_mapThroughEdit {token next : Token}
    (h : token.mapThroughEdit edit = some next) : Carried edit token next := by
  obtain ⟨⟨start, stop⟩, hspan, hnext⟩ := Option.bind_eq_some_iff.1 h
  dsimp only at hnext
  split at hnext
  · obtain rfl := Option.some.inj hnext
    exact ⟨hspan, rfl⟩
  · cases hnext

/-- Tokens stay if they cover something that is not swallowed. -/
theorem mapThroughEdit_isSome_iff (hturns : edit.Turns old new)
    (hend : edit.stop = edit.offset + edit.deleted.length) {token : Token}
    (hlength : token.stop ≤ old.length) :
    (token.mapThroughEdit edit).isSome ↔
      token.start < token.stop ∧ ¬ edit.Swallows token.start token.stop := by
  rw [mapThroughEdit]
  by_cases hlt : token.start < token.stop
  · by_cases hswallowed : edit.Swallows token.start token.stop
    · simp [(edit.mapSpan_eq_none_iff _ _).2 hswallowed, hswallowed]
    · obtain ⟨start', stop', hspan, hlt', -, -⟩ := hturns.mapSpan_kept hend hlt hlength hswallowed
      simp [hspan, hlt', hlt, hswallowed]
  · have hkept : ¬ edit.Swallows token.start token.stop := fun hswallows => hlt hswallows.1
    have hle := TextEdit.mapOffset_le hend (Nat.not_lt.1 hlt)
    simp [TextEdit.mapSpan_eq, hkept, hlt, hle]

theorem mapTokensThroughEdit_carried (hturns : edit.Turns old new)
    (hend : edit.stop = edit.offset + edit.deleted.length) {tokens : List Token}
    (htokens : ∀ token ∈ tokens, token.stop ≤ old.length) :
    List.Forall₂ (Carried edit)
      (tokens.filter fun token =>
        token.start < token.stop ∧ ¬ edit.Swallows token.start token.stop)
      (mapTokensThroughEdit tokens edit) := by
  have hkeeps : ∀ token ∈ tokens,
      decide (token.start < token.stop ∧ ¬ edit.Swallows token.start token.stop)
        = (token.mapThroughEdit edit).isSome := by
    intro token htoken
    rw [Bool.eq_iff_iff, mapThroughEdit_isSome_iff hturns hend (htokens token htoken),
      decide_eq_true_iff]
  have hpairs := forall₂_filterMap _ _ hkeeps
  exact hpairs.imp fun _ _ => carried_of_mapThroughEdit

end Token

structure TextEdit.CarriesAnchors (edit : TextEdit) (buffer after : Buffer) : Prop where
  /-- A span is given up if all of it is deleted. -/
  gone : ∀ start stop, start < stop → stop ≤ buffer.content.length →
    (edit.mapSpan start stop = none ↔
      edit.deleted ≠ [] ∧ edit.offset ≤ start ∧ stop ≤ edit.stop)
  /-- Any other span goes to what is left of its text. -/
  kept : ∀ start stop, start < stop → stop ≤ buffer.content.length →
    ¬ (edit.deleted ≠ [] ∧ edit.offset ≤ start ∧ stop ≤ edit.stop) →
    ∃ start' stop', edit.mapSpan start stop = some (start', stop') ∧ start' < stop' ∧
      stop' ≤ after.content.length ∧
      after.content.slice start' stop' = edit.remnant buffer.content start stop
  /-- The decorations on spans that are given up are dropped and reported, in the order of the store. -/
  removed : ∀ store : DecorationStore,
    (store.mapThroughEdit edit after).2
      = (store.items.entries.filter fun entry => entry.2.SwallowedBy edit).map (·.1)
  /-- The others stay, each with its range on the carried span. -/
  decorations : ∀ store : DecorationStore, store.Within buffer.content →
    List.Forall₂ (DecorationStore.Carried edit after)
      (store.items.entries.filter fun entry => ¬ entry.2.SwallowedBy edit)
      (store.mapThroughEdit edit after).1.items.entries
  /-- Of the tokens, those that cover something do the same. -/
  tokens : ∀ tokens : List Token, (∀ token ∈ tokens, token.stop ≤ buffer.content.length) →
    List.Forall₂ (Token.Carried edit)
      (tokens.filter fun token =>
        token.start < token.stop ∧ ¬ edit.Swallows token.start token.stop)
      (mapTokensThroughEdit tokens edit)

namespace Buffer

/-- Every edit of a buffer carries spans, decorations and tokens with their text. The length of the text
must be an offset that can be named, as it is for every text that there is room for. -/
theorem Sound.carriesAnchors {buffer : Buffer} (h : buffer.Sound)
    (hlength : buffer.content.length ≤ maxOffset) (start stop : Nat) (text : Text) :
    (buffer.replace start stop text).2.CarriesAnchors buffer
      (buffer.replace start stop text).1 := by
  have hturns := h.replace_turns start stop text
  have hend := hturns.stop_eq hlength
  constructor
  · intro first last hlt _
    rw [TextEdit.mapSpan_eq_none_iff]
    exact ⟨And.right, And.intro hlt⟩
  · intro first last hlt hlast hkept
    exact hturns.mapSpan_kept hend hlt hlast fun hswallows => hkept hswallows.2
  · intro store
    exact store.mapThroughEdit_removed _ _
  · intro store hwithin
    exact DecorationStore.mapThroughEdit_carried hturns (h.replace start stop text) hend hwithin
  · intro tokens htokens
    exact Token.mapTokensThroughEdit_carried hturns hend htokens

/-- So it is in every document, whatever was done to it before. -/
theorem replace_carriesAnchors (loaded : Text) (operations : List BufferOperation)
    (start stop : Nat) (text : Text)
    (hlength : ((load loaded).performAll operations).content.length ≤ maxOffset) :
    let buffer := (load loaded).performAll operations
    (buffer.replace start stop text).2.CarriesAnchors buffer (buffer.replace start stop text).1 :=
  ((sound_load loaded).performAll operations).carriesAnchors hlength start stop text

/-- The two characters in the middle of a text give way to another one. -/
theorem replace_carriesAnchors_middle :
    let buffer := (load ['a', 'd']).performAll [.insert 1 ['b', 'c']]
    let result := buffer.replace 1 3 ['x']
    buffer.content.length ≤ maxOffset ∧ result.2.CarriesAnchors buffer result.1 ∧
    result.2.mapSpan 1 3 = none ∧ result.2.mapSpan 0 4 = some (0, 3) ∧
    result.2.remnant buffer.content 0 4 = ['a', 'x', 'd'] :=
  ⟨by decide, replace_carriesAnchors ['a', 'd'] [.insert 1 ['b', 'c']] 1 3 ['x'] (by decide),
    by decide, by decide, by decide⟩

end Buffer

end HeadlessEditor
