import HeadlessEditor.Proofs.LineCuts
import HeadlessEditor.Proofs.OffsetRange

/-!
Edits within a line. Where neither the deleted nor the inserted text has a newline, the lines above the
edit stay where they are and those below are moved as a whole. The tokens are carried in the same way,
unless an end of one is pushed out of the machine numbers, so that their pieces on all other lines stay
as they were, and only the line of the edit is drawn again.
-/

namespace HeadlessEditor

theorem lineOffset_append_of_le {above : List Text} {line : Nat} (h : line ≤ above.length)
    (rest : List Text) : lineOffset (above ++ rest) line = lineOffset above line := by
  induction above generalizing line with
  | nil =>
    obtain rfl := Nat.le_zero.1 h
    simp
  | cons first others ih =>
    cases line with
    | zero => rfl
    | succ line => simp [ih (Nat.le_of_succ_le_succ h)]

theorem lineOffset_append_add (above rest : List Text) (line : Nat) :
    lineOffset (above ++ rest) (above.length + line)
      = lineOffset above above.length + lineOffset rest line := by
  induction above with
  | nil => simp
  | cons first others ih =>
    have hlength : (first :: others).length + line = (others.length + line) + 1 := by
      rw [List.length_cons]
      omega
    rw [hlength, List.cons_append, lineOffset_cons_succ, ih, List.length_cons, lineOffset_cons_succ]
    omega

theorem LineTable.totalLength_concat (above : List Text) (last : Text) :
    totalLength (above ++ [last]) = lineOffset above above.length + last.length := by
  have hbelow : lineOffset (above ++ [last]) (above ++ [last]).length
      = totalLength (above ++ [last]) + 1 := lineOffset_length (by simp)
  rw [List.length_append, lineOffset_append_add] at hbelow
  simp only [List.length_singleton, lineOffset_cons_succ, lineOffset_zero] at hbelow
  omega

namespace Text

/-- The last line of the first text and the first line of the second become one. -/
theorem lines_append {front back : Text} {above below : List Text} {last first : Text}
    (hfront : lines front = above ++ [last]) (hback : lines back = first :: below) :
    lines (front ++ back) = above ++ (last ++ first) :: below := by
  induction front generalizing above last with
  | nil =>
    obtain ⟨rfl, rfl⟩ : above = [] ∧ last = [] := by
      cases above with
      | nil => simpa using hfront
      | cons line others => simp at hfront
    exact hback
  | cons c rest ih =>
    by_cases hc : c = '\n'
    · subst hc
      rw [lines_newline] at hfront
      cases above with
      | nil => simp [lines_ne_nil] at hfront
      | cons line others =>
        obtain ⟨rfl, hrest⟩ := List.cons.inj hfront
        rw [List.cons_append, lines_newline, ih hrest]
        rfl
    · obtain ⟨line, others, hrest, hcons⟩ := lines_cons_of_ne hc rest
      rw [hcons] at hfront
      obtain ⟨line', others', hrest', hcons'⟩ := lines_cons_of_ne hc (rest ++ back)
      rw [List.cons_append, hcons']
      cases above with
      | nil =>
        obtain ⟨rfl, rfl⟩ : c :: line = last ∧ others = [] := by simpa using hfront
        have hnone : lines rest = [] ++ [line] := hrest
        rw [ih hnone] at hrest'
        obtain ⟨rfl, rfl⟩ := List.cons.inj hrest'
        rfl
      | cons upper lower =>
        obtain ⟨rfl, rfl⟩ := List.cons.inj hfront
        have hsome : lines rest = (line :: lower) ++ [last] := hrest
        rw [ih hsome] at hrest'
        obtain ⟨rfl, rfl⟩ := List.cons.inj hrest'
        rfl

/-- A text without newlines stands in front of the first line. -/
theorem lines_append_of_notMem {front back : Text} {below : List Text} {first : Text}
    (hfront : '\n' ∉ front) (hback : lines back = first :: below) :
    lines (front ++ back) = (front ++ first) :: below := by
  induction front with
  | nil => exact hback
  | cons c rest ih =>
    obtain ⟨hc, hrest⟩ := not_or.1 (mt List.mem_cons.2 hfront)
    simp [lines, Ne.symm hc, ih hrest]

/-- With a newline between, the lines of two texts follow each other. -/
theorem lines_append_newline (a b : Text) : lines (a ++ '\n' :: b) = lines a ++ lines b := by
  obtain ⟨above, last, habove⟩ : ∃ above last, lines a = above ++ [last] :=
    ⟨_, _, (List.dropLast_append_getLast a.lines_ne_nil).symm⟩
  rw [lines_append habove (lines_newline b), habove]
  simp

end Text

/-- The lines of two texts that differ in one line, below `above` and at the characters between `head`
and `tail`. -/
structure TextEdit.WithinLine (edit : TextEdit) (old new : List Text) (above : List Text)
    (head tail : Text) (below : List Text) : Prop where
  old : old = above ++ (head ++ (edit.deleted ++ tail)) :: below
  new : new = above ++ (head ++ (edit.inserted ++ tail)) :: below
  offset : lineOffset above above.length + head.length = edit.offset

namespace TextEdit

variable {edit : TextEdit} {old new : Text}

theorem Turns.withinLine (h : edit.Turns old new) (hdeleted : '\n' ∉ edit.deleted)
    (hinserted : '\n' ∉ edit.inserted) :
    ∃ above head tail below, edit.WithinLine old.lines new.lines above head tail below := by
  obtain ⟨before, after, hbefore, rfl, rfl⟩ := h
  obtain ⟨above, head, habove⟩ : ∃ above head, before.lines = above ++ [head] :=
    ⟨_, _, (List.dropLast_append_getLast before.lines_ne_nil).symm⟩
  obtain ⟨tail, below, hbelow⟩ := List.exists_cons_of_ne_nil after.lines_ne_nil
  refine ⟨above, head, tail, below, ?_, ?_, ?_⟩
  · have hmiddle : (edit.deleted ++ after).lines = (edit.deleted ++ tail) :: below :=
      Text.lines_append_of_notMem hdeleted hbelow
    exact Text.lines_append habove hmiddle
  · have hmiddle : (edit.inserted ++ after).lines = (edit.inserted ++ tail) :: below :=
      Text.lines_append_of_notMem hinserted hbelow
    exact Text.lines_append habove hmiddle
  · have hlength := before.totalLength_lines
    rw [habove, LineTable.totalLength_concat, hbefore] at hlength
    exact hlength

variable {oldLines newLines above below : List Text} {head tail : Text}

namespace WithinLine

theorem length_eq (h : edit.WithinLine oldLines newLines above head tail below) :
    newLines.length = oldLines.length := by
  rw [h.old, h.new]
  simp

/-- The place of the edit is on the line that changes. -/
theorem positionOf_line (h : edit.WithinLine oldLines newLines above head tail below) :
    (Position.ofOffset edit.offset oldLines).line = above.length := by
  have hline : above.length < oldLines.length := by
    rw [h.old]
    simp
  have hoffset := lineOffset_append_add above ((head ++ (edit.deleted ++ tail)) :: below) 0
  rw [Nat.add_zero, lineOffset_zero, Nat.add_zero, ← h.old] at hoffset
  have hcolumn : head.length ≤ oldLines[above.length].length := by
    simp [h.old]
  have hplace := Position.ofOffset_lineOffset_add oldLines above.length head.length hline hcolumn
  rw [hoffset, h.offset] at hplace
  rw [hplace]

/-- A line above is where it was, and ends before the edit. -/
theorem above_line (h : edit.WithinLine oldLines newLines above head tail below) {line : Nat}
    (hline : line < above.length) :
    let old := LineTable.ofLines oldLines
    let new := LineTable.ofLines newLines
    new.lineStart line = old.lineStart line ∧ new.lineLength line = old.lineLength line ∧
    old.lineStart line + old.lineLength line < edit.offset := by
  intro old new
  have hold : line < oldLines.length := by
    rw [h.old, List.length_append]
    omega
  have hnew : line < newLines.length := by
    rw [h.length_eq]
    exact hold
  have hbefore := lineOffset_add_length_lt above hline
  have hoffset := h.offset
  rw [LineTable.lineStart_ofLines _ _ hold, LineTable.lineStart_ofLines _ _ hnew,
    LineTable.lineLength_ofLines, LineTable.lineLength_ofLines, h.old, h.new,
    lineOffset_append_of_le (Nat.le_of_lt hline), lineOffset_append_of_le (Nat.le_of_lt hline),
    List.getElem?_append_left hline, List.getElem?_append_left hline, List.getElem?_eq_getElem hline]
  refine ⟨rfl, rfl, ?_⟩
  rw [Option.getD_some]
  omega

/-- A line below is as far behind the inserted text as it was behind the deleted one. -/
theorem below_line (h : edit.WithinLine oldLines newLines above head tail below) {line : Nat}
    (habove : above.length < line) (hline : line < oldLines.length) :
    let old := LineTable.ofLines oldLines
    let new := LineTable.ofLines newLines
    ∃ distance, 0 < distance ∧
      old.lineStart line = edit.offset + edit.deleted.length + distance ∧
      new.lineStart line = edit.offset + edit.inserted.length + distance ∧
      new.lineLength line = old.lineLength line := by
  intro old new
  obtain ⟨index, rfl⟩ : ∃ index, line = above.length + (index + 1) :=
    ⟨line - above.length - 1, by omega⟩
  have hnew : above.length + (index + 1) < newLines.length := by
    rw [h.length_eq]
    exact hline
  have hoffset := h.offset
  refine ⟨tail.length + 1 + lineOffset below index, by omega, ?_, ?_, ?_⟩
  · rw [LineTable.lineStart_ofLines _ _ hline, h.old, lineOffset_append_add, lineOffset_cons_succ,
      List.length_append, List.length_append]
    omega
  · rw [LineTable.lineStart_ofLines _ _ hnew, h.new, lineOffset_append_add, lineOffset_cons_succ,
      List.length_append, List.length_append]
    omega
  · rw [LineTable.lineLength_ofLines, LineTable.lineLength_ofLines, h.old, h.new]
    simp [List.getElem?_append_right]

end WithinLine

end TextEdit

namespace Token

variable {edit : TextEdit} {start length : Nat}

/-- A token is carried if its ends do not meet; swallowed ones do. -/
theorem mapThroughEdit_eq (edit : TextEdit) (token : Token) :
    token.mapThroughEdit edit =
      if edit.mapOffset token.start .after < edit.mapOffset token.stop .before then
        some ⟨edit.mapOffset token.start .after, edit.mapOffset token.stop .before, token.className⟩
      else none := by
  rw [mapThroughEdit, TextEdit.mapSpan_eq]
  by_cases hswallowed : edit.Swallows token.start token.stop
  · have hmeet := hswallowed.meet
    rw [if_pos hswallowed, if_neg (by omega)]
    rfl
  · rw [if_neg hswallowed]
    simp only [Option.bind_some]
    by_cases hlt : edit.mapOffset token.start .after < edit.mapOffset token.stop .before
    · rw [if_pos (by omega), if_pos hlt, Nat.max_eq_left (Nat.le_of_lt hlt)]
    · rw [if_neg (by omega), if_neg hlt]

theorem Ascending.mapThroughEdit (hend : edit.stop = edit.offset + edit.deleted.length)
    {tokens : List Token} (h : Ascending tokens) : Ascending (mapTokensThroughEdit tokens edit) := by
  apply List.Pairwise.filterMap _ _ h
  intro a b hle a' ha b' hb
  rw [mapThroughEdit_eq] at ha hb
  obtain ⟨-, ha⟩ := Option.ite_none_right_eq_some.1 ha
  obtain ⟨-, hb⟩ := Option.ite_none_right_eq_some.1 hb
  obtain rfl := Option.some.inj ha
  obtain rfl := Option.some.inj hb
  exact TextEdit.mapOffset_mono hend hle

/-- What a token covers of a line depends on nothing but the columns of its ends there. -/
theorem bind_clip_eq (token : Token) {start stop start' stop' first last : Nat}
    (hstart : min first stop' - start' = min token.start stop - start)
    (hstop : min last stop' - start' = min token.stop stop - start) :
    (if first < last then some (⟨first, last, token.className⟩ : Token) else none).bind
      (·.clip start' stop') = token.clip start stop := by
  by_cases hlt : first < last
  · rw [if_pos hlt, Option.bind_some, clip, clip]
    dsimp only
    split <;> split
    · congr 2
      omega
    · omega
    · omega
    · rfl
  · rw [if_neg hlt, clip, if_neg (by omega)]
    rfl

/-- On a line above the edit a carried token covers what it did: an end that moves is behind the line
before and after. -/
theorem clip_above (hend : edit.stop = edit.offset + edit.deleted.length) (token : Token)
    {stop : Nat} (h : stop < edit.offset) :
    (token.mapThroughEdit edit).bind (·.clip start stop) = token.clip start stop := by
  rw [mapThroughEdit_eq, TextEdit.mapOffset_after hend, TextEdit.mapOffset_before hend]
  apply bind_clip_eq
  · split <;> omega
  · split <;> omega

/-- On a line below it covers the same columns of the line, which is moved with it: an end behind the edit
moves with the line as well, and any other one is above the line. -/
theorem clip_below (hend : edit.stop = edit.offset + edit.deleted.length) (token : Token)
    {distance : Nat} (h : 0 < distance) :
    (token.mapThroughEdit edit).bind
        (·.clip (edit.offset + edit.inserted.length + distance)
          (edit.offset + edit.inserted.length + distance + length))
      = token.clip (edit.offset + edit.deleted.length + distance)
          (edit.offset + edit.deleted.length + distance + length) := by
  rw [mapThroughEdit_eq, TextEdit.mapOffset_after hend, TextEdit.mapOffset_before hend]
  apply bind_clip_eq
  · split <;> omega
  · split <;> omega

theorem cutLine_above (hend : edit.stop = edit.offset + edit.deleted.length) (tokens : List Token)
    (h : start + length < edit.offset) :
    cutLine (mapTokensThroughEdit tokens edit) start length = cutLine tokens start length := by
  rw [cutLine, mapTokensThroughEdit, List.filterMap_filterMap]
  exact List.filterMap_congr fun token _ => clip_above hend token h

theorem cutLine_below (hend : edit.stop = edit.offset + edit.deleted.length) (tokens : List Token)
    {distance : Nat} (h : 0 < distance) :
    cutLine (mapTokensThroughEdit tokens edit) (edit.offset + edit.inserted.length + distance) length
      = cutLine tokens (edit.offset + edit.deleted.length + distance) length := by
  rw [cutLine, mapTokensThroughEdit, List.filterMap_filterMap]
  exact List.filterMap_congr fun token _ => clip_below hend token h

end Token

namespace TokenProjection

open Token

variable {edit : TextEdit} {oldLines newLines above below : List Text} {head tail : Text}

/-- The entry of each other line is what it was. -/
theorem getElem?_lines_project (h : edit.WithinLine oldLines newLines above head tail below)
    (hend : edit.stop = edit.offset + edit.deleted.length) {tokens : List Token}
    (htokens : Ascending tokens) (earlier previous : List (List LineToken)) {line : Nat}
    (hline : line < newLines.length) (hother : line ≠ above.length) :
    (project (mapTokensThroughEdit tokens edit) (.ofLines newLines) previous).lines[line]?
      = (project tokens (.ofLines oldLines) earlier).lines[line]? := by
  have hold : line < oldLines.length := by
    rw [← h.length_eq]
    exact hline
  have hcountOld := LineTable.lineCount_ofLines oldLines (List.ne_nil_of_length_pos (by omega))
  have hcountNew := LineTable.lineCount_ofLines newLines (List.ne_nil_of_length_pos (by omega))
  rw [lines_project, lines_project, hcountOld, hcountNew, List.getElem?_map, List.getElem?_map,
    List.getElem?_range hline, List.getElem?_range hold, sorted_of_ascending htokens,
    sorted_of_ascending (htokens.mapThroughEdit hend), Option.map_some, Option.map_some]
  congr 1
  rcases Nat.lt_or_gt_of_ne hother with habove | hbelow
  · obtain ⟨hstart, hlength, hends⟩ := h.above_line habove
    rw [hstart, hlength]
    exact cutLine_above hend tokens hends
  · obtain ⟨distance, hpos, hstart, hstart', hlength⟩ := h.below_line hbelow hold
    rw [hstart, hstart', hlength]
    exact cutLine_below hend tokens hpos

end TokenProjection

namespace Buffer

open Token

/-- With the tokens where they should go, at most the edited line is drawn again. -/
theorem Sound.repaints {buffer : Buffer} (hsound : buffer.Sound) (start stop : Nat) (text : Text)
    (tokens : List Token) (earlier : List (List LineToken))
    (hlength : buffer.content.length ≤ maxOffset) (htokens : Ascending tokens)
    (hdeleted : '\n' ∉ (buffer.replace start stop text).2.deleted)
    (hinserted : '\n' ∉ (buffer.replace start stop text).2.inserted) :
    let after := (buffer.replace start stop text).1
    let edit := (buffer.replace start stop text).2
    let old := TokenProjection.project tokens buffer.table earlier
    let new := TokenProjection.project (mapTokensThroughEdit tokens edit) after.table old.lines
    let line := (buffer.positionOf edit.offset).line
    new.lines.length = after.lineCount ∧ new.changed ⊆ [line] ∧
    ∀ other < after.lineCount, other ≠ line →
      other ∈ new.kept ∧ new.lines[other]? = old.lines[other]? := by
  intro after edit old new line
  have hafter : after.Sound := hsound.replace start stop text
  have hturns : edit.Turns buffer.content after.content := hsound.replace_turns start stop text
  obtain ⟨above, head, tail, below, hwithin⟩ := hturns.withinLine hdeleted hinserted
  rw [← hsound.lines, ← hafter.lines] at hwithin
  have hline : line = above.length := by
    have hplace := hwithin.positionOf_line
    rwa [← hsound.positionOf_eq] at hplace
  have hnew : new = TokenProjection.project (mapTokensThroughEdit tokens edit)
      (.ofLines after.lines) old.lines := by
    rw [← hafter.table]
  have hold : old = TokenProjection.project tokens (.ofLines buffer.lines) earlier := by
    rw [← hsound.table]
  have hcount : new.lines.length = after.lineCount := by
    rw [hnew, TokenProjection.lines_project, List.length_map, List.length_range,
      LineTable.lineCount_ofLines _ hafter.lines_ne_nil, lineCount]
  have hentries : ∀ other < after.lineCount, other ≠ line → new.lines[other]? = old.lines[other]? := by
    intro other hother hne
    rw [hline] at hne
    rw [hnew, hold]
    exact TokenProjection.getElem?_lines_project hwithin (hturns.stop_eq hlength) htokens earlier _
      hother hne
  refine ⟨hcount, fun changed hchanged => ?_, fun other hother hne => ?_⟩
  · have hmem : changed ∈ new.changed := hchanged
    rw [hnew, TokenProjection.changed_project, ← hnew, List.mem_filter, List.mem_range, hcount] at hmem
    obtain ⟨hlt, hdiffers⟩ := hmem
    by_contra hne
    have hsame := hentries changed hlt (by simpa using hne)
    simp [hsame] at hdiffers
  · have hsame := hentries other hother hne
    refine ⟨?_, hsame⟩
    rw [hnew, TokenProjection.kept_project, ← hnew, List.mem_filter, List.mem_range, hcount]
    exact ⟨hother, by simp [hsame]⟩

/-- In every document, whatever was done to it before, an edit within a line has at most that line drawn
again, if the tokens are in the order of their starts; every other line keeps its entry. Carrying the
tokens leaves the machine numbers if and only if an end of one is pushed out. The lengths of the texts
must be offsets that can be named, as they are for every text that there is room for. -/
theorem edited_line_repainted (loaded : Text) (operations : List BufferOperation)
    (start stop : Nat) (text : Text) (tokens : List Token) (earlier : List (List LineToken))
    (hold : ((load loaded).performAll operations).content.length ≤ maxOffset)
    (hnew : (((load loaded).performAll operations).replace start stop text).1.content.length
      ≤ maxOffset)
    (htokens : Ascending tokens) (hrange : ∀ token ∈ tokens, token.InRange)
    (hdeleted : '\n' ∉ (((load loaded).performAll operations).replace start stop text).2.deleted)
    (hinserted : '\n' ∉ (((load loaded).performAll operations).replace start stop text).2.inserted) :
    let buffer := (load loaded).performAll operations
    let after := (buffer.replace start stop text).1
    let edit := (buffer.replace start stop text).2
    let old := TokenProjection.project tokens buffer.table earlier
    let line := (buffer.positionOf edit.offset).line
    (mapTokensThroughEdit? edit tokens = none ↔ ∃ token ∈ tokens, token.PushedOut edit) ∧
    ∀ carried, mapTokensThroughEdit? edit tokens = some carried →
      let new := TokenProjection.project carried after.table old.lines
      new.lines.length = after.lineCount ∧ new.changed ⊆ [line] ∧
      ∀ other < after.lineCount, other ≠ line →
        other ∈ new.kept ∧ new.lines[other]? = old.lines[other]? := by
  intro buffer after edit old line
  have hsound : buffer.Sound := (sound_load loaded).performAll operations
  have hcarries := hsound.carriesMachineTokens start stop text hold hnew
  have hfails := hcarries.fails tokens hrange
  refine ⟨hfails, fun carried hcarried => ?_⟩
  have hkept : ∀ token ∈ tokens, ¬ token.PushedOut edit := by
    intro token htoken hout
    have hnone := hfails.2 ⟨token, htoken, hout⟩
    rw [hnone] at hcarried
    cases hcarried
  obtain ⟨hexact, -⟩ := hcarries.works tokens hrange hkept
  obtain rfl : mapTokensThroughEdit tokens edit = carried :=
    Option.some.inj (hexact.symm.trans hcarried)
  exact hsound.repaints start stop text tokens earlier hold htokens hdeleted hinserted

/-- A token runs over all three lines, and one on the line in the middle gives way to another text. -/
theorem edited_line_repainted_middle :
    let buffer := (load ['a', 'b', '\n', 'c', 'd']).performAll [.insert 5 ['\n', 'e']]
    let tokens : List Token := [⟨0, 7, "comment"⟩, ⟨3, 4, "word"⟩]
    let after := (buffer.replace 3 4 ['x', 'y']).1
    let edit := (buffer.replace 3 4 ['x', 'y']).2
    let old := TokenProjection.project tokens buffer.table []
    let carried : List Token := [⟨0, 8, "comment"⟩]
    let new := TokenProjection.project carried after.table old.lines
    let line := (buffer.positionOf edit.offset).line
    buffer.content.length ≤ maxOffset ∧ after.content.length ≤ maxOffset ∧ Ascending tokens ∧
    (∀ token ∈ tokens, token.InRange) ∧ '\n' ∉ edit.deleted ∧ '\n' ∉ edit.inserted ∧
    after.lineCount = 3 ∧ line = 1 ∧ mapTokensThroughEdit? edit tokens = some carried ∧
    new.lines.length = after.lineCount ∧ new.changed ⊆ [line] ∧
    ∀ other < after.lineCount, other ≠ line →
      other ∈ new.kept ∧ new.lines[other]? = old.lines[other]? :=
  have hcarried : mapTokensThroughEdit?
      (((load ['a', 'b', '\n', 'c', 'd']).performAll [.insert 5 ['\n', 'e']]).replace 3 4
        ['x', 'y']).2 [⟨0, 7, "comment"⟩, ⟨3, 4, "word"⟩] = some [⟨0, 8, "comment"⟩] := by
    decide
  ⟨by decide, by decide, by simp [Ascending], by decide, by decide, by decide, by decide, by decide,
    hcarried,
    (edited_line_repainted ['a', 'b', '\n', 'c', 'd'] [.insert 5 ['\n', 'e']] 3 4 ['x', 'y']
      [⟨0, 7, "comment"⟩, ⟨3, 4, "word"⟩] [] (by decide) (by decide) (by simp [Ascending])
      (by decide) (by decide) (by decide)).2 _ hcarried⟩

/-- A token that ends at the last offset, and a character put in before it: there are no tokens to cut
into lines. -/
theorem one_line_edit_overflows :
    let buffer := load ['a', '\n', 'b']
    let edit := (buffer.replace 0 0 ['c']).2
    let tokens : List Token := [⟨0, maxOffset, "x"⟩]
    Ascending tokens ∧ (∀ token ∈ tokens, token.InRange) ∧ edit.isNoop = false ∧
    '\n' ∉ edit.deleted ∧ '\n' ∉ edit.inserted ∧ mapTokensThroughEdit? edit tokens = none :=
  ⟨by simp [Ascending], by decide, by decide, by decide, by decide, by decide⟩

end Buffer

end HeadlessEditor
