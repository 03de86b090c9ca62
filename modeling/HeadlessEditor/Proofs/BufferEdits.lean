import HeadlessEditor.Proofs.Places
import HeadlessEditor.Text.Bytes

/-!
What an edit of a buffer does to its text, counted in characters and in bytes. Offsets count
characters, while a text that is stored as UTF-8 is cut at byte indices. The byte index of an offset is
the length of the encoded text before it, so cutting the bytes there and cutting the characters at the
offset come to the same, whatever the width of the characters.
-/

namespace HeadlessEditor

namespace Text

/-- Cutting into lines is splitting at the newlines. -/
theorem lines_eq_splitOn (text : Text) : lines text = text.splitOn '\n' := by
  induction text with
  | nil => rfl
  | cons c rest ih =>
    rw [List.splitOn, List.splitOnP_cons_eq_if_modifyHead, ← List.splitOn, ← ih]
    by_cases h : c = '\n'
    · simp [h]
    · obtain ⟨first, others, hrest, hcons⟩ := lines_cons_of_ne h rest
      simp [h, hrest, hcons]

theorem slice_eq (text : Text) (start stop : Nat) :
    text.slice start stop = (text.take stop).drop start := by
  rw [slice, List.drop_take]

end Text

namespace Buffer

variable {buffer : Buffer}

theorem Sound.clampSpan_eq (h : buffer.Sound) (x y : Nat) :
    buffer.clampSpan x y
      = (min (min x y) buffer.content.length, min (max x y) buffer.content.length) := by
  simp only [clampSpan, h.length_eq, Prod.mk.injEq]
  omega

structure Exact (buffer : Buffer) : Prop where
  lines : buffer.lines = buffer.content.splitOn '\n'
  someLine : buffer.lines ≠ []
  table : buffer.table = LineTable.ofLines buffer.lines
  length : buffer.length = buffer.content.length

theorem Sound.exact (h : buffer.Sound) : buffer.Exact where
  lines := h.lines.trans (Text.lines_eq_splitOn _)
  someLine := h.lines_ne_nil
  table := h.table
  length := h.length_eq

/-- What an edit between offsets `a ≤ b` leaves: the text outside of them, the new one between, one
version later; or the buffer as it was, if the new text is the old one. -/
structure Exchanges (before after : Buffer) (a b : Nat) (deleted inserted : Text) : Prop where
  content : after.content = before.content.take a ++ inserted ++ before.content.drop b
  same : deleted = inserted → after = before
  version : deleted ≠ inserted → after.version = before.version + 1

/-- The same in bytes: what is cut out of the stored text and put into it between the byte indices of
`a` and `b`, which are in order and inside of it. -/
structure ExchangesBytes (before after : Buffer) (a b : Nat) (deleted inserted : Text) : Prop where
  ordered : before.content.byteIndex a ≤ before.content.byteIndex b
  inside : before.content.byteIndex b ≤ before.content.utf8.length
  deleted : deleted.utf8 =
    (before.content.utf8.take (before.content.byteIndex b)).drop (before.content.byteIndex a)
  content : after.content.utf8 =
    before.content.utf8.take (before.content.byteIndex a) ++ inserted.utf8
      ++ before.content.utf8.drop (before.content.byteIndex b)

/-- Bytes are exchanged where characters are. -/
theorem Exchanges.bytes {before after : Buffer} {a b : Nat} {inserted : Text} (hab : a ≤ b)
    (h : before.Exchanges after a b ((before.content.take b).drop a) inserted) :
    before.ExchangesBytes after a b ((before.content.take b).drop a) inserted where
  ordered := Text.byteIndex_mono _ hab
  inside := Text.byteIndex_le _ _
  deleted := (Text.slice_byteIndex _ hab).symm
  content := by
    rw [h.content, Text.utf8_append, Text.utf8_append, Text.take_byteIndex, Text.drop_byteIndex]

theorem Sound.replace_eq (h : buffer.Sound) (x y : Nat) (text : Text) :
    let a := min (min x y) buffer.content.length
    let b := min (max x y) buffer.content.length
    (buffer.replace x y text).2
      = ⟨a, (buffer.content.take b).drop a, LineEnding.normalize text⟩ := by
  simp only [Buffer.replace, h.clampSpan_eq, Text.slice_eq]
  split <;> rfl

theorem Sound.replace_exchanges (h : buffer.Sound) (x y : Nat) (text : Text) :
    let a := min (min x y) buffer.content.length
    let b := min (max x y) buffer.content.length
    buffer.Exchanges (buffer.replace x y text).1 a b ((buffer.content.take b).drop a)
      (LineEnding.normalize text) := by
  intro a b
  have hab : a ≤ b := by omega
  have hcontent : (buffer.replace x y text).1.content
      = buffer.content.take a ++ LineEnding.normalize text ++ buffer.content.drop b := by
    simp only [Buffer.replace, h.clampSpan_eq]
    split
    · rename_i hnoop
      have hsame : buffer.content.slice a b = LineEnding.normalize text := eq_of_beq hnoop
      rw [← hsame]
      exact (Text.splice_slice buffer.content hab).symm
    · rfl
  constructor
  · exact hcontent
  · intro hsame
    simp only [Buffer.replace, h.clampSpan_eq, TextEdit.isNoop, Text.slice_eq]
    rw [if_pos (beq_iff_eq.2 hsame)]
  · intro hdiffer
    simp only [Buffer.replace, h.clampSpan_eq, TextEdit.isNoop, Text.slice_eq]
    rw [if_neg (mt eq_of_beq hdiffer)]
    rfl

/-- Whatever is done to a document, lines, table and length stay those of its text, and an edit puts the
new text, without carriage returns before newlines, in the place of the characters between the two
offsets, moved into the document and put in order. -/
theorem performAll_exact (text : Text) (operations : List BufferOperation) :
    let buffer := (load text).performAll operations
    buffer.Exact ∧ ∀ (x y : Nat) (inserted : Text),
      let a := min (min x y) buffer.content.length
      let b := min (max x y) buffer.content.length
      let edit : TextEdit :=
        ⟨a, (buffer.content.take b).drop a, LineEnding.normalize inserted⟩
      let after := (buffer.replace x y inserted).1
      (buffer.replace x y inserted).2 = edit ∧
      buffer.Exchanges after a b edit.deleted edit.inserted ∧
      buffer.ExchangesBytes after a b edit.deleted edit.inserted := by
  intro buffer
  have hsound : buffer.Sound := (sound_load text).performAll operations
  refine ⟨hsound.exact, fun x y inserted => ?_⟩
  have hexchanges := hsound.replace_exchanges x y inserted
  exact ⟨hsound.replace_eq x y inserted, hexchanges, hexchanges.bytes (by omega)⟩

/-- Offsets in the wrong order, and characters of two and of four bytes. -/
example : (load ['a', '👋', 'b']).replace 2 1 ['ß', 'ß']
    = (⟨['a', 'ß', 'ß', 'b'], [['a', 'ß', 'ß', 'b']], ⟨#[0], #[4], 4⟩, .lf, 1⟩,
        ⟨1, ['👋'], ['ß', 'ß']⟩) := by decide

end Buffer

end HeadlessEditor
