import HeadlessEditor.Text.Basic

/-!
Texts as they are stored, encoded as UTF-8. The byte index of an offset is the length of the encoded text
before it, so cutting the bytes there and cutting the characters at the offset come to the same. Going
back, the offset is the number of characters before the byte.
-/

namespace HeadlessEditor.Text

def utf8 (text : Text) : List UInt8 := text.flatMap String.utf8EncodeChar

@[simp] theorem utf8_nil : utf8 [] = [] := rfl

@[simp] theorem utf8_cons (c : Char) (rest : Text) :
    utf8 (c :: rest) = String.utf8EncodeChar c ++ utf8 rest := rfl

@[simp] theorem utf8_append (front back : Text) : utf8 (front ++ back) = utf8 front ++ utf8 back := by
  simp [utf8]

/-- The characters with the byte indices where they start, the first of them at `byte`. -/
def charIndices (byte : Nat) : Text → List (Nat × Char)
  | [] => []
  | c :: rest => (byte, c) :: charIndices (byte + c.utf8Size) rest

/-- The byte index of an offset; offsets past the end have that of the end. -/
def byteIndex (text : Text) (offset : Nat) : Nat :=
  (((charIndices 0 text)[offset]?).map (·.1)).getD (utf8 text).length

theorem charIndices_getElem? (byte : Nat) (text : Text) (offset : Nat) :
    (((charIndices byte text)[offset]?).map (·.1)).getD (byte + (utf8 text).length)
      = byte + (utf8 (text.take offset)).length := by
  induction text generalizing byte offset with
  | nil => simp [charIndices]
  | cons c rest ih =>
    cases offset with
    | zero => simp [charIndices]
    | succ offset =>
      have hrest := ih (byte + c.utf8Size) offset
      simp only [charIndices, List.getElem?_cons_succ, List.take_succ_cons, utf8_cons,
        List.length_append, String.length_utf8EncodeChar, ← Nat.add_assoc]
      exact hrest

/-- The byte index of an offset is where the encoded text before it ends. -/
theorem byteIndex_eq (text : Text) (offset : Nat) :
    byteIndex text offset = (utf8 (text.take offset)).length := by
  have hfrom := charIndices_getElem? 0 text offset
  rwa [Nat.zero_add, Nat.zero_add] at hfrom

theorem utf8_split (text : Text) (offset : Nat) :
    utf8 text = utf8 (text.take offset) ++ utf8 (text.drop offset) := by
  rw [← utf8_append, List.take_append_drop]

theorem take_byteIndex (text : Text) (offset : Nat) :
    (utf8 text).take (byteIndex text offset) = utf8 (text.take offset) := by
  rw [byteIndex_eq, utf8_split text offset, List.take_left]

theorem drop_byteIndex (text : Text) (offset : Nat) :
    (utf8 text).drop (byteIndex text offset) = utf8 (text.drop offset) := by
  rw [byteIndex_eq, utf8_split text offset, List.drop_left]

/-- A later offset has no smaller byte index. -/
theorem byteIndex_mono (text : Text) {start stop : Nat} (h : start ≤ stop) :
    byteIndex text start ≤ byteIndex text stop := by
  have hprefix : text.take start = (text.take stop).take start := by
    rw [List.take_take, Nat.min_eq_left h]
  rw [byteIndex_eq, byteIndex_eq, hprefix, utf8_split (text.take stop) start, List.length_append]
  exact Nat.le_add_right _ _

theorem byteIndex_le (text : Text) (offset : Nat) : byteIndex text offset ≤ (utf8 text).length := by
  rw [byteIndex_eq, utf8_split text offset, List.length_append]
  exact Nat.le_add_right _ _

/-- The bytes between two byte indices are those of the characters between the offsets. -/
theorem slice_byteIndex (text : Text) {start stop : Nat} (h : start ≤ stop) :
    ((utf8 text).take (byteIndex text stop)).drop (byteIndex text start)
      = utf8 ((text.take stop).drop start) := by
  have hindex : byteIndex text start = byteIndex (text.take stop) start := by
    rw [byteIndex_eq, byteIndex_eq, List.take_take, Nat.min_eq_left h]
  rw [take_byteIndex, hindex, drop_byteIndex]

/-- Number of the characters that end at or before a byte index. -/
def charCount : Text → Nat → Nat
  | [], _ => 0
  | c :: rest, byte => if c.utf8Size ≤ byte then charCount rest (byte - c.utf8Size) + 1 else 0

def IsBoundary (text : Text) (byte : Nat) : Prop :=
  ∃ offset ≤ text.length, byteIndex text offset = byte

theorem charCount_mono (text : Text) {start stop : Nat} (h : start ≤ stop) :
    charCount text start ≤ charCount text stop := by
  induction text generalizing start stop with
  | nil => exact Nat.le_refl _
  | cons c rest ih =>
    simp only [charCount]
    split
    · have hstop : c.utf8Size ≤ stop := by omega
      rw [if_pos hstop]
      exact Nat.succ_le_succ (ih (by omega))
    · exact Nat.zero_le _

/-- Before the byte index of an offset there are as many characters as before the offset. -/
theorem charCount_byteIndex {text : Text} {offset : Nat} (h : offset ≤ text.length) :
    charCount text (byteIndex text offset) = offset := by
  rw [byteIndex_eq]
  induction text generalizing offset with
  | nil =>
    obtain rfl := Nat.le_zero.1 h
    rfl
  | cons c rest ih =>
    cases offset with
    | zero => simp [charCount, Nat.not_le.2 c.utf8Size_pos]
    | succ offset =>
      have hrest := ih (Nat.le_of_succ_le_succ h)
      simp [charCount, hrest]

/-- A character of two bytes counts once. -/
example : charCount ['a', 'ä', 'b'] 3 = 2 := by decide

/-- Byte indices come in the order of the offsets. -/
theorem byteIndex_le_iff {text : Text} {a b : Nat} (ha : a ≤ text.length) (hb : b ≤ text.length) :
    byteIndex text a ≤ byteIndex text b ↔ a ≤ b := by
  refine ⟨fun h => ?_, byteIndex_mono text⟩
  have hcount := charCount_mono text h
  rwa [charCount_byteIndex ha, charCount_byteIndex hb] at hcount

theorem byteIndex_inj {text : Text} {a b : Nat} (ha : a ≤ text.length) (hb : b ≤ text.length)
    (h : byteIndex text a = byteIndex text b) : a = b :=
  Nat.le_antisymm ((byteIndex_le_iff ha hb).1 (Nat.le_of_eq h))
    ((byteIndex_le_iff hb ha).1 (Nat.le_of_eq h.symm))

theorem isBoundary_byteIndex (text : Text) (offset : Nat) : IsBoundary text (byteIndex text offset) := by
  refine ⟨min offset text.length, Nat.min_le_right _ _, ?_⟩
  rw [byteIndex_eq, byteIndex_eq, ← List.take_take, List.take_length]

end HeadlessEditor.Text
