import HeadlessEditor.Document.Operation

/-!
Saving a document and loading it again. What is written for a file with `"\r\n"` at the ends of its
lines is read back as it was. A file with bare newlines is written as the text stands, so a carriage
return before a newline is taken for part of the newline when it is read. Texts that come into a
document are freed of such pairs one by one, but two of them can meet in a new one. The other way
round, a file is written as it was read exactly if all its newlines are of one kind.
-/

namespace HeadlessEditor

namespace LineEnding

theorem normalize_cons {c : Char} {rest : Text} (h : c = '\r' → rest.head? ≠ some '\n') :
    normalize (c :: rest) = c :: normalize rest := by
  rw [normalize]
  rintro following rfl rfl
  exact h rfl rfl

@[simp] theorem expand_crlf_nil : expand crlf [] = [] := rfl

@[simp] theorem expand_crlf_newline (rest : Text) :
    expand crlf ('\n' :: rest) = '\r' :: '\n' :: expand crlf rest := rfl

theorem expand_crlf_cons {c : Char} (h : c ≠ '\n') (rest : Text) :
    expand crlf (c :: rest) = c :: expand crlf rest := by
  simp [expand, h]

/-- Every newline has its carriage return before it. -/
theorem head?_expand_crlf (text : Text) : (expand crlf text).head? ≠ some '\n' := by
  cases text with
  | nil => simp
  | cons c rest =>
    by_cases h : c = '\n'
    · simp [h]
    · simp [expand_crlf_cons h, h]

/-- Reading drops the carriage returns that writing puts in, and no other ones. -/
theorem normalize_expand_crlf (text : Text) : normalize (expand crlf text) = text := by
  induction text with
  | nil => rfl
  | cons c rest ih =>
    by_cases h : c = '\n'
    · rw [h, expand_crlf_newline, normalize, ih]
    · rw [expand_crlf_cons h, normalize_cons fun _ => head?_expand_crlf rest, ih]

theorem pair_infix_cons_iff (c : Char) (rest : Text) :
    ['\r', '\n'] <:+: c :: rest ↔ c = '\r' ∧ rest.head? = some '\n' ∨ ['\r', '\n'] <:+: rest := by
  rw [List.infix_cons_iff, List.cons_prefix_cons, eq_comm]
  cases rest with
  | nil => simp
  | cons next rest => simp [List.cons_prefix_cons, eq_comm]

/-- Nothing is dropped from a text in which no newline has a carriage return before it. -/
theorem normalize_eq_self_iff (text : Text) : normalize text = text ↔ ¬ ['\r', '\n'] <:+: text := by
  induction text with
  | nil => simp [normalize]
  | cons c rest ih =>
    rw [pair_infix_cons_iff]
    by_cases h : c = '\r' ∧ rest.head? = some '\n'
    · obtain ⟨rfl, hhead⟩ := h
      obtain ⟨following, rfl⟩ := List.head?_eq_some_iff.1 hhead
      simp [normalize]
    · rw [normalize_cons fun hc hhead => h ⟨hc, hhead⟩]
      simp [h, ih]

theorem census_expand_crlf (afterReturn : Bool) (text : Text) :
    census afterReturn (expand crlf text) = (text.count '\n', 0) := by
  induction text generalizing afterReturn with
  | nil => rfl
  | cons c rest ih =>
    by_cases h : c = '\n'
    · simp [h, census, ih]
    · simp [expand_crlf_cons h, census, ih, h]

theorem detect_expand_crlf {text : Text} (h : '\n' ∈ text) : detect (expand crlf text) = crlf := by
  simp [detect, census_expand_crlf, List.count_pos_iff.2 h]

/-- Whether a carriage return stands at the end of what comes before; `afterReturn` answers for the
start of the text. -/
def returnEnds (afterReturn : Bool) (before : Text) : Bool :=
  (before.getLast?.map (· == '\r')).getD afterReturn

@[simp] theorem returnEnds_nil (afterReturn : Bool) : returnEnds afterReturn [] = afterReturn := rfl

@[simp] theorem returnEnds_cons (afterReturn : Bool) (c : Char) (before : Text) :
    returnEnds afterReturn (c :: before) = returnEnds (c == '\r') before := by
  cases before with
  | nil => rfl
  | cons next rest => simp [returnEnds, List.getLast?_cons]

theorem returnEnds_false_iff (before : Text) :
    returnEnds false before = true ↔ before.getLast? = some '\r' := by
  cases h : before.getLast? with
  | none => simp [returnEnds, h]
  | some c => simp [returnEnds, h]

/-- A newline of a longer text is its first character or a newline of the rest. -/
theorem forall_newline_cons_iff (c : Char) (rest : Text) (p : Text → Prop) :
    (∀ before after, c :: rest = before ++ '\n' :: after → p before) ↔
      (c = '\n' → p []) ∧ ∀ before after, rest = before ++ '\n' :: after → p (c :: before) := by
  constructor
  · intro h
    refine ⟨?_, ?_⟩
    · rintro rfl
      exact h [] rest rfl
    · rintro before after rfl
      exact h (c :: before) after rfl
  · rintro ⟨hfirst, hrest⟩ before after heq
    cases before with
    | nil => exact hfirst (List.cons.inj heq).1
    | cons other before =>
      obtain ⟨rfl, hafter⟩ := List.cons.inj heq
      exact hrest before after hafter

/-- No newline counts as one without, or as one with, a carriage return if and only if all newlines
have one before them, or none has. -/
theorem census_eq_zero_iff (afterReturn : Bool) (text : Text) :
    ((census afterReturn text).2 = 0 ↔
      ∀ before after, text = before ++ '\n' :: after → returnEnds afterReturn before = true) ∧
    ((census afterReturn text).1 = 0 ↔
      ∀ before after, text = before ++ '\n' :: after → returnEnds afterReturn before = false) := by
  induction text generalizing afterReturn with
  | nil => simp [census]
  | cons c rest ih =>
    obtain ⟨hbare, hpaired⟩ := ih (c == '\r')
    simp only [forall_newline_cons_iff, returnEnds_nil, returnEnds_cons, ← hbare, ← hpaired, census]
    by_cases h : c = '\n' <;> cases afterReturn <;> simp [h]

/-- What stands before a text counts only for a newline at its start. -/
theorem census_of_head {text : Text} (h : text.head? ≠ some '\n') (a b : Bool) :
    census a text = census b text := by
  cases text with
  | nil => rfl
  | cons c rest =>
    have hc : c ≠ '\n' := by simpa using h
    simp [census, hc]

/-- Writing with carriage returns puts back what reading dropped, if no newline came without one. -/
theorem expand_crlf_normalize {text : Text} (h : (census false text).2 = 0) :
    expand crlf (normalize text) = text := by
  fun_induction normalize text with
  | case1 rest ih =>
    have hrest : (census false rest).2 = 0 := by simpa [census] using h
    rw [expand_crlf_newline, ih hrest]
  | case2 c rest hpair ih =>
    have hc : c ≠ '\n' := by
      rintro rfl
      simp [census] at h
    have hnext : census (c == '\r') rest = census false rest := by
      by_cases hreturn : c = '\r'
      · refine census_of_head ?_ _ _
        intro hhead
        obtain ⟨following, rfl⟩ := List.head?_eq_some_iff.1 hhead
        exact hpair following hreturn rfl
      · rw [beq_eq_false_iff_ne.2 hreturn]
    have hrest : (census false rest).2 = 0 := by simpa [census, hc, hnext] using h
    rw [expand_crlf_cons hc, ih hrest]
  | case3 => rfl

theorem expand_crlf_normalize_iff (text : Text) :
    expand crlf (normalize text) = text ↔ (census false text).2 = 0 := by
  refine ⟨fun h => ?_, expand_crlf_normalize⟩
  rw [← h, census_expand_crlf]

/-- Reading drops nothing if no newline counts as one with a carriage return. -/
theorem normalize_eq_self_iff_census (text : Text) :
    normalize text = text ↔ (census false text).1 = 0 := by
  rw [normalize_eq_self_iff, (census_eq_zero_iff false text).2]
  constructor
  · intro h before after htext
    rw [← Bool.not_eq_true, returnEnds_false_iff]
    intro hlast
    obtain ⟨front, rfl⟩ := List.getLast?_eq_some_iff.1 hlast
    exact h ⟨front, after, by simp [htext]⟩
  · rintro h ⟨front, after, htext⟩
    have hreturn := h (front ++ ['\r']) after (by simp [← htext])
    simp [returnEnds] at hreturn

theorem detect_of_no_pair {text : Text} (h : ¬ ['\r', '\n'] <:+: text) : detect text = lf := by
  have hcensus : (census false text).1 = 0 :=
    (normalize_eq_self_iff_census text).1 ((normalize_eq_self_iff text).2 h)
  simp [detect, hcensus]

end LineEnding

namespace Buffer

/-- A document that was saved is loaded with the same text, if and only if it is written with carriage
returns or has none before a newline. -/
theorem load_textForSaving_content (buffer : Buffer) :
    (load buffer.textForSaving).content = buffer.content ↔
      buffer.ending = .crlf ∨ ¬ ['\r', '\n'] <:+: buffer.content := by
  cases hending : buffer.ending with
  | crlf => simp [load, textForSaving, hending, LineEnding.normalize_expand_crlf]
  | lf =>
    simp [load, textForSaving, hending, LineEnding.expand, LineEnding.normalize_eq_self_iff]

/-- Then it has the same line ending too, if it has more than one line. -/
theorem load_textForSaving_ending {buffer : Buffer} (hlines : '\n' ∈ buffer.content)
    (h : buffer.ending = .crlf ∨ ¬ ['\r', '\n'] <:+: buffer.content) :
    (load buffer.textForSaving).ending = buffer.ending := by
  cases hending : buffer.ending with
  | crlf => simp [load, textForSaving, hending, LineEnding.detect_expand_crlf hlines]
  | lf =>
    have hpair : ¬ ['\r', '\n'] <:+: buffer.content := by simpa [hending] using h
    simp [load, textForSaving, hending, LineEnding.expand, LineEnding.detect_of_no_pair hpair]

end Buffer

def BufferOperation.text : BufferOperation → Text
  | .setContent text | .insert _ text | .replace _ _ text => text
  | .delete .. | .setEnding _ => []

namespace Buffer

theorem replace_no_return {buffer : Buffer} (h : '\r' ∉ buffer.content) (start stop : Nat)
    {text : Text} (htext : '\r' ∉ LineEnding.normalize text) :
    '\r' ∉ (buffer.replace start stop text).1.content := by
  simp only [replace]
  split
  · exact h
  · intro hreturn
    simp only [write, Text.splice, List.mem_append] at hreturn
    rcases hreturn with (htake | hinserted) | hdrop
    · exact h (List.mem_of_mem_take htake)
    · exact htext hinserted
    · exact h (List.mem_of_mem_drop hdrop)

/-- What one operation keeps. -/
theorem perform_no_return {buffer : Buffer} (h : '\r' ∉ buffer.content)
    {operation : BufferOperation} (htext : '\r' ∉ LineEnding.normalize operation.text) :
    '\r' ∉ (buffer.perform operation).content := by
  cases operation with
  | setContent text => exact htext
  | insert offset text => exact replace_no_return h offset offset htext
  | delete start stop => exact replace_no_return h start stop htext
  | replace start stop text => exact replace_no_return h start stop htext
  | setEnding ending => exact h

/-- Carriage returns come only from texts in which they do not end a line. -/
theorem performAll_no_return {buffer : Buffer} (h : '\r' ∉ buffer.content)
    {operations : List BufferOperation}
    (htexts : ∀ operation ∈ operations, '\r' ∉ LineEnding.normalize operation.text) :
    '\r' ∉ (buffer.performAll operations).content := by
  induction operations generalizing buffer with
  | nil => exact h
  | cons operation rest ih =>
    refine ih (perform_no_return h (htexts operation List.mem_cons_self)) ?_
    intro other hother
    exact htexts other (List.mem_cons_of_mem _ hother)

/-- Whatever was done to a document, saving and loading it keeps text and line ending if and only if it
is written with carriage returns or its text has none before a newline. It has none if all texts that
came into it had carriage returns only as parts of line endings. -/
theorem reloading_lossless_iff (text : Text) (operations : List BufferOperation) :
    let buffer := (load text).performAll operations
    let reloaded := load buffer.textForSaving
    (reloaded.content = buffer.content ∧
        ('\n' ∈ buffer.content → reloaded.ending = buffer.ending)
      ↔ buffer.ending = .crlf ∨ ¬ ['\r', '\n'] <:+: buffer.content) ∧
    ('\r' ∉ LineEnding.normalize text →
      (∀ operation ∈ operations, '\r' ∉ LineEnding.normalize operation.text) →
      ¬ ['\r', '\n'] <:+: buffer.content) := by
  intro buffer reloaded
  constructor
  · constructor
    · intro h
      exact buffer.load_textForSaving_content.1 h.1
    · intro h
      exact ⟨buffer.load_textForSaving_content.2 h, fun hlines => load_textForSaving_ending hlines h⟩
  · intro htext htexts hpair
    exact performAll_no_return htext htexts (hpair.subset List.mem_cons_self)

/-- A newline is put behind a carriage return at the end of a file with bare newlines. -/
theorem reloading_drops_return :
    let buffer := (load ['a', '\r']).performAll [.insert 2 ['\n']]
    let reloaded := load buffer.textForSaving
    buffer.content = ['a', '\r', '\n'] ∧ reloaded.content = ['a', '\n'] ∧
    buffer.ending = .lf ∧ reloaded.ending = .crlf := by
  decide

/-- Loading and saving leaves a text as it is if and only if its newlines are all of one kind. -/
theorem textForSaving_load_iff (text : Text) :
    (load text).textForSaving = text ↔
      (∀ before after, text = before ++ '\n' :: after → before.getLast? = some '\r') ∨
      (∀ before after, text = before ++ '\n' :: after → before.getLast? ≠ some '\r') := by
  have hall : (∀ before after, text = before ++ '\n' :: after → before.getLast? = some '\r') ↔
      (LineEnding.census false text).2 = 0 := by
    simp only [(LineEnding.census_eq_zero_iff false text).1, LineEnding.returnEnds_false_iff]
  have hnone : (∀ before after, text = before ++ '\n' :: after → before.getLast? ≠ some '\r') ↔
      (LineEnding.census false text).1 = 0 := by
    simp only [(LineEnding.census_eq_zero_iff false text).2, ← Bool.not_eq_true,
      LineEnding.returnEnds_false_iff, ne_eq]
  rw [hall, hnone]
  by_cases hmost : (LineEnding.census false text).2 < (LineEnding.census false text).1
  · have hcrlf : LineEnding.detect text = .crlf := if_pos hmost
    rw [textForSaving, load, hcrlf, LineEnding.expand_crlf_normalize_iff]
    omega
  · have hlf : LineEnding.detect text = .lf := if_neg hmost
    rw [textForSaving, load, hlf, LineEnding.expand, LineEnding.normalize_eq_self_iff_census]
    omega

/-- Carriage returns at the end of a line and within one. -/
example : (load ['a', '\r', 'b', '\r', '\r', '\n']).textForSaving
    = ['a', '\r', 'b', '\r', '\r', '\n'] := by decide

end Buffer

end HeadlessEditor
