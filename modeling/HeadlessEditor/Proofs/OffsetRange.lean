import HeadlessEditor.Proofs.Anchors

/-!
Tokens come from outside, with any machine numbers for their ends. Where the sums and differences that
carry them across an edit leave the machine numbers, they are not carried at all. No difference ever is
below zero. A sum is too large for an offset behind the edit that is so close to `maxOffset` that the
text put in pushes it out, and only then. Tokens in the text are always carried as they should be.
-/

namespace HeadlessEditor

theorem machineSum?_eq (a b : Nat) :
    machineSum? a b = if a + b ≤ maxOffset then some (a + b) else none := by
  have hnumber : 0 ≤ (a : Int) + b ∧ (a : Int) + b ≤ maxOffset ↔ a + b ≤ maxOffset := by omega
  simp only [machineSum?, machineNumber?, hnumber]
  rfl

theorem machineDifference?_of_le {a b : Nat} (hle : b ≤ a) (ha : a ≤ maxOffset) :
    machineDifference? a b = some (a - b) := by
  have hnumber : 0 ≤ (a : Int) - b ∧ (a : Int) - b ≤ maxOffset := by omega
  rw [machineDifference?, machineNumber?, if_pos hnumber]
  congr 1
  omega

namespace TextEdit

variable {edit : TextEdit} {old new : Text} {start stop offset : Nat}

/-- No edit takes more from an offset than there is, and the sums are the numbers themselves. -/
theorem mapOffset?_eq (edit : TextEdit) (hoffset : offset ≤ maxOffset) (bias : Bias) :
    edit.mapOffset? offset bias
      = if edit.mapOffset offset bias ≤ maxOffset then some (edit.mapOffset offset bias)
        else none := by
  unfold mapOffset? mapOffset
  by_cases hbefore : offset < edit.offset
  · simp only [if_pos hbefore, if_pos hoffset]
  · have hfrom := Nat.not_lt.1 hbefore
    simp only [if_neg hbefore]
    split
    · rename_i hbehind
      -- The end of the edit is cut off at `maxOffset` only if no machine number is behind it.
      have hdeleted : edit.deleted.length ≤ offset := by
        unfold TextEdit.stop at hbehind
        omega
      rw [machineDifference?_of_le hdeleted hoffset]
      exact machineSum?_eq _ _
    · cases bias with
      | before => rw [if_pos (Nat.le_trans hfrom hoffset)]
      | after => exact machineSum?_eq _ _

theorem mapSpan?_eq_some (hstart : start ≤ maxOffset) (hstop : stop ≤ maxOffset)
    (hnewStart : edit.mapOffset start .after ≤ maxOffset)
    (hnewStop : edit.mapOffset stop .before ≤ maxOffset) :
    edit.mapSpan? start stop = some (edit.mapSpan start stop) := by
  rw [mapSpan?, edit.mapOffset?_eq hstart, edit.mapOffset?_eq hstop, if_pos hnewStart, if_pos hnewStop]
  simp only [Option.bind_eq_bind, Option.bind_some, mapSpan]
  split <;> rfl

theorem mapSpan?_eq_none (hstart : start ≤ maxOffset) (hstop : stop ≤ maxOffset)
    (h : maxOffset < edit.mapOffset start .after ∨ maxOffset < edit.mapOffset stop .before) :
    edit.mapSpan? start stop = none := by
  rw [mapSpan?, edit.mapOffset?_eq hstart, edit.mapOffset?_eq hstop]
  rcases h with hnewStart | hnewStop
  · rw [if_neg (Nat.not_le.2 hnewStart)]
    rfl
  · rw [if_neg (Nat.not_le.2 hnewStop)]
    split <;> rfl

/-- Behind the edit, and moved beyond the machine numbers by what is put in. -/
def PushesOut (edit : TextEdit) (offset : Nat) : Prop :=
  edit.stop < offset ∧ maxOffset + edit.deleted.length < offset + edit.inserted.length

instance (edit : TextEdit) (offset : Nat) : Decidable (edit.PushesOut offset) :=
  inferInstanceAs (Decidable (_ ∧ _))

/-- In a text that there is room for, nothing else leaves the machine numbers. -/
theorem Turns.lt_mapOffset_iff (h : edit.Turns old new) (hold : old.length ≤ maxOffset)
    (hnew : new.length ≤ maxOffset) (bias : Bias) (hoffset : offset ≤ maxOffset) :
    maxOffset < edit.mapOffset offset bias ↔ edit.PushesOut offset := by
  have hsizes := h.length_eq
  have hend := h.stop_eq hold
  unfold mapOffset PushesOut
  split
  · omega
  · split
    · omega
    · cases bias <;> simp only <;> omega

theorem Turns.not_pushesOut (h : edit.Turns old new) (hnew : new.length ≤ maxOffset)
    (hoffset : offset ≤ old.length) : ¬ edit.PushesOut offset := by
  have hsizes := h.length_eq
  rintro ⟨-, hout⟩
  omega

end TextEdit

namespace Token

variable {edit : TextEdit} {old new : Text} {token : Token}

def InRange (token : Token) : Prop := token.start ≤ maxOffset ∧ token.stop ≤ maxOffset

instance (token : Token) : Decidable token.InRange := inferInstanceAs (Decidable (_ ∧ _))

def PushedOut (edit : TextEdit) (token : Token) : Prop :=
  edit.PushesOut token.start ∨ edit.PushesOut token.stop

instance (edit : TextEdit) (token : Token) : Decidable (token.PushedOut edit) :=
  inferInstanceAs (Decidable (_ ∨ _))

section

variable (h : edit.Turns old new) (hold : old.length ≤ maxOffset) (hnew : new.length ≤ maxOffset)
include h hold hnew

theorem mapOffset_le_of_not_pushedOut (hrange : token.InRange) (hkept : ¬ token.PushedOut edit) :
    edit.mapOffset token.start .after ≤ maxOffset ∧
    edit.mapOffset token.stop .before ≤ maxOffset := by
  rw [← Nat.not_lt, ← Nat.not_lt, h.lt_mapOffset_iff hold hnew _ hrange.1,
    h.lt_mapOffset_iff hold hnew _ hrange.2]
  exact not_or.1 hkept

theorem mapThroughEdit?_eq (hrange : token.InRange) :
    token.mapThroughEdit? edit
      = if token.PushedOut edit then none else some (token.mapThroughEdit edit) := by
  split
  · rename_i hout
    have hbeyond : maxOffset < edit.mapOffset token.start .after
        ∨ maxOffset < edit.mapOffset token.stop .before := by
      rw [h.lt_mapOffset_iff hold hnew _ hrange.1, h.lt_mapOffset_iff hold hnew _ hrange.2]
      exact hout
    rw [mapThroughEdit?, TextEdit.mapSpan?_eq_none hrange.1 hrange.2 hbeyond]
    rfl
  · rename_i hkept
    obtain ⟨hstart, hstop⟩ := mapOffset_le_of_not_pushedOut h hold hnew hrange hkept
    rw [mapThroughEdit?, TextEdit.mapSpan?_eq_some hrange.1 hrange.2 hstart hstop]
    rfl

theorem InRange.mapThroughEdit (hrange : token.InRange) (hkept : ¬ token.PushedOut edit)
    {next : Token} (hnext : token.mapThroughEdit edit = some next) : next.InRange := by
  obtain ⟨hstart, hstop⟩ := mapOffset_le_of_not_pushedOut h hold hnew hrange hkept
  obtain ⟨hspan, -⟩ := carried_of_mapThroughEdit hnext
  rw [TextEdit.mapSpan_eq] at hspan
  split at hspan
  · cases hspan
  · obtain ⟨hnewStart, hnewStop⟩ := Prod.mk.inj (Option.some.inj hspan)
    exact ⟨hnewStart ▸ hstart, hnewStop ▸ Nat.max_le.2 ⟨hstop, hstart⟩⟩

end

end Token

section

variable {edit : TextEdit} {old new : Text} {tokens : List Token}
  (h : edit.Turns old new) (hold : old.length ≤ maxOffset) (hnew : new.length ≤ maxOffset)
include h hold hnew

theorem mapTokensThroughEdit?_eq (hrange : ∀ token ∈ tokens, token.InRange) :
    mapTokensThroughEdit? edit tokens
      = if ∃ token ∈ tokens, token.PushedOut edit then none
        else some (mapTokensThroughEdit tokens edit) := by
  induction tokens with
  | nil => simp [mapTokensThroughEdit?, mapTokensThroughEdit]
  | cons token rest ih =>
    obtain ⟨hfirst, hrest⟩ := List.forall_mem_cons.1 hrange
    rw [mapTokensThroughEdit?, Token.mapThroughEdit?_eq h hold hnew hfirst, ih hrest]
    by_cases hout : token.PushedOut edit
    · simp [hout]
    · by_cases houtLater : ∃ later ∈ rest, later.PushedOut edit
      · simp [hout, houtLater]
      · simp only [hout, houtLater, List.mem_cons, exists_eq_or_imp, or_self, if_false,
          Option.bind_eq_bind, Option.bind_some, Option.pure_def, mapTokensThroughEdit]
        cases hcarried : token.mapThroughEdit edit with
        | none => rw [List.filterMap_cons_none hcarried]; rfl
        | some next => rw [List.filterMap_cons_some hcarried]; rfl

end

structure TextEdit.CarriesMachineTokens (edit : TextEdit) (old : Text) : Prop where
  /-- A step leaves the machine numbers if and only if an end of a token is pushed out. -/
  fails : ∀ tokens : List Token, (∀ token ∈ tokens, token.InRange) →
    (mapTokensThroughEdit? edit tokens = none ↔ ∃ token ∈ tokens, token.PushedOut edit)
  /-- Otherwise the tokens go where they should, which is a machine number again. -/
  works : ∀ tokens : List Token, (∀ token ∈ tokens, token.InRange) →
    (∀ token ∈ tokens, ¬ token.PushedOut edit) →
    mapTokensThroughEdit? edit tokens = some (mapTokensThroughEdit tokens edit) ∧
    ∀ token ∈ mapTokensThroughEdit tokens edit, token.InRange
  /-- No end in the text is pushed out. -/
  inText : ∀ token : Token, token.start ≤ old.length → token.stop ≤ old.length →
    ¬ token.PushedOut edit

namespace Buffer

theorem Sound.carriesMachineTokens {buffer : Buffer} (h : buffer.Sound) (start stop : Nat)
    (text : Text) (hold : buffer.content.length ≤ maxOffset)
    (hnew : (buffer.replace start stop text).1.content.length ≤ maxOffset) :
    (buffer.replace start stop text).2.CarriesMachineTokens buffer.content := by
  have hturns := h.replace_turns start stop text
  constructor
  · intro tokens hrange
    rw [mapTokensThroughEdit?_eq hturns hold hnew hrange]
    split <;> simp [*]
  · intro tokens hrange hkept
    constructor
    · rw [mapTokensThroughEdit?_eq hturns hold hnew hrange, if_neg]
      rintro ⟨token, htoken, hout⟩
      exact hkept token htoken hout
    · intro next hnext
      obtain ⟨token, htoken, hcarried⟩ := List.mem_filterMap.1 hnext
      exact (hrange token htoken).mapThroughEdit hturns hold hnew (hkept token htoken) hcarried
  · intro token hstart hstop hout
    exact hout.elim (hturns.not_pushesOut hnew hstart) (hturns.not_pushesOut hnew hstop)

/-- So it is in every document, whatever was done to it before. The lengths of the text before and
after must be offsets that can be named, as they are for every text that there is room for. -/
theorem replace_carriesMachineTokens (loaded : Text) (operations : List BufferOperation)
    (start stop : Nat) (text : Text)
    (hold : ((load loaded).performAll operations).content.length ≤ maxOffset)
    (hnew : (((load loaded).performAll operations).replace start stop text).1.content.length
      ≤ maxOffset) :
    let buffer := (load loaded).performAll operations
    (buffer.replace start stop text).2.CarriesMachineTokens buffer.content :=
  ((sound_load loaded).performAll operations).carriesMachineTokens start stop text hold hnew

/-- A character before a token that ends at the last offset but one. -/
theorem replace_carriesMachineTokens_last :
    let buffer := (load ['a']).performAll []
    let result := buffer.replace 0 0 ['b']
    buffer.content.length ≤ maxOffset ∧ result.1.content.length ≤ maxOffset ∧
    result.2.CarriesMachineTokens buffer.content ∧
    mapTokensThroughEdit? result.2 [⟨0, maxOffset - 1, "x"⟩] = some [⟨1, maxOffset, "x"⟩] :=
  ⟨by decide, by decide, replace_carriesMachineTokens ['a'] [] 0 0 ['b'] (by decide) (by decide),
    by decide⟩

/-- A token that ends at the last offset: adding the length of the text put in is too much for a
machine number, and there is no result. -/
theorem replace_overflows :
    let edit := ((load ['a']).replace 0 0 ['b']).2
    let token : Token := ⟨0, maxOffset, "x"⟩
    token.InRange ∧ edit.mapOffset? token.stop .before = none ∧
    mapTokensThroughEdit? edit [token] = none ∧
    mapTokensThroughEdit [token] edit = [⟨1, maxOffset + 1, "x"⟩] := by
  decide

end Buffer

end HeadlessEditor
