import HeadlessEditor.Proofs.JsonGrammar

/-!
Texts made of lexemes. A scan is outside of literals between any two lexemes, and no newline is in one but
that which is a lexeme itself. The tokens for the literals are listed from left to right.
-/

namespace HeadlessEditor

open Pattern Quoting

namespace JsonText

variable {lexemes before after : List Lexeme} {lexeme : Lexeme} {c : Char} {text front back : Text}
  {className : String}

theorem closing?_plain (h : ∀ c ∈ front, c ≠ '"' ∧ c ≠ '\\') (back : Text) :
    closing? false quoted (front ++ back) = (closing? false quoted back).map (· + front.length) := by
  induction front with
  | nil => simp
  | cons c rest ih =>
    obtain ⟨⟨hquote, hescape⟩, hrest⟩ := List.forall_mem_cons.1 h
    rw [List.cons_append, closing?_cons (by decide), Quoting.step, if_neg hquote, if_neg hescape, ih hrest]
    simp [Function.comp_def, Nat.add_assoc]

/-- A string ends at its quote. -/
theorem Characters.closing? (h : Characters text) (back : Text) :
    closing? false quoted (text ++ '"' :: back) = some (text.length + 1) := by
  induction h with
  | nil => simp [Quoting.closing?, Quoting.step]
  | plain _ hquote hescape _ ih => simp [closing?_cons, Quoting.step, hquote, hescape, ih]
  | escape _ _ ih => simp [closing?_cons, Quoting.step, ih]
  | @unicode code rest hlength hcode _ ih =>
    have hplain : ∀ c ∈ hexDigits, c ≠ '"' ∧ c ≠ '\\' := by decide
    have hskip := closing?_plain (fun c hc => hplain c (hcode c hc)) (rest ++ '"' :: back)
    simp [closing?_cons, Quoting.step, hskip, ih]
    omega

theorem scan_eq_outside (h : ∀ c ∈ text, c ≠ '"') : scan false outside text = outside := by
  induction text with
  | nil => rfl
  | cons c rest ih =>
    obtain ⟨hquote, hrest⟩ := List.forall_mem_cons.1 h
    have hstep : outside.step false c = outside := by simp [Quoting.step, hquote]
    rw [scan, List.foldl_cons, hstep]
    exact ih hrest

theorem Characters.notMem (h : Characters text) : '\n' ∉ text := by
  induction h with
  | nil => simp
  | plain hprintable _ _ _ ih =>
    refine List.not_mem_cons_of_ne_of_not_mem ?_ ih
    rintro rfl
    exact absurd hprintable (by decide)
  | escape hc _ ih =>
    have hplain : ∀ c ∈ "\"\\/bfnrt".toList, '\n' ≠ c := by decide
    exact List.not_mem_cons_of_ne_of_not_mem (by decide)
      (List.not_mem_cons_of_ne_of_not_mem (hplain _ hc) ih)
  | unicode _ hcode _ ih =>
    have hplain : ∀ c ∈ hexDigits, c ≠ '\n' := by decide
    refine List.not_mem_cons_of_ne_of_not_mem (by decide)
      (List.not_mem_cons_of_ne_of_not_mem (by decide) ?_)
    exact fun hmem => (List.mem_append.1 hmem).elim (fun h => hplain _ (hcode _ h) rfl) ih

def numberCharacters : List Char := digits ++ "+-.eE".toList

theorem mem_numberCharacters (h : c ∈ digits) : c ∈ numberCharacters := List.mem_append_left _ h

theorem Integer.mem (h : Integer text) : ∀ c ∈ text, c ∈ numberCharacters := by
  cases h with
  | zero => decide
  | positive hc _ hrest =>
    exact List.forall_mem_cons.2 ⟨mem_numberCharacters hc, fun c hc => mem_numberCharacters (hrest c hc)⟩

theorem Fraction.mem (h : Fraction text) : ∀ c ∈ text, c ∈ numberCharacters := by
  cases h with
  | none => simp
  | some hdigits =>
    exact List.forall_mem_cons.2 ⟨by decide, fun c hc => mem_numberCharacters (hdigits c hc)⟩

theorem Exponent.mem (h : Exponent text) : ∀ c ∈ text, c ∈ numberCharacters := by
  cases h with
  | none => simp
  | some he hsign hdigits =>
    have hmark : ∀ e ∈ ['e', 'E'], e ∈ numberCharacters := by decide
    have hsigns : ∀ sign ∈ [[], ['+'], ['-']], ∀ c ∈ sign, c ∈ numberCharacters := by decide
    refine List.forall_mem_cons.2 ⟨hmark _ he, fun c hc => ?_⟩
    exact (List.mem_append.1 hc).elim (hsigns _ hsign c) fun hc => mem_numberCharacters (hdigits c hc)

theorem Number.mem (h : Number text) : ∀ c ∈ text, c ∈ numberCharacters := by
  obtain ⟨hsign, hinteger, hfraction, hexponent⟩ := h
  have hsigns : ∀ sign ∈ [[], ['-']], ∀ c ∈ sign, c ∈ numberCharacters := by decide
  simp only [List.mem_append]
  rintro c (hc | hc | hc | hc)
  · exact hsigns _ hsign c hc
  · exact hinteger.mem c hc
  · exact hfraction.mem c hc
  · exact hexponent.mem c hc

theorem Integer.head_mem (h : Integer text) : ∃ c rest, text = c :: rest ∧ c ∈ digits := by
  cases h with
  | zero => exact ⟨_, _, rfl, by decide⟩
  | positive hc _ _ => exact ⟨_, _, rfl, hc⟩

theorem Number.head_mem (h : Number text) : ∃ c rest, text = c :: rest ∧ c ∈ '-' :: digits := by
  obtain ⟨hsign, hinteger, -, -⟩ := h
  obtain ⟨c, rest, rfl, hc⟩ := hinteger.head_mem
  simp only [List.mem_cons, List.not_mem_nil, or_false] at hsign
  rcases hsign with rfl | rfl
  · exact ⟨_, _, rfl, List.mem_cons_of_mem _ hc⟩
  · exact ⟨_, _, rfl, List.mem_cons_self⟩

theorem Literal.ne_nil (h : Literal className text) : text ≠ [] := by
  cases h with
  | string h => exact List.cons_ne_nil _ _
  | number h =>
    obtain ⟨c, rest, rfl, -⟩ := h.head_mem
    exact List.cons_ne_nil _ _
  | yes | no | null => decide

/-- A scan is outside of literals behind a literal, which has no newline. -/
theorem Literal.scan_and_notMem (h : Literal className text) :
    scan false outside text = outside ∧ '\n' ∉ text := by
  cases h with
  | @string inner h =>
    have hscan := (closing?_eq_some_iff.1 (h.closing? [])).2.1
    have hall : (inner ++ ['"']).take (inner.length + 1) = inner ++ ['"'] :=
      List.take_of_length_le (by simp)
    rw [hall] at hscan
    refine ⟨hscan, List.not_mem_cons_of_ne_of_not_mem (by decide) ?_⟩
    exact fun hmem => (List.mem_append.1 hmem).elim h.notMem (by decide)
  | number h =>
    have hplain : ∀ c ∈ numberCharacters, c ≠ '"' ∧ c ≠ '\n' := by decide
    exact ⟨scan_eq_outside fun c hc => (hplain c (h.mem c hc)).1,
      fun hmem => (hplain _ (h.mem _ hmem)).2 rfl⟩
  | yes | no | null => decide

theorem Lexeme.Sound.isLiteral (h : (Lexeme.literal className text).Sound) : Literal className text := by
  obtain ⟨className', text', hliteral, hsame⟩ := h.resolve_left (Lexeme.not_isMark_literal _ _)
  obtain ⟨rfl, rfl⟩ := Lexeme.literal.inj hsame
  exact hliteral

theorem Lexeme.Sound.scan (h : lexeme.Sound) : scan false outside lexeme.text = outside := by
  rcases h with ⟨c, hc, rfl⟩ | ⟨className, text, h, rfl⟩
  · have hplain : ∀ c ∈ marks, c ≠ '"' := by decide
    exact scan_eq_outside (by simpa [Lexeme.text] using hplain c hc)
  · exact h.scan_and_notMem.1

theorem Lexeme.Sound.notMem (h : lexeme.Sound) (hnewline : lexeme ≠ .mark '\n') : '\n' ∉ lexeme.text := by
  rcases h with ⟨c, hc, rfl⟩ | ⟨className, text, h, rfl⟩
  · rw [Lexeme.text, List.mem_singleton]
    rintro rfl
    exact hnewline rfl
  · exact h.scan_and_notMem.2

@[simp] theorem textOf_nil : textOf [] = [] := rfl

@[simp] theorem textOf_cons (lexeme : Lexeme) (rest : List Lexeme) :
    textOf (lexeme :: rest) = lexeme.text ++ textOf rest := rfl

@[simp] theorem textOf_append (before after : List Lexeme) :
    textOf (before ++ after) = textOf before ++ textOf after := List.flatMap_append

/-- A scan is outside of literals between two lexemes. -/
theorem outside_textOf (h : ∀ lexeme ∈ before, lexeme.Sound) (back : Text) :
    Outside false (textOf before ++ back) (textOf before).length := by
  refine ⟨by simp, ?_⟩
  rw [List.take_left]
  induction before with
  | nil => rfl
  | cons lexeme rest ih =>
    obtain ⟨hlexeme, hrest⟩ := List.forall_mem_cons.1 h
    have hscan : lexeme.text.foldl (Quoting.step false) outside = outside := hlexeme.scan
    rw [textOf_cons, Quoting.scan, List.foldl_append, hscan]
    exact ih hrest

theorem notMem_textOf (h : ∀ lexeme ∈ lexemes, lexeme.Sound) (hnewline : Lexeme.mark '\n' ∉ lexemes) :
    '\n' ∉ textOf lexemes := by
  intro hmem
  obtain ⟨lexeme, hlexeme, hmem⟩ := List.mem_flatMap.1 hmem
  refine (h lexeme hlexeme).notMem ?_ hmem
  rintro rfl
  exact hnewline hlexeme

theorem getLast?_textOf (h : ∀ lexeme ∈ before.getLast?, lexeme.IsMark) :
    ∀ c ∈ (textOf before).getLast?, c ∈ marks := by
  rcases List.eq_nil_or_concat before with rfl | ⟨rest, lexeme, rfl⟩
  · simp
  · obtain ⟨c, hc, rfl⟩ := h lexeme (by simp)
    simpa [Lexeme.text] using hc

theorem head?_textOf (h : ∀ lexeme ∈ after.head?, lexeme.IsMark) : ∀ c ∈ (textOf after).head?, c ∈ marks := by
  cases after with
  | nil => simp
  | cons lexeme rest =>
    obtain ⟨c, hc, rfl⟩ := h lexeme rfl
    simpa [Lexeme.text] using hc

/-- Each offset of a text is in one of its lexemes. -/
theorem exists_lexeme {place : Nat} (h : place < (textOf lexemes).length) :
    ∃ before lexeme after, lexemes = before ++ lexeme :: after ∧ (textOf before).length ≤ place ∧
      place < (textOf before).length + lexeme.text.length := by
  induction lexemes generalizing place with
  | nil => exact absurd h (Nat.not_lt_zero _)
  | cons first rest ih =>
    rw [textOf_cons, List.length_append] at h
    rcases Nat.lt_or_ge place first.text.length with hlt | hge
    · exact ⟨[], first, rest, rfl, Nat.zero_le _, by simpa using hlt⟩
    · obtain ⟨before, lexeme, after, rfl, hstart, hstop⟩ := ih (show place - first.text.length < _ by omega)
      refine ⟨first :: before, lexeme, after, rfl, ?_, ?_⟩
      all_goals
        rw [textOf_cons, List.length_append]
        omega

theorem tokensFrom_append (offset : Nat) (before after : List Lexeme) :
    tokensFrom offset (before ++ after)
      = tokensFrom offset before ++ tokensFrom (offset + (textOf before).length) after := by
  induction before generalizing offset with
  | nil => rfl
  | cons lexeme rest ih =>
    cases lexeme with
    | mark c => simp [tokensFrom, ih, Lexeme.text, Nat.add_assoc, Nat.add_comm]
    | literal className text => simp [tokensFrom, ih, Lexeme.text, Nat.add_assoc]

theorem tokensFrom_add (offset distance : Nat) (lexemes : List Lexeme) :
    tokensFrom (offset + distance) lexemes = (tokensFrom offset lexemes).map fun token =>
      ⟨token.start + distance, token.stop + distance, token.className⟩ := by
  induction lexemes generalizing offset with
  | nil => rfl
  | cons lexeme rest ih =>
    cases lexeme with
    | mark c => rw [tokensFrom, tokensFrom, Nat.add_right_comm, ih]
    | literal className text =>
      rw [tokensFrom, tokensFrom, Nat.add_right_comm, ih, List.map_cons, Nat.add_right_comm]

theorem mem_tokensFrom {token : Token} {offset : Nat} :
    token ∈ tokensFrom offset lexemes ↔
      ∃ before className text after, lexemes = before ++ .literal className text :: after ∧
        token = ⟨offset + (textOf before).length, offset + (textOf before).length + text.length,
          className⟩ := by
  constructor
  · intro h
    induction lexemes generalizing offset with
    | nil => cases h
    | cons lexeme rest ih =>
      cases lexeme with
      | mark c =>
        obtain ⟨before, className, text, after, rfl, rfl⟩ := ih h
        exact ⟨.mark c :: before, className, text, after, rfl, by
          simp [Lexeme.text, Nat.add_assoc, Nat.add_comm, Nat.add_left_comm]⟩
      | literal className text =>
        rcases List.mem_cons.1 h with rfl | hlater
        · exact ⟨[], className, text, rest, rfl, rfl⟩
        · obtain ⟨before, className', text', after, rfl, rfl⟩ := ih hlater
          exact ⟨.literal className text :: before, className', text', after, rfl, by
            simp [Lexeme.text, Nat.add_assoc]⟩
  · rintro ⟨before, className, text, after, rfl, rfl⟩
    rw [tokensFrom_append]
    exact List.mem_append_right _ List.mem_cons_self

theorem tokensFrom_ascending (h : ∀ lexeme ∈ lexemes, lexeme.Sound) (offset : Nat) :
    (tokensFrom offset lexemes).Pairwise fun a b => a.start < b.start := by
  induction lexemes generalizing offset with
  | nil => exact List.Pairwise.nil
  | cons lexeme rest ih =>
    obtain ⟨hlexeme, hrest⟩ := List.forall_mem_cons.1 h
    cases lexeme with
    | mark c => exact ih hrest _
    | literal className text =>
      refine List.pairwise_cons.2 ⟨fun token htoken => ?_, ih hrest _⟩
      obtain ⟨before, _, _, _, rfl, rfl⟩ := mem_tokensFrom.1 htoken
      have hpos := List.length_pos_iff.2 hlexeme.isLiteral.ne_nil
      dsimp only
      omega

end JsonText

end HeadlessEditor
