import HeadlessEditor.Proofs.JsonLexemes

/-!
How the rules for JSON match its literals. From the start of a literal the first way through the pattern of
its rule takes all of it, since a mark or nothing stands behind.
-/

namespace HeadlessEditor

open Pattern Quoting

namespace JsonText

variable {lexemes before after : List Lexeme} {lexeme : Lexeme} {c : Char} {text front back : Text}
  {className : String}

def number : Pattern := chain [maybe (one '-'),
  alt (one '0') (seq (char (.range '1' '9')) (many digit)), fraction, exponent]

section Number

variable {spot : Spot} {set : CharSet} {list : List Char}

theorem not_any_of_head_mem (hback : ∀ c ∈ back.head?, c ∈ list)
    (hlist : ∀ c ∈ list, set.contains c = false) : ¬ back.head?.any set.contains := by
  cases hhead : back.head? with
  | none => simp
  | some c => simp [hlist c (hback c hhead)]

theorem digits_contains : ∀ c ∈ digits, CharSet.digit.contains c := by decide +kernel

theorem takes_exponent (h : Exponent text) (hrest : spot.rest = text ++ back)
    (hback : ∀ c ∈ back.head?, c ∈ marks) : exponent.Takes spot text.length := by
  cases h with
  | none =>
    refine Fails.maybe (Fails.seq (fails_char ?_))
    rw [hrest]
    exact not_any_of_head_mem hback (by decide)
  | @some e c sign rest he hsign hdigits =>
    have hmark : ∀ e ∈ ['e', 'E'], (CharSet.ofString "eE").contains e := by decide
    have hfirst : (oneOf "eE").Takes spot 1 := takes_char hrest (hmark e he)
    have hskip : (spot.skip 1).rest = sign ++ (c :: (rest ++ back)) := by simp [hrest]
    have hsigned : (maybe (oneOf "+-")).Takes (spot.skip 1) sign.length := by
      have hdigit : ∀ d ∈ digits, (CharSet.ofString "+-").contains d = false := by decide
      simp only [List.mem_cons, List.not_mem_nil, or_false] at hsign
      rcases hsign with rfl | rfl | rfl
      · have hc := hdigit c (hdigits c List.mem_cons_self)
        exact Fails.maybe (fails_char (by rw [hskip]; simp [hc]))
      · exact (takes_char hskip (by decide)).maybe
      · exact (takes_char hskip (by decide)).maybe
    have hmany : (many1 digit).Takes ((spot.skip 1).skip sign.length) (rest.length + 1) :=
      takes_many1 (by rw [Spot.skip_rest, hskip, List.drop_left])
        (fun d hd => digits_contains d (hdigits d hd)) (not_any_of_head_mem hback (by decide +kernel))
    have hall : exponent.Takes spot (1 + (sign.length + (rest.length + 1))) :=
      (hfirst.seq (hsigned.seq hmany)).maybe
    have hlength : (e :: (sign ++ c :: rest)).length = 1 + (sign.length + (rest.length + 1)) := by
      simp
      omega
    rwa [hlength]

theorem takes_fraction (h : Fraction text) (hrest : spot.rest = text ++ back)
    (hback : ∀ c ∈ back.head?, c ∈ marks ++ ['e', 'E']) : fraction.Takes spot text.length := by
  cases h with
  | none =>
    refine Fails.maybe (Fails.seq (fails_char ?_))
    rw [hrest]
    exact not_any_of_head_mem hback (by decide)
  | @some c rest hdigits =>
    have hpoint : (one '.').Takes spot 1 := takes_char hrest (by decide)
    have hmany : (many1 digit).Takes (spot.skip 1) (rest.length + 1) :=
      takes_many1 (by simp [hrest]) (fun d hd => digits_contains d (hdigits d hd))
        (not_any_of_head_mem hback (by decide +kernel))
    have hboth := (hpoint.seq hmany).maybe
    rwa [Nat.add_comm] at hboth

theorem takes_integer (h : Integer text) (hrest : spot.rest = text ++ back)
    (hback : ∀ c ∈ back.head?, c ∈ marks ++ ['.', 'e', 'E']) :
    (alt (one '0') (seq (char (.range '1' '9')) (many digit))).Takes spot text.length := by
  cases h with
  | zero => exact (takes_char hrest (by decide)).alt
  | @positive c rest hc hzero hdigits =>
    have hrange : ∀ c ∈ digits, c ≠ '0' → (CharSet.range '1' '9').contains c := by decide
    have hfirst : (char (.range '1' '9')).Takes spot 1 := takes_char hrest (hrange c hc hzero)
    have hmany : (many digit).Takes (spot.skip 1) rest.length :=
      takes_many (by simp [hrest]) (fun d hd => digits_contains d (hdigits d hd))
        (not_any_of_head_mem hback (by decide +kernel))
    have hfails : (one '0').Fails spot := fails_char (by simp [hrest, CharSet.contains, hzero])
    have hboth := hfails.alt (hfirst.seq hmany)
    rwa [Nat.add_comm] at hboth

/-- The head of a part of a number is one of those that the part can begin with, or that of what follows. -/
theorem Exponent.head_mem (h : Exponent text) (hback : ∀ c ∈ back.head?, c ∈ marks) :
    ∀ c ∈ (text ++ back).head?, c ∈ marks ++ ['e', 'E'] := by
  cases h with
  | none => exact fun c hc => List.mem_append_left _ (hback c hc)
  | some he _ _ =>
    intro c hc
    obtain rfl := Option.some.inj hc
    exact List.mem_append_right _ he

theorem Fraction.head_mem (h : Fraction text) (hback : ∀ c ∈ back.head?, c ∈ marks ++ ['e', 'E']) :
    ∀ c ∈ (text ++ back).head?, c ∈ marks ++ ['.', 'e', 'E'] := by
  cases h with
  | none =>
    have hmore : ∀ c ∈ marks ++ ['e', 'E'], c ∈ marks ++ ['.', 'e', 'E'] := by decide
    exact fun c hc => hmore c (hback c hc)
  | some _ =>
    intro c hc
    obtain rfl := Option.some.inj hc
    decide

/-- From the start of a number the pattern for numbers takes all of it. -/
theorem takes_number (h : Number text) (hrest : spot.rest = text ++ back)
    (hback : ∀ c ∈ back.head?, c ∈ marks) : number.Takes spot text.length := by
  obtain ⟨hsign, hinteger, hfraction, hexponent⟩ := h
  rename_i sign integer fraction exponent
  have hhead := hexponent.head_mem hback
  have hhead' := hfraction.head_mem hhead
  have hwholeRest : (spot.skip sign.length).rest = integer ++ (fraction ++ (exponent ++ back)) := by
    simp [hrest]
  have hpointRest : ((spot.skip sign.length).skip integer.length).rest
      = fraction ++ (exponent ++ back) := by
    rw [Spot.skip_rest, hwholeRest, List.drop_left]
  have hpowerRest : (((spot.skip sign.length).skip integer.length).skip fraction.length).rest
      = exponent ++ back := by
    rw [Spot.skip_rest, hpointRest, List.drop_left]
  have hsigned : (maybe (one '-')).Takes spot sign.length := by
    simp only [List.mem_cons, List.not_mem_nil, or_false] at hsign
    rcases hsign with rfl | rfl
    · obtain ⟨c, rest, rfl, hc⟩ := hinteger.head_mem
      have hminus : ∀ c ∈ digits, (CharSet.one '-').contains c = false := by decide
      exact Fails.maybe (fails_char (by simp [hrest, hminus c hc]))
    · exact (takes_char hrest (by decide)).maybe
  have hall : number.Takes spot
      (sign.length + (integer.length + (fraction.length + exponent.length))) :=
    hsigned.seq ((takes_integer hinteger hwholeRest hhead').seq
      ((takes_fraction hfraction hpointRest hhead).seq (takes_exponent hexponent hpowerRest hback)))
  simpa using hall

end Number

section Words

theorem skip_front (front rest : Text) :
    (Spot.start (front ++ rest)).skip front.length = ⟨front.getLast?, rest, front.length⟩ := by
  simp [Spot.skip, Spot.start]

theorem marks_not_wordChar : ∀ c ∈ marks, Unicode.isWordChar c = false := by decide +kernel

theorem any_wordChar_of_marks {c? : Option Char} (h : ∀ c ∈ c?, c ∈ marks) :
    c?.any Unicode.isWordChar = false := by
  cases c? with
  | none => rfl
  | some c =>
    rw [Option.any_some]
    exact marks_not_wordChar c (h c rfl)

/-- A word with marks or an end of the line on both sides is between two boundaries. -/
theorem takes_between_boundaries {middle : Pattern} (hfront : ∀ c ∈ front.getLast?, c ∈ marks)
    (hback : ∀ c ∈ back.head?, c ∈ marks) (hne : text ≠ []) (hword : ∀ c ∈ text, Unicode.isWordChar c)
    (hmiddle : middle.Takes ⟨front.getLast?, text ++ back, front.length⟩ text.length) :
    (chain [wordBoundary true, middle, wordBoundary true]).Takes
      ⟨front.getLast?, text ++ back, front.length⟩ text.length := by
  obtain ⟨first, hfirst⟩ : ∃ c, text.head? = some c := ⟨_, List.head?_eq_some_head hne⟩
  obtain ⟨last, hlast⟩ : ∃ c, text.getLast? = some c := ⟨_, List.getLast?_eq_some_getLast hne⟩
  have hbefore : (wordBoundary true).Takes ⟨front.getLast?, text ++ back, front.length⟩ 0 := by
    have hprevious := any_wordChar_of_marks hfront
    have hnext := hword first (List.mem_of_mem_head? hfirst)
    refine takes_wordBoundary ?_
    simp only [Spot.isWordBoundary, hprevious, List.head?_append, hfirst, Option.some_or, Option.any_some,
      hnext]
    rfl
  have hafter : (wordBoundary true).Takes
      (Spot.skip ⟨front.getLast?, text ++ back, front.length⟩ text.length) 0 := by
    have hprevious := hword last (List.mem_of_getLast? hlast)
    have hnext := any_wordChar_of_marks hback
    refine takes_wordBoundary ?_
    simp only [Spot.isWordBoundary, Spot.skip, List.take_left, List.drop_left, hlast, Option.some_or,
      Option.any_some, hprevious, hnext]
    rfl
  have hall : (chain [wordBoundary true, middle, wordBoundary true]).Takes
      ⟨front.getLast?, text ++ back, front.length⟩ (0 + (text.length + 0)) := by
    refine hbefore.seq (Takes.seq ?_ ?_)
    · rwa [Spot.skip_zero]
    · rwa [Spot.skip_zero]
  rwa [Nat.zero_add] at hall

theorem takes_literal {spot : Spot} {word : String} (hrest : spot.rest = word.toList ++ back) :
    (literal word).Takes spot word.toList.length := by
  rw [Takes, Pattern.literal, ways_word, if_pos ⟨back, hrest.symm⟩]
  rfl

/-- A word of letters is found where it stands between marks. -/
theorem starts_words {words' : List String} {word : String} (hfront : ∀ c ∈ front.getLast?, c ∈ marks)
    (hback : ∀ c ∈ back.head?, c ∈ marks) (hword : ∀ c ∈ word.toList, Unicode.isWordChar c)
    (hmiddle : (choice (words'.map Pattern.literal)).Takes
      ⟨front.getLast?, word.toList ++ back, front.length⟩ word.toList.length) (hne : word.toList ≠ []) :
    (words words').Starts (front ++ (word.toList ++ back))
      ⟨front.length, front.length + word.toList.length, []⟩ := by
  refine Takes.starts ?_ (by simp)
  rw [skip_front]
  exact takes_between_boundaries hfront hback hne hword hmiddle

end Words

def rules : List (String × Pattern) :=
  [("string", quotedString), ("number", number), ("boolean", words ["true", "false"]),
    ("null", words ["null"])]

theorem json_rules (engine : PatternEngine) :
    (Highlighter.json engine).rules
      = rules.map fun rule => Highlighter.rule engine rule.1 rule.2 := rfl

theorem progresses_of_mem_rules : ∀ rule ∈ rules, rule.2.progresses := by decide +kernel

/-- A literal is found by its rule, and none of the rules before begins with its first character. -/
theorem Literal.starts (h : Literal className text) (hline : '\n' ∉ front ++ (text ++ back))
    (houtside : Outside false (front ++ (text ++ back)) front.length)
    (hfront : ∀ c ∈ front.getLast?, c ∈ marks) (hback : ∀ c ∈ back.head?, c ∈ marks) :
    ∃ earlier p later, rules = earlier ++ (className, p) :: later ∧
      p.Starts (front ++ (text ++ back)) ⟨front.length, front.length + text.length, []⟩ ∧
      ∀ rule ∈ earlier, ∀ c ∈ text.head?, rule.2.opensWith c = false := by
  cases h with
  | @string inner h =>
    refine ⟨[], _, _, rfl, (quotedString_readsLiterals.starts_iff hline houtside).2 ⟨?_, by simp, rfl⟩,
      by simp⟩
    have hclosing : closing? false (outside.step false '"') (inner ++ '"' :: back)
        = some (inner.length + 1) := h.closing? back
    rw [stretch_add_iff houtside, List.drop_left]
    simpa using stretch_cons_iff.2 hclosing
  | number h =>
    refine ⟨[_], _, _, rfl, Takes.starts ?_ (by simp), ?_⟩
    · rw [skip_front]
      exact takes_number h rfl hback
    · obtain ⟨c, rest, rfl, hc⟩ := h.head_mem
      have hopens : ∀ c ∈ '-' :: digits, quotedString.opensWith c = false := by decide
      simpa using hopens c hc
  | yes =>
    refine ⟨[_, _], _, _, rfl, starts_words hfront hback (by decide +kernel) ?_ (by decide),
      by decide +kernel⟩
    have htakes : (Pattern.literal "true").Takes ⟨front.getLast?, "true".toList ++ back, front.length⟩
        "true".toList.length := takes_literal rfl
    exact htakes.alt
  | no =>
    refine ⟨[_, _], _, _, rfl, starts_words hfront hback (by decide +kernel) ?_ (by decide),
      by decide +kernel⟩
    have hfails : (Pattern.literal "true").Fails
        ⟨front.getLast?, "false".toList ++ back, front.length⟩ := by
      rw [Fails, Pattern.literal, ways_word, if_neg (by simp)]
    exact hfails.alt (takes_literal rfl)
  | null =>
    refine ⟨[_, _, _], _, _, rfl, starts_words hfront hback (by decide +kernel) ?_ (by decide),
      by decide +kernel⟩
    exact takes_literal rfl

end JsonText

end HeadlessEditor
