import HeadlessEditor.Proofs.JsonLiterals

/-!
Highlighting of JSON texts. Nothing that a rule finds reaches over the start of a literal, so each literal
gets its token. What else is found begins in a literal, and so gives way to the token of that.
-/

namespace HeadlessEditor

open Pattern Quoting

namespace JsonText

variable {lexemes before after : List Lexeme} {lexeme : Lexeme} {c : Char} {text front back : Text}
  {className : String} {engine : PatternEngine}

section

variable (hfirst : engine.LeftmostFirst)
include hfirst

/-- No rule finds anything that reaches from the front of a line over a mark at the end of the front. -/
theorem stop_le_front (hline : '\n' ∉ front ++ back) (houtside : Outside false (front ++ back) front.length)
    (hfront : ∀ c ∈ front.getLast?, c ∈ marks) {rule : String × Pattern} (hrule : rule ∈ rules)
    {found : Match} (hfound : found ∈ engine.matchesIn rule.2 (front ++ back)) (hlt : found.start < front.length) :
    found.stop ≤ front.length := by
  rcases List.mem_cons.1 hrule with rfl | hrule
  · exact quotedString_readsLiterals.stop_le (by decide) hline hfirst houtside hfound hlt
  · refine Nat.le_of_not_lt fun hstop => ?_
    have hnot : ∀ rule ∈ rules.tail, ∀ c ∈ marks, rule.2.admits c = false := by decide +kernel
    have hp := progresses_of_mem_rules rule (List.mem_cons_of_mem _ hrule)
    have hfinds : (Highlighter.rule engine rule.1 rule.2).Finds 0 (front ++ back)
        ⟨found.start, found.stop, rule.1⟩ := (HighlightRule.rule_finds_iff hfirst hp).2 ⟨found, hfound, rfl⟩
    obtain ⟨c, hc⟩ : ∃ c, front.getLast? = some c := by
      refine ⟨_, List.getLast?_eq_some_getLast ?_⟩
      rintro rfl
      exact Nat.not_lt_zero _ hlt
    have hplace : (front ++ back)[front.length - 1]? = some c := by
      rw [List.getElem?_append_left (by omega), ← List.getLast?_eq_getElem?, hc]
    have hbegin : found.start ≤ front.length - 1 := by omega
    have hend : front.length - 1 < found.stop := by omega
    have hadmits := hfinds.admits hfirst hp hbegin hend hplace
    rw [hnot rule hrule c (hfront c hc)] at hadmits
    cases hadmits

/-- There is a token for a literal of a line. -/
theorem Literal.mem_highlight (h : Literal className text) (hline : '\n' ∉ front ++ (text ++ back))
    (houtside : Outside false (front ++ (text ++ back)) front.length)
    (hfront : ∀ c ∈ front.getLast?, c ∈ marks) (hback : ∀ c ∈ back.head?, c ∈ marks) :
    ⟨front.length, front.length + text.length, className⟩
      ∈ (Highlighter.json engine).highlight (front ++ (text ++ back)) := by
  obtain ⟨earlier, p, later, hrules, hstarts, hopens⟩ := h.starts hline houtside hfront hback
  have hmem : (className, p) ∈ rules := by simp [hrules]
  have hp := progresses_of_mem_rules _ hmem
  have hfound : ⟨front.length, front.length + text.length, []⟩ ∈ engine.matchesIn p (front ++ (text ++ back)) :=
    (hfirst.mem_iff hp).2 ⟨hstarts, fun other hother hlt =>
      stop_le_front hfirst hline houtside hfront hmem hother hlt⟩
  have hrule : (Highlighter.json engine).rules[earlier.length]?
      = some (Highlighter.rule engine className p) := by
    simp [json_rules, hrules]
  refine Highlighter.mem_highlight_of_clear hline hrule
    ((HighlightRule.rule_finds_iff hfirst hp).2 ⟨_, hfound, rfl⟩) fun index rule' other hrule' hfinds hbefore => ?_
  rw [json_rules, List.getElem?_map] at hrule'
  obtain ⟨rule, hrule, rfl⟩ := Option.map_eq_some_iff.1 hrule'
  have hp' := progresses_of_mem_rules rule (List.mem_of_getElem? hrule)
  rcases hbefore with hearlier | ⟨htogether, hindex⟩
  · obtain ⟨found, hfound', rfl⟩ := (HighlightRule.rule_finds_iff hfirst hp').1 hfinds
    exact stop_le_front hfirst hline houtside hfront (List.mem_of_getElem? hrule) hfound' hearlier
  · -- The rule would begin with the first character of the literal.
    obtain ⟨c, hc, hopen⟩ := hfinds.opens hfirst hp'
    have hnonempty := hstarts.start_lt_stop hp
    dsimp only at htogether hnonempty
    have hearlier : rule ∈ earlier := by
      rw [hrules, List.getElem?_append_left hindex] at hrule
      exact List.mem_of_getElem? hrule
    have hhead : text.head? = some c := by
      rw [htogether, List.getElem?_append_right (Nat.le_refl _), Nat.sub_self,
        List.getElem?_append_left (by omega)] at hc
      rw [List.head?_eq_getElem?, hc]
    rw [hopens rule hearlier c hhead] at hopen
    cases hopen

/-- Where a literal stands in a line. -/
theorem WellFormed.mem_highlight (h : WellFormed (before ++ .literal className text :: after))
    (hnewline : Lexeme.mark '\n' ∉ before ++ .literal className text :: after) :
    ⟨(textOf before).length, (textOf before).length + text.length, className⟩
      ∈ (Highlighter.json engine).highlight (textOf (before ++ .literal className text :: after)) := by
  have hline := notMem_textOf h.sound hnewline
  obtain ⟨hfront, hback⟩ := h.marks_around
  rw [textOf_append, textOf_cons] at hline ⊢
  have hliteral := (h.sound (.literal className text) (by simp)).isLiteral
  exact hliteral.mem_highlight hfirst hline (outside_textOf h.left.sound _) (getLast?_textOf hfront)
    (head?_textOf hback)

/-- The tokens of a line are those for its literals. -/
theorem mem_highlight_line_iff (h : WellFormed lexemes) (hnewline : Lexeme.mark '\n' ∉ lexemes)
    {token : Token} :
    token ∈ (Highlighter.json engine).highlight (textOf lexemes) ↔ token ∈ tokensFrom 0 lexemes := by
  rw [mem_tokensFrom]
  constructor
  · intro htoken
    have hline := notMem_textOf h.sound hnewline
    obtain ⟨rule', hrule', -, hfinds⟩ := Highlighter.finds_of_mem_highlight hline htoken
    rw [json_rules] at hrule'
    obtain ⟨rule, hrule, rfl⟩ := List.mem_map.1 hrule'
    obtain ⟨c, hc, hopens⟩ := hfinds.opens hfirst (progresses_of_mem_rules rule hrule)
    obtain ⟨before, lexeme, after, rfl, hstart, hstop⟩ := exists_lexeme (List.getElem?_eq_some_iff.1 hc).1
    rcases h.sound lexeme (by simp) with ⟨mark, hmark, rfl⟩ | ⟨className, text, hliteral, rfl⟩
    · -- No rule begins with a mark.
      have hplace : token.start = (textOf before).length := by
        rw [Lexeme.text, List.length_singleton] at hstop
        omega
      have hsame : c = mark := by
        simpa [hplace, Lexeme.text] using hc.symm
      have hnone : ∀ rule ∈ rules, ∀ c ∈ marks, rule.2.opensWith c = false := by decide +kernel
      rw [hsame, hnone rule hrule mark hmark] at hopens
      cases hopens
    · -- The token for the literal is there, and tokens do not overlap.
      refine ⟨before, className, text, after, rfl, ?_⟩
      rw [Nat.zero_add]
      by_contra hne
      have hon := hfinds.on_line
      have hapart := Highlighter.highlight_apart htoken (h.mem_highlight hfirst hnewline) hne
      rw [Lexeme.text] at hstop
      dsimp only at hapart
      omega
  · rintro ⟨before, className, text, after, rfl, rfl⟩
    simpa using h.mem_highlight hfirst hnewline

theorem highlight_line (h : WellFormed lexemes) (hnewline : Lexeme.mark '\n' ∉ lexemes) :
    (Highlighter.json engine).highlight (textOf lexemes) = tokensFrom 0 lexemes := by
  have hstarts := (Highlighter.json engine).highlight_starts (textOf lexemes)
  have hstarts' := tokensFrom_ascending h.sound 0
  have hnodup : ∀ {tokens : List Token}, tokens.Pairwise (fun a b => a.start < b.start) → tokens.Nodup := by
    intro tokens hordered
    refine hordered.imp ?_
    rintro a _ hlt rfl
    exact Nat.lt_irrefl _ hlt
  refine List.Perm.eq_of_pairwise ?_ hstarts hstarts' ?_
  · exact fun a b _ _ hlt hgt => absurd hlt (Nat.not_lt.2 (Nat.le_of_lt hgt))
  · exact (List.perm_ext_iff_of_nodup (hnodup hstarts) (hnodup hstarts')).2 fun _ =>
      mem_highlight_line_iff hfirst h hnewline

theorem highlight_wellFormed (h : WellFormed lexemes) :
    (Highlighter.json engine).highlight (textOf lexemes) = tokensFrom 0 lexemes := by
  induction hlength : lexemes.length using Nat.strong_induction_on generalizing lexemes with
  | _ length ih =>
    by_cases hnewline : Lexeme.mark '\n' ∈ lexemes
    · obtain ⟨above, below, rfl⟩ := List.append_of_mem hnewline
      rw [List.length_append, List.length_cons] at hlength
      have habove := ih above.length (by omega) h.left rfl
      have hbelow := ih below.length (by omega) h.right.tail rfl
      have hmoved := tokensFrom_add 0 ((textOf above).length + 1) below
      calc (Highlighter.json engine).highlight (textOf (above ++ .mark '\n' :: below))
          = (Highlighter.json engine).highlight (textOf above ++ '\n' :: textOf below) := by simp [Lexeme.text]
        _ = tokensFrom 0 above ++ tokensFrom (0 + ((textOf above).length + 1)) below := by
          rw [Highlighter.highlight_append_line, habove, hbelow, hmoved]
        _ = tokensFrom 0 (above ++ .mark '\n' :: below) := by
          rw [tokensFrom_append, tokensFrom, Nat.add_assoc]
    · exact highlight_line hfirst h hnewline

end

/-- The tokens of a JSON document are those for its literals, in their order. -/
theorem highlight_document (engine : PatternEngine) (hfirst : engine.LeftmostFirst)
    (lexemes : List Lexeme) (h : Derives .document lexemes) :
    (Highlighter.json engine).highlight (textOf lexemes) = tokensFrom 0 lexemes :=
  highlight_wellFormed hfirst h.wellFormed

def sample : List Lexeme := [.mark '{', .literal "string" "\"a\"".toList, .mark ':', .mark '\n', .mark '[',
  .literal "number" "-2.5e3".toList, .mark ',', .literal "boolean" "true".toList, .mark ']', .mark '}']

theorem sample_derives : Derives .document sample := by
  have hnone : Blank [] := by simp [Blank]
  have hbreak : Blank [.mark '\n'] := by simp [Blank, blanks]
  have hinteger : Integer "2".toList := .positive (by decide) (by decide) (by simp)
  have hfraction : Fraction ".5".toList := .some (by decide)
  have hexponent : Exponent "e3".toList := @Exponent.some 'e' '3' [] [] (by decide) (by decide) (by decide)
  have hnumber : Literal "number" "-2.5e3".toList :=
    .number (@Number.parts "-".toList _ _ _ (by decide) hinteger hfraction hexponent)
  have hkey : Literal "string" "\"a\"".toList :=
    .string (.plain (by decide) (by decide) (by decide) .nil)
  have hitem := Derives.document hnone (.literal hnumber) hnone
  have hlast := Derives.document hnone (.literal .yes) hnone
  have harray := Derives.document hbreak (.array (.items hitem (.lastItem hlast))) hnone
  exact .document hnone (.object (.lastMember (.member hnone hkey hnone harray))) hnone

/-- The key, the number and the truth value get tokens. -/
theorem sample_tokens :
    PatternEngine.backtracking.LeftmostFirst ∧ Derives .document sample ∧
      (Highlighter.json .backtracking).highlight "\x7b\"a\":\n[-2.5e3,true]\x7d".toList
        = [⟨1, 4, "string"⟩, ⟨7, 13, "number"⟩, ⟨14, 18, "boolean"⟩] :=
  ⟨PatternEngine.backtracking_leftmostFirst, sample_derives,
    highlight_document _ PatternEngine.backtracking_leftmostFirst sample sample_derives⟩

end JsonText

end HeadlessEditor
