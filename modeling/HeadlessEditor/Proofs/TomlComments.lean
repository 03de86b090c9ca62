import HeadlessEditor.Proofs.CommentMarks

/-!
Comments in TOML. The rule for them takes the first number sign of a line, even in a string. If it is in one,
the comment is dropped for the string, and the rule finds no other.
-/

namespace HeadlessEditor

open Pattern Quoting

def tomlComment : Pattern := seq (one '#') (seq (many any) atEnd)

theorem tomlComment_ways {spot : Spot} (hline : '\n' ∉ spot.rest) :
    tomlComment.ways spot =
      if spot.rest.head? = some '#' then [(spot.skip spot.rest.length, [])] else [] := by
  have hways : tomlComment.ways spot
      = goingOn ((one '#').ways spot) fun first => goingOn ((many any).ways first) atEnd.ways := rfl
  rw [hways, ways_one]
  split
  · rename_i hmark
    obtain ⟨rest, hrest⟩ := List.head?_eq_some_iff.1 hmark
    have hlater : '\n' ∉ (spot.skip 1).rest := fun hmem => hline (List.mem_of_mem_drop hmem)
    have hskip := rest_ways hlater Prod.snd
    rw [List.map_id'] at hskip
    rw [goingOn_singleton, hskip]
    simp [hrest, Nat.add_comm]
  · rfl

section Toml

open Highlighter

variable {text : Text} {token : Token} {place : Nat} (hline : '\n' ∉ text)
include hline

theorem tomlComment_starts_iff {found : Match} :
    tomlComment.Starts text found ↔
      text[found.start]? = some '#' ∧ found.stop = text.length ∧ found.captures = [] := by
  have hrest : '\n' ∉ ((Spot.start text).skip found.start).rest := fun hmem =>
    hline (List.mem_of_mem_drop hmem)
  have hhead : ((Spot.start text).skip found.start).rest.head? = text[found.start]? := List.head?_drop
  rw [starts_iff, first?, tomlComment_ways hrest, hhead]
  by_cases hmark : text[found.start]? = some '#'
  · have hle : found.start ≤ text.length := Nat.le_of_lt (List.getElem?_eq_some_iff.1 hmark).1
    simp [hmark, hle, Spot.start, eq_comm]
  · simp [hmark]

omit hline in
theorem notMem_take_iff {c : Char} : c ∉ text.take place ↔ ∀ before < place, text[before]? ≠ some c := by
  simp only [List.mem_iff_getElem?, List.getElem?_take, Option.ite_none_right_eq_some, not_exists, not_and]

variable {engine : PatternEngine} (hfirst : engine.LeftmostFirst)
include hfirst

theorem mem_matchesIn_tomlComment {found : Match} :
    found ∈ engine.matchesIn tomlComment text ↔ tomlComment.Starts text found ∧ '#' ∉ text.take found.start := by
  rw [hfirst.mem_iff (by decide)]
  refine and_congr_right fun hstarts => ?_
  rw [notMem_take_iff]
  constructor
  · intro hclear before hbefore hmark
    have hsome : ∃ place, text[place]? = some '#' := ⟨before, hmark⟩
    have hhit : ⟨Nat.find hsome, text.length, []⟩ ∈ engine.matchesIn tomlComment text := by
      refine (hfirst.mem_iff (by decide)).2 ⟨?_, fun other hother hlt => ?_⟩
      · exact (tomlComment_starts_iff hline).2 ⟨Nat.find_spec hsome, rfl, rfl⟩
      · have hothers := ((hfirst.mem_iff (by decide)).1 hother).1
        exact absurd ((tomlComment_starts_iff hline).1 hothers).1 (Nat.find_min hsome hlt)
    have hstop := hclear _ hhit (Nat.lt_of_le_of_lt (Nat.find_min' hsome hmark) hbefore)
    have hlt := hstarts.start_lt_stop (by decide)
    rw [((tomlComment_starts_iff hline).1 hstarts).2.1] at hlt
    exact absurd hstop (Nat.not_le.2 hlt)
  · intro hfree other hother hlt
    have hothers := ((hfirst.mem_iff (by decide)).1 hother).1
    exact absurd ((tomlComment_starts_iff hline).1 hothers).1 (hfree _ hlt)

/-- The rule for comments finds one at the first number sign of a line, whatever is around that. -/
theorem tomlComment_finds_iff :
    (rule engine "comment" tomlComment).Finds 0 text token ↔
      ∃ place, text[place]? = some '#' ∧ '#' ∉ text.take place ∧ token = ⟨place, text.length, "comment"⟩ := by
  rw [HighlightRule.rule_finds_iff hfirst (by decide)]
  constructor
  · rintro ⟨found, hfound, rfl⟩
    obtain ⟨hstarts, hfree⟩ := (mem_matchesIn_tomlComment hline hfirst).1 hfound
    obtain ⟨hmark, hstop, -⟩ := (tomlComment_starts_iff hline).1 hstarts
    exact ⟨found.start, hmark, hfree, by rw [hstop]⟩
  · rintro ⟨place, hmark, hfree, rfl⟩
    refine ⟨⟨place, text.length, []⟩, (mem_matchesIn_tomlComment hline hfirst).2 ⟨?_, hfree⟩, rfl⟩
    exact (tomlComment_starts_iff hline).2 ⟨hmark, rfl, rfl⟩

def tableHeader : Pattern := chain [atStart, many blank, one '[', maybe (one '['),
  group 1 (many1 (noneOf "]")), one ']', maybe (one ']'), many blank, atEnd]

omit hline in
/-- A header of a table begins with a bracket behind blanks. -/
theorem tableHeader_finds (h : (groupRule engine "section" tableHeader).Finds 0 text token) :
    (text.dropWhile Unicode.isBlank).head? = some '[' := by
  have hp : tableHeader.progresses := by decide
  obtain ⟨found, hfound, -⟩ := (HighlightRule.finds_iff hfirst hp).1 h
  have hway := (starts_atStart_iff.1 ((hfirst.mem_iff hp).1 hfound).1).2
  obtain ⟨way, hhead, -⟩ := Option.map_eq_some_iff.1 hway
  obtain ⟨blanks, hblanks, later, hlater, -⟩ := mem_goingOn.1 (List.mem_of_mem_head? hhead)
  obtain ⟨bracket, hbracket, -⟩ := mem_goingOn.1 hlater
  obtain ⟨count, -, -, hafter, hblank⟩ := ways_leads _ hblanks
  rw [ways_one, List.mem_ite_nil_right, hafter] at hbracket
  obtain ⟨rest, hrest⟩ := List.head?_eq_some_iff.1 hbracket.1
  have hsplit : text = text.take count ++ '[' :: rest := by
    rw [← hrest]
    exact (List.take_append_drop count text).symm
  have hblank : ∀ c ∈ text.take count, Unicode.isBlank c := hblank
  rw [hsplit, List.dropWhile_append_of_pos hblank, List.dropWhile_cons_of_neg (by decide)]
  rfl

omit hline in
theorem toml_rules :
    ∃ rest, (toml engine).rules = rule engine "string" eitherString
        :: rule engine "comment" tomlComment :: groupRule engine "section" tableHeader :: rest ∧
      ∀ rule ∈ rest, rule.Avoids '#' ∧ rule.className ≠ "comment" := by
  refine ⟨_, rfl, ?_⟩
  intro rule hrule
  simp only [List.mem_cons, List.not_mem_nil, or_false] at hrule
  rcases hrule with rfl | rfl | rfl
  all_goals
    exact ⟨HighlightRule.avoids_of_not_admits hfirst (by decide +kernel) (by decide +kernel), by simp⟩

theorem toml_comment_of_mem (h : token ∈ (toml engine).highlight text) (hclass : token.className = "comment") :
    ∃ place, text[place]? = some '#' ∧ '#' ∉ text.take place ∧ token = ⟨place, text.length, "comment"⟩ := by
  obtain ⟨rule, hrule, hname, hfinds⟩ := finds_of_mem_highlight hline h
  obtain ⟨rest, hrules, hrest⟩ := toml_rules hfirst
  rw [hclass] at hname
  rw [hrules] at hrule
  rcases List.mem_cons.1 hrule with rfl | hrule
  · exact absurd hname (by simp)
  rcases List.mem_cons.1 hrule with rfl | hrule
  · exact (tomlComment_finds_iff hline hfirst).1 hfinds
  rcases List.mem_cons.1 hrule with rfl | hrule
  · exact absurd hname (by simp)
  · exact absurd hname.symm (hrest rule hrule).2

theorem toml_comment_mem (hsection : (text.dropWhile Unicode.isBlank).head? ≠ some '[')
    (hmeets : Meets true ['#'] text place) (hfree : '#' ∉ text.take place) :
    (⟨place, text.length, "comment"⟩ : Token) ∈ (toml engine).highlight text := by
  obtain ⟨rest, hrules, hrest⟩ := toml_rules hfirst
  have hfinds := (tomlComment_finds_iff hline hfirst).2 ⟨place, hmeets.getElem?, hfree, rfl⟩
  have hrule : (toml engine).rules[1]? = some (Highlighter.rule engine "comment" tomlComment) := by
    rw [hrules]
    rfl
  refine mem_highlight_of_clear hline hrule hfinds fun index rule other hrule hfinds hbefore => ?_
  rw [hrules] at hrule
  rcases index with _ | _ | _ | index
  · obtain rfl := Option.some.inj hrule
    rcases hbefore with hearlier | ⟨htogether, -⟩
    · obtain ⟨found, hfound, rfl⟩ := (HighlightRule.rule_finds_iff hfirst (by decide)).1 hfinds
      exact eitherString_readsLiterals.stop_le (by decide) hline hfirst hmeets.outside hfound hearlier
    · -- No string begins with a number sign.
      obtain ⟨c, hc, hopens⟩ := hfinds.opens hfirst (by decide)
      rw [htogether, hmeets.getElem?] at hc
      obtain rfl := Option.some.inj hc
      exact absurd hopens (by decide)
  · obtain rfl := Option.some.inj hrule
    obtain ⟨place', hmark, -, rfl⟩ := (tomlComment_finds_iff hline hfirst).1 hfinds
    have hearlier : place' < place := hbefore.resolve_right fun h => Nat.lt_irrefl _ h.2
    exact absurd hmark (notMem_take_iff.1 hfree place' hearlier)
  · obtain rfl := Option.some.inj hrule
    exact absurd (tableHeader_finds hfirst hfinds) hsection
  · have hearlier : other.start < place := hbefore.resolve_right fun h => by omega
    exact Nat.le_of_not_lt fun hlt => (hrest rule (List.mem_of_getElem? hrule)).1 text _ place hfinds
      (Nat.le_of_lt hearlier) hlt hmeets.getElem?

end Toml

/-- Where a scan of a line that is no header of a table meets a number sign outside of literals, a comment
token begins and ends with the line just if no number sign is in the literals before. -/
theorem toml_comments (engine : PatternEngine) (hfirst : engine.LeftmostFirst) (line : Text) (hline : '\n' ∉ line)
    (hsection : (line.dropWhile Unicode.isBlank).head? ≠ some '[') (place : Nat)
    (hmeets : Meets true ['#'] line place) :
    ⟨place, line.length, "comment"⟩ ∈ (Highlighter.toml engine).highlight line ↔ '#' ∉ line.take place := by
  refine ⟨fun htoken => ?_, toml_comment_mem hline hfirst hsection hmeets⟩
  obtain ⟨place', -, hfree, hsame⟩ := toml_comment_of_mem hline hfirst htoken rfl
  obtain ⟨rfl, -⟩ := Token.mk.inj hsame
  exact hfree

/-- Behind a string without a number sign. -/
theorem toml_comment_behind_string :
    (PatternEngine.backtracking.LeftmostFirst ∧ '\n' ∉ "a = 'b' # c".toList ∧
      ("a = 'b' # c".toList.dropWhile Unicode.isBlank).head? ≠ some '[' ∧
      Meets true ['#'] "a = 'b' # c".toList 8) ∧
      (⟨8, 11, "comment"⟩ : Token) ∈ (Highlighter.toml .backtracking).highlight "a = 'b' # c".toList :=
  ⟨⟨PatternEngine.backtracking_leftmostFirst, by decide⟩,
    (toml_comments _ PatternEngine.backtracking_leftmostFirst _ (by decide) (by decide) 8 (by decide)).2 (by decide)⟩

/-- A number sign in a string. -/
theorem toml_comment_lost :
    (("a = \"#\" # c".toList.dropWhile Unicode.isBlank).head? ≠ some '[' ∧
      Meets true ['#'] "a = \"#\" # c".toList 8) ∧
      (⟨8, 11, "comment"⟩ : Token) ∉ (Highlighter.toml .backtracking).highlight "a = \"#\" # c".toList := by
  refine ⟨by decide, fun htoken => ?_⟩
  obtain ⟨place, -, hfree, hsame⟩ := toml_comment_of_mem (by decide)
    PatternEngine.backtracking_leftmostFirst htoken rfl
  obtain ⟨rfl, -⟩ := Token.mk.inj hsame
  revert hfree
  decide

end HeadlessEditor
