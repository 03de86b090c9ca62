import HeadlessEditor.Proofs.CommentMarks

/-!
Comments in Rust. One pattern goes over all of the line: over strings, over slashes that begin no comment
together with what follows them, and over other characters, up to a comment. It has no way over a slash
right before a string, so a comment behind one is not found.
-/

namespace HeadlessEditor

open Pattern Quoting

/-- How far a round of the code before a comment in Rust goes, if there is one: over a string, over a slash
that begins no comment and what follows it, or over another character. -/
def rustCodeStep? : Text → Option Nat
  | [] => none
  | c :: rest =>
    if c = '"' then literal? false (c :: rest)
    else if c = '/' then
      if rest.head?.any fun d => d != '/' && d != '"' then some 2 else none
    else some 1

def rustCode : Pattern := choice [noneOf "\"/", quotedString, seq (one '/') (noneOf "/\"")]

section Code

variable {spot : Spot} {text : Text} {place count : Nat}

theorem rustCode_ways (hline : '\n' ∉ spot.rest) :
    rustCode.ways spot = ((rustCodeStep? spot.rest).map fun count => (spot.skip count, [])).toList := by
  have hways : rustCode.ways spot
      = (noneOf "\"/").ways spot
        ++ (quotedString.ways spot ++ goingOn ((one '/').ways spot) (noneOf "/\"").ways) := rfl
  rw [hways, quotedString_readsLiterals spot hline, ways_one, noneOf, ways]
  cases hrest : spot.rest with
  | nil => simp [rustCodeStep?, literal?]
  | cons c rest =>
    have hset : ∀ c, (CharSet.complement (.ofString "\"/")).contains c = !(c == '"' || c == '/') := by
      simp [CharSet.contains, CharSet.ofString]
    have hset' : ∀ c, (CharSet.complement (.ofString "/\"")).contains c = !(c == '/' || c == '"') := by
      simp [CharSet.contains, CharSet.ofString]
    rw [rustCodeStep?]
    by_cases hquote : c = '"'
    · subst hquote
      simp [hset]
    · have hnone := literal?_cons_of_ne hquote
      by_cases hslash : c = '/'
      · subst hslash
        cases rest with
        | nil => simp [hset, hnone, noneOf, ways, hrest]
        | cons d rest =>
          by_cases hd : d = '/'
          · simp [hset, hset', hnone, noneOf, ways, hrest, hd]
          · by_cases hd' : d = '"' <;> simp [hset, hset', hnone, noneOf, ways, hrest, hd, hd']
      · simp [hset, hnone, hquote, hslash]

/-- A round ends outside of literals, and neither a comment nor a slash right before a string is met in it. -/
theorem rustCodeStep?_spec (h : rustCodeStep? text = some count) :
    0 < count ∧ Outside false text count ∧
      ∀ c, c = '/' ∨ c = '"' → Unmet false ['/', c] text count := by
  cases text with
  | nil => cases h
  | cons first rest =>
    rw [rustCodeStep?] at h
    split at h
    · rename_i hquote
      obtain ⟨hstretch, hlong⟩ := literal?_eq_some_iff.1 h
      refine ⟨hstretch.start_lt_stop, hstretch.stop_outside, fun c hc before hbefore houtside hmark => ?_⟩
      cases before with
      | zero => simp [hquote] at hmark
      | succ before => exact hstretch.inside _ (Nat.succ_pos _) hbefore houtside
    · rename_i hquote
      have houtside : Outside false (first :: rest) 1 := by simp [Outside, scan, Quoting.step, hquote]
      split at h
      · obtain ⟨hnext, hcount⟩ := Option.ite_none_right_eq_some.1 h
        obtain rfl := Option.some.inj hcount
        obtain ⟨d, hd, hplain⟩ := (Option.any_eq_true _ _).1 hnext
        obtain ⟨rest, rfl⟩ := List.head?_eq_some_iff.1 hd
        obtain ⟨hslash, hstring⟩ : d ≠ '/' ∧ d ≠ '"' := by simpa using hplain
        have hends : Outside false (first :: d :: rest) 2 := by
          simp [Outside, scan, Quoting.step, hquote, hstring]
        refine ⟨Nat.two_pos, hends, fun c hc before hbefore _ hmark => ?_⟩
        have hplace : before = 0 ∨ before = 1 := by omega
        rcases hplace with rfl | rfl
        · obtain ⟨-, rfl⟩ : '/' = first ∧ c = d := by simpa using hmark
          exact hc.elim hslash hstring
        · simp [Ne.symm hslash] at hmark
      · rename_i hslash
        obtain rfl := Option.some.inj h
        refine ⟨Nat.one_pos, houtside, fun c hc before hbefore _ hmark => ?_⟩
        obtain rfl := Nat.lt_one_iff.1 hbefore
        simp [Ne.symm hslash] at hmark

/-- A round leads on to where a comment begins, unless a slash stands right before a string. -/
theorem rustCodeStep?_of_meets (h : Meets false ['/', '/'] text place) (hpos : 0 < place)
    (hfree : Unmet false ['/', '"'] text place) : ∃ count ≤ place, rustCodeStep? text = some count := by
  have hnone := h.unmet 0 hpos (outside_zero _ _)
  have hnone' := hfree 0 hpos (outside_zero _ _)
  have hfound := h.found
  cases text with
  | nil => simp at hfound
  | cons first rest =>
    rw [rustCodeStep?]
    split
    · rename_i hquote
      obtain ⟨stop, hstop, hstretch⟩ := h.outside.exists_stretch hpos
      refine ⟨stop, hstop, literal?_eq_some_iff.2 ⟨hstretch, ?_⟩⟩
      refine Nat.lt_of_le_of_ne hstretch.start_lt_stop fun hone => ?_
      obtain rfl := hone.symm
      have hscan := hstretch.stop_outside.2
      simp [scan, Quoting.step, hquote] at hscan
    · split
      · rename_i hslash
        subst hslash
        cases rest with
        | nil =>
          have hend : ['/'].drop place = [] := List.drop_eq_nil_of_le hpos
          simp [hend] at hfound
        | cons d rest =>
          have hd : d ≠ '/' := fun hd => hnone (by simp [hd])
          have hd' : d ≠ '"' := fun hd => hnone' (by simp [hd])
          refine ⟨2, Nat.lt_of_le_of_ne hpos fun hone => ?_, by simp [hd, hd']⟩
          obtain rfl := hone
          simp [Ne.symm hd] at hfound
      · exact ⟨1, hpos, rfl⟩

def rustCommentPart : Pattern := seq (group 1 (chain [one '/', one '/', many any])) atEnd

theorem rustCommentPart_ways (hline : '\n' ∉ spot.rest) :
    rustCommentPart.ways spot =
      if ['/', '/'] <+: spot.rest then
        [(spot.skip spot.rest.length, [(1, spot.offset, spot.offset + spot.rest.length)])]
      else [] := by
  have hways : rustCommentPart.ways spot
      = goingOn ((goingOn ((one '/').ways spot) fun first =>
          goingOn ((one '/').ways first) (many any).ways).map
        fun way => (way.1, (1, spot.offset, way.1.offset) :: way.2)) atEnd.ways := rfl
  rw [hways, ways_one]
  rcases hrest : spot.rest with _ | ⟨c, _ | ⟨d, rest⟩⟩
  · simp
  · by_cases hc : c = '/' <;> simp [hc, ways_one, hrest]
  · by_cases hmark : c = '/' ∧ d = '/'
    · obtain ⟨rfl, rfl⟩ := hmark
      have hlater : '\n' ∉ (spot.skip 2).rest := fun hmem => hline (List.mem_of_mem_drop hmem)
      have hskip := rest_ways hlater fun way => (1, spot.offset, way.1.offset) :: way.2
      simpa [ways_one, hrest, Nat.add_comm, Nat.add_left_comm] using hskip
    · by_cases hc : c = '/'
      · have hd : d ≠ '/' := fun hd => hmark ⟨hc, hd⟩
        simp [hc, ways_one, hrest, hd, Ne.symm hd]
      · simp [hc, Ne.symm hc]

end Code

/-- The line up to its end, with a comment that begins where the scan first meets one. -/
def rustComment : Pattern := seq atStart (seq (many rustCode) rustCommentPart)

theorem rustCode_comment_ways {spot : Spot} (way : Way) (hline : '\n' ∉ spot.rest) :
    way ∈ (seq (many rustCode) rustCommentPart).ways spot ↔
      ∃ place, Meets false ['/', '/'] spot.rest place ∧ Unmet false ['/', '"'] spot.rest place ∧
        way = (spot.skip spot.rest.length,
          [(1, spot.offset + place, spot.offset + spot.rest.length)]) := by
  induction hlength : spot.rest.length using Nat.strong_induction_on generalizing spot with
  | _ length ih =>
    rw [many, ways_star_seq (by decide), List.mem_append, rustCode_ways hline, rustCommentPart_ways hline]
    cases hstep : rustCodeStep? spot.rest with
    | none =>
      simp only [Option.map_none, Option.toList_none, goingOn_nil, List.not_mem_nil, false_or,
        List.mem_ite_nil_right, List.mem_singleton]
      constructor
      · rintro ⟨hmark, rfl⟩
        have hfree : ∀ mark, Unmet false mark spot.rest 0 := fun _ _ hlt => absurd hlt (Nat.not_lt_zero _)
        exact ⟨0, ⟨outside_zero _ _, hmark, hfree _⟩, hfree _, by simp [hlength]⟩
      · rintro ⟨place, hmeets, hfree, rfl⟩
        rcases Nat.eq_zero_or_pos place with rfl | hpos
        · exact ⟨hmeets.found, by simp [hlength]⟩
        · obtain ⟨count, -, hcount⟩ := rustCodeStep?_of_meets hmeets hpos hfree
          rw [hstep] at hcount
          cases hcount
    | some count =>
      obtain ⟨hpos, houtside, hfree⟩ := rustCodeStep?_spec hstep
      have hnone : ¬ ['/', '/'] <+: spot.rest := hfree '/' (Or.inl rfl) 0 hpos (outside_zero _ _)
      have hle : count ≤ spot.rest.length := houtside.1
      have hlater : '\n' ∉ (spot.skip count).rest := fun hmem => hline (List.mem_of_mem_drop hmem)
      have hends : (spot.skip count).skip (spot.skip count).rest.length = spot.skip length := by
        simp [← hlength, Nat.add_sub_cancel' hle]
      have hstops : (spot.skip count).offset + (spot.skip count).rest.length = spot.offset + length := by
        simp only [Spot.skip_offset, Spot.skip_rest, List.length_drop]
        omega
      have ih := ih (spot.skip count).rest.length (by simp; omega) hlater rfl
      simp only [Option.map_some, Option.toList_some, goingOn_singleton, hnone, if_false,
        List.not_mem_nil, or_false]
      rw [many] at ih
      rw [ih, hends, hstops]
      constructor
      · rintro ⟨place, hmeets, hfree', rfl⟩
        refine ⟨count + place, (meets_add_iff houtside).2 ⟨hfree _ (Or.inl rfl), hmeets⟩,
          (unmet_add_iff houtside).2 ⟨hfree _ (Or.inr rfl), hfree'⟩, ?_⟩
        rw [Spot.skip_offset, Nat.add_assoc]
      · rintro ⟨place, hmeets, hfree', rfl⟩
        obtain ⟨further, rfl⟩ : ∃ further, place = count + further :=
          Nat.exists_eq_add_of_le (Nat.le_of_not_lt fun hlt =>
            hfree _ (Or.inl rfl) place hlt hmeets.outside hmeets.found)
        refine ⟨further, ((meets_add_iff houtside).1 hmeets).2, ((unmet_add_iff houtside).1 hfree').2, ?_⟩
        rw [Spot.skip_offset, Nat.add_assoc]

section Rust

open Highlighter

variable {line : Text} {token : Token} {place : Nat} (hline : '\n' ∉ line)
include hline

theorem rustComment_starts_iff {found : Match} :
    rustComment.Starts line found ↔
      ∃ place, Meets false ['/', '/'] line place ∧ Unmet false ['/', '"'] line place ∧
        found = ⟨0, line.length, [(1, place, line.length)]⟩ := by
  have hways : ∀ way, way ∈ (seq (many rustCode) rustCommentPart).ways (Spot.start line) ↔
      ∃ place, Meets false ['/', '/'] line place ∧ Unmet false ['/', '"'] line place ∧
        way = ((Spot.start line).skip line.length, [(1, place, line.length)]) := by
    intro way
    have hstart : '\n' ∉ (Spot.start line).rest := hline
    simpa [Spot.start] using rustCode_comment_ways way hstart
  have hunique : ∀ way ∈ (seq (many rustCode) rustCommentPart).ways (Spot.start line),
      ∀ other ∈ (seq (many rustCode) rustCommentPart).ways (Spot.start line), way = other := by
    intro way hway other hother
    obtain ⟨place, hmeets, -, rfl⟩ := (hways way).1 hway
    obtain ⟨place', hmeets', -, rfl⟩ := (hways other).1 hother
    rw [hmeets.unique hmeets']
  rw [rustComment, starts_atStart_iff, first?_eq_some_iff hunique]
  obtain ⟨start, stop, captures⟩ := found
  constructor
  · rintro ⟨rfl, way, hway, hsame⟩
    obtain ⟨place, hmeets, hfree, rfl⟩ := (hways way).1 hway
    obtain ⟨rfl, rfl⟩ := Prod.mk.inj hsame
    exact ⟨place, hmeets, hfree, by simp [Spot.start]⟩
  · rintro ⟨place, hmeets, hfree, hsame⟩
    obtain ⟨rfl, rfl, rfl⟩ := Match.mk.inj hsame
    exact ⟨rfl, _, (hways _).2 ⟨place, hmeets, hfree, rfl⟩, by simp [Spot.start]⟩

variable {engine : PatternEngine} (hfirst : engine.LeftmostFirst)
include hfirst

/-- The rule for comments finds the first one, if no slash stands right before a string there. -/
theorem rustComment_finds_iff :
    (groupRule engine "comment" rustComment).Finds 0 line token ↔
      ∃ place, Meets false ['/', '/'] line place ∧ Unmet false ['/', '"'] line place ∧
        token = ⟨place, line.length, "comment"⟩ := by
  have hp : rustComment.progresses := by decide
  rw [groupRule, HighlightRule.finds_iff hfirst hp]
  constructor
  · rintro ⟨found, hfound, start, stop, hgroup, hlt, rfl⟩
    obtain ⟨place, hmeets, hfree, rfl⟩ :=
      (rustComment_starts_iff hline).1 ((hfirst.mem_iff hp).1 hfound).1
    obtain ⟨rfl, rfl⟩ := Prod.mk.inj (Option.some.inj hgroup)
    exact ⟨place, hmeets, hfree, rfl⟩
  · rintro ⟨place, hmeets, hfree, rfl⟩
    refine ⟨⟨0, line.length, [(1, place, line.length)]⟩, (hfirst.mem_iff hp).2 ⟨?_, ?_⟩, place,
      line.length, rfl, ?_, rfl⟩
    · exact (rustComment_starts_iff hline).2 ⟨place, hmeets, hfree, rfl⟩
    · exact fun other _ hlt => absurd hlt (Nat.not_lt_zero _)
    · have hlength := hmeets.found.length_le
      simp at hlength
      omega

omit hline in
theorem rust_rules :
    ∃ rest, (rust engine).rules
        = groupRule engine "comment" rustComment :: rule engine "string" quotedString :: rest ∧
      ∀ rule ∈ rest, rule.Avoids '/' ∧ rule.className ≠ "comment" := by
  refine ⟨_, rfl, ?_⟩
  intro rule hrule
  simp only [List.mem_cons, List.not_mem_nil, or_false] at hrule
  rcases hrule with rfl | rfl | rfl
  all_goals
    exact ⟨HighlightRule.avoids_of_not_admits hfirst (by decide +kernel) (by decide +kernel), by simp⟩

theorem rust_comment_of_mem (h : token ∈ (rust engine).highlight line) (hclass : token.className = "comment") :
    ∃ place, Meets false ['/', '/'] line place ∧ Unmet false ['/', '"'] line place ∧
      token = ⟨place, line.length, "comment"⟩ := by
  obtain ⟨rule, hrule, hname, hfinds⟩ := finds_of_mem_highlight hline h
  obtain ⟨rest, hrules, hrest⟩ := rust_rules hfirst
  rw [hclass] at hname
  rw [hrules] at hrule
  rcases List.mem_cons.1 hrule with rfl | hrule
  · exact (rustComment_finds_iff hline hfirst).1 hfinds
  rcases List.mem_cons.1 hrule with rfl | hrule
  · exact absurd hname (by simp)
  · exact absurd hname.symm (hrest rule hrule).2

theorem rust_comment_mem (hmeets : Meets false ['/', '/'] line place)
    (hfree : Unmet false ['/', '"'] line place) :
    (⟨place, line.length, "comment"⟩ : Token) ∈ (rust engine).highlight line := by
  obtain ⟨rest, hrules, hrest⟩ := rust_rules hfirst
  have hfinds := (rustComment_finds_iff hline hfirst).2 ⟨place, hmeets, hfree, rfl⟩
  have hrule : (rust engine).rules[0]? = some (groupRule engine "comment" rustComment) := by
    rw [hrules]
    rfl
  refine mem_highlight_of_clear hline hrule hfinds fun index rule other hrule hfinds hbefore => ?_
  have hearlier : other.start < place := hbefore.resolve_right fun h => Nat.not_lt_zero _ h.2
  have hrule := List.mem_of_getElem? hrule
  rw [hrules] at hrule
  rcases List.mem_cons.1 hrule with rfl | hrule
  · obtain ⟨place', hmeets', -, rfl⟩ := (rustComment_finds_iff hline hfirst).1 hfinds
    exact absurd (hmeets'.unique hmeets) (Nat.ne_of_lt hearlier)
  rcases List.mem_cons.1 hrule with rfl | hrule
  · obtain ⟨found, hfound, rfl⟩ := (HighlightRule.rule_finds_iff hfirst (by decide)).1 hfinds
    exact quotedString_readsLiterals.stop_le (by decide) hline hfirst hmeets.outside hfound hearlier
  · exact Nat.le_of_not_lt fun hlt =>
      (hrest rule hrule).1 line _ place hfinds (Nat.le_of_lt hearlier) hlt hmeets.getElem?

end Rust

/-- The comment tokens of a line begin where a scan first meets two slashes outside of literals, and end with
the line. Where a scan meets them, there is such a token just if no slash outside of literals stands right
before a double quote until there. -/
theorem rust_comments (engine : PatternEngine) (hfirst : engine.LeftmostFirst) (line : Text)
    (hline : '\n' ∉ line) :
    (∀ token ∈ (Highlighter.rust engine).highlight line, token.className = "comment" →
      ∃ place, Meets false ['/', '/'] line place ∧ token = ⟨place, line.length, "comment"⟩) ∧
    ∀ place, Meets false ['/', '/'] line place →
      (⟨place, line.length, "comment"⟩ ∈ (Highlighter.rust engine).highlight line ↔
        Unmet false ['/', '"'] line place) := by
  refine ⟨fun token htoken hclass => ?_, fun place hmeets =>
    ⟨fun htoken => ?_, rust_comment_mem hline hfirst hmeets⟩⟩
  · obtain ⟨place, hmeets, -, hsame⟩ := rust_comment_of_mem hline hfirst htoken hclass
    exact ⟨place, hmeets, hsame⟩
  · obtain ⟨place', hmeets', hfree, hsame⟩ := rust_comment_of_mem hline hfirst htoken rfl
    rwa [hmeets.unique hmeets']

/-- Behind slashes in a string. -/
theorem rust_comment_behind_string :
    PatternEngine.backtracking.LeftmostFirst ∧ '\n' ∉ "\"//\" // c".toList ∧
      Meets false ['/', '/'] "\"//\" // c".toList 5 ∧
      (⟨5, 9, "comment"⟩ : Token) ∈ (Highlighter.rust .backtracking).highlight "\"//\" // c".toList :=
  ⟨PatternEngine.backtracking_leftmostFirst, by decide, by decide,
    ((rust_comments _ PatternEngine.backtracking_leftmostFirst _ (by decide)).2 5 (by decide)).2 (by decide)⟩

/-- A slash right before a string. -/
theorem rust_comment_lost :
    Meets false ['/', '/'] "a/\"b\" // c".toList 6 ∧
      (⟨6, 10, "comment"⟩ : Token) ∉ (Highlighter.rust .backtracking).highlight "a/\"b\" // c".toList := by
  have hmeets : Meets false ['/', '/'] "a/\"b\" // c".toList 6 := by decide
  refine ⟨hmeets, fun htoken => ?_⟩
  obtain ⟨place, hmeets', hfree, -⟩ := rust_comment_of_mem (by decide)
    PatternEngine.backtracking_leftmostFirst htoken rfl
  rw [← hmeets.unique hmeets'] at hfree
  revert hfree
  decide

end HeadlessEditor
