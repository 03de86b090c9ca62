import HeadlessEditor.Proofs.HighlightedLines
import HeadlessEditor.Proofs.SearchedWays
import HeadlessEditor.Syntax.Grammars

/-!
Rules on one line. What a rule finds there has only characters that its pattern admits and begins with one
that it can begin with. What rules propose stays if nothing that is proposed before reaches into it.
-/

namespace HeadlessEditor

open Pattern

/-- A text without a newline is one line. -/
theorem Text.lines_of_notMem {line : Text} (h : '\n' ∉ line) : line.lines = [line] := by
  have hlines := Text.lines_append_of_notMem h Text.lines_nil
  simpa using hlines

namespace HighlightRule

variable {engine : PatternEngine} {p : Pattern} {text : Text} {className : String} {group place : Nat}
  {token : Token} {c : Char}

def Avoids (rule : HighlightRule) (c : Char) : Prop :=
  ∀ text token place, rule.Finds 0 text token → token.start ≤ place → place < token.stop →
    text[place]? ≠ some c

theorem Finds.className_eq {rule : HighlightRule} {lineStart : Nat} (h : rule.Finds lineStart text token) :
    token.className = rule.className := by
  obtain ⟨_, _, start, stop, -, -, -, rfl⟩ := h
  rfl

section

variable (hfirst : engine.LeftmostFirst)
include hfirst

theorem finds_iff (hp : p.progresses) :
    Finds ⟨engine.matcher p, className, group⟩ 0 text token ↔
      ∃ found ∈ engine.matchesIn p text, ∃ start stop, found.group? group = some (start, stop) ∧
        start < stop ∧ token = ⟨start, stop, className⟩ := by
  have hinside : ∀ found ∈ engine.matchesIn p text, ∀ start stop, found.group? group = some (start, stop) →
      stop ≤ text.length := fun found hfound start stop hgroup =>
    Nat.le_trans ((engine.sound _ _ _ hfound).group_within hgroup).2
      ((hfirst.mem_iff hp).1 hfound).1.takes.2.1
  unfold Finds Covers
  constructor
  · rintro ⟨_, hmatch, start, stop, hlt, hle, hgroup, rfl⟩
    obtain ⟨found, hfound, rfl⟩ := List.mem_map.1 hmatch
    rw [Match.group?_inBytes] at hgroup
    obtain ⟨⟨first, last⟩, hfirst, hbytes⟩ := Option.map_eq_some_iff.1 hgroup
    obtain ⟨hstart, hstop⟩ := Prod.mk.inj hbytes
    have hlast := hinside found hfound first last hfirst
    have horder : first < last := by
      refine Nat.lt_of_not_le fun hback => Nat.not_le.2 hlt ?_
      have hbytes := text.byteIndex_mono hback
      rw [hstart, hstop] at hbytes
      exact (Text.byteIndex_le_iff hle (by omega)).1 hbytes
    obtain rfl := Text.byteIndex_inj (by omega) (by omega) hstart
    obtain rfl := Text.byteIndex_inj hlast hle hstop
    exact ⟨found, hfound, first, last, hfirst, hlt, by simp⟩
  · rintro ⟨found, hfound, start, stop, hgroup, hlt, rfl⟩
    refine ⟨found.inBytes text, List.mem_map_of_mem hfound, start, stop, hlt,
      hinside found hfound start stop hgroup, ?_, by simp⟩
    rw [Match.group?_inBytes, hgroup]
    rfl

/-- A rule for whole matches covers them. -/
theorem rule_finds_iff (hp : p.progresses) :
    (Highlighter.rule engine className p).Finds 0 text token ↔
      ∃ found ∈ engine.matchesIn p text, token = ⟨found.start, found.stop, className⟩ := by
  rw [Highlighter.rule, finds_iff hfirst hp]
  constructor
  · rintro ⟨found, hfound, start, stop, hgroup, -, rfl⟩
    obtain ⟨rfl, rfl⟩ := Prod.mk.inj (Option.some.inj hgroup)
    exact ⟨found, hfound, rfl⟩
  · rintro ⟨found, hfound, rfl⟩
    exact ⟨found, hfound, _, _, rfl, ((hfirst.mem_iff hp).1 hfound).1.start_lt_stop hp, rfl⟩

/-- What a rule finds has characters that the pattern admits. -/
theorem Finds.admits (hp : p.progresses)
    (h : Finds ⟨engine.matcher p, className, group⟩ 0 text token)
    (hstart : token.start ≤ place) (hstop : place < token.stop) (hc : text[place]? = some c) :
    p.admits c := by
  obtain ⟨found, hfound, start, stop, hgroup, -, rfl⟩ := (finds_iff hfirst hp).1 h
  obtain ⟨hbegin, hend⟩ := (engine.sound _ _ _ hfound).group_within hgroup
  refine ((hfirst.mem_iff hp).1 hfound).1.takes.2.2 c ?_
  dsimp only at hstart hstop
  rw [Text.slice, List.mem_iff_getElem?]
  refine ⟨place - found.start, ?_⟩
  rw [List.getElem?_take_of_lt (by omega), List.getElem?_drop, ← hc]
  congr 1
  omega

theorem avoids_of_not_admits (hp : p.progresses) (hc : p.admits c = false) :
    Avoids ⟨engine.matcher p, className, group⟩ c := by
  intro text token place hfinds hstart hstop hplace
  have hadmits := hfinds.admits hfirst hp hstart hstop hplace
  rw [hc] at hadmits
  cases hadmits

/-- What a rule for whole matches finds begins with a character that a match can begin with. -/
theorem Finds.opens (hp : p.progresses) (h : (Highlighter.rule engine className p).Finds 0 text token) :
    ∃ c, text[token.start]? = some c ∧ p.opensWith c := by
  obtain ⟨found, hfound, rfl⟩ := (rule_finds_iff hfirst hp).1 h
  have hstarts := ((hfirst.mem_iff hp).1 hfound).1
  exact hstarts.opens (hstarts.start_lt_stop hp)

end

end HighlightRule

namespace Highlighter

variable {highlighter : Highlighter} {line text : Text} {candidate other : Candidate}

theorem proposes_line_iff (hline : '\n' ∉ line) :
    highlighter.Proposes line candidate ↔
      ∃ rule, highlighter.rules[candidate.rule]? = some rule ∧ rule.Finds 0 line candidate.token := by
  rw [Proposes, Text.lines_of_notMem hline]
  constructor
  · rintro ⟨number, content, rule, hcontent, hrule, hfinds⟩
    cases number with
    | zero =>
      obtain rfl := Option.some.inj hcontent
      exact ⟨rule, hrule, hfinds⟩
    | succ number => cases hcontent
  · rintro ⟨rule, hrule, hfinds⟩
    exact ⟨0, line, rule, rfl, hrule, hfinds⟩

theorem Proposes.nonempty (h : highlighter.Proposes text candidate) :
    candidate.token.start < candidate.token.stop :=
  ordered_nonempty (proposes_iff.1 h)

/-- The tokens of a text start one behind the other. -/
theorem highlight_starts (highlighter : Highlighter) (text : Text) :
    (highlighter.highlight text).Pairwise fun a b => a.start < b.start := by
  refine (highlighter.highlight_disjoint text).imp_of_mem fun ha _ hle => ?_
  obtain ⟨_, _, _, _, hnonempty, _⟩ := on_line_of_mem_highlight ha
  exact Nat.lt_of_lt_of_le hnonempty hle

/-- Different tokens of a text do not overlap. -/
theorem highlight_apart {token token' : Token} (h : token ∈ highlighter.highlight text)
    (h' : token' ∈ highlighter.highlight text) (hne : token ≠ token') :
    token.stop ≤ token'.start ∨ token'.stop ≤ token.start := by
  have hdisjoint := highlighter.highlight_disjoint text
  have hapart : ∀ a ∈ highlighter.highlight text, ∀ b ∈ highlighter.highlight text,
      a ≠ b → a.stop ≤ b.start ∨ b.stop ≤ a.start := by
    refine List.Pairwise.forall_of_forall_of_flip (fun _ _ hne => absurd rfl hne) ?_ ?_
    · exact hdisjoint.imp fun hle _ => Or.inl hle
    · exact hdisjoint.imp fun hle _ => Or.inr hle
  exact hapart token h token' h' hne

/-- A token of a line is one that a rule of its class finds. -/
theorem finds_of_mem_highlight {token : Token} (hline : '\n' ∉ line)
    (h : token ∈ highlighter.highlight line) :
    ∃ rule ∈ highlighter.rules, token.className = rule.className ∧ rule.Finds 0 line token := by
  obtain ⟨candidate, hkept, rfl⟩ := List.mem_map.1 h
  obtain ⟨rule, hrule, hfinds⟩ := (proposes_line_iff hline).1 (mem_kept.1 hkept).1
  exact ⟨rule, List.mem_of_getElem? hrule, hfinds.className_eq, hfinds⟩

/-- What a rule finds on a line is a token of it, if nothing that is found before reaches into it. -/
theorem mem_highlight_of_clear {index : Nat} {rule : HighlightRule} {token : Token} (hline : '\n' ∉ line)
    (hrule : highlighter.rules[index]? = some rule) (hfinds : rule.Finds 0 line token)
    (hclear : ∀ index' rule' other, highlighter.rules[index']? = some rule' → rule'.Finds 0 line other →
      other.start < token.start ∨ other.start = token.start ∧ index' < index →
      other.stop ≤ token.start) : token ∈ highlighter.highlight line := by
  have hproposed : highlighter.Proposes line ⟨index, token⟩ :=
    (proposes_line_iff hline).2 ⟨rule, hrule, hfinds⟩
  refine List.mem_map.2 ⟨_, mem_kept.2 ⟨hproposed, fun other hother hprecedes => ?_⟩, rfl⟩
  have hproposed' := (mem_kept.1 hother).1
  obtain ⟨rule', hrule', hfinds'⟩ := (proposes_line_iff hline).1 hproposed'
  rw [hprecedes.meets_iff hproposed'.nonempty hproposed.nonempty, Nat.not_lt]
  exact hclear _ rule' other.token hrule' hfinds' hprecedes

end Highlighter

end HeadlessEditor
