import HeadlessEditor.Proofs.LineCuts
import HeadlessEditor.Syntax.Highlighter

/-!
Which tokens a highlighter keeps. Matches are found by bytes, and tokens cover the characters that those
bytes make up. What one rule proposes does not overlap, so start and rule tell all candidates apart, and
sorting by them leaves nothing open. Going down the sorted candidates, it is enough to look at the last
one kept: all others that are kept end before it.
-/

namespace HeadlessEditor

namespace HighlightRule

variable {rule : HighlightRule} {lineStart : Nat} {line : Text} {found found' : Pattern.Match}
  {token token' : Token}

/-- The token covers the characters, and there are some, whose bytes a match covers or, if a group counts,
that group. The line starts at `lineStart`. -/
def Covers (rule : HighlightRule) (lineStart : Nat) (line : Text) (found : Pattern.Match)
    (token : Token) : Prop :=
  ∃ start stop, start < stop ∧ stop ≤ line.length ∧
    found.group? rule.group = some (line.byteIndex start, line.byteIndex stop) ∧
    token = ⟨lineStart + start, lineStart + stop, rule.className⟩

/-- Groups of different matches do not overlap, since they lie in them. -/
theorem Covers.apart (h : rule.Covers lineStart line found token)
    (h' : rule.Covers lineStart line found' token') (hfound : found ∈ rule.matcher.matchesIn line)
    (hfound' : found' ∈ rule.matcher.matchesIn line)
    (hapart : found.stop ≤ found'.start ∨ found'.stop ≤ found.start) :
    token.stop ≤ token'.start ∨ token'.stop ≤ token.start := by
  obtain ⟨start, stop, hlt, hle, hgroup, rfl⟩ := h
  obtain ⟨start', stop', hlt', hle', hgroup', rfl⟩ := h'
  have hin := rule.matcher.groups line found hfound _ _ _ hgroup
  have hin' := rule.matcher.groups line found' hfound' _ _ _ hgroup'
  rcases hapart with hbefore | hbehind
  · have hle : stop ≤ start' := (Text.byteIndex_le_iff (by omega) (by omega)).1 (by omega)
    exact Or.inl (Nat.add_le_add_left hle lineStart)
  · have hle : stop' ≤ start := (Text.byteIndex_le_iff (by omega) (by omega)).1 (by omega)
    exact Or.inr (Nat.add_le_add_left hle lineStart)

def Finds (rule : HighlightRule) (lineStart : Nat) (line : Text) (token : Token) : Prop :=
  ∃ found ∈ rule.matcher.matchesIn line, rule.Covers lineStart line found token

theorem Finds.on_line (h : rule.Finds lineStart line token) :
    lineStart ≤ token.start ∧ token.start < token.stop ∧ token.stop ≤ lineStart + line.length := by
  obtain ⟨_, _, start, stop, hlt, hle, _, rfl⟩ := h
  dsimp only
  omega

end HighlightRule

namespace Highlighter

variable {highlighter : Highlighter} {candidate : Candidate} {lineStart : Nat}

/-- Bytes that start and end between characters are turned into the offsets of these characters. -/
theorem tokenOfBytes_byteIndex {line : Text} {start stop : Nat} (hstart : start ≤ line.length)
    (hstop : stop ≤ line.length) (className : String) :
    tokenOfBytes lineStart line (line.byteIndex start) (line.byteIndex stop) className =
      if start < stop then some ⟨lineStart + start, lineStart + stop, className⟩ else none := by
  have horder := Text.byteIndex_le_iff hstop hstart
  have hinside := line.byteIndex_le stop
  rw [tokenOfBytes, Text.charCount_byteIndex hstart, Text.charCount_byteIndex hstop]
  by_cases hlt : start < stop
  · rw [if_neg (by omega), if_neg (by omega), if_pos hlt]
  · rw [if_pos (by omega), if_neg hlt]

theorem tokenOf_eq_some_iff {rule : HighlightRule} {line : Text} {found : Pattern.Match}
    {token : Token} (hfound : found ∈ rule.matcher.matchesIn line) :
    tokenOf rule lineStart line found = some token ↔ rule.Covers lineStart line found token := by
  rw [tokenOf, Option.bind_eq_some_iff]
  constructor
  · rintro ⟨⟨first, last⟩, hgroup, htoken⟩
    obtain ⟨⟨start, hstart, rfl⟩, stop, hstop, rfl⟩ :=
      rule.matcher.boundaries line found hfound _ _ _ hgroup
    dsimp only at htoken
    rw [tokenOfBytes_byteIndex hstart hstop] at htoken
    obtain ⟨hlt, hsame⟩ := Option.ite_none_right_eq_some.1 htoken
    exact ⟨start, stop, hlt, hstop, hgroup, (Option.some.inj hsame).symm⟩
  · rintro ⟨start, stop, hlt, hle, hgroup, rfl⟩
    refine ⟨_, hgroup, ?_⟩
    dsimp only
    rw [tokenOfBytes_byteIndex (by omega) hle, if_pos hlt]

theorem mem_ruleCandidates {index : Nat} {rule : HighlightRule} {line : Text} :
    candidate ∈ ruleCandidates index rule lineStart line ↔
      candidate.rule = index ∧ rule.Finds lineStart line candidate.token := by
  obtain ⟨number, token⟩ := candidate
  rw [ruleCandidates, List.mem_filterMap]
  constructor
  · rintro ⟨found, hfound, hproposed⟩
    obtain ⟨token', htoken, hsame⟩ := Option.map_eq_some_iff.1 hproposed
    obtain ⟨rfl, rfl⟩ := Candidate.mk.inj hsame
    exact ⟨rfl, found, hfound, (tokenOf_eq_some_iff hfound).1 htoken⟩
  · rintro ⟨rfl, found, hfound, hcovers⟩
    refine ⟨found, hfound, ?_⟩
    rw [(tokenOf_eq_some_iff hfound).2 hcovers]
    rfl

theorem mem_lineCandidates {index : Nat} {line : Text} {rules : List HighlightRule} :
    candidate ∈ lineCandidates index lineStart line rules ↔
      ∃ i rule, rules[i]? = some rule ∧ candidate.rule = index + i ∧
        rule.Finds lineStart line candidate.token := by
  induction rules generalizing index with
  | nil => simp [lineCandidates]
  | cons rule rest ih =>
    rw [lineCandidates, List.mem_append, mem_ruleCandidates, ih]
    constructor
    · rintro (⟨hindex, hfinds⟩ | ⟨i, later, hlater, hindex, hfinds⟩)
      · exact ⟨0, rule, rfl, hindex, hfinds⟩
      · exact ⟨i + 1, later, hlater, by omega, hfinds⟩
    · rintro ⟨i, found, hfound, hindex, hfinds⟩
      cases i with
      | zero =>
        obtain rfl := Option.some.inj hfound
        exact Or.inl ⟨hindex, hfinds⟩
      | succ i => exact Or.inr ⟨i, found, hfound, by omega, hfinds⟩

theorem mem_candidates {lines : List Text} :
    candidate ∈ highlighter.candidates lineStart lines ↔
      ∃ i line rule, lines[i]? = some line ∧ highlighter.rules[candidate.rule]? = some rule ∧
        rule.Finds (lineStart + lineOffset lines i) line candidate.token := by
  induction lines generalizing lineStart with
  | nil => simp [candidates]
  | cons line rest ih =>
    rw [candidates, List.mem_append, mem_lineCandidates, ih]
    constructor
    · rintro (⟨i, rule, hrule, hindex, hfinds⟩ | ⟨i, later, rule, hlater, hrule, hfinds⟩)
      · rw [Nat.zero_add] at hindex
        exact ⟨0, line, rule, rfl, hindex ▸ hrule, hfinds⟩
      · refine ⟨i + 1, later, rule, hlater, hrule, ?_⟩
        rwa [lineOffset_cons_succ, ← Nat.add_assoc, ← Nat.add_assoc]
    · rintro ⟨i, found, rule, hfound, hrule, hfinds⟩
      cases i with
      | zero =>
        obtain rfl := Option.some.inj hfound
        exact Or.inl ⟨candidate.rule, rule, hrule, (Nat.zero_add _).symm, hfinds⟩
      | succ i =>
        rw [lineOffset_cons_succ, ← Nat.add_assoc, ← Nat.add_assoc] at hfinds
        exact Or.inr ⟨i, found, rule, hfound, hrule, hfinds⟩

namespace Candidate

/-- By start, then by rule. -/
def Precedes (a b : Candidate) : Prop :=
  a.token.start < b.token.start ∨ a.token.start = b.token.start ∧ a.rule < b.rule

def Apart (a b : Candidate) : Prop := a.token.stop ≤ b.token.start ∨ b.token.stop ≤ a.token.start

theorem before_iff (a b : Candidate) : a.before b = true ↔ ¬ b.Precedes a := by
  simp only [before, Precedes, Bool.or_eq_true, Bool.and_eq_true, decide_eq_true_eq, beq_iff_eq]
  omega

theorem Precedes.asymm {a b : Candidate} (h : a.Precedes b) : ¬ b.Precedes a := by
  unfold Precedes at *
  omega

end Candidate

open Candidate

/-- The matches of a rule do not overlap, nor do their groups, which lie in them. -/
theorem ruleCandidates_apart (index : Nat) (rule : HighlightRule) (lineStart : Nat) (line : Text) :
    (ruleCandidates index rule lineStart line).Pairwise Apart := by
  rw [ruleCandidates, List.pairwise_filterMap]
  refine (rule.matcher.apart line).imp_of_mem ?_
  intro found found' hfound hfound' hapart a ha b hb
  obtain ⟨token, htoken, rfl⟩ := Option.map_eq_some_iff.1 ha
  obtain ⟨token', htoken', rfl⟩ := Option.map_eq_some_iff.1 hb
  exact ((tokenOf_eq_some_iff hfound).1 htoken).apart ((tokenOf_eq_some_iff hfound').1 htoken')
    hfound hfound' hapart

theorem lineCandidates_apart (index lineStart : Nat) (line : Text) (rules : List HighlightRule) :
    (lineCandidates index lineStart line rules).Pairwise fun a b => a.rule = b.rule → a.Apart b := by
  induction rules generalizing index with
  | nil => exact List.Pairwise.nil
  | cons rule rest ih =>
    rw [lineCandidates, List.pairwise_append]
    refine ⟨?_, ih _, ?_⟩
    · refine (ruleCandidates_apart index rule lineStart line).imp ?_
      intro a b hapart _
      exact hapart
    · intro a ha b hb hsame
      have hindex := (mem_ruleCandidates.1 ha).1
      obtain ⟨i, _, _, hindex', _⟩ := mem_lineCandidates.1 hb
      omega

/-- What one rule proposes does not overlap, whether on one line or on different ones. -/
theorem candidates_apart (highlighter : Highlighter) (lineStart : Nat) (lines : List Text) :
    (highlighter.candidates lineStart lines).Pairwise fun a b => a.rule = b.rule → a.Apart b := by
  induction lines generalizing lineStart with
  | nil => exact List.Pairwise.nil
  | cons line rest ih =>
    rw [candidates, List.pairwise_append]
    refine ⟨lineCandidates_apart _ _ _ _, ih _, ?_⟩
    intro a ha b hb _
    obtain ⟨_, _, _, _, hfinds⟩ := mem_lineCandidates.1 ha
    obtain ⟨_, _, _, _, _, hfinds'⟩ := mem_candidates.1 hb
    have hline := hfinds.on_line
    have hbelow := hfinds'.on_line
    left
    omega

def ordered (highlighter : Highlighter) (lineStart : Nat) (lines : List Text) : List Candidate :=
  (highlighter.candidates lineStart lines).mergeSort Candidate.before

theorem mem_ordered {lines : List Text} :
    candidate ∈ highlighter.ordered lineStart lines ↔
      candidate ∈ highlighter.candidates lineStart lines :=
  (List.mergeSort_perm _ _).mem_iff

theorem ordered_nonempty {lines : List Text} (h : candidate ∈ highlighter.ordered lineStart lines) :
    candidate.token.start < candidate.token.stop := by
  obtain ⟨_, _, _, _, _, hfinds⟩ := mem_candidates.1 (mem_ordered.1 h)
  exact hfinds.on_line.2.1

/-- Candidates that start together are of different rules, so each comes before the next. -/
theorem ordered_precedes (highlighter : Highlighter) (lineStart : Nat) (lines : List Text) :
    (highlighter.ordered lineStart lines).Pairwise Precedes := by
  have hsorted : (highlighter.ordered lineStart lines).Pairwise fun a b => a.before b = true := by
    apply List.pairwise_mergeSort
    · intro a b c hab hbc
      rw [before_iff] at *
      unfold Precedes at *
      omega
    · intro a b
      rw [Bool.or_eq_true, before_iff, before_iff]
      unfold Precedes
      omega
  have hapart : (highlighter.ordered lineStart lines).Pairwise
      fun a b => a.rule = b.rule → a.Apart b := by
    refine (candidates_apart highlighter lineStart lines).perm (List.mergeSort_perm _ _).symm ?_
    intro a b hab hsame
    exact (hab hsame.symm).symm
  refine (hsorted.and hapart).imp_of_mem ?_
  intro a b ha hb hboth
  have hnonempty := ordered_nonempty ha
  have hnonempty' := ordered_nonempty hb
  obtain ⟨hbefore, hdiffer⟩ := hboth
  rw [before_iff] at hbefore
  unfold Precedes Apart at *
  omega

theorem keepApart_sublist (lastStop : Nat) (candidates : List Candidate) :
    (keepApart lastStop candidates).Sublist candidates := by
  induction candidates generalizing lastStop with
  | nil => exact List.Sublist.slnil
  | cons candidate rest ih =>
    rw [keepApart]
    split
    · exact (ih _).cons_cons candidate
    · exact (ih _).cons candidate

/-- For tokens that are not empty, to overlap an earlier one is to start before it ends. -/
theorem Candidate.Precedes.meets_iff {a b : Candidate} (h : a.Precedes b)
    (ha : a.token.start < a.token.stop) (hb : b.token.start < b.token.stop) :
    a.token.Meets b.token.start b.token.stop ↔ b.token.start < a.token.stop := by
  rw [Token.meets_iff]
  unfold Precedes at h
  omega

section Scan

variable {candidates : List Candidate} (hordered : candidates.Pairwise Precedes)
  (hnonempty : ∀ candidate ∈ candidates, candidate.token.start < candidate.token.stop)
include hnonempty

theorem le_start_of_mem_keepApart {lastStop : Nat} (h : candidate ∈ keepApart lastStop candidates) :
    lastStop ≤ candidate.token.start := by
  induction candidates generalizing lastStop with
  | nil => cases h
  | cons first rest ih =>
    obtain ⟨hfirst, hrest⟩ := List.forall_mem_cons.1 hnonempty
    rw [keepApart] at h
    split at h
    · rename_i hstart
      rcases List.mem_cons.1 h with rfl | hlater
      · exact hstart
      · have hle := ih hrest hlater
        omega
    · exact ih hrest h

theorem keepApart_disjoint (lastStop : Nat) :
    (keepApart lastStop candidates).Pairwise fun a b => a.token.stop ≤ b.token.start := by
  induction candidates generalizing lastStop with
  | nil => exact List.Pairwise.nil
  | cons first rest ih =>
    obtain ⟨-, hrest⟩ := List.forall_mem_cons.1 hnonempty
    rw [keepApart]
    split
    · exact List.pairwise_cons.2 ⟨fun _ hlater => le_start_of_mem_keepApart hrest hlater, ih hrest _⟩
    · exact ih hrest _

include hordered

/-- A candidate is dropped only for one before it that it overlaps. All that is kept ends before the
last one kept does, so that one speaks for the others. -/
theorem mem_keepApart {lastStop : Nat} :
    candidate ∈ keepApart lastStop candidates ↔
      candidate ∈ candidates ∧ lastStop ≤ candidate.token.start ∧
        ∀ earlier ∈ keepApart lastStop candidates, earlier.Precedes candidate →
          earlier.token.stop ≤ candidate.token.start := by
  induction candidates generalizing lastStop with
  | nil => simp [keepApart]
  | cons first rest ih =>
    obtain ⟨hbefore, hrest⟩ := List.pairwise_cons.1 hordered
    obtain ⟨hfirst, hnonemptyRest⟩ := List.forall_mem_cons.1 hnonempty
    have ih := @ih hrest hnonemptyRest
    rw [keepApart]
    split
    · rename_i hstart
      constructor
      · intro hmem
        rcases List.mem_cons.1 hmem with rfl | hlater
        · -- The first of the candidates has none before it.
          refine ⟨List.mem_cons_self, hstart, fun earlier hearlier hprecedes => ?_⟩
          rcases List.mem_cons.1 hearlier with rfl | hkept
          · exact absurd hprecedes hprecedes.asymm
          · have hprecedes' := hbefore earlier ((keepApart_sublist _ _).mem hkept)
            exact absurd hprecedes hprecedes'.asymm
        · obtain ⟨hcandidate, hclear, hall⟩ := ih.1 hlater
          refine ⟨List.mem_cons_of_mem _ hcandidate, by omega, fun earlier hearlier hprecedes => ?_⟩
          rcases List.mem_cons.1 hearlier with rfl | hkept
          · exact hclear
          · exact hall earlier hkept hprecedes
      · rintro ⟨hmem, -, hall⟩
        rcases List.mem_cons.1 hmem with rfl | hlater
        · exact List.mem_cons_self
        · refine List.mem_cons_of_mem _ (ih.2 ⟨hlater, ?_, ?_⟩)
          · exact hall first List.mem_cons_self (hbefore _ hlater)
          · exact fun earlier hkept => hall earlier (List.mem_cons_of_mem _ hkept)
    · rename_i hstart
      rw [ih, List.mem_cons]
      constructor
      · rintro ⟨hcandidate, hrest⟩
        exact ⟨Or.inr hcandidate, hrest⟩
      · rintro ⟨rfl | hcandidate, hclear, hall⟩
        · exact absurd hclear hstart
        · exact ⟨hcandidate, hclear, hall⟩

end Scan

def Proposes (highlighter : Highlighter) (text : Text) (candidate : Candidate) : Prop :=
  ∃ line content rule, text.lines[line]? = some content ∧
    highlighter.rules[candidate.rule]? = some rule ∧
    rule.Finds (lineOffset text.lines line) content candidate.token

theorem proposes_iff {text : Text} :
    highlighter.Proposes text candidate ↔ candidate ∈ highlighter.ordered 0 text.lines := by
  simp only [mem_ordered, mem_candidates, Proposes, Nat.zero_add]

theorem kept_eq (highlighter : Highlighter) (text : Text) :
    highlighter.kept text = keepApart 0 (highlighter.ordered 0 text.lines) := rfl

theorem mem_kept {text : Text} :
    candidate ∈ highlighter.kept text ↔
      highlighter.Proposes text candidate ∧
        ∀ earlier ∈ highlighter.kept text, earlier.Precedes candidate →
          ¬ earlier.token.Meets candidate.token.start candidate.token.stop := by
  rw [proposes_iff, kept_eq, mem_keepApart (ordered_precedes _ _ _) fun _ => ordered_nonempty]
  refine and_congr_right fun hcandidate => ?_
  simp only [Nat.zero_le, true_and]
  refine forall₃_congr fun earlier hkept hprecedes => ?_
  have hearlier := (keepApart_sublist _ _).mem hkept
  rw [hprecedes.meets_iff (ordered_nonempty hearlier) (ordered_nonempty hcandidate), Nat.not_lt]

theorem highlight_disjoint (highlighter : Highlighter) (text : Text) :
    (highlighter.highlight text).Pairwise fun a b => a.stop ≤ b.start :=
  List.pairwise_map.2 (keepApart_disjoint (fun _ => ordered_nonempty) 0)

/-- A token of a text is one that a rule finds on a line. -/
theorem on_line_of_mem_highlight {text : Text} {token : Token}
    (h : token ∈ highlighter.highlight text) :
    ∃ line content, text.lines[line]? = some content ∧ lineOffset text.lines line ≤ token.start ∧
      token.start < token.stop ∧ token.stop ≤ lineOffset text.lines line + content.length := by
  obtain ⟨candidate, hkept, rfl⟩ := List.mem_map.1 h
  obtain ⟨line, content, _, hline, _, hfinds⟩ := (mem_kept.1 hkept).1
  exact ⟨line, content, hline, hfinds.on_line⟩

/-- The tokens of a text are not empty, come in order without overlapping, and each lies on one line. They
are those of the candidates that stay, and a candidate stays just if it overlaps none that stays and
comes before it, by start and then by rule. -/
theorem highlight_resolves_overlaps (highlighter : Highlighter) (text : Text) :
    (∀ token ∈ highlighter.highlight text, token.start < token.stop ∧ token.stop ≤ text.length ∧
      ∃ line content, text.lines[line]? = some content ∧ lineOffset text.lines line ≤ token.start ∧
        token.stop ≤ lineOffset text.lines line + content.length) ∧
    Token.Ascending (highlighter.highlight text) ∧
    (highlighter.highlight text).Pairwise (fun a b => a.stop ≤ b.start) ∧
    highlighter.highlight text = (highlighter.kept text).map (·.token) ∧
    ∀ candidate, candidate ∈ highlighter.kept text ↔
      highlighter.Proposes text candidate ∧
        ∀ earlier ∈ highlighter.kept text, earlier.Precedes candidate →
          ¬ earlier.token.Meets candidate.token.start candidate.token.stop := by
  have hdisjoint := highlighter.highlight_disjoint text
  refine ⟨?_, ?_, hdisjoint, rfl, fun _ => mem_kept⟩
  · intro token htoken
    obtain ⟨line, content, hline, hstart, hnonempty, hstop⟩ := on_line_of_mem_highlight htoken
    obtain ⟨hlt, rfl⟩ := List.getElem?_eq_some_iff.1 hline
    have hbound := lineOffset_add_length_lt text.lines hlt
    rw [text.lineOffset_lines_length] at hbound
    exact ⟨hnonempty, by omega, line, _, hline, hstart, hstop⟩
  · refine hdisjoint.imp_of_mem fun ha _ hapart => ?_
    obtain ⟨_, _, _, _, hnonempty, _⟩ := on_line_of_mem_highlight ha
    exact Nat.le_trans (Nat.le_of_lt hnonempty) hapart

end Highlighter

end HeadlessEditor
