import HeadlessEditor.Proofs.Highlighting
import HeadlessEditor.Proofs.OneLineEdits

/-!
Highlighting line by line. All candidates are sorted together and gone down in one pass, but those of the
lines above end before the lines below begin. So the two parts keep apart in the order, and the last
candidate kept above says nothing about those below. Where a part stands only moves its tokens.
-/

namespace HeadlessEditor

def Token.movedBy (distance : Nat) (token : Token) : Token :=
  { token with start := token.start + distance, stop := token.stop + distance }

namespace Highlighter

variable (highlighter : Highlighter) (distance : Nat)

def Candidate.movedBy (distance : Nat) (candidate : Candidate) : Candidate :=
  { candidate with token := candidate.token.movedBy distance }

theorem before_movedBy (a b : Candidate) :
    (a.movedBy distance).before (b.movedBy distance) = a.before b := by
  rw [Bool.eq_iff_iff, Candidate.before_iff, Candidate.before_iff]
  simp only [Candidate.Precedes, Candidate.movedBy, Token.movedBy]
  omega

theorem tokenOfBytes_add (lineStart : Nat) (line : Text) (start stop : Nat) (className : String) :
    tokenOfBytes (lineStart + distance) line start stop className
      = (tokenOfBytes lineStart line start stop className).map (·.movedBy distance) := by
  unfold tokenOfBytes
  split
  · rfl
  · split
    · rfl
    · simp [Token.movedBy, Nat.add_right_comm]

theorem ruleCandidates_add (index : Nat) (rule : HighlightRule) (lineStart : Nat) (line : Text) :
    ruleCandidates index rule (lineStart + distance) line
      = (ruleCandidates index rule lineStart line).map (·.movedBy distance) := by
  unfold ruleCandidates
  rw [List.map_filterMap]
  refine List.filterMap_congr fun found _ => ?_
  unfold tokenOf
  cases found.group? rule.group with
  | none => rfl
  | some span =>
    simp only [Option.bind_some, tokenOfBytes_add, Option.map_map]
    rfl

theorem lineCandidates_add (index lineStart : Nat) (line : Text) (rules : List HighlightRule) :
    lineCandidates index (lineStart + distance) line rules
      = (lineCandidates index lineStart line rules).map (·.movedBy distance) := by
  induction rules generalizing index with
  | nil => rfl
  | cons rule rest ih => simp only [lineCandidates, ruleCandidates_add, ih, List.map_append]

theorem candidates_add (lineStart : Nat) (lines : List Text) :
    highlighter.candidates (lineStart + distance) lines
      = (highlighter.candidates lineStart lines).map (·.movedBy distance) := by
  induction lines generalizing lineStart with
  | nil => rfl
  | cons line rest ih =>
    have hnext : lineStart + distance + line.length + 1 = lineStart + line.length + 1 + distance := by
      omega
    rw [candidates, candidates, lineCandidates_add, hnext, ih, List.map_append]

theorem ordered_add (lineStart : Nat) (lines : List Text) :
    highlighter.ordered (lineStart + distance) lines
      = (highlighter.ordered lineStart lines).map (·.movedBy distance) := by
  rw [ordered, candidates_add, ordered]
  refine (List.map_mergeSort fun a _ b _ => ?_).symm
  exact (before_movedBy distance a b).symm

theorem keepApart_movedBy (lastStop : Nat) (candidates : List Candidate) :
    keepApart (lastStop + distance) (candidates.map (·.movedBy distance))
      = (keepApart lastStop candidates).map (·.movedBy distance) := by
  induction candidates generalizing lastStop with
  | nil => rfl
  | cons candidate rest ih =>
    have hstart : lastStop + distance ≤ (candidate.movedBy distance).token.start ↔
        lastStop ≤ candidate.token.start := Nat.add_le_add_iff_right
    simp only [List.map_cons, keepApart, hstart]
    split
    · rw [List.map_cons, ← ih]
      rfl
    · exact ih lastStop

theorem candidates_append (lineStart : Nat) (above below : List Text) :
    highlighter.candidates lineStart (above ++ below)
      = highlighter.candidates lineStart above
        ++ highlighter.candidates (lineStart + lineOffset above above.length) below := by
  induction above generalizing lineStart with
  | nil => simp [candidates]
  | cons line rest ih =>
    rw [List.cons_append, candidates, candidates, ih, List.append_assoc, List.length_cons,
      lineOffset_cons_succ]
    simp only [Nat.add_assoc]

variable {highlighter} {candidate : Candidate} {lineStart : Nat} {lines : List Text}

theorem le_start_of_mem_ordered (h : candidate ∈ highlighter.ordered lineStart lines) :
    lineStart ≤ candidate.token.start := by
  obtain ⟨_, _, _, _, _, hfinds⟩ := mem_candidates.1 (mem_ordered.1 h)
  have hstart := hfinds.on_line.1
  omega

theorem stop_le_of_mem_ordered (h : candidate ∈ highlighter.ordered lineStart lines) :
    candidate.token.stop ≤ lineStart + lineOffset lines lines.length := by
  obtain ⟨line, content, _, hline, _, hfinds⟩ := mem_candidates.1 (mem_ordered.1 h)
  obtain ⟨hlt, rfl⟩ := List.getElem?_eq_some_iff.1 hline
  have hbound := lineOffset_add_length_lt lines hlt
  have hstop := hfinds.on_line.2.2
  omega

/-- The candidates of the lines above come first, since they start first. -/
theorem ordered_append (highlighter : Highlighter) (lineStart : Nat) (above below : List Text) :
    highlighter.ordered lineStart (above ++ below)
      = highlighter.ordered lineStart above
        ++ highlighter.ordered (lineStart + lineOffset above above.length) below := by
  have hperm : (highlighter.ordered lineStart (above ++ below)).Perm
      (highlighter.ordered lineStart above
        ++ highlighter.ordered (lineStart + lineOffset above above.length) below) := by
    refine (List.mergeSort_perm _ _).trans ?_
    rw [candidates_append]
    exact (List.mergeSort_perm _ _).symm.append (List.mergeSort_perm _ _).symm
  refine List.Perm.eq_of_pairwise ?_ (ordered_precedes _ _ _) ?_ hperm
  · intro a b _ _ hab hba
    exact absurd hba hab.asymm
  · refine List.pairwise_append.2 ⟨ordered_precedes _ _ _, ordered_precedes _ _ _, ?_⟩
    intro a ha b hb
    have hnonempty := ordered_nonempty ha
    have hstop := stop_le_of_mem_ordered ha
    have hstart := le_start_of_mem_ordered hb
    left
    omega

/-- What ends before all candidates start keeps none of them out. -/
theorem keepApart_eq_of_le {lastStop bound : Nat} {candidates : List Candidate}
    (hbound : lastStop ≤ bound) (h : ∀ candidate ∈ candidates, bound ≤ candidate.token.start) :
    keepApart lastStop candidates = keepApart bound candidates := by
  cases candidates with
  | nil => rfl
  | cons first rest =>
    have hfirst := h first List.mem_cons_self
    rw [keepApart, keepApart, if_pos (Nat.le_trans hbound hfirst), if_pos hfirst]

/-- Where all that comes first ends before all that comes later starts, both are gone down by themselves. -/
theorem keepApart_append {lastStop bound : Nat} {first second : List Candidate}
    (hbound : lastStop ≤ bound) (hfirst : ∀ candidate ∈ first, candidate.token.stop ≤ bound)
    (hsecond : ∀ candidate ∈ second, bound ≤ candidate.token.start) :
    keepApart lastStop (first ++ second) = keepApart lastStop first ++ keepApart bound second := by
  induction first generalizing lastStop with
  | nil => exact keepApart_eq_of_le hbound hsecond
  | cons candidate rest ih =>
    obtain ⟨hstop, hrest⟩ := List.forall_mem_cons.1 hfirst
    rw [List.cons_append, keepApart, keepApart]
    split
    · rw [ih hstop hrest, List.cons_append]
    · exact ih hbound hrest

theorem kept_append_line (highlighter : Highlighter) (a b : Text) :
    highlighter.kept (a ++ '\n' :: b)
      = highlighter.kept a ++ (highlighter.kept b).map (·.movedBy (a.length + 1)) := by
  have hend := a.lineOffset_lines_length
  have habove : ∀ candidate ∈ highlighter.ordered 0 a.lines,
      candidate.token.stop ≤ a.length + 1 := by
    intro candidate hcandidate
    have hstop := stop_le_of_mem_ordered hcandidate
    omega
  have hbelow : ∀ candidate ∈ highlighter.ordered (0 + (a.length + 1)) b.lines,
      a.length + 1 ≤ candidate.token.start := by
    intro candidate hcandidate
    have hstart := le_start_of_mem_ordered hcandidate
    omega
  calc highlighter.kept (a ++ '\n' :: b)
      = keepApart 0 (highlighter.ordered 0 a.lines
          ++ highlighter.ordered (0 + (a.length + 1)) b.lines) := by
        rw [kept_eq, Text.lines_append_newline, ordered_append, hend]
    _ = highlighter.kept a
          ++ keepApart (0 + (a.length + 1)) (highlighter.ordered (0 + (a.length + 1)) b.lines) := by
        rw [keepApart_append (Nat.zero_le _) habove hbelow, kept_eq, Nat.zero_add]
    _ = highlighter.kept a ++ (highlighter.kept b).map (·.movedBy (a.length + 1)) := by
        rw [ordered_add, keepApart_movedBy, ← kept_eq]

/-- The tokens of two texts with a newline between are those of the first and, moved behind the newline,
those of the second. -/
theorem highlight_append_line (highlighter : Highlighter) (a b : Text) :
    highlighter.highlight (a ++ '\n' :: b)
      = highlighter.highlight a
        ++ (highlighter.highlight b).map fun token =>
          ⟨token.start + (a.length + 1), token.stop + (a.length + 1), token.className⟩ := by
  rw [highlight, kept_append_line, List.map_append, List.map_map, highlight, highlight, List.map_map]
  rfl

end Highlighter

end HeadlessEditor
