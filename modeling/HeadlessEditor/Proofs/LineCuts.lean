import HeadlessEditor.Proofs.Anchors
import HeadlessEditor.Syntax.LineTokens

/-!
Tokens cut into lines. The sweep goes down the lines once and takes along the tokens that may go on
further down. What it cuts for a line is what one would find by looking at all the tokens, in the order
of their starts: a piece for each token that covers something of the line. The tokens may overlap, be
empty or reversed, or lie outside of the document.
-/

namespace HeadlessEditor

namespace Token

def Ascending (tokens : List Token) : Prop := tokens.Pairwise (·.start ≤ ·.start)

/-- The tokens in the order of their starts; those with one start as they stood. -/
structure StablySorted (ordered tokens : List Token) : Prop where
  ascending : Ascending ordered
  stable : ∀ start, ordered.filter (·.start = start) = tokens.filter (·.start = start)

/-- The token covers something between two offsets. -/
def Meets (start stop : Nat) (token : Token) : Prop :=
  ∃ offset, start ≤ offset ∧ offset < stop ∧ token.start ≤ offset ∧ offset < token.stop

/-- The piece covers the columns of a line that the token covers, and there are some. -/
structure ShownAs (start length : Nat) (token : Token) (piece : LineToken) : Prop where
  className : piece.className = token.className
  columns : ∀ column, piece.startColumn ≤ column ∧ column < piece.stopColumn ↔
    column < length ∧ token.start ≤ start + column ∧ start + column < token.stop
  some : piece.startColumn < piece.stopColumn

variable {start stop : Nat} {token : Token}

theorem meets_iff : token.Meets start stop ↔ max token.start start < min token.stop stop := by
  constructor
  · rintro ⟨offset, hstart, hstop, hfrom, hto⟩
    omega
  · intro hlt
    exact ⟨max token.start start, by omega, by omega, by omega, by omega⟩

instance (start stop : Nat) (token : Token) : Decidable (token.Meets start stop) :=
  decidable_of_iff _ meets_iff.symm

theorem clip_eq_none (h : token.stop ≤ start ∨ stop ≤ token.start) :
    token.clip start stop = none := by
  rw [clip]
  exact if_neg (by omega)

theorem clip_isSome_iff : (token.clip start stop).isSome ↔ token.Meets start stop := by
  rw [meets_iff, clip]
  split <;> simp [*]

/-- What is clipped off a token shows it on the line. -/
theorem shownAs_of_clip {length : Nat} {piece : LineToken}
    (h : token.clip start (start + length) = Option.some piece) : token.ShownAs start length piece := by
  rw [clip] at h
  split at h
  · rename_i hlt
    obtain rfl := Option.some.inj h
    constructor
    · rfl
    · intro column
      dsimp only
      omega
    · dsimp only
      omega
  · cases h

/-- The pieces of tokens on a line, in the order of the tokens. -/
def cutLine (tokens : List Token) (start length : Nat) : List LineToken :=
  tokens.filterMap (·.clip start (start + length))

theorem cutLine_append (first second : List Token) (start length : Nat) :
    cutLine (first ++ second) start length
      = cutLine first start length ++ cutLine second start length :=
  List.filterMap_append

theorem cutLine_shown (tokens : List Token) (start length : Nat) :
    List.Forall₂ (ShownAs start length) (tokens.filter (·.Meets start (start + length)))
      (cutLine tokens start length) := by
  have hkeeps : ∀ token ∈ tokens, decide (token.Meets start (start + length))
      = (token.clip start (start + length)).isSome := by
    intro token _
    rw [Bool.eq_iff_iff, clip_isSome_iff, decide_eq_true_iff]
  exact (forall₂_filterMap _ _ hkeeps).imp fun _ _ => shownAs_of_clip

/-- A token that ends above a line may be left out. -/
theorem filterMap_clip_filter {above : Nat} (h : above ≤ start) (tokens : List Token) :
    (tokens.filter (above < ·.stop)).filterMap (·.clip start stop)
      = tokens.filterMap (·.clip start stop) := by
  rw [List.filterMap_filter]
  apply List.filterMap_congr
  intro token _
  split
  · rfl
  · rename_i hends
    have hstop : token.stop ≤ start := by
      have hle : ¬ above < token.stop := by simpa using hends
      omega
    exact (clip_eq_none (Or.inl hstop)).symm

theorem Ascending.start_ge {tokens : List Token} (h : Ascending tokens) (bound : Nat) :
    ∀ token ∈ tokens.dropWhile (·.start < bound), bound ≤ token.start := by
  induction tokens with
  | nil => simp
  | cons first rest ih =>
    obtain ⟨hfirst, hrest⟩ := List.pairwise_cons.1 h
    rw [List.dropWhile_cons]
    split
    · exact ih hrest
    · rename_i hends
      have hbound : bound ≤ first.start := by simpa using hends
      intro token htoken
      rcases List.mem_cons.1 htoken with rfl | htoken
      · exact hbound
      · exact Nat.le_trans hbound (hfirst token htoken)

end Token

namespace TokenProjection

open Token

theorem sorted_ascending (tokens : List Token) : Ascending (sorted tokens) := by
  have hpairs : (sorted tokens).Pairwise fun a b => decide (a.start ≤ b.start) = true :=
    List.pairwise_mergeSort (fun a b c hab hbc => by simp only [decide_eq_true_eq] at *; omega)
      (fun a b => by simp only [Bool.or_eq_true, decide_eq_true_eq]; omega) tokens
  exact hpairs.imp fun h => by simpa using h

/-- Tokens with one start are in order already, so that sorting does not move them past each other. -/
theorem sorted_stable (tokens : List Token) (start : Nat) :
    (sorted tokens).filter (·.start = start) = tokens.filter (·.start = start) := by
  have horder : (tokens.filter (·.start = start)).Pairwise
      fun a b : Token => decide (a.start ≤ b.start) = true := by
    apply List.pairwise_of_forall_mem_list
    intro a ha b hb
    have hstarts : a.start = start ∧ b.start = start := by
      simpa using And.intro (List.mem_filter.1 ha).2 (List.mem_filter.1 hb).2
    rw [decide_eq_true_iff]
    omega
  have hsub : (tokens.filter (·.start = start)).Sublist (sorted tokens) :=
    List.sublist_mergeSort (fun a b c hab hbc => by simp only [decide_eq_true_eq] at *; omega)
      (fun a b => by simp only [Bool.or_eq_true, decide_eq_true_eq]; omega) horder
      List.filter_sublist
  have hfilter := hsub.filter (·.start = start)
  rw [List.filter_filter] at hfilter
  simp only [Bool.and_self] at hfilter
  exact (hfilter.eq_of_length ((List.mergeSort_perm tokens _).filter _).length_eq.symm).symm

theorem sorted_stablySorted (tokens : List Token) : StablySorted (sorted tokens) tokens :=
  ⟨sorted_ascending tokens, sorted_stable tokens⟩

theorem sorted_of_ascending {tokens : List Token} (h : Ascending tokens) : sorted tokens = tokens :=
  List.mergeSort_of_pairwise (h.imp fun hle => by simpa using hle)

/-- The carried tokens stand for all that the sweep has passed, and the others are still in order. So
each line gets the pieces of all tokens, in their order. -/
theorem sweep_eq {table : LineTable}
    (hdown : ∀ line, table.lineStart line ≤ table.lineStart (line + 1)) (count : Nat)
    {line : Nat} {passed carried waiting : List Token} (hwaiting : Ascending waiting)
    (hcarried : ∀ start stop, table.lineStart line ≤ start →
      carried.filterMap (·.clip start stop) = passed.filterMap (·.clip start stop)) :
    sweep table line carried waiting count = (List.range' line count).map fun line =>
      cutLine (passed ++ waiting) (table.lineStart line) (table.lineLength line) := by
  induction count generalizing line passed carried waiting with
  | zero => rfl
  | succ count ih =>
    obtain ⟨bound, hbound⟩ : ∃ bound, bound = max (table.lineStart line + table.lineLength line)
      (table.lineStart line + 1) := ⟨_, rfl⟩
    simp only [sweep, sweepLine, ← hbound, List.range'_succ, List.map_cons]
    -- What is passed now, and what still waits.
    have hsplit := List.takeWhile_append_dropWhile (p := fun token : Token => token.start < bound)
      (l := waiting)
    have hbelow := hwaiting.start_ge bound
    generalize waiting.takeWhile _ = here at hsplit ⊢
    generalize hdrop : waiting.dropWhile _ = below at hsplit hbelow ⊢
    subst hsplit
    have hnow : ∀ start stop, table.lineStart line ≤ start →
        (carried.filter (table.lineStart line < ·.stop)
            ++ here.filter (table.lineStart line < ·.stop)).filterMap (·.clip start stop)
          = (passed ++ here).filterMap (·.clip start stop) := by
      intro start stop hstart
      rw [List.filterMap_append, List.filterMap_append, filterMap_clip_filter hstart,
        filterMap_clip_filter hstart, hcarried start stop hstart]
    congr 1
    · have hnone : cutLine below (table.lineStart line) (table.lineLength line) = [] := by
        rw [cutLine, List.filterMap_eq_nil_iff]
        intro token htoken
        have hstart := hbelow token htoken
        exact clip_eq_none (Or.inr (by omega))
      rw [hnow _ _ (Nat.le_refl _), ← List.append_assoc, cutLine_append _ below, hnone,
        List.append_nil, cutLine]
    · rw [ih (List.pairwise_append.1 hwaiting).2.1
        fun start stop hstart => hnow start stop (Nat.le_trans (hdown line) hstart),
        List.append_assoc]

theorem lineStart_down (lines : List Text) (line : Nat) :
    (LineTable.ofLines lines).lineStart line ≤ (LineTable.ofLines lines).lineStart (line + 1) := by
  by_cases h : lines = []
  · subst h
    simp [LineTable.lineStart, LineTable.ofLines]
  · have hsize : 0 < (LineTable.ofLines lines).starts.size := by
      have hcount := LineTable.lineCount_ofLines lines h
      rw [LineTable.lineCount] at hcount
      rw [hcount]
      exact List.length_pos_iff.2 h
    exact LineTable.starts_sorted lines h _ _ (by omega) (by omega)

/-- Each line of a projection holds the pieces of all tokens on it. -/
theorem lines_project (tokens : List Token) (lines : List Text) (previous : List (List LineToken)) :
    let table := LineTable.ofLines lines
    (project tokens table previous).lines = (List.range table.lineCount).map fun line =>
      cutLine (sorted tokens) (table.lineStart line) (table.lineLength line) := by
  intro table
  have hnone : ∀ start stop, table.lineStart 0 ≤ start →
      ([] : List Token).filterMap (·.clip start stop)
        = ([] : List Token).filterMap (·.clip start stop) := fun _ _ _ => rfl
  have hsweep := sweep_eq (lineStart_down lines) table.lineCount (sorted_ascending tokens) hnone
  rw [List.nil_append, ← List.range_eq_range'] at hsweep
  exact (lines_project_eq_sweep _ _ _).trans hsweep

section

variable {tokens earlier : List LineToken} {previous : List (List LineToken)}

theorem getElem?_zero_of_head?_filter (h : previous.head?.filter (· = tokens) = some earlier) :
    previous[0]? = some tokens := by
  obtain ⟨hhead, hsame⟩ := Option.filter_eq_some_iff.1 h
  obtain rfl : earlier = tokens := by simpa using hsame
  rwa [← List.head?_eq_getElem?]

theorem getElem?_zero_ne_of_head?_filter (h : previous.head?.filter (· = tokens) = none) :
    previous[0]? ≠ some tokens := by
  rw [← List.head?_eq_getElem?]
  intro hhead
  simp [hhead] at h

end

/-- The changed lines are those for which there was no equal entry. -/
theorem changed_settle (line : Nat) (lines previous : List (List LineToken)) :
    (settle line lines previous).changed = (List.range' line lines.length).filter fun index =>
      previous[index - line]? ≠ lines[index - line]? := by
  induction lines generalizing line previous with
  | nil => rfl
  | cons tokens rest ih =>
    have hrest : (settle (line + 1) rest previous.tail).changed =
        (List.range' (line + 1) rest.length).filter fun index =>
          previous[index - line]? ≠ (tokens :: rest)[index - line]? := by
      rw [ih]
      apply List.filter_congr
      intro index hindex
      have hpast : index - line = index - (line + 1) + 1 := by
        have hle := (List.mem_range'_1.1 hindex).1
        omega
      rw [hpast, List.getElem?_cons_succ, List.getElem?_tail]
    rw [settle, List.length_cons, List.range'_succ, List.filter_cons, ← hrest, Nat.sub_self,
      List.getElem?_cons_zero]
    split
    · rename_i earlier hearlier
      simp [getElem?_zero_of_head?_filter hearlier]
    · rename_i hnone
      simp [getElem?_zero_ne_of_head?_filter hnone]

/-- An entry is used again if and only if it was equal. -/
theorem isReused_settle (line : Nat) (lines previous : List (List LineToken)) {index : Nat}
    (hindex : index < lines.length) :
    (settle line lines previous).entries[index]?.any (·.isReused)
      = decide (previous[index]? = lines[index]?) := by
  induction lines generalizing line previous index with
  | nil => cases hindex
  | cons tokens rest ih =>
    rw [settle]
    cases index with
    | zero =>
      split
      · rename_i earlier hearlier
        simp [getElem?_zero_of_head?_filter hearlier, LineEntry.isReused]
      · rename_i hnone
        simp [getElem?_zero_ne_of_head?_filter hnone, LineEntry.isReused]
    | succ index =>
      have hlater := ih (line + 1) previous.tail (Nat.lt_of_succ_lt_succ hindex)
      rw [List.getElem?_tail] at hlater
      split <;> simpa using hlater

theorem changed_project (tokens : List Token) (table : LineTable)
    (previous : List (List LineToken)) :
    let projection := project tokens table previous
    projection.changed = (List.range projection.lines.length).filter fun line =>
      previous[line]? ≠ projection.lines[line]? := by
  simp only [project, lines_settle, changed_settle, List.range_eq_range', Nat.sub_zero]

theorem kept_project (tokens : List Token) (table : LineTable)
    (previous : List (List LineToken)) :
    let projection := project tokens table previous
    projection.kept = (List.range projection.lines.length).filter fun line =>
      previous[line]? = projection.lines[line]? := by
  intro projection
  have hlength : projection.entries.length = projection.lines.length := (List.length_map _).symm
  rw [kept, hlength]
  apply List.filter_congr
  intro line hline
  simp only [projection, project, lines_settle, List.mem_range] at hline ⊢
  exact isReused_settle 0 _ previous hline

/-- However tokens lie, a projection has for each line of a document the pieces of those tokens that
cover something of it, in the order of a stable sort by their starts. The changed lines, in order, are
those for which there is no equal entry from before, and all others are kept. -/
theorem project_exact (tokens : List Token) (lines : List Text)
    (previous : List (List LineToken)) :
    let table := LineTable.ofLines lines
    let projection := project tokens table previous
    (∃ ordered, StablySorted ordered tokens ∧
      projection.lines.length = table.lineCount ∧
      ∀ line < table.lineCount, ∃ pieces, projection.lines[line]? = some pieces ∧
        List.Forall₂ (ShownAs (table.lineStart line) (table.lineLength line))
          (ordered.filter (·.Meets (table.lineStart line)
            (table.lineStart line + table.lineLength line))) pieces) ∧
    projection.changed = (List.range table.lineCount).filter (fun line =>
      previous[line]? ≠ projection.lines[line]?) ∧
    projection.kept = (List.range table.lineCount).filter (fun line =>
      previous[line]? = projection.lines[line]?) := by
  intro table projection
  have hlines : projection.lines = _ := lines_project tokens lines previous
  have hlength : projection.lines.length = table.lineCount := by
    rw [hlines, List.length_map, List.length_range]
  refine ⟨⟨sorted tokens, sorted_stablySorted tokens, hlength, fun line hline => ?_⟩, ?_, ?_⟩
  · refine ⟨_, ?_, cutLine_shown _ _ _⟩
    rw [hlines, List.getElem?_map, List.getElem?_range hline, Option.map_some]
  · rw [← hlength]
    exact changed_project tokens table previous
  · rw [← hlength]
    exact kept_project tokens table previous

/-- A token that starts on a newline and ends two lines below, beside one that is reversed. -/
example : project [⟨5, 2, "reversed"⟩, ⟨2, 5, "long"⟩] (.ofLines [['a', 'b'], [], ['c', 'd']])
    [[], [⟨0, 1, "long"⟩]] = ⟨[.reused [], .fresh [], .fresh [⟨0, 1, "long"⟩]], [1, 2]⟩ := by cbv

end TokenProjection

end HeadlessEditor
