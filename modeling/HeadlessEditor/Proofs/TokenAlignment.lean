import HeadlessEditor.Proofs.SessionRuns

/-!
Whether the tokens of the lines are those of the text. A session cuts its tokens into lines anew where
it sees another document or another version. So it misses a call that opens the document of the
session once more and ends with the version that the session has seen: the tokens go, and their lines
stay as they were.
-/

namespace HeadlessEditor

variable {α : Type}

theorem TokenProjection.sweep_nil (table : LineTable) (line count : Nat) :
    sweep table line [] [] count = List.replicate count [] := by
  induction count generalizing line with
  | zero => rfl
  | succ count ih =>
    simp only [sweep, sweepLine, List.filter_nil, List.takeWhile_nil, List.dropWhile_nil,
      List.append_nil, List.filterMap_nil, List.replicate_succ]
    rw [ih]

theorem TokenProjection.length_sweep (table : LineTable) (line : Nat) (carried waiting : List Token)
    (count : Nat) : (sweep table line carried waiting count).length = count := by
  induction count generalizing line carried waiting with
  | zero => rfl
  | succ count ih => simp only [sweep, List.length_cons, ih]

namespace Session

theorem length_lineCut {buffer : Buffer} (h : buffer.Sound) (tokens : List Token) :
    (lineCut tokens buffer).length = buffer.lineCount := by
  rw [← h.tableLineCount, lineCut, TokenProjection.lines_project_eq_sweep]
  exact TokenProjection.length_sweep _ _ _ _ _

theorem lineCut_nil {buffer : Buffer} (h : buffer.Sound) :
    lineCut [] buffer = List.replicate buffer.lineCount [] := by
  have hsorted : TokenProjection.sorted [] = [] := by simp [TokenProjection.sorted]
  rw [lineCut, TokenProjection.lines_project_eq_sweep, hsorted, h.tableLineCount]
  exact TokenProjection.sweep_nil _ _ _

theorem carryThrough?_nil (edits : List (Option TextEdit)) : carryThrough? edits [] = some [] := by
  induction edits with
  | nil => rfl
  | cons edit rest ih =>
    cases edit with
    | none => exact ih
    | some edit => exact ih

/-- No token is carried past a replacement of the whole text. -/
theorem carryThrough?_of_none {edits : List (Option TextEdit)} (h : none ∈ edits)
    (tokens : List Token) : (carryThrough? edits tokens).getD [] = [] := by
  induction edits generalizing tokens with
  | nil => cases h
  | cons edit rest ih =>
    rw [carryThrough?, List.foldlM_cons]
    cases edit with
    | none => exact congrArg (Option.getD · []) (carryThrough?_nil rest)
    | some edit =>
      cases hcarried : carryTokens? tokens (some edit) with
      | none => rfl
      | some carried => exact ih (by simpa using h) carried

/-- There is an entry for each line, and these are the tokens cut into the lines of the text. -/
structure Aligned (session : Session α) : Prop where
  length : session.lineTokens.length = session.editor.buffer.lineCount
  lines : session.lineTokens = lineCut session.tokens session.editor.buffer

/-- The text was replaced as a whole, and now has the name and the version that the session has
seen. -/
def MissesReplacement (session : Session α) : Prop :=
  session.editor.document = session.document ∧
  session.editor.buffer.version = session.seenVersion ∧ none ∈ session.unheardEdits

/-- In addition, the lines do have tokens, or are not as many as those of the text. -/
def LeavesStaleLines (session : Session α) : Prop :=
  session.MissesReplacement ∧
  session.lineTokens ≠ List.replicate session.editor.buffer.lineCount []

section

variable [Pixel α] {session : Session α} {seen : Editor}

theorem aligned_of_lines (h : session.Behind seen)
    (hlines : session.sync.lineTokens = lineCut session.sync.tokens session.editor.buffer) :
    session.sync.Aligned := by
  constructor
  · rw [sync_editor, hlines, length_lineCut h.sound]
  · rw [sync_editor]
    exact hlines

/-- Where the session sees another document or another version it cuts the lines anew. -/
theorem sync_lineTokens_of_unseen (h : session.Behind seen)
    (hunseen : ¬ (session.editor.document = session.document ∧
      session.editor.buffer.version = session.seenVersion)) :
    session.sync.lineTokens = lineCut session.sync.tokens session.editor.buffer := by
  have hs := session.sync_catchesUp
  by_cases hdocument : session.editor.document = session.document
  · have hversion : session.editor.buffer.version ≠ session.seenVersion :=
      fun heq => hunseen ⟨hdocument, heq⟩
    have hlines := hs.lineTokens
    rw [entered_of_eq hdocument, if_neg hversion] at hlines
    exact hlines
  · have hcaught := activate_caughtUp session h.listens
      (DocumentId.fileExtension session.editor.document)
    have hlines := hs.lineTokens
    have htokens := hs.tokens
    rw [entered_of_ne hdocument, if_pos hcaught.version] at hlines
    rw [entered_of_ne hdocument, hcaught.unheardEdits] at htokens
    rw [hlines, htokens]
    rfl

/-- Elsewhere the lines stay, and the tokens are carried through what was heard. -/
theorem sync_tokens_of_seen (hdocument : session.editor.document = session.document)
    (hversion : session.editor.buffer.version = session.seenVersion) :
    session.sync.lineTokens = session.lineTokens ∧
    session.sync.tokens = (carryThrough? session.unheardEdits session.tokens).getD [] := by
  have hs := session.sync_catchesUp
  rw [entered_of_eq hdocument] at hs
  have hlines := hs.lineTokens
  rw [if_pos hversion] at hlines
  exact ⟨hlines, hs.tokens⟩

/-- Catching up, with the lines of the text that was seen last. -/
theorem sync_aligned_iff (h : session.Behind seen)
    (hseen : session.lineTokens = lineCut session.tokens seen.buffer) :
    session.sync.Aligned ↔ ¬ session.LeavesStaleLines := by
  by_cases hsame : session.editor.document = session.document ∧
      session.editor.buffer.version = session.seenVersion
  · obtain ⟨hdocument, hversion⟩ := hsame
    obtain ⟨hlines, htokens⟩ := sync_tokens_of_seen hdocument hversion
    cases h.fate with
    | newer _ hnewer =>
      rw [h.version, hversion] at hnewer
      exact absurd hnewer (Nat.lt_irrefl _)
    | same _ hbuffer hheard =>
      rw [hheard] at htokens
      have haligned : session.sync.Aligned := by
        apply aligned_of_lines h
        rw [hlines, htokens, hbuffer]
        exact hseen
      have hmisses : ¬ session.MissesReplacement := by
        rintro ⟨-, -, hnone⟩
        rw [hheard] at hnone
        cases hnone
      exact ⟨fun _ hstale => hmisses hstale.1, fun _ => haligned⟩
    | replaced hheard =>
      have hcut : lineCut session.sync.tokens session.editor.buffer =
          List.replicate session.editor.buffer.lineCount [] := by
        rw [htokens, carryThrough?_of_none hheard, lineCut_nil h.sound]
      constructor
      · intro haligned hstale
        apply hstale.2
        rw [← hlines, haligned.lines, sync_editor, hcut]
      · intro hfresh
        apply aligned_of_lines h
        rw [hlines, hcut]
        by_cases hstale : session.lineTokens = List.replicate session.editor.buffer.lineCount []
        · exact hstale
        · exact absurd ⟨⟨hdocument, hversion, hheard⟩, hstale⟩ hfresh
  · have haligned := aligned_of_lines h (sync_lineTokens_of_unseen h hsame)
    exact ⟨fun _ hstale => hsame ⟨hstale.1.1, hstale.1.2.1⟩, fun _ => haligned⟩

end

theorem Keeps.aligned {session after : Session α} (h : Keeps session after)
    (hsound : session.editor.buffer.Sound) (haligned : session.Aligned) : after.Aligned := by
  rcases h.lines with ⟨htokens, hlines⟩ | hcut
  · constructor
    · rw [hlines, h.editor]
      exact haligned.length
    · rw [hlines, htokens, h.editor]
      exact haligned.lines
  · constructor
    · rw [hcut, h.editor, length_lineCut hsound]
    · rw [hcut, h.editor]

end Session

def Moment.LeavesStaleLines (moment : Moment α) : Prop :=
  match moment.step with
  | .call (.work work) => (moment.before.session.worked work).LeavesStaleLines
  | _ => False

namespace World

variable [Pixel α]

theorem carryOut_aligned_iff {session : Session α} (h : session.CaughtUp)
    (haligned : session.Aligned) (work : Session.Work) :
    (session.carryOut work).Aligned ↔ ¬ (session.worked work).LeavesStaleLines := by
  rw [Session.carryOut_eq]
  rcases h.worked work with ⟨editor, registry, hworked, hbehind⟩ |
    ⟨editor, extension, hworked, hcaught⟩
  · apply Session.sync_aligned_iff hbehind
    rw [hworked]
    exact haligned.lines
  · apply Session.sync_aligned_iff hcaught
    rw [hworked]
    rfl

theorem step_aligned_iff {world : World α} (h : world.session.CaughtUp)
    (haligned : world.session.Aligned) (step : Step α) :
    (world.step step).session.Aligned ↔ ¬ Moment.LeavesStaleLines ⟨world, step⟩ := by
  have hsound := Session.Behind.sound h
  cases step with
  | call call =>
    cases call with
    | work work => exact carryOut_aligned_iff h haligned work
    | upkeep upkeep =>
      have hafter := (world.session.keepUp_keeps upkeep).aligned hsound haligned
      exact ⟨fun _ hstale => hstale, fun _ => hafter⟩
  | arrive index =>
    have hafter : (world.step (.arrive index)).session.Aligned := by
      simp only [World.step]
      split
      · exact haligned
      · exact (world.session.deliver_keeps _).aligned hsound haligned
    exact ⟨fun _ hstale => hstale, fun _ => hafter⟩

/-- Up to the first call that leaves stale lines the tokens of the lines are those of the text, and
after it they are not. -/
theorem history_aligned_iff {world : World α} (h : world.session.CaughtUp)
    (haligned : world.session.Aligned) (steps : List (Step α)) :
    (∀ moment ∈ world.history steps, moment.after.session.Aligned) ↔
      ∀ moment ∈ world.history steps, ¬ moment.LeavesStaleLines := by
  apply history_iff (·.session.CaughtUp) (·.session.Aligned) Moment.LeavesStaleLines _ _ h haligned
  · intro world step hcaught
    exact step_caughtUp hcaught step
  · intro world step hcaught haligned
    exact step_aligned_iff hcaught haligned step

theorem start_aligned {editor : Editor} (h : editor.Sound) (height contentWidth : α)
    (tokenizer : Option Tokenizer) (runtime : Runtime) :
    (start editor height contentWidth tokenizer runtime).session.Aligned := by
  have hnew : (Session.new editor height contentWidth).Aligned := by
    constructor
    · exact Session.length_lineCut h.buffer []
    · rfl
  cases tokenizer with
  | none => exact hnew
  | some tokenizer =>
    exact (Session.withTokenizer_keeps _ tokenizer runtime).aligned h.buffer hnew

/-- However a session is used, with whatever tokenizer or with none, there is an entry for each line and
it is what the tokens come to on that line, after all calls if and only if none of them replaces the
text behind the back of the session and leaves stale lines. -/
theorem lineTokens_aligned_iff (document : DocumentId) (text : Text) (settings : Settings)
    (operations : List Operation) (height contentWidth : α) (tokenizer : Option Tokenizer)
    (runtime : Runtime) (steps : List (Step α)) :
    let world := start ((Editor.new document text settings).performAll operations) height
      contentWidth tokenizer runtime
    world.session.Aligned ∧
    ((∀ moment ∈ world.history steps, moment.after.session.Aligned) ↔
      ∀ moment ∈ world.history steps, ¬ moment.LeavesStaleLines) := by
  have hsound := Editor.performAll_sound (Editor.new_sound document text settings) operations
  have hcaught := start_caughtUp hsound height contentWidth tokenizer runtime
  have haligned := start_aligned hsound height contentWidth tokenizer runtime
  exact ⟨haligned, history_aligned_iff hcaught haligned steps⟩

/-- A document of two lines is opened once more with a text of one line. -/
theorem reopening_leaves_stale_lines :
    let world := start (Editor.new "a.txt" ['a', 'b', '\n', 'c', 'd'] .default) (100 : Float) 400 none ⟨id⟩
    let reopening : Session.Work := .edit [⟨.openDocument "a.txt" ['x'], rfl⟩]
    ¬ (world.step (.call (.work reopening))).session.Aligned := by
  intro world reopening haligned
  have hsound := Editor.new_sound "a.txt" ['a', 'b', '\n', 'c', 'd'] .default
  have hmisses : (world.session.worked reopening).MissesReplacement :=
    ⟨by decide, by decide, by decide⟩
  have hlines : (world.session.worked reopening).lineTokens.length ≠
      (world.session.worked reopening).editor.buffer.lineCount := by decide
  have hcaught : world.session.CaughtUp := start_caughtUp hsound 100 400 none ⟨id⟩
  have hstart : world.session.Aligned := start_aligned hsound 100 400 none ⟨id⟩
  have hfresh := (step_aligned_iff hcaught hstart (.call (.work reopening))).1 haligned
  apply hfresh
  refine ⟨hmisses, fun heq => hlines ?_⟩
  rw [heq, List.length_replicate]

end World

end HeadlessEditor
