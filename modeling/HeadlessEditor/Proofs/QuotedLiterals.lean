import HeadlessEditor.Proofs.FirstWays
import HeadlessEditor.Proofs.LineRules
import Mathlib.Data.Nat.Find

/-!
Literals in quotes. A scan of a line from left to right tells what stands in a literal from what stands
outside. A search for literals knows nothing of what is to the left of where it starts, but it goes on
behind each literal that it finds. So up to an unterminated literal it finds those of the scan.
-/

namespace HeadlessEditor

open Pattern

inductive Quoting where
  | outside
  | quoted
  | escaped
  | raw
  deriving DecidableEq, Repr

namespace Quoting

/-- One character further. Not all languages have literals in single quotes. -/
def step (singleQuotes : Bool) : Quoting → Char → Quoting
  | outside, c => if c = '"' then quoted else if singleQuotes && c = '\'' then raw else outside
  | quoted, c => if c = '"' then outside else if c = '\\' then escaped else quoted
  | escaped, _ => quoted
  | raw, c => if c = '\'' then outside else raw

def scan (singleQuotes : Bool) (quoting : Quoting) (text : Text) : Quoting :=
  text.foldl (step singleQuotes) quoting

/-- After how many characters the scan is outside of literals. -/
def closing? (singleQuotes : Bool) (quoting : Quoting) : Text → Option Nat
  | [] => if quoting = outside then some 0 else none
  | c :: rest =>
    if quoting = outside then some 0
    else (closing? singleQuotes (quoting.step singleQuotes c) rest).map (· + 1)

variable {singleQuotes : Bool} {quoting : Quoting} {text : Text} {count : Nat}

@[simp] theorem closing?_outside (text : Text) : closing? singleQuotes outside text = some 0 := by
  cases text <;> rfl

theorem closing?_cons (h : quoting ≠ outside) (c : Char) (rest : Text) :
    closing? singleQuotes quoting (c :: rest)
      = (closing? singleQuotes (quoting.step singleQuotes c) rest).map (· + 1) := by
  rw [closing?, if_neg h]

theorem closing?_eq_some_iff :
    closing? singleQuotes quoting text = some count ↔
      count ≤ text.length ∧ scan singleQuotes quoting (text.take count) = outside ∧
        ∀ fewer < count, scan singleQuotes quoting (text.take fewer) ≠ outside := by
  induction text generalizing quoting count with
  | nil =>
    simp only [closing?, Option.ite_none_right_eq_some, Option.some.injEq, List.take_nil, scan,
      List.foldl_nil, List.length_nil, Nat.le_zero]
    constructor
    · rintro ⟨rfl, rfl⟩
      simp
    · rintro ⟨rfl, rfl, -⟩
      simp
  | cons c rest ih =>
    rw [closing?]
    split
    · rename_i houtside
      subst houtside
      constructor
      · intro h
        obtain rfl := Option.some.inj h
        simp [scan]
      · rintro ⟨-, -, hfewer⟩
        cases count with
        | zero => rfl
        | succ count => exact absurd rfl (hfewer 0 (Nat.succ_pos _))
    · rename_i hinside
      cases count with
      | zero => simp [scan, hinside]
      | succ count =>
        rw [Option.map_eq_some_iff, Nat.forall_lt_succ_left]
        simp [ih, scan, hinside]

end Quoting

open Quoting

def Outside (singleQuotes : Bool) (text : Text) (offset : Nat) : Prop :=
  offset ≤ text.length ∧ scan singleQuotes outside (text.take offset) = outside

instance (singleQuotes : Bool) (text : Text) (offset : Nat) :
    Decidable (Outside singleQuotes text offset) :=
  inferInstanceAs (Decidable (_ ∧ _))

/-- From one offset outside of literals to the next: a literal, or a single character. -/
structure Stretch (singleQuotes : Bool) (text : Text) (start stop : Nat) : Prop where
  start_outside : Outside singleQuotes text start
  stop_outside : Outside singleQuotes text stop
  start_lt_stop : start < stop
  inside : ∀ offset, start < offset → offset < stop → ¬ Outside singleQuotes text offset

section Scan

variable {singleQuotes : Bool} {text rest : Text} {start stop offset count : Nat} {c : Char}

theorem outside_zero (singleQuotes : Bool) (text : Text) : Outside singleQuotes text 0 :=
  ⟨Nat.zero_le _, rfl⟩

/-- Behind an offset outside of literals the scan starts anew. -/
theorem Outside.add_iff (h : Outside singleQuotes text start) :
    Outside singleQuotes text (start + offset) ↔ Outside singleQuotes (text.drop start) offset := by
  obtain ⟨hle, hscan⟩ := h
  have hsplit : scan singleQuotes outside (text.take (start + offset))
      = scan singleQuotes outside ((text.drop start).take offset) := by
    rw [List.take_add, scan, List.foldl_append]
    exact congrArg (scan singleQuotes · _) hscan
  rw [Outside, Outside, hsplit, List.length_drop]
  refine and_congr_left fun _ => ?_
  omega

/-- An offset outside of literals is the first one or comes next to another one. -/
theorem Outside.eq_zero_or_stretch (h : Outside singleQuotes text stop) :
    stop = 0 ∨ ∃ start, Stretch singleQuotes text start stop := by
  refine or_iff_not_imp_left.2 fun hpos => ?_
  have hle := Nat.findGreatest_le (P := Outside singleQuotes text) (stop - 1)
  refine ⟨Nat.findGreatest (Outside singleQuotes text) (stop - 1), ?_, h, by omega, ?_⟩
  · exact Nat.findGreatest_spec (Nat.zero_le _) (outside_zero _ _)
  · exact fun offset hlt hstop => Nat.findGreatest_is_greatest hlt (by omega)

theorem Outside.exists_stretch (h : Outside singleQuotes text offset) (hpos : 0 < offset) :
    ∃ stop ≤ offset, Stretch singleQuotes text 0 stop := by
  have hsome : ∃ stop, 0 < stop ∧ Outside singleQuotes text stop := ⟨offset, hpos, h⟩
  obtain ⟨hlt, hstop⟩ := Nat.find_spec hsome
  refine ⟨Nat.find hsome, Nat.find_min' hsome ⟨hpos, h⟩, outside_zero _ _, hstop, hlt, ?_⟩
  exact fun before hbefore hlt houtside => Nat.find_min hsome hlt ⟨hbefore, houtside⟩

theorem stretch_add_iff (h : Outside singleQuotes text start) :
    Stretch singleQuotes text start (start + count) ↔
      Stretch singleQuotes (text.drop start) 0 count := by
  constructor
  · rintro ⟨-, hstop, hlt, hinside⟩
    refine ⟨outside_zero _ _, h.add_iff.1 hstop, by omega, fun offset hpos hoffset => ?_⟩
    rw [← h.add_iff]
    exact hinside _ (by omega) (by omega)
  · rintro ⟨-, hstop, hlt, hinside⟩
    refine ⟨h, h.add_iff.2 hstop, by omega, fun offset hpos hoffset => ?_⟩
    obtain ⟨further, rfl⟩ := Nat.exists_eq_add_of_lt hpos
    rw [Nat.add_assoc, h.add_iff]
    exact hinside _ (Nat.succ_pos _) (by omega)

/-- The first stretch of a text ends where the scan first is outside of literals again. -/
theorem stretch_cons_iff :
    Stretch singleQuotes (c :: rest) 0 (count + 1) ↔
      closing? singleQuotes (outside.step singleQuotes c) rest = some count := by
  rw [closing?_eq_some_iff]
  constructor
  · rintro ⟨-, ⟨hle, hscan⟩, -, hinside⟩
    refine ⟨Nat.le_of_succ_le_succ hle, hscan, fun fewer hfewer hfound => ?_⟩
    exact hinside (fewer + 1) (Nat.succ_pos _) (Nat.succ_lt_succ hfewer)
      ⟨Nat.le_trans (Nat.succ_le_succ (Nat.le_of_lt hfewer)) hle, hfound⟩
  · rintro ⟨hle, hscan, hfewer⟩
    refine ⟨outside_zero _ _, ⟨Nat.succ_le_succ hle, hscan⟩, Nat.succ_pos _, ?_⟩
    intro offset hpos hoffset h
    cases offset with
    | zero => exact absurd hpos (Nat.lt_irrefl 0)
    | succ offset => exact hfewer offset (Nat.lt_of_succ_lt_succ hoffset) h.2

end Scan

/-- The literal that a text begins with, by the number of its characters. -/
def literal? (singleQuotes : Bool) : Text → Option Nat
  | [] => none
  | c :: rest =>
    if outside.step singleQuotes c = outside then none
    else (closing? singleQuotes (outside.step singleQuotes c) rest).map (· + 1)

theorem literal?_eq_some_iff {singleQuotes : Bool} {text : Text} {count : Nat} :
    literal? singleQuotes text = some count ↔ Stretch singleQuotes text 0 count ∧ 1 < count := by
  cases text with
  | nil =>
    simp only [literal?, reduceCtorEq, false_iff, not_and]
    rintro ⟨-, ⟨hle, -⟩, hlt, -⟩
    simp at hle
    omega
  | cons c rest =>
    cases count with
    | zero => simp [literal?]
    | succ count =>
      rw [stretch_cons_iff, literal?]
      split
      · rename_i hnone
        rw [hnone, closing?_outside]
        simp only [reduceCtorEq, false_iff, not_and, Option.some.injEq]
        omega
      · rename_i hopens
        simp only [Option.map_eq_some_iff, Nat.add_right_cancel_iff, exists_eq_right]
        refine ⟨fun hcount => ⟨hcount, Nat.succ_lt_succ (Nat.pos_of_ne_zero ?_)⟩, And.left⟩
        rintro rfl
        exact hopens (closing?_eq_some_iff.1 hcount).2.1

theorem literal?_cons_of_ne {c : Char} (h : c ≠ '"') (rest : Text) : literal? false (c :: rest) = none := by
  simp [literal?, Quoting.step, h]

/-- The only way through the pattern, if there is one, is over the literal that begins there. -/
def ReadsLiterals (singleQuotes : Bool) (p : Pattern) : Prop :=
  ∀ spot : Spot, '\n' ∉ spot.rest →
    p.ways spot = ((literal? singleQuotes spot.rest).map fun count => (spot.skip count, [])).toList

namespace Pattern

variable {spot : Spot} {c : Char} {rest : Text}

def stringCharacter : Pattern := alt (seq (one '\\') any) (noneOf "\"\\")

theorem ways_any (h : spot.rest = c :: rest) (hc : c ≠ '\n') : any.ways spot = [(spot.skip 1, [])] := by
  simp [any, noneOf, ways, h, CharSet.contains, CharSet.ofString, hc]

/-- A round over a string takes a character or an escape, and none at the end of the string. -/
theorem ways_stringCharacter (h : spot.rest = c :: rest) (hline : '\n' ∉ spot.rest) :
    stringCharacter.ways spot =
      if c = '"' ∨ c = '\\' ∧ rest = [] then []
      else [(spot.skip (if c = '\\' then 2 else 1), [])] := by
  have hset : (CharSet.complement (.ofString "\"\\")).contains c = !(c == '"' || c == '\\') := by
    simp [CharSet.contains, CharSet.ofString]
  rw [stringCharacter, ways, ways, ways_one, noneOf, ways, h, List.head?_cons, Option.any_some, hset]
  by_cases hescape : c = '\\'
  · subst hescape
    have hskip : (spot.skip 1).rest = rest := by simp [h]
    cases rest with
    | nil => simp [any, noneOf, ways, h]
    | cons d rest =>
      have hd : d ≠ '\n' := fun hd => hline (by simp [h, hd])
      simp [ways_any hskip hd]
  · by_cases hquote : c = '"'
    · simp [hquote]
    · simp [hescape, hquote]

theorem ways_string (singleQuotes : Bool) (hline : '\n' ∉ spot.rest) :
    (seq (many stringCharacter) (one '"')).ways spot
      = ((closing? singleQuotes quoted spot.rest).map fun count => (spot.skip count, [])).toList := by
  induction hlength : spot.rest.length using Nat.strong_induction_on generalizing spot with
  | _ length ih =>
    rw [many, ways_star_seq (by decide), ways_one]
    cases hrest : spot.rest with
    | nil => simp [stringCharacter, one, any, noneOf, ways, goingOn, hrest, closing?]
    | cons c rest =>
      have hlater : ∀ count, 0 < count → (seq (many stringCharacter) (one '"')).ways (spot.skip count)
          = ((closing? singleQuotes quoted ((c :: rest).drop count)).map fun further =>
            (spot.skip (further + count), [])).toList := by
        intro count hpos
        have hthere := ih (spot.skip count).rest.length (by simp [← hlength, hrest]; omega)
          (fun hmem => hline (List.mem_of_mem_drop hmem)) rfl
        simpa [hrest, Nat.add_comm] using hthere
      rw [ways_stringCharacter hrest hline, closing?_cons (by decide), Quoting.step]
      by_cases hquote : c = '"'
      · simp [hquote]
      · by_cases hescape : c = '\\'
        · subst hescape
          cases rest with
          | nil => simp [closing?]
          | cons d rest =>
            have hskip := hlater 2 (by decide)
            rw [many] at hskip
            simp [hskip, closing?_cons, Quoting.step, Function.comp_def]
        · have hskip := hlater 1 (by decide)
          rw [many] at hskip
          simp [hskip, hquote, hescape, Function.comp_def]

theorem ways_raw (singleQuotes : Bool) (spot : Spot) :
    (seq (many (noneOf "'")) (one '\'')).ways spot
      = ((closing? singleQuotes raw spot.rest).map fun count => (spot.skip count, [])).toList := by
  induction hlength : spot.rest.length using Nat.strong_induction_on generalizing spot with
  | _ length ih =>
    rw [many, ways_star_seq (by decide), ways_one, noneOf, ways]
    cases hrest : spot.rest with
    | nil => simp [closing?]
    | cons c rest =>
      have hset : (CharSet.complement (.ofString "'")).contains c = !(c == '\'') := by
        simp [CharSet.contains, CharSet.ofString]
      rw [closing?_cons (by decide), Quoting.step]
      by_cases hquote : c = '\''
      · subst hquote
        simp [hset]
      · have hskip := ih (spot.skip 1).rest.length (by simp [← hlength, hrest]) (spot.skip 1) rfl
        rw [many, noneOf] at hskip
        simp [hskip, hrest, hset, hquote, Function.comp_def, Nat.add_comm]

def eitherString : Pattern := alt quotedString (chain [one '\'', many (noneOf "'"), one '\''])

theorem quotedString_readsLiterals : ReadsLiterals false quotedString := by
  intro spot hline
  have hways : quotedString.ways spot
      = goingOn ((one '"').ways spot) (seq (many stringCharacter) (one '"')).ways := rfl
  rw [hways, ways_one]
  cases hrest : spot.rest with
  | nil => simp [literal?]
  | cons c rest =>
    rw [literal?, Quoting.step]
    by_cases hquote : c = '"'
    · have hlater : '\n' ∉ (spot.skip 1).rest := fun hmem => hline (List.mem_of_mem_drop hmem)
      have hskip := ways_string false hlater
      simp [hquote, hskip, hrest, Function.comp_def, Nat.add_comm]
    · simp [hquote]

theorem eitherString_readsLiterals : ReadsLiterals true eitherString := by
  intro spot hline
  have hways : eitherString.ways spot
      = goingOn ((one '"').ways spot) (seq (many stringCharacter) (one '"')).ways
        ++ goingOn ((one '\'').ways spot) (seq (many (noneOf "'")) (one '\'')).ways := rfl
  rw [hways, ways_one, ways_one]
  have hlater : '\n' ∉ (spot.skip 1).rest := fun hmem => hline (List.mem_of_mem_drop hmem)
  cases hrest : spot.rest with
  | nil => simp [literal?]
  | cons c rest =>
    rw [literal?, Quoting.step]
    by_cases hquote : c = '"'
    · have hskip := ways_string true hlater
      simp [hquote, hskip, hrest, Function.comp_def, Nat.add_comm]
    · by_cases hsingle : c = '\''
      · simp [hsingle, ways_raw true, hrest, Function.comp_def, Nat.add_comm]
      · simp [hquote, hsingle]

end Pattern

namespace ReadsLiterals

variable {singleQuotes : Bool} {p : Pattern} {line : Text} {start stop offset : Nat}
  (hreads : ReadsLiterals singleQuotes p) (hp : p.progresses) (hline : '\n' ∉ line)
include hreads hline

theorem starts_iff {found : Match} (hstart : Outside singleQuotes line found.start) :
    p.Starts line found ↔
      Stretch singleQuotes line found.start found.stop ∧ found.start + 1 < found.stop ∧
        found.captures = [] := by
  have hfirst : p.first? ((Spot.start line).skip found.start)
      = (literal? singleQuotes (line.drop found.start)).map fun count => (found.start + count, []) := by
    have hrest : '\n' ∉ ((Spot.start line).skip found.start).rest := fun hmem =>
      hline (List.mem_of_mem_drop hmem)
    rw [first?, hreads _ hrest]
    cases hliteral : literal? singleQuotes (line.drop found.start) <;> simp [Spot.start, hliteral]
  rw [Pattern.starts_iff, hfirst]
  constructor
  · rintro ⟨-, hfound⟩
    obtain ⟨count, hliteral, hsame⟩ := Option.map_eq_some_iff.1 hfound
    obtain ⟨hstop, hcaptures⟩ := Prod.mk.inj hsame
    obtain ⟨hstretch, hlong⟩ := literal?_eq_some_iff.1 hliteral
    rw [← hstop]
    exact ⟨(stretch_add_iff hstart).2 hstretch, by omega, hcaptures.symm⟩
  · rintro ⟨hstretch, hlong, hcaptures⟩
    obtain ⟨count, hcount⟩ := Nat.exists_eq_add_of_le (Nat.le_of_lt hstretch.start_lt_stop)
    rw [hcount] at hstretch hlong
    have hliteral : literal? singleQuotes (line.drop found.start) = some count :=
      literal?_eq_some_iff.2 ⟨(stretch_add_iff hstart).1 hstretch, by omega⟩
    refine ⟨hstart.1, ?_⟩
    rw [hliteral, hcount, hcaptures]
    rfl

include hp

/-- A match that starts before an offset outside of literals ends there or before. -/
theorem stop_le {engine : PatternEngine} (hfirst : engine.LeftmostFirst)
    (hoffset : Outside singleQuotes line offset) {found : Match}
    (hfound : found ∈ engine.matchesIn p line) (hlt : found.start < offset) : found.stop ≤ offset := by
  induction offset using Nat.strong_induction_on generalizing found with
  | _ offset ih =>
    obtain rfl | ⟨before, hstretch⟩ := hoffset.eq_zero_or_stretch
    · exact absurd hlt (Nat.not_lt_zero _)
    have ih : ∀ other ∈ engine.matchesIn p line, other.start < before → other.stop ≤ before :=
      fun other hother hlt => ih before hstretch.start_lt_stop hstretch.start_outside hother hlt
    obtain ⟨hstarts, hclear⟩ := (hfirst.mem_iff hp).1 hfound
    rcases Nat.lt_trichotomy found.start before with hearlier | hsame | hinside
    · exact Nat.le_trans (ih found hfound hearlier) (Nat.le_of_lt hstretch.start_lt_stop)
    · -- It is the literal that begins there.
      have hthis := ((hreads.starts_iff hline (hsame ▸ hstretch.start_outside)).1 hstarts).1
      exact Nat.le_of_not_lt fun hbeyond => hthis.inside offset hlt hbeyond hoffset
    · -- The literal around it is found itself, and nothing is found in it.
      have hliteral : ⟨before, offset, []⟩ ∈ engine.matchesIn p line := by
        refine (hfirst.mem_iff hp).2 ⟨?_, ih⟩
        exact (hreads.starts_iff hline hstretch.start_outside).2 ⟨hstretch, by dsimp only; omega, rfl⟩
      exact absurd (hclear _ hliteral hinside) (Nat.not_le.2 hlt)

end ReadsLiterals

end HeadlessEditor
