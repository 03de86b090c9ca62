import HeadlessEditor.Proofs.QuotedLiterals
import Mathlib.Data.List.Chain

/-!
JSON texts, by the grammar of their standard. A text is written as its lexemes, which are literals and single
characters between them, so that the literals of a text and their places can be named.
-/

namespace HeadlessEditor

/-- What is said of the characters of a text is decided by going through the text, and not through all
characters there are. -/
instance (priority := 2000) Text.decidableForallMem (text : Text) (p : Char → Prop) [DecidablePred p] :
    Decidable (∀ c ∈ text, p c) :=
  List.decidableBAll p text

instance (priority := 2000) Text.decidableForallMemOption (c? : Option Char) (p : Char → Prop)
    [DecidablePred p] : Decidable (∀ c ∈ c?, p c) :=
  Option.decidableForallMem c?

namespace JsonText

def digits : List Char := "0123456789".toList

def hexDigits : List Char := "0123456789abcdefABCDEF".toList

inductive Characters : Text → Prop where
  | nil : Characters []
  | plain {c : Char} {rest : Text} (hprintable : ' ' ≤ c) (hquote : c ≠ '"') (hescape : c ≠ '\\')
      (hrest : Characters rest) : Characters (c :: rest)
  | escape {c : Char} {rest : Text} (hc : c ∈ "\"\\/bfnrt".toList) (hrest : Characters rest) :
      Characters ('\\' :: c :: rest)
  | unicode {code rest : Text} (hlength : code.length = 4) (hcode : ∀ c ∈ code, c ∈ hexDigits)
      (hrest : Characters rest) : Characters ('\\' :: 'u' :: (code ++ rest))

inductive Integer : Text → Prop where
  | zero : Integer ['0']
  | positive {c : Char} {rest : Text} (hc : c ∈ digits) (hzero : c ≠ '0') (hrest : ∀ d ∈ rest, d ∈ digits) :
      Integer (c :: rest)

inductive Fraction : Text → Prop where
  | none : Fraction []
  | some {c : Char} {rest : Text} (hdigits : ∀ d ∈ c :: rest, d ∈ digits) : Fraction ('.' :: c :: rest)

inductive Exponent : Text → Prop where
  | none : Exponent []
  | some {e c : Char} {sign rest : Text} (he : e ∈ ['e', 'E']) (hsign : sign ∈ [[], ['+'], ['-']])
      (hdigits : ∀ d ∈ c :: rest, d ∈ digits) : Exponent (e :: (sign ++ c :: rest))

inductive Number : Text → Prop where
  | parts {sign integer fraction exponent : Text} (hsign : sign ∈ [[], ['-']]) (hinteger : Integer integer)
      (hfraction : Fraction fraction) (hexponent : Exponent exponent) :
      Number (sign ++ (integer ++ (fraction ++ exponent)))

inductive Literal : String → Text → Prop where
  | string {text : Text} (h : Characters text) : Literal "string" ('"' :: (text ++ ['"']))
  | number {text : Text} (h : Number text) : Literal "number" text
  | yes : Literal "boolean" "true".toList
  | no : Literal "boolean" "false".toList
  | null : Literal "null" "null".toList

def blanks : List Char := [' ', '\t', '\n', '\r']

/-- Blanks and the characters that structure a text. -/
def marks : List Char := blanks ++ ['[', ']', '{', '}', ':', ',']

inductive Lexeme where
  | mark (c : Char)
  | literal (className : String) (text : Text)
  deriving DecidableEq, Repr

namespace Lexeme

def text : Lexeme → Text
  | mark c => [c]
  | literal _ text => text

def IsMark (lexeme : Lexeme) : Prop := ∃ c ∈ marks, lexeme = mark c

def Sound (lexeme : Lexeme) : Prop :=
  lexeme.IsMark ∨ ∃ className text, Literal className text ∧ lexeme = literal className text

end Lexeme

open Lexeme

def textOf (lexemes : List Lexeme) : Text := lexemes.flatMap Lexeme.text

/-- The tokens for the literals of a text that stands at an offset. -/
def tokensFrom (offset : Nat) : List Lexeme → List Token
  | [] => []
  | mark _ :: rest => tokensFrom (offset + 1) rest
  | literal className text :: rest =>
    ⟨offset, offset + text.length, className⟩ :: tokensFrom (offset + text.length) rest

def Blank (lexemes : List Lexeme) : Prop := ∀ lexeme ∈ lexemes, ∃ c ∈ blanks, lexeme = mark c

inductive Phrase where
  | value
  | document
  | items
  | member
  | members

inductive Derives : Phrase → List Lexeme → Prop where
  | literal {className : String} {text : Text} (h : Literal className text) :
      Derives .value [.literal className text]
  | emptyArray {between : List Lexeme} (h : Blank between) :
      Derives .value (mark '[' :: (between ++ [mark ']']))
  | array {items : List Lexeme} (h : Derives .items items) :
      Derives .value (mark '[' :: (items ++ [mark ']']))
  | emptyObject {between : List Lexeme} (h : Blank between) :
      Derives .value (mark '{' :: (between ++ [mark '}']))
  | object {members : List Lexeme} (h : Derives .members members) :
      Derives .value (mark '{' :: (members ++ [mark '}']))
  | document {before value after : List Lexeme} (hbefore : Blank before) (h : Derives .value value)
      (hafter : Blank after) : Derives .document (before ++ (value ++ after))
  | lastItem {item : List Lexeme} (h : Derives .document item) : Derives .items item
  | items {item rest : List Lexeme} (h : Derives .document item) (hrest : Derives .items rest) :
      Derives .items (item ++ mark ',' :: rest)
  | member {before after value : List Lexeme} {key : Text} (hbefore : Blank before)
      (hkey : Literal "string" key) (hafter : Blank after) (h : Derives .document value) :
      Derives .member (before ++ Lexeme.literal "string" key :: (after ++ mark ':' :: value))
  | lastMember {member : List Lexeme} (h : Derives .member member) : Derives .members member
  | members {member rest : List Lexeme} (h : Derives .member member) (hrest : Derives .members rest) :
      Derives .members (member ++ mark ',' :: rest)

/-- All lexemes are those of JSON, and no literal stands right behind another one. -/
structure WellFormed (lexemes : List Lexeme) : Prop where
  sound : ∀ lexeme ∈ lexemes, lexeme.Sound
  apart : lexemes.IsChain fun a b => a.IsMark ∨ b.IsMark

variable {lexemes before after : List Lexeme} {lexeme : Lexeme} {c : Char} {text : Text}
  {className : String} {phrase : Phrase}

theorem Lexeme.isMark_mark (hc : c ∈ marks) : (mark c).IsMark := ⟨c, hc, rfl⟩

theorem Lexeme.not_isMark_literal (className : String) (text : Text) : ¬ (literal className text).IsMark := by
  rintro ⟨c, -, h⟩
  cases h

namespace WellFormed

theorem nil : WellFormed [] := ⟨by simp, List.IsChain.nil⟩

theorem singleton (h : lexeme.Sound) : WellFormed [lexeme] := ⟨by simpa using h, List.IsChain.singleton _⟩

theorem append (hbefore : WellFormed before) (hafter : WellFormed after)
    (hmark : (∀ lexeme ∈ before.getLast?, lexeme.IsMark) ∨ ∀ lexeme ∈ after.head?, lexeme.IsMark) :
    WellFormed (before ++ after) := by
  refine ⟨?_, List.isChain_append.2 ⟨hbefore.apart, hafter.apart, fun a ha b hb => ?_⟩⟩
  · intro lexeme hmem
    exact (List.mem_append.1 hmem).elim (hbefore.sound lexeme) (hafter.sound lexeme)
  · exact hmark.imp (· a ha) (· b hb)

theorem mark (hc : c ∈ marks) : WellFormed [Lexeme.mark c] := singleton (Or.inl (isMark_mark hc))

/-- Text parts with a mark between. -/
theorem append_mark (hbefore : WellFormed before) (hc : c ∈ marks) (hafter : WellFormed after) :
    WellFormed (before ++ Lexeme.mark c :: after) := by
  have hmark : ∀ lexeme ∈ [Lexeme.mark c].getLast?, lexeme.IsMark := by simp [isMark_mark hc]
  refine hbefore.append ((mark hc).append hafter (Or.inl hmark)) (Or.inr ?_)
  simp [isMark_mark hc]

theorem left (h : WellFormed (before ++ after)) : WellFormed before :=
  ⟨fun lexeme hmem => h.sound lexeme (List.mem_append_left _ hmem), (List.isChain_append.1 h.apart).1⟩

theorem right (h : WellFormed (before ++ after)) : WellFormed after :=
  ⟨fun lexeme hmem => h.sound lexeme (List.mem_append_right _ hmem), (List.isChain_append.1 h.apart).2.1⟩

theorem tail (h : WellFormed (lexeme :: after)) : WellFormed after :=
  right (show WellFormed ([lexeme] ++ after) from h)

/-- What stands before a literal and behind it are marks. -/
theorem marks_around (h : WellFormed (before ++ literal className text :: after)) :
    (∀ lexeme ∈ before.getLast?, lexeme.IsMark) ∧ ∀ lexeme ∈ after.head?, lexeme.IsMark := by
  obtain ⟨-, hafter, hjoint⟩ := List.isChain_append.1 h.apart
  constructor
  · intro lexeme hlast
    exact (hjoint lexeme hlast _ rfl).resolve_right (not_isMark_literal _ _)
  · intro lexeme hhead
    obtain ⟨rest, rfl⟩ := List.head?_eq_some_iff.1 hhead
    exact (List.isChain_cons_cons.1 hafter).1.resolve_left (not_isMark_literal _ _)

end WellFormed

theorem Blank.wellFormed (h : Blank lexemes) : WellFormed lexemes := by
  induction lexemes with
  | nil => exact WellFormed.nil
  | cons lexeme rest ih =>
    obtain ⟨⟨c, hc, rfl⟩, hrest⟩ := List.forall_mem_cons.1 h
    exact WellFormed.nil.append_mark (List.mem_append_left _ hc) (ih hrest)

theorem Blank.isMark (h : Blank lexemes) (hmem : lexeme ∈ lexemes) : lexeme.IsMark := by
  obtain ⟨c, hc, rfl⟩ := h lexeme hmem
  exact isMark_mark (List.mem_append_left _ hc)

/-- The lexemes of a document are well formed. -/
theorem Derives.wellFormed (h : Derives phrase lexemes) : WellFormed lexemes := by
  induction h with
  | literal h => exact WellFormed.singleton (Or.inr ⟨_, _, h, rfl⟩)
  | emptyArray h | emptyObject h =>
    exact WellFormed.nil.append_mark (by decide) (h.wellFormed.append_mark (by decide) WellFormed.nil)
  | array _ ih | object _ ih =>
    exact WellFormed.nil.append_mark (by decide) (ih.append_mark (by decide) WellFormed.nil)
  | document hbefore _ hafter ih =>
    refine hbefore.wellFormed.append (ih.append hafter.wellFormed (Or.inr ?_)) (Or.inl ?_)
    · exact fun lexeme hmem => hafter.isMark (List.mem_of_mem_head? hmem)
    · exact fun lexeme hmem => hbefore.isMark (List.mem_of_getLast? hmem)
  | lastItem _ ih | lastMember _ ih => exact ih
  | items _ _ ih ihrest | members _ _ ih ihrest => exact ih.append_mark (by decide) ihrest
  | @member _ after _ _ hbefore hkey hafter _ ih =>
    have hcolon : ':' ∈ marks := by decide
    refine hbefore.wellFormed.append ((WellFormed.singleton (Or.inr ⟨_, _, hkey, rfl⟩)).append
      (hafter.wellFormed.append_mark hcolon ih) (Or.inr ?_)) (Or.inl ?_)
    · intro lexeme hhead
      rcases after with _ | ⟨first, rest⟩
      · obtain rfl := Option.some.inj hhead
        exact isMark_mark hcolon
      · obtain rfl := Option.some.inj hhead
        exact hafter.isMark List.mem_cons_self
    · exact fun lexeme hmem => hbefore.isMark (List.mem_of_getLast? hmem)

end JsonText

end HeadlessEditor
