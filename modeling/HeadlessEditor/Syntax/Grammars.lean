import HeadlessEditor.Syntax.Highlighter
import HeadlessEditor.Table

/-!
Grammars for a few formats, made of highlighting rules, and the choice of a grammar by the extension
of a file. They name what stands out on a line and do not parse the format.
-/

namespace HeadlessEditor

namespace Pattern

def one (c : Char) : Pattern := char (.one c)

def oneOf (s : String) : Pattern := char (.ofString s)

def noneOf (s : String) : Pattern := char (.complement (.ofString s))

def any : Pattern := noneOf "\n"

def digit : Pattern := char .digit

def blank : Pattern := char .blank

def many (a : Pattern) : Pattern := star true a

def many1 (a : Pattern) : Pattern := plus true a

def maybe (a : Pattern) : Pattern := optional true a

def literal (s : String) : Pattern := chain (s.toList.map one)

/-- One of several words, with nothing of a word around it. -/
def words (list : List String) : Pattern :=
  chain [wordBoundary true, choice (list.map literal), wordBoundary true]

/-- A string in double quotes, with escapes. -/
def quotedString : Pattern :=
  chain [one '"', many (alt (seq (one '\\') any) (noneOf "\"\\")), one '"']

def fraction : Pattern := maybe (seq (one '.') (many1 digit))

def exponent : Pattern := maybe (chain [oneOf "eE", maybe (oneOf "+-"), many1 digit])

def grouped : Pattern := seq digit (many (char (.union .digit (.one '_'))))

end Pattern

namespace Highlighter

open Pattern

variable (engine : PatternEngine)

def rule (className : String) (pattern : Pattern) : HighlightRule :=
  ⟨engine.matcher pattern, className, 0⟩

def groupRule (className : String) (pattern : Pattern) : HighlightRule :=
  ⟨engine.matcher pattern, className, 1⟩

@[simp] theorem className_rule (className : String) (pattern : Pattern) :
    (rule engine className pattern).className = className := rfl

@[simp] theorem className_groupRule (className : String) (pattern : Pattern) :
    (groupRule engine className pattern).className = className := rfl

def json : Highlighter := ⟨[
  rule engine "string" quotedString,
  rule engine "number" (chain [maybe (one '-'),
    alt (one '0') (seq (char (.range '1' '9')) (many digit)), fraction, exponent]),
  rule engine "boolean" (words ["true", "false"]),
  rule engine "null" (words ["null"])]⟩

def ini : Highlighter := ⟨[
  rule engine "comment" (chain [atStart, many blank, oneOf ";#", many any, atEnd]),
  groupRule engine "section" (chain [atStart, many blank, one '[', group 1 (many1 (noneOf "]")), one ']',
    many blank, atEnd]),
  groupRule engine "key" (chain [atStart, many blank,
    group 1 (many1 (char (.complement (.union (.one '=') .blank)))), many blank, one '='])]⟩

def toml : Highlighter := ⟨[
  rule engine "string" (alt quotedString (chain [one '\'', many (noneOf "'"), one '\''])),
  rule engine "comment" (chain [one '#', many any, atEnd]),
  groupRule engine "section" (chain [atStart, many blank, one '[', maybe (one '['),
    group 1 (many1 (noneOf "]")), one ']', maybe (one ']'), many blank, atEnd]),
  groupRule engine "key" (chain [atStart, many blank,
    group 1 (many1 (char (.union (.range 'A' 'Z') (.union (.range 'a' 'z')
      (.union (.range '0' '9') (.ofString "_.-")))))), many blank, one '=']),
  rule engine "boolean" (words ["true", "false"]),
  rule engine "number" (chain [maybe (oneOf "+-"), wordBoundary true, grouped, fraction, exponent,
    wordBoundary true])]⟩

/-- The words that Rust reserves and that start or join its constructs. -/
def rustKeywords : List String := ["as", "async", "await", "break", "const", "continue", "crate",
  "dyn", "else", "enum", "extern", "fn", "for", "if", "impl", "in", "let", "loop", "match", "mod",
  "move", "mut", "pub", "ref", "return", "self", "Self", "static", "struct", "super", "trait",
  "type", "unsafe", "use", "where", "while"]

/-- Rust: comments outside strings, strings, keywords, truth values and numbers. -/
def rust : Highlighter := ⟨[
  groupRule engine "comment" (chain [atStart,
    many (choice [noneOf "\"/", quotedString, seq (one '/') (noneOf "/\"")]),
    group 1 (chain [one '/', one '/', many any]), atEnd]),
  rule engine "string" quotedString,
  rule engine "keyword" (words rustKeywords),
  rule engine "boolean" (words ["true", "false"]),
  rule engine "number" (chain [wordBoundary true, grouped, fraction,
    maybe (choice [seq (oneOf "iu") (choice (["8", "16", "32", "64", "128", "size"].map literal)),
      literal "f32", literal "f64"]), wordBoundary true])]⟩

end Highlighter

structure Grammars where
  table : Table String Highlighter

namespace Grammars

def none : Grammars := ⟨.empty⟩

/-- A file extension with its ASCII letters in lower case. -/
def foldCase (fileExtension : String) : String :=
  String.ofList (fileExtension.toList.map Char.toLower)

/-- Adds a grammar, in place of an older one for the same files. -/
def withGrammar (grammars : Grammars) (fileExtension : String) (highlighter : Highlighter) :
    Grammars :=
  ⟨grammars.table.insert (foldCase fileExtension) highlighter⟩

def grammar? (grammars : Grammars) (fileExtension : String) : Option Highlighter :=
  grammars.table.get? (foldCase fileExtension)

def standard (engine : PatternEngine) : Grammars :=
  ((((none.withGrammar "json" (.json engine)).withGrammar "toml" (.toml engine)).withGrammar
    "rs" (.rust engine)).withGrammar "ini" (.ini engine)).withGrammar "cfg" (.ini engine)

def tokenize (grammars : Grammars) (text : Text) (fileExtension : String) :
    Except TokenizerError (List Token) :=
  match grammars.grammar? fileExtension with
  | some highlighter => .ok (highlighter.highlight text)
  | Option.none => .error (.unsupported fileExtension)

/-- A tokenizer that takes no time. -/
def tokenizer (grammars : Grammars) : Tokenizer := ⟨grammars.tokenize, 0⟩

end Grammars

end HeadlessEditor
