/-
Tokens of the expression language: numbers, quoted texts, keywords, names and symbols, each with the
position at which it starts. `scan?` takes the lexeme at the head of a text, and `tokenize` goes on
from the end of one lexeme to the next.
-/
import TemplateEngine.Text.CharClass
import TemplateEngine.Text.Identifier

namespace TemplateEngine

open TemplateEngine.Text

/-- The reserved words. -/
inductive Keyword where
  | and | or | not | in | if | else | true | false | null | none
  deriving DecidableEq, Repr

/-- The operators and punctuation marks. -/
inductive Symbol where
  | floorDiv | eq | ne | le | ge | ampersands | bars
  | minus | plus | times | div | percent | tilde | lt | gt | bang | bar | colon | comma | dot
  | parenOpen | parenClose | bracketOpen | bracketClose | braceOpen | braceClose
  deriving DecidableEq, Repr

/-- What a token is. The text of a number is as it was written, that of a quoted text is decoded. -/
inductive ExprTokenKind where
  | number (text : String)
  | str (value : String)
  | keyword (k : Keyword)
  | name (n : String)
  | symbol (s : Symbol)
  | done
  deriving DecidableEq, Repr

/-- A token and the position of its first character; the last token of a source is `done`. -/
structure ExprToken where
  kind : ExprTokenKind
  position : Nat
  deriving DecidableEq, Repr

namespace Keyword

/-- The word. -/
def word : Keyword → String
  | «and» => "and"
  | «or» => "or"
  | «not» => "not"
  | «in» => "in"
  | «if» => "if"
  | «else» => "else"
  | «true» => "true"
  | «false» => "false"
  | null => "null"
  | none => "none"

/-- All reserved words. -/
def all : List Keyword :=
  [«and», «or», «not», «in», «if», «else», «true», «false», null, none]

/-- The keyword that a word spells. -/
def ofWord? (w : String) : Option Keyword :=
  all.find? (·.word == w)

end Keyword

namespace Symbol

/-- The characters of a symbol. -/
def chars : Symbol → List Char
  | floorDiv => ['/', '/']
  | eq => ['=', '=']
  | ne => ['!', '=']
  | le => ['<', '=']
  | ge => ['>', '=']
  | ampersands => ['&', '&']
  | bars => ['|', '|']
  | minus => ['-']
  | plus => ['+']
  | times => ['*']
  | div => ['/']
  | percent => ['%']
  | tilde => ['~']
  | lt => ['<']
  | gt => ['>']
  | bang => ['!']
  | bar => ['|']
  | colon => [':']
  | comma => [',']
  | dot => ['.']
  | parenOpen => ['(']
  | parenClose => [')']
  | bracketOpen => ['[']
  | bracketClose => [']']
  | braceOpen => ['{']
  | braceClose => ['}']

/-- The symbol as text. -/
def text (s : Symbol) : String :=
  String.ofList s.chars

/-- All symbols, the ones of two characters first. -/
def all : List Symbol :=
  [floorDiv, eq, ne, le, ge, ampersands, bars, minus, plus, times, div, percent, tilde, lt, gt, bang,
    bar, colon, comma, dot, parenOpen, parenClose, bracketOpen, bracketClose, braceOpen, braceClose]

/-- The longest symbol at the head of a text. -/
def ofHead? (cs : List Char) : Option Symbol :=
  all.find? fun s => s.chars.isPrefixOf cs

end Symbol

/-- The text of a token in messages. -/
def ExprTokenKind.text : ExprTokenKind → String
  | number t => t
  | str v => v
  | keyword k => k.word
  | name n => n
  | symbol s => s.text
  | done => ""

/-! ## Lexemes -/

/-- The number of characters at the head of a text that a class holds. -/
def runLength (p : Char → Bool) (cs : List Char) : Nat :=
  (cs.takeWhile p).length

/-- The length of an exponent at the head of a text: `e`, a sign or none, and digits. -/
def exponentLength : List Char → Nat
  | [] => 0
  | c :: cs =>
    if c == 'e' || c == 'E' then
      let sign := match cs with
        | d :: _ => if d == '+' || d == '-' then 1 else 0
        | [] => 0
      let n := runLength isDigit (cs.drop sign)
      if n == 0 then 0 else 1 + sign + n
    else 0

/-- The length of a number at the head of a text: digits, a point with more digits, an exponent. -/
def numberLength (cs : List Char) : Nat :=
  let whole := runLength isDigit cs
  if whole == 0 then 0
  else
    let fraction := match cs.drop whole with
      | '.' :: ds => runLength isDigit ds
      | _ => 0
    let mantissa := if fraction == 0 then whole else whole + 1 + fraction
    mantissa + exponentLength (cs.drop mantissa)

/-- The length of a quoted text after its opening quote, the closing quote included. A backslash
takes the character after it along. -/
def quotedLength? (quote : Char) : List Char → Option Nat
  | [] => none
  | '\\' :: [] => none
  | '\\' :: _ :: cs => (quotedLength? quote cs).map (· + 2)
  | c :: cs => if c == quote then some 1 else (quotedLength? quote cs).map (· + 1)

/-- The character that a backslash and `c` stand for. -/
def unescapeChar (c : Char) : Char :=
  match c with
  | 'n' => '\n'
  | 't' => '\t'
  | 'r' => '\r'
  | '0' => '\x00'
  | c => c

/-- Replaces each backslash and the character after it by what they stand for. -/
def unescape : List Char → List Char
  | [] => []
  | '\\' :: c :: cs => unescapeChar c :: unescape cs
  | c :: cs => c :: unescape cs

/-- The token of a word. -/
def wordKind (cs : List Char) : ExprTokenKind :=
  let w := String.ofList cs
  match Keyword.ofWord? w with
  | some k => .keyword k
  | none => .name w

/-- A lexeme: white space, or a token. -/
inductive Lexeme where
  | blank
  | token (k : ExprTokenKind)
  deriving DecidableEq, Repr

/-- The lexeme that starts with `c` and goes on in `cs`, with the number of characters that it takes
from `cs`. -/
def scan? (c : Char) (cs : List Char) : Option (Lexeme × Nat) :=
  if isBlank c then some (.blank, runLength isBlank cs)
  else if isDigit c then
    let n := numberLength (c :: cs) - 1
    some (.token (.number (String.ofList (c :: cs.take n))), n)
  else if c == '"' || c == '\'' then
    (quotedLength? c cs).map fun n => (.token (.str (String.ofList (unescape (cs.take (n - 1))))), n)
  else match Symbol.ofHead? (c :: cs) with
    | some s => some (.token (.symbol s), s.chars.length - 1)
    | none =>
      if isNameStart c then
        let n := runLength isNameChar cs
        some (.token (wordKind (c :: cs.take n)), n)
      else none

/-- A character that starts no lexeme. -/
structure UnexpectedChar where
  char : Char
  position : Nat
  deriving DecidableEq, Repr

/-- The tokens of the rest of a source, which starts at `position`. -/
def tokenizeFrom (position : Nat) : List Char → Except UnexpectedChar (List ExprToken)
  | [] => .ok [⟨.done, position⟩]
  | c :: cs =>
    match scan? c cs with
    | none => .error ⟨c, position⟩
    | some (.blank, n) => tokenizeFrom (position + n + 1) (cs.drop n)
    | some (.token k, n) => do
      let ts ← tokenizeFrom (position + n + 1) (cs.drop n)
      return ⟨k, position⟩ :: ts
  termination_by cs => cs.length
  decreasing_by all_goals simp only [List.length_drop, List.length_cons]; omega

/-- The tokens of a source. -/
def tokenize (source : String) : Except UnexpectedChar (List ExprToken) :=
  tokenizeFrom 0 source.toList

end TemplateEngine
