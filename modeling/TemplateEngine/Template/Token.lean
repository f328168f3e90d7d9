/-
Tokens of a template. A template text is cut at its delimiters, taken from the left; what lies
between two of them is one text token. Each token knows the line on which it starts.
-/
namespace TemplateEngine.Template

/-- The six delimiters. -/
inductive Delimiter where
  | tagOpen | tagClose | outputOpen | outputClose | commentOpen | commentClose
  deriving DecidableEq, Repr

namespace Delimiter

/-- The delimiter that two characters spell. -/
def ofChars? (c d : Char) : Option Delimiter :=
  if c == '{' then
    if d == '%' then some tagOpen
    else if d == '{' then some outputOpen
    else if d == '#' then some commentOpen
    else none
  else if d == '}' then
    if c == '%' then some tagClose
    else if c == '}' then some outputClose
    else if c == '#' then some commentClose
    else none
  else none

/-- The two characters of a delimiter. -/
def chars : Delimiter → List Char
  | tagOpen => ['{', '%']
  | tagClose => ['%', '}']
  | outputOpen => ['{', '{']
  | outputClose => ['}', '}']
  | commentOpen => ['{', '#']
  | commentClose => ['#', '}']

theorem ofChars?_eq_some {c d : Char} {k : Delimiter} (h : ofChars? c d = some k) :
    k.chars = [c, d] := by
  unfold ofChars? at h
  repeat' split at h
  all_goals simp_all
  all_goals subst h; rfl

end Delimiter

/-! ## Pieces -/

/-- A piece of a template: a delimiter, or the text up to the next one. -/
inductive Piece where
  | text (cs : List Char)
  | delimiter (d : Delimiter)
  deriving DecidableEq, Repr

/-- The characters of a piece. -/
def Piece.chars : Piece → List Char
  | text cs => cs
  | delimiter d => d.chars

/-- Puts a character in front: into the text piece at the head, or into a new one. -/
def consChar (c : Char) : List Piece → List Piece
  | .text cs :: ps => .text (c :: cs) :: ps
  | ps => .text [c] :: ps

/-- Cuts a text at its delimiters. -/
def pieces : List Char → List Piece
  | [] => []
  | [c] => [.text [c]]
  | c :: d :: cs =>
    match Delimiter.ofChars? c d with
    | some k => .delimiter k :: pieces cs
    | none => consChar c (pieces (d :: cs))

/-! ## Tokens -/

/-- What a token is: a delimiter, or text. -/
inductive TokenKind where
  | text
  | delimiter (d : Delimiter)
  deriving DecidableEq, Repr

/-- A token with its characters and the line, counted from one, on which it starts. -/
structure Token where
  kind : TokenKind
  value : String
  line : Nat
  deriving DecidableEq, Repr

/-- The number of line ends in a text. -/
def lineEnds (cs : List Char) : Nat :=
  cs.count '\n'

/-- The kind of the token of a piece. -/
def Piece.kind : Piece → TokenKind
  | text _ => .text
  | delimiter d => .delimiter d

/-- The tokens of pieces, the first of which starts on `line`. -/
def number (line : Nat) : List Piece → List Token
  | [] => []
  | p :: ps => ⟨p.kind, String.ofList p.chars, line⟩ :: number (line + lineEnds p.chars) ps

/-- The tokens of a template text. -/
def tokens (text : String) : List Token :=
  number 1 (pieces text.toList)

/-! ## Token streams -/

/-- The tokens of a named template, which can be taken once. -/
structure TokenStream where
  text : String
  name : String
  line : Nat := 1
  consumed : Bool := false

/-- A stream was asked for its tokens a second time. -/
structure AlreadyConsumed where
  name : String

/-- The text of the problem. -/
def AlreadyConsumed.message (e : AlreadyConsumed) : String :=
  s!"Token stream of '{e.name}' was already consumed"

/-- Takes all tokens of a stream, which is then on the last line of its text. -/
def TokenStream.take (s : TokenStream) : Except AlreadyConsumed (List Token) × TokenStream :=
  if s.consumed then (.error ⟨s.name⟩, s)
  else (.ok (tokens s.text), { s with line := s.line + lineEnds s.text.toList, consumed := true })

end TemplateEngine.Template
