/-
Pieces of a format: characters that stand for themselves, and directives. A directive starts with a
percent sign. A key in parentheses, flags, a width, a precision and a length may come before the
character that tells how a value is written; two percent signs stand for one.
-/
import TemplateEngine.Text.CharClass

namespace TemplateEngine.Format

/-- The key of a directive. Parentheses in it are balanced. -/
inductive Key where
  | absent
  /-- The closing parenthesis is missing. -/
  | incomplete
  | named (text : List Char)
  deriving DecidableEq, Repr

/-- The flags of a directive: to the left, with a plus sign or a blank for a positive number, in the
alternate form, and filled with zeros. -/
structure Flags where
  left : Bool := false
  sign : Bool := false
  blank : Bool := false
  alternate : Bool := false
  zero : Bool := false
  deriving DecidableEq, Repr

/-- A width or precision: its digits, or the value that comes next. -/
inductive Measure where
  | digits (ds : List Char)
  | star
  deriving DecidableEq, Repr

/-- A directive. -/
structure Directive where
  key : Key
  flags : Flags
  width : Option Measure
  precision : Option Measure
  /-- Whether a length is given; it means nothing. -/
  long : Bool
  /-- The character of the conversion, unless the format ends before it. -/
  conversion : Option Char
  /-- The place of that character. -/
  index : Nat
  deriving DecidableEq, Repr

/-- A piece of a format. -/
inductive Piece where
  | char (c : Char)
  | directive (d : Directive)
  deriving DecidableEq, Repr

/-! ## Parts of a directive -/

/-- Takes a text up to the parenthesis that closes it, and that parenthesis; `depth` more are open. -/
def closing (depth : Nat) : List Char → Option (List Char × List Char)
  | [] => none
  | c :: cs =>
    if c == ')' && depth == 0 then some ([], cs)
    else
      let depth := if c == ')' then depth - 1 else if c == '(' then depth + 1 else depth
      (closing depth cs).map fun r => (c :: r.1, r.2)

/-- Takes a key off the head of a text. -/
def takeKey : List Char → Key × List Char
  | '(' :: cs => match closing 0 cs with
    | some (text, rest) => (.named text, rest)
    | none => (.incomplete, [])
  | cs => (.absent, cs)

/-- Sets the flag of a character. -/
def Flags.set? (flags : Flags) (c : Char) : Option Flags :=
  match c with
  | '-' => some { flags with left := true }
  | '+' => some { flags with sign := true }
  | ' ' => some { flags with blank := true }
  | '#' => some { flags with alternate := true }
  | '0' => some { flags with zero := true }
  | _ => none

/-- Takes flags off the head of a text. -/
def takeFlags (flags : Flags) : List Char → Flags × List Char
  | [] => (flags, [])
  | c :: cs => match flags.set? c with
    | some flags => takeFlags flags cs
    | none => (flags, c :: cs)

/-- Takes a star or digits off the head of a text. -/
def takeMeasure : List Char → Measure × List Char
  | '*' :: cs => (.star, cs)
  | cs => (.digits (cs.takeWhile Char.isDigit), cs.dropWhile Char.isDigit)

/-- Takes a width off the head of a text. -/
def takeWidth (cs : List Char) : Option Measure × List Char :=
  match takeMeasure cs with
  | (.digits [], rest) => (none, rest)
  | (m, rest) => (some m, rest)

/-- Takes a precision off the head of a text. A point without digits is one, too. -/
def takePrecision : List Char → Option Measure × List Char
  | '.' :: cs =>
    let (m, rest) := takeMeasure cs
    (some m, rest)
  | cs => (none, cs)

/-- Takes a length off the head of a text. -/
def takeLength : List Char → Bool × List Char
  | c :: cs => if c == 'h' || c == 'l' || c == 'L' then (true, cs) else (false, c :: cs)
  | [] => (false, [])

/-- Reads a directive behind its percent sign, in a format of `total` characters. -/
def readDirective (total : Nat) (cs : List Char) : Directive × List Char :=
  let (key, rest) := takeKey cs
  let (flags, rest) := takeFlags {} rest
  let (width, rest) := takeWidth rest
  let (precision, rest) := takePrecision rest
  let (long, rest) := takeLength rest
  (⟨key, flags, width, precision, long, rest.head?, total - rest.length⟩, rest.tail)

/-! ## Lengths -/

theorem length_closing {depth : Nat} {cs text rest : List Char} (h : closing depth cs = some (text, rest)) :
    rest.length ≤ cs.length := by
  induction cs generalizing depth text with
  | nil => cases h
  | cons c cs ih =>
    rw [closing] at h
    split at h
    · cases h
      exact Nat.le_succ _
    · obtain ⟨⟨text', rest'⟩, hrest, heq⟩ := Option.map_eq_some_iff.1 h
      cases heq
      exact Nat.le_succ_of_le (ih hrest)

theorem length_takeKey (cs : List Char) : (takeKey cs).2.length ≤ cs.length := by
  unfold takeKey
  split
  · split
    · exact Nat.le_succ_of_le (length_closing ‹_›)
    · exact Nat.zero_le _
  · exact Nat.le_refl _

theorem length_takeFlags (flags : Flags) (cs : List Char) : (takeFlags flags cs).2.length ≤ cs.length := by
  induction cs generalizing flags with
  | nil => exact Nat.le_refl _
  | cons c cs ih =>
    rw [takeFlags]
    split
    · exact Nat.le_succ_of_le (ih _)
    · exact Nat.le_refl _

theorem length_takeMeasure (cs : List Char) : (takeMeasure cs).2.length ≤ cs.length := by
  unfold takeMeasure
  split
  · exact Nat.le_succ _
  · exact (List.dropWhile_sublist _).length_le

theorem length_takeWidth (cs : List Char) : (takeWidth cs).2.length ≤ cs.length := by
  have h := length_takeMeasure cs
  unfold takeWidth
  split <;> simp_all

theorem length_takePrecision (cs : List Char) : (takePrecision cs).2.length ≤ cs.length := by
  unfold takePrecision
  split
  · exact Nat.le_succ_of_le (length_takeMeasure _)
  · exact Nat.le_refl _

theorem length_takeLength (cs : List Char) : (takeLength cs).2.length ≤ cs.length := by
  unfold takeLength
  split
  · split
    · exact Nat.le_succ _
    · exact Nat.le_refl _
  · exact Nat.le_refl _

theorem length_readDirective (total : Nat) (cs : List Char) : (readDirective total cs).2.length ≤ cs.length := by
  have hrest : (readDirective total cs).2 =
      (takeLength (takePrecision (takeWidth (takeFlags {} (takeKey cs).2).2).2).2).2.tail := rfl
  rw [hrest, List.length_tail]
  have hkey := length_takeKey cs
  have hflags := length_takeFlags {} (takeKey cs).2
  have hwidth := length_takeWidth (takeFlags {} (takeKey cs).2).2
  have hprecision := length_takePrecision (takeWidth (takeFlags {} (takeKey cs).2).2).2
  have hlength := length_takeLength (takePrecision (takeWidth (takeFlags {} (takeKey cs).2).2).2).2
  omega

/-! ## Formats -/

/-- The pieces of the rest of a format of `total` characters. -/
def piecesFrom (total : Nat) (cs : List Char) : List Piece :=
  match cs with
  | [] => []
  | '%' :: '%' :: cs => .char '%' :: piecesFrom total cs
  | '%' :: cs => .directive (readDirective total cs).1 :: piecesFrom total (readDirective total cs).2
  | c :: cs => .char c :: piecesFrom total cs
termination_by cs.length
decreasing_by
  all_goals simp only [List.length_cons]
  · omega
  · have := length_readDirective total cs
    omega
  · omega

/-- The pieces of a format. -/
def pieces (cs : List Char) : List Piece :=
  piecesFrom cs.length cs

end TemplateEngine.Format
