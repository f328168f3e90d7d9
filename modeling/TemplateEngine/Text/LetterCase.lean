/-
Letter case of whole texts: upper and lower case, capitalised first letter and title case. Case
forms may have several characters, and the capital sigma has a second small form at the end of a
word.
-/
import TemplateEngine.Text.LetterCase.Table

namespace TemplateEngine.Text

/-- The case form of `c` that the tables give, if they hold `c`. -/
def caseForm? (sequences : List (Nat × List Nat)) (runs : List CaseRun) (c : Char) : Option (List Char) :=
  match sequences.find? (·.1 == c.toNat) with
  | some (_, form) => some (form.map Char.ofNat)
  | none => (runs.find? (·.holds c.toNat)).map fun r => [Char.ofNat ((c.toNat : Int) + r.shift).toNat]

/-- The upper case form of a character. -/
def upperForm (c : Char) : List Char :=
  if c.toNat < 128 then [c.toUpper] else (caseForm? upperSequences upperRuns c).getD [c]

/-- The lower case form of a character, its neighbours left aside. -/
def lowerForm (c : Char) : List Char :=
  if c.toNat < 128 then [c.toLower] else (caseForm? lowerSequences lowerRuns c).getD [c]

/-- The form of a character at the start of a word: the upper case form, digraphs excepted. -/
def titleForm (c : Char) : List Char :=
  if c.toNat < 128 then [c.toUpper] else (caseForm? titleSequences titleRuns c).getD (upperForm c)

/-- Whether a character has a case. -/
def isCased (c : Char) : Bool :=
  if c.toNat < 128 then c.isAlpha else inRuns casedBounds c.toNat

/-- Whether the search for a cased neighbour skips a character. -/
def isCaseIgnorable (c : Char) : Bool :=
  inRuns caseIgnorableBounds c.toNat

/-- Whether the first character that counts is a cased one. -/
def nextIsCased (cs : List Char) : Bool :=
  match cs.dropWhile isCaseIgnorable with
  | [] => false
  | c :: _ => isCased c

/-- The lower case form of `c` between the text before it, nearest character first, and the text
after it: a capital sigma ends a word when a cased character precedes it and none follows. -/
def lowerFormAt (before : List Char) (c : Char) (after : List Char) : List Char :=
  if c == 'Σ' then
    if nextIsCased before && !nextIsCased after then ['ς'] else ['σ']
  else lowerForm c

/-- Lower case of the rest of a text whose first part, nearest character first, is `before`. -/
def lowerFrom (before : List Char) : List Char → List Char
  | [] => []
  | c :: cs => lowerFormAt before c cs ++ lowerFrom (c :: before) cs

/-- Title case of the rest of a text: a letter after a cased one is small. -/
def titleFrom (before : List Char) : List Char → List Char
  | [] => []
  | c :: cs =>
    let form := if before.head?.any isCased then lowerFormAt before c cs else titleForm c
    form ++ titleFrom (c :: before) cs

/-- The text in upper case. -/
def upper (s : String) : String :=
  String.ofList (s.toList.flatMap upperForm)

/-- The text in lower case. -/
def lower (s : String) : String :=
  String.ofList (lowerFrom [] s.toList)

/-- The first letter of each word in title case and the others in lower case. -/
def title (s : String) : String :=
  String.ofList (titleFrom [] s.toList)

/-- The first character in title case and all others in lower case. -/
def capitalize (s : String) : String :=
  match s.toList with
  | [] => ""
  | c :: cs => String.ofList (titleForm c ++ lowerFrom [c] cs)

end TemplateEngine.Text
