/-
The shapes of signatures that bind names: a name at the head, white space, and a source at the end.
-/
import TemplateEngine.Text.CharClass
import TemplateEngine.Text.Identifier

namespace TemplateEngine

open TemplateEngine.Text

/-- Drops the white space at the head. -/
def skipBlanks (cs : List Char) : List Char :=
  cs.dropWhile isBlank

/-- Takes a name off the head of a text. -/
def takeName? : List Char → Option (String × List Char)
  | [] => none
  | c :: cs =>
    if isNameStart c then
      some (String.ofList (c :: cs.takeWhile isNameChar), cs.dropWhile isNameChar)
    else none

/-- The source at the end of a signature, without the white space around it; at least `least` blanks
stand in front of it. Where there are only blanks, the last of them is the source. -/
def finalSource? (least : Nat) (cs : List Char) : Option String :=
  let blanks := cs.takeWhile isBlank
  let source := trimBy isBlank cs
  if source.isEmpty then
    if least < blanks.length then blanks.getLast?.map String.singleton else none
  else if blanks.length < least then none
  else some (String.ofList source)

/-- The parts of a loop signature: `name in source` or `name, name in source`. -/
def loopShape? (signature : String) : Option (String × Option String × String) := do
  let (first, rest) ← takeName? (skipBlanks signature.toList)
  let (second, rest) ← match skipBlanks rest with
    | ',' :: more => do
      let (name, rest) ← takeName? (skipBlanks more)
      pure (some name, rest)
    | _ => pure (none, rest)
  if !rest.head?.any isBlank then none
  match skipBlanks rest with
  | 'i' :: 'n' :: rest => do
    let source ← finalSource? 1 rest
    return (first, second, source)
  | _ => none

/-- The parts of a binding signature: `name = source`. -/
def bindingShape? (signature : String) : Option (String × String) := do
  let (name, rest) ← takeName? (skipBlanks signature.toList)
  match skipBlanks rest with
  | '=' :: rest =>
    if rest.head? == some '=' then none
    else do return (name, ← finalSource? 0 rest)
  | _ => none

end TemplateEngine
