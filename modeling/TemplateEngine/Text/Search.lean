/-
Searching a text for another one, and replacing what is found. Occurrences are taken from the left
and do not overlap; the empty text occurs before every character and at the end. A text that is put
into markup has the five characters with a meaning of their own replaced by entities.
-/
namespace TemplateEngine.Text

/-- Whether `part` occurs in a list. -/
def occursIn [BEq α] (part : List α) : List α → Bool
  | [] => part.isEmpty
  | c :: cs => part.isPrefixOf (c :: cs) || occursIn part cs

/-- Puts `new` before each character and at the end, at most `limit` times. -/
def interleave (new : List Char) : Option Nat → List Char → List Char
  | some 0, cs => cs
  | _, [] => new
  | limit, c :: cs => new ++ c :: interleave new (limit.map (· - 1)) cs

/-- Replaces the occurrences of the text of length `skip + 1` that starts with `first` and goes on
with `others`, at most `limit` of them; `wait` characters still belong to the occurrence before. -/
def replaceFrom (first : Char) (others new : List Char) : Option Nat → Nat → List Char → List Char
  | _, _, [] => []
  | limit, wait + 1, _ :: cs => replaceFrom first others new limit wait cs
  | limit, 0, c :: cs =>
    if limit != some 0 && c == first && others.isPrefixOf cs then
      new ++ replaceFrom first others new (limit.map (· - 1)) others.length cs
    else c :: replaceFrom first others new limit 0 cs

/-- Replaces the occurrences of `old`, all of them or the first `limit` ones. -/
def replace (s old new : String) (limit : Option Nat) : String :=
  match old.toList with
  | [] => String.ofList (interleave new.toList limit s.toList)
  | first :: others => String.ofList (replaceFrom first others new.toList limit 0 s.toList)

/-- The pieces between the occurrences of a character, in order. -/
def splitAt (mark : Char) : List Char → List (List Char)
  | [] => [[]]
  | c :: cs =>
    if c == mark then [] :: splitAt mark cs
    else match splitAt mark cs with
      | [] => [[c]]
      | piece :: pieces => (c :: piece) :: pieces

/-! ## Markup -/

/-- The characters of markup with the entities that stand for them, in the order in which they are
replaced. Every entity starts with an ampersand, which therefore comes first. -/
def entities : List (Char × String) :=
  [('&', "&amp;"), ('<', "&lt;"), ('>', "&gt;"), ('"', "&quot;"), ('\'', "&#x27;")]

/-- The text with its markup characters written as entities, one kind after the other. -/
def escapeMarkup (s : String) : String :=
  entities.foldl (fun s e => replace s (String.singleton e.1) e.2 none) s

end TemplateEngine.Text
