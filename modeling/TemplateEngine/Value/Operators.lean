/-
The operators of the expression language on values: arithmetic, joining and repeating sequences,
comparisons and membership.
-/
import TemplateEngine.Format.Fill
import TemplateEngine.Text.Search
import TemplateEngine.Value.Order

namespace TemplateEngine

open TemplateEngine.Text

namespace Value

/-- Arithmetic on two numbers; other operands fail with the symbol of the operator. -/
def arithmetic (symbol : String) (f : Numeric → Numeric → Except Fault Numeric) (a b : Value) :
    Except Fault Value :=
  match a.numeric?, b.numeric? with
  | some m, some n => Numeric.toValue <$> f m n
  | _, _ => .error (.type (.operands symbol a.qualifiedTypeName b.qualifiedTypeName))

/-- Whether a value is a sequence that can be joined and repeated. -/
def isSequence : Value → Bool
  | str _ => true
  | bytes _ => true
  | list _ => true
  | tuple _ => true
  | _ => false

/-- The sum of numbers, or two sequences of one type joined. -/
def add : Value → Value → Except Fault Value
  | str s, str t => .ok (str (s ++ t))
  | bytes s, bytes t => .ok (bytes (s ++ t))
  | list s, list t => .ok (list (s ++ t))
  | tuple s, tuple t => .ok (tuple (s ++ t))
  | a, b =>
    if a.isSequence then .error (.type (.concatenation a.typeName b.qualifiedTypeName))
    else arithmetic "+" Numeric.add a b

/-- The difference of numbers. -/
def sub : Value → Value → Except Fault Value :=
  arithmetic "-" Numeric.sub

/-- A sequence repeated. -/
def repeated (count : Nat) : Value → Value
  | str s => str (String.ofList (List.replicate count s.toList).flatten)
  | bytes s => bytes (List.replicate count s).flatten
  | list s => list (List.replicate count s).flatten
  | tuple s => tuple (List.replicate count s).flatten
  | v => v

/-- The fault of a sequence that would get more items than any may have. -/
def tooLong : Value → Fault
  | str _ => .overflow .repeatedText
  | bytes _ => .overflow .repeatedBytes
  | _ => .foreign .memory ""

/-- Repeats a sequence as often as the other operand says; a negative count counts as zero. The items
have to fit into the memory. -/
def repeatBy (memory : Nat) (sequence other : Value) : Except Fault Value :=
  match other.whole? with
  | Option.none => .error (.type (.repetition other.qualifiedTypeName))
  | some count =>
    let length := sequence.length?.getD 0
    if !isIndex count then .error (.overflow .index)
    else if length = 0 || count ≤ 0 then .ok (repeated 0 sequence)
    else if !isIndex (length * count) then .error (tooLong sequence)
    else if memory < sequence.itemSize * (length * count) then .error (.foreign .memory "")
    else .ok (repeated count.toNat sequence)

/-- The product of numbers, or a sequence repeated. -/
def mul (memory : Nat) (a b : Value) : Except Fault Value :=
  if a.isSequence then repeatBy memory a b
  else if b.isSequence then repeatBy memory b a
  else arithmetic "*" Numeric.mul a b

/-- The quotient of numbers. -/
def div : Value → Value → Except Fault Value :=
  arithmetic "/" Numeric.div

/-- The quotient of numbers rounded down. -/
def floorDiv : Value → Value → Except Fault Value :=
  arithmetic "//" Numeric.floorDiv

/-- The remainder of numbers, or a format filled. -/
def mod (memory : Nat) : Value → Value → Except Fault Value
  | str format, v => Format.fillText memory format v
  | bytes format, v => Format.fillBytes memory format v
  | a, b => arithmetic "%" Numeric.mod a b

/-- The number with the opposite sign. -/
def neg? (v : Value) : Option Value :=
  v.numeric?.map fun n => n.neg.toValue

/-- The number itself, a truth value as an integer. -/
def pos? : Value → Option Value
  | nan m => some (nan m)
  | v => v.numeric?.map Numeric.toValue

/-- Whether the value is in a container: a part of a text or byte string, an item, or a key. -/
def contains (container v : Value) : Except Fault Bool :=
  match container with
  | str s => match v with
    | str part => .ok (occursIn part.toList s.toList)
    | v => .error (.type (.substring v.qualifiedTypeName))
  | bytes s => match v with
    | bytes part => .ok (occursIn part s)
    | v => match v.whole? with
      | some n =>
        if 0 ≤ n && n < 256 then .ok (s.any fun b => b.toNat == n.toNat)
        else .error (.value .byteRange)
      | Option.none => .error (.type (.bytesMembership v.qualifiedTypeName))
  | list items => .ok (items.any (v.same ·))
  | tuple items => .ok (items.any (v.same ·))
  | dict entries => do
    v.checkKey
    return (valueOfKey? entries v).isSome
  | faulty _ _ text => .error (.foreign .runtime text)
  | c => .error (.type (.membership c.qualifiedTypeName))

end Value

end TemplateEngine
