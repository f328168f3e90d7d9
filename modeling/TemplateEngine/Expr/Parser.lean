/-
Reading expressions. From the loosest to the tightest, the levels are

    pipeline     conditional ("|" name (":" conditional ("," conditional)*)?)*
    conditional  or ("if" or "else" conditional)?
    or           and (("or" | "||") and)*
    and          not (("and" | "&&") not)*
    not          ("not" | "!") not | comparison
    comparison   additive (("==" | "!=" | "<" | "<=" | ">" | ">=" | "in" | "not" "in") additive)*
    additive     term (("+" | "-" | "~") term)*
    term         unary (("*" | "/" | "//" | "%") unary)*
    unary        ("-" | "+") unary | postfix
    postfix      primary ("." name | "[" pipeline "]" | "(" items ")")*
    primary      constant | name | "(" pipeline ")" | "[" items "]" | "{" entries "}"

A level is a function of the parser of the level below it, and what stands in brackets is read by
parsers of one nesting level less. All loops take as many steps as they may; the number of tokens
bounds both, so neither bound is ever met.
-/
import TemplateEngine.Expr.Basic
import TemplateEngine.Expr.Error
import TemplateEngine.Number.Reading

namespace TemplateEngine

/-- A parser takes an expression from the head of a row of tokens and gives the others back. -/
abbrev ExprParser := List ExprToken → Except ReadFailure (Expr × List ExprToken)

namespace ExprParser

/-- The position of the first token. -/
def positionOf (ts : List ExprToken) : Nat :=
  (ts.head?.map (·.position)).getD 0

/-- Fails at the first token. -/
def failAt (ts : List ExprToken) (problem : ExprProblem) : Except ReadFailure α :=
  .error (.malformed ⟨problem, positionOf ts⟩)

/-- Takes one symbol off, or fails. -/
def expect (s : Symbol) (problem : ExprProblem) (ts : List ExprToken) :
    Except ReadFailure (List ExprToken) :=
  match ts with
  | ⟨.symbol s', _⟩ :: rest => if s' = s then .ok rest else failAt ts problem
  | _ => failAt ts problem

/-- Takes one name off, or fails. -/
def expectName (problem : ExprProblem) (ts : List ExprToken) :
    Except ReadFailure (String × List ExprToken) :=
  match ts with
  | ⟨.name n, _⟩ :: rest => .ok (n, rest)
  | _ => failAt ts problem

/-! ## Operators -/

/-- What follows an operator at the head of a row of tokens, and how it joins its operands. -/
abbrev OperatorTable := List ExprToken → Option ((Expr → Expr → Expr) × List ExprToken)

/-- `or` and `||`. -/
def orTable : OperatorTable
  | ⟨.keyword .or, _⟩ :: ts => some (.logical .or, ts)
  | ⟨.symbol .bars, _⟩ :: ts => some (.logical .or, ts)
  | _ => none

/-- `and` and `&&`. -/
def andTable : OperatorTable
  | ⟨.keyword .and, _⟩ :: ts => some (.logical .and, ts)
  | ⟨.symbol .ampersands, _⟩ :: ts => some (.logical .and, ts)
  | _ => none

/-- The comparisons. -/
def comparisonTable : OperatorTable
  | ⟨.symbol .eq, _⟩ :: ts => some (.compare .eq, ts)
  | ⟨.symbol .ne, _⟩ :: ts => some (.compare .ne, ts)
  | ⟨.symbol .lt, _⟩ :: ts => some (.compare .lt, ts)
  | ⟨.symbol .le, _⟩ :: ts => some (.compare .le, ts)
  | ⟨.symbol .gt, _⟩ :: ts => some (.compare .gt, ts)
  | ⟨.symbol .ge, _⟩ :: ts => some (.compare .ge, ts)
  | ⟨.keyword .in, _⟩ :: ts => some (.compare .mem, ts)
  | ⟨.keyword .not, _⟩ :: ⟨.keyword .in, _⟩ :: ts => some (.compare .notMem, ts)
  | _ => none

/-- `+`, `-` and `~`. -/
def additiveTable : OperatorTable
  | ⟨.symbol .plus, _⟩ :: ts => some (.binary .add, ts)
  | ⟨.symbol .minus, _⟩ :: ts => some (.binary .sub, ts)
  | ⟨.symbol .tilde, _⟩ :: ts => some (.binary .concat, ts)
  | _ => none

/-- `*`, `/`, `//` and `%`. -/
def termTable : OperatorTable
  | ⟨.symbol .times, _⟩ :: ts => some (.binary .mul, ts)
  | ⟨.symbol .div, _⟩ :: ts => some (.binary .div, ts)
  | ⟨.symbol .floorDiv, _⟩ :: ts => some (.binary .floorDiv, ts)
  | ⟨.symbol .percent, _⟩ :: ts => some (.binary .mod, ts)
  | _ => none

/-- What follows a negation. -/
def negation? : List ExprToken → Option ((Expr → Expr) × List ExprToken)
  | ⟨.keyword .not, _⟩ :: ts => some (.not, ts)
  | ⟨.symbol .bang, _⟩ :: ts => some (.not, ts)
  | _ => none

/-- What follows a sign. -/
def sign? : List ExprToken → Option ((Expr → Expr) × List ExprToken)
  | ⟨.symbol .minus, _⟩ :: ts => some (.unary .neg, ts)
  | ⟨.symbol .plus, _⟩ :: ts => some (.unary .pos, ts)
  | _ => none

/-! ## Levels -/

/-- Goes on with further operators and operands, joined to the left. -/
def chainRest (table : OperatorTable) (operand : ExprParser) : Nat → Expr → ExprParser
  | 0, left, ts => .ok (left, ts)
  | steps + 1, left, ts =>
    match table ts with
    | none => .ok (left, ts)
    | some (join, rest) => do
      let (right, rest) ← operand rest
      chainRest table operand steps (join left right) rest

/-- Operands with operators between them, joined to the left. -/
def chain (table : OperatorTable) (operand : ExprParser) (steps : Nat) : ExprParser := fun ts => do
  let (left, rest) ← operand ts
  chainRest table operand steps left rest

/-- An operand with any number of operators in front. -/
def fronted (front? : List ExprToken → Option ((Expr → Expr) × List ExprToken)) (operand : ExprParser) :
    Nat → ExprParser
  | 0, ts => operand ts
  | steps + 1, ts =>
    match front? ts with
    | none => operand ts
    | some (wrap, rest) => do
      let (e, rest) ← fronted front? operand steps rest
      return (wrap e, rest)

/-- A choice between two branches by a condition; the second branch may be a choice again. -/
def conditional (operand : ExprParser) : Nat → ExprParser
  | 0, ts => operand ts
  | steps + 1, ts => do
    let (body, rest) ← operand ts
    match rest with
    | ⟨.keyword .if, _⟩ :: rest => do
      let (condition, rest) ← operand rest
      match rest with
      | ⟨.keyword .else, _⟩ :: rest => do
        let (orElse, rest) ← conditional operand steps rest
        return (.conditional body condition orElse, rest)
      | rest => failAt rest .elseBranch
    | rest => return (body, rest)

/-- Goes on with further expressions after commas. -/
def commaRest (element : ExprParser) : Nat → List ExprToken → Except ReadFailure (List Expr × List ExprToken)
  | steps + 1, ⟨.symbol .comma, _⟩ :: rest => do
    let (e, rest) ← element rest
    let (es, rest) ← commaRest element steps rest
    return (e :: es, rest)
  | _, ts => .ok ([], ts)

/-- The arguments of a filter: none, or after a colon one or more with commas between them. -/
def filterArguments (argument : ExprParser) (steps : Nat) (ts : List ExprToken) :
    Except ReadFailure (List Expr × List ExprToken) :=
  match ts with
  | ⟨.symbol .colon, _⟩ :: rest => do
    let (e, rest) ← argument rest
    let (es, rest) ← commaRest argument steps rest
    return (e :: es, rest)
  | ts => .ok ([], ts)

/-- Goes on with further filters. -/
def pipelineRest (argument : ExprParser) : Nat → Expr → ExprParser
  | steps + 1, value, ⟨.symbol .bar, _⟩ :: rest => do
    let (name, rest) ← expectName .filterName rest
    let (args, rest) ← filterArguments argument steps rest
    pipelineRest argument steps (.filter value name args) rest
  | _, value, ts => .ok (value, ts)

/-- A value and the filters that it passes through. -/
def pipeline (argument : ExprParser) (steps : Nat) : ExprParser := fun ts => do
  let (value, rest) ← argument ts
  pipelineRest argument steps value rest

/-! ## Brackets -/

/-- The parsers of what stands in brackets: keys of entries, and everything else. -/
structure Nested where
  key : ExprParser
  element : ExprParser

/-- Goes on with further elements; a comma may stand before the closing symbol. -/
def elementsRest (element : ExprParser) (close : Symbol) :
    Nat → List ExprToken → Except ReadFailure (List Expr × List ExprToken)
  | steps + 1, ⟨.symbol .comma, _⟩ :: rest =>
    if rest.head?.map (·.kind) = some (.symbol close) then .ok ([], rest)
    else do
      let (e, rest) ← element rest
      let (es, rest) ← elementsRest element close steps rest
      return (e :: es, rest)
  | _, ts => .ok ([], ts)

/-- Elements with commas between them, up to and including the closing symbol. -/
def elements (element : ExprParser) (close : Symbol) (steps : Nat) (ts : List ExprToken) :
    Except ReadFailure (List Expr × List ExprToken) :=
  if ts.head?.map (·.kind) = some (.symbol close) then .ok ([], ts.tail)
  else do
    let (e, rest) ← element ts
    let (es, rest) ← elementsRest element close steps rest
    let rest ← expect close (.closing close) rest
    return (e :: es, rest)

/-- One entry of a mapping. -/
def entry (nested : Nested) (ts : List ExprToken) :
    Except ReadFailure ((Expr × Expr) × List ExprToken) := do
  let (key, rest) ← nested.key ts
  let rest ← expect .colon .entryColon rest
  let (value, rest) ← nested.element rest
  return ((key, value), rest)

/-- Goes on with further entries; a comma may stand before the closing brace. -/
def entriesRest (nested : Nested) :
    Nat → List ExprToken → Except ReadFailure (List (Expr × Expr) × List ExprToken)
  | steps + 1, ⟨.symbol .comma, _⟩ :: rest =>
    if rest.head?.map (·.kind) = some (.symbol .braceClose) then .ok ([], rest)
    else do
      let (e, rest) ← entry nested rest
      let (es, rest) ← entriesRest nested steps rest
      return (e :: es, rest)
  | _, ts => .ok ([], ts)

/-- Entries with commas between them, up to and including the closing brace. -/
def entries (nested : Nested) (steps : Nat) (ts : List ExprToken) :
    Except ReadFailure (List (Expr × Expr) × List ExprToken) :=
  if ts.head?.map (·.kind) = some (.symbol .braceClose) then .ok ([], ts.tail)
  else do
    let (e, rest) ← entry nested ts
    let (es, rest) ← entriesRest nested steps rest
    let rest ← expect .braceClose (.closing .braceClose) rest
    return (e :: es, rest)

/-- The constant that a number writes: without point and exponent it is an integer. -/
def numberLiteral (text : String) : Except ReadFailure Literal :=
  let cs := text.toList
  if cs.any fun c => c == '.' || c == 'e' || c == 'E' then
    .ok (.float ((Number.readFloat? text).getD 0.0))
  else if Number.digitLimit < cs.length then .error (.tooManyDigits cs.length)
  else .ok (.int (Text.digitsValue cs))

/-- The constant that a keyword names. -/
def constant? : Keyword → Option Literal
  | .true => some (.bool true)
  | .false => some (.bool false)
  | .null => some .none
  | .none => some .none
  | _ => none

/-- A constant, a name, or brackets. -/
def primary (nested : Nested) (steps : Nat) (ts : List ExprToken) :
    Except ReadFailure (Expr × List ExprToken) :=
  match ts with
  | ⟨.number text, _⟩ :: rest => do return (.literal (← numberLiteral text), rest)
  | ⟨.str value, _⟩ :: rest => .ok (.literal (.str value), rest)
  | ⟨.name n, _⟩ :: rest => .ok (.name n, rest)
  | ⟨.keyword k, _⟩ :: rest =>
    match constant? k with
    | some l => .ok (.literal l, rest)
    | none => failAt ts (.unexpectedToken k.word)
  | ⟨.symbol .parenOpen, _⟩ :: rest => do
    let (e, rest) ← nested.element rest
    let rest ← expect .parenClose .groupClose rest
    return (e, rest)
  | ⟨.symbol .bracketOpen, _⟩ :: rest => do
    let (es, rest) ← elements nested.element .bracketClose steps rest
    return (.list es, rest)
  | ⟨.symbol .braceOpen, _⟩ :: rest => do
    let (es, rest) ← entries nested steps rest
    return (.dict es, rest)
  | ⟨.symbol s, _⟩ :: _ => failAt ts (.unexpectedToken s.text)
  | ⟨.done, _⟩ :: _ => failAt ts .unexpectedEnd
  | [] => failAt ts .unexpectedEnd

/-- Goes on with members, items and calls. -/
def postfixRest (nested : Nested) : Nat → Expr → ExprParser
  | steps + 1, target, ⟨.symbol .dot, _⟩ :: rest => do
    let (name, rest) ← expectName .memberName rest
    postfixRest nested steps (.member target name) rest
  | steps + 1, target, ⟨.symbol .bracketOpen, _⟩ :: rest => do
    let (key, rest) ← nested.element rest
    let rest ← expect .bracketClose .indexClose rest
    postfixRest nested steps (.item target key) rest
  | steps + 1, target, ⟨.symbol .parenOpen, _⟩ :: rest => do
    let (args, rest) ← elements nested.element .parenClose steps rest
    postfixRest nested steps (.call target args) rest
  | _, target, ts => .ok (target, ts)

/-- A primary expression with its members, items and calls. -/
def postfixed (nested : Nested) (steps : Nat) : ExprParser := fun ts => do
  let (target, rest) ← primary nested steps ts
  postfixRest nested steps target rest

/-- The levels from `or` to `primary`. -/
def disjunction (nested : Nested) (steps : Nat) : ExprParser :=
  let unary := fronted sign? (postfixed nested steps) steps
  let comparison := chain comparisonTable (chain additiveTable (chain termTable unary steps) steps) steps
  chain orTable (chain andTable (fronted negation? comparison steps) steps) steps

/-- The parsers for a number of nesting levels, each of which takes a token at least. -/
def nesting : Nat → Nested
  | 0 => ⟨fun ts => failAt ts .unexpectedEnd, fun ts => failAt ts .unexpectedEnd⟩
  | depth + 1 =>
    let steps := depth + 1
    let key := conditional (disjunction (nesting depth) steps) steps
    ⟨key, pipeline key steps⟩

end ExprParser

/-- Reads an expression from tokens that end with `done`. -/
def Expr.ofTokens? (ts : List ExprToken) : Except ReadFailure Expr := do
  match ts with
  | ⟨.done, _⟩ :: _ => .error (.malformed ⟨.empty, 0⟩)
  | ts =>
    let (e, rest) ← (ExprParser.nesting ts.length).element ts
    match rest with
    | ⟨.done, _⟩ :: _ => return e
    | t :: _ => ExprParser.failAt rest (.unexpectedToken t.kind.text)
    | [] => return e

/-- Reads an expression. -/
def Expr.read (source : String) : Except ReadFailure Expr :=
  match tokenize source with
  | .ok ts => Expr.ofTokens? ts
  | .error e => .error (.malformed ⟨.unexpectedChar e.char, e.position⟩)

end TemplateEngine
