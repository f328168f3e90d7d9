/-
The grammar of expressions. A derivation cuts tokens into phrases and gives the expression that they
spell. From the loosest to the tightest, the levels are

    pipeline     conditional ("|" name (":" conditional ("," conditional)*)?)*
    conditional  disjunction ("if" disjunction "else" conditional)?
    disjunction  conjunction (("or" | "||") conjunction)*
    conjunction  negation (("and" | "&&") negation)*
    negation     ("not" | "!") negation | comparison
    comparison   sum (("==" | "!=" | "<" | "<=" | ">" | ">=" | "in" | "not" "in") sum)*
    sum          product (("+" | "-" | "~") product)*
    product      signed (("*" | "/" | "//" | "%") signed)*
    signed       ("-" | "+") signed | postfixed
    postfixed    primary ("." name | "[" pipeline "]" | "(" elements? ")")*
    primary      number | string | "true" | "false" | "null" | "none" | name
               | "(" pipeline ")" | "[" elements? "]" | "{" entries? "}"
    elements     pipeline ("," pipeline)*
    entries      conditional ":" pipeline ("," conditional ":" pipeline)*

A repetition goes on with the expression to its left, which it takes in. A comma may separate arguments
of a filter, elements or entries, so that the grammar is a family: a dialect tells which commas it admits.
-/
import TemplateEngine.Expr.Parser

namespace TemplateEngine.ExprGrammar

/-! ## Levels and operators -/

/-- The levels of expressions below the pipeline. -/
inductive Level where
  | conditional | disjunction | conjunction | negation | comparison | sum | product | signed | postfixed | primary
  deriving DecidableEq, Repr

/-- The level of the operands of the levels that repeat an operator. -/
def Level.operand? : Level → Option Level
  | disjunction => some conjunction
  | conjunction => some negation
  | comparison => some sum
  | sum => some product
  | product => some signed
  | _ => none

/-- An operator of a level as it is written, and how it joins its operands. -/
inductive Operator : Level → List ExprTokenKind → (Expr → Expr → Expr) → Prop
  | or : Operator .disjunction [.keyword .or] (.logical .or)
  | bars : Operator .disjunction [.symbol .bars] (.logical .or)
  | and : Operator .conjunction [.keyword .and] (.logical .and)
  | ampersands : Operator .conjunction [.symbol .ampersands] (.logical .and)
  | eq : Operator .comparison [.symbol .eq] (.compare .eq)
  | ne : Operator .comparison [.symbol .ne] (.compare .ne)
  | lt : Operator .comparison [.symbol .lt] (.compare .lt)
  | le : Operator .comparison [.symbol .le] (.compare .le)
  | gt : Operator .comparison [.symbol .gt] (.compare .gt)
  | ge : Operator .comparison [.symbol .ge] (.compare .ge)
  | mem : Operator .comparison [.keyword .in] (.compare .mem)
  | notMem : Operator .comparison [.keyword .not, .keyword .in] (.compare .notMem)
  | add : Operator .sum [.symbol .plus] (.binary .add)
  | sub : Operator .sum [.symbol .minus] (.binary .sub)
  | concat : Operator .sum [.symbol .tilde] (.binary .concat)
  | mul : Operator .product [.symbol .times] (.binary .mul)
  | div : Operator .product [.symbol .div] (.binary .div)
  | floorDiv : Operator .product [.symbol .floorDiv] (.binary .floorDiv)
  | mod : Operator .product [.symbol .percent] (.binary .mod)

/-- An operator that stands in front of an expression of its own level, and the expression that they make. -/
inductive Front : Level → ExprTokenKind → Expr → Expr → Prop
  | not {e : Expr} : Front .negation (.keyword .not) e (.not e)
  | bang {e : Expr} : Front .negation (.symbol .bang) e (.not e)
  | minus {e : Expr} : Front .signed (.symbol .minus) e (.unary .neg e)
  | plus {e : Expr} : Front .signed (.symbol .plus) e (.unary .pos e)

/-- The keywords that are constants. -/
inductive Constant : Keyword → Literal → Prop
  | true : Constant .true (.bool true)
  | false : Constant .false (.bool false)
  | null : Constant .null .none
  | none : Constant .none .none

/-! ## Numbers -/

/-- A number with a point or an exponent. -/
def isFractional (text : String) : Bool :=
  text.toList.any fun c => c == '.' || c == 'e' || c == 'E'

/-- The constant that a number writes. -/
def numberValue (text : String) : Literal :=
  if isFractional text then .float ((Number.readFloat? text).getD 0.0) else .int (Text.digitsValue text.toList)

/-- An integer has no more digits than are read. -/
def Readable (text : String) : Prop :=
  isFractional text = true ∨ text.toList.length ≤ Number.digitLimit

/-! ## Dialects -/

/-- The commas that are admitted after an element or the value of an entry. It is told of each of them
whether it ends with the arguments of a filter, after which a comma goes on with the arguments as well. -/
structure Dialect where
  item : Bool → Prop
  entry : Bool → Prop
  trailing : Bool → Prop

namespace Dialect

/-- Commas stand between elements and between entries. -/
def plain : Dialect where
  item _ := True
  entry _ := True
  trailing _ := False

/-- A further comma may stand before the closing bracket. -/
def trailingComma : Dialect where
  item _ := True
  entry _ := True
  trailing _ := True

/-- An entry that another one follows does not end with the arguments of a filter. -/
def closedEntries : Dialect where
  item _ := True
  entry withArgs := withArgs = false
  trailing _ := False

/-- A comma after the arguments of a filter is followed by an argument. -/
def greedy : Dialect where
  item withArgs := withArgs = false
  entry withArgs := withArgs = false
  trailing withArgs := withArgs = false

end Dialect

/-! ## Derivations -/

mutual

/-- The tokens of an expression of a level. -/
inductive Derives (d : Dialect) : Level → List ExprToken → Expr → Prop
  | disjunction {ts : List ExprToken} {e : Expr} (h : Derives d .disjunction ts e) : Derives d .conditional ts e
  | conditional {ts us vs : List ExprToken} {t u : ExprToken} {body condition orElse : Expr}
      (hb : Derives d .disjunction ts body) (ht : t.kind = .keyword .if)
      (hc : Derives d .disjunction us condition) (hu : u.kind = .keyword .else)
      (ho : Derives d .conditional vs orElse) :
      Derives d .conditional (ts ++ t :: (us ++ u :: vs)) (.conditional body condition orElse)
  | chain {l m : Level} {ts us : List ExprToken} {first e : Expr} (hl : l.operand? = some m)
      (h : Derives d m ts first) (hr : Chain d l first us e) : Derives d l (ts ++ us) e
  | comparison {ts : List ExprToken} {e : Expr} (h : Derives d .comparison ts e) : Derives d .negation ts e
  | postfixed {ts : List ExprToken} {e : Expr} (h : Derives d .postfixed ts e) : Derives d .signed ts e
  | front {l : Level} {t : ExprToken} {ts : List ExprToken} {operand e : Expr} (ht : Front l t.kind operand e)
      (h : Derives d l ts operand) : Derives d l (t :: ts) e
  | suffixes {ts us : List ExprToken} {first e : Expr} (h : Derives d .primary ts first)
      (hs : Suffixes d first us e) : Derives d .postfixed (ts ++ us) e
  | number {t : ExprToken} {text : String} (ht : t.kind = .number text) (hr : Readable text) :
      Derives d .primary [t] (.literal (numberValue text))
  | str {t : ExprToken} {s : String} (ht : t.kind = .str s) : Derives d .primary [t] (.literal (.str s))
  | constant {t : ExprToken} {k : Keyword} {l : Literal} (ht : t.kind = .keyword k) (hk : Constant k l) :
      Derives d .primary [t] (.literal l)
  | name {t : ExprToken} {n : String} (ht : t.kind = .name n) : Derives d .primary [t] (.name n)
  | group {o c : ExprToken} {ts : List ExprToken} {withArgs : Bool} {e : Expr}
      (ho : o.kind = .symbol .parenOpen) (h : Pipeline d withArgs ts e) (hc : c.kind = .symbol .parenClose) :
      Derives d .primary (o :: (ts ++ [c])) e
  | list {o c : ExprToken} {ts : List ExprToken} {es : List Expr} (ho : o.kind = .symbol .bracketOpen)
      (h : Elements d ts es) (hc : c.kind = .symbol .bracketClose) : Derives d .primary (o :: (ts ++ [c])) (.list es)
  | dict {o c : ExprToken} {ts : List ExprToken} {es : List (Expr × Expr)} (ho : o.kind = .symbol .braceOpen)
      (h : Pairs d ts es) (hc : c.kind = .symbol .braceClose) : Derives d .primary (o :: (ts ++ [c])) (.dict es)

/-- Operators of a level, each with its right operand, after a left operand. -/
inductive Chain (d : Dialect) : Level → Expr → List ExprToken → Expr → Prop
  | nil {l : Level} {left : Expr} : Chain d l left [] left
  | cons {l m : Level} {ops ts us : List ExprToken} {join : Expr → Expr → Expr} {left right e : Expr}
      (hl : l.operand? = some m) (ho : Operator l (ops.map (·.kind)) join) (h : Derives d m ts right)
      (hr : Chain d l (join left right) us e) : Chain d l left (ops ++ (ts ++ us)) e

/-- Members, items and calls after a target. -/
inductive Suffixes (d : Dialect) : Expr → List ExprToken → Expr → Prop
  | nil {target : Expr} : Suffixes d target [] target
  | member {t u : ExprToken} {us : List ExprToken} {n : String} {target e : Expr} (ht : t.kind = .symbol .dot)
      (hu : u.kind = .name n) (hs : Suffixes d (.member target n) us e) : Suffixes d target (t :: u :: us) e
  | item {o c : ExprToken} {ts us : List ExprToken} {withArgs : Bool} {target key e : Expr}
      (ho : o.kind = .symbol .bracketOpen) (h : Pipeline d withArgs ts key) (hc : c.kind = .symbol .bracketClose)
      (hs : Suffixes d (.item target key) us e) : Suffixes d target (o :: (ts ++ c :: us)) e
  | call {o c : ExprToken} {ts us : List ExprToken} {target e : Expr} {args : List Expr}
      (ho : o.kind = .symbol .parenOpen) (h : Elements d ts args) (hc : c.kind = .symbol .parenClose)
      (hs : Suffixes d (.call target args) us e) : Suffixes d target (o :: (ts ++ c :: us)) e

/-- The tokens of a pipeline; it is told whether the last filter has arguments. -/
inductive Pipeline (d : Dialect) : Bool → List ExprToken → Expr → Prop
  | mk {ts us : List ExprToken} {withArgs : Bool} {value e : Expr} (h : Derives d .conditional ts value)
      (hs : Stages d false value us withArgs e) : Pipeline d withArgs (ts ++ us) e

/-- Filters after a value. -/
inductive Stages (d : Dialect) : Bool → Expr → List ExprToken → Bool → Expr → Prop
  | nil {withArgs : Bool} {value : Expr} : Stages d withArgs value [] withArgs value
  | plain {t u : ExprToken} {us : List ExprToken} {n : String} {before after : Bool} {value e : Expr}
      (ht : t.kind = .symbol .bar) (hu : u.kind = .name n)
      (hs : Stages d false (.filter value n []) us after e) : Stages d before value (t :: u :: us) after e
  | withArgs {t u c : ExprToken} {ts us : List ExprToken} {n : String} {before after : Bool} {value e : Expr}
      {args : List Expr} (ht : t.kind = .symbol .bar) (hu : u.kind = .name n) (hc : c.kind = .symbol .colon)
      (h : Arguments d ts args) (hs : Stages d true (.filter value n args) us after e) :
      Stages d before value (t :: u :: c :: (ts ++ us)) after e

/-- The arguments of a filter. -/
inductive Arguments (d : Dialect) : List ExprToken → List Expr → Prop
  | one {ts : List ExprToken} {e : Expr} (h : Derives d .conditional ts e) : Arguments d ts [e]
  | cons {ts us : List ExprToken} {t : ExprToken} {e : Expr} {es : List Expr} (h : Derives d .conditional ts e)
      (ht : t.kind = .symbol .comma) (hr : Arguments d us es) : Arguments d (ts ++ t :: us) (e :: es)

/-- One or more elements; it is told how the last one ends. -/
inductive Items (d : Dialect) : Bool → List ExprToken → List Expr → Prop
  | one {ts : List ExprToken} {withArgs : Bool} {e : Expr} (h : Pipeline d withArgs ts e) : Items d withArgs ts [e]
  | cons {ts us : List ExprToken} {t : ExprToken} {withArgs last : Bool} {e : Expr} {es : List Expr}
      (h : Pipeline d withArgs ts e) (hd : d.item withArgs) (ht : t.kind = .symbol .comma)
      (hr : Items d last us es) : Items d last (ts ++ t :: us) (e :: es)

/-- What stands between the brackets of a list or call. -/
inductive Elements (d : Dialect) : List ExprToken → List Expr → Prop
  | nil : Elements d [] []
  | items {ts : List ExprToken} {last : Bool} {es : List Expr} (h : Items d last ts es) : Elements d ts es
  | trailing {ts : List ExprToken} {t : ExprToken} {last : Bool} {es : List Expr} (h : Items d last ts es)
      (hd : d.trailing last) (ht : t.kind = .symbol .comma) : Elements d (ts ++ [t]) es

/-- One or more entries; it is told how the last one ends. -/
inductive Entries (d : Dialect) : Bool → List ExprToken → List (Expr × Expr) → Prop
  | one {ts us : List ExprToken} {t : ExprToken} {withArgs : Bool} {key value : Expr}
      (hk : Derives d .conditional ts key) (ht : t.kind = .symbol .colon) (hv : Pipeline d withArgs us value) :
      Entries d withArgs (ts ++ t :: us) [(key, value)]
  | cons {ts us vs : List ExprToken} {t u : ExprToken} {withArgs last : Bool} {key value : Expr}
      {es : List (Expr × Expr)} (hk : Derives d .conditional ts key) (ht : t.kind = .symbol .colon)
      (hv : Pipeline d withArgs us value) (hd : d.entry withArgs) (hu : u.kind = .symbol .comma)
      (hr : Entries d last vs es) : Entries d last (ts ++ t :: (us ++ u :: vs)) ((key, value) :: es)

/-- What stands between braces. -/
inductive Pairs (d : Dialect) : List ExprToken → List (Expr × Expr) → Prop
  | nil : Pairs d [] []
  | entries {ts : List ExprToken} {last : Bool} {es : List (Expr × Expr)} (h : Entries d last ts es) : Pairs d ts es
  | trailing {ts : List ExprToken} {t : ExprToken} {last : Bool} {es : List (Expr × Expr)}
      (h : Entries d last ts es) (hd : d.trailing last) (ht : t.kind = .symbol .comma) : Pairs d (ts ++ [t]) es

end

/-- The tokens of a whole expression. -/
def Spells (d : Dialect) (ts : List ExprToken) (e : Expr) : Prop :=
  ∃ withArgs, Pipeline d withArgs ts e

end TemplateEngine.ExprGrammar
