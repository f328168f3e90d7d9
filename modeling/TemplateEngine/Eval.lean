/-
Evaluation. The value of an expression in a scope, by recursion on the expression. Operands are
evaluated from left to right, except that a filter is looked up before its value is evaluated and a
condition before its branches; the first failure is the result. What is not there is an error under
the strict policy and `none` under the lenient one. An operand that is still to be used is held while
the ones after it are evaluated.
-/
import TemplateEngine.Callable.Host
import TemplateEngine.Expr.Printer
import TemplateEngine.Scope
import TemplateEngine.Value.Operators

namespace TemplateEngine

/-- What happens where a name, an attribute or an item is not there. -/
inductive UndefinedPolicy where
  | strict | lenient
  deriving DecidableEq, Repr

/-- What evaluation depends on besides the scope. -/
structure Evaluator where
  host : Host
  undefined : UndefinedPolicy

/-- The value of a constant. -/
def Literal.toValue : Literal → Value
  | none => .none
  | bool b => .bool b
  | int n => .int n
  | float x => .float x
  | str s => .str s

namespace Evaluator

/-- The value of what is not there. -/
def missing (ev : Evaluator) (e : EvalError) : Except Failure Value :=
  match ev.undefined with
  | .strict => .error (.evaluation e)
  | .lenient => .ok .none

/-- Whether the lenient policy reads anything of `none` as `none`. -/
def passesNone (ev : Evaluator) (target : Value) : Bool :=
  match ev.undefined, target with
  | .lenient, .none => true
  | _, _ => false

/-- The value of a name. -/
def nameValue (ev : Evaluator) (s : Scope) (n : String) : Except Failure Value :=
  match s.resolve n with
  | some v => .ok v
  | none => ev.missing (.undefinedName n)

/-- The attribute of a value. -/
def memberOf (ev : Evaluator) (target : Value) (name : String) : Except Failure Value :=
  if ev.passesNone target then .ok .none
  else match target.member ev.host.attributes name with
    | .found v => .ok v
    | .missing => ev.missing (.undefinedMember name target.typeName)
    | .failed f => .error (.evaluation (.memberRead name target.typeName f))

/-- The item of a value. -/
def itemOf (ev : Evaluator) (target key : Value) : Except Failure Value :=
  if ev.passesNone target then .ok .none
  else match target.readItem key with
    | .found v => .ok v
    | .missing => match ev.undefined with
      | .strict => do
        let shown ← liftFault key.quotedForm
        .error (.evaluation (.undefinedItem shown target.typeName))
      | .lenient => do
        let _ ← liftFault key.quotedForm
        .ok .none
    | .failed f => do
      let shown ← liftFault key.quotedForm
      match f with
      | .type _ => .error (.evaluation (.itemKind target.typeName shown f))
      | f => .error (.evaluation (.itemRead shown target.typeName f))

/-- A failure of a called filter or function: errors for a reader pass, faults are described. -/
def describe (error : Fault → EvalError) : Except Failure Value → Except Failure Value
  | .error (.fault f) => .error (.evaluation (error f))
  | r => r

/-- The value of a sign and its operand. -/
def applyUnary (op : UnaryOp) (v : Value) : Except Failure Value :=
  match (match op with | .neg => v.neg? | .pos => v.pos?) with
  | some r => .ok r
  | none => .error (.evaluation (.unaryOperand op.symbol v.typeName))

/-- The value of an arithmetic operator and its operands. Overflows are left as they are. -/
def applyBinary (memory : Nat) (e : Expr) (op : BinaryOp) (l r : Value) : Except Failure Value :=
  let checked (result : Except Fault Value) : Except Failure Value :=
    match result with
    | .ok v => .ok v
    | .error (.overflow p) => .error (.fault (.overflow p))
    | .error (.foreign kind text) => .error (.fault (.foreign kind text))
    | .error f => do
      let shown ← liftFault e.shown
      .error (.evaluation (.operation shown f))
  match op with
  | .add => checked (l.add r)
  | .sub => checked (l.sub r)
  | .mul => checked (l.mul memory r)
  | .div => checked (l.div r)
  | .floorDiv => checked (l.floorDiv r)
  | .mod => checked (l.mod memory r)
  | .concat => liftFault do return .str ((← l.outputText) ++ (← r.outputText))

/-- Whether a comparison of two values holds. -/
def compareValues (op : CompareOp) (l r : Value) : Except Fault Bool :=
  match op with
  | .eq => .ok (l.equal r)
  | .ne => .ok (!l.equal r)
  | .lt => l.ordered .lt r
  | .le => l.ordered .le r
  | .gt => l.ordered .gt r
  | .ge => l.ordered .ge r
  | .mem => r.contains l
  | .notMem => not <$> r.contains l

/-- The value of a comparison. Only operands of the wrong type are described. -/
def applyCompare (e : Expr) (op : CompareOp) (l r : Value) : Except Failure Value :=
  match compareValues op l r with
  | .ok b => .ok (.bool b)
  | .error (.type p) => do
    let shown ← liftFault e.shown
    .error (.evaluation (.operation shown (.type p)))
  | .error f => .error (.fault f)

mutual

/-- The value of an expression. -/
def eval (ev : Evaluator) (s : Scope) : Expr → Except Failure Value
  | .literal l => .ok l.toValue
  | .name n => ev.nameValue s n
  | .member target name => do ev.memberOf (← eval ev s target) name
  | .item target key => do
    let t ← eval ev s target
    let k ← eval ev (s.holding t) key
    ev.itemOf t k
  | .call function args => do
    match ← eval ev s function with
    | .callable c =>
      let vs ← evalAll ev s args
      let shown ← liftFault function.shown
      s.settle <$> describe (.functionCall shown) (c.apply ev.host vs)
    | _ => do
      let shown ← liftFault function.shown
      .error (.evaluation (.notCallable shown))
  | .unary op operand => do s.settle <$> applyUnary op (← eval ev s operand)
  | .binary op left right => do
    let l ← eval ev s left
    let r ← eval ev (s.holding l) right
    s.settle <$> applyBinary ev.host.memory (.binary op left right) op l r
  | .logical op left right => do
    let l ← eval ev s left
    match op with
    | .and => if l.truthy then eval ev s right else return l
    | .or => if l.truthy then return l else eval ev s right
  | .not operand => do return .bool !(← eval ev s operand).truthy
  | .compare op left right => do
    let l ← eval ev s left
    let r ← eval ev (s.holding l) right
    applyCompare (.compare op left right) op l r
  | .conditional body condition orElse => do
    if (← eval ev s condition).truthy then eval ev s body else eval ev s orElse
  | .list items => do return .list (← evalAll ev s items)
  | .dict entries => do return .dict (← evalEntries ev s [] entries)
  | .filter value name args =>
    match s.filter? name with
    | none => .error (.evaluation (.unknownFilter name))
    | some f => do
      let v ← eval ev s value
      let vs ← evalAll ev (s.holding v) args
      s.settle <$> describe (.filterCall name) (f.apply ev.host (v :: vs))

/-- The values of some expressions, from left to right. -/
def evalAll (ev : Evaluator) (s : Scope) : List Expr → Except Failure (List Value)
  | [] => .ok []
  | e :: es => do
    let v ← eval ev s e
    let vs ← evalAll ev (s.holding v) es
    return v :: vs

/-- Adds the entries of a mapping expression to those before them. -/
def evalEntries (ev : Evaluator) (s : Scope) (done : List (Value × Value)) :
    List (Expr × Expr) → Except Failure (List (Value × Value))
  | [] => .ok done
  | (key, value) :: rest => do
    let k ← eval ev s key
    let v ← eval ev (s.holding k) value
    match k.checkKey with
    | .ok () => evalEntries ev ((s.holding k).holding v) (insertEntry k v done) rest
    | .error f => do
      let shown ← liftFault k.quotedForm
      .error (.evaluation (.dictKey shown f))

end

end Evaluator

end TemplateEngine
