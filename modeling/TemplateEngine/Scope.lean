/-
Scopes. A scope holds the bindings of one place and those of the places around it; a name means its
nearest binding. The filters of an environment are bound, as one mapping, to a reserved name. What is
bound in a scope was made outside of it, at a lower level.
-/
import TemplateEngine.Text.Quoted
import TemplateEngine.Value.Equality
import TemplateEngine.Value.Identity

namespace TemplateEngine

/-- Names with their values; the first binding of a name counts. -/
abbrev Bindings := List (String × Value)

namespace Bindings

/-- The value of a name. -/
def value? (b : Bindings) (name : String) : Option Value :=
  (b.find? (·.1 == name)).map (·.2)

/-- Binds a name anew, in the place of its old binding if it has one. -/
def insert (name : String) (v : Value) : Bindings → Bindings
  | [] => [(name, v)]
  | (n, old) :: b => if n == name then (n, v) :: b else (n, old) :: insert name v b

/-- All bindings of `a` and `b`; those of `b` win. -/
def update (a b : Bindings) : Bindings :=
  b.foldl (fun all e => insert e.1 e.2 all) a

/-- The names that a mapping value binds; only its text keys are names. -/
def ofEntries (entries : List (Value × Value)) : Bindings :=
  entries.filterMap fun
    | (.str name, v) => some (name, v)
    | _ => none

/-- The bound names in alphabetical order. -/
def names (b : Bindings) : List String :=
  (b.map (·.1)).mergeSort fun m n => decide (m ≤ n)

/-- The bindings as a mapping value. -/
def toValue (b : Bindings) : Value :=
  .dict (b.map fun e => (.str e.1, e.2))

end Bindings

/-- The bindings of a place and those around it, nearest first. -/
structure Scope where
  bindings : Bindings
  outer : List Bindings := []
  /-- How many names have been bound on the way from the scope of a render to here. -/
  level : Nat := 0
  /-- The values that are held, under no name, while an expression is evaluated. -/
  inUse : List Value := []

namespace Scope

/-- The name to which the filters are bound. -/
def filtersName : String := "__filters__"

/-- The bindings from the nearest to the outermost ones. -/
def chain (s : Scope) : List Bindings :=
  s.bindings :: s.outer

/-- The value of a name: its nearest binding. -/
def resolve (s : Scope) (name : String) : Option Value :=
  s.chain.findSome? (·.value? name)

/-- A scope inside of `s`. -/
def child (s : Scope) (b : Bindings) : Scope :=
  { s with bindings := b, outer := s.chain, level := s.level + b.length }

/-- The scope in which one more value is in use. -/
def holding (s : Scope) (v : Value) : Scope :=
  { s with inUse := v :: s.inUse }

/-- A value as an expression in the scope gives it: a new `nan` is told apart from those in use. -/
def settle (s : Scope) (v : Value) : Value :=
  v.settle s.level s.inUse

/-- The filters that are seen from a scope: none where the reserved name means no mapping. -/
def filters (s : Scope) : List (Value × Value) :=
  match s.resolve filtersName with
  | some (.dict entries) => entries
  | _ => []

/-- The filter of a name; a name bound to nothing has none. -/
def filter? (s : Scope) (name : String) : Option Value :=
  match valueOfKey? s.filters (.str name) with
  | some .none => none
  | v => v

/-- All bindings at once, each name with its nearest value. -/
def flatten (s : Scope) : Bindings :=
  s.chain.foldr (fun b all => all.update b) []

/-- The value of a name, or else the fallback if there is one. -/
def lookup (s : Scope) (name : String) (fallback : Option Value) : Except Fault Value :=
  match s.resolve name <|> fallback with
  | some v => .ok v
  | none => .error (.foreign .key (Text.quoted name))

/-- Whether a value is a name that has a value. -/
def contains (s : Scope) : Value → Bool
  | .str name => (s.resolve name).isSome
  | _ => false

/-- Bindings are never changed in place. -/
def assign (_ : Scope) (_ : String) (_ : Value) : Except Fault Scope :=
  .error (.type .readOnlyBindings)

/-- The nearest names in alphabetical order, and the number of places, for listings. -/
def listing (s : Scope) : String :=
  let names := s.bindings.names.map Text.quoted
  "Scope(keys=[" ++ ", ".intercalate names ++ "], depth=" ++ toString s.chain.length ++ ")"

end Scope

end TemplateEngine
