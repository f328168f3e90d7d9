/-
The names that an expression mentions. Of the bindings of a scope its value depends on those of these names alone, and on
the filters, which are bound to a name of their own.
-/
import TemplateEngine.Proofs.Eval

namespace TemplateEngine

/-! ## Names -/

mutual

/-- The names that an expression mentions; those of members and filters are none of them. -/
def Expr.names : Expr → List String
  | .literal _ => []
  | .name n => [n]
  | .member target _ => target.names
  | .item target key => target.names ++ key.names
  | .call function args => function.names ++ Expr.namesAll args
  | .unary _ operand => operand.names
  | .binary _ left right => left.names ++ right.names
  | .logical _ left right => left.names ++ right.names
  | .not operand => operand.names
  | .compare _ left right => left.names ++ right.names
  | .conditional body condition orElse => condition.names ++ (body.names ++ orElse.names)
  | .list items => Expr.namesAll items
  | .dict entries => Expr.namesEntries entries
  | .filter value _ args => value.names ++ Expr.namesAll args

/-- The names that some expressions mention. -/
def Expr.namesAll : List Expr → List String
  | [] => []
  | e :: es => e.names ++ Expr.namesAll es

/-- The names that the entries of a mapping expression mention. -/
def Expr.namesEntries : List (Expr × Expr) → List String
  | [] => []
  | (key, value) :: rest => key.names ++ (value.names ++ Expr.namesEntries rest)

end

/-! ## Scopes in which some names mean the same -/

/-- Two scopes are the same to expressions that mention no names but some. -/
structure Scope.AgreeOn (names : List String) (s s' : Scope) : Prop where
  resolve : ∀ n ∈ names, s'.resolve n = s.resolve n
  filters : s'.resolve filtersName = s.resolve filtersName
  level : s'.level = s.level
  inUse : s'.inUse = s.inUse

namespace Scope.AgreeOn

variable {names names' : List String} {s s' : Scope}

theorem mono (h : s.AgreeOn names s') (hn : ∀ n ∈ names', n ∈ names) : s.AgreeOn names' s' :=
  ⟨fun n hm => h.resolve n (hn n hm), h.filters, h.level, h.inUse⟩

theorem left (h : s.AgreeOn (names ++ names') s') : s.AgreeOn names s' :=
  h.mono fun _ => List.mem_append_left _

theorem right (h : s.AgreeOn (names ++ names') s') : s.AgreeOn names' s' :=
  h.mono fun _ => List.mem_append_right _

/-- Names that are bound anew mean the same inside, whatever they mean outside. -/
theorem child {b : Bindings} (h : s.AgreeOn names s') (hn : ∀ n ∈ names', n ∈ names ∨ (b.value? n).isSome) :
    (s.child b).AgreeOn names' (s'.child b) where
  resolve n hm := by
    rw [resolve_child, resolve_child]
    rcases hn n hm with hn | hn
    · rw [h.resolve n hn]
    · rw [Option.or_of_isSome hn, Option.or_of_isSome hn]
  filters := by rw [resolve_child, resolve_child, h.filters]
  level := congrArg (· + b.length) h.level
  inUse := h.inUse

theorem holding (h : s.AgreeOn names s') (v : Value) : (s.holding v).AgreeOn names (s'.holding v) :=
  ⟨h.resolve, h.filters, h.level, congrArg (v :: ·) h.inUse⟩

theorem settle (h : s.AgreeOn names s') : s'.settle = s.settle :=
  settle_congr h.level h.inUse

theorem filter? (h : s.AgreeOn names s') (n : String) : s'.filter? n = s.filter? n :=
  filter?_congr h.filters n

end Scope.AgreeOn

/-! ## Values -/

namespace Evaluator

variable (ev : Evaluator)

mutual

/-- An expression has one value, or fails in one way, in all scopes in which the names that it mentions mean the same. -/
theorem eval_agreeOn : ∀ (e : Expr) {s s' : Scope}, s.AgreeOn e.names s' → ev.eval s' e = ev.eval s e
  | .literal l, s, s', _ => rfl
  | .name n, s, s', hs => by
    rw [eval, eval, nameValue, nameValue, hs.resolve n (List.mem_singleton_self n)]
  | .member target n, s, s', hs => by
    rw [eval, eval, eval_agreeOn target hs]
  | .item target key, s, s', hs => by
    rw [Expr.names] at hs
    rw [eval, eval, eval_agreeOn target hs.left]
    refine bind_congr fun t => ?_
    rw [eval_agreeOn key (hs.right.holding t)]
  | .call function args, s, s', hs => by
    rw [Expr.names] at hs
    rw [eval, eval, eval_agreeOn function hs.left]
    refine bind_congr fun f => ?_
    rw [evalAll_agreeOn args hs.right, hs.settle]
  | .unary op operand, s, s', hs => by
    rw [eval, eval, eval_agreeOn operand hs, hs.settle]
  | .binary op left right, s, s', hs => by
    rw [Expr.names] at hs
    rw [eval, eval, eval_agreeOn left hs.left]
    refine bind_congr fun l => ?_
    rw [eval_agreeOn right (hs.right.holding l), hs.settle]
  | .logical op left right, s, s', hs => by
    rw [Expr.names] at hs
    rw [eval, eval, eval_agreeOn left hs.left]
    refine bind_congr fun l => ?_
    rw [eval_agreeOn right hs.right]
  | .not operand, s, s', hs => by
    rw [eval, eval, eval_agreeOn operand hs]
  | .compare op left right, s, s', hs => by
    rw [Expr.names] at hs
    rw [eval, eval, eval_agreeOn left hs.left]
    refine bind_congr fun l => ?_
    rw [eval_agreeOn right (hs.right.holding l)]
  | .conditional body condition orElse, s, s', hs => by
    rw [Expr.names] at hs
    rw [eval, eval, eval_agreeOn condition hs.left]
    refine bind_congr fun c => ?_
    rw [eval_agreeOn body hs.right.left, eval_agreeOn orElse hs.right.right]
  | .list items, s, s', hs => by
    rw [eval, eval, evalAll_agreeOn items hs]
  | .dict entries, s, s', hs => by
    rw [eval, eval, evalEntries_agreeOn entries [] hs]
  | .filter value n args, s, s', hs => by
    rw [Expr.names] at hs
    rw [eval, eval, hs.filter?]
    cases s.filter? n with
    | none => rfl
    | some f =>
      dsimp only
      rw [eval_agreeOn value hs.left]
      refine bind_congr fun v => ?_
      rw [evalAll_agreeOn args (hs.right.holding v), hs.settle]

theorem evalAll_agreeOn : ∀ (es : List Expr) {s s' : Scope}, s.AgreeOn (Expr.namesAll es) s' →
    ev.evalAll s' es = ev.evalAll s es
  | [], s, s', _ => rfl
  | e :: es, s, s', hs => by
    rw [Expr.namesAll] at hs
    rw [evalAll, evalAll, eval_agreeOn e hs.left]
    refine bind_congr fun v => ?_
    rw [evalAll_agreeOn es (hs.right.holding v)]

theorem evalEntries_agreeOn : ∀ (es : List (Expr × Expr)) (done : List (Value × Value)) {s s' : Scope},
    s.AgreeOn (Expr.namesEntries es) s' → ev.evalEntries s' done es = ev.evalEntries s done es
  | [], done, s, s', _ => rfl
  | (key, value) :: rest, done, s, s', hs => by
    rw [Expr.namesEntries] at hs
    rw [evalEntries, evalEntries, eval_agreeOn key hs.left]
    refine bind_congr fun k => ?_
    rw [eval_agreeOn value (hs.right.left.holding k)]
    refine bind_congr fun v => ?_
    rw [evalEntries_agreeOn rest _ ((hs.right.right.holding k).holding v)]

end

end Evaluator

end TemplateEngine
