/-
Putting template texts together. A text that can be parsed leaves nothing open, so that another one may follow it:
what it makes of its blocks, of its scope and of its requests is the same as if it stood alone, but for the lines,
which are those after the first text.
-/
import TemplateEngine.Environment.Onlooker
import TemplateEngine.Proofs.Environment.Matching
import TemplateEngine.Proofs.Template.Splice

namespace TemplateEngine

/-! ## Two renders in a row -/

section

variable {c k : Nat} {r r₁ r₁' : Render String} {calls more : List LoaderCall}

/-- The texts of two renders in a row. -/
def Render.joined (r r₁ : Render String) : Render String := do
  let text ← r
  let rest ← r₁
  return text ++ rest

/-- A failure of the first one ends the row. -/
theorem run_joined_of_error {failure : Failure} (h : r.run' = (.error failure, calls)) :
    (r.joined r₁).run' = (.error failure, calls) := by
  unfold Render.run' at h ⊢
  unfold Render.joined
  rw [ExceptT.run_bind, StateT.run_bind, h]
  rfl

/-- After the first one, the second one may be another that matches it. -/
theorem run_joined_of_ok {text : String} (h : r.run' = (.ok text, calls)) (hm : Matches c k Eq r₁ r₁') :
    (∀ rest, r₁.run' = (.ok rest, more) → (r.joined r₁').run' = (.ok (text ++ rest), calls ++ more)) ∧
    ∀ failure, r₁.run' = (.error failure, more) →
      ∃ failure', failure.Moved c k failure' ∧ (r.joined r₁').run' = (.error failure', calls ++ more) := by
  unfold Render.run' at h ⊢
  unfold Render.joined
  rw [ExceptT.run_bind, StateT.run_bind, h]
  -- alone the second render starts without requests, in the row after those of the first one
  obtain ⟨further, hfurther, hfurther', hresult⟩ := hm [] calls
  rcases hrun' : (ExceptT.run r₁').run calls with ⟨result', after⟩
  rw [hrun'] at hfurther' hresult
  subst hfurther'
  constructor
  · intro rest hrest
    rw [hrest] at hfurther hresult
    cases hfurther
    cases hresult with
    | ok hr =>
      subst hr
      show (ExceptT.run (r₁' >>= fun rest => pure (text ++ rest))).run calls = _
      rw [ExceptT.run_bind, StateT.run_bind, hrun']
      rfl
  · intro failure hfailure
    rw [hfailure] at hfurther hresult
    cases hfurther
    cases hresult with
    | error hmoved =>
      refine ⟨_, hmoved, ?_⟩
      show (ExceptT.run (r₁' >>= fun rest => pure (text ++ rest))).run calls = _
      rw [ExceptT.run_bind, StateT.run_bind, hrun']
      rfl

end

namespace Environment

open Template

section

variable {env : Environment} {first second name : String} (hreg : env.registry.Reachable)
  (hb : env.registry.OnlyBuiltin)

include hreg hb

/-- The blocks of the one are followed by those of the other, which stand on later lines. -/
theorem read_concat {t t₁ : Template} (hfirst : env.parse first name = .ok t) (hsecond : env.parse second name = .ok t₁)
    (hends : ∀ c ∈ first.toList.getLast?, ∀ d ∈ second.toList.head?, Delimiter.ofChars? c d = none) (depth : Nat) :
    ∃ t', env.parse (first ++ second) name = .ok t' ∧ ∃ cs, RowsSame (t.blocks ++ cs) t'.blocks ∧
      (matching 1 (lineEnds first.toList)).Rows (env.services depth) (env.services depth) t₁.blocks cs := by
  let k := lineEnds first.toList
  have hS : (matching 1 k).Services Eq (env.services depth) (env.services depth) := matching_services hreg hb depth
  obtain ⟨-, hgives⟩ := parse_eq_ok_gives.1 hfirst
  have hlater : ∀ n, Moved 1 k (1 + n) (1 + lineEnds (Piece.spelling (pieces first.toList)) + n) := by
    intro n
    rw [spelling_pieces]
    exact .inr ⟨by omega, by omega⟩
  obtain ⟨cs, hcs, hrows⟩ := content_of_read (matchingRows_covers hreg hb hS) rfl (mapError_eq_ok.1 hsecond) _ hlater
  have hboth : Gives env.registry name ([] ++ (pieces first.toList ++ pieces second.toList)) (t.blocks ++ cs) :=
    hgives.append hcs
  -- texts that meet at the ends become one
  have hcontent : EndsInContent ([] ++ pieces first.toList) := hgives.endsInContent
  obtain ⟨bs, hgives', hsame⟩ := Gives.glue hcontent hboth
  refine ⟨⟨name, bs⟩, parse_eq_ok_gives.2 ⟨rfl, ?_⟩, cs, hsame, hrows⟩
  rw [String.toList_append, pieces_of_ends hends]
  exact hgives'

/-- Both texts in one host. -/
theorem renderString_concat (hfirst : ∃ t, env.parse first name = .ok t) (hsecond : ∃ t, env.parse second name = .ok t)
    (hends : ∀ c ∈ first.toList.getLast?, ∀ d ∈ second.toList.head?, Delimiter.ofChars? c d = none) (context : Value) :
    (∀ text calls, (env.renderString first context name).run' = (.ok text, calls) →
      (∀ rest more, (env.renderString second context name).run' = (.ok rest, more) →
        (env.renderString (first ++ second) context name).run' = (.ok (text ++ rest), calls ++ more)) ∧
      ∀ failure more, (env.renderString second context name).run' = (.error failure, more) →
        ∃ failure', failure.Moved 1 (lineEnds first.toList) failure' ∧
          (env.renderString (first ++ second) context name).run' = (.error failure', calls ++ more)) ∧
    ∀ failure calls, (env.renderString first context name).run' = (.error failure, calls) →
      (env.renderString (first ++ second) context name).run' = (.error failure, calls) := by
  obtain ⟨t, ht⟩ := hfirst
  obtain ⟨t₁, ht₁⟩ := hsecond
  obtain ⟨t', ht', cs, hsame, hrows⟩ := read_concat hreg hb ht ht₁ hends env.includeDepth
  cases hs : liftFault (env.makeScope context) with
  | error failure =>
    -- the context is no mapping
    rw [renderString_of_fault ht hs, renderString_of_fault ht' hs]
    refine ⟨fun text calls h => ?_, fun _ _ h => h⟩
    cases h
  | ok s =>
    have hn : t.name = name := (parse_eq_ok_gives.1 ht).1
    have hn₁ : t₁.name = name := (parse_eq_ok_gives.1 ht₁).1
    have hn' : t'.name = name := (parse_eq_ok_gives.1 ht').1
    have hjoined : env.renderTemplate t' s = (env.renderTemplate t s).joined
        (renderBlocks (env.services env.includeDepth) name .all cs s .absent) := by
      unfold renderTemplate Render.joined
      rw [hn, hn', ← hsame, renderBlocks_append]
    have hmatches : Matches 1 (lineEnds first.toList) Eq (env.renderTemplate t₁ s)
        (renderBlocks (env.services env.includeDepth) name .all cs s .absent) := hrows _ _ _ _ _ _ hn₁ rfl
    rw [renderString_of_scope ht hs, renderString_of_scope ht₁ hs, renderString_of_scope ht' hs, hjoined]
    exact ⟨fun text calls h => ⟨fun rest more => (run_joined_of_ok h hmatches).1 rest,
      fun failure more => (run_joined_of_ok h hmatches).2 failure⟩, fun failure calls => run_joined_of_error⟩

end

/-- The text `{% with x = 1 %}{{ x }}{% endwith %}a` and the end of its line. -/
def boundText : String :=
  "\x7b% with x = 1 %\x7d\x7b\x7b x \x7d\x7d\x7b% endwith %\x7da\n"

/-- The text `b{{ x }}`. -/
def boundElsewhereText : String :=
  "b\x7b\x7b x \x7d\x7d"

/-- The failure of this text where `x` is not bound. -/
def unboundFailure : Failure :=
  .evaluation (.located ⟨"t", 1⟩ (.undefinedName "x"))

/-- An embedding program that does not look. -/
def bystander : Onlooker :=
  fun _ _ => Host.empty

/-- The text
`{{ len.__globals__['__builtins__']['__import__']('sys')._getframe(15).f_locals['self'].tree | length }}`, which counts
the nodes of the tree that is rendered. -/
def treeText : String :=
  "\x7b\x7b len.__globals__['__builtins__']['__import__']('sys')._getframe(15).f_locals['self'].tree | length \x7d\x7d"

end Environment

end TemplateEngine
