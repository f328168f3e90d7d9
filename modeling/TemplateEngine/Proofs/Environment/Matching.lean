/-
Renders of templates that differ in the lines of their blocks. Templates that are included are the same in both, so
that the renders match if the rows of blocks do.
-/
import TemplateEngine.Proofs.Environment.Policy
import TemplateEngine.Proofs.Template.Later

namespace TemplateEngine.Environment

open Template

/-- The environment of some template texts. -/
def ofTexts (texts : List (String × String)) : Environment where
  loader := .ofTexts texts

variable {env : Environment} {c k : Nat}

section

variable {source name : String} {context : Value} {t : Template} (h : env.parse source name = .ok t)

include h

/-- A text that can be parsed is rendered in the scope of the context. -/
theorem renderString_of_scope {s : Scope} (hs : liftFault (env.makeScope context) = .ok s) :
    env.renderString source context name = env.renderTemplate t s := by
  unfold renderString
  rw [h, hs]
  rfl

theorem renderString_of_fault {failure : Failure} (hs : liftFault (env.makeScope context) = .error failure) :
    env.renderString source context name = throw failure := by
  unfold renderString
  rw [h, hs]
  rfl

end

/-- What is loaded is the same template, after the same request. -/
theorem matches_load (id : String) (base : Option String) :
    Matches c k (fun t t' => t = t' ∧ env.Reads t) (env.load id base) (env.load id base) := by
  intro calls calls'
  refine ⟨[⟨id, base⟩], rfl, rfl, ?_⟩
  show ResultsMatch c k _ (env.readLoaded id (env.loader.load id base)) (env.readLoaded id (env.loader.load id base))
  cases h : env.readLoaded id (env.loader.load id base) with
  | ok t =>
    obtain ⟨text, -, hparse⟩ := readLoaded_eq_ok.1 h
    exact .ok ⟨rfl, reads_of_parse hparse⟩
  | error failure => exact .error (.inl rfl)

variable (hreg : env.registry.Reachable) (hb : env.registry.OnlyBuiltin)

include hreg hb

theorem matchingRows_covers {S : Services} (hS : (matching c k).Services Eq S S) :
    (matchingRows c k S hS).Covers env.registry :=
  fun _ _ h => RenderRelation.follows_of_builtin (hb _ (hreg.route h).1)

/-- A template that was read renders like itself. -/
theorem Reads.matching {t : Template} (ht : env.Reads t) {S : Services} (hS : (matching c k).Services Eq S S) :
    (matching c k).Rows S S t.blocks t.blocks := by
  obtain ⟨text, name, h⟩ := ht
  exact (read_eq_ok_gives.1 h).2.rows_self (matchingRows_covers hreg hb hS) rfl fun _ => .inl rfl

/-- By induction on the includes that may be open. -/
theorem matching_services (depth : Nat) : (matching c k).Services Eq (env.services depth) (env.services depth) := by
  induction depth with
  | zero =>
    refine ⟨?_, ?_⟩
    · rintro e s _ rfl
      exact (matching c k).holds_ofResult _
    · intro id s s' base base' _ _
      exact (matching c k).holds_throw _
  | succ depth ih =>
    refine ⟨?_, ?_⟩
    · rintro e s _ rfl
      exact (matching c k).holds_ofResult _
    · rintro id s _ base _ rfl rfl
      refine matches_bind (matches_load id (some base)) ?_
      rintro t _ ⟨rfl, ht⟩
      exact ht.matching hreg hb ih _ _ _ _ _ _ rfl rfl

end TemplateEngine.Environment
