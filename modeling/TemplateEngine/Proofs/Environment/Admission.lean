/-
The names that are admitted: those of new filters and functions, and the targets of tags. Filters and functions may have
any identifier, keywords and letters beyond ASCII included, and targets may be keywords; but an expression refers to
plain names only. A plain target means its value in the body of its tag, but that of a loop is hidden by the state of
the loop if it is called `loop`.
-/
import TemplateEngine.Proofs.Environment.Matching
import TemplateEngine.Proofs.Expr.PlainNames
import TemplateEngine.Proofs.Tag.Requests

namespace TemplateEngine

open Text

/-! ## Words -/

/-- A word of ASCII letters, digits and underscores that starts with no digit. -/
def IsWord (n : String) : Prop :=
  ∃ c cs, n.toList = c :: cs ∧ isNameStart c = true ∧ ∀ d ∈ cs, isNameChar d = true

/-- A text of ASCII characters. -/
def IsAscii (n : String) : Prop :=
  ∀ c ∈ n.toList, c.toNat < 128

section

variable {n : String}

theorem isPlainName_iff : isPlainName n = true ↔ IsWord n ∧ Keyword.ofWord? n = none := by
  unfold isPlainName IsWord
  cases n.toList with
  | nil => simp
  | cons c cs => simp [List.all_eq_true, and_assoc]

theorem toNat_lt_of_isNameChar {c : Char} (h : isNameChar c = true) : c.toNat < 128 := by
  have hcases : isNameStart c = true ∨ c.isDigit = true := by
    simp only [isNameChar, isNameStart, Char.isAlphanum, Bool.or_eq_true] at h ⊢
    tauto
  rcases hcases with h | h
  · exact toNat_lt_of_isNameStart h
  · have hle : c.val ≤ '9'.val := (of_decide_eq_true (Bool.and_eq_true_iff.1 h).2)
    exact lt_of_le_of_lt (UInt32.le_iff_toNat_le.1 hle) (by decide)

theorem IsWord.isAscii (h : IsWord n) : IsAscii n := by
  obtain ⟨c, cs, hlist, hc, hcs⟩ := h
  unfold IsAscii
  rw [hlist]
  exact List.forall_mem_cons.2 ⟨toNat_lt_of_isNameStart hc, fun d hd => toNat_lt_of_isNameChar (hcs d hd)⟩

/-- An identifier is a word exactly if it is written in ASCII. -/
theorem isWord_of_isIdentifier (h : isIdentifier n = true) (hascii : IsAscii n) : IsWord n := by
  unfold isIdentifier at h
  split at h
  · cases h
  · rename_i c cs hlist
    unfold IsAscii at hascii
    rw [hlist] at hascii
    obtain ⟨hc, hcs⟩ := List.forall_mem_cons.1 hascii
    obtain ⟨hstart, hchars⟩ := Bool.and_eq_true_iff.1 h
    rw [isIdentifierStart, if_pos hc] at hstart
    refine ⟨c, cs, hlist, hstart, fun d hd => ?_⟩
    have hchar := List.all_eq_true.1 hchars d hd
    rwa [isIdentifierChar, if_pos (hcs d hd)] at hchar

/-! ## Targets -/

theorem isWord_of_takeName? {cs rest : List Char} (h : takeName? cs = some (n, rest)) : IsWord n := by
  unfold takeName? at h
  split at h
  · cases h
  · rename_i c cs
    split at h
    · rename_i hc
      cases h
      exact ⟨c, _, String.toList_ofList, hc, fun d hd => List.mem_takeWhile_imp hd⟩
    · cases h

theorem isWord_of_bindingShape? {signature source : String} (h : bindingShape? signature = some (n, source)) :
    IsWord n := by
  unfold bindingShape? at h
  obtain ⟨⟨m, rest⟩, hm, h⟩ := Option.bind_eq_some_iff.1 h
  dsimp only at h
  split at h
  · split at h
    · cases h
    · obtain ⟨source, -, h⟩ := Option.bind_eq_some_iff.1 h
      cases h
      exact isWord_of_takeName? hm
  · cases h

theorem isWord_of_loopShape? {signature target source : String} {second : Option String}
    (h : loopShape? signature = some (target, second, source)) : IsWord target ∧ ∀ n ∈ second, IsWord n := by
  unfold loopShape? at h
  obtain ⟨⟨m, rest⟩, hm, h⟩ := Option.bind_eq_some_iff.1 h
  dsimp only at h
  split at h
  · obtain ⟨⟨m', rest'⟩, hm', h⟩ := Option.bind_eq_some_iff.1 h
    obtain ⟨p, hp, h⟩ := Option.bind_eq_some_iff.1 h
    cases hp
    dsimp only at h
    split at h
    · cases h
    · split at h
      · obtain ⟨source, -, h⟩ := Option.bind_eq_some_iff.1 h
        cases h
        exact ⟨isWord_of_takeName? hm, by rintro n ⟨⟩; exact isWord_of_takeName? hm'⟩
      · cases h
  · obtain ⟨p, hp, h⟩ := Option.bind_eq_some_iff.1 h
    cases hp
    dsimp only at h
    split at h
    · cases h
    · split at h
      · obtain ⟨source, -, h⟩ := Option.bind_eq_some_iff.1 h
        cases h
        exact ⟨isWord_of_takeName? hm, nofun⟩
      · cases h

end

theorem WithTag.isWord_of_readArgs {word signature target : String} {role : TagRole} {e : Expr}
    (h : readArgs word role signature = .ok (.binding target e)) : IsWord target := by
  unfold readArgs at h
  split at h
  · rename_i n source hshape
    obtain ⟨x, -, h⟩ := bind_eq_ok.1 h
    cases h
    exact isWord_of_bindingShape? hshape
  · cases h

theorem ForTag.isWord_of_readArgs {word signature target : String} {second : Option String} {role : TagRole} {e : Expr}
    (h : readArgs word role signature = .ok (.loop target second e)) : IsWord target ∧ ∀ n ∈ second, IsWord n := by
  unfold readArgs at h
  split at h
  · obtain ⟨x, -, h⟩ := bind_eq_ok.1 h
    cases h
  · split at h
    · rename_i shape hshape
      obtain ⟨x, -, h⟩ := bind_eq_ok.1 h
      cases h
      exact isWord_of_loopShape? hshape
    · cases h

/-! ## Bodies -/

/-- What a target means in the body of its tag: at a `with` the value of the expression, at a `for` what binding the
targets to the item of a round gives for it, besides the state of the loop. -/
inductive BindsTarget (S : Services) (c : ChildrenRenderer) (n : String) (v : Value) : Option Value → Scope → Prop
  | binding {tag : Tag} {s s' : Scope} {selector : Selector} {choice : ChildChoice} {e : Expr}
      (hread : WithTag.readArgs tag.name tag.role tag.signature = .ok tag.args) (hargs : tag.args = .binding n e)
      (hbody : (WithTag.script tag s).Asks S c (.children s' selector choice)) (hv : S.evaluate e s = .ok v) :
      BindsTarget S c n v none s'
  | round {tag : Tag} {s : Scope} {target : String} {second : Option String} {e : Expr} {item : Value} {b : Bindings}
      {i length : Nat} (hread : ForTag.readArgs tag.name tag.role tag.signature = .ok tag.args)
      (hargs : tag.args = .loop target second e) (hb : ForTag.bind target second item = .ok b)
      (hbody : (ForTag.openingScript tag s).Asks S c
        (.children (s.child (b.insert "loop" (.loop i length))) .taken .all)) (hn : b.value? n = some v) :
      BindsTarget S c n v (some (.loop i length)) (s.child (b.insert "loop" (.loop i length)))

namespace BindsTarget

variable {S : Services} {c : ChildrenRenderer} {n : String} {v : Value} {loop : Option Value} {s : Scope}

theorem isWord (h : BindsTarget S c n v loop s) : IsWord n := by
  cases h with
  | binding hread hargs => exact WithTag.isWord_of_readArgs (hread.trans (congrArg _ hargs))
  | round hread hargs hb hbody hn =>
    obtain ⟨htarget, hsecond⟩ := ForTag.isWord_of_readArgs (hread.trans (congrArg _ hargs))
    rcases ForTag.mem_targets_of_bind hb hn with rfl | h
    · exact htarget
    · exact hsecond n h

/-- In the body the target means its value, but `loop` means the state of a loop. -/
theorem resolve (h : BindsTarget S c n v loop s) :
    s.resolve n = some (if n = "loop" then loop.getD v else v) := by
  cases h with
  | @binding tag s s' selector choice e hread hargs hbody hv =>
    rw [WithTag.script, hargs] at hbody
    obtain hbody | ⟨w, hw, hbody⟩ := Script.asks_value.1 hbody
    · cases hbody
    · obtain ⟨rfl, rfl, rfl⟩ := Request.children.inj (by simpa using hbody)
      rw [Except.ok.inj (hv.symm.trans hw), Scope.resolve_child, Bindings.value?_cons_self, Option.getD_none, ite_self]
      rfl
  | @round tag s target second e item b i length hread hargs hb hbody hn =>
    rw [Scope.resolve_child, Bindings.value?_insert, hn]
    by_cases hloop : n = "loop"
    · rw [if_pos hloop.symm, if_pos hloop]
      rfl
    · rw [if_neg (Ne.symm hloop), if_neg hloop]
      rfl

end BindsTarget

/-! ## Admitted names -/

namespace Environment

variable {env : Environment} {n : String} {s : Scope} {v : Value}

/-- A name that an environment takes for a filter or a function, or that a signature has for a target. -/
inductive Admits (env : Environment) (n : String) : Prop
  | filter {v : Value} {env' : Environment} (h : env.addFilter (.str n) v = .ok env')
  | function {v : Value} {env' : Environment} (h : env.addFunction (.str n) v = .ok env')
  | binding {word signature : String} {role : TagRole} {e : Expr}
      (h : WithTag.readArgs word role signature = .ok (.binding n e))
  | loop {word signature target : String} {second : Option String} {role : TagRole} {e : Expr}
      (h : ForTag.readArgs word role signature = .ok (.loop target second e)) (hn : n = target ∨ second = some n)

/-- In a scope a source is read as an expression that has a value. -/
def Means (env : Environment) (s : Scope) (source : String) (v : Value) : Prop :=
  ∃ e, Expr.read source = .ok e ∧ env.evaluate e s = .ok v

theorem isIdentifier_of_checkCallable {noun m : String} (h : checkCallable noun (.str n) v = .ok m) :
    isIdentifier n = true := by
  unfold checkCallable at h
  dsimp only at h
  split at h
  · assumption
  · obtain ⟨shown, -, h⟩ := bind_eq_ok.1 h
    cases h

theorem Admits.isWord (h : env.Admits n) (hascii : IsAscii n) : IsWord n := by
  cases h with
  | filter h =>
    obtain ⟨m, hm, -⟩ := bind_eq_ok.1 h
    exact isWord_of_isIdentifier (isIdentifier_of_checkCallable hm) hascii
  | function h =>
    obtain ⟨m, hm, -⟩ := bind_eq_ok.1 h
    exact isWord_of_isIdentifier (isIdentifier_of_checkCallable hm) hascii
  | binding h => exact WithTag.isWord_of_readArgs h
  | loop h hn =>
    obtain ⟨htarget, hsecond⟩ := ForTag.isWord_of_readArgs h
    rcases hn with rfl | hn
    · exact htarget
    · exact hsecond n hn

/-- An admitted name is plain if it is written in ASCII and no keyword. -/
theorem Admits.isPlainName_iff (h : env.Admits n) : isPlainName n = true ↔ IsAscii n ∧ Keyword.ofWord? n = none := by
  rw [TemplateEngine.isPlainName_iff]
  exact and_congr_left fun _ => ⟨IsWord.isAscii, h.isWord⟩

theorem means_of_resolve (h : isPlainName n = true) (hs : s.resolve n = some v) : env.Means s n v := by
  refine ⟨.name n, (NameUse.serves_iff .value n).2 h, ?_⟩
  rw [evaluate, Evaluator.eval, Evaluator.nameValue, hs]

/-- A name that is admitted can be referred to, as a token, a filter, a call or a value, exactly if it is written in
ASCII and is no keyword. In the body of a tag a target that is no keyword means its value, and `loop` the state of the
loop. -/
theorem admitted_names (env : Environment) :
    (∀ n, env.Admits n → ∀ use : NameUse, use.Serves n ↔ IsAscii n ∧ Keyword.ofWord? n = none) ∧
    ∀ S c n v loop s, BindsTarget S c n v loop s → Keyword.ofWord? n = none →
      env.Means s n (if n = "loop" then loop.getD v else v) := by
  constructor
  · intro n hn use
    rw [NameUse.serves_iff, hn.isPlainName_iff]
  · intro S c n v loop s h hkeyword
    exact means_of_resolve (TemplateEngine.isPlainName_iff.2 ⟨h.isWord, hkeyword⟩) h.resolve

/-- The name of a filter, and in bodies the targets of a `with` and of a loop, the latter called `loop`. -/
theorem admitted_names_bodies : NameUse.filter.Serves "twice" ∧
    (ofTexts []).Means (Scope.child ⟨[], [], 0, []⟩ [("x", .bool true)]) "x" (.bool true) ∧
    (ofTexts []).Means (Scope.child ⟨[], [], 0, []⟩ [("loop", .loop 0 1)]) "loop" (.loop 0 1) := by
  let S := (ofTexts []).services 1
  let c : ChildrenRenderer := fun _ _ _ => pure ""
  let s : Scope := ⟨[], [], 0, []⟩
  obtain ⟨hnames, htargets⟩ := admitted_names (ofTexts [])
  refine ⟨?filter, ?binding, ?round⟩
  case filter =>
    have hadmits : (ofTexts []).Admits "twice" := .filter (v := .callable (.host "pair")) rfl
    exact (hnames "twice" hadmits .filter).2 (hadmits.isPlainName_iff.1 (by decide))
  case binding =>
    let tag : Tag := ⟨"with", .opening, "x = true", .binding "x" (.literal (.bool true)), 1, "t"⟩
    have hread : WithTag.readArgs "with" .opening "x = true" = .ok tag.args := by with_unfolding_all rfl
    have hbody : (WithTag.script tag s).Asks S c (.children (s.child [("x", .bool true)]) .absent .all) :=
      Script.asks_value.2 (.inr ⟨.bool true, rfl, .now⟩)
    exact htargets S c "x" (.bool true) none _ (.binding hread rfl hbody rfl) rfl
  case round =>
    let tag : Tag := ⟨"for", .opening, "loop in [true]", .loop "loop" none (.list [.literal (.bool true)]), 1, "t"⟩
    have hread : ForTag.readArgs "for" .opening "loop in [true]" = .ok tag.args := by with_unfolding_all rfl
    have hbody : (ForTag.openingScript tag s).Asks S c (.children (s.child [("loop", .loop 0 1)]) .taken .all) :=
      Script.asks_value.2 (.inr ⟨.list [.bool true], rfl, .now⟩)
    have hround : BindsTarget S c "loop" (.bool true) (some (.loop 0 1)) (s.child [("loop", .loop 0 1)]) :=
      .round (b := [("loop", .bool true)]) hread rfl rfl hbody rfl
    exact htargets S c "loop" (.bool true) _ _ hround rfl

/-- A function may be called `not`, but what looks like a call of it is a negation. -/
theorem admitted_keyword :
    (∃ env', (ofTexts []).addFunction (.str "not") (.callable (.host "pair")) = .ok env') ∧
      Expr.read "not(x)" = .ok (.not (.name "x")) :=
  ⟨⟨_, rfl⟩, by with_unfolding_all rfl⟩

end Environment

end TemplateEngine
