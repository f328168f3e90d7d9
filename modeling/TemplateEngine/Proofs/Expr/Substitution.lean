/-
Expressions in place of names. An expression in which others stand for its names has the value that it has where the names
mean the values of these, but that the new `nan`s of the two evaluations are others.
-/
import TemplateEngine.Proofs.Callable.Renaming
import TemplateEngine.Proofs.Expr.Faults

namespace TemplateEngine

/-! ## Substitution -/

namespace Expr

mutual

/-- The expression with others in place of its names. -/
def subst (f : String → Expr) : Expr → Expr
  | literal l => literal l
  | name n => f n
  | member target n => member (subst f target) n
  | item target key => item (subst f target) (subst f key)
  | call function args => call (subst f function) (substAll f args)
  | unary op operand => unary op (subst f operand)
  | binary op left right => binary op (subst f left) (subst f right)
  | logical op left right => logical op (subst f left) (subst f right)
  | not operand => not (subst f operand)
  | compare op left right => compare op (subst f left) (subst f right)
  | conditional body condition orElse => conditional (subst f body) (subst f condition) (subst f orElse)
  | list items => list (substAll f items)
  | dict entries => dict (substEntries f entries)
  | filter value n args => filter (subst f value) n (substAll f args)

/-- Some expressions with others in place of their names. -/
def substAll (f : String → Expr) : List Expr → List Expr
  | [] => []
  | e :: es => subst f e :: substAll f es

/-- Some entries with expressions in place of their names. -/
def substEntries (f : String → Expr) : List (Expr × Expr) → List (Expr × Expr)
  | [] => []
  | (k, v) :: es => (subst f k, subst f v) :: substEntries f es

end

section

variable {f : String → Expr}

mutual

/-- An expression in which others are put is shown as before if they are. -/
theorem isShown_subst (hf : ∀ n, (f n).isShown = true) : ∀ e : Expr, (e.subst f).isShown = e.isShown
  | literal _ => rfl
  | name n => hf n
  | member target _ => isShown_subst hf target
  | item target key => by rw [subst, isShown, isShown, isShown_subst hf target, isShown_subst hf key]
  | call function args => by rw [subst, isShown, isShown, isShown_subst hf function, allShown_subst hf args]
  | unary _ operand => isShown_subst hf operand
  | binary _ left right => by rw [subst, isShown, isShown, isShown_subst hf left, isShown_subst hf right]
  | logical _ left right => by rw [subst, isShown, isShown, isShown_subst hf left, isShown_subst hf right]
  | not operand => isShown_subst hf operand
  | compare _ left right => by rw [subst, isShown, isShown, isShown_subst hf left, isShown_subst hf right]
  | conditional body condition orElse => by
    rw [subst, isShown, isShown, isShown_subst hf body, isShown_subst hf condition, isShown_subst hf orElse]
  | list items => allShown_subst hf items
  | dict entries => allEntriesShown_subst hf entries
  | filter value _ args => by rw [subst, isShown, isShown, isShown_subst hf value, allShown_subst hf args]

theorem allShown_subst (hf : ∀ n, (f n).isShown = true) : ∀ es : List Expr, allShown (substAll f es) = allShown es
  | [] => rfl
  | e :: es => by rw [substAll, allShown, allShown, isShown_subst hf e, allShown_subst hf es]

theorem allEntriesShown_subst (hf : ∀ n, (f n).isShown = true) :
    ∀ es : List (Expr × Expr), allEntriesShown (substEntries f es) = allEntriesShown es
  | [] => rfl
  | (k, v) :: es => by
    rw [substEntries, allEntriesShown, allEntriesShown, isShown_subst hf k, isShown_subst hf v, allEntriesShown_subst hf es]

end

end

end Expr

/-! ## Computations side by side -/

/-- A change of marks that leaves the older marks alone and changes what is in use as another one does. -/
structure Renaming.ExtendsTo (level : Nat) (inUse : List Value) (σ τ : Renaming) : Prop where
  fixes : τ.Fixes level
  inUse : ∀ u ∈ inUse, u.rename τ = u.rename σ

/-- Two computations that run side by side: both fail, or the outcome of one is that of the other, changed in the same way
as what is in use meanwhile. -/
def Tracks {α : Type} (act : Renaming → α → α) (level : Nat) (inUse : List Value) (σ : Renaming)
    (r r' : Except Failure α) : Prop :=
  Fails r ∧ Fails r' ∨ ∃ a τ, r = .ok a ∧ r' = .ok (act τ a) ∧ Renaming.ExtendsTo level inUse σ τ

namespace Tracks

variable {α β : Type} {act : Renaming → α → α} {act' : Renaming → β → β} {level : Nat} {inUse : List Value}
  {σ : Renaming}

theorem fails {r r' : Except Failure α} (h : Fails r) (h' : Fails r') : Tracks act level inUse σ r r' :=
  .inl ⟨h, h'⟩

theorem ok (hσ : σ.Fixes level) {a a' : α} (h : a' = act σ a) : Tracks act level inUse σ (.ok a) (.ok a') :=
  .inr ⟨a, σ, rfl, by rw [h], hσ, fun _ _ => rfl⟩

/-- An operation whose outcome changes with its operands. -/
theorem of_map (hσ : σ.Fixes level) {r r' : Except Failure α} (h : r' = act σ <$> r) : Tracks act level inUse σ r r' := by
  subst h
  cases r with
  | ok a => exact ok hσ rfl
  | error e => exact fails ⟨e, rfl⟩ ⟨e, rfl⟩

/-- Operations that succeed alike. -/
theorem of_ok (hσ : σ.Fixes level) {r r' : Except Failure α} (h : ∀ a, r = .ok a → r' = .ok (act σ a))
    (h' : ∀ a', r' = .ok a' → ∃ a, r = .ok a) : Tracks act level inUse σ r r' := by
  cases r with
  | ok a => exact .inr ⟨a, σ, rfl, h a rfl, hσ, fun _ _ => rfl⟩
  | error e =>
    cases r' with
    | ok a' =>
      obtain ⟨a, ha⟩ := h' a' rfl
      cases ha
    | error e' => exact fails ⟨e, rfl⟩ ⟨e', rfl⟩

/-- What goes on from an extension goes on from what is extended. -/
theorem trans {τ : Renaming} {r r' : Except Failure α} (hτ : Renaming.ExtendsTo level inUse σ τ)
    (h : Tracks act level inUse τ r r') : Tracks act level inUse σ r r' := by
  obtain h | ⟨a, ρ, ha, ha', hρ⟩ := h
  · exact .inl h
  · exact .inr ⟨a, ρ, ha, ha', hρ.fixes, fun u hu => (hρ.inUse u hu).trans (hτ.inUse u hu)⟩

/-- More may be in use. -/
theorem mono {inUse' : List Value} {r r' : Except Failure α} (h : Tracks act level inUse' σ r r')
    (hsub : inUse ⊆ inUse') : Tracks act level inUse σ r r' := by
  obtain h | ⟨a, τ, ha, ha', hτ⟩ := h
  · exact .inl h
  · exact .inr ⟨a, τ, ha, ha', hτ.fixes, fun u hu => hτ.inUse u (hsub hu)⟩

theorem bind {r r' : Except Failure α} {k k' : α → Except Failure β} (h : Tracks act level inUse σ r r')
    (hk : ∀ a τ, Renaming.ExtendsTo level inUse σ τ → Tracks act' level inUse τ (k a) (k' (act τ a))) :
    Tracks act' level inUse σ (r >>= k) (r' >>= k') := by
  obtain ⟨⟨e, rfl⟩, e', rfl⟩ | ⟨a, τ, rfl, rfl, hτ⟩ := h
  · exact fails ⟨e, rfl⟩ ⟨e', rfl⟩
  · exact trans hτ (hk a τ hτ)

/-- A computation runs while a value is held that is used after it. -/
theorem bind_holding {v : Value} {r r' : Except Failure α} {k k' : α → Except Failure β}
    (h : Tracks act level (v :: inUse) σ r r')
    (hk : ∀ a τ, Renaming.ExtendsTo level inUse σ τ → v.rename τ = v.rename σ →
      Tracks act' level inUse τ (k a) (k' (act τ a))) : Tracks act' level inUse σ (r >>= k) (r' >>= k') := by
  obtain ⟨⟨e, rfl⟩, e', rfl⟩ | ⟨a, τ, rfl, rfl, hτ⟩ := h
  · exact fails ⟨e, rfl⟩ ⟨e', rfl⟩
  · have hrest : Renaming.ExtendsTo level inUse σ τ := ⟨hτ.fixes, fun u hu => hτ.inUse u (List.mem_cons_of_mem v hu)⟩
    exact trans hrest (hk a τ hrest (hτ.inUse v List.mem_cons_self))

/-- A message is put together on both sides or on none. -/
theorem shown {e e' : Expr} (he : e'.isShown = e.isShown) {k k' : String → Except Failure α}
    (h : ∀ shown shown', Tracks act level inUse σ (k shown) (k' shown')) :
    Tracks act level inUse σ (liftFault e.shown >>= k) (liftFault e'.shown >>= k') := by
  unfold Expr.shown
  rw [he]
  split
  · exact h _ _
  · exact fails ⟨_, rfl⟩ ⟨_, rfl⟩

end Tracks

namespace Evaluator

variable (ev : Evaluator) (f : String → Expr) (level : Nat)

/-- Two scopes of which one gives to expressions what the other gives to names, and these values are older than what is made
in either scope. -/
structure Side (σ : Renaming) (s s' : Scope) : Prop where
  fixes : σ.Fixes level
  level_le : level ≤ s.level
  level_le' : level ≤ s'.level
  inUse : ∀ u ∈ s.inUse, u.rename σ ∈ s'.inUse
  filter : ∀ n, s'.filter? n = s.filter? n
  names : ∀ n held, (∀ u ∈ s'.inUse, u ∈ held) →
    Fails (ev.nameValue s n) ∧ Fails (ev.eval { s' with inUse := held } (f n)) ∨
      ∃ v, v.Before level ∧ ev.nameValue s n = .ok v ∧ ev.eval { s' with inUse := held } (f n) = .ok v

variable {ev f level} {σ τ : Renaming} {s s' : Scope}

namespace Side

theorem extend (h : Side ev f level σ s s') (hτ : Renaming.ExtendsTo level s.inUse σ τ) : Side ev f level τ s s' where
  fixes := hτ.fixes
  level_le := h.level_le
  level_le' := h.level_le'
  inUse u hu := by
    rw [hτ.inUse u hu]
    exact h.inUse u hu
  filter := h.filter
  names := h.names

theorem holding (h : Side ev f level σ s s') (v : Value) : Side ev f level σ (s.holding v) (s'.holding (v.rename σ)) where
  fixes := h.fixes
  level_le := h.level_le
  level_le' := h.level_le'
  inUse u hu := by
    rcases List.mem_cons.1 hu with rfl | hu
    · exact List.mem_cons_self
    · exact List.mem_cons_of_mem _ (h.inUse u hu)
  filter := h.filter
  names n held hheld := h.names n held fun u hu => hheld u (List.mem_cons_of_mem _ hu)

theorem not_before_next {s : Scope} (h : level ≤ s.level) :
    ¬ (Mark.made s.level (Value.indexBoundOfItems s.level s.inUse)).Before level :=
  Nat.not_lt_of_le h

/-- A value is settled on both sides: where it is no number, the new marks are put side by side. -/
theorem settle (h : Side ev f level σ s s') (v : Value) :
    Tracks Value.rename level s.inUse σ (.ok (s.settle v)) (.ok (s'.settle (v.rename σ))) := by
  unfold Scope.settle
  cases v with
  | float x =>
    show Tracks _ _ _ _ (.ok (if x.isNaN then _ else _)) (.ok (if x.isNaN then _ else _))
    split
    · -- each of the two new marks is in no value that is in use on its side
      have hnew : ¬ ∃ u ∈ s.inUse, u.Has (.nan (.made s.level (Value.indexBoundOfItems s.level s.inUse))) :=
        fun ⟨u, hu, hm⟩ => Value.not_has_next hu hm
      have hnew' (m : Mark) (hm : ∃ u ∈ s.inUse, u.Has (.nan m)) :
          σ m ≠ .made s'.level (Value.indexBoundOfItems s'.level s'.inUse) := by
        obtain ⟨u, hu, hm⟩ := hm
        intro heq
        have hm' := hm.rename σ
        rw [Value.rename_nan, heq] at hm'
        exact Value.not_has_next (h.inUse u hu) hm'
      obtain ⟨τ, hτ, hnext, hkept⟩ := h.fixes.exists_extension (not_before_next h.level_le) (not_before_next h.level_le')
        hnew hnew'
      exact .inr ⟨_, τ, rfl, by rw [Value.rename_nan, hnext], hτ, fun u hu =>
        Value.rename_congr u fun m hm => hkept m ⟨u, hu, hm⟩⟩
    · exact .ok h.fixes rfl
  | _ => exact .ok h.fixes rfl

/-- The outcomes of an operation are settled. -/
theorem settled (h : Side ev f level σ s s') {r r' : Except Failure Value}
    (hr : Tracks Value.rename level s.inUse σ r r') :
    Tracks Value.rename level s.inUse σ (s.settle <$> r) (s'.settle <$> r') := by
  rw [map_eq_pure_bind, map_eq_pure_bind]
  exact hr.bind fun v τ hτ => (h.extend hτ).settle v

end Side

/-! ## Operations of two expressions -/

/-- What describes the faults of a call makes no difference to its success. -/
theorem tracks_describe {inUse : List Value} (error error' : Fault → EvalError) {r r' : Except Failure Value}
    (hr : Tracks Value.rename level inUse σ r r') :
    Tracks Value.rename level inUse σ (describe error r) (describe error' r') := by
  have hfails (error : Fault → EvalError) {r : Except Failure Value} : Fails r → Fails (describe error r) := by
    rintro ⟨e, rfl⟩
    cases e <;> exact ⟨_, rfl⟩
  obtain ⟨h, h'⟩ | ⟨v, τ, rfl, rfl, hτ⟩ := hr
  · exact .fails (hfails error h) (hfails error' h')
  · exact .inr ⟨v, τ, rfl, rfl, hτ⟩

theorem applyBinary_eq_ok {memory : Nat} {e : Expr} {op : BinaryOp} {l r v : Value} :
    applyBinary memory e op l r = .ok v ↔ op.result memory l r = .ok v := by
  by_cases hop : op = .concat
  · subst hop
    exact mapError_eq_ok
  · rw [applyBinary_eq hop]
    cases op.result memory l r with
    | ok w =>
      rw [checked]
      simp
    | error fault =>
      refine iff_of_false ?_ nofun
      cases fault <;> first
      | exact shown_ne_ok
      | nofun

theorem applyCompare_eq_ok {e : Expr} {op : CompareOp} {l r v : Value} :
    applyCompare e op l r = .ok v ↔ ∃ b, compareValues op l r = .ok b ∧ v = .bool b := by
  unfold applyCompare
  cases compareValues op l r with
  | ok b => simp [eq_comm]
  | error fault =>
    refine iff_of_false ?_ (by simp)
    cases fault <;> first
    | exact shown_ne_ok
    | nofun

theorem tracks_applyBinary (hσ : σ.Fixes level) (inUse : List Value) (memory : Nat) (e e' : Expr) (op : BinaryOp)
    (l r : Value) : Tracks Value.rename level inUse σ (applyBinary memory e op l r)
      (applyBinary memory e' op (l.rename σ) (r.rename σ)) := by
  refine .of_ok hσ (fun v hv => ?_) fun v hv => ?_
  · rw [applyBinary_eq_ok, Value.result_rename, applyBinary_eq_ok.1 hv]
    rfl
  · rw [applyBinary_eq_ok, Value.result_rename] at hv
    obtain ⟨w, hw, -⟩ := map_eq_ok.1 hv
    exact ⟨w, applyBinary_eq_ok.2 hw⟩

theorem tracks_applyCompare (hσ : σ.Fixes level) (inUse : List Value) (e e' : Expr) (op : CompareOp) (l r : Value) :
    Tracks Value.rename level inUse σ (applyCompare e op l r) (applyCompare e' op (l.rename σ) (r.rename σ)) := by
  refine .of_ok hσ (fun v hv => ?_) fun v hv => ?_
  · obtain ⟨b, hb, rfl⟩ := applyCompare_eq_ok.1 hv
    rw [applyCompare_eq_ok, compareValues_rename]
    exact ⟨b, hb, rfl⟩
  · rw [applyCompare_eq_ok, compareValues_rename] at hv
    exact ⟨v, applyCompare_eq_ok.2 hv⟩

/-- A failure that shows a value is a failure, whether or not the value can be shown. -/
theorem fails_of_shown {α : Type} (v : Value) {k : String → Failure} :
    Fails (do let shown ← liftFault v.quotedForm; (.error (k shown) : Except Failure α)) := by
  cases v.quotedForm <;> exact ⟨_, rfl⟩

/-! ## Expressions side by side -/

theorem mem_insertEntry {k v : Value} {es : List (Value × Value)} {e : Value × Value} (h : e ∈ insertEntry k v es) :
    (e.1 = k ∨ ∃ e' ∈ es, e'.1 = e.1) ∧ (e.2 = v ∨ ∃ e' ∈ es, e'.2 = e.2) := by
  induction es with
  | nil =>
    cases List.mem_singleton.1 h
    exact ⟨.inl rfl, .inl rfl⟩
  | cons e' es ih =>
    obtain ⟨k', v'⟩ := e'
    rw [insertEntry] at h
    split at h
    · rcases List.mem_cons.1 h with rfl | h
      · exact ⟨.inr ⟨_, List.mem_cons_self, rfl⟩, .inl rfl⟩
      · exact ⟨.inr ⟨e, List.mem_cons_of_mem _ h, rfl⟩, .inr ⟨e, List.mem_cons_of_mem _ h, rfl⟩⟩
    · rcases List.mem_cons.1 h with rfl | h
      · exact ⟨.inr ⟨_, List.mem_cons_self, rfl⟩, .inr ⟨_, List.mem_cons_self, rfl⟩⟩
      · obtain ⟨hkey, hvalue⟩ := ih h
        constructor
        · obtain hkey | ⟨e', he', hkey⟩ := hkey
          · exact .inl hkey
          · exact .inr ⟨e', List.mem_cons_of_mem _ he', hkey⟩
        · obtain hvalue | ⟨e', he', hvalue⟩ := hvalue
          · exact .inl hvalue
          · exact .inr ⟨e', List.mem_cons_of_mem _ he', hvalue⟩

mutual

theorem tracks_eval (hp : ev.host.Pure) (hf : ∀ n, (f n).isShown = true) : ∀ (e : Expr) {σ : Renaming} {s s' : Scope},
    Side ev f level σ s s' → Tracks Value.rename level s.inUse σ (ev.eval s e) (ev.eval s' (e.subst f))
  | .literal l, σ, s, s', h => by
    rw [Expr.subst, eval, eval]
    exact .ok h.fixes (by cases l <;> rfl)
  | .name n, σ, s, s', h => by
    rw [Expr.subst, eval]
    obtain ⟨hn, hn'⟩ | ⟨v, hv, hn, hn'⟩ := h.names n s'.inUse fun _ hu => hu
    · exact .fails hn hn'
    · exact .inr ⟨v, σ, hn, hn'.trans (by rw [hv.rename_eq h.fixes]), h.fixes, fun _ _ => rfl⟩
  | .member target n, σ, s, s', h => by
    rw [Expr.subst, eval, eval]
    exact (tracks_eval hp hf target h).bind fun t τ hτ =>
      .of_map hτ.fixes (memberOf_rename τ ev (hp.attributes τ (hτ.fixes.mono (Nat.zero_le _))) t n)
  | .item target key, σ, s, s', h => by
    rw [Expr.subst, eval, eval]
    refine (tracks_eval hp hf target h).bind fun t τ hτ => ?_
    refine (tracks_eval hp hf key ((h.extend hτ).holding t)).bind_holding fun k ρ hρ ht => ?_
    rw [← ht]
    exact .of_map hρ.fixes (itemOf_rename ρ ev t k)
  | .call function args, σ, s, s', h => by
    rw [Expr.subst, eval, eval]
    refine (tracks_eval hp hf function h).bind fun c τ hτ => ?_
    have hshown := Expr.isShown_subst hf function
    cases c with
    | callable c =>
      refine (tracks_evalAll hp hf args (h.extend hτ)).bind fun vs ρ hρ => ?_
      refine .shown hshown fun shown shown' => ?_
      exact ((h.extend hτ).extend hρ).settled (tracks_describe _ _ (.of_map hρ.fixes
        (c.apply_rename hp (hρ.fixes.mono (Nat.zero_le level)) vs)))
    | _ => exact .shown hshown fun _ _ => .fails ⟨_, rfl⟩ ⟨_, rfl⟩
  | .unary op operand, σ, s, s', h => by
    rw [Expr.subst, eval, eval]
    refine (tracks_eval hp hf operand h).bind fun v τ hτ => ?_
    exact (h.extend hτ).settled (.of_map hτ.fixes (applyUnary_rename τ op v))
  | .binary op left right, σ, s, s', h => by
    rw [Expr.subst, eval, eval]
    refine (tracks_eval hp hf left h).bind fun l τ hτ => ?_
    refine (tracks_eval hp hf right ((h.extend hτ).holding l)).bind_holding fun r ρ hρ hl => ?_
    rw [← hl]
    exact ((h.extend hτ).extend hρ).settled (tracks_applyBinary hρ.fixes _ _ _ _ op l r)
  | .logical op left right, σ, s, s', h => by
    rw [Expr.subst, eval, eval]
    refine (tracks_eval hp hf left h).bind fun l τ hτ => ?_
    cases op <;> dsimp only <;> rw [Value.truthy_rename] <;> split
    · exact tracks_eval hp hf right (h.extend hτ)
    · exact .ok hτ.fixes rfl
    · exact .ok hτ.fixes rfl
    · exact tracks_eval hp hf right (h.extend hτ)
  | .not operand, σ, s, s', h => by
    rw [Expr.subst, eval, eval]
    refine (tracks_eval hp hf operand h).bind fun v τ hτ => ?_
    rw [Value.truthy_rename]
    exact .ok hτ.fixes rfl
  | .compare op left right, σ, s, s', h => by
    rw [Expr.subst, eval, eval]
    refine (tracks_eval hp hf left h).bind fun l τ hτ => ?_
    refine (tracks_eval hp hf right ((h.extend hτ).holding l)).bind_holding fun r ρ hρ hl => ?_
    rw [← hl]
    exact tracks_applyCompare hρ.fixes _ _ _ op l r
  | .conditional body condition orElse, σ, s, s', h => by
    rw [Expr.subst, eval, eval]
    refine (tracks_eval hp hf condition h).bind fun c τ hτ => ?_
    rw [Value.truthy_rename]
    split
    · exact tracks_eval hp hf body (h.extend hτ)
    · exact tracks_eval hp hf orElse (h.extend hτ)
  | .list items, σ, s, s', h => by
    rw [Expr.subst, eval, eval]
    exact (tracks_evalAll hp hf items h).bind fun vs τ hτ => .ok hτ.fixes (Value.rename_list τ vs).symm
  | .dict entries, σ, s, s', h => by
    rw [Expr.subst, eval, eval]
    exact (tracks_evalEntries hp hf entries h (List.forall_mem_nil _)).bind fun es τ hτ =>
      .ok hτ.fixes (Value.rename_dict τ es).symm
  | .filter value n args, σ, s, s', h => by
    rw [Expr.subst, eval, eval, h.filter]
    cases s.filter? n with
    | none => exact .fails ⟨_, rfl⟩ ⟨_, rfl⟩
    | some c =>
      refine (tracks_eval hp hf value h).bind fun v τ hτ => ?_
      refine (tracks_evalAll hp hf args ((h.extend hτ).holding v)).bind_holding fun vs ρ hρ hv => ?_
      rw [← hv]
      exact ((h.extend hτ).extend hρ).settled (tracks_describe _ _ (.of_map hρ.fixes
        (c.apply_rename hp (hρ.fixes.mono (Nat.zero_le level)) (v :: vs))))

theorem tracks_evalAll (hp : ev.host.Pure) (hf : ∀ n, (f n).isShown = true) : ∀ (es : List Expr) {σ : Renaming}
    {s s' : Scope}, Side ev f level σ s s' →
    Tracks (fun τ => List.map (Value.rename τ)) level s.inUse σ (ev.evalAll s es) (ev.evalAll s' (Expr.substAll f es))
  | [], σ, s, s', h => .ok h.fixes rfl
  | e :: es, σ, s, s', h => by
    rw [Expr.substAll, evalAll, evalAll]
    refine (tracks_eval hp hf e h).bind fun v τ hτ => ?_
    refine (tracks_evalAll hp hf es ((h.extend hτ).holding v)).bind_holding fun vs ρ hρ hv => ?_
    rw [← hv]
    exact .ok hρ.fixes rfl

theorem tracks_evalEntries (hp : ev.host.Pure) (hf : ∀ n, (f n).isShown = true) : ∀ (es : List (Expr × Expr))
    {done : List (Value × Value)} {σ : Renaming} {s s' : Scope}, Side ev f level σ s s' →
    (∀ e ∈ done, e.1 ∈ s.inUse ∧ e.2 ∈ s.inUse) →
    Tracks (fun τ => List.map (Prod.map (Value.rename τ) (Value.rename τ))) level s.inUse σ (ev.evalEntries s done es)
      (ev.evalEntries s' (done.map (Prod.map (Value.rename σ) (Value.rename σ))) (Expr.substEntries f es))
  | [], done, σ, s, s', h, _ => .ok h.fixes rfl
  | (key, value) :: es, done, σ, s, s', h, hdone => by
    rw [Expr.substEntries, evalEntries, evalEntries]
    refine (tracks_eval hp hf key h).bind fun k τ hτ => ?_
    refine (tracks_eval hp hf value ((h.extend hτ).holding k)).bind_holding fun v ρ hρ hk => ?_
    rw [← hk, Value.checkKey_rename]
    cases k.checkKey with
    | error fault => exact .fails (fails_of_shown k) (fails_of_shown _)
    | ok _ =>
      have hside := (((h.extend hτ).extend hρ).holding k).holding v
      -- the entries so far are in use, so that they have changed as before
      have hdone' : done.map (Prod.map (Value.rename σ) (Value.rename σ)) =
          done.map (Prod.map (Value.rename ρ) (Value.rename ρ)) := by
        refine List.map_congr_left fun e he => ?_
        obtain ⟨h₁, h₂⟩ := hdone e he
        rw [Prod.map, Prod.map, ← hτ.inUse e.1 h₁, ← hτ.inUse e.2 h₂, ← hρ.inUse e.1 h₁, ← hρ.inUse e.2 h₂]
      have hinserted : ∀ e ∈ insertEntry k v done,
          e.1 ∈ ((s.holding k).holding v).inUse ∧ e.2 ∈ ((s.holding k).holding v).inUse := by
        intro e he
        obtain ⟨hkey, hvalue⟩ := mem_insertEntry he
        constructor
        · obtain hkey | ⟨e', he', hkey⟩ := hkey
          · rw [hkey]
            exact List.mem_cons_of_mem v List.mem_cons_self
          · rw [← hkey]
            exact List.mem_cons_of_mem v (List.mem_cons_of_mem k (hdone e' he').1)
        · obtain hvalue | ⟨e', he', hvalue⟩ := hvalue
          · rw [hvalue]
            exact List.mem_cons_self
          · rw [← hvalue]
            exact List.mem_cons_of_mem v (List.mem_cons_of_mem k (hdone e' he').2)
      dsimp only
      rw [hdone', insertEntry_rename]
      exact (tracks_evalEntries hp hf es hside hinserted).mono fun u hu => List.mem_cons_of_mem v (List.mem_cons_of_mem k hu)

end

end Evaluator

end TemplateEngine
