/-
Commas in the dialects of the grammar. A derivation of one dialect is one of another that admits its commas;
a comma before a closing bracket matters only where there is one. In lists and calls the choice of the
greedy dialect, to take a comma after the arguments of a filter into the filter, costs no derivation: the
elements after it become arguments. Between entries it does, as an entry is no argument.
-/
import Mathlib.Data.List.Chain
import TemplateEngine.Proofs.Expr.Completeness

namespace TemplateEngine.ExprGrammar

variable {d d' : Dialect} {l : Level} {ts us : List ExprToken} {t c : ExprToken} {e : Expr}

/-! ## Rows without a comma before a closing bracket -/

/-- No comma stands before a closing bracket. -/
def Tidy (ts : List ExprToken) : Prop :=
  ts.IsChain fun t u => ¬ (t.kind = .symbol .comma ∧ closing u.kind = true)

theorem Tidy.nil : Tidy [] :=
  List.IsChain.nil

theorem Tidy.singleton (t : ExprToken) : Tidy [t] :=
  List.IsChain.singleton t

theorem Tidy.left (h : Tidy (ts ++ us)) : Tidy ts :=
  List.IsChain.left_of_append h

theorem Tidy.right (h : Tidy (ts ++ us)) : Tidy us :=
  List.IsChain.right_of_append h

theorem Tidy.tail (h : Tidy (t :: us)) : Tidy us :=
  List.IsChain.tail h

/-- A token other than a comma may stand before anything. -/
theorem Tidy.cons (ht : t.kind ≠ .symbol .comma) (h : Tidy us) : Tidy (t :: us) :=
  List.isChain_cons.2 ⟨fun _ _ hc => ht hc.1, h⟩

/-- Anything may stand before the first token of an expression. -/
theorem Tidy.cons_starts (hs : ∃ u vs, us = u :: vs ∧ l.Starts u.kind) (h : Tidy us) (t : ExprToken) :
    Tidy (t :: us) := by
  obtain ⟨u, vs, rfl, hu⟩ := hs
  refine List.isChain_cons_cons.2 ⟨?_, h⟩
  rintro ⟨-, hc⟩
  exact Level.Starts.of_none (starter_of_closing hc) hu

/-- Anything may stand after the last token of an expression. -/
theorem Tidy.append (h : Tidy ts) (hf : Finished ts) (h' : Tidy us) : Tidy (ts ++ us) := by
  refine List.isChain_append.2 ⟨h, h', ?_⟩
  rintro u hu v - ⟨hk, -⟩
  have hfin := hf u hu
  rw [hk] at hfin
  cases hfin

theorem Tidy.ops {ops : List ExprToken} {join : Expr → Expr → Expr} (ho : Operator l (ops.map (·.kind)) join)
    (h : Tidy us) : Tidy (ops ++ us) := by
  obtain ⟨⟨k, p⟩, rfl⟩ | ⟨⟨k, p⟩, ⟨k', p'⟩, rfl⟩ := ho.tokens
  · exact h.cons (by cases ho <;> simp)
  · cases ho
    exact (h.cons (by simp)).cons (by simp)

theorem Front.any {e' : Expr} {k : ExprTokenKind} (h : Front l k e e') (f : Expr) : ∃ f', Front l k f f' := by
  cases h with
  | not => exact ⟨_, .not⟩
  | bang => exact ⟨_, .bang⟩
  | minus => exact ⟨_, .minus⟩
  | plus => exact ⟨_, .plus⟩

theorem Front.kind_ne_comma {e' : Expr} {k : ExprTokenKind} (h : Front l k e e') : k ≠ .symbol .comma := by
  cases h <;> nofun

mutual

theorem Derives.tidy (hd : ∀ w, ¬ d.trailing w) {l : Level} {ts : List ExprToken} {e : Expr} :
    Derives d l ts e → Tidy ts
  | .disjunction h => h.tidy hd
  | .conditional hb ht hc hu ho =>
    (hb.tidy hd).append hb.finished
      ((((hc.tidy hd).append hc.finished ((ho.tidy hd).cons (by rw [hu]; nofun))).cons (by rw [ht]; nofun)))
  | .chain _ h hr => (h.tidy hd).append h.finished (hr.tidy hd)
  | .comparison h => h.tidy hd
  | .postfixed h => h.tidy hd
  | .front ht h => (h.tidy hd).cons ht.kind_ne_comma
  | .suffixes h hs => (h.tidy hd).append h.finished (hs.tidy hd)
  | .number _ _ => .singleton _
  | .str _ => .singleton _
  | .constant _ _ => .singleton _
  | .name _ => .singleton _
  | .group ho h _ => ((h.tidy hd).append h.finished (.singleton _)).cons (by rw [ho]; nofun)
  | .list ho h _ => ((h.tidy hd).1.append (h.tidy hd).2 (.singleton _)).cons (by rw [ho]; nofun)
  | .dict ho h _ => ((h.tidy hd).1.append (h.tidy hd).2 (.singleton _)).cons (by rw [ho]; nofun)

theorem Chain.tidy (hd : ∀ w, ¬ d.trailing w) {l : Level} {left : Expr} {ts : List ExprToken} {e : Expr} :
    Chain d l left ts e → Tidy ts
  | .nil => .nil
  | .cons _ ho h hr => .ops ho ((h.tidy hd).append h.finished (hr.tidy hd))

theorem Suffixes.tidy (hd : ∀ w, ¬ d.trailing w) {target : Expr} {ts : List ExprToken} {e : Expr} :
    Suffixes d target ts e → Tidy ts
  | .nil => .nil
  | .member ht hu h => ((h.tidy hd).cons (by rw [hu]; nofun)).cons (by rw [ht]; nofun)
  | .item ho h hc hs =>
    ((h.tidy hd).append h.finished ((hs.tidy hd).cons (by rw [hc]; nofun))).cons (by rw [ho]; nofun)
  | .call ho h hc hs =>
    ((h.tidy hd).1.append (h.tidy hd).2 ((hs.tidy hd).cons (by rw [hc]; nofun))).cons (by rw [ho]; nofun)

theorem Pipeline.tidy (hd : ∀ w, ¬ d.trailing w) {withArgs : Bool} {ts : List ExprToken} {e : Expr} :
    Pipeline d withArgs ts e → Tidy ts
  | .mk h hs => (h.tidy hd).append h.finished (hs.tidy hd)

theorem Stages.tidy (hd : ∀ w, ¬ d.trailing w) {before after : Bool} {value : Expr} {ts : List ExprToken}
    {e : Expr} : Stages d before value ts after e → Tidy ts
  | .nil => .nil
  | .plain ht hu h => ((h.tidy hd).cons (by rw [hu]; nofun)).cons (by rw [ht]; nofun)
  | .withArgs ht hu hc ha h =>
    ((((ha.tidy hd).append ha.finished.2 (h.tidy hd)).cons (by rw [hc]; nofun)).cons (by rw [hu]; nofun)).cons
      (by rw [ht]; nofun)

theorem Arguments.tidy (hd : ∀ w, ¬ d.trailing w) {ts : List ExprToken} {es : List Expr} :
    Arguments d ts es → Tidy ts
  | .one h => h.tidy hd
  | .cons h _ hr => (h.tidy hd).append h.finished ((hr.tidy hd).cons_starts hr.starts _)

theorem Items.tidy (hd : ∀ w, ¬ d.trailing w) {last : Bool} {ts : List ExprToken} {es : List Expr} :
    Items d last ts es → Tidy ts ∧ Finished ts
  | .one h => ⟨h.tidy hd, h.finished⟩
  | .cons h _ _ hr => by
    obtain ⟨htidy, hf⟩ := hr.tidy hd
    have hfirst := h.tidy hd
    exact ⟨hfirst.append h.finished (htidy.cons_starts hr.starts _),
      (hf.cons hr.ne_nil _).append_left (List.cons_ne_nil _ _) _⟩

theorem Elements.tidy (hd : ∀ w, ¬ d.trailing w) {ts : List ExprToken} {es : List Expr} :
    Elements d ts es → Tidy ts ∧ Finished ts
  | .nil => ⟨.nil, .nil⟩
  | .items h => h.tidy hd
  | .trailing _ ht _ => absurd ht (hd _)

theorem Entries.tidy (hd : ∀ w, ¬ d.trailing w) {last : Bool} {ts : List ExprToken} {es : List (Expr × Expr)} :
    Entries d last ts es → Tidy ts ∧ Finished ts
  | .one hk ht hv =>
    ⟨(hk.tidy hd).append hk.finished ((hv.tidy hd).cons (by rw [ht]; nofun)),
      (hv.finished.cons hv.ne_nil _).append_left (List.cons_ne_nil _ _) _⟩
  | @Entries.cons _ _ us _ _ u _ _ _ _ _ hk ht hv _ _ hr => by
    obtain ⟨htidy, hf⟩ := hr.tidy hd
    have hvalue := hv.tidy hd
    have hkey := hk.tidy hd
    have htail := hvalue.append hv.finished (htidy.cons_starts hr.starts u)
    have hlast := (hf.cons hr.ne_nil u).append_left (List.cons_ne_nil _ _) us
    exact ⟨hkey.append hk.finished (htail.cons (by rw [ht]; nofun)),
      (hlast.cons (by simp) _).append_left (List.cons_ne_nil _ _) _⟩

theorem Pairs.tidy (hd : ∀ w, ¬ d.trailing w) {ts : List ExprToken} {es : List (Expr × Expr)} :
    Pairs d ts es → Tidy ts ∧ Finished ts
  | .nil => ⟨.nil, .nil⟩
  | .entries h => h.tidy hd
  | .trailing _ ht _ => absurd ht (hd _)

end

/-! ## One dialect in another -/

/-- The commas between elements and entries of one dialect are admitted by another one. -/
structure Dialect.Includes (d' d : Dialect) : Prop where
  item : ∀ w, d.item w → d'.item w
  entry : ∀ w, d.entry w → d'.entry w

/-- A dialect admits the commas before closing brackets in tokens, which are those that another one admits. -/
def Spared (d d' : Dialect) (ts : List ExprToken) : Prop :=
  (∀ w, d.trailing w → d'.trailing w) ∨ Tidy ts

theorem Spared.left (h : Spared d d' (ts ++ us)) : Spared d d' ts :=
  h.imp_right Tidy.left

theorem Spared.right (h : Spared d d' (ts ++ us)) : Spared d d' us :=
  h.imp_right Tidy.right

theorem Spared.tail (h : Spared d d' (t :: us)) : Spared d d' us :=
  h.imp_right Tidy.tail

/-- The tokens up to the closing bracket. -/
theorem Spared.upto (h : Spared d d' (ts ++ c :: us)) : Spared d d' (ts ++ [c]) := by
  rw [List.append_cons] at h
  exact h.left

theorem Spared.trailing {last : Bool} (h : Spared d d' (ts ++ [t] ++ [c])) (ht : t.kind = .symbol .comma)
    (hc : closing c.kind = true) (hd : d.trailing last) : d'.trailing last := by
  obtain hm | htidy := h
  · exact hm last hd
  · rw [List.append_assoc] at htidy
    exact absurd ⟨ht, hc⟩ (List.isChain_cons_cons.1 htidy.right).1

mutual

theorem Derives.includes (hd : d'.Includes d) {l : Level} {ts : List ExprToken} {e : Expr} :
    Derives d l ts e → Spared d d' ts → Derives d' l ts e
  | .disjunction h, ht => .disjunction (h.includes hd ht)
  | .conditional hb hi hc he ho, ht =>
    .conditional (hb.includes hd ht.left) hi (hc.includes hd ht.right.tail.left) he
      (ho.includes hd ht.right.tail.right.tail)
  | .chain hl h hr, ht => .chain hl (h.includes hd ht.left) (hr.includes hd ht.right)
  | .comparison h, ht => .comparison (h.includes hd ht)
  | .postfixed h, ht => .postfixed (h.includes hd ht)
  | .front hf h, ht => .front hf (h.includes hd ht.tail)
  | .suffixes h hs, ht => .suffixes (h.includes hd ht.left) (hs.includes hd ht.right)
  | .number h hr, _ => .number h hr
  | .str h, _ => .str h
  | .constant h hk, _ => .constant h hk
  | .name h, _ => .name h
  | .group ho h hc, ht => .group ho (h.includes hd ht.tail.left) hc
  | .list ho h hc, ht => .list ho (h.includes hd (by rw [hc]; rfl) ht.tail) hc
  | .dict ho h hc, ht => .dict ho (h.includes hd (by rw [hc]; rfl) ht.tail) hc

theorem Chain.includes (hd : d'.Includes d) {l : Level} {left : Expr} {ts : List ExprToken} {e : Expr} :
    Chain d l left ts e → Spared d d' ts → Chain d' l left ts e
  | .nil, _ => .nil
  | .cons hl ho h hr, ht =>
    .cons hl ho (h.includes hd ht.right.left) (hr.includes hd ht.right.right)

theorem Suffixes.includes (hd : d'.Includes d) {target : Expr} {ts : List ExprToken} {e : Expr} :
    Suffixes d target ts e → Spared d d' ts → Suffixes d' target ts e
  | .nil, _ => .nil
  | .member h hu hs, ht => .member h hu (hs.includes hd ht.tail.tail)
  | .item ho h hc hs, ht => .item ho (h.includes hd ht.tail.left) hc (hs.includes hd ht.tail.right.tail)
  | .call ho h hc hs, ht =>
    .call ho (h.includes hd (by rw [hc]; rfl) ht.tail.upto) hc (hs.includes hd ht.tail.right.tail)

theorem Pipeline.includes (hd : d'.Includes d) {withArgs : Bool} {ts : List ExprToken} {e : Expr} :
    Pipeline d withArgs ts e → Spared d d' ts → Pipeline d' withArgs ts e
  | .mk h hs, ht => .mk (h.includes hd ht.left) (hs.includes hd ht.right)

theorem Stages.includes (hd : d'.Includes d) {before after : Bool} {value : Expr} {ts : List ExprToken} {e : Expr} :
    Stages d before value ts after e → Spared d d' ts → Stages d' before value ts after e
  | .nil, _ => .nil
  | .plain hb hu h, ht => .plain hb hu (h.includes hd ht.tail.tail)
  | .withArgs hb hu hc ha h, ht =>
    .withArgs hb hu hc (ha.includes hd ht.tail.tail.tail.left) (h.includes hd ht.tail.tail.tail.right)

theorem Arguments.includes (hd : d'.Includes d) {ts : List ExprToken} {es : List Expr} :
    Arguments d ts es → Spared d d' ts → Arguments d' ts es
  | .one h, ht => .one (h.includes hd ht)
  | .cons h hc hr, ht => .cons (h.includes hd ht.left) hc (hr.includes hd ht.right.tail)

theorem Items.includes (hd : d'.Includes d) {last : Bool} {ts : List ExprToken} {es : List Expr} :
    Items d last ts es → Spared d d' ts → Items d' last ts es
  | .one h, ht => .one (h.includes hd ht)
  | .cons h hi hc hr, ht => .cons (h.includes hd ht.left) (hd.item _ hi) hc (hr.includes hd ht.right.tail)

theorem Elements.includes (hd : d'.Includes d) {ts : List ExprToken} {es : List Expr} {c : ExprToken} :
    Elements d ts es → closing c.kind = true → Spared d d' (ts ++ [c]) → Elements d' ts es
  | .nil, _, _ => .nil
  | .items h, _, ht => .items (h.includes hd ht.left)
  | .trailing h hl hc, hclose, ht => .trailing (h.includes hd ht.left.left) (ht.trailing hc hclose hl) hc

theorem Entries.includes (hd : d'.Includes d) {last : Bool} {ts : List ExprToken} {es : List (Expr × Expr)} :
    Entries d last ts es → Spared d d' ts → Entries d' last ts es
  | .one hk hc hv, ht => .one (hk.includes hd ht.left) hc (hv.includes hd ht.right.tail)
  | .cons hk hc hv hi hu hr, ht =>
    .cons (hk.includes hd ht.left) hc (hv.includes hd ht.right.tail.left) (hd.entry _ hi) hu
      (hr.includes hd ht.right.tail.right.tail)

theorem Pairs.includes (hd : d'.Includes d) {ts : List ExprToken} {es : List (Expr × Expr)} {c : ExprToken} :
    Pairs d ts es → closing c.kind = true → Spared d d' (ts ++ [c]) → Pairs d' ts es
  | .nil, _, _ => .nil
  | .entries h, _, ht => .entries (h.includes hd ht.left)
  | .trailing h hl hc, hclose, ht => .trailing (h.includes hd ht.left.left) (ht.trailing hc hclose hl) hc

end

/-! ## A comma after the arguments of a filter

Where an element ends with the arguments of a filter, the expression after the comma can be one argument
more, and the filters after that expression go on from there. The value of the element changes with it.
-/

theorem Arguments.append {ts : List ExprToken} {es : List Expr} (ht : t.kind = .symbol .comma)
    (hd : Derives d .conditional us e) : Arguments d ts es → Arguments d (ts ++ t :: us) (es ++ [e])
  | .one h => .cons h ht (.one hd)
  | .cons h hc hr => by
    have ih := hr.append ht hd
    rw [List.append_assoc]
    exact .cons h hc ih

/-- Filters that end with arguments take in one argument more; there may be none after arguments. -/
theorem Stages.extend {before after : Bool} {value : Expr} {ts : List ExprToken} {e' : Expr}
    (ht : t.kind = .symbol .comma) (hd : Derives d .conditional us e) :
    Stages d before value ts after e' → after = true →
      (before = true ∧ ts = []) ∨ ∃ e'', Stages d before value (ts ++ t :: us) true e''
  | .nil, ha => .inl ⟨ha, rfl⟩
  | .plain hb hu hs, ha => by
    obtain ⟨h, -⟩ | ⟨e'', hs'⟩ := hs.extend ht hd ha
    · cases h
    · exact .inr ⟨e'', .plain hb hu hs'⟩
  | .withArgs hb hu hc hargs hs, ha => by
    obtain ⟨-, rfl⟩ | ⟨e'', hs'⟩ := hs.extend ht hd ha
    · have hmore := hargs.append ht hd
      have hlast : Stages d before value _ true _ := .withArgs hb hu hc hmore .nil
      rw [List.append_nil] at hlast ⊢
      exact .inr ⟨_, hlast⟩
    · have hmore : Stages d before value _ true _ := .withArgs hb hu hc hargs hs'
      refine .inr ⟨e'', ?_⟩
      simpa only [List.append_assoc, List.cons_append] using hmore

/-- Filters can follow any value, after arguments as well. -/
theorem Stages.rebase {before after : Bool} {value e : Expr} {ts : List ExprToken} (before' : Bool) (value' : Expr) :
    Stages d before value ts after e → ∃ after' e', Stages d before' value' ts after' e'
  | .nil => ⟨_, _, .nil⟩
  | .plain hb hu hs => by
    obtain ⟨after', e', hs'⟩ := hs.rebase false _
    exact ⟨after', e', .plain hb hu hs'⟩
  | .withArgs hb hu hc ha hs => by
    obtain ⟨after', e', hs'⟩ := hs.rebase true _
    exact ⟨after', e', .withArgs hb hu hc ha hs'⟩

theorem Stages.append {before middle after : Bool} {value m e : Expr} {ts us : List ExprToken} :
    Stages d before value ts middle m → Stages d middle m us after e → Stages d before value (ts ++ us) after e
  | .nil, h => h
  | .plain hb hu hs, h => .plain hb hu (hs.append h)
  | .withArgs hb hu hc ha hs, h => by
    simp only [List.cons_append, List.append_assoc]
    exact .withArgs hb hu hc ha (hs.append h)

/-- A pipeline that ends with arguments and the one after the comma make one pipeline. -/
theorem Pipeline.join {withArgs : Bool} {ts us : List ExprToken} {e e' : Expr} (h : Pipeline d true ts e)
    (ht : t.kind = .symbol .comma) (h' : Pipeline d withArgs us e') :
    ∃ withArgs' e'', Pipeline d withArgs' (ts ++ t :: us) e'' := by
  obtain ⟨hv, hs⟩ := h
  obtain ⟨hv', hs'⟩ := h'
  obtain ⟨hno, -⟩ | ⟨m, hm⟩ := hs.extend ht hv' rfl
  · cases hno
  · obtain ⟨withArgs', e'', hs''⟩ := hs'.rebase true m
    refine ⟨withArgs', e'', ?_⟩
    have hj := Pipeline.mk hv (hm.append hs'')
    simpa only [List.append_assoc, List.cons_append] using hj

/-- An element that ends with arguments takes elements after it in, up to one that does not end so. -/
theorem Items.merge {last : Bool} {t : ExprToken} {ts us : List ExprToken} {es : List Expr} {e : Expr}
    (h : Pipeline .greedy true ts e) (ht : t.kind = .symbol .comma) (hi : Items .greedy last us es) :
    ∃ last' es', Items .greedy last' (ts ++ t :: us) es' := by
  induction es generalizing t ts us e with
  | nil => cases hi
  | cons e' es ih =>
    cases hi with
    | one h' =>
      obtain ⟨withArgs, e'', hj⟩ := h.join ht h'
      exact ⟨withArgs, [e''], .one hj⟩
    | cons h' hd ht' hr =>
      obtain ⟨withArgs, e'', hj⟩ := h.join ht h'
      cases withArgs with
      | false =>
        have hi := Items.cons hj rfl ht' hr
        rw [List.append_assoc] at hi
        exact ⟨_, _, hi⟩
      | true =>
        -- the joined element ends with arguments again and goes on over the next comma
        obtain ⟨last', es', hi⟩ := ih hj ht' hr
        rw [List.append_assoc] at hi
        exact ⟨last', es', hi⟩

/-! ## Taking commas greedily

The tokens of a derivation in which no entry before another one ends with the arguments of a filter have a
derivation in the greedy dialect.
-/

mutual

theorem Derives.settle {l : Level} {ts : List ExprToken} {e : Expr} :
    Derives .closedEntries l ts e → ∃ e', Derives .greedy l ts e'
  | .disjunction h => by
    obtain ⟨e', h'⟩ := h.settle
    exact ⟨e', .disjunction h'⟩
  | .conditional hb ht hc hu ho => by
    obtain ⟨b, hb'⟩ := hb.settle
    obtain ⟨c, hc'⟩ := hc.settle
    obtain ⟨o, ho'⟩ := ho.settle
    exact ⟨_, .conditional hb' ht hc' hu ho'⟩
  | .chain hl h hr => by
    obtain ⟨first, h'⟩ := h.settle
    obtain ⟨e', hr'⟩ := hr.settle first
    exact ⟨e', .chain hl h' hr'⟩
  | .comparison h => by
    obtain ⟨e', h'⟩ := h.settle
    exact ⟨e', .comparison h'⟩
  | .postfixed h => by
    obtain ⟨e', h'⟩ := h.settle
    exact ⟨e', .postfixed h'⟩
  | .front ht h => by
    obtain ⟨e', h'⟩ := h.settle
    obtain ⟨e'', ht'⟩ := ht.any e'
    exact ⟨e'', .front ht' h'⟩
  | .suffixes h hs => by
    obtain ⟨first, h'⟩ := h.settle
    obtain ⟨e', hs'⟩ := hs.settle first
    exact ⟨e', .suffixes h' hs'⟩
  | .number ht hr => ⟨_, .number ht hr⟩
  | .str ht => ⟨_, .str ht⟩
  | .constant ht hk => ⟨_, .constant ht hk⟩
  | .name ht => ⟨_, .name ht⟩
  | .group ho h hc => by
    obtain ⟨e', h'⟩ := h.settle
    exact ⟨e', .group ho h' hc⟩
  | .list ho h hc => by
    obtain ⟨es', h'⟩ := h.settle
    exact ⟨_, .list ho h' hc⟩
  | .dict ho h hc => by
    obtain ⟨es', h'⟩ := h.settle
    exact ⟨_, .dict ho h' hc⟩

theorem Chain.settle {l : Level} {left : Expr} {ts : List ExprToken} {e : Expr} :
    Chain .closedEntries l left ts e → ∀ left', ∃ e', Chain .greedy l left' ts e'
  | .nil => fun left' => ⟨left', .nil⟩
  | .cons hl ho h hr => fun left' => by
    obtain ⟨right, h'⟩ := h.settle
    obtain ⟨e', hr'⟩ := hr.settle _
    exact ⟨e', .cons hl ho h' hr'⟩

theorem Suffixes.settle {target : Expr} {ts : List ExprToken} {e : Expr} :
    Suffixes .closedEntries target ts e → ∀ target', ∃ e', Suffixes .greedy target' ts e'
  | .nil => fun target' => ⟨target', .nil⟩
  | .member ht hu hs => fun target' => by
    obtain ⟨e', hs'⟩ := hs.settle _
    exact ⟨e', .member ht hu hs'⟩
  | .item ho h hc hs => fun target' => by
    obtain ⟨key, h'⟩ := h.settle
    obtain ⟨e', hs'⟩ := hs.settle _
    exact ⟨e', .item ho h' hc hs'⟩
  | .call ho h hc hs => fun target' => by
    obtain ⟨args, h'⟩ := h.settle
    obtain ⟨e', hs'⟩ := hs.settle _
    exact ⟨e', .call ho h' hc hs'⟩

theorem Pipeline.settle {withArgs : Bool} {ts : List ExprToken} {e : Expr} :
    Pipeline .closedEntries withArgs ts e → ∃ e', Pipeline .greedy withArgs ts e'
  | .mk h hs => by
    obtain ⟨value, h'⟩ := h.settle
    obtain ⟨e', hs'⟩ := hs.settle value
    exact ⟨e', .mk h' hs'⟩

theorem Stages.settle {before after : Bool} {value : Expr} {ts : List ExprToken} {e : Expr} :
    Stages .closedEntries before value ts after e → ∀ value', ∃ e', Stages .greedy before value' ts after e'
  | .nil => fun value' => ⟨value', .nil⟩
  | .plain ht hu hs => fun value' => by
    obtain ⟨e', hs'⟩ := hs.settle _
    exact ⟨e', .plain ht hu hs'⟩
  | .withArgs ht hu hc ha hs => fun value' => by
    obtain ⟨args, ha'⟩ := ha.settle
    obtain ⟨e', hs'⟩ := hs.settle _
    exact ⟨e', .withArgs ht hu hc ha' hs'⟩

theorem Arguments.settle {ts : List ExprToken} {es : List Expr} :
    Arguments .closedEntries ts es → ∃ es', Arguments .greedy ts es'
  | .one h => by
    obtain ⟨e', h'⟩ := h.settle
    exact ⟨[e'], .one h'⟩
  | .cons h ht hr => by
    obtain ⟨e', h'⟩ := h.settle
    obtain ⟨es', hr'⟩ := hr.settle
    exact ⟨e' :: es', .cons h' ht hr'⟩

theorem Items.settle {last : Bool} {ts : List ExprToken} {es : List Expr} :
    Items .closedEntries last ts es → ∃ last' es', Items .greedy last' ts es'
  | .one h => by
    obtain ⟨e', h'⟩ := h.settle
    exact ⟨_, [e'], .one h'⟩
  | @Items.cons _ _ _ _ withArgs _ _ _ h _ ht hr => by
    obtain ⟨e', h'⟩ := h.settle
    obtain ⟨last', es', hr'⟩ := hr.settle
    cases withArgs with
    | false => exact ⟨last', e' :: es', .cons h' rfl ht hr'⟩
    -- `greedy` separates no element that ends with arguments from the next: the two become one
    | true => exact hr'.merge h' ht

theorem Elements.settle {ts : List ExprToken} {es : List Expr} :
    Elements .closedEntries ts es → ∃ es', Elements .greedy ts es'
  | .nil => ⟨[], .nil⟩
  | .items h => by
    obtain ⟨last', es', h'⟩ := h.settle
    exact ⟨es', .items h'⟩
  | .trailing _ hd _ => hd.elim

theorem Entries.settle {last : Bool} {ts : List ExprToken} {es : List (Expr × Expr)} :
    Entries .closedEntries last ts es → ∃ es', Entries .greedy last ts es'
  | .one hk ht hv => by
    obtain ⟨key, hk'⟩ := hk.settle
    obtain ⟨value, hv'⟩ := hv.settle
    exact ⟨_, .one hk' ht hv'⟩
  | .cons hk ht hv hd hu hr => by
    obtain ⟨key, hk'⟩ := hk.settle
    obtain ⟨value, hv'⟩ := hv.settle
    obtain ⟨es', hr'⟩ := hr.settle
    exact ⟨_, .cons hk' ht hv' hd hu hr'⟩

theorem Pairs.settle {ts : List ExprToken} {es : List (Expr × Expr)} :
    Pairs .closedEntries ts es → ∃ es', Pairs .greedy ts es'
  | .nil => ⟨[], .nil⟩
  | .entries h => by
    obtain ⟨es', h'⟩ := h.settle
    exact ⟨es', .entries h'⟩
  | .trailing _ hd _ => hd.elim

end

end TemplateEngine.ExprGrammar
