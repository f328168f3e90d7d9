/-
Reading the text of an expression. Operations are written in brackets and constants in quotes or as plain digits, so that
the text of an expression ends by itself: whatever follows, its tokens are those of a primary expression with its
members, items and calls, and the expression is derived from them. So what is written is read again, for all
expressions but those with signs, negations and filters, which are written without brackets.
-/
import TemplateEngine.Expr.Printer
import TemplateEngine.Proofs.Expr.Scanning

namespace TemplateEngine

open Text ExprGrammar

/-! ## Expressions whose text ends by itself -/

/-- A name of the expression language that is no keyword. -/
def isPlainName (n : String) : Bool :=
  match n.toList with
  | [] => false
  | c :: cs => isNameStart c && cs.all isNameChar && (Keyword.ofWord? n).isNone

/-- A constant that is written as a number without a sign, or as visible characters in quotes. -/
def Literal.isPlain : Literal → Bool
  | int n => 0 ≤ n && (Number.intText? n).isSome
  | str s => s.toList.all fun c => 32 ≤ c.toNat && c.toNat < 127
  | _ => false

namespace Expr

mutual

/-- An expression without signs, negations and filters, of plain names and constants. -/
def selfDelimiting : Expr → Bool
  | literal l => l.isPlain
  | name n => isPlainName n
  | member target n => target.selfDelimiting && isPlainName n
  | item target key => target.selfDelimiting && key.selfDelimiting
  | call function args => function.selfDelimiting && allSelfDelimiting args
  | unary _ _ => false
  | binary _ l r => l.selfDelimiting && r.selfDelimiting
  | logical _ l r => l.selfDelimiting && r.selfDelimiting
  | not _ => false
  | compare _ l r => l.selfDelimiting && r.selfDelimiting
  | conditional body c orElse => body.selfDelimiting && c.selfDelimiting && orElse.selfDelimiting
  | list items => allSelfDelimiting items
  | dict entries => allEntriesSelfDelimiting entries
  | filter _ _ _ => false

/-- Such expressions. -/
def allSelfDelimiting : List Expr → Bool
  | [] => true
  | e :: es => e.selfDelimiting && allSelfDelimiting es

/-- Entries of such expressions. -/
def allEntriesSelfDelimiting : List (Expr × Expr) → Bool
  | [] => true
  | (k, v) :: es => k.selfDelimiting && v.selfDelimiting && allEntriesSelfDelimiting es

end

end Expr

/-! ## Phrases -/

namespace ExprGrammar

variable {d : Dialect} {l m : Level} {ts us : List ExprToken} {e e' : Expr}

theorem Suffixes.append {target e e' : Expr} {ts us : List ExprToken} :
    Suffixes d target ts e → Suffixes d e us e' → Suffixes d target (ts ++ us) e'
  | .nil, h => h
  | .member ht hu hs, h => .member ht hu (hs.append h)
  | .item ho hk hc hs, h => by
    rw [List.cons_append, List.append_assoc]
    exact .item ho hk hc (hs.append h)
  | .call ho ha hc hs, h => by
    rw [List.cons_append, List.append_assoc]
    exact .call ho ha hc (hs.append h)

/-- Members, items and calls go on with an expression that has some. -/
theorem Derives.suffixed (h : Derives d .postfixed ts e) (hs : Suffixes d e us e') :
    Derives d .postfixed (ts ++ us) e' := by
  cases h with
  | chain hl => cases hl
  | front ht => cases ht
  | suffixes hp hs' =>
    rw [List.append_assoc]
    exact .suffixes hp (hs'.append hs)

theorem Pipeline.of_derives (h : Derives d l ts e) (hr : l.rank ≤ Level.conditional.rank) : Pipeline d false ts e := by
  have hp := Pipeline.mk (h.loosen hr) .nil
  rwa [List.append_nil] at hp

theorem Derives.grouped {o c : ExprToken} (ho : o.kind = .symbol .parenOpen) (h : Derives d l ts e)
    (hr : l.rank ≤ Level.conditional.rank) (hc : c.kind = .symbol .parenClose) :
    Derives d .postfixed (o :: (ts ++ [c])) e :=
  (Derives.group ho (.of_derives h hr) hc).loosen (by decide)

theorem Level.rank_operand_le (hl : l.operand? = some m) :
    Level.postfixed.rank ≤ m.rank ∧ l.rank ≤ Level.conditional.rank := by
  cases l <;> cases hl <;> decide

/-- An operator between two operands that need no brackets. -/
theorem Derives.operation {ops : List ExprToken} {join : Expr → Expr → Expr} (hl : l.operand? = some m)
    (ho : Operator l (ops.map (·.kind)) join) (hts : Derives d .postfixed ts e) (hus : Derives d .postfixed us e') :
    Derives d l (ts ++ (ops ++ us)) (join e e') := by
  have hm := (Level.rank_operand_le hl).1
  have hend : Chain d l (join e e') [] (join e e') := .nil
  have hchain := Chain.cons hl ho (hus.loosen hm) hend
  rw [List.append_nil] at hchain
  exact .chain hl (hts.loosen hm) hchain

end ExprGrammar

/-! ## Texts -/

/-- In front of whatever goes on with no number and no word, a text has tokens of a kind. -/
def Reads (P : List ExprToken → Prop) (s : String) : Prop :=
  ∀ rest, Detached rest → Scans s.toList rest P

/-- The tokens of an expression that needs no brackets. -/
def Closed (e : Expr) (ts : List ExprToken) : Prop :=
  Derives .greedy .postfixed ts e

variable {P Q : List ExprToken → Prop} {s s' op : String} {e e' : Expr} {es : List Expr}

theorem Reads.mono (h : Reads P s) (hPQ : ∀ ts, P ts → Q ts) : Reads Q s :=
  fun rest hrest => (h rest hrest).mono hPQ

theorem Reads.append (h : Reads P s) (h' : Reads Q s') (hs' : ∀ rest, Detached rest → Detached (s'.toList ++ rest)) :
    Reads (Followed P Q) (s ++ s') := by
  intro rest hrest
  rw [String.toList_append]
  exact (h _ (hs' rest hrest)).append (h' rest hrest)

theorem toList_text (s : Symbol) : s.text.toList = s.chars :=
  String.toList_ofList

theorem detached_text {c : Symbol} (hc : c.isMark = true) (hdot : c ≠ .dot) (rest : List Char) :
    Detached (c.text.toList ++ rest) := by
  rw [toList_text]
  exact .mark hc fun h => absurd h hdot

theorem Reads.mark {c : Symbol} (hc : c.isMark = true) : Reads (Single (.symbol c)) c.text := by
  intro rest _
  rw [toList_text]
  exact .mark hc rest

theorem Reads.bracketed {o c : Symbol} (ho : o.isMark = true) (hc : c.isMark = true) (hdot : c ≠ .dot)
    (h : Reads P s) :
    Reads (Followed (Single (.symbol o)) (Followed P (Single (.symbol c)))) (o.text ++ s ++ c.text) := by
  intro rest hrest
  rw [String.append_assoc, String.toList_append, toList_text]
  exact (Scans.mark ho _).append ((h.append (.mark hc) fun rest _ => detached_text hc hdot rest) rest hrest)

/-- Two texts with a spaced operator between them. -/
theorem Reads.spaced {O : List ExprToken → Prop} (hop : ∀ rest, Scans op.toList (' ' :: rest) O) (h : Reads P s)
    (h' : Reads Q s') :
    Reads (Followed P (Followed O Q)) (s ++ " " ++ op ++ " " ++ s') := by
  intro rest hrest
  have hchars : (s ++ " " ++ op ++ " " ++ s').toList = s.toList ++ ([' '] ++ (op.toList ++ ([' '] ++ s'.toList))) := by
    simp
  rw [hchars]
  have hright := (Scans.blank _).append (h' rest hrest)
  refine ((h _ (.space _)).append ((Scans.blank _).append ((hop _).append hright))).mono ?_
  rintro _ ⟨ts, _, hts, ⟨_, _, rfl, ⟨ops, _, hops, ⟨_, _, rfl, hus, rfl⟩, rfl⟩, rfl⟩, rfl⟩
  exact ⟨ts, _, hts, ⟨ops, _, hops, hus, rfl⟩, rfl⟩

/-! ## Words and constants -/

theorem exists_chars_of_keyword (k : Keyword) : ∃ c cs, k.word.toList = c :: cs ∧ isNameStart c = true ∧
    (∀ c ∈ cs, isNameChar c = true) ∧ wordKind (c :: cs) = .keyword k := by
  cases k <;> exact ⟨_, _, rfl, by decide, List.all_eq_true.1 (by decide), by decide⟩

theorem Scans.keyword {rest : List Char} (k : Keyword) (h : Detached rest) :
    Scans k.word.toList rest (Single (.keyword k)) := by
  obtain ⟨c, cs, hlist, hc, hcs, hkind⟩ := exists_chars_of_keyword k
  rw [hlist, ← hkind]
  exact .word hc hcs h

theorem exists_chars_of_isPlainName {n : String} (h : isPlainName n = true) :
    ∃ c cs, n.toList = c :: cs ∧ isNameStart c = true ∧ (∀ c ∈ cs, isNameChar c = true) ∧
      wordKind (c :: cs) = .name n := by
  unfold isPlainName at h
  split at h
  · cases h
  · rename_i c cs hlist
    simp only [Bool.and_eq_true, List.all_eq_true, Option.isNone_iff_eq_none] at h
    obtain ⟨⟨hc, hcs⟩, hkeyword⟩ := h
    refine ⟨c, cs, hlist, hc, hcs, ?_⟩
    have hn : String.ofList (c :: cs) = n := by rw [← hlist, String.ofList_toList]
    rw [wordKind, hn, hkeyword]

theorem Reads.name {n : String} (h : isPlainName n = true) : Reads (Single (.name n)) n := by
  intro rest hrest
  obtain ⟨c, cs, hlist, hc, hcs, hkind⟩ := exists_chars_of_isPlainName h
  rw [hlist, ← hkind]
  exact .word hc hcs hrest

theorem digitsValue_eq {cs : List Char} (h : ∀ c ∈ cs, c.isDigit = true) :
    digitsValue cs = Nat.ofDigitChars 10 cs 0 := by
  refine List.foldl_ext _ _ 0 fun n c hc => ?_
  rw [digitValue?, if_pos (h c hc)]
  rfl

theorem isDigit_of_mem_toDigits (n : Nat) : ∀ c ∈ Nat.toDigits 10 n, c.isDigit = true :=
  fun _ hc => Nat.isDigit_of_mem_toDigits (by decide) (by decide) hc

/-- The digits of a number are read as it. -/
theorem numberValue_toDigits (n : Nat) : numberValue (String.ofList (Nat.toDigits 10 n)) = .int n := by
  have hdigits := isDigit_of_mem_toDigits n
  have hwhole : isFractional (String.ofList (Nat.toDigits 10 n)) = false := by
    rw [isFractional, String.toList_ofList, List.any_eq_false]
    intro c hc hpoint
    simp only [Bool.or_eq_true, beq_iff_eq] at hpoint
    rcases hpoint with (rfl | rfl) | rfl <;> exact absurd (hdigits _ hc) (by decide)
  rw [numberValue, hwhole, if_neg Bool.false_ne_true, String.toList_ofList, digitsValue_eq hdigits,
    Nat.ofDigitChars_toDigits (by decide) (by decide)]

theorem Reads.int {n : Int} (h : (Literal.int n).isPlain = true) :
    Reads (Closed (.literal (.int n))) (Literal.int n).text := by
  simp only [Literal.isPlain, Bool.and_eq_true, decide_eq_true_eq] at h
  obtain ⟨hn, hlength⟩ := h
  obtain ⟨n, rfl⟩ := Int.eq_ofNat_of_zero_le hn
  have hreadable : (Nat.toDigits 10 n).length ≤ Number.digitLimit := by
    by_contra hlong
    rw [Number.intText?, Int.natAbs_natCast, if_pos (Nat.lt_of_not_le hlong)] at hlength
    cases hlength
  intro rest hrest
  have hchars : (Literal.int n).text.toList = Nat.toDigits 10 n := String.toList_ofList
  rw [hchars]
  refine (Scans.digits (isDigit_of_mem_toDigits n) Nat.toDigits_ne_nil hrest).mono ?_
  rintro _ ⟨t, ht, rfl⟩
  have hnumber : Derives .greedy .primary [t] (.literal (numberValue _)) :=
    .number ht (.inr (by rwa [String.toList_ofList]))
  rw [numberValue_toDigits] at hnumber
  exact hnumber.loosen (by decide)

theorem Reads.str {s : String} (h : (Literal.str s).isPlain = true) :
    Reads (Closed (.literal (.str s))) (Literal.str s).text := by
  intro rest _
  have hs : ∀ c ∈ s.toList, Visible c := by
    simpa [Literal.isPlain, Visible] using h
  refine (Scans.quoted hs rest).mono ?_
  rintro _ ⟨t, ht, rfl⟩
  exact (Derives.str ht).loosen (by decide)

theorem Reads.literal {l : Literal} (h : l.isPlain = true) : Reads (Closed (.literal l)) l.text := by
  cases l with
  | int n => exact .int h
  | str s => exact .str h
  | none => cases h
  | bool b => cases h
  | float x => cases h

/-! ## Operations -/

/-- In brackets two operands with an operator between them are an expression. -/
theorem Reads.operation {l m : Level} {join : Expr → Expr → Expr} (hl : l.operand? = some m)
    (hop : ∀ rest, Scans op.toList (' ' :: rest) fun ts => Operator l (ts.map (·.kind)) join)
    (h : Reads (Closed e) s) (h' : Reads (Closed e') s') :
    Reads (Closed (join e e')) ("(" ++ s ++ " " ++ op ++ " " ++ s' ++ ")") := by
  have hreads := (h.spaced hop h').bracketed (o := .parenOpen) (c := .parenClose) rfl rfl nofun
  have htext : Symbol.parenOpen.text ++ (s ++ " " ++ op ++ " " ++ s') ++ Symbol.parenClose.text =
      "(" ++ s ++ " " ++ op ++ " " ++ s' ++ ")" := by
    apply String.toList_injective
    simp [Symbol.text, Symbol.chars]
  rw [htext] at hreads
  refine hreads.mono ?_
  rintro _ ⟨_, _, ⟨o, ho, rfl⟩, ⟨_, _, ⟨ts, _, hts, ⟨ops, us, hops, hus, rfl⟩, rfl⟩, ⟨c, hc, rfl⟩, rfl⟩, rfl⟩
  exact .grouped ho (.operation hl hops hts hus) (Level.rank_operand_le hl).2 hc

section

variable {l : Level} {join : Expr → Expr → Expr}

theorem Scans.operator {c : Symbol} (ho : Operator l [.symbol c] join) (hop : op.toList = c.chars) (rest : List Char) :
    Scans op.toList (' ' :: rest) fun ts => Operator l (ts.map (·.kind)) join := by
  rw [hop]
  refine (Scans.symbol_spaced c rest).mono ?_
  rintro _ ⟨t, ht, rfl⟩
  rwa [← ht] at ho

theorem Scans.operator_word {k : Keyword} (ho : Operator l [.keyword k] join) (rest : List Char) :
    Scans k.word.toList (' ' :: rest) fun ts => Operator l (ts.map (·.kind)) join := by
  refine (Scans.keyword k (.space rest)).mono ?_
  rintro _ ⟨t, ht, rfl⟩
  rwa [← ht] at ho

theorem Scans.operator_words (k k' : Keyword) (ho : Operator l [.keyword k, .keyword k'] join)
    (hop : op.toList = k.word.toList ++ ([' '] ++ k'.word.toList)) (rest : List Char) :
    Scans op.toList (' ' :: rest) fun ts => Operator l (ts.map (·.kind)) join := by
  rw [hop]
  refine ((Scans.keyword k (.space _)).append ((Scans.blank _).append (Scans.keyword k' (.space rest)))).mono ?_
  rintro _ ⟨_, _, ⟨t, ht, rfl⟩, ⟨_, _, rfl, ⟨u, hu, rfl⟩, rfl⟩, rfl⟩
  rwa [← ht, ← hu] at ho

end

theorem Reads.binary (op : BinaryOp) (h : Reads (Closed e) s) (h' : Reads (Closed e') s') :
    Reads (Closed (.binary op e e')) ("(" ++ s ++ " " ++ op.symbol ++ " " ++ s' ++ ")") := by
  cases op with
  | add => exact .operation rfl (.operator .add rfl) h h'
  | sub => exact .operation rfl (.operator .sub rfl) h h'
  | mul => exact .operation rfl (.operator .mul rfl) h h'
  | div => exact .operation rfl (.operator .div rfl) h h'
  | floorDiv => exact .operation rfl (.operator .floorDiv rfl) h h'
  | mod => exact .operation rfl (.operator .mod rfl) h h'
  | concat => exact .operation rfl (.operator .concat rfl) h h'

theorem Reads.logical (op : LogicalOp) (h : Reads (Closed e) s) (h' : Reads (Closed e') s') :
    Reads (Closed (.logical op e e')) ("(" ++ s ++ " " ++ op.symbol ++ " " ++ s' ++ ")") := by
  cases op with
  | and => exact .operation rfl (.operator_word (k := .and) .and) h h'
  | or => exact .operation rfl (.operator_word (k := .or) .or) h h'

theorem Reads.compare (op : CompareOp) (h : Reads (Closed e) s) (h' : Reads (Closed e') s') :
    Reads (Closed (.compare op e e')) ("(" ++ s ++ " " ++ op.symbol ++ " " ++ s' ++ ")") := by
  cases op with
  | eq => exact .operation rfl (.operator .eq rfl) h h'
  | ne => exact .operation rfl (.operator .ne rfl) h h'
  | lt => exact .operation rfl (.operator .lt rfl) h h'
  | le => exact .operation rfl (.operator .le rfl) h h'
  | gt => exact .operation rfl (.operator .gt rfl) h h'
  | ge => exact .operation rfl (.operator .ge rfl) h h'
  | mem => exact .operation rfl (.operator_word (k := .in) .mem) h h'
  | notMem => exact .operation rfl (.operator_words .not .in .notMem rfl) h h'

theorem Reads.conditional {body c orElse : Expr} {s₁ s₂ s₃ : String} (hb : Reads (Closed body) s₁)
    (hc : Reads (Closed c) s₂) (ho : Reads (Closed orElse) s₃) :
    Reads (Closed (.conditional body c orElse)) ("(" ++ s₁ ++ " if " ++ s₂ ++ " else " ++ s₃ ++ ")") := by
  have helse := hc.spaced (fun rest => Scans.keyword .else (.space rest)) ho
  have hif := hb.spaced (fun rest => Scans.keyword .if (.space rest)) helse
  have hreads := hif.bracketed (o := .parenOpen) (c := .parenClose) rfl rfl nofun
  have htext : Symbol.parenOpen.text ++ (s₁ ++ " " ++ Keyword.if.word ++ " " ++
      (s₂ ++ " " ++ Keyword.else.word ++ " " ++ s₃)) ++ Symbol.parenClose.text =
      "(" ++ s₁ ++ " if " ++ s₂ ++ " else " ++ s₃ ++ ")" := by
    apply String.toList_injective
    simp [Symbol.text, Symbol.chars, Keyword.word]
  rw [htext] at hreads
  refine hreads.mono ?_
  rintro _ ⟨_, _, ⟨o, ho, rfl⟩, ⟨_, _, ⟨ts, _, hts, ⟨_, _, ⟨t, ht, rfl⟩,
    ⟨us, _, hus, ⟨_, vs, ⟨u, hu, rfl⟩, hvs, rfl⟩, rfl⟩, rfl⟩, rfl⟩, ⟨c, hc, rfl⟩, rfl⟩, rfl⟩
  have hchoice := Derives.conditional (hts.loosen (by decide)) ht (hus.loosen (by decide)) hu (hvs.loosen (by decide))
  exact .grouped ho hchoice (by decide) hc

/-! ## Members, items and calls -/

theorem Reads.member {n : String} (h : Reads (Closed e) s) (hn : isPlainName n = true) :
    Reads (Closed (.member e n)) (s ++ "." ++ n) := by
  intro rest hrest
  obtain ⟨c, cs, hlist, hc, -⟩ := exists_chars_of_isPlainName hn
  have hdetached : Detached (Symbol.dot.chars ++ n.toList ++ rest) := by
    rw [List.append_assoc, hlist]
    refine .mark rfl fun _ => runLength_eq_zero ?_
    rintro _ ⟨⟩
    exact isDigit_of_isNameStart hc
  have hchars : (s ++ "." ++ n).toList = s.toList ++ (Symbol.dot.chars ++ n.toList) := by
    simp [Symbol.chars]
  rw [hchars]
  refine ((h _ hdetached).append ((Scans.mark rfl _).append (Reads.name hn rest hrest))).mono ?_
  rintro _ ⟨ts, _, hts, ⟨_, _, ⟨t, ht, rfl⟩, ⟨u, hu, rfl⟩, rfl⟩, rfl⟩
  exact hts.suffixed (.member ht hu .nil)

/-- Something in brackets behind an expression. -/
theorem Reads.suffixed {o c : Symbol} (ho : o.isMark = true) (hdoto : o ≠ .dot) (hc : c.isMark = true) (hdot : c ≠ .dot)
    (h : Reads (Closed e) s) (h' : Reads P s')
    (hs : ∀ {t u : ExprToken} {ts : List ExprToken}, t.kind = .symbol o → P ts → u.kind = .symbol c →
      Suffixes .greedy e (t :: (ts ++ [u])) e') :
    Reads (Closed e') (s ++ o.text ++ s' ++ c.text) := by
  have hdetached (rest : List Char) (_ : Detached rest) : Detached ((o.text ++ s' ++ c.text).toList ++ rest) := by
    rw [String.append_assoc, String.toList_append, List.append_assoc]
    exact detached_text ho hdoto _
  have hreads := h.append (h'.bracketed ho hc hdot) hdetached
  rw [← String.append_assoc, ← String.append_assoc] at hreads
  refine hreads.mono ?_
  rintro _ ⟨ts, _, hts, ⟨_, _, ⟨t, ht, rfl⟩, ⟨us, _, hus, ⟨u, hu, rfl⟩, rfl⟩, rfl⟩, rfl⟩
  exact hts.suffixed (hs ht hus hu)

theorem Reads.item (h : Reads (Closed e) s) (h' : Reads (Closed e') s') :
    Reads (Closed (.item e e')) (s ++ "[" ++ s' ++ "]") :=
  h.suffixed (o := .bracketOpen) (c := .bracketClose) rfl nofun rfl nofun h' fun ht hts hu =>
    .item ht (.of_derives hts (by decide)) hu .nil

/-! ## Rows -/

/-- Texts with a mark and a blank between them. -/
theorem Reads.separated {c : Symbol} {sep : String} (hc : c.isMark = true) (hdot : c ≠ .dot)
    (hsep : sep.toList = c.chars ++ [' ']) (h : Reads P s) (h' : Reads Q s') :
    Reads (Followed P (Followed (Single (.symbol c)) Q)) (s ++ sep ++ s') := by
  intro rest hrest
  have hchars : (s ++ sep ++ s').toList = s.toList ++ (c.chars ++ ([' '] ++ s'.toList)) := by
    rw [String.toList_append, String.toList_append, hsep, List.append_assoc, List.append_assoc]
  have hdetached : Detached (c.chars ++ ([' '] ++ s'.toList) ++ rest) := by
    rw [List.append_assoc]
    exact .mark hc fun h => absurd h hdot
  rw [hchars]
  refine ((h _ hdetached).append ((Scans.mark hc _).append ((Scans.blank _).append (h' rest hrest)))).mono ?_
  rintro _ ⟨ts, _, hts, ⟨_, _, hmark, ⟨_, _, rfl, hus, rfl⟩, rfl⟩, rfl⟩
  exact ⟨ts, _, hts, ⟨_, _, hmark, hus, rfl⟩, rfl⟩

theorem Reads.comma (h : Reads P s) (h' : Reads Q s') :
    Reads (Followed P (Followed (Single (.symbol .comma)) Q)) (s ++ ", " ++ s') :=
  .separated rfl nofun rfl h h'

theorem Reads.entry (h : Reads P s) (h' : Reads Q s') :
    Reads (Followed P (Followed (Single (.symbol .colon)) Q)) (s ++ ": " ++ s') :=
  .separated rfl nofun rfl h h'

theorem Reads.items (h : ∀ e' ∈ e :: es, Reads (Closed e') e'.text) :
    Reads (Items .greedy false · (e :: es)) (", ".intercalate (Expr.texts (e :: es))) := by
  induction es generalizing e with
  | nil =>
    rw [Expr.texts, Expr.texts, String.intercalate_singleton]
    exact (h e (List.mem_cons_self ..)).mono fun ts hts => .one (.of_derives hts (by decide))
  | cons e' es ih =>
    obtain ⟨he, hes⟩ := List.forall_mem_cons.1 h
    rw [Expr.texts, Expr.texts, String.intercalate_cons_cons, ← Expr.texts]
    refine (he.comma (ih hes)).mono ?_
    rintro _ ⟨ts, _, hts, ⟨_, us, ⟨t, ht, rfl⟩, hus, rfl⟩, rfl⟩
    exact .cons (.of_derives hts (by decide)) rfl ht hus

theorem Reads.empty : Reads (· = []) "" := by
  intro rest _ position
  refine ⟨[], rfl, ?_⟩
  show tokenizeFrom position rest = _ <$> tokenizeFrom position rest
  cases tokenizeFrom position rest <;> rfl

theorem Reads.elements (h : ∀ e ∈ es, Reads (Closed e) e.text) :
    Reads (Elements .greedy · es) (", ".intercalate (Expr.texts es)) := by
  cases es with
  | nil => exact Reads.empty.mono (by rintro _ rfl; exact .nil)
  | cons e es => exact (Reads.items h).mono fun ts hts => .items hts

theorem Reads.call (h : Reads (Closed e) s) (hes : ∀ e ∈ es, Reads (Closed e) e.text) :
    Reads (Closed (.call e es)) (s ++ "(" ++ ", ".intercalate (Expr.texts es) ++ ")") :=
  h.suffixed (o := .parenOpen) (c := .parenClose) rfl nofun rfl nofun (Reads.elements hes) fun ht hts hu =>
    .call ht hts hu .nil

theorem Reads.list (hes : ∀ e ∈ es, Reads (Closed e) e.text) :
    Reads (Closed (.list es)) ("[" ++ ", ".intercalate (Expr.texts es) ++ "]") := by
  refine ((Reads.elements hes).bracketed (o := .bracketOpen) (c := .bracketClose) rfl rfl nofun).mono ?_
  rintro _ ⟨_, _, ⟨o, ho, rfl⟩, ⟨ts, _, hts, ⟨c, hc, rfl⟩, rfl⟩, rfl⟩
  exact (Derives.list ho hts hc).loosen (by decide)

theorem Reads.entries {k v : Expr} {es : List (Expr × Expr)}
    (h : ∀ p ∈ (k, v) :: es, Reads (Closed p.1) p.1.text ∧ Reads (Closed p.2) p.2.text) :
    Reads (Entries .greedy false · ((k, v) :: es)) (", ".intercalate (Expr.entryTexts ((k, v) :: es))) := by
  induction es generalizing k v with
  | nil =>
    obtain ⟨hk, hv⟩ := h (k, v) (List.mem_cons_self ..)
    rw [Expr.entryTexts, Expr.entryTexts, String.intercalate_singleton]
    refine (hk.entry hv).mono ?_
    rintro _ ⟨ts, _, hts, ⟨_, us, ⟨t, ht, rfl⟩, hus, rfl⟩, rfl⟩
    exact .one (hts.loosen (by decide)) ht (.of_derives hus (by decide))
  | cons p es ih =>
    obtain ⟨⟨hk, hv⟩, hes⟩ := List.forall_mem_cons.1 h
    rw [Expr.entryTexts, Expr.entryTexts, String.intercalate_cons_cons, ← Expr.entryTexts]
    refine ((hk.entry hv).comma (ih hes)).mono ?_
    rintro _ ⟨_, _, ⟨ts, _, hts, ⟨_, us, ⟨t, ht, rfl⟩, hus, rfl⟩, rfl⟩, ⟨_, vs, ⟨u, hu, rfl⟩, hvs, rfl⟩, rfl⟩
    have hentries := Entries.cons (hts.loosen (by decide)) ht (.of_derives hus (by decide)) rfl hu hvs
    simpa using hentries

theorem Reads.dict {es : List (Expr × Expr)}
    (h : ∀ p ∈ es, Reads (Closed p.1) p.1.text ∧ Reads (Closed p.2) p.2.text) :
    Reads (Closed (.dict es)) ("\x7b" ++ ", ".intercalate (Expr.entryTexts es) ++ "\x7d") := by
  have hpairs : Reads (Pairs .greedy · es) (", ".intercalate (Expr.entryTexts es)) := by
    cases es with
    | nil => exact Reads.empty.mono (by rintro _ rfl; exact .nil)
    | cons p es => exact (Reads.entries h).mono fun ts hts => .entries hts
  refine (hpairs.bracketed (o := .braceOpen) (c := .braceClose) rfl rfl nofun).mono ?_
  rintro _ ⟨_, _, ⟨o, ho, rfl⟩, ⟨ts, _, hts, ⟨c, hc, rfl⟩, rfl⟩, rfl⟩
  exact (Derives.dict ho hts hc).loosen (by decide)

/-! ## Expressions -/

namespace Expr

mutual

theorem reads_text : ∀ e : Expr, e.selfDelimiting = true → Reads (Closed e) e.text
  | .literal l, h => .literal h
  | .name n, h => (Reads.name h).mono (by rintro _ ⟨t, ht, rfl⟩; exact (Derives.name ht).loosen (by decide))
  | .member target n, h => by
    obtain ⟨ht, hn⟩ := Bool.and_eq_true_iff.1 h
    exact (reads_text target ht).member hn
  | .item target key, h => by
    obtain ⟨ht, hk⟩ := Bool.and_eq_true_iff.1 h
    exact (reads_text target ht).item (reads_text key hk)
  | .call function args, h => by
    obtain ⟨hf, hargs⟩ := Bool.and_eq_true_iff.1 h
    exact (reads_text function hf).call (reads_texts args hargs)
  | .unary .., h => nomatch h
  | .binary op l r, h => by
    obtain ⟨hl, hr⟩ := Bool.and_eq_true_iff.1 h
    exact .binary op (reads_text l hl) (reads_text r hr)
  | .logical op l r, h => by
    obtain ⟨hl, hr⟩ := Bool.and_eq_true_iff.1 h
    exact .logical op (reads_text l hl) (reads_text r hr)
  | .not _, h => nomatch h
  | .compare op l r, h => by
    obtain ⟨hl, hr⟩ := Bool.and_eq_true_iff.1 h
    exact .compare op (reads_text l hl) (reads_text r hr)
  | .conditional body c orElse, h => by
    obtain ⟨h, ho⟩ := Bool.and_eq_true_iff.1 h
    obtain ⟨hb, hc⟩ := Bool.and_eq_true_iff.1 h
    exact (reads_text body hb).conditional (reads_text c hc) (reads_text orElse ho)
  | .list items, h => .list (reads_texts items h)
  | .dict entries, h => .dict (reads_entryTexts entries h)
  | .filter .., h => nomatch h

theorem reads_texts : ∀ es : List Expr, allSelfDelimiting es = true → ∀ e ∈ es, Reads (Closed e) e.text
  | [], _ => fun _ he => nomatch he
  | e :: es, h => by
    obtain ⟨he, hes⟩ := Bool.and_eq_true_iff.1 h
    exact List.forall_mem_cons.2 ⟨reads_text e he, reads_texts es hes⟩

theorem reads_entryTexts : ∀ es : List (Expr × Expr), allEntriesSelfDelimiting es = true →
    ∀ p ∈ es, Reads (Closed p.1) p.1.text ∧ Reads (Closed p.2) p.2.text
  | [], _ => fun _ hp => nomatch hp
  | (k, v) :: es, h => by
    obtain ⟨h, hes⟩ := Bool.and_eq_true_iff.1 h
    obtain ⟨hk, hv⟩ := Bool.and_eq_true_iff.1 h
    exact List.forall_mem_cons.2 ⟨⟨reads_text k hk, reads_text v hv⟩, reads_entryTexts es hes⟩

end

/-- An expression without signs, negations and filters, whose names are plain and whose constants are numbers without a
sign and visible texts, is read from its text. -/
theorem read_text {e : Expr} (h : e.selfDelimiting = true) : Expr.read e.text = .ok e := by
  obtain ⟨ts, p, hts, htokens⟩ := (reads_text e h [] .nil).tokenize
  exact (read_eq_ok_iff htokens).2 ⟨false, .of_derives hts (by decide)⟩

/-- A number in front of a point, a quote of either kind and an operation as a target. -/
theorem read_text_nested :
    Expr.read "(1.e5['\\'\"\\\\n'](b, (x if (y or z) else [])) not in (a // \x7b(c < 0): \"it's\"\x7d).f)" =
      .ok (.compare .notMem
        (.call (.item (.member (.literal (.int 1)) "e5") (.literal (.str "'\"\\n")))
          [.name "b", .conditional (.name "x") (.logical .or (.name "y") (.name "z")) (.list [])])
        (.member
          (.binary .floorDiv (.name "a") (.dict [(.compare .lt (.name "c") (.literal (.int 0)), .literal (.str "it's"))]))
          "f")) := by
  refine Eq.trans (congrArg Expr.read ?_) (read_text ?_)
  · rfl
  · decide

end Expr

end TemplateEngine
