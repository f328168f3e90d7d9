/-
Template texts that go on. What has been cut off stays as it is when more follows, but for a text at the end, which
may get longer or lose its last character to a delimiter. The reader refuses delimiters only: a text that it refuses
before the end is refused in the same way whatever follows.
-/
import TemplateEngine.Environment.Basic
import TemplateEngine.Proofs.Template.Junction
import TemplateEngine.Proofs.Template.Step

namespace TemplateEngine.Template

/-! ## Pieces of a text that goes on -/

/-- The pieces of a text stay when it goes on, but for a text at the end. -/
theorem pieces_extend (cs ds : List Char) : ∃ front last rest,
    pieces cs = front ++ last ∧ (∀ p ∈ last, p.kind = .text) ∧ pieces (cs ++ ds) = front ++ rest := by
  have htext (es : List Char) : ∀ p ∈ [Piece.text es], p.kind = .text := by
    intro p hp
    cases List.mem_singleton.1 hp
    rfl
  rcases pieces_append cs ds with hglue | ⟨ps, c, e, d, rest, hacross⟩
  · rcases glue_eq (pieces cs) (pieces ds) with h | ⟨front, es, fs, rest, hcs, -, h⟩
    · exact ⟨pieces cs, [], pieces ds, (List.append_nil _).symm, nofun, hglue.trans h⟩
    · exact ⟨front, [.text es], _, hcs, htext es, hglue.trans h⟩
  · -- the last character of the text goes to the delimiter
    rcases glue_eq ps [.text [c]] with h | ⟨front, es, fs, more, rfl, hc, h⟩
    · exact ⟨ps, [.text [c]], _, hacross.pieces_left.trans h, htext [c], hacross.pieces⟩
    · cases hc
      refine ⟨front, [.text (es ++ [c])], .text es :: .delimiter d :: pieces rest, hacross.pieces_left.trans h,
        htext _, ?_⟩
      rw [hacross.pieces, List.append_assoc, List.singleton_append]

/-! ## Tokens that are refused -/

namespace Reader

/-- A text is taken in wherever it stands. -/
theorem step_text (registry : TagRegistry) (name : String) {t : Token} (ht : t.kind = .text) (r : Reader) :
    ∃ r', step registry name r t = .ok r' := by
  unfold step ContextStack.feed
  rw [ht]
  cases r.contexts.top with
  | content => exact ⟨_, rfl⟩
  | tag => exact ⟨_, rfl⟩
  | expression => exact ⟨_, rfl⟩
  | comment => exact ⟨_, rfl⟩

theorem foldlM_texts (registry : TagRegistry) (name : String) {ts : List Token} (hts : ∀ t ∈ ts, t.kind = .text)
    (r : Reader) : ∃ r', ts.foldlM (step registry name) r = .ok r' := by
  induction ts generalizing r with
  | nil => exact ⟨r, rfl⟩
  | cons t ts ih =>
    obtain ⟨r₁, h₁⟩ := step_text registry name (hts t (List.mem_cons_self ..)) r
    rw [List.foldlM_cons, h₁]
    exact ih (fun u hu => hts u (List.mem_cons_of_mem _ hu)) r₁

/-- At the end of a text only what is left open is refused. -/
theorem kind_of_finish {name : String} {r : Reader} {e : TemplateError} (h : r.finish name = .error e) :
    e.problem.kind = .unterminated := by
  unfold finish ContextStack.finish at h
  by_cases hd : r.contexts.depth = 1
  · cases ho : r.openTags with
    | nil =>
      rw [if_pos hd, ho] at h
      cases h
    | cons o rest =>
      rw [if_pos hd, ho] at h
      cases h
      rfl
  · rw [if_neg hd] at h
    cases h
    rfl

end Reader

open Reader

variable {registry : TagRegistry} {name : String}

/-- The tokens of numbered pieces that are all texts are texts. -/
theorem kind_of_mem_number {ps : List Piece} (hps : ∀ p ∈ ps, p.kind = .text) (line : Nat) :
    ∀ t ∈ number line ps, t.kind = .text := by
  intro t ht
  have hkind : t.kind ∈ (number line ps).map (·.kind) := List.mem_map_of_mem ht
  rw [map_kind_number] at hkind
  obtain ⟨p, hp, hk⟩ := List.mem_map.1 hkind
  rw [← hk, hps p hp]

/-- A token that is refused is refused in every text that goes on from there. -/
theorem foldlM_tokens_append {s t : String} {e : TemplateError}
    (h : (tokens s).foldlM (step registry name) {} = .error e) :
    (tokens (s ++ t)).foldlM (step registry name) {} = .error e := by
  obtain ⟨front, last, rest, hs, hlast, hst⟩ := pieces_extend s.toList t.toList
  rw [tokens, hs, number_append, List.foldlM_append] at h
  have hfront : (number 1 front).foldlM (step registry name) {} = .error e := by
    cases hf : (number 1 front).foldlM (step registry name) {} with
    | error e' =>
      rw [hf] at h
      exact h
    | ok r =>
      -- then it would be the text at the end that is refused
      obtain ⟨r', hr'⟩ := foldlM_texts registry name (kind_of_mem_number hlast _) r
      rw [hf, ok_bind, hr'] at h
      cases h
  rw [tokens, String.toList_append, hst, number_append, List.foldlM_append, hfront]
  rfl

/-- A text that is refused, though not for what it leaves open, is refused with the same problem on the same line
when it goes on, whatever follows. -/
theorem read_append_of_error {s t : String} {e : TemplateError} (h : Template.read registry s name = .error e)
    (he : e.problem.kind ≠ .unterminated) : Template.read registry (s ++ t) name = .error e := by
  unfold Template.read at h ⊢
  cases hr : (tokens s).foldlM (step registry name) {} with
  | error e' =>
    rw [hr] at h
    cases h
    rw [foldlM_tokens_append hr]
    rfl
  | ok r =>
    rw [hr, ok_bind] at h
    cases hf : r.finish name with
    | error e' =>
      rw [hf] at h
      cases h
      exact absurd (kind_of_finish hf) he
    | ok bs =>
      rw [hf] at h
      cases h

/-- The text `{% if a %}`, and on the next line `{% endfor %}` and a brace. -/
def mismatchedText : String :=
  "\x7b% if a %\x7d\n\x7b% endfor %\x7d\x7b"

/-- Why this text is refused. -/
def mismatchedError : TemplateError :=
  ⟨"t", some 2, .cannotClose (some ⟨"if", "a"⟩) ⟨"endfor", ""⟩⟩

/-- What follows makes a delimiter of the brace. -/
theorem read_append_of_error_mismatched :
    Template.read builtinRegistry mismatchedText "t" = .error mismatchedError ∧
    mismatchedError.problem.kind ≠ .unterminated ∧
    Template.read builtinRegistry (mismatchedText ++ "\x7b b \x7d\x7d") "t" = .error mismatchedError := by
  have hread : Template.read builtinRegistry mismatchedText "t" = .error mismatchedError :=
    eq_error_of_failure? (by decide +kernel)
  exact ⟨hread, by decide, read_append_of_error hread (by decide)⟩

end TemplateEngine.Template
