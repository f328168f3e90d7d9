/-
Escaping is safe and can be undone. The five replacements, each over what the one before left, write every character
by itself: as its entity, if it is a character of markup. So a text in which an ampersand starts an entity wherever it
stands, and in which the other four characters do not stand at all, is the escaped form of just one text, the one that
is read back from it.
-/
import Mathlib.Data.List.Basic
import Mathlib.Data.List.Infix
import Mathlib.Tactic.FinCases
import TemplateEngine.Callable.Filter
import TemplateEngine.Proofs.Result

namespace TemplateEngine

namespace Text

/-! ## Replacing one character after the other -/

theorem replaceFrom_singleton (c : Char) (new cs : List Char) :
    replaceFrom c [] new none 0 cs = cs.flatMap fun d => if d = c then new else [d] := by
  induction cs with
  | nil => rfl
  | cons d cs ih =>
    rw [List.flatMap_cons, ← ih]
    by_cases hd : d = c <;> simp [replaceFrom, hd]

theorem toList_replace_singleton (s new : String) (c : Char) :
    (replace s (String.singleton c) new none).toList = s.toList.flatMap fun d => if d = c then new.toList else [d] := by
  rw [← replaceFrom_singleton, replace, String.toList_singleton]
  exact String.toList_ofList

/-- What is written for a character. -/
def escapedChar (c : Char) : List Char :=
  match entities.find? (·.1 == c) with
  | some e => e.2.toList
  | none => [c]

theorem escapedChar_cases (c : Char) :
    (∃ e ∈ entities, e.1 = c ∧ escapedChar c = e.2.toList) ∨ (∀ e ∈ entities, e.1 ≠ c) ∧ escapedChar c = [c] := by
  unfold escapedChar
  split
  · rename_i e he
    exact .inl ⟨e, List.mem_of_find?_eq_some he, by simpa using List.find?_some he, rfl⟩
  · rename_i he
    exact .inr ⟨by simpa using List.find?_eq_none.1 he, rfl⟩

theorem escapedChar_of_mem {e : Char × String} (he : e ∈ entities) : escapedChar e.1 = e.2.toList := by
  fin_cases he <;> decide

/-- No replacement meets what an earlier one wrote: the ampersands of the entities come after those of the text are
gone. -/
theorem toList_escapeMarkup (s : String) : (escapeMarkup s).toList = s.toList.flatMap escapedChar := by
  simp only [escapeMarkup, entities, List.foldl_cons, List.foldl_nil, toList_replace_singleton, List.flatMap_assoc]
  refine List.flatMap_congr fun c _ => ?_
  rcases escapedChar_cases c with ⟨e, he, rfl, hc⟩ | ⟨hno, hc⟩
  · rw [hc]
    fin_cases he <;> decide
  · rw [hc]
    have hne (d : Char) (hd : d ∈ entities.map (·.1)) : c ≠ d := by
      obtain ⟨e, he, rfl⟩ := List.mem_map.1 hd
      exact (hno e he).symm
    simp only [List.flatMap_singleton, if_neg (hne '&' (by decide)), if_neg (hne '<' (by decide)),
      if_neg (hne '>' (by decide)), if_neg (hne '"' (by decide)), if_neg (hne '\'' (by decide))]

/-! ## Reading entities back -/

/-- Reads entities back in one pass from the left: each stands for its character, and all else for itself; `wait`
characters still belong to the entity before. -/
def unescapeFrom : Nat → List Char → List Char
  | _, [] => []
  | wait + 1, _ :: cs => unescapeFrom wait cs
  | 0, c :: cs => match entities.find? fun e => e.2.toList.isPrefixOf (c :: cs) with
    | some e => e.1 :: unescapeFrom (e.2.length - 1) cs
    | none => c :: unescapeFrom 0 cs

/-- The text with its entities read back. -/
def unescapeMarkup (s : String) : String :=
  String.ofList (unescapeFrom 0 s.toList)

/-- The characters of markup stand in an escaped text only as the starts of entities. -/
structure Safe (cs : List Char) : Prop where
  plain : ∀ c ∈ cs, c ∉ ['<', '>', '"', '\'']
  ampersand : ∀ pre post, cs = pre ++ '&' :: post → ∃ e ∈ entities, e.2.toList <+: '&' :: post

theorem Safe.of_append {cs ds : List Char} (h : Safe (cs ++ ds)) : Safe ds where
  plain c hc := h.plain c (List.mem_append_right _ hc)
  ampersand pre post hds := h.ampersand (cs ++ pre) post (by rw [hds, List.append_assoc])

theorem Safe.tail {c : Char} {cs : List Char} (h : Safe (c :: cs)) : Safe cs :=
  Safe.of_append (show Safe ([c] ++ cs) from h)

/-- An entity starts with an ampersand, and has no other character of markup. -/
theorem exists_of_mem_entities {e : Char × String} (he : e ∈ entities) :
    ∃ cs, e.2.toList = '&' :: cs ∧ ∀ c ∈ cs, c ∉ ['&', '<', '>', '"', '\''] := by
  have hplain : e.2.toList.tail.all fun c => decide (c ∉ ['&', '<', '>', '"', '\'']) := by
    fin_cases he <;> decide
  refine ⟨e.2.toList.tail, by fin_cases he <;> rfl, fun c hc => ?_⟩
  exact of_decide_eq_true (List.all_eq_true.1 hplain c hc)

/-- No entity starts another one. -/
theorem entity_eq_of_isPrefix {e e' : Char × String} (he : e ∈ entities) (he' : e' ∈ entities) {cs : List Char}
    (h : e.2.toList <+: cs) (h' : e'.2.toList <+: cs) : e = e' := by
  have hall : ∀ e ∈ entities, ∀ e' ∈ entities, e.2.toList <+: e'.2.toList → e = e' := by decide
  rcases List.prefix_or_prefix_of_prefix h h' with h | h
  · exact hall e he e' he' h
  · exact (hall e' he' e he h).symm

theorem unescapeFrom_eq_drop (wait : Nat) (cs : List Char) : unescapeFrom wait cs = unescapeFrom 0 (cs.drop wait) := by
  induction wait generalizing cs with
  | zero => rfl
  | succ wait ih =>
    cases cs with
    | nil => simp [unescapeFrom]
    | cons c cs => exact ih cs

theorem drop_entity {e : Char × String} (he : e ∈ entities) {c : Char} {cs rest : List Char}
    (h : e.2.toList ++ rest = c :: cs) : cs.drop (e.2.length - 1) = rest := by
  obtain ⟨tail, htail, -⟩ := exists_of_mem_entities he
  have hlength : e.2.length = tail.length + 1 := by rw [← String.length_toList, htail, List.length_cons]
  rw [htail, List.cons_append] at h
  rw [hlength, ← (List.cons.inj h).2, Nat.add_sub_cancel, List.drop_left]

/-- Behind an entity the reading goes on as behind its character. -/
theorem unescapeFrom_entity {e : Char × String} (he : e ∈ entities) (rest : List Char) :
    unescapeFrom 0 (e.2.toList ++ rest) = e.1 :: unescapeFrom 0 rest := by
  cases hcs : e.2.toList ++ rest with
  | nil =>
    obtain ⟨tail, htail, -⟩ := exists_of_mem_entities he
    rw [htail] at hcs
    cases hcs
  | cons c cs =>
    have hprefix : e.2.toList <+: c :: cs := ⟨rest, hcs⟩
    have hfind : entities.find? (fun e => e.2.toList.isPrefixOf (c :: cs)) = some e := by
      cases hf : entities.find? fun e => e.2.toList.isPrefixOf (c :: cs) with
      | none => exact absurd (List.isPrefixOf_iff_prefix.2 hprefix) (List.find?_eq_none.1 hf e he)
      | some e' =>
        have hfound := List.find?_some hf
        have hprefix' := List.isPrefixOf_iff_prefix.1 hfound
        rw [entity_eq_of_isPrefix he (List.mem_of_find?_eq_some hf) hprefix hprefix']
    rw [unescapeFrom, hfind]
    dsimp only
    rw [unescapeFrom_eq_drop, drop_entity he hcs]

/-- A character that starts no entity stands for itself. -/
theorem unescapeFrom_other {c : Char} {cs : List Char} (h : ∀ e ∈ entities, ¬ e.2.toList <+: c :: cs) :
    unescapeFrom 0 (c :: cs) = c :: unescapeFrom 0 cs := by
  have hfind : entities.find? (fun e => e.2.toList.isPrefixOf (c :: cs)) = none := by
    rw [List.find?_eq_none]
    intro e he hprefix
    exact h e he (List.isPrefixOf_iff_prefix.1 hprefix)
  rw [unescapeFrom, hfind]

theorem not_prefix_of_ne {c : Char} (hc : c ≠ '&') {cs : List Char} : ∀ e ∈ entities, ¬ e.2.toList <+: c :: cs := by
  intro e he hprefix
  obtain ⟨tail, htail, -⟩ := exists_of_mem_entities he
  rw [htail, List.cons_prefix_cons] at hprefix
  exact hc hprefix.1.symm

/-! ## Escaped texts -/

/-- What is read back from an escaped text is the text. -/
theorem unescapeFrom_escaped (cs : List Char) : unescapeFrom 0 (cs.flatMap escapedChar) = cs := by
  induction cs with
  | nil => rfl
  | cons c cs ih =>
    rw [List.flatMap_cons]
    rcases escapedChar_cases c with ⟨e, he, rfl, hc⟩ | ⟨hno, hc⟩
    · rw [hc, unescapeFrom_entity he, ih]
    · have hamp : c ≠ '&' := fun h => hno ('&', "&amp;") (by decide) h.symm
      rw [hc, List.singleton_append, unescapeFrom_other (not_prefix_of_ne hamp), ih]

/-- An entity in front of a safe text leaves it safe. -/
theorem Safe.entity {e : Char × String} (he : e ∈ entities) {cs : List Char} (h : Safe cs) :
    Safe (e.2.toList ++ cs) := by
  obtain ⟨tail, htail, hplain⟩ := exists_of_mem_entities he
  rw [htail]
  refine ⟨fun c hc => ?_, fun pre post hsplit => ?_⟩
  · rcases List.mem_append.1 hc with hc | hc
    · rcases List.mem_cons.1 hc with rfl | hc
      · decide
      · exact fun hmem => hplain c hc (List.mem_cons_of_mem _ hmem)
    · exact h.plain c hc
  · cases pre with
    | nil =>
      rw [List.nil_append] at hsplit
      exact ⟨e, he, cs, by rw [htail, hsplit]⟩
    | cons a pre =>
      -- the only ampersand of the entity is its first character
      have htails : tail ++ cs = pre ++ '&' :: post := (List.cons.inj hsplit).2
      rcases List.append_eq_append_iff.1 htails with ⟨ds, rfl, hcs⟩ | ⟨ds, rfl, hpost⟩
      · exact h.ampersand ds post hcs
      · cases ds with
        | nil => exact h.ampersand [] post hpost.symm
        | cons d ds =>
          obtain ⟨rfl, -⟩ := List.cons.inj hpost
          exact absurd (by simp) (hplain '&' (by simp))

/-- So does a character that is not one of markup. -/
theorem Safe.cons {c : Char} (hc : ∀ e ∈ entities, e.1 ≠ c) {cs : List Char} (h : Safe cs) : Safe (c :: cs) := by
  have hmarkup : c ∉ ['&', '<', '>', '"', '\''] := by
    intro hmem
    obtain ⟨e, he, hec⟩ := List.mem_map.1 (show c ∈ entities.map (·.1) from hmem)
    exact hc e he hec
  refine ⟨fun d hd => ?_, fun pre post hsplit => ?_⟩
  · rcases List.mem_cons.1 hd with rfl | hd
    · exact fun hmem => hmarkup (List.mem_cons_of_mem _ hmem)
    · exact h.plain d hd
  · cases pre with
    | nil =>
      obtain ⟨rfl, -⟩ := List.cons.inj hsplit
      exact absurd (by simp) hmarkup
    | cons a pre => exact h.ampersand pre post (List.cons.inj hsplit).2

theorem safe_escaped (cs : List Char) : Safe (cs.flatMap escapedChar) := by
  induction cs with
  | nil => exact ⟨nofun, by simp⟩
  | cons c cs ih =>
    rw [List.flatMap_cons]
    rcases escapedChar_cases c with ⟨e, he, rfl, hc⟩ | ⟨hno, hc⟩
    · rw [hc]
      exact ih.entity he
    · rw [hc]
      exact ih.cons hno

/-- A safe text is the escaped form of what is read back from it. -/
theorem Safe.escaped_unescapeFrom {wait : Nat} {cs : List Char} (h : Safe (cs.drop wait)) :
    (unescapeFrom wait cs).flatMap escapedChar = cs.drop wait := by
  fun_induction unescapeFrom wait cs with
  | case1 => simp
  | case2 wait c cs ih => exact ih h
  | case3 c cs e he ih =>
    have hmem := List.mem_of_find?_eq_some he
    have hfound := List.find?_some he
    obtain ⟨rest, hrest⟩ := List.isPrefixOf_iff_prefix.1 hfound
    rw [List.drop_zero, ← hrest] at h
    rw [drop_entity hmem hrest] at ih
    rw [List.flatMap_cons, escapedChar_of_mem hmem, ih h.of_append, hrest, List.drop_zero]
  | case4 c cs he ih =>
    have hamp : c ≠ '&' := by
      rintro rfl
      obtain ⟨e, hmem, hprefix⟩ := h.ampersand [] cs rfl
      exact List.find?_eq_none.1 he e hmem (List.isPrefixOf_iff_prefix.2 hprefix)
    have hmarkup : ∀ e ∈ entities, e.1 = '&' ∨ e.1 ∈ ['<', '>', '"', '\''] := by decide
    have hno : ∀ e ∈ entities, e.1 ≠ c := by
      rintro e hmem rfl
      rcases hmarkup e hmem with heq | hin
      · exact hamp heq
      · exact h.plain _ (List.mem_cons_self ..) hin
    have hrest : Safe cs := h.tail
    rcases escapedChar_cases c with ⟨e, hmem, heq, -⟩ | ⟨-, hc⟩
    · exact absurd heq (hno e hmem)
    · rw [List.flatMap_cons, hc, ih hrest]
      rfl

/-- A text and its escaped form. -/
structure Escaped (text out : String) : Prop where
  /-- The characters of markup stand in it only as the starts of entities. -/
  safe : Safe out.toList
  /-- With its entities read back it is the text. -/
  restored : unescapeMarkup out = text

/-- A text has one escaped form. -/
theorem escaped_iff {text out : String} : Escaped text out ↔ out = escapeMarkup text := by
  constructor
  · rintro ⟨hsafe, rfl⟩
    apply String.toList_inj.1
    rw [toList_escapeMarkup, unescapeMarkup, String.toList_ofList]
    have hdrop : Safe (out.toList.drop 0) := hsafe
    exact hdrop.escaped_unescapeFrom.symm
  · rintro rfl
    refine ⟨?_, ?_⟩
    · rw [toList_escapeMarkup]
      exact safe_escaped _
    · rw [unescapeMarkup, toList_escapeMarkup, unescapeFrom_escaped, String.ofList_toList]

end Text

/-! ## The filter -/

namespace BuiltinFilter

open Text

variable {others : Attributes}

theorem escape_eq_ok {v r : Value} :
    escape.apply others v [] = .ok r ↔ ∃ text, v.outputText = .ok text ∧ r = .str (escapeMarkup text) := by
  have happly : escape.apply others v [] = v.outputText >>= fun text => .ok (.str (escapeMarkup text)) := rfl
  rw [happly, bind_eq_ok]
  exact exists_congr fun text => and_congr_right fun _ => by rw [Except.ok.injEq, eq_comm]

theorem escape_eq_error {v : Value} {f : Fault} : escape.apply others v [] = .error f ↔ v.outputText = .error f := by
  have happly : escape.apply others v [] = v.outputText >>= fun text => .ok (.str (escapeMarkup text)) := rfl
  rw [happly, bind_eq_error]
  simp

/-- The filter gives the escaped form of the text of a value, which is safe to put into markup and from which the text
is read back, and fails only where the value has no text; so two texts are never escaped to the same one. -/
theorem escape_reversible (others : Attributes) (v : Value) :
    (∀ r, escape.apply others v [] = .ok r ↔ ∃ text out, v.outputText = .ok text ∧ Escaped text out ∧ r = .str out) ∧
    (∀ f, escape.apply others v [] = .error f ↔ v.outputText = .error f) ∧
    Function.Injective fun s : String => escape.apply others (.str s) [] := by
  refine ⟨fun r => ?_, fun f => escape_eq_error, fun s t hst => ?_⟩
  · simp only [escape_eq_ok, escaped_iff, exists_eq_left, exists_and_left]
  · have hs : escape.apply others (.str s) [] = .ok (.str (escapeMarkup s)) := escape_eq_ok.2 ⟨s, rfl, rfl⟩
    have ht : escape.apply others (.str t) [] = .ok (.str (escapeMarkup t)) := escape_eq_ok.2 ⟨t, rfl, rfl⟩
    have hout : escapeMarkup s = escapeMarkup t := Value.str.inj (Except.ok.inj (hs.symm.trans (hst.trans ht)))
    have hrestored := (escaped_iff.2 hout).restored
    rw [← hrestored, (escaped_iff.2 rfl).restored]

/-- A text that looks like an entity is told from the character that the entity stands for. -/
example : escapeMarkup "&lt; <" = "&amp;lt; &lt;" := by decide

end BuiltinFilter

end TemplateEngine
