/-
What is taken off at the ends of a text, and how the payload of a tag spells its name and its signature.
-/
import Mathlib.Data.List.DropRight
import TemplateEngine.Tag.Markup

namespace TemplateEngine

/-! ## Trimming -/

namespace Text

variable {drop : Char → Bool} {cs : List Char} {c : Char}

theorem trimBy_eq (drop : Char → Bool) (cs : List Char) :
    trimBy drop cs = (cs.dropWhile drop).rdropWhile drop := rfl

/-- Only characters of the class stand around what trimming leaves. -/
theorem exists_eq_trimBy (drop : Char → Bool) (cs : List Char) :
    ∃ lead trail, cs = lead ++ trimBy drop cs ++ trail ∧ ∀ c ∈ lead ++ trail, drop c = true := by
  refine ⟨cs.takeWhile drop, (cs.dropWhile drop).rtakeWhile drop, ?_, ?_⟩
  · rw [trimBy_eq, List.append_assoc, List.rdropWhile_append_rtakeWhile, List.takeWhile_append_dropWhile]
  · intro c hc
    rcases List.mem_append.1 hc with hc | hc
    · exact List.mem_takeWhile_imp hc
    · exact List.mem_rtakeWhile_imp hc

/-- What trimming leaves starts with no character of the class. -/
theorem head?_trimBy (h : (trimBy drop cs).head? = some c) : drop c = false := by
  rw [trimBy_eq] at h
  obtain ⟨trail, ht⟩ := List.rdropWhile_prefix drop (cs.dropWhile drop)
  have hhead : (cs.dropWhile drop).head? = some c := by
    rw [← ht, List.head?_append, h]
    rfl
  have := List.head?_dropWhile_not drop cs
  rw [hhead] at this
  exact this

/-- What trimming leaves ends with no character of the class. -/
theorem getLast?_trimBy (h : (trimBy drop cs).getLast? = some c) : drop c = false := by
  rw [trimBy_eq] at h
  have hne : (cs.dropWhile drop).rdropWhile drop ≠ [] := by
    intro hnil
    rw [hnil] at h
    cases h
  rw [List.getLast?_eq_some_getLast hne] at h
  cases h
  simpa using List.rdropWhile_last_not drop _ hne

/-- A list that neither starts nor ends with the class stays as it is. -/
theorem trimBy_eq_self (hhead : ∀ c ∈ cs.head?, drop c = false) (hlast : ∀ c ∈ cs.getLast?, drop c = false) :
    trimBy drop cs = cs := by
  have hdrop : cs.dropWhile drop = cs := by
    cases cs with
    | nil => rfl
    | cons c cs =>
      refine List.dropWhile_cons_of_neg ?_
      rw [hhead c rfl]
      exact Bool.false_ne_true
  rw [trimBy_eq, hdrop, List.rdropWhile_eq_self_iff]
  intro hne
  rw [hlast _ (List.getLast?_eq_some_getLast hne)]
  exact Bool.false_ne_true

theorem trimBy_cons (hc : drop c = true) (cs : List Char) : trimBy drop (c :: cs) = trimBy drop cs := by
  rw [trimBy_eq, trimBy_eq, List.dropWhile_cons_of_pos hc]

theorem trimBy_concat (hc : drop c = true) (cs : List Char) : trimBy drop (cs ++ [c]) = trimBy drop cs := by
  rw [trimBy_eq, trimBy_eq, List.dropWhile_append]
  split
  · rename_i hempty
    rw [List.isEmpty_iff] at hempty
    rw [hempty, List.dropWhile_cons_of_pos hc]
    rfl
  · exact List.rdropWhile_concat_pos _ _ _ hc

end Text

/-! ## Markup -/

open TemplateEngine.Text

/-- A payload spells a markup: its first word is the name, and the signature is what follows the name,
without the white space around it. -/
structure TagMarkup.Spelled (m : TagMarkup) (payload : String) : Prop where
  parts : ∃ lead gap trail, payload.toList = lead ++ m.name.toList ++ gap ++ m.signature.toList ++ trail ∧
    (∀ c ∈ lead ++ gap ++ trail, isBlank c = true) ∧ (gap = [] → m.signature.toList = [])
  name_ne_nil : m.name.toList ≠ []
  name : ∀ c ∈ m.name.toList, isBlank c = false
  head : ∀ c ∈ m.signature.toList.head?, isBlank c = false
  last : ∀ c ∈ m.signature.toList.getLast?, isBlank c = false

theorem TagMarkup.spelled_of_ofPayload? {payload : String} {m : TagMarkup} (h : ofPayload? payload = some m) :
    m.Spelled payload := by
  unfold ofPayload? at h
  generalize hcs : payload.toList.dropWhile isBlank = cs at h
  dsimp only at h
  split at h
  · cases h
  · rename_i hne
    cases h
    obtain ⟨gap, trail, hrest, hblank⟩ := exists_eq_trimBy isBlank (cs.dropWhile (!isBlank ·))
    refine ⟨⟨payload.toList.takeWhile isBlank, gap, trail, ?_, ?_, ?_⟩, by simpa using hne, ?_, ?_, ?_⟩
    · simp only [String.toList_ofList, List.append_assoc]
      rw [← List.append_assoc gap, ← hrest, List.takeWhile_append_dropWhile, ← hcs,
        List.takeWhile_append_dropWhile]
    · intro c hc
      rw [List.append_assoc] at hc
      rcases List.mem_append.1 hc with hc | hc
      · exact List.mem_takeWhile_imp hc
      · exact hblank c hc
    · rintro rfl
      rw [String.toList_ofList]
      -- what follows the name starts with a blank, and the signature does not
      cases hsig : trimBy isBlank (cs.dropWhile (!isBlank ·)) with
      | nil => rfl
      | cons c sig =>
        have hhead := List.head?_dropWhile_not (!isBlank ·) cs
        rw [hrest, hsig] at hhead
        have hc : isBlank c = false := head?_trimBy (by rw [hsig]; rfl)
        simp [hc] at hhead
    · intro c hc
      rw [String.toList_ofList] at hc
      simpa using List.mem_takeWhile_imp hc
    · intro c hc
      rw [String.toList_ofList] at hc
      exact head?_trimBy hc
    · intro c hc
      rw [String.toList_ofList] at hc
      exact getLast?_trimBy hc

end TemplateEngine
