/-
Settings that are refused. Those of a document with texts for its keys are refused for a wrong value at most; where one
of the keys is no text, what is refused is not its name but the attempt to put the names in order and join them.
-/
import Mathlib.Data.Set.List
import TemplateEngine.Config.File
import TemplateEngine.Proofs.Sorting.Permutation
import TemplateEngine.Proofs.Value.Operators
import TemplateEngine.Proofs.Value.Printer

namespace TemplateEngine

/-- The fault of a wrong value. -/
def Fault.IsValue (f : Fault) : Prop :=
  ∃ p, f = .value p

/-- The fault of a value of a wrong type. -/
def Fault.IsType (f : Fault) : Prop :=
  ∃ p, f = .type p

theorem Value.answered_plainText (v : Value) : Answered Fault.IsValue v.plainText := by
  cases h : v.plainText with
  | ok s => exact .ok trivial
  | error f => exact .error ⟨_, plainText_eq_error h⟩

theorem Value.answered_quotedForm (v : Value) : Answered Fault.IsValue v.quotedForm := by
  cases h : v.quotedForm with
  | ok s => exact .ok trivial
  | error f => exact .error ⟨_, quotedForm_eq_error h⟩

theorem Path.answered_locate (directory : List String) (p : Path) : Answered Fault.IsValue (p.locate directory) := by
  unfold Path.locate
  split
  · exact .error ⟨_, rfl⟩
  · exact .ok trivial

namespace Config

/-! ## Settings that are texts -/

/-- All settings but the truth value are texts, as they are when they come from a document. -/
structure OfTexts (c : Config) : Prop where
  searchPath : ∃ s, c.searchPath = .str s
  encoding : ∃ s, c.encoding = .str s
  suffix : ∃ s, c.suffix = .str s

theorem answered_policy (c : Config) : Answered Fault.IsValue c.policy := by
  refine c.undefined.answered_plainText.bind fun shown _ => ?_
  dsimp only
  split
  · exact .ok trivial
  · split
    · exact .ok trivial
    · exact .error ⟨_, rfl⟩

theorem answered_checkSuffix (s : String) : Answered Fault.IsValue (checkSuffix (.str s)) := by
  unfold checkSuffix
  split
  · exact .ok trivial
  · dsimp only
    split
    · exact .ok trivial
    · exact .error ⟨_, rfl⟩

theorem OfTexts.checked {c : Config} (h : c.OfTexts) : Yields Fault.IsValue OfTexts c.checked := by
  obtain ⟨s, hs⟩ := h.suffix
  refine c.answered_policy.bind fun _ _ => ?_
  rw [hs]
  exact (answered_checkSuffix s).bind fun _ _ => .ok h

theorem OfTexts.environment {c : Config} (h : c.OfTexts) (files : FileTree) (directory : List String) :
    Answered Fault.IsValue (c.environment files directory) := by
  obtain ⟨path, hpath⟩ := h.searchPath
  obtain ⟨encoding, hencoding⟩ := h.encoding
  obtain ⟨suffix, hsuffix⟩ := h.suffix
  have hdirectory : Answered Fault.IsValue (c.templateDirectory directory) := by
    unfold templateDirectory
    rw [hpath, hencoding, hsuffix]
    exact show Answered _ ((Path.ofString path).locate directory >>= fun root =>
      (.ok ⟨root, encoding, suffix⟩ : Except Fault TemplateDirectory)) from
      (Path.answered_locate directory _).bind fun _ _ => .ok trivial
  exact c.answered_policy.bind fun _ _ => hdirectory.bind fun _ _ => .ok trivial

/-! ## Keys -/

/-- A key that is a text. -/
def IsText (key : Value) : Prop :=
  ∃ s, key = .str s

theorem keyNames_texts (names : List String) : keyNames (names.map .str) = .ok names := by
  induction names with
  | nil => rfl
  | cons s names ih =>
    rw [List.map_cons, keyNames, ih]
    rfl

theorem keyNames_of_not_text {keys : List Value} (h : ∃ k ∈ keys, ¬ IsText k) :
    ∃ f : Fault, keyNames keys = .error f ∧ f.IsType := by
  obtain ⟨k, hk, hnot⟩ := h
  induction keys with
  | nil => cases hk
  | cons key keys ih =>
    unfold keyNames
    split
    · rename_i heq
      cases heq
    · rename_i s rest heq
      cases heq
      rcases List.mem_cons.1 hk with rfl | hk
      · exact absurd ⟨s, rfl⟩ hnot
      · obtain ⟨f, hf, htype⟩ := ih hk
        rw [hf]
        exact ⟨f, rfl, htype⟩
    · exact ⟨_, rfl, _, rfl⟩

/-- The order in which unknown keys are given. -/
def smaller : Smaller Value :=
  fun a b => a.ordered .lt b

theorem unknownKeys_eq (keys : List Value) :
    unknownKeys keys = match (sorted smaller keys >>= keyNames : Except Fault (List String)) with
      | .ok names => .value (.configKeys names)
      | .error f => f :=
  rfl

/-- Unknown keys that are texts are named. -/
theorem unknownKeys_texts (names : List String) :
    ∃ names', names'.Perm names ∧ unknownKeys (names.map .str) = .value (.configKeys names') := by
  let before : Smaller String := fun s t => smaller (.str s) (.str t)
  have hbefore (s t : String) : Answered (fun _ => False) (before s t) := by
    show Yields _ _ ((Value.str s).ordered .lt (.str t))
    rw [Value.ordered]
    · exact .ok trivial
    · intro _ _ h
      cases h
    · intro _ _ h
      cases h
  have hsorted := sorted_perm hbefore names
  have hmap : sorted smaller (names.map .str) = List.map .str <$> sorted before names :=
    sorted_map (fun _ _ => rfl) names
  cases h : sorted before names with
  | error f => exact (h ▸ hsorted).of_error.elim
  | ok names' =>
    refine ⟨names', (h ▸ hsorted).of_ok, ?_⟩
    have hnames : (sorted smaller (names.map .str) >>= keyNames) = .ok names' := by
      rw [hmap, h]
      exact keyNames_texts names'
    rw [unknownKeys_eq, hnames]

/-- Unknown keys of which one is no text cannot be joined, if they can be put in order at all. -/
theorem unknownKeys_of_not_text {keys : List Value} (h : ∃ k ∈ keys, ¬ IsText k) : (unknownKeys keys).IsType := by
  have hsmaller (a b : Value) : Answered Fault.IsType (smaller a b) := by
    cases hab : smaller a b with
    | ok less => exact .ok trivial
    | error f => exact .error (Value.ordered_eq_error a b hab)
  have hsorted := sorted_perm hsmaller keys
  rw [unknownKeys_eq]
  cases hs : sorted smaller keys with
  | error f => exact (hs ▸ hsorted).of_error
  | ok keys' =>
    obtain ⟨k, hk, hnot⟩ := h
    obtain ⟨f, hf, htype⟩ := keyNames_of_not_text ⟨k, (hs ▸ hsorted).of_ok.mem_iff.2 hk, hnot⟩
    rw [ok_bind, hf]
    exact htype

/-! ## Settings of documents -/

/-- The keys of the entries are texts. -/
def TextKeys (entries : List (Value × Value)) : Prop :=
  ∀ e ∈ entries, IsText e.1

theorem exists_names {keys : List Value} (h : ∀ k ∈ keys, IsText k) : ∃ names : List String, keys = names.map .str := by
  have hrange : keys ∈ Set.range (List.map Value.str) := by
    rw [Set.range_list_map]
    exact fun k hk => (h k hk).imp fun _ => Eq.symm
  exact hrange.imp fun _ => Eq.symm

/-- The settings of a document whose keys are texts are taken in, or refused for a wrong value. -/
theorem ofEntries_of_texts {entries : List (Value × Value)} (h : TextKeys entries) :
    Yields Fault.IsValue OfTexts (ofEntries entries) := by
  have htexts : ∀ k ∈ (entries.map (·.1)).filter (!isName ·), IsText k := by
    intro k hk
    obtain ⟨e, he, rfl⟩ := List.mem_map.1 (List.mem_filter.1 hk).1
    exact h e he
  obtain ⟨names, hnames⟩ := exists_names htexts
  unfold ofEntries
  dsimp only
  split
  · obtain ⟨names', -, hunknown⟩ := unknownKeys_texts names
    rw [hnames, hunknown]
    exact .error ⟨_, rfl⟩
  · have htaken (parallel : Value) (searchPath undefined encoding suffix : String) :
        Yields Fault.IsValue OfTexts
          (checked ⟨.str searchPath, .str (Text.lower undefined), parallel, .str encoding, .str suffix⟩) := by
      have htexts : OfTexts ⟨.str searchPath, .str (Text.lower undefined), parallel, .str encoding, .str suffix⟩ :=
        ⟨⟨_, rfl⟩, ⟨_, rfl⟩, ⟨_, rfl⟩⟩
      exact htexts.checked
    split
    · refine (Value.answered_plainText _).bind fun searchPath _ => (Value.answered_plainText _).bind fun undefined _ =>
        (Value.answered_plainText _).bind fun encoding _ => ?_
      split
      · refine (Value.answered_plainText _).bind fun suffix _ => ?_
        exact htaken _ searchPath undefined encoding suffix
      · rw [pure_bind]
        exact htaken _ searchPath undefined encoding ""
    · exact (Value.answered_quotedForm _).bind fun shown _ => .error ⟨.parallelChildren shown, rfl⟩

/-- A document with a key that is no text is refused, though not for its unknown keys. -/
theorem ofEntries_of_not_texts {entries : List (Value × Value)} (h : ¬ TextKeys entries) :
    ∃ f : Fault, ofEntries entries = .error f ∧ f.IsType := by
  have hkey : ∃ k ∈ (entries.map (·.1)).filter (!isName ·), ¬ IsText k := by
    simp only [TextKeys, not_forall] at h
    obtain ⟨e, he, hnot⟩ := h
    refine ⟨e.1, List.mem_filter.2 ⟨List.mem_map_of_mem he, ?_⟩, hnot⟩
    unfold isName
    split
    · rename_i s hs
      exact absurd ⟨s, hs⟩ hnot
    · rfl
  have hempty : ((entries.map (·.1)).filter (!isName ·)).isEmpty = false := by
    obtain ⟨k, hk, -⟩ := hkey
    exact List.isEmpty_eq_false_iff.2 (List.ne_nil_of_mem hk)
  refine ⟨_, ?_, unknownKeys_of_not_text hkey⟩
  unfold ofEntries
  dsimp only
  rw [hempty]
  rfl

end Config

end TemplateEngine
