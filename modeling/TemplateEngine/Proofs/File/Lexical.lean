/-
Paths as texts. The lexical normalisation of a text goes along its components between slashes: empty ones and single dots
mean nothing, and a double dot takes back the component before it. The components that a path is read as lead to the same
place, and the text of a path has the components of the path.
-/
import TemplateEngine.Proofs.File.Path

namespace TemplateEngine

open Text

namespace Text

variable {mark : Char}

theorem splitAt_ne_nil (mark : Char) (cs : List Char) : splitAt mark cs ≠ [] := by
  cases cs with
  | nil => nofun
  | cons c cs =>
    rw [splitAt]
    split
    · nofun
    · split <;> nofun

theorem splitAt_append (cs ds : List Char) : splitAt mark (cs ++ mark :: ds) = splitAt mark cs ++ splitAt mark ds := by
  induction cs with
  | nil => simp [splitAt]
  | cons c cs ih =>
    obtain ⟨piece, pieces, hpieces⟩ := List.exists_cons_of_ne_nil (splitAt_ne_nil mark cs)
    rw [List.cons_append, splitAt, splitAt, ih, hpieces]
    split <;> rfl

theorem splitAt_of_not_mem {cs : List Char} (h : mark ∉ cs) : splitAt mark cs = [cs] := by
  induction cs with
  | nil => rfl
  | cons c cs ih =>
    obtain ⟨hc, hcs⟩ := not_or.1 (mt List.mem_cons.2 h)
    rw [splitAt, ih hcs, if_neg (by simpa using Ne.symm hc)]

theorem not_mem_of_mem_splitAt {cs piece : List Char} (h : piece ∈ splitAt mark cs) : mark ∉ piece := by
  induction cs generalizing piece with
  | nil =>
    rw [List.mem_singleton.1 h]
    nofun
  | cons c cs ih =>
    obtain ⟨first, pieces, hpieces⟩ := List.exists_cons_of_ne_nil (splitAt_ne_nil mark cs)
    rw [splitAt, hpieces] at h
    rw [hpieces] at ih
    split at h
    · rcases List.mem_cons.1 h with rfl | h
      · nofun
      · exact ih h
    · rename_i hc
      rcases List.mem_cons.1 h with rfl | h
      · intro hmem
        rcases List.mem_cons.1 hmem with rfl | hmem
        · simp at hc
        · exact ih (List.mem_cons_self ..) hmem
      · exact ih (List.mem_cons_of_mem _ h)

theorem mem_of_mem_splitAt {cs piece : List Char} {c : Char} (h : piece ∈ splitAt mark cs) (hc : c ∈ piece) : c ∈ cs := by
  induction cs generalizing piece with
  | nil =>
    rw [List.mem_singleton.1 h] at hc
    exact hc
  | cons d cs ih =>
    obtain ⟨first, pieces, hpieces⟩ := List.exists_cons_of_ne_nil (splitAt_ne_nil mark cs)
    rw [splitAt, hpieces] at h
    rw [hpieces] at ih
    split at h
    · rcases List.mem_cons.1 h with rfl | h
      · exact nomatch hc
      · exact List.mem_cons_of_mem _ (ih h hc)
    · rcases List.mem_cons.1 h with rfl | h
      · rcases List.mem_cons.1 hc with rfl | hc
        · exact List.mem_cons_self ..
        · exact List.mem_cons_of_mem _ (ih (List.mem_cons_self ..) hc)
      · exact List.mem_cons_of_mem _ (ih (List.mem_cons_of_mem _ h) hc)

end Text

namespace Path

/-! ## Components of texts -/

theorem isPart_iff {part : String} : isPart part = true ↔ part ≠ "" ∧ part ≠ "." := by
  simp [isPart]

theorem partsOf_slash (s t : String) : partsOf (s ++ "/" ++ t) = partsOf s ++ partsOf t := by
  have hchars : (s ++ "/" ++ t).toList = s.toList ++ '/' :: t.toList := by simp
  rw [partsOf, hchars, splitAt_append, List.map_append, List.filter_append]
  rfl

theorem partsOf_slash_front (t : String) : partsOf ("/" ++ t) = partsOf t :=
  partsOf_slash "" t

theorem partsOf_of_part {part : String} (hp : isPart part = true) (hs : '/' ∉ part.toList) :
    partsOf part = [part] := by
  rw [partsOf, splitAt_of_not_mem hs, List.map_singleton, String.ofList_toList]
  exact List.filter_eq_self.2 (List.forall_mem_singleton.2 hp)

theorem of_mem_partsOf {part s : String} (h : part ∈ partsOf s) : isPart part = true ∧ '/' ∉ part.toList := by
  obtain ⟨hmem, hp⟩ := List.mem_filter.1 h
  obtain ⟨piece, hpiece, rfl⟩ := List.mem_map.1 hmem
  rw [String.toList_ofList]
  exact ⟨hp, not_mem_of_mem_splitAt hpiece⟩

theorem mem_of_mem_partsOf {part s : String} {c : Char} (h : part ∈ partsOf s) (hc : c ∈ part.toList) : c ∈ s.toList := by
  obtain ⟨piece, hpiece, rfl⟩ := List.mem_map.1 (List.mem_filter.1 h).1
  rw [String.toList_ofList] at hc
  exact mem_of_mem_splitAt hpiece hc

theorem partsOf_intercalate {parts : List String} (h : ∀ part ∈ parts, isPart part = true ∧ '/' ∉ part.toList) :
    partsOf ("/".intercalate parts) = parts := by
  induction parts with
  | nil => rfl
  | cons part parts ih =>
    obtain ⟨⟨hp, hs⟩, hparts⟩ := List.forall_mem_cons.1 h
    cases parts with
    | nil => rw [String.intercalate_singleton, partsOf_of_part hp hs]
    | cons next parts => rw [String.intercalate_cons_cons, partsOf_slash, ih hparts, partsOf_of_part hp hs]; rfl

/-! ## Texts of paths -/

theorem anchorOf_cases (s : String) : anchorOf s = "" ∨ anchorOf s = "/" ∨ anchorOf s = "//" := by
  unfold anchorOf
  split
  · exact .inl rfl
  · exact .inr (.inr rfl)
  · exact .inr (.inl rfl)

theorem parts_ofString (s : String) : (ofString s).parts = partsOf s := rfl

/-- A text is a path from the topmost directory exactly if it starts with a slash. -/
theorem absolute_ofString {s : String} : (ofString s).absolute = true ↔ s.toList.head? = some '/' := by
  unfold absolute ofString anchorOf
  cases s.toList with
  | nil => simp
  | cons c cs =>
    by_cases hc : c = '/'
    · subst hc
      simp
      split <;> simp_all
    · simp [hc]

/-- What holds of the components of a path holds of those of the path above it. -/
theorem forall_parts_parent {P : String → Prop} {p : Path} (h : ∀ part ∈ p.parts, P part) :
    ∀ part ∈ p.parent.parts, P part :=
  fun part hpart => h part (List.dropLast_subset _ hpart)

theorem forall_parts_join {P : String → Prop} {p q : Path} (hp : ∀ part ∈ p.parts, P part) (hq : ∀ part ∈ q.parts, P part) :
    ∀ part ∈ (p.join q).parts, P part := by
  unfold Path.join
  split
  · exact hq
  · exact List.forall_mem_append.2 ⟨hp, hq⟩

/-- A path as it can be read from a text: its components are those of a text. -/
structure Written (p : Path) : Prop where
  anchor : p.anchor = "" ∨ p.anchor = "/" ∨ p.anchor = "//"
  parts : ∀ part ∈ p.parts, isPart part = true ∧ '/' ∉ part.toList

theorem written_ofString (s : String) : (ofString s).Written where
  anchor := anchorOf_cases s
  parts := fun _ h => of_mem_partsOf h

theorem Written.parent {p : Path} (h : p.Written) : p.parent.Written where
  anchor := h.anchor
  parts := forall_parts_parent h.parts

theorem Written.join {p q : Path} (hp : p.Written) (hq : q.Written) : (p.join q).Written where
  anchor := by
    unfold Path.join
    split
    · exact hq.anchor
    · exact hp.anchor
  parts := forall_parts_join hp.parts hq.parts

theorem Written.withName {p q : Path} {name : String} (hp : p.Written) (h : p.withName name = .ok q) : q.Written := by
  unfold Path.withName at h
  split at h
  · cases h
  · split at h
    · cases h
    · cases h
      refine ⟨hp.anchor, fun part hpart => ?_⟩
      exact (List.mem_append.1 hpart).elim (fun h => hp.parts part (List.dropLast_subset _ h)) of_mem_partsOf

/-- The text of a path has its components. -/
theorem Written.partsOf_text {p : Path} (h : p.Written) : partsOf p.text = p.parts := by
  obtain ⟨anchor, parts⟩ := p
  have hparts := partsOf_intercalate h.parts
  unfold text absolute
  rcases h.anchor with rfl | rfl | rfl
  · cases parts with
    | nil => rfl
    | cons part parts => exact hparts
  · exact (partsOf_slash_front _).trans hparts
  · show partsOf ("/" ++ ("/" ++ "/".intercalate parts)) = parts
    rw [partsOf_slash_front, partsOf_slash_front, hparts]

/-- The text of a path starts with a slash exactly if the path starts from the topmost directory. -/
theorem Written.head?_text {p : Path} (h : p.Written) : p.text.toList.head? = some '/' ↔ p.absolute = true := by
  obtain ⟨anchor, parts⟩ := p
  unfold text absolute
  rcases h.anchor with rfl | rfl | rfl
  · cases parts with
    | nil => decide
    | cons part parts =>
      obtain ⟨⟨hp, hs⟩, -⟩ := List.forall_mem_cons.1 h.parts
      have hne : part.toList ≠ [] := by
        rw [Ne, String.toList_eq_nil_iff]
        exact (isPart_iff.1 hp).1
      obtain ⟨c, cs, hc⟩ := List.exists_cons_of_ne_nil hne
      rw [hc] at hs
      have hhead : ("" ++ "/".intercalate (part :: parts)).toList.head? = some c := by
        cases parts with
        | nil => simp [hc]
        | cons next parts => simp [String.intercalate_cons_cons, hc]
      show ("" ++ "/".intercalate (part :: parts)).toList.head? = some '/' ↔ false = true
      rw [hhead]
      simp only [Option.some.injEq, Bool.false_eq_true, iff_false]
      rintro rfl
      exact hs (List.mem_cons_self ..)
  · simp
  · simp

/-! ## Lexical normalisation -/

/-- One component between slashes, from the place that those before it lead to. -/
def lexicalStep (place : List String) (part : String) : List String :=
  if part = "" ∨ part = "." then place else if part = ".." then place.dropLast else place ++ [part]

/-- The place that a text means which starts from the topmost directory, component by component. -/
def lexical (text : String) : List String :=
  ((splitAt '/' text.toList).map String.ofList).foldl lexicalStep []

theorem foldl_lexicalStep (parts place : List String) :
    parts.foldl lexicalStep place = follow place (parts.filter isPart) := by
  induction parts generalizing place with
  | nil => rfl
  | cons part parts ih =>
    rw [List.foldl_cons, ih, List.filter_cons, lexicalStep]
    by_cases hp : part = "" ∨ part = "."
    · have hpart : isPart part = false := by
        rw [← Bool.not_eq_true, isPart_iff, ← not_or, not_not]
        exact hp
      rw [if_pos hp, hpart, if_neg Bool.false_ne_true]
    · have hpart : isPart part = true := isPart_iff.2 (not_or.1 hp)
      rw [if_neg hp, hpart, if_pos rfl, follow]
      simp only [beq_iff_eq]

/-- A text leads where the components lead that it is read as. -/
theorem lexical_eq (text : String) : lexical text = follow [] (partsOf text) :=
  foldl_lexicalStep _ _

/-- A path seen from another one, as texts: one from the topmost directory is that path itself. -/
def joinText (p q : String) : String :=
  if q.toList.head? = some '/' then q else p ++ "/" ++ q

theorem lexical_joinText (p q : String) : lexical (joinText p q) =
    if q.toList.head? = some '/' then lexical q else follow (lexical p) (partsOf q) := by
  unfold joinText
  split
  · rfl
  · rw [lexical_eq, partsOf_slash, follow_append, ← lexical_eq]

/-! ## Names -/

/-- A component that names something in a directory: no text without meaning, no double dot, and no slash in it. -/
structure IsName (part : String) : Prop where
  ne_empty : part ≠ ""
  ne_dot : part ≠ "."
  ne_dots : part ≠ ".."
  slashless : '/' ∉ part.toList

instance (part : String) : Decidable (IsName part) :=
  decidable_of_iff (part ≠ "" ∧ part ≠ "." ∧ part ≠ ".." ∧ '/' ∉ part.toList)
    ⟨fun ⟨he, hd, hdd, hs⟩ => ⟨he, hd, hdd, hs⟩, fun h => ⟨h.ne_empty, h.ne_dot, h.ne_dots, h.slashless⟩⟩

theorem IsName.part {part : String} (h : IsName part) : isPart part = true ∧ '/' ∉ part.toList :=
  ⟨isPart_iff.2 ⟨h.ne_empty, h.ne_dot⟩, h.slashless⟩

/-- Names lead down. -/
theorem follow_names {parts : List String} (h : ∀ part ∈ parts, IsName part) (place : List String) :
    follow place parts = place ++ parts := by
  induction parts generalizing place with
  | nil => rw [follow, List.append_nil]
  | cons part parts ih =>
    obtain ⟨hp, hparts⟩ := List.forall_mem_cons.1 h
    rw [follow, if_neg (by simpa using hp.ne_dots), ih hparts, List.append_assoc]
    rfl

/-- A path that does not start from the topmost directory goes on from where the one before it leads. -/
theorem resolve_join {p q : Path} (hq : q.absolute = false) (directory : List String) :
    (p.join q).resolve directory = follow (p.resolve directory) q.parts := by
  rw [join, if_neg (by rw [hq]; exact Bool.false_ne_true)]
  exact follow_append _ _ _

theorem lexical_absoluteText {directory : List String} (h : ∀ part ∈ directory, IsName part) :
    lexical (absoluteText directory) = directory := by
  have hwritten : (⟨"/", directory⟩ : Path).Written := ⟨.inr (.inl rfl), fun part hpart => (h part hpart).part⟩
  rw [lexical_eq, absoluteText, hwritten.partsOf_text, follow_names h, List.nil_append]

/-- The text of a path behind that of a directory leads where the path leads from the directory. -/
theorem lexical_joinText_text {directory : List String} (hdirectory : ∀ part ∈ directory, IsName part) {p : Path}
    (hp : p.Written) : lexical (joinText (absoluteText directory) p.text) = p.resolve directory := by
  rw [lexical_joinText, lexical_absoluteText hdirectory, lexical_eq, hp.partsOf_text, resolve]
  by_cases ha : p.absolute = true
  · rw [if_pos (hp.head?_text.2 ha), if_pos ha]
  · rw [if_neg (mt hp.head?_text.1 ha), if_neg ha]

/-- From a place of names all components lead to places of names. -/
theorem isName_of_mem_follow {parts place : List String} (hplace : ∀ part ∈ place, IsName part)
    (hparts : ∀ part ∈ parts, isPart part = true ∧ '/' ∉ part.toList) : ∀ part ∈ follow place parts, IsName part := by
  induction parts generalizing place with
  | nil => exact hplace
  | cons part parts ih =>
    obtain ⟨⟨hp, hs⟩, hparts⟩ := List.forall_mem_cons.1 hparts
    rw [follow]
    refine ih ?_ hparts
    split
    · exact fun name hname => hplace name (List.dropLast_subset _ hname)
    · rename_i hdots
      intro name hname
      rcases List.mem_append.1 hname with hname | hname
      · exact hplace name hname
      · rw [List.mem_singleton.1 hname]
        exact ⟨(isPart_iff.1 hp).1, (isPart_iff.1 hp).2, by simpa using hdots, hs⟩

end Path

end TemplateEngine
