/-
Slashes and backslashes in ids. A path and its place are read off an id with slashes for its backslashes, but whether it
is a path from the template that asks for it is read off the id as it is written. So one that opens with a dot component
and a backslash is a path from the directory of all templates, and with a slash it would be one from the template.
-/
import TemplateEngine.Proofs.Loader.Directory

namespace TemplateEngine.TemplateDirectory

open TemplateEngine.Text

variable {d : TemplateDirectory} {id b : String} {base : Option String} {place : List String}

/-- An id opens with a dot component behind which there is a backslash. -/
def OpensBackward (id : String) : Prop :=
  ".\\".toList <+: id.toList ∨ "..\\".toList <+: id.toList

/-- The place of an id, if it has one. -/
def found (d : TemplateDirectory) (id : String) (base : Option String) : Option (List String) :=
  (d.resolve id base).toOption

/-- The place of an id depends on the path that it means, besides on whether it is blank or absolute. -/
theorem found_eq_some :
    d.found id base = some place ↔ blank id = false ∧ (Path.ofString (withSlashes id)).absolute = false ∧
      ∃ path, d.addSuffix (pathFrom base id) = .ok path ∧ path.locate d.root = .ok place ∧ d.root <+: place := by
  rw [found, toOption_eq_some, resolve]
  cases blank id with
  | true => simp
  | false =>
    cases (Path.ofString (withSlashes id)).absolute with
    | true => simp
    | false =>
      simp only [Bool.false_eq_true, if_false, true_and, bind_eq_ok, liftFault, mapError_eq_ok]
      refine exists_congr fun path => and_congr_right fun _ => ?_
      constructor
      · rintro ⟨place', hplace, h⟩
        split at h
        · cases h
          exact ⟨hplace, List.isPrefixOf_iff_prefix.1 ‹_›⟩
        · cases h
      · rintro ⟨hplace, hroot⟩
        exact ⟨place, hplace, if_pos (List.isPrefixOf_iff_prefix.2 hroot)⟩

/-! ## Slashes for backslashes -/

theorem toList_withSlashes (s : String) :
    (withSlashes s).toList = s.toList.map fun c => if c == '\\' then '/' else c := by
  rw [withSlashes, String.toList_ofList]

@[simp] theorem withSlashes_withSlashes (s : String) : withSlashes (withSlashes s) = withSlashes s := by
  apply String.toList_injective
  rw [toList_withSlashes, toList_withSlashes, List.map_map]
  refine List.map_congr_left fun c _ => ?_
  by_cases hc : c = '\\'
  · rw [hc]; rfl
  · simp [hc]

theorem blank_withSlashes (s : String) : blank (withSlashes s) = blank s := by
  rw [blank, blank, toList_withSlashes, List.all_map]
  congr 1
  funext c
  by_cases hc : c = '\\'
  · rw [hc]; decide
  · simp [hc]

/-- Dots and a slash stand in front of a text with slashes for its backslashes iff the dots and one of the two stand in
front of the text. -/
theorem dots_prefix_withSlashes (n : Nat) (cs : List Char) :
    List.replicate n '.' ++ ['/'] <+: (cs.map fun c => if c == '\\' then '/' else c) ↔
      List.replicate n '.' ++ ['/'] <+: cs ∨ List.replicate n '.' ++ ['\\'] <+: cs := by
  induction n generalizing cs with
  | zero =>
    cases cs with
    | nil => simp
    | cons c cs =>
      by_cases hc : c = '\\'
      · subst hc
        simp
      · simp [hc, Ne.symm hc]
  | succ n ih =>
    cases cs with
    | nil => simp
    | cons c cs =>
      rw [List.replicate_succ, List.map_cons, List.cons_append, List.cons_append, List.cons_prefix_cons,
        List.cons_prefix_cons, List.cons_prefix_cons, ih cs, ← and_or_left]
      by_cases hc : c = '\\'
      · subst hc
        simp
      · simp [hc]

theorem isRelative_withSlashes : isRelative (withSlashes id) = true ↔ isRelative id = true ∨ OpensBackward id := by
  have one := dots_prefix_withSlashes 1 id.toList
  have two := dots_prefix_withSlashes 2 id.toList
  rw [← toList_withSlashes] at one two
  simp only [isRelative, OpensBackward, Bool.or_eq_true, List.isPrefixOf_iff_prefix]
  exact (or_congr one two).trans or_or_or_comm

theorem not_isRelative_of_opensBackward (h : OpensBackward id) : isRelative id = false := by
  rw [Bool.eq_false_iff]
  intro hr
  simp only [isRelative, Bool.or_eq_true, List.isPrefixOf_iff_prefix] at hr
  -- two openings of one text would agree in the character behind the dots
  rcases h with ⟨_, h⟩ | ⟨_, h⟩ <;> rcases hr with ⟨_, hr⟩ | ⟨_, hr⟩ <;> rw [← h] at hr <;> simp at hr

/-! ## Places -/

/-- An id that opens with a backslash is seen from the directory of all templates. -/
theorem pathFrom_of_opensBackward (h : OpensBackward id) : pathFrom base id = pathFrom none (withSlashes id) := by
  rw [pathFrom_plain (.inr (not_isRelative_of_opensBackward h)), pathFrom_plain (.inl rfl), withSlashes_withSlashes]

theorem pathFrom_of_not_opensBackward (h : ¬ OpensBackward id) : pathFrom base id = pathFrom base (withSlashes id) := by
  have hrel : isRelative (withSlashes id) = isRelative id := by
    rw [Bool.eq_iff_iff, isRelative_withSlashes, or_iff_left h]
  unfold pathFrom
  rw [hrel, withSlashes_withSlashes]

theorem found_eq_of_pathFrom {base' : Option String} (h : pathFrom base id = pathFrom base' (withSlashes id)) :
    d.found id base = d.found (withSlashes id) base' := by
  ext place
  rw [found_eq_some, found_eq_some, blank_withSlashes, withSlashes_withSlashes, h]

/-- An id has the place, or the lack of one, that it has with slashes for its backslashes, iff it does not matter, where
it opens with a dot component and a backslash, whether it is a path from the template that asks for it. -/
theorem found_withSlashes_iff (d : TemplateDirectory) (id : String) (base : Option String) :
    d.found id base = d.found (withSlashes id) base ↔
      (OpensBackward id → d.found (withSlashes id) none = d.found (withSlashes id) base) := by
  by_cases h : OpensBackward id
  · rw [found_eq_of_pathFrom (pathFrom_of_opensBackward h), forall_prop_of_true h]
  · exact iff_of_true (found_eq_of_pathFrom (pathFrom_of_not_opensBackward h)) fun ho => absurd ho h

/-- In a template of the directory `a` the id `.\b.html` has a place, but another one than `./b.html`. -/
theorem found_backward_apart :
    (⟨["tpl"], "utf-8", ""⟩ : TemplateDirectory).found ".\\b.html" (some "a/x.html") = some ["tpl", "b.html"] ∧
    (⟨["tpl"], "utf-8", ""⟩ : TemplateDirectory).found (withSlashes ".\\b.html") (some "a/x.html") =
      some ["tpl", "a", "b.html"] := by
  decide

/-! ## Distance -/

theorem idParts_withSlashes : idParts (withSlashes id) = idParts id := by
  rw [idParts, idParts, withSlashes_withSlashes]

/-- Two places that are found below one directory are equal iff they are the same, or none is found. -/
theorem eq_iff_of_eq_some {x y : Option (List String)} {root p q : List String}
    (hx : ∀ r, x = some r ↔ r = p ∧ root <+: r) (hy : ∀ r, y = some r ↔ r = q ∧ root <+: r) :
    x = y ↔ p = q ∨ ¬ root <+: p ∧ ¬ root <+: q := by
  have none_iff {z : Option (List String)} {r : List String} (hz : ∀ r', z = some r' ↔ r' = r ∧ root <+: r') :
      z = none ↔ ¬ root <+: r := by
    rw [Option.eq_none_iff_forall_ne_some]
    exact ⟨fun h hr => h r ((hz r).2 ⟨rfl, hr⟩), fun h r' hr' => h (((hz r').1 hr').1 ▸ ((hz r').1 hr').2)⟩
  constructor
  · rintro rfl
    by_cases hp : root <+: p
    · exact .inl ((hy p).1 ((hx p).2 ⟨rfl, hp⟩)).1
    · exact .inr ⟨hp, (none_iff hy).1 ((none_iff hx).2 hp)⟩
  · rintro (rfl | ⟨hp, hq⟩)
    · ext r
      rw [hx, hy]
    · rw [(none_iff hx).2 hp, (none_iff hy).2 hq]

/-- Without a suffix an id that opens with a dot component and a backslash has the place that it has with slashes, in a
template that was found, iff the directory of this one and that of all templates agree above what the id climbs, or both
places lie outside. -/
theorem found_opensBackward_iff {base' : Option String} (hs : d.suffix = "") (hb : d.resolve b base' = .ok place)
    (ho : OpensBackward id) (hn : NullFree id) :
    d.found id (some b) = d.found (withSlashes id) (some b) ↔
      Path.above (Path.climb (idParts id)).1 d.root = Path.above (Path.climb (idParts id)).1 (d.writtenDirectory b) ∨
      ¬ d.root <+: Path.follow d.root (idParts id) ∧ ¬ d.root <+: Path.follow (d.writtenDirectory b) (idParts id) := by
  have hrel : isRelative (withSlashes id) = true := isRelative_withSlashes.2 (.inr ho)
  have hblank : blank (withSlashes id) = false := not_blank_of_isRelative hrel
  have habs : (Path.ofString (withSlashes id)).absolute = false := by
    simpa using not_absolute_of_isRelative hrel
  have hfrom (r : List String) : d.found (withSlashes id) none = some r ↔
      r = Path.follow d.root (idParts id) ∧ d.root <+: r := by
    have hparts : (pathFrom none (withSlashes id)).parts = idParts id := by
      rw [pathFrom_plain (.inl rfl), withSlashes_withSlashes, idParts]
    have hplace : (pathFrom none (withSlashes id)).resolve d.root = Path.follow d.root (idParts id) := by
      rw [Path.resolve, hparts, pathFrom_plain (.inl rfl), withSlashes_withSlashes, habs, if_neg Bool.false_ne_true]
    rw [found, toOption_eq_some, resolve_eq_ok hs, withSlashes_withSlashes, hparts, hplace, and_iff_right hblank,
      and_iff_right habs]
    exact and_iff_right hn
  have hto (r : List String) : d.found (withSlashes id) (some b) = some r ↔
      r = Path.follow (d.writtenDirectory b) (idParts id) ∧ d.root <+: r := by
    rw [found, toOption_eq_some, resolve_relative_eq_ok hs hb hrel, NullFree, idParts_withSlashes]
    exact and_iff_right hn
  rw [found_eq_of_pathFrom (pathFrom_of_opensBackward ho), ← Path.follow_eq_follow_iff]
  exact eq_iff_of_eq_some hfrom hto

end TemplateEngine.TemplateDirectory
