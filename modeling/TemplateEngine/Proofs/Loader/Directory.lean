/-
Where a directory of templates finds the template of an id that is a path from the template that asks for
it: the directory of that template is read off the id by which it was asked for, as it is written.
-/
import TemplateEngine.Loader
import TemplateEngine.Proofs.File.Path
import TemplateEngine.Proofs.Result

namespace TemplateEngine.TemplateDirectory

open TemplateEngine.Text

variable {d : TemplateDirectory} {id : String} {base : Option String} {place : List String}

/-- The components of an id. -/
def idParts (id : String) : List String :=
  (Path.ofString (withSlashes id)).parts

/-- No component of an id holds a null, which no file name does. -/
def NullFree (id : String) : Prop :=
  ∀ part ∈ idParts id, '\x00' ∉ part.toList

/-- The directory in which an id, as it is written, names something. -/
def writtenDirectory (d : TemplateDirectory) (id : String) : List String :=
  Path.follow d.root (idParts id).dropLast

/-- The last component of an id is a name, as it is where the id means a file. -/
def EndsInName (id : String) : Prop :=
  ∃ part ∈ (idParts id).getLast?, part ≠ ".."

/-! ## Places -/

/-- Without a suffix the place of an id is where its path leads to, inside of the directory. -/
theorem resolve_eq_ok (hs : d.suffix = "") :
    d.resolve id base = .ok place ↔ blank id = false ∧ (Path.ofString (withSlashes id)).absolute = false ∧
      (∀ part ∈ (pathFrom base id).parts, '\x00' ∉ part.toList) ∧ place = (pathFrom base id).resolve d.root ∧
      d.root <+: place := by
  have hsuffix (p : Path) : d.addSuffix p = .ok p := by rw [addSuffix, if_pos (by rw [hs]; rfl)]
  have hnull : (pathFrom base id).parts.any (·.toList.contains '\x00') = false ↔
      ∀ part ∈ (pathFrom base id).parts, '\x00' ∉ part.toList := by simp
  unfold resolve
  rw [hsuffix, ← hnull]
  cases hb : blank id with
  | true => simp
  | false =>
    cases ha : (Path.ofString (withSlashes id)).absolute with
    | true => simp
    | false =>
      simp only [Bool.false_eq_true, if_false, true_and]
      rw [liftFault, mapError_ok, ok_bind, Path.locate]
      cases hn : (pathFrom base id).parts.any (·.toList.contains '\x00') with
      | true => simp [liftFault]
      | false =>
        simp only [Bool.false_eq_true, if_false, true_and, liftFault, mapError_ok, ok_bind]
        by_cases hp : d.root.isPrefixOf ((pathFrom base id).resolve d.root) = true
        · rw [if_pos hp]
          constructor
          · intro h
            cases h
            exact ⟨rfl, List.isPrefixOf_iff_prefix.1 hp⟩
          · rintro ⟨rfl, -⟩
            rfl
        · rw [if_neg hp]
          constructor
          · intro h
            cases h
          · rintro ⟨rfl, hroot⟩
            exact absurd (List.isPrefixOf_iff_prefix.2 hroot) hp

/-! ## Relative ids -/

theorem head_of_isRelative (h : isRelative id = true) : ∃ cs, id.toList = '.' :: cs := by
  rw [isRelative, Bool.or_eq_true, List.isPrefixOf_iff_prefix, List.isPrefixOf_iff_prefix] at h
  rcases h with ⟨cs, h⟩ | ⟨cs, h⟩
  · exact ⟨_, h.symm⟩
  · exact ⟨_, h.symm⟩

theorem not_blank_of_isRelative (h : isRelative id = true) : blank id = false := by
  obtain ⟨cs, hcs⟩ := head_of_isRelative h
  rw [blank, hcs, List.all_cons]
  rfl

theorem not_absolute_of_isRelative (h : isRelative id = true) :
    (Path.ofString (withSlashes id)).absolute = false := by
  obtain ⟨cs, hcs⟩ := head_of_isRelative h
  have hlist : (withSlashes id).toList = '.' :: cs.map fun c => if c == '\\' then '/' else c := by
    rw [withSlashes, String.toList_ofList, hcs]
    rfl
  rw [Path.absolute, Path.ofString, Path.anchorOf, hlist]
  rfl

/-- An id that is no path from another template, or that no template asks for, is a path as it is written. -/
theorem pathFrom_plain (h : base = none ∨ isRelative id = false) :
    pathFrom base id = Path.ofString (withSlashes id) := by
  rcases h with rfl | h
  · rfl
  · cases base with
    | none => rfl
    | some b => rw [pathFrom, h]; simp

theorem pathFrom_relative {b : String} (hb : b ≠ "") (h : isRelative id = true) :
    pathFrom (some b) id = ⟨Path.anchorOf (withSlashes b), (idParts b).dropLast ++ idParts id⟩ := by
  have hcond : (b != "" && isRelative id) = true := by simp [hb, h]
  have habs : (Path.ofString (withSlashes id)).absolute = false := not_absolute_of_isRelative h
  rw [pathFrom, if_pos hcond, Path.join, if_neg (by rw [habs]; exact Bool.false_ne_true)]
  simp only [Path.parent, Path.ofString, idParts]

/-- The components of an id are among those of its path, from wherever it is seen. -/
theorem mem_parts_pathFrom {part : String} (h : part ∈ idParts id) : part ∈ (pathFrom base id).parts := by
  by_cases hp : base = none ∨ isRelative id = false
  · rwa [pathFrom_plain hp]
  · obtain ⟨hb, hr⟩ := not_or.1 hp
    obtain ⟨b, rfl⟩ := Option.ne_none_iff_exists'.1 hb
    by_cases hne : b = ""
    · rw [pathFrom, hne]; exact h
    · rw [pathFrom_relative hne (by simpa using hr)]
      exact List.mem_append_right _ h

/-- What the id of a template that was found tells. -/
theorem of_resolve (hs : d.suffix = "") (h : d.resolve id base = .ok place) :
    id ≠ "" ∧ (Path.ofString (withSlashes id)).absolute = false ∧ NullFree id := by
  obtain ⟨hb, ha, hn, -, -⟩ := (resolve_eq_ok hs).1 h
  refine ⟨?_, ha, fun part hp => hn part (mem_parts_pathFrom hp)⟩
  rintro rfl
  cases hb

theorem place_of_plain (hs : d.suffix = "") (h : d.resolve id base = .ok place)
    (hp : base = none ∨ isRelative id = false) : place = Path.follow d.root (idParts id) := by
  obtain ⟨-, ha, -, rfl, -⟩ := (resolve_eq_ok hs).1 h
  rw [pathFrom_plain hp, Path.resolve, ha, if_neg Bool.false_ne_true, idParts]

/-- An id that is a path from a template is followed from the directory of the id of that template. -/
theorem resolve_relative_eq_ok (hs : d.suffix = "") {b : String} {base' : Option String} {place' : List String}
    (hb : d.resolve b base' = .ok place') (hr : isRelative id = true) :
    d.resolve id (some b) = .ok place ↔ NullFree id ∧
      place = Path.follow (d.writtenDirectory b) (idParts id) ∧ d.root <+: place := by
  obtain ⟨hne, habs, hnull⟩ := of_resolve hs hb
  -- the id of the template is not absolute, so that its anchor starts no path from the top
  have hplace : (pathFrom (some b) id).resolve d.root = Path.follow (d.writtenDirectory b) (idParts id) := by
    have ha : (pathFrom (some b) id).absolute = false := by
      rw [pathFrom_relative hne hr, Path.absolute]
      rwa [Path.absolute, Path.ofString] at habs
    rw [Path.resolve, ha, if_neg Bool.false_ne_true, pathFrom_relative hne hr, writtenDirectory, Path.follow_append]
  rw [resolve_eq_ok hs, hplace, pathFrom_relative hne hr]
  constructor
  · rintro ⟨-, -, hn, hp, hroot⟩
    exact ⟨fun part hm => hn part (List.mem_append_right _ hm), hp, hroot⟩
  · rintro ⟨hn, hp, hroot⟩
    refine ⟨not_blank_of_isRelative hr, not_absolute_of_isRelative hr, ?_, hp, hroot⟩
    intro part hm
    rcases List.mem_append.1 hm with hm | hm
    · exact hnull part (List.dropLast_subset _ hm)
    · exact hn part hm

/-- A file lies in the directory that the components before the last one lead to. -/
theorem dropLast_follow (h : EndsInName id) (directory : List String) :
    (Path.follow directory (idParts id)).dropLast = Path.follow directory (idParts id).dropLast := by
  obtain ⟨part, hlast, hne⟩ := h
  obtain ⟨parts, hparts⟩ := List.getLast?_eq_some_iff.1 hlast
  rw [hparts, Path.follow_concat hne, List.dropLast_concat, List.dropLast_concat]

end TemplateEngine.TemplateDirectory
