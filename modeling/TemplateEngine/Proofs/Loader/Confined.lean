/-
What a directory of templates gives out. Whatever an id, the template that asks for it and the suffix are, the place of a
template lies in the directory; and without a suffix an id is refused exactly if its path, as a text behind that of the
directory, leads out of it.
-/
import TemplateEngine.Proofs.File.Lexical
import TemplateEngine.Proofs.Loader.Directory

namespace TemplateEngine.TemplateDirectory

open TemplateEngine.Text TemplateEngine.Path

variable {d : TemplateDirectory} {id : String} {base : Option String} {place : List String}

/-! ## Confinement -/

theorem written_pathFrom (base : Option String) (id : String) : (pathFrom base id).Written := by
  unfold pathFrom
  dsimp only
  split
  · exact written_ofString _
  · split
    · exact (written_ofString _).parent.join (written_ofString _)
    · exact written_ofString _

theorem written_addSuffix {p q : Path} (hp : p.Written) (h : d.addSuffix p = .ok q) : q.Written := by
  unfold addSuffix at h
  split at h
  · cases h
    exact hp
  · exact hp.withName h

/-- A place that is found lies in the directory, and its path can be written. -/
theorem exists_path_of_resolve (h : d.resolve id base = .ok place) :
    ∃ p : Path, p.Written ∧ place = p.resolve d.root ∧ d.root <+: place := by
  unfold resolve at h
  split at h
  · cases h
  · split at h
    · cases h
    · obtain ⟨p, hp, h⟩ := bind_eq_ok.1 h
      obtain ⟨q, hq, h⟩ := bind_eq_ok.1 h
      have hwritten := written_addSuffix (written_pathFrom base id) (mapError_eq_ok.1 hp)
      have hplace : q = p.resolve d.root := by
        have hq := mapError_eq_ok.1 hq
        unfold locate at hq
        split at hq
        · cases hq
        · cases hq
          rfl
      split at h
      · rename_i hroot
        cases h
        exact ⟨p, hwritten, hplace, List.isPrefixOf_iff_prefix.1 hroot⟩
      · cases h

/-- A place that is found is that of the directory with names behind it. -/
theorem below_of_resolve (hroot : ∀ part ∈ d.root, IsName part) (h : d.resolve id base = .ok place) :
    ∃ below, place = d.root ++ below ∧ ∀ part ∈ below, IsName part := by
  obtain ⟨p, hp, hplace, below, hbelow⟩ := exists_path_of_resolve h
  have hstart : ∀ part ∈ (if p.absolute then [] else d.root), IsName part := by
    split
    · exact fun _ h => nomatch h
    · exact hroot
  refine ⟨below, hbelow.symm, fun part hpart => ?_⟩
  have hmem : part ∈ p.resolve d.root := by
    rw [← hplace, ← hbelow]
    exact List.mem_append_right _ hpart
  exact isName_of_mem_follow hstart hp.parts part hmem

/-! ## Exactness -/

/-- The text of the directory from which an id is seen: for a path from the template that asks for it that of this
template, and else that of the directory of templates. -/
def directoryText (d : TemplateDirectory) (id : String) (base : Option String) : String :=
  match base with
  | some b =>
    if isRelative id then joinText (absoluteText d.root) (Path.ofString (withSlashes b)).parent.text
    else absoluteText d.root
  | none => absoluteText d.root

/-- The text of the path that an id means, behind that of the directory of templates. -/
def joinedText (d : TemplateDirectory) (id : String) (base : Option String) : String :=
  joinText (d.directoryText id base) (withSlashes id)

theorem lexical_joinedText (hroot : ∀ part ∈ d.root, IsName part) (habs : (withSlashes id).toList.head? ≠ some '/')
    (base : Option String) : lexical (d.joinedText id base) = (pathFrom base id).resolve d.root := by
  have hid : (ofString (withSlashes id)).absolute = false := by
    rwa [← Bool.not_eq_true, absolute_ofString]
  have hplain : follow d.root (partsOf (withSlashes id)) = (ofString (withSlashes id)).resolve d.root := by
    rw [Path.resolve, hid, if_neg Bool.false_ne_true, parts_ofString]
  rw [joinedText, lexical_joinText, if_neg habs]
  unfold directoryText pathFrom
  cases base with
  | none =>
    dsimp only
    rw [lexical_absoluteText hroot, hplain]
  | some b =>
    cases hr : isRelative id with
    | false =>
      dsimp only
      rw [Bool.and_false, if_neg Bool.false_ne_true, if_neg Bool.false_ne_true, lexical_absoluteText hroot, hplain]
    | true =>
      dsimp only
      rw [if_pos rfl, Bool.and_true, lexical_joinText_text hroot (written_ofString _).parent]
      -- a template without a name has no place, and its directory is the one of all templates
      by_cases hb : b = ""
      · subst hb
        exact hplain
      · rw [if_pos (by simpa using hb), resolve_join hid, parts_ofString]

theorem mem_of_mem_withSlashes {s : String} (h : '\x00' ∈ (withSlashes s).toList) : '\x00' ∈ s.toList := by
  rw [withSlashes, String.toList_ofList] at h
  obtain ⟨c, hc, h⟩ := List.mem_map.1 h
  split at h
  · cases h
  · exact h ▸ hc

/-- A path has no component with a null in it, if neither the id has one nor the template that asks for it. -/
theorem nullFree_pathFrom (hid : '\x00' ∉ id.toList) (hbase : ∀ b ∈ base, '\x00' ∉ b.toList) :
    (pathFrom base id).parts.any (·.toList.contains '\x00') = false := by
  have hof {s : String} (hs : '\x00' ∉ s.toList) : ∀ part ∈ (ofString (withSlashes s)).parts, '\x00' ∉ part.toList := by
    rw [parts_ofString]
    exact fun part hpart hc => hs (mem_of_mem_withSlashes (mem_of_mem_partsOf hpart hc))
  have hparts : ∀ part ∈ (pathFrom base id).parts, '\x00' ∉ part.toList := by
    unfold pathFrom
    dsimp only
    split
    · exact hof hid
    · split
      · exact forall_parts_join (forall_parts_parent (hof (hbase _ rfl))) (hof hid)
      · exact hof hid
  simpa using hparts

/-- Without a suffix an id whose path, as a text, leads out of the directory is refused, and any other one has the place
to which the text leads. -/
theorem resolve_plain (hs : d.suffix = "") (hroot : ∀ part ∈ d.root, IsName part) (hblank : blank id = false)
    (habs : (withSlashes id).toList.head? ≠ some '/') (hid : '\x00' ∉ id.toList) (hbase : ∀ b ∈ base, '\x00' ∉ b.toList) :
    d.resolve id base =
      if d.root.isPrefixOf (lexical (d.joinedText id base)) then .ok (lexical (d.joinedText id base))
      else .error (.load (.outsideRoot id)) := by
  have habsolute : (ofString (withSlashes id)).absolute = false := by
    rwa [← Bool.not_eq_true, absolute_ofString]
  have hsuffix : d.addSuffix (pathFrom base id) = .ok (pathFrom base id) := by
    rw [addSuffix, if_pos (by rw [hs]; rfl)]
  rw [lexical_joinedText hroot habs, TemplateDirectory.resolve, hblank, habsolute, hsuffix, liftFault, mapError_ok, ok_bind,
    locate, nullFree_pathFrom hid hbase]
  rfl

/-- In a directory of names each place that is found is that of the directory with names behind it, whatever the suffix,
the id and the template that asks for it are. Without a suffix an id that is neither blank nor absolute is refused as it
leads out of the directory exactly if the lexical normalisation of its path, joined with that of the directory, does; and
its place is that normalisation otherwise. -/
theorem resolve_confined (hroot : ∀ part ∈ d.root, IsName part) (id : String) (base : Option String) :
    (∀ place, d.resolve id base = .ok place → ∃ below, place = d.root ++ below ∧ ∀ part ∈ below, IsName part) ∧
    (d.suffix = "" → '\x00' ∉ id.toList → (∀ b ∈ base, '\x00' ∉ b.toList) → blank id = false →
      (withSlashes id).toList.head? ≠ some '/' →
      (d.resolve id base = .error (.load (.outsideRoot id)) ↔ ¬ d.root <+: lexical (d.joinedText id base)) ∧
      (d.root <+: lexical (d.joinedText id base) → d.resolve id base = .ok (lexical (d.joinedText id base)))) := by
  refine ⟨fun place h => below_of_resolve hroot h, fun hs hid hbase hblank habs => ?_⟩
  rw [resolve_plain hs hroot hblank habs hid hbase, ← List.isPrefixOf_iff_prefix]
  cases d.root.isPrefixOf (lexical (d.joinedText id base)) <;> simp

/-- The directory of the template that asks counts: two steps up from `a` lead out, and one step does not. -/
theorem resolve_confined_up :
    (⟨["srv", "tpl"], "utf-8", ""⟩ : TemplateDirectory).resolve "../../x" (some "a//b.html") =
      .error (.load (.outsideRoot "../../x")) ∧
    (⟨["srv", "tpl"], "utf-8", ""⟩ : TemplateDirectory).resolve "./../x" (some "a//b.html") =
      .ok ["srv", "tpl", "x"] := by
  have hroot : ∀ part ∈ ["srv", "tpl"], IsName part := by decide
  constructor
  · exact ((resolve_confined (d := ⟨["srv", "tpl"], "utf-8", ""⟩) hroot "../../x" (some "a//b.html")).2 rfl (by decide)
      (by decide) (by decide) (by decide)).1.2 (by decide)
  · exact ((resolve_confined (d := ⟨["srv", "tpl"], "utf-8", ""⟩) hroot "./../x" (some "a//b.html")).2 rfl (by decide)
      (by decide) (by decide) (by decide)).2 (by decide)

end TemplateEngine.TemplateDirectory
