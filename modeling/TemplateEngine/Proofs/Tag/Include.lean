/-
Where included templates are found. A template that is asked for by a path from the one that includes it
is looked for from the directory that the id of the including template names, as that id was written. This
is the directory of its file for a template that was not asked for by such a path itself, but in general
the two directories only have to agree above what the id climbs.
-/
import TemplateEngine.Environment.Render
import TemplateEngine.Proofs.Loader.Directory
import TemplateEngine.Proofs.Template.Reading
import TemplateEngine.Proofs.Template.Shape

namespace TemplateEngine.IncludeTag

open Template TemplateDirectory

/-! ## Chains of includes -/

/-- A template that was opened: the id by which it was asked for, the place of its file, and what was read. -/
structure Opened where
  id : String
  place : List String
  template : Template

/-- The loader finds a template and the environment reads it, as `base` asks for it. -/
structure Opens (env : Environment) (d : TemplateDirectory) (base : Option String) (o : Opened) : Prop where
  place : d.resolve o.id base = .ok o.place
  template : env.readLoaded o.id (env.loader.load o.id base) = .ok o.template

/-- The expression of a tag has an id as its text. -/
def Asks (env : Environment) (s : Scope) (t : Tag) (id : String) : Prop :=
  ∃ e v, t.args = .expr e ∧ env.evaluate e s = .ok v ∧ v.outputText = .ok id

/-- Templates that include each other, innermost one first. The last one was asked for by no template, and
each other one by a tag that stands in the template after it. -/
inductive IncludeChain (env : Environment) (d : TemplateDirectory) : List Opened → Prop
  | start {o : Opened} (h : Opens env d none o) : IncludeChain env d [o]
  | step {o c : Opened} {os : List Opened} {t : Tag} {children : List Block} {s : Scope}
      (h : IncludeChain env d (c :: os)) (ht : (Block.tag plugin t children).Occurs c.template.blocks)
      (ha : Asks env s t o.id) (ho : Opens env d (some t.template) o) : IncludeChain env d (o :: c :: os)

section

variable {env : Environment} {d : TemplateDirectory} {base : Option String} {c o : Opened} {os : List Opened}
  {t : Tag} {children : List Block} {s : Scope} {id : String}

theorem Opens.content (h : Opens env d base o) :
    ∃ ts, Content env.registry o.id ts o.template.blocks := by
  have ht := h.template
  cases hl : env.loader.load o.id base with
  | error e =>
    rw [hl] at ht
    cases e <;> cases ht
  | ok v =>
    rw [hl] at ht
    cases v with
    | str text =>
      obtain ⟨-, hc⟩ := read_eq_ok.1 (mapError_eq_ok.1 ht)
      exact ⟨_, hc⟩
    | _ => cases ht

/-- A tag of a template knows the id by which the template was asked for. -/
theorem Opens.template_of_occurs {p : TagPlugin} (h : Opens env d base c)
    (ht : (Block.tag p t children).Occurs c.template.blocks) : t.template = c.id := by
  obtain ⟨ts, hc⟩ := h.content
  obtain ⟨us, role, htokens⟩ := (hc.derived ht).tagTokens
  exact htokens.template

theorem IncludeChain.head (h : IncludeChain env d (c :: os)) : ∃ base, Opens env d base c := by
  cases h with
  | start h => exact ⟨_, h⟩
  | step h ht ha ho => exact ⟨_, ho⟩

/-- The template that asks for the innermost one, if there is one. -/
theorem IncludeChain.opens_head (h : IncludeChain env d (c :: os)) : Opens env d (os.head?.map (·.id)) c := by
  cases h with
  | start h => exact h
  | step h ht ha ho =>
    obtain ⟨base, hb⟩ := h.head
    rwa [hb.template_of_occurs ht] at ho

/-! ## Requests -/

/-- A tag that asks for an id includes it, as far as one more include may be open. -/
theorem render_eq (h : Asks env s t id) (depth : Nat) (children : ChildrenRenderer) :
    render t s (env.services depth) children =
      Outcome.text <$> (env.services depth).renderInclude id s t.template := by
  obtain ⟨e, v, ha, hv, hid⟩ := h
  have he : t.evaluate (env.services depth) s = Render.ofResult (env.evaluate e s) := by
    rw [Tag.evaluate, ha, ← env.evaluate_services depth]
  rw [render, he, hv]
  show (Render.ofResult (liftFault v.outputText) >>= fun id =>
    Outcome.text <$> (env.services depth).renderInclude id s t.template) = _
  rw [hid]
  rfl

/-- A tag that asks for an id renders the template that is loaded for it. -/
theorem render_of_asks (h : Asks env s t id) (depth : Nat) (children : ChildrenRenderer) :
    render t s (env.services (depth + 1)) children = Outcome.text <$> (do
      let u ← env.load id (some t.template)
      renderBlocks (env.services depth) u.name .all u.blocks (s.child []) .absent) :=
  render_eq h (depth + 1) children

/-- The loader of a directory reads the file at the place of an id. -/
theorem load_eq {files : FileTree} (hl : env.loader = d.loader files) :
    env.loader.load id base = (do
      let place ← d.resolve id base
      return .str (← d.fileText files id place)) := by
  rw [hl]
  rfl

end

/-! ## Places of included templates -/

/-- Where a relative id is looked for that a tag of the template `c` asks for, which itself was asked for
by the first of `os`, if there is one. -/
structure Lookup (d : TemplateDirectory) (c : Opened) (os : List Opened) (id : String) : Prop where
  /-- It is followed from the directory that the id of the template names as it is written. -/
  resolve : ∀ place, d.resolve id (some c.id) = .ok place ↔ NullFree id ∧
    place = Path.follow (d.writtenDirectory c.id) (idParts id) ∧ d.root <+: place
  /-- This is the place beside the file of the template iff the two directories agree above what is climbed. -/
  beside : NullFree id → d.root <+: Path.follow c.place.dropLast (idParts id) →
    (d.resolve id (some c.id) = .ok (Path.follow c.place.dropLast (idParts id)) ↔
      Path.above (Path.climb (idParts id)).1 (d.writtenDirectory c.id) =
        Path.above (Path.climb (idParts id)).1 c.place.dropLast)
  /-- They are the same for the first template, and for one whose id is not relative. -/
  plain : EndsInName c.id → os = [] ∨ isRelative c.id = false → d.writtenDirectory c.id = c.place.dropLast
  /-- For a template whose id is relative they are the same iff the directory of the template before it
  agrees with the topmost one above what is climbed. -/
  relative : ∀ b bs, os = b :: bs → EndsInName c.id → isRelative c.id = true →
    (d.writtenDirectory c.id = c.place.dropLast ↔
      Path.above (Path.climb (idParts c.id).dropLast).1 d.root =
        Path.above (Path.climb (idParts c.id).dropLast).1 (d.writtenDirectory b.id))

theorem IncludeChain.lookup {env : Environment} {d : TemplateDirectory} {c : Opened} {os : List Opened} {id : String}
    (hs : d.suffix = "") (hc : IncludeChain env d (c :: os)) (hr : isRelative id = true) : Lookup d c os id := by
  have hopens := hc.opens_head
  have hresolve (place : List String) : d.resolve id (some c.id) = .ok place ↔ NullFree id ∧
      place = Path.follow (d.writtenDirectory c.id) (idParts id) ∧ d.root <+: place :=
    resolve_relative_eq_ok hs hopens.place hr
  refine ⟨hresolve, fun hn hroot => ?_, fun hname hp => ?_, ?_⟩
  · -- both follow the same components, one from the written directory and one from that of the file
    rw [hresolve, ← Path.follow_eq_follow_iff]
    exact ⟨fun h => h.2.1.symm, fun h => ⟨hn, h.symm, hroot⟩⟩
  · have hplain : os.head?.map (·.id) = none ∨ isRelative c.id = false := by
      rcases hp with rfl | hp
      · exact .inl rfl
      · exact .inr hp
    rw [place_of_plain hs hopens.place hplain, dropLast_follow hname, writtenDirectory]
  · rintro b bs rfl hname hrel
    cases hc with
    | step h ht ha ho =>
      obtain ⟨base, hb⟩ := h.head
      obtain ⟨-, hplace, -⟩ := (resolve_relative_eq_ok hs hb.place hrel).1 hopens.place
      rw [hplace, dropLast_follow hname, writtenDirectory, Path.follow_eq_follow_iff]

/-- An include tag with a relative id, in any chain of includes: the id by which its own template was asked
for decides where the loader looks, and so does the place of that template only where the two agree. -/
theorem relative_include_lookup {env : Environment} {d : TemplateDirectory} {files : FileTree} {c : Opened}
    {os : List Opened} {t : Tag} {children : List Block} {s : Scope} {id : String}
    (hl : env.loader = d.loader files) (hs : d.suffix = "") (hc : IncludeChain env d (c :: os))
    (ht : (Block.tag plugin t children).Occurs c.template.blocks) (ha : Asks env s t id)
    (hr : isRelative id = true) :
    (∀ depth children, render t s (env.services (depth + 1)) children = Outcome.text <$> (do
      let u ← env.load id (some c.id)
      renderBlocks (env.services depth) u.name .all u.blocks (s.child []) .absent)) ∧
    (env.loader.load id (some c.id) = do
      let place ← d.resolve id (some c.id)
      return .str (← d.fileText files id place)) ∧
    Lookup d c os id := by
  have htemplate : t.template = c.id := hc.opens_head.template_of_occurs ht
  refine ⟨fun depth children => ?_, load_eq hl, hc.lookup hs hr⟩
  rw [render_of_asks ha, htemplate]

/-! ## A chain of two includes -/

/-- A file of ASCII characters. -/
def asciiFile (place : List String) (text : String) : List String × List UInt8 :=
  (place, text.toList.map fun c => c.toNat.toUInt8)

/-- The text of a template that is nothing but a tag that asks for an id. -/
def includeText (id : String) : String :=
  "\x7b% include '" ++ id ++ "' %\x7d"

/-- `x/main.html` includes `./b.html`, which includes `./c.html`; a file of this name is beside them, and
another one in the topmost directory. -/
def nestedFiles : FileTree where
  files := [
    asciiFile ["tpl", "x", "main.html"] (includeText "./b.html"),
    asciiFile ["tpl", "x", "b.html"] (includeText "./c.html"),
    asciiFile ["tpl", "x", "c.html"] "near",
    asciiFile ["tpl", "c.html"] "far"]

def nestedDirectory : TemplateDirectory where
  root := ["tpl"]

def nestedEnvironment : Environment where
  loader := nestedDirectory.loader nestedFiles

/-- The tag of a template that asks for the id `next`. -/
def literalInclude (id next : String) : Tag :=
  ⟨"include", .opening, "'" ++ next ++ "'", .expr (.literal (.str next)), 1, id⟩

/-- The template of an id that is nothing but a tag that asks for the id `next`. -/
def openedInclude (id : String) (place : List String) (next : String) : Opened :=
  ⟨id, place, ⟨id, [.tag plugin (literalInclude id next) []]⟩⟩

/-- The outer one of the two templates. -/
def nestedOuter : Opened :=
  openedInclude "x/main.html" ["tpl", "x", "main.html"] "./b.html"

/-- The inner one of the two templates. -/
def nestedInner : Opened :=
  openedInclude "./b.html" ["tpl", "x", "b.html"] "./c.html"

theorem asks_literalInclude (env : Environment) (s : Scope) (id next : String) :
    Asks env s (literalInclude id next) next :=
  ⟨_, _, rfl, rfl, rfl⟩

theorem opens_nested {id next : String} {base : Option String} {place : List String}
    (hp : nestedDirectory.resolve id base = .ok place)
    (ht : (nestedDirectory.fileText nestedFiles id place).toOption = some (includeText next))
    (hr : Template.read builtinRegistry (includeText next) id = .ok (openedInclude id place next).template) :
    Opens nestedEnvironment nestedDirectory base (openedInclude id place next) := by
  refine ⟨hp, ?_⟩
  show nestedEnvironment.readLoaded id (nestedEnvironment.loader.load id base) = _
  rw [load_eq rfl, hp, ok_bind, eq_ok_of_toOption ht]
  exact mapError_eq_ok.2 hr

theorem nestedChain : IncludeChain nestedEnvironment nestedDirectory [nestedInner, nestedOuter] := by
  have houter : Opens nestedEnvironment nestedDirectory none nestedOuter :=
    opens_nested (by with_unfolding_all rfl) (by decide +kernel) (by with_unfolding_all rfl)
  have hinner : Opens nestedEnvironment nestedDirectory (some "x/main.html") nestedInner :=
    opens_nested (by with_unfolding_all rfl) (by decide +kernel) (by with_unfolding_all rfl)
  exact .step (.start houter) (.here (List.mem_singleton_self _))
    (asks_literalInclude nestedEnvironment ⟨[], [], 0, []⟩ "x/main.html" "./b.html") hinner

/-- The tag of the inner template. -/
def nestedTag : Tag :=
  literalInclude "./b.html" "./c.html"

theorem nestedTag_occurs : (Block.tag plugin nestedTag []).Occurs nestedInner.template.blocks :=
  .here (List.mem_singleton_self _)

/-- In the chain of two includes the inner id is looked up as everywhere. -/
theorem nested_include_lookup : ∃ s, Asks nestedEnvironment s nestedTag "./c.html" ∧
    (∀ depth children, render nestedTag s (nestedEnvironment.services (depth + 1)) children = Outcome.text <$> (do
      let u ← nestedEnvironment.load "./c.html" (some nestedInner.id)
      renderBlocks (nestedEnvironment.services depth) u.name .all u.blocks (s.child []) .absent)) ∧
    (nestedEnvironment.loader.load "./c.html" (some nestedInner.id) = do
      let place ← nestedDirectory.resolve "./c.html" (some nestedInner.id)
      return .str (← nestedDirectory.fileText nestedFiles "./c.html" place)) ∧
    Lookup nestedDirectory nestedInner [nestedOuter] "./c.html" := by
  have hloader : nestedEnvironment.loader = nestedDirectory.loader nestedFiles := rfl
  have hasks : Asks nestedEnvironment ⟨[], [], 0, []⟩ nestedTag "./c.html" := asks_literalInclude _ _ _ _
  exact ⟨_, hasks, relative_include_lookup hloader rfl nestedChain nestedTag_occurs hasks (by decide)⟩

/-- It does not lead to the file beside that of the inner template, but to the one in the topmost directory. -/
theorem nested_include_far :
    IncludeChain nestedEnvironment nestedDirectory [nestedInner, nestedOuter] ∧
    (Block.tag plugin nestedTag []).Occurs nestedInner.template.blocks ∧
    (∃ s, Asks nestedEnvironment s nestedTag "./c.html") ∧ isRelative "./c.html" = true ∧
    Path.follow nestedInner.place.dropLast (idParts "./c.html") = ["tpl", "x", "c.html"] ∧
    nestedDirectory.resolve "./c.html" (some nestedInner.id) = .ok ["tpl", "c.html"] ∧
    ((nestedEnvironment.render "x/main.html" .none).run'.1).toOption = some "far" := by
  have hplace : nestedDirectory.resolve "./c.html" (some "./b.html") = .ok ["tpl", "c.html"] := by
    with_unfolding_all rfl
  have hasks : Asks nestedEnvironment ⟨[], [], 0, []⟩ nestedTag "./c.html" := asks_literalInclude _ _ _ _
  exact ⟨nestedChain, nestedTag_occurs, ⟨_, hasks⟩, by decide, by decide, hplace, by decide +kernel⟩

end TemplateEngine.IncludeTag
