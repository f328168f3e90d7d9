/-
Settings of an environment. Settings made in code are kept as they are given; those of a document are
converted to texts first. Either way the policy and the suffix are checked at once.
-/
import TemplateEngine.Environment.Basic
import TemplateEngine.Loader
import TemplateEngine.Text.LetterCase
import TemplateEngine.Sorting.Stack

namespace TemplateEngine

/-- The name of a policy in settings. -/
def UndefinedPolicy.name : UndefinedPolicy → String
  | strict => "strict"
  | lenient => "lenient"

/-- The policy that a value names, in whatever case. -/
def UndefinedPolicy.ofValue (v : Value) : Except Fault UndefinedPolicy := do
  let shown ← v.plainText
  let name := Text.lower shown
  if name == strict.name then return strict
  else if name == lenient.name then return lenient
  else throw (.value (.policy shown))

/-- Settings. -/
structure Config where
  searchPath : Value := .str "."
  undefined : Value := .str "strict"
  parallelChildren : Value := .bool false
  encoding : Value := .str "utf-8"
  suffix : Value := .str ""

namespace Config

/-- The names of the settings. -/
def names : List String :=
  ["search_path", "undefined", "parallel_children", "encoding", "suffix"]

/-- Sets the setting of a name. -/
def set? (c : Config) (name : String) (v : Value) : Option Config :=
  match name with
  | "search_path" => some { c with searchPath := v }
  | "undefined" => some { c with undefined := v }
  | "parallel_children" => some { c with parallelChildren := v }
  | "encoding" => some { c with encoding := v }
  | "suffix" => some { c with suffix := v }
  | _ => none

/-- A suffix is empty or starts with a dot. -/
def checkSuffix (v : Value) : Except Fault Unit :=
  if !v.truthy then .ok ()
  else match v with
    | .str s =>
      if s.toList.head? == some '.' then .ok () else .error (.value (.suffix (Text.quoted s)))
    | .bytes _ => .error (.type (.custom "startswith first arg must be bytes or a tuple of bytes, not str"))
    | v => .error (.foreign .attribute s!"'{v.qualifiedTypeName}' object has no attribute 'startswith'")

/-- The policy of the settings. -/
def policy (c : Config) : Except Fault UndefinedPolicy :=
  UndefinedPolicy.ofValue c.undefined

/-- The settings, if the policy and the suffix are valid. -/
def checked (c : Config) : Except Fault Config := do
  let _ ← c.policy
  checkSuffix c.suffix
  return c

/-- Settings by name, kept as they are. -/
def make (settings : Bindings) : Except Fault Config := do
  let c ← settings.foldlM (fun c s => match set? c s.1 s.2 with
    | some c => .ok c
    | none => .error (.type (.configField s.1))) ({} : Config)
  c.checked

/-! ## Documents -/

/-- Whether a key of a document names a setting. -/
def isName : Value → Bool
  | .str s => names.contains s
  | _ => false

/-- The texts among some keys, all of which must be texts. -/
def keyNames : List Value → Except Fault (List String)
  | [] => .ok []
  | .str s :: keys => do return s :: (← keyNames keys)
  | v :: _ => .error (.type (.joinedItem v.typeName))

/-- The fault of unknown keys: their names in order, if they are names. -/
def unknownKeys (keys : List Value) : Fault :=
  let smaller : Smaller Value := fun a b => a.ordered .lt b
  match (do keyNames (← sorted smaller keys) : Except Fault (List String)) with
  | .ok names => .value (.configKeys names)
  | .error f => f

/-- The setting of a name in a document, or its default. -/
def setting (entries : List (Value × Value)) (name : String) (fallback : Value) : Value :=
  (valueOfKey? entries (.str name)).getD fallback

/-- Settings from the entries of a document: all but the truth value are converted to texts. -/
def ofEntries (entries : List (Value × Value)) : Except Fault Config := do
  let unknown := (entries.map (·.1)).filter (!isName ·)
  if !unknown.isEmpty then throw (unknownKeys unknown)
  let parallel := setting entries "parallel_children" (.bool false)
  match parallel with
  | .bool _ => pure ()
  | v => throw (.value (.parallelChildren (← v.quotedForm)))
  let searchPath ← (setting entries "search_path" (.str ".")).plainText
  let undefined ← (setting entries "undefined" (.str "strict")).plainText
  let encoding ← (setting entries "encoding" (.str "utf-8")).plainText
  let suffix := setting entries "suffix" (.str "")
  let suffix ← if suffix.truthy then suffix.plainText else pure ""
  checked ⟨.str searchPath, .str (Text.lower undefined), parallel, .str encoding, .str suffix⟩

/-- The settings as entries; no suffix is left out. -/
def toBindings (c : Config) : Bindings :=
  [("search_path", c.searchPath), ("undefined", c.undefined), ("parallel_children", c.parallelChildren),
    ("encoding", c.encoding)] ++ if c.suffix.truthy then [("suffix", c.suffix)] else []

/-! ## Environments -/

/-- A setting that has to be a text. -/
def requireText : Value → Except Fault String
  | .str s => .ok s
  | v => .error (.type (.custom s!"expected str, bytes or os.PathLike object, not {v.typeName}"))

/-- The template directory of the settings, seen from a directory. -/
def templateDirectory (c : Config) (directory : List String) : Except Fault TemplateDirectory := do
  let root ← (Path.ofString (← requireText c.searchPath)).locate directory
  return ⟨root, ← requireText c.encoding, ← requireText c.suffix⟩

/-- The environment of the settings over the files that are seen from a directory. -/
def environment (c : Config) (files : FileTree) (directory : List String) : Except Fault Environment := do
  let undefined ← c.policy
  let templates ← c.templateDirectory directory
  return { loader := templates.loader files, undefined := undefined }

end Config

end TemplateEngine
