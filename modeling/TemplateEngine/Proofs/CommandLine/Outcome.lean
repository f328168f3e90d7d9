/-
What a run leaves behind. It writes the whole of a text, or the message of a failure and nothing else, except where the
reader of documents refuses a file with another fault than a wrong value, or the file of the settings has a key that is
no text: what these raise is neither a wrong value nor meant for the reader. A verbose run logs besides.
-/
import TemplateEngine.CommandLine.Run
import TemplateEngine.Proofs.Config.Refused
import TemplateEngine.Proofs.Environment.Together
import TemplateEngine.Proofs.Expr.Substitution

namespace TemplateEngine

/-- The faults that a run reports: wrong values, and files that are missing. -/
def Fault.IsReported (f : Fault) : Prop :=
  f.IsValue ∨ ∃ text, f = .foreign .missingFile text

theorem Yields.reported {α : Type} {P : α → Prop} {r : Except Fault α} (h : Yields Fault.IsValue P r) :
    Yields Fault.IsReported P r := by
  cases h with
  | ok h => exact .ok h
  | error h => exact .error (.inl h)

/-! ## Documents in files -/

section

variable {read : DocumentReader} {files : FileTree} {directory : List String} {p : Path} {f : Fault}

/-- The path leads to a text that the reader refuses, with a fault that is not reported. -/
def FileTree.Refused (read : DocumentReader) (files : FileTree) (directory : List String) (p : Path) (f : Fault) : Prop :=
  (∃ text, (files.entryAt directory p).read .common (Text.quoted p.text) "utf-8" = .ok text ∧ read text = .error f) ∧
    ¬ f.IsReported

theorem not_refused {text : String} {v : Value}
    (htext : (files.entryAt directory p).read .common (Text.quoted p.text) "utf-8" = .ok text)
    (hread : read text = .ok v) : ¬ files.Refused read directory p f := by
  rintro ⟨⟨text', htext', hbad⟩, -⟩
  cases htext.symm.trans htext'
  cases hread.symm.trans hbad

theorem isFile_of_read {codecs : Codecs} {shown encoding text : String}
    (h : (files.entryAt directory p).read codecs shown encoding = .ok text) : files.isFile directory p = true := by
  unfold FileTree.isFile
  cases hentry : files.entryAt directory p with
  | file bytes => rfl
  | directory => rw [hentry] at h; cases h
  | missing => rw [hentry] at h; cases h
  | throughFile => rw [hentry] at h; cases h

theorem isFile_of_readMapping {entries : List (Value × Value)} (h : readMapping read files directory p = .ok entries) :
    files.isFile directory p = true := by
  obtain ⟨text, htext, -⟩ := bind_eq_ok.1 h
  exact isFile_of_read (mapError_eq_ok.1 htext)

theorem answered_read_file (bytes : List UInt8) (shown : String) :
    Answered Fault.IsValue (((FileEntry.file bytes).read .common shown "utf-8").mapError ReadProblem.fault) := by
  have hname : Text.Encoding.ofName? "utf-8" = some .utf8 := by decide +kernel
  have hcodec : Codecs.common "utf-8" bytes = (Text.decode .utf8 bytes).mapError .undecodable := by
    unfold Codecs.common
    rw [hname]
  unfold FileEntry.read
  dsimp only
  rw [hcodec]
  cases Text.decode .utf8 bytes with
  | ok cs => exact .ok trivial
  | error problem => exact .error ⟨_, rfl⟩

theorem isFile_of_refused (h : files.Refused read directory p f) : files.isFile directory p = true := by
  obtain ⟨⟨text, htext, -⟩, -⟩ := h
  exact isFile_of_read htext

theorem readMapping_of_refused (h : files.Refused read directory p f) :
    readMapping read files directory p = .error f := by
  obtain ⟨⟨text, htext, hbad⟩, -⟩ := h
  unfold readMapping
  rw [htext, mapError_ok, ok_bind, hbad, error_bind]

/-- A file that is not refused holds a mapping, or what is wrong with it is reported. -/
theorem answered_readMapping (hfile : files.isFile directory p = true) (hdoc : ∀ f, ¬ files.Refused read directory p f) :
    Answered Fault.IsReported (readMapping read files directory p) := by
  obtain ⟨bytes, hentry⟩ : ∃ bytes, files.entryAt directory p = .file bytes := by
    unfold FileTree.isFile at hfile
    split at hfile
    · exact ⟨_, ‹_›⟩
    · cases hfile
  unfold readMapping
  rw [hentry]
  refine (answered_read_file bytes _).reported.bind_of_eq fun text htext _ => ?_
  have hread : Answered Fault.IsReported (read text) := by
    cases hv : read text with
    | ok v => exact .ok trivial
    | error f =>
      refine .error ?_
      by_contra hf
      exact hdoc f ⟨⟨text, hentry ▸ mapError_eq_ok.1 htext, hv⟩, hf⟩
  refine hread.bind fun v _ => ?_
  split
  · exact .ok trivial
  · split
    · exact .ok trivial
    · exact .error (.inl ⟨_, rfl⟩)

end

/-! ## Settings -/

namespace Config

variable {read : DocumentReader} {files : FileTree} {directory : List String} {path : String}

theorem textKeys_insertEntry {entries : List (Value × Value)} (h : TextKeys entries) (key : String) (v : Value) :
    TextKeys (insertEntry (.str key) v entries) := by
  intro e he
  rcases (Evaluator.mem_insertEntry he).1 with hkey | ⟨e', he', hkey⟩
  · exact ⟨key, hkey⟩
  · obtain ⟨s, hs⟩ := h e' he'
    exact ⟨s, hkey ▸ hs⟩

/-- The keys of the mapping in the file, if it holds one, are texts. -/
def FileKeys (read : DocumentReader) (files : FileTree) (directory : List String) (path : String) : Prop :=
  ∀ entries, readMapping read files directory (Path.ofString path) = .ok entries → TextKeys entries

theorem ofFile_of_texts (hdoc : ∀ f, ¬ files.Refused read directory (Path.ofString path) f)
    (hkeys : FileKeys read files directory path) : Yields Fault.IsReported OfTexts (ofFile read files directory path) := by
  unfold ofFile
  dsimp only
  split
  · exact .error (.inr ⟨_, rfl⟩)
  · rename_i hfile
    rw [Bool.not_eq_true, Bool.not_eq_false'] at hfile
    refine (answered_readMapping hfile hdoc).bind_of_eq fun entries hentries _ => ?_
    have hentries := hkeys entries hentries
    refine (ofEntries_of_texts hentries).reported.bind fun c hc => ?_
    obtain ⟨searchPath, hsearchPath⟩ := hc.searchPath
    rw [hsearchPath]
    show Yields _ _ (if (Path.ofString searchPath).absolute then .ok c else _)
    split
    · exact .ok hc
    · refine (Path.answered_locate directory _).reported.bind fun place _ => ?_
      exact (ofEntries_of_texts (textKeys_insertEntry hentries _ _)).reported

theorem ofFile_of_not_texts (hkeys : ¬ FileKeys read files directory path) :
    ∃ f : Fault, ofFile read files directory path = .error f ∧ f.IsType := by
  simp only [FileKeys, not_forall] at hkeys
  obtain ⟨entries, hentries, hnot⟩ := hkeys
  obtain ⟨f, hf, htype⟩ := ofEntries_of_not_texts hnot
  refine ⟨f, ?_, htype⟩
  unfold ofFile
  dsimp only
  rw [isFile_of_readMapping hentries, hentries]
  simp only [Bool.not_true, Bool.false_eq_true, if_false, ok_bind, hf, error_bind]

theorem ofFile_of_refused {f : Fault} (h : files.Refused read directory (Path.ofString path) f) :
    ofFile read files directory path = .error f := by
  unfold ofFile
  dsimp only
  rw [isFile_of_refused h, readMapping_of_refused h]
  rfl

end Config

namespace CommandLine

variable {args : List String} {inv : Invocation} {w : World}

namespace Invocation

/-! ## Invocations -/

/-- The settings and the environment of a run. -/
def Sets (inv : Invocation) (w : World) (c : Config) (env : Environment) : Prop :=
  inv.settings w = .ok c ∧ c.environment w.files w.directory = .ok env

/-- The files that a run reads as documents: that of the settings and, once there is an environment, that of the
context. -/
inductive Consults (inv : Invocation) (w : World) : String → Prop
  | settings {path : String} (h : givenFile inv.config = some path) : Consults inv w path
  | context {c : Config} {env : Environment} {template path : String} {asText : Bool} {file : Option String}
      (henv : inv.Sets w c env) (hc : inv.command = .render template asText file) (h : givenFile file = some path) :
      Consults inv w path

/-- None of these files is refused. -/
def WellFormed (inv : Invocation) (w : World) : Prop :=
  ∀ path f, inv.Consults w path → ¬ w.files.Refused w.document w.directory (Path.ofString path) f

/-- The keys of the file of the settings are texts, if there is one that holds a mapping. -/
def TextKeys (inv : Invocation) (w : World) : Prop :=
  ∀ path ∈ givenFile inv.config, Config.FileKeys w.document w.files w.directory path

theorem settings_of_texts (hdocs : inv.WellFormed w) (hkeys : inv.TextKeys w) :
    Yields Fault.IsReported Config.OfTexts (inv.settings w) := by
  -- the search path on the command line takes the place of the one in the file, and is a text as well
  have hplaced (c : Config) (hc : c.OfTexts) (path : String) :
      Yields Fault.IsReported Config.OfTexts (Config.checked { c with searchPath := .str path }) :=
    (show Config.OfTexts { c with searchPath := .str path } from ⟨⟨_, rfl⟩, hc.encoding, hc.suffix⟩).checked.reported
  have hdefault : Config.OfTexts {} := ⟨⟨_, rfl⟩, ⟨_, rfl⟩, ⟨_, rfl⟩⟩
  unfold settings
  cases hgiven : givenFile inv.config with
  | none =>
    cases inv.searchPath with
    | none => exact .ok hdefault
    | some path => exact hplaced {} hdefault path
  | some file =>
    have hfile := Config.ofFile_of_texts (fun f => hdocs file f (.settings hgiven)) (hkeys file hgiven)
    cases inv.searchPath with
    | none => exact hfile.bind fun _ hc => .ok hc
    | some path => exact hfile.bind fun c hc => hplaced c hc path

theorem settings_of_file {path : String} {f : Fault} (hgiven : givenFile inv.config = some path)
    (h : Config.ofFile w.document w.files w.directory path = .error f) : inv.settings w = .error f := by
  unfold settings
  rw [hgiven]
  dsimp only
  rw [h, error_bind]

theorem settings_of_not_texts (hkeys : ¬ inv.TextKeys w) : ∃ f : Fault, inv.settings w = .error f ∧ f.IsType := by
  simp only [TextKeys, not_forall] at hkeys
  obtain ⟨path, hgiven, hnot⟩ := hkeys
  obtain ⟨f, hf, htype⟩ := Config.ofFile_of_not_texts hnot
  exact ⟨f, settings_of_file hgiven hf, htype⟩

theorem readContext_yields {c : Config} {env : Environment} {template : String} {asText : Bool} {file : Option String}
    (henv : inv.Sets w c env) (hc : inv.command = .render template asText file) (hdocs : inv.WellFormed w) :
    Yields Fault.IsReported Environment.IsContext (readContext w file) := by
  unfold readContext
  split
  · exact .ok (.inr ⟨_, rfl⟩)
  · rename_i path hgiven
    have hdoc := fun f => hdocs path f (.context henv hc hgiven)
    dsimp only
    split
    · exact .error (.inl ⟨_, rfl⟩)
    · rename_i hfile
      rw [Bool.not_eq_true, Bool.not_eq_false'] at hfile
      exact (answered_readMapping hfile hdoc).bind fun entries _ => .ok (.inr ⟨entries, rfl⟩)

theorem readContext_of_refused {file : Option String} {path : String} {f : Fault} (hgiven : givenFile file = some path)
    (h : w.files.Refused w.document w.directory (Path.ofString path) f) : readContext w file = .error f := by
  unfold readContext
  rw [hgiven]
  dsimp only
  rw [isFile_of_refused h, readMapping_of_refused h]
  rfl

/-! ## Runs -/

/-- The text that an invocation asks for: the tags by name, or what its template renders to, which is the argument
itself, the text of the input or a template of the search path. -/
inductive Writes (inv : Invocation) (w : World) : String → Prop
  | tags {c : Config} {env : Environment} {tags : List (String × TagRoute)} (henv : inv.Sets w c env) (hc : inv.command = .tags)
      (hall : tags.Perm env.registry.routes) (hsorted : tags.Pairwise fun a b => a.1 ≤ b.1) :
      Writes inv w (listingOf tags)
  | argument {c : Config} {env : Environment} {source text : String} {file : Option String} {context : Value}
      (henv : inv.Sets w c env) (hc : inv.command = .render source true file)
      (hcontext : readContext w file = .ok context)
      (h : (renderText w c env context source "(string)").run'.1 = .ok text) : Writes inv w text
  | input {c : Config} {env : Environment} {text : String} {file : Option String} {context : Value}
      (henv : inv.Sets w c env) (hc : inv.command = .render "-" false file)
      (hcontext : readContext w file = .ok context)
      (h : (renderText w c env context w.input "(stdin)").run'.1 = .ok text) : Writes inv w text
  | template {c : Config} {env : Environment} {id text : String} {file : Option String} {context : Value}
      (henv : inv.Sets w c env) (hc : inv.command = .render id false file) (hid : id ≠ "-")
      (hcontext : readContext w file = .ok context) (h : (renderId w c env context id).run'.1 = .ok text) :
      Writes inv w text

/-- The tags are listed by name. -/
theorem writes_listing {c : Config} {env : Environment} (henv : inv.Sets w c env) (hc : inv.command = .tags) :
    inv.Writes w (listing env.registry) := by
  refine .tags henv hc (List.mergeSort_perm _ _) ?_
  have hsorted : env.registry.sortedRoutes.Pairwise fun a b => decide (a.1 ≤ b.1) = true := by
    refine List.pairwise_mergeSort (fun a b c hab hbc => ?_) (fun a b => ?_) _
    · exact decide_eq_true (String.le_trans (of_decide_eq_true hab) (of_decide_eq_true hbc))
    · rw [Bool.or_eq_true, decide_eq_true_iff, decide_eq_true_iff]
      exact String.le_total a.1 b.1
  exact hsorted.imp of_decide_eq_true

/-- A render without faults gives a text, or fails in a way that is reported. -/
theorem yields_of_noFault {r : Render String} (h : NoFault r) :
    Yields (isReported · = true) (r.run'.1 = .ok ·) r.run'.1 := by
  cases hr : r.run'.1 with
  | ok text => exact .ok rfl
  | error failure =>
    refine .error ?_
    cases failure with
    | fault f => exact absurd hr (h [] f)
    | template e => rfl
    | expression e => rfl
    | evaluation e => rfl
    | load e => rfl

theorem isReported_fault {f : Fault} (h : f.IsReported) : isReported (.fault f) = true := by
  rcases h with ⟨p, rfl⟩ | ⟨text, rfl⟩
  · rfl
  · rfl

theorem run'_ofResult_bind_ok {α : Type} {r : Except Fault α} {a : α} (h : r = .ok a) (k : α → Render String) :
    (Render.ofResult (liftFault r) >>= k).run' = (k a).run' := by
  rw [h]
  rfl

theorem run'_ofResult_bind_error {α : Type} {r : Except Fault α} {f : Fault} (h : r = .error f)
    (k : α → Render String) : (Render.ofResult (liftFault r) >>= k).run'.1 = .error (.fault f) := by
  rw [h]
  rfl

/-- A step of a run that reads something: its fault is reported, and the run goes on with what it gives. -/
theorem yields_ofResult_bind {α : Type} {P : α → Prop} {Q : String → Prop} {r : Except Fault α}
    (hr : Yields Fault.IsReported P r) {k : α → Render String}
    (hk : ∀ a, r = .ok a → P a → Yields (isReported · = true) Q (k a).run'.1) :
    Yields (isReported · = true) Q (Render.ofResult (liftFault r) >>= k).run'.1 := by
  cases hr with
  | ok h =>
    rw [run'_ofResult_bind_ok rfl]
    exact hk _ rfl h
  | error h =>
    rw [run'_ofResult_bind_error rfl]
    exact .error (isReported_fault h)

/-- The environment of a run has the built-in tags alone, which have a text for whatever they refuse. -/
theorem Sets.explains {c : Config} {env : Environment} (h : inv.Sets w c env) : env.Explains := by
  obtain ⟨undefined, -, h⟩ := bind_eq_ok.1 h.2
  obtain ⟨templates, -, h⟩ := bind_eq_ok.1 h
  cases h
  exact Environment.explains_of_onlyBuiltin reachable_builtinRegistry onlyBuiltin_builtinRegistry

theorem noFault_renderText (hg : w.gather.Propagates) {context : Value} (hcontext : Environment.IsContext context)
    {c : Config} {env : Environment} (henv : inv.Sets w c env) (source name : String) :
    NoFault (renderText w c env context source name) := by
  have hparse := henv.explains source name
  unfold renderText
  split
  · exact Environment.noFault_renderStringTogether hg hcontext hparse
  · exact Environment.noFault_renderString hcontext hparse

theorem noFault_renderId (hg : w.gather.Propagates) {context : Value} (hcontext : Environment.IsContext context)
    {c : Config} {env : Environment} (henv : inv.Sets w c env) (id : String) : NoFault (renderId w c env context id) := by
  have hload : NoFault (env.load id none) := Environment.noFault_load fun text f _ => henv.explains text id f
  unfold renderId
  split
  · exact Environment.noFault_renderTogether hg hcontext hload
  · exact Environment.noFault_render hcontext hload

/-- What an invocation puts out is the text that it asks for, unless it fails in a way that is reported. -/
theorem output_yields (hg : w.gather.Propagates) (hdocs : inv.WellFormed w) (hkeys : inv.TextKeys w) :
    Yields (isReported · = true) (inv.Writes w) (inv.output w).run'.1 := by
  refine yields_ofResult_bind (settings_of_texts hdocs hkeys) fun c hs htexts => ?_
  refine yields_ofResult_bind (htexts.environment w.files w.directory).reported fun env he _ => ?_
  have henv : inv.Sets w c env := ⟨hs, he⟩
  cases hc : inv.command with
  | tags => exact .ok (writes_listing henv hc)
  | render template asText file =>
    refine yields_ofResult_bind (readContext_yields henv hc hdocs) fun context hx hcontext => ?_
    have htext (source name : String) := yields_of_noFault (noFault_renderText hg hcontext henv source name)
    cases asText with
    | true => exact (htext _ _).mono fun _ => .argument henv hc hx
    | false =>
      rw [if_neg Bool.false_ne_true]
      split
      · rename_i hstdin
        cases beq_iff_eq.1 hstdin
        exact (htext _ _).mono fun _ => .input henv hc hx
      · rename_i hid
        exact (yields_of_noFault (noFault_renderId hg hcontext henv _)).mono fun _ =>
          .template henv hc (mt beq_iff_eq.2 hid) hx

theorem isReported_eq_false {f : Fault} (h : ¬ f.IsReported) : isReported (.fault f) = false := by
  rw [Bool.eq_false_iff]
  intro hf
  unfold isReported at hf
  split at hf
  · rename_i p heq
    cases heq
    exact h (.inl ⟨p, rfl⟩)
  · rename_i text heq
    cases heq
    exact h (.inr ⟨text, rfl⟩)
  · cases hf

theorem not_isReported_fault {f : Fault} (h : f.IsType) : isReported (.fault f) = false := by
  obtain ⟨p, rfl⟩ := h
  rfl

theorem output_of_not_texts (hkeys : ¬ inv.TextKeys w) :
    ∃ f : Fault, (inv.output w).run'.1 = .error (.fault f) ∧ f.IsType := by
  obtain ⟨f, hf, htype⟩ := settings_of_not_texts hkeys
  exact ⟨f, run'_ofResult_bind_error hf _, htype⟩

theorem output_of_refused {path : String} {f : Fault} (hconsults : inv.Consults w path)
    (hbad : w.files.Refused w.document w.directory (Path.ofString path) f) :
    (inv.output w).run'.1 = .error (.fault f) := by
  cases hconsults with
  | settings hgiven => exact run'_ofResult_bind_error (settings_of_file hgiven (Config.ofFile_of_refused hbad)) _
  | context henv hc hgiven =>
    obtain ⟨hs, he⟩ := henv
    unfold output
    rw [run'_ofResult_bind_ok hs, run'_ofResult_bind_ok he, hc]
    exact run'_ofResult_bind_error (readContext_of_refused hgiven hbad) _

/-- A run leaves a text behind and nothing else, or a message and nothing else, but for the lines of a log in front. -/
def AllOrNothing (inv : Invocation) (w : World) (log : String) (e : Ending) : Prop :=
  (∃ text, inv.Writes w text ∧ e = .reported ⟨0, text, log⟩) ∨
    ∃ failure, (inv.output w).run'.1 = .error failure ∧
      e = .reported ⟨2, "", log ++ Text.trimEnd failure.message ++ "\n"⟩

theorem AllOrNothing.not_failed {log : String} {e : Ending} (h : inv.AllOrNothing w log e) (failure : Failure) :
    e ≠ .failed failure := by
  rcases h with ⟨_, -, rfl⟩ | ⟨_, -, rfl⟩
  · exact nofun
  · exact nofun

/-- The lines in front of what a run leaves behind are those of one log. -/
theorem AllOrNothing.log_eq {log log' : String} {e : Ending} (h : inv.AllOrNothing w log e)
    (h' : inv.AllOrNothing w log' e) : log = log' := by
  rcases h with ⟨text, -, he⟩ | ⟨failure, hf, he⟩
  · rcases h' with ⟨text', -, he'⟩ | ⟨failure', -, he'⟩
    · cases he.symm.trans he'
      rfl
    · cases he.symm.trans he'
  · rcases h' with ⟨text', -, he'⟩ | ⟨failure', hf', he'⟩
    · cases he.symm.trans he'
    · cases hf.symm.trans hf'
      have herrors := congrArg Report.errors (Ending.reported.inj (he.symm.trans he'))
      exact (String.append_left_inj _).1 ((String.append_left_inj _).1 herrors)

end Invocation

theorem run_eq (hread : Invocation.read args = .ok inv) (w : World) :
    run args w = Invocation.ending (inv.logged w) (inv.output w).run'.1 := by
  unfold run
  rw [hread]
  rfl

theorem run_of_fault (hread : Invocation.read args = .ok inv) {f : Fault}
    (hout : (inv.output w).run'.1 = .error (.fault f)) (hf : Invocation.isReported (.fault f) = false) :
    run args w = .failed (.fault f) := by
  rw [run_eq hread, hout, Invocation.ending, hf]
  rfl

theorem run_of_output (hread : Invocation.read args = .ok inv) (hg : w.gather.Propagates) (hdocs : inv.WellFormed w)
    (hkeys : inv.TextKeys w) : inv.AllOrNothing w (inv.logged w) (run args w) := by
  have hyields := Invocation.output_yields hg hdocs hkeys
  rw [run_eq hread]
  cases hout : (inv.output w).run'.1 with
  | ok text => exact .inl ⟨text, (hout ▸ hyields).of_ok, rfl⟩
  | error failure =>
    have hreported : Invocation.isReported failure = true := (hout ▸ hyields).of_error
    refine .inr ⟨failure, hout, ?_⟩
    rw [Invocation.ending, hreported]
    rfl

/-- A world of files in the working directory, with characters of one byte. Each comes with what it says as a document. -/
def World.ofTexts (texts : List (String × String × Value)) : World where
  files := { files := texts.map fun t => ([t.1], t.2.1.toList.map fun c => UInt8.ofNat c.toNat) }
  directory := []
  document text := match (texts.map (·.2)).lookup text with
    | some v => .ok v
    | none => .error (.foreign .document "could not find expected ':'")

/-- A text that is rendered with settings and a context from files. -/
def renderArgs : List String :=
  ["render", "--string", "\x7b\x7b x \x7d\x7d", "--config", "c.yaml", "--context", "x.json"]

def renderInvocation : Invocation :=
  ⟨.render "\x7b\x7b x \x7d\x7d" true (some "x.json"), some "c.yaml", none, false⟩

def renderWorld : World :=
  .ofTexts [("c.yaml", "undefined: lenient\nparallel_children: true\n",
      .dict [(.str "undefined", .str "lenient"), (.str "parallel_children", .bool true)]),
    ("x.json", "\x7b\"x\": 1\x7d", .dict [(.str "x", .int 1)])]

/-- A file of settings with a key that is a number. -/
def numberKeyWorld : World :=
  .ofTexts [("c.yaml", "1: 2\n", .dict [(.int 1, .int 2)])]

end CommandLine

end TemplateEngine
