/-
Templates with a comment. Where the comment is closed by its own end, the template around it is read as if the comment
were not there, and is rendered in the same way; only the lines behind the comment are those after its lines.
-/
import TemplateEngine.Proofs.Environment.Matching
import TemplateEngine.Proofs.Template.Comment

namespace TemplateEngine.Environment

open Template

/-- A comment as it is written. -/
def commentText (body : String) : String :=
  "\x7b#" ++ body ++ "#\x7d"

theorem toList_commentText (pre body post : String) : (pre ++ commentText body ++ post).toList =
    pre.toList ++ '\x7b' :: '#' :: (body.toList ++ '#' :: '\x7d' :: post.toList) := by
  simp [commentText]

/-- Rows that need not have anything in common. -/
def anyRows : RowCongruence where
  Rows _ _ := True
  Names _ _ := True
  Lines _ _ := True
  Families _ := True
  nil := trivial
  append _ _ := trivial
  text _ := trivial
  output _ _ _ _ := trivial
  tag _ _ _ := trivial

section

variable {env : Environment} {pre post body name : String} {t : Template}
  (hread : env.parse (pre ++ post) name = .ok t) (hpre : EndsInContent (pieces pre.toList))
  (hbrace : pre.toList.getLast? ≠ some '\x7b') (hparted : Parted pre.toList post.toList)
  (hclose : ¬ ['#', '\x7d'] <:+: body.toList) (heven : Even (endBraces body.toList))

include hread hpre hbrace hparted hclose heven

/-- The blocks behind the comment are the same on later lines, for each relation that allows for these. -/
theorem read_commented {K : RowCongruence} (hK : K.Covers env.registry) (hn : K.Names name name)
    (hl : ∀ line, K.Lines line line)
    (hshift : ∀ line, 1 + lineEnds pre.toList ≤ line → K.Lines line (line + lineEnds body.toList)) :
    ∃ t', env.parse (pre ++ commentText body ++ post) name = .ok t' ∧
      ∃ bs, RowsSame t.blocks bs ∧ K.Rows bs t'.blocks := by
  obtain ⟨-, hgives⟩ := parse_eq_ok_gives.1 hread
  rw [String.toList_append, hparted.pieces] at hgives
  -- a text that reaches from the one side to the other is cut in two
  obtain ⟨bs, hgives₁, hsame⟩ := Gives.unglue hpre hgives
  have hbody : .delimiter .commentClose ∉ pieces body.toList := fun h => hclose (infix_of_mem_pieces h)
  rw [← spelling_pieces pre.toList] at hshift
  obtain ⟨bs', hgives₂, hrows⟩ := Gives.insert_comment hK hn hl hshift hpre hbody hgives₁
  refine ⟨⟨name, bs'⟩, parse_eq_ok_gives.2 ⟨rfl, ?_⟩, bs, hsame, hrows⟩
  have hend : ¬ EndsInBrace (pieces body.toList) := fun h => (endsInBrace_pieces _).1 h heven
  rw [toList_commentText, pieces_comment hbrace hend]
  exact hgives₂

/-- A comment without line ends changes nothing at all. -/
theorem renderString_commented_same (hlines : lineEnds body.toList = 0) (context : Value) :
    env.renderString (pre ++ commentText body ++ post) context name = env.renderString (pre ++ post) context name := by
  have hshift : ∀ line, 1 + lineEnds pre.toList ≤ line → line = line + lineEnds body.toList := by
    intro line _
    rw [hlines, Nat.add_zero]
  obtain ⟨t', ht', bs, hsame, hrows⟩ := read_commented hread hpre hbrace hparted hclose heven
    (RowsSame.covers env.registry) rfl (fun _ => rfl) hshift
  have hnames : t'.name = t.name := (parse_eq_ok_gives.1 ht').1.trans (parse_eq_ok_gives.1 hread).1.symm
  cases hs : liftFault (env.makeScope context) with
  | error failure => rw [renderString_of_fault ht' hs, renderString_of_fault hread hs]
  | ok s =>
    rw [renderString_of_scope ht' hs, renderString_of_scope hread hs, renderTemplate, renderTemplate, hnames, hsame]
    exact (hrows _ _ _ _ _).symm

/-- With the built-in tags, a comment changes nothing but the lines behind it. -/
theorem matches_commented (hreg : env.registry.Reachable) (hb : env.registry.OnlyBuiltin) (context : Value) :
    Matches (1 + lineEnds pre.toList) (lineEnds body.toList) Eq (env.renderString (pre ++ post) context name)
      (env.renderString (pre ++ commentText body ++ post) context name) := by
  have hS := matching_services (c := 1 + lineEnds pre.toList) (k := lineEnds body.toList) hreg hb env.includeDepth
  obtain ⟨t', ht', bs, hsame, hrows⟩ := read_commented hread hpre hbrace hparted hclose heven
    (matchingRows_covers hreg hb hS) rfl (fun _ => .inl rfl) fun _ hline => .inr ⟨hline, rfl⟩
  have hnames : t.name = t'.name := (parse_eq_ok_gives.1 hread).1.trans (parse_eq_ok_gives.1 ht').1.symm
  cases hs : liftFault (env.makeScope context) with
  | error failure =>
    rw [renderString_of_fault ht' hs, renderString_of_fault hread hs]
    exact (matching _ _).holds_throw failure
  | ok s =>
    rw [renderString_of_scope ht' hs, renderString_of_scope hread hs, renderTemplate, renderTemplate, hsame]
    exact hrows _ _ _ _ _ _ hnames rfl

end

/-- A comment whose body ends in an odd number of braces is not closed by its end. -/
theorem parse_comment_iff (env : Environment) (name : String) {body : String}
    (hclose : ¬ ['#', '\x7d'] <:+: body.toList) :
    (∃ t, env.parse (commentText body) name = .ok t) ↔ Even (endBraces body.toList) := by
  have hempty : env.parse ("" ++ "") name = .ok ⟨name, []⟩ := rfl
  have hlist : "" ++ commentText body ++ "" = commentText body := by simp
  constructor
  · rintro ⟨t, ht⟩
    by_contra hodd
    obtain ⟨-, hgives⟩ := parse_eq_ok_gives.1 ht
    have hbody : .delimiter .commentClose ∉ pieces body.toList := fun h => hclose (infix_of_mem_pieces h)
    rw [← hlist, toList_commentText] at hgives
    exact not_gives_comment ((endsInBrace_pieces _).2 hodd) hbody _ hgives
  · intro heven
    obtain ⟨t, ht, -⟩ := read_commented (K := anyRows) hempty rfl nofun (by decide) hclose heven
      (fun _ _ _ => trivial) trivial (fun _ => trivial) fun _ _ => trivial
    rw [hlist] at ht
    exact ⟨t, ht⟩

/-- A comment is transparent where its body does not leave a brace at its end. Put into the content of a text that can
be parsed, behind no brace and between two parts that no delimiter reaches across, it leaves a text that can be parsed.
If its body has no line end, that text is rendered in the same way with whatever tags that give texts and use their
children only by rendering them, and with the built-in ones it is rendered to the same text or fails in the same way,
after the same requests, where a place that is not above the comment may be further down by the line ends of the body.
Among the bodies without closing delimiter no others are closed by their end. -/
theorem comment_transparent {env : Environment} {pre post body name : String}
    (hread : ∃ t, env.parse (pre ++ post) name = .ok t) (hpre : EndsInContent (pieces pre.toList))
    (hbrace : pre.toList.getLast? ≠ some '\x7b') (hparted : Parted pre.toList post.toList)
    (hclose : ¬ ['#', '\x7d'] <:+: body.toList) :
    ((∃ t, env.parse (commentText body) name = .ok t) ↔ Even (endBraces body.toList)) ∧
    (Even (endBraces body.toList) → (∃ t, env.parse (pre ++ commentText body ++ post) name = .ok t) ∧
      ∀ context,
        (lineEnds body.toList = 0 → (env.renderString (pre ++ commentText body ++ post) context name).run' =
          (env.renderString (pre ++ post) context name).run') ∧
        (env.registry.Reachable → env.registry.OnlyBuiltin →
          ResultsMatch (1 + lineEnds pre.toList) (lineEnds body.toList) Eq
            (env.renderString (pre ++ post) context name).run'.1
            (env.renderString (pre ++ commentText body ++ post) context name).run'.1 ∧
          (env.renderString (pre ++ commentText body ++ post) context name).run'.2 =
            (env.renderString (pre ++ post) context name).run'.2)) := by
  obtain ⟨t, ht⟩ := hread
  refine ⟨parse_comment_iff env name hclose, fun heven => ⟨?_, fun context => ⟨fun hlines => ?_, fun hreg hb => ?_⟩⟩⟩
  · obtain ⟨t', ht', -⟩ := read_commented (K := anyRows) ht hpre hbrace hparted hclose heven
      (fun _ _ _ => trivial) trivial (fun _ => trivial) fun _ _ => trivial
    exact ⟨t', ht'⟩
  · rw [renderString_commented_same ht hpre hbrace hparted hclose heven hlines]
  · have hmatches := matches_commented ht hpre hbrace hparted hclose heven hreg hb context
    obtain ⟨more, hmore, hmore', hresult⟩ := hmatches [] []
    exact ⟨hresult, hmore'.trans hmore.symm⟩

/-- A text that is open inside of a branch, and the text that ends the branch. -/
def beforeComment : String :=
  "\x7b% if x %\x7da"

def afterComment : String :=
  "b\x7b\x7b y \x7d\x7d\x7b% endif %\x7d"

/-- A body of two lines with an opening delimiter at its end. -/
def pairedBody : String :=
  "one\ntwo \x7b\x7b"

theorem comment_transparent_branch :
    (∃ t, (ofTexts []).parse (beforeComment ++ afterComment) "t" = .ok t) ∧
    EndsInContent (pieces beforeComment.toList) ∧ beforeComment.toList.getLast? ≠ some '\x7b' ∧
    Parted beforeComment.toList afterComment.toList ∧ ¬ ['#', '\x7d'] <:+: pairedBody.toList ∧
    Even (endBraces pairedBody.toList) ∧
    ((ofTexts []).renderString (beforeComment ++ commentText pairedBody ++ afterComment)
      (.dict [(.str "x", .int 1), (.str "y", .int 2)]) "t").run'.1 = .ok "ab2" := by
  have hread : ∃ t, (ofTexts []).parse (beforeComment ++ afterComment) "t" = .ok t :=
    exists_ok_of_isSome (by decide +kernel)
  have hpre : EndsInContent (pieces beforeComment.toList) := by
    unfold EndsInContent
    decide +kernel
  have hbrace : beforeComment.toList.getLast? ≠ some '\x7b' := by decide +kernel
  have hparted : Parted beforeComment.toList afterComment.toList := by decide +kernel
  have hclose : ¬ ['#', '\x7d'] <:+: pairedBody.toList := by decide +kernel
  have heven : Even (endBraces pairedBody.toList) := by decide +kernel
  have hplain : ((ofTexts []).renderString (beforeComment ++ afterComment)
      (.dict [(.str "x", .int 1), (.str "y", .int 2)]) "t").run'.1 = .ok "ab2" := eq_ok_of_toOption (by decide +kernel)
  have hmatch := ((comment_transparent hread hpre hbrace hparted hclose).2 heven).2
    (.dict [(.str "x", .int 1), (.str "y", .int 2)])
  have hresult := (hmatch.2 reachable_builtinRegistry onlyBuiltin_builtinRegistry).1
  rw [hplain] at hresult
  refine ⟨hread, hpre, hbrace, hparted, hclose, heven, ?_⟩
  generalize ((ofTexts []).renderString (beforeComment ++ commentText pairedBody ++ afterComment)
    (.dict [(.str "x", .int 1), (.str "y", .int 2)]) "t").run'.1 = result at hresult
  cases hresult with
  | ok h => rw [h]

/-- The failure of an output `{{ x }}` on a line where `x` is not bound. -/
def unboundAt (line : Nat) : Failure :=
  .evaluation (.located ⟨"t", line⟩ (.undefinedName "x"))

/-- A family whose only tag tells its line. -/
def lineTag : TagPlugin where
  label := "LineTag"
  family := "line"
  names := ["line"]
  singular := true
  readArgs _ _ _ := .ok .none
  render t _ _ _ := pure (.text (toString t.line))

/-- An environment with this family. -/
def lineEnvironment : Environment :=
  { ofTexts [] with registry := builtinRegistry.addAll [lineTag] }

/-- A comment with a brace at the end of its body runs on. One with a line end moves the place of a failure, and shows
in the text of a tag that tells its line. -/
theorem comment_shows :
    ((∃ t, (ofTexts []).parse ("" ++ "") "t" = .ok t) ∧ EndsInContent (pieces "".toList) ∧
      "".toList.getLast? ≠ some '\x7b' ∧ Parted "".toList "".toList ∧ ¬ ['#', '\x7d'] <:+: "\x7b".toList ∧
      ¬ ∃ t, (ofTexts []).parse ("" ++ commentText "\x7b" ++ "") "t" = .ok t) ∧
    ((∃ t, (ofTexts []).parse ("" ++ outputMarkup "x") "t" = .ok t) ∧ Parted "".toList (outputMarkup "x").toList ∧
      ¬ ['#', '\x7d'] <:+: "\n".toList ∧
      ((ofTexts []).renderString ("" ++ outputMarkup "x") (.dict []) "t").run'.1 = .error (unboundAt 1) ∧
      ((ofTexts []).renderString ("" ++ commentText "\n" ++ outputMarkup "x") (.dict []) "t").run'.1 =
        .error (unboundAt 2)) ∧
    (∃ t, lineEnvironment.parse ("" ++ "\x7b% line %\x7d") "t" = .ok t) ∧ Parted "".toList "\x7b% line %\x7d".toList ∧
      (lineEnvironment.renderString ("" ++ "\x7b% line %\x7d") (.dict []) "t").run'.1 = .ok "1" ∧
      (lineEnvironment.renderString ("" ++ commentText "\n" ++ "\x7b% line %\x7d") (.dict []) "t").run'.1 = .ok "2" := by
  have hempty : EndsInContent (pieces "".toList) := by
    unfold EndsInContent
    decide +kernel
  have hopen : ¬ ∃ t, (ofTexts []).parse ("" ++ commentText "\x7b" ++ "") "t" = .ok t := by
    rintro ⟨t, ht⟩
    have hnone : ((ofTexts []).parse ("" ++ commentText "\x7b" ++ "") "t").toOption.isSome = false := by decide +kernel
    rw [ht] at hnone
    cases hnone
  refine ⟨⟨exists_ok_of_isSome (by decide +kernel), hempty, by decide +kernel, by decide +kernel, by decide +kernel,
    hopen⟩, ⟨exists_ok_of_isSome (by decide +kernel), by decide +kernel, by decide +kernel, ?_, ?_⟩,
    exists_ok_of_isSome (by decide +kernel), by decide +kernel, ?_, ?_⟩
  · exact eq_error_of_failure? (by decide +kernel)
  · exact eq_error_of_failure? (by decide +kernel)
  · exact eq_ok_of_toOption (by decide +kernel)
  · exact eq_ok_of_toOption (by decide +kernel)

end TemplateEngine.Environment
