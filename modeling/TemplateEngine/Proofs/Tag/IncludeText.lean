/-
The text of a tag that includes a template. With an id of plain characters between quotes it is a construct of
its own in the content, and nothing that stands before it there can take a part of it.
-/
import TemplateEngine.Proofs.Expr.Quotation
import TemplateEngine.Proofs.Expr.Reading
import TemplateEngine.Proofs.Tag.Include
import TemplateEngine.Proofs.Tag.Markup
import TemplateEngine.Proofs.Template.Splice

namespace TemplateEngine.IncludeTag

open Template Text ExprGrammar

/-! ## The tag -/

/-- A character that stands for itself between quotes and in a tag, as letters and digits do. -/
def Plain (c : Char) : Prop :=
  c ≠ '\'' ∧ c ≠ '\\' ∧ c ≠ '\x7b' ∧ c ≠ '\x7d'

theorem tokenize_quoted {id : String} (hid : ∀ c ∈ id.toList, Plain c) :
    ∃ p, tokenize ("'" ++ id ++ "'") = .ok [⟨.str id, 0⟩, ⟨.done, p⟩] := by
  have hplain : escaping '\'' id.toList = id.toList := escaping_eq_self fun c hc => ⟨(hid c hc).1, (hid c hc).2.1⟩
  have hliteral : "'" ++ id ++ "'" = literalText '\'' id := by
    rw [literalText, hplain]
    exact String.toList_injective (by simp)
  rw [hliteral]
  exact ⟨_, tokenize_literalText (.inr rfl) id⟩

theorem read_quoted {id : String} (hid : ∀ c ∈ id.toList, Plain c) :
    Expr.read ("'" ++ id ++ "'") = .ok (.literal (.str id)) := by
  obtain ⟨p, hp⟩ := tokenize_quoted hid
  have hts : tokenize ("'" ++ id ++ "'") = .ok ([⟨.str id, 0⟩] ++ [⟨.done, p⟩]) := hp
  exact (read_eq_ok_iff hts).2 ⟨false, .mk (.of_primary (.str rfl)) .nil⟩

theorem ofPayload?_include (id : String) :
    TagMarkup.ofPayload? (" include '" ++ id ++ "' ") = some ⟨"include", "'" ++ id ++ "'"⟩ := by
  have hpayload : (" include '" ++ id ++ "' ").toList.dropWhile isBlank =
      "include '".toList ++ id.toList ++ "' ".toList := by
    rw [String.toList_append, String.toList_append]
    rfl
  have hblank : (" '".toList ++ id.toList ++ "' ".toList).dropWhile isBlank =
      "'".toList ++ id.toList ++ "'".toList ++ [' '] := by
    rw [List.append_assoc _ "'".toList]
    rfl
  have htrim : trimBy isBlank (" '".toList ++ id.toList ++ "' ".toList) = ("'" ++ id ++ "'").toList := by
    rw [trimBy_eq, hblank, List.rdropWhile_concat_pos _ _ _ (by decide)]
    show List.rdropWhile _ ("'".toList ++ id.toList ++ ['\'']) = _
    rw [List.rdropWhile_concat_neg _ _ _ (by decide), String.toList_append, String.toList_append]
    rfl
  have hname : ("include '".toList ++ id.toList ++ "' ".toList).takeWhile (!isBlank ·) = "include".toList := rfl
  have hrest : ("include '".toList ++ id.toList ++ "' ".toList).dropWhile (!isBlank ·) =
      " '".toList ++ id.toList ++ "' ".toList := rfl
  unfold TagMarkup.ofPayload?
  rw [hpayload]
  dsimp only
  rw [hname, hrest, htrim, String.ofList_toList, String.ofList_toList]
  rfl

/-- What stands between the delimiters of a tag that asks for an id. -/
def includePayload (id : String) : String :=
  " include '" ++ id ++ "' "

/-- The pieces of a tag that asks for an id. -/
def includePieces (id : String) : List Piece :=
  [.delimiter .tagOpen, .text (includePayload id).toList, .delimiter .tagClose]

theorem toList_includeText (id : String) :
    (includeText id).toList = '\x7b' :: '%' :: ((includePayload id).toList ++ ['%', '\x7d']) := by
  unfold includeText includePayload
  simp

section

variable {registry : TagRegistry} {name id : String} {bs : List Block} (hid : ∀ c ∈ id.toList, Plain c)

include hid

theorem braceless_payload : ∀ c ∈ (includePayload id).toList, c ≠ '\x7b' ∧ c ≠ '\x7d' := by
  have hfront : ∀ c ∈ " include '".toList, c ≠ '\x7b' ∧ c ≠ '\x7d' := by simp
  have hback : ∀ c ∈ "' ".toList, c ≠ '\x7b' ∧ c ≠ '\x7d' := by simp
  intro c hc
  unfold includePayload at hc
  rw [String.toList_append, String.toList_append, List.mem_append, List.mem_append] at hc
  rcases hc with (hc | hc) | hc
  · exact hfront c hc
  · exact (hid c hc).2.2
  · exact hback c hc

theorem pieces_includeText (rest : List Char) :
    pieces ((includeText id).toList ++ rest) = includePieces id ++ pieces rest := by
  have hne : (includePayload id).toList ≠ [] := by simp [includePayload]
  rw [toList_includeText, List.cons_append, List.cons_append, List.append_assoc, pieces_of_delimiter rfl]
  exact congrArg _ (pieces_tagClose hne (braceless_payload hid) rest)

/-- With a brace before it the tag is an output that ends like a tag. -/
theorem pieces_brace (rest : List Char) :
    pieces ('%' :: ((includePayload id).toList ++ '%' :: '\x7d' :: rest)) =
      .text ('%' :: (includePayload id).toList) :: .delimiter .tagClose :: pieces rest := by
  have hcs : ∀ c ∈ '%' :: (includePayload id).toList, c ≠ '\x7b' ∧ c ≠ '\x7d' := by
    intro c hc
    rcases List.mem_cons.1 hc with rfl | hc
    · decide
    · exact braceless_payload hid c hc
  exact pieces_tagClose (List.cons_ne_nil _ _) hcs rest

omit hid in
/-- An output does not end like a tag. -/
theorem not_gives_output {ps qs : List Piece} (hps : EndsInContent ps) (cs : List Char) :
    ¬ Gives registry name (ps ++ .delimiter .outputOpen :: .text cs :: .delimiter .tagClose :: qs) bs := by
  rintro ⟨r, hr, -⟩
  rw [number_append, List.foldlM_append] at hr
  obtain ⟨rp, hp, hr⟩ := bind_eq_ok.1 hr
  have hbetween := Reader.between_of_run hps hp
  rw [number, List.foldlM_cons, Reader.step_content hbetween.contexts] at hr
  obtain ⟨r₁, h₁, hr⟩ := bind_eq_ok.1 hr
  cases h₁
  rw [number, List.foldlM_cons, Reader.step_expression rfl] at hr
  obtain ⟨r₂, h₂, hr⟩ := bind_eq_ok.1 hr
  cases h₂
  rw [number, List.foldlM_cons, Reader.step_expression rfl] at hr
  obtain ⟨r₃, h₃, hr⟩ := bind_eq_ok.1 hr
  cases h₃

/-- The tag is cut apart from what stands before it in the content, as no delimiter lies across them: with a
brace before it, the text could not be read. -/
theorem pieces_around {pre post : String} (hpre : EndsInContent (pieces pre.toList))
    (h : Gives registry name (pieces (pre ++ includeText id ++ post).toList) bs) :
    pieces (pre ++ includeText id ++ post).toList = pieces pre.toList ++ (includePieces id ++ pieces post.toList) := by
  have htag := pieces_includeText hid post.toList
  rw [String.toList_append, String.toList_append, List.append_assoc] at h ⊢
  rcases pieces_append pre.toList ((includeText id).toList ++ post.toList) with hg | ⟨ps, c, e, d, rest, ha⟩
  · rw [hg, htag]
    exact glue_delimiter _ _ _
  · rw [ha.pieces_left, endsInContent_glue] at hpre
    have hright := ha.right
    rw [toList_includeText, List.cons_append, List.cons_append] at hright
    obtain ⟨rfl, rfl⟩ := List.cons.inj hright
    have hd : d = .outputOpen := by
      have hdelimiter := ha.delimiter
      unfold Delimiter.ofChars? at hdelimiter
      split at hdelimiter
      · exact (Option.some.inj hdelimiter).symm
      · cases hdelimiter
    have hpieces := ha.pieces
    rw [hd, List.append_assoc, List.cons_append, List.cons_append, List.nil_append] at hpieces
    rw [hpieces, pieces_brace hid] at h
    exact absurd h (not_gives_output hpre _)

/-- The tag is a construct in the content, from any line on. -/
theorem content_include (hroute : registry.route? "include" = some ⟨plugin, .opening⟩) (name : String) (line : Nat) :
    ∃ t, Content registry name (number line (includePieces id)) [.tag plugin t []] ∧ t.role = .opening ∧
      ∀ env s, Asks env s t id := by
  let t : Tag := { literalInclude name id with line := line }
  have hblank : Text.blank ("'" ++ id ++ "'") = false := by
    have hquote : isBlank '\'' = false := by decide
    simp [Text.blank, hquote]
  have hargs : plugin.readArgs "include" .opening ("'" ++ id ++ "'") = .ok (.expr (.literal (.str id))) := by
    have hread : readExpr ("'" ++ id ++ "'") = .ok (.literal (.str id)) := mapError_eq_ok.2 (read_quoted hid)
    have hrequire : requireSignature "include" ("'" ++ id ++ "'") = .ok ("'" ++ id ++ "'") := by
      rw [requireSignature, hblank]
      rfl
    exact bind_eq_ok.2 ⟨_, hrequire, bind_eq_ok.2 ⟨_, hread, rfl⟩⟩
  let payload : Token := ⟨.text, includePayload id, line⟩
  have htokens : Enclosed .tagOpen .tagClose payload (number line (includePieces id)) := by
    have hvalue : String.ofList (includePayload id).toList = includePayload id := String.ofList_toList
    rw [includePieces, number, number, Piece.chars, hvalue]
    exact .mk rfl rfl rfl
  have htag : TagTokens registry name (number line (includePieces id)) ⟨plugin, .opening⟩ t :=
    ⟨hroute, rfl, hargs, rfl, payload, htokens, ofPayload?_include id, rfl⟩
  exact ⟨t, .snoc .nil (.singular htag rfl), rfl, fun env s => ⟨_, _, rfl, rfl, rfl⟩⟩

end

end TemplateEngine.IncludeTag
