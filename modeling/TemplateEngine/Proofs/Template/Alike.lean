/-
Rows of blocks that render alike. Block by block they are the same but for lines and the names of templates,
and rows of some other kind may stand for each other. All tags are of built-in families, which look at
neither.
-/
import TemplateEngine.Proofs.Template.Refine

namespace TemplateEngine

variable {names : String → String → Prop} {base : List Block → List Block → Prop} {S S' : Services}
  {bs bs' : List Block}

/-! ## Rows -/

/-- Two rows of the same blocks, up to lines and names; `base` relates the rows that may take each other's place. -/
inductive RowsAlike (names : String → String → Prop) (base : List Block → List Block → Prop) :
    List Block → List Block → Prop
  | nil : RowsAlike names base [] []
  | base {bs bs' : List Block} (h : base bs bs') : RowsAlike names base bs bs'
  | text (s : String) : RowsAlike names base [.text s] [.text s]
  | output (source : String) (line line' : Nat) : RowsAlike names base [.output source line] [.output source line']
  | tag {p : TagPlugin} {t t' : Tag} {cs cs' : List Block} (hp : p ∈ builtinTags) (ht : t.Alike names refinement.Lines t')
      (hc : RowsAlike names base cs cs') : RowsAlike names base [.tag p t cs] [.tag p t' cs']
  | append {bs bs' cs cs' : List Block} (hb : RowsAlike names base bs bs') (hc : RowsAlike names base cs cs') :
      RowsAlike names base (bs ++ cs) (bs' ++ cs')

theorem Tag.Alike.symm {t t' : Tag} (h : t.Alike names refinement.Lines t') :
    t'.Alike (fun a b => names b a) refinement.Lines t :=
  ⟨h.name.symm, h.role.symm, h.signature.symm, h.args.symm, trivial, h.template⟩

theorem RowsAlike.symm (h : RowsAlike names base bs bs') :
    RowsAlike (fun a b => names b a) (fun bs cs => base cs bs) bs' bs := by
  induction h with
  | nil => exact .nil
  | base h => exact .base h
  | text s => exact .text s
  | output source line line' => exact .output source line' line
  | tag hp ht hc ih => exact .tag hp ht.symm ih
  | append hb hc ihb ihc => exact .append ihb ihc

/-! ## Their texts -/

/-- Where the first row can be rendered, so can the second one in a scope that is the same to expressions. -/
def RowsRefine (S S' : Services) (bs bs' : List Block) : Prop :=
  ∀ name name' choice s s' selector, s.Agree s' →
    Refines Eq (renderBlocks S name choice bs s selector) (renderBlocks S' name' choice bs' s' selector)

/-- This is what the relation of refinement asks of rows. -/
theorem rowsRefine_iff : RowsRefine S S' bs bs' ↔ refinement.Rows S S' bs bs' :=
  ⟨fun h name name' choice s s' selector _ => h name name' choice s s' selector,
    fun h name name' choice s s' selector => h name name' choice s s' selector trivial⟩

theorem RowsRefine.congr {cs cs' : List Block} (h : RowsRefine S S' bs bs') (hb : RowsSame bs cs)
    (hc : RowsSame bs' cs') : RowsRefine S S' cs cs' := by
  intro name name' choice s s' selector hs
  rw [← hb, ← hc]
  exact h name name' choice s s' selector hs

/-- Rows that are alike render alike, if those do that take each other's place. -/
theorem RowsAlike.refine (h : RowsAlike names base bs bs') (hS : S.Refine names S')
    (hbase : ∀ bs bs', base bs bs' → RowsRefine S S' bs bs') : RowsRefine S S' bs bs' := by
  rw [rowsRefine_iff]
  induction h with
  | nil => exact RenderRelation.rows_nil
  | base h => exact rowsRefine_iff.1 (hbase _ _ h)
  | text s => exact RenderRelation.rows_text s
  | output source line line' =>
    refine RenderRelation.rows_singleton rfl fun name name' s s' selector _ hs => ?_
    rw [renderBlock, renderBlock]
    exact refines_outputText hS hs name name' source line line'
  | tag hp ht hc ih => exact RenderRelation.rows_tag hS.related (RenderRelation.follows_of_builtin hp) ht ih
  | append hb hc ihb ihc => exact RenderRelation.rows_append ihb ihc

end TemplateEngine
