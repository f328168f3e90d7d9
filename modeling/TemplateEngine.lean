import TemplateEngine.CommandLine.Run
import TemplateEngine.Config.File
import TemplateEngine.Environment.Onlooker
import TemplateEngine.Main
import TemplateEngine.Proofs.CommandLine.Outcome
import TemplateEngine.Proofs.Environment.Admission
import TemplateEngine.Proofs.Environment.Calls
import TemplateEngine.Proofs.Environment.Comment
import TemplateEngine.Proofs.Environment.Concat
import TemplateEngine.Proofs.Environment.Filters
import TemplateEngine.Proofs.Environment.Inline
import TemplateEngine.Proofs.Environment.Located
import TemplateEngine.Proofs.Environment.Names
import TemplateEngine.Proofs.Environment.Output
import TemplateEngine.Proofs.Environment.Reported
import TemplateEngine.Proofs.Environment.Selectors
import TemplateEngine.Proofs.Environment.Settled
import TemplateEngine.Proofs.Expr.Descent
import TemplateEngine.Proofs.Expr.Faults
import TemplateEngine.Proofs.Expr.Grouping
import TemplateEngine.Proofs.Expr.Layout
import TemplateEngine.Proofs.Expr.Malformed
import TemplateEngine.Proofs.Expr.Mapping
import TemplateEngine.Proofs.Expr.Printed
import TemplateEngine.Proofs.Expr.Rewording
import TemplateEngine.Proofs.Expr.Shown
import TemplateEngine.Proofs.Loader.Confined
import TemplateEngine.Proofs.Loader.Separators
import TemplateEngine.Proofs.Scope.Flattened
import TemplateEngine.Proofs.Tag.Apply
import TemplateEngine.Proofs.Tag.Candidates
import TemplateEngine.Proofs.Tag.For
import TemplateEngine.Proofs.Tag.If
import TemplateEngine.Proofs.Tag.Printed
import TemplateEngine.Proofs.Tag.Registrations
import TemplateEngine.Proofs.Tag.Switch
import TemplateEngine.Proofs.Tag.With
import TemplateEngine.Proofs.Template.Arena
import TemplateEngine.Proofs.Template.Builder
import TemplateEngine.Proofs.Template.Contexts
import TemplateEngine.Proofs.Template.Extension
import TemplateEngine.Proofs.Template.Listing
import TemplateEngine.Proofs.Template.Segmentation
import TemplateEngine.Proofs.Text.Markup
import TemplateEngine.Proofs.Value.Conversion
