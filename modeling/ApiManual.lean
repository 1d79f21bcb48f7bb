import ApiManual.Main
import ApiManual.Proofs.DocComment.Refinement
import ApiManual.Proofs.Symbol.Priority
import ApiManual.Proofs.Text.Edges
import ApiManual.Proofs.TypeExpr.Traversal
import ApiManual.Proofs.TypeExpr.Continuation
import ApiManual.Proofs.DocComment.Print
import ApiManual.Proofs.TypeExpr.Balance
import ApiManual.Proofs.TypeExpr.RoundTrip
import ApiManual.Proofs.TypeExpr.Grammar
import ApiManual.Proofs.TypeExpr.Derivation
import ApiManual.Proofs.Unicode.Classes
import ApiManual.Proofs.DocComment.PrintedBlock
import ApiManual.Proofs.DocComment.PrintedOperand
import ApiManual.Proofs.DocComment.PrintedDeclaration
import ApiManual.Proofs.DocComment.PrintedText
import ApiManual.Proofs.DocComment.PrintedEntity
import ApiManual.Proofs.DocComment.RoundTrip
import ApiManual.Proofs.TypeExpr.Acceptance
import ApiManual.Proofs.TypeExpr.Literal
import ApiManual.Proofs.TypeExpr.Nesting
import ApiManual.Proofs.TypeExpr.Splitting
import ApiManual.Proofs.DocComment.UntypedFields
import ApiManual.Proofs.DocComment.Descriptions
import ApiManual.Proofs.Markdown
import ApiManual.Proofs.Page.Targets
import ApiManual.Proofs.Page.Visibility
import ApiManual.Proofs.Symbol.Delimiter
import ApiManual.Proofs.Symbol.Origin
import ApiManual.Proofs.Page.Members
import ApiManual.Proofs.Page.Mentions
import ApiManual.Proofs.Path.Components
import ApiManual.Proofs.FileTree
import ApiManual.Proofs.Glob.Literal
import ApiManual.Proofs.Glob.Walk
import ApiManual.Proofs.Glob.Root
import ApiManual.Proofs.Path.Order
import ApiManual.Proofs.Site.Walk
import ApiManual.Proofs.Site.Discovery
import ApiManual.Proofs.Path.Tail
import ApiManual.Proofs.FileTree.Change
import ApiManual.Proofs.Site.Writing
import ApiManual.Proofs.Site.Placement
import ApiManual.Proofs.Site.Independence
import ApiManual.Proofs.Glob.Listing
import ApiManual.Proofs.DocComment.DeclarationForm
import ApiManual.Proofs.DocComment.Layout
import ApiManual.Proofs.FileTree.Destination
import ApiManual.Proofs.Site.Address
import ApiManual.Proofs.Site.Effect
import ApiManual.Proofs.Site.Idempotence
import ApiManual.Proofs.Site.PageFiles
import ApiManual.Proofs.Markdown.Table
import ApiManual.Proofs.DocComment.Growth
import ApiManual.Proofs.DocComment.Attribution
import ApiManual.Proofs.DocComment.Parameters
import ApiManual.Proofs.DocComment.Faults
import ApiManual.Proofs.DocComment.LeadingComment
import ApiManual.Proofs.Page.Shielding
import ApiManual.Proofs.Text.Indent
import ApiManual.Proofs.Markdown.Fence
import ApiManual.Proofs.Page.Usage
import ApiManual.Proofs.Symbol.Extension
import ApiManual.Proofs.DocComment.Invariant
import ApiManual.Proofs.TypeExpr.TopLevel
