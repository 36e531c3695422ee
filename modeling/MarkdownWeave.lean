import MarkdownWeave.Compile.Progress
import MarkdownWeave.Main
import MarkdownWeave.Store
import MarkdownWeave.Proofs.Transclusion.Expansion
import MarkdownWeave.Proofs.Transclusion.Cycle
import MarkdownWeave.Proofs.Transclusion.Splicing
import MarkdownWeave.Proofs.Transclusion.Idempotence
import MarkdownWeave.Proofs.Inheritance.Ascent
import MarkdownWeave.Proofs.Termination
import MarkdownWeave.Proofs.Slots.Occurrence
import MarkdownWeave.Proofs.Slots.Simultaneous
import MarkdownWeave.Proofs.Metadata.Canonical
import MarkdownWeave.Proofs.Metadata.Precedence
import MarkdownWeave.Proofs.Header.Margin
import MarkdownWeave.Proofs.Header.Layout
import MarkdownWeave.Proofs.Header.RoundTrip
import MarkdownWeave.Proofs.Transclusion.Tour
import MarkdownWeave.Proofs.Transclusion.Independence
import MarkdownWeave.Proofs.Transclusion.LineEnds
import MarkdownWeave.Proofs.Transclusion.Context
import MarkdownWeave.Proofs.Slots.Cutting
import MarkdownWeave.Proofs.Slots.Filling
import MarkdownWeave.Proofs.Slots.Content
import MarkdownWeave.Proofs.Inlining
import MarkdownWeave.Proofs.Slots.Requests
import MarkdownWeave.Proofs.Undefined
import MarkdownWeave.Proofs.Metadata.Equality
import MarkdownWeave.Proofs.Yaml.Loading
import MarkdownWeave.Proofs.Metadata.Proper
import MarkdownWeave.Proofs.Metadata.Normality
import MarkdownWeave.Proofs.Metadata.Collapse
import MarkdownWeave.Proofs.Dependence
import MarkdownWeave.Proofs.Failures
import MarkdownWeave.Proofs.FailingAlike
import MarkdownWeave.Proofs.FileTree.Listing
import MarkdownWeave.Proofs.FileTree.Reaching
import MarkdownWeave.Proofs.FileTree.Mirror
import MarkdownWeave.Proofs.Metadata.Inert
import MarkdownWeave.Proofs.PassThrough
import MarkdownWeave.Proofs.CommandLine.Delivery
import MarkdownWeave.Proofs.Header.Grammar
import MarkdownWeave.Proofs.Yaml.Remainder
import MarkdownWeave.Proofs.Yaml.Progress
import MarkdownWeave.Proofs.Header.Returns
import MarkdownWeave.Proofs.Inheritance.Complete
import MarkdownWeave.Proofs.Suggestions.Nearest
import MarkdownWeave.Proofs.Suggestions.Defined
import MarkdownWeave.Proofs.Json.Rendering
import MarkdownWeave.Proofs.Json.Compilation
import MarkdownWeave.Proofs.Reports
