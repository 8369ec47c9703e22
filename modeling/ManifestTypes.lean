import ManifestTypes.Cli.FileTree
import ManifestTypes.Json.Reader
import ManifestTypes.Main
import ManifestTypes.Proofs.Attempt.Outcomes
import ManifestTypes.Proofs.Cli.TypeCommand
import ManifestTypes.Proofs.Manifest.Collecting
import ManifestTypes.Proofs.Manifest.Passes
import ManifestTypes.Proofs.TypeExpr.Prefixes
import ManifestTypes.Proofs.TypeExpr.Visits
import ManifestTypes.Proofs.Value.Alike
import ManifestTypes.TypeExpr.Grammar
import ManifestTypes.TypeExpr.Path
import ManifestTypes.Value.Distinct
import ManifestTypes.Value.OfCopy
import ManifestTypes.Proofs.Manifest.Independence
import ManifestTypes.Proofs.Manifest.Rereading
import ManifestTypes.Proofs.Manifest.Normalizing
import ManifestTypes.Proofs.Manifest.Leaves
import ManifestTypes.Proofs.TypeExpr.Applications
import ManifestTypes.Proofs.TypeExpr.Parentheses
import ManifestTypes.Proofs.TypeExpr.Decomposition
import ManifestTypes.Proofs.Catalog.Words
import ManifestTypes.Proofs.Catalog.Entries
import ManifestTypes.Proofs.Catalog.Prefixes
import ManifestTypes.Proofs.Manifest.Shuffling
import ManifestTypes.Proofs.Manifest.Skeletons
import ManifestTypes.Proofs.Manifest.FileNames
import ManifestTypes.Proofs.Cli.OwnFiles
import ManifestTypes.Proofs.Json.RoundTrip
import ManifestTypes.Proofs.Image.Rendering
import ManifestTypes.Proofs.Manifest.Reindexing
import ManifestTypes.Proofs.Manifest.MixedLists
import ManifestTypes.Proofs.Value.Reading
import ManifestTypes.Proofs.Manifest.References
import ManifestTypes.Proofs.Manifest.Patching
import ManifestTypes.Proofs.TypeExpr.Layout
import ManifestTypes.Proofs.Manifest.Insertions
import ManifestTypes.Proofs.Manifest.ListsLeft
import ManifestTypes.Proofs.Manifest.Labels
