import SchemaModules.Boundary.OfJson
import SchemaModules.Boundary.OfToml
import SchemaModules.Bucket.Directory
import SchemaModules.Bucket.Memory
import SchemaModules.Memo
import SchemaModules.Path.Lemmas
import SchemaModules.Path.Validity
import SchemaModules.Proofs.Outcome
import SchemaModules.Proofs.Path.Containment
import SchemaModules.Proofs.SortedMap
import SchemaModules.Publish.Upload
import SchemaModules.Registry.Admin
import SchemaModules.Registry.Memory
import SchemaModules.Text.Hex.Bound
import SchemaModules.Proofs.Boundary.Construction
import SchemaModules.Proofs.Boundary.Placement
import SchemaModules.Proofs.Bucket.Memory
import SchemaModules.Proofs.Bucket.View
import SchemaModules.Proofs.Bucket.Layers
import SchemaModules.Proofs.Digest.Manifest
import SchemaModules.Proofs.Path.Chunk
import SchemaModules.Proofs.Bucket.Digest
import SchemaModules.Proofs.Digest.Merge
import SchemaModules.Proofs.Graph
import SchemaModules.Proofs.Module.Set
import SchemaModules.Proofs.Publish.Outcome
import SchemaModules.Proofs.Publish.Resolution
import SchemaModules.Proofs.Publish.Trace
import SchemaModules.Proofs.Registry.Numbering
import SchemaModules.Proofs.Publish.Settling
import SchemaModules.Proofs.Publish.Delivery
import SchemaModules.Proofs.Publish.Retry
import SchemaModules.Proofs.Graph.Reachability
import SchemaModules.Proofs.Module.Dependencies
import SchemaModules.Proofs.Publish.Request
import SchemaModules.Proofs.Bucket.Provided
import SchemaModules.Proofs.Publish.Commits
import SchemaModules.Proofs.Module.Relevance
import SchemaModules.Proofs.Bucket.Agreement
import SchemaModules.Proofs.Graph.Cycle
import SchemaModules.Proofs.Module.Building
import SchemaModules.Proofs.Registry.Consistency
import SchemaModules.Proofs.Registry.Failure
import SchemaModules.Proofs.Boundary.FixedPoint
import SchemaModules.Proofs.Module.Selection
import SchemaModules.Proofs.Publish.Selection
import SchemaModules.Proofs.Publish.Committed
import SchemaModules.Proofs.Boundary.PathList
import SchemaModules.Proofs.Boundary.Assignment
import SchemaModules.Proofs.Boundary.Translation
import SchemaModules.Proofs.Bucket.FileMap
import SchemaModules.Proofs.Registry.Creation
import SchemaModules.Proofs.Registry.Separation
import SchemaModules.Proofs.Publish.Separation
import SchemaModules.Proofs.Module.Order
import SchemaModules.Proofs.Publish.Labels
import SchemaModules.Proofs.Graph.Additions
import SchemaModules.Proofs.Graph.Breadth
import SchemaModules.Proofs.Graph.Depth
import SchemaModules.Proofs.Identifier.FullName
import SchemaModules.Proofs.Registry.Reference
import SchemaModules.Proofs.Registry.Admin
import SchemaModules.Proofs.Module.Outside
import SchemaModules.Proofs.Path.Concatenation
import SchemaModules.Proofs.Path.Escape
import SchemaModules.Proofs.Path.Segments
import SchemaModules.Proofs.Path.Balance
import SchemaModules.Proofs.Path.Components
import SchemaModules.Proofs.Path.Order
import SchemaModules.Proofs.Path.Relative
import SchemaModules.Proofs.Boundary.Decision
import SchemaModules.Proofs.Path.Validity
import SchemaModules.Proofs.Module.Imports
import SchemaModules.Proofs.Module.ImportLine
import SchemaModules.Proofs.Module.Shown
import SchemaModules.Proofs.Module.Interchange
import SchemaModules.Proofs.Publish.Reconciliation
import SchemaModules.Proofs.Module.Naming
import SchemaModules.Proofs.Graph.Tables
import SchemaModules.Proofs.Identifier.Forms
import SchemaModules.Proofs.Memo
