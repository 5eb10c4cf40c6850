import SnapTree.Main
import SnapTree.Proofs.Exchange.RunSpec
import SnapTree.Proofs.Exchange.ScratchPool
import SnapTree.Proofs.Workspace.Publication
import SnapTree.Storage.Store
import SnapTree.Workspace.Edit
import SnapTree.Proofs.Exchange.Supply
import SnapTree.Proofs.Exchange.Trees
import SnapTree.Proofs.Exchange.Serving
import SnapTree.Proofs.Sync.Materialize
import SnapTree.Proofs.Data.Departing
import SnapTree.Proofs.Sync.Plan
import SnapTree.Proofs.Sync.Stages
import SnapTree.Proofs.Sync.Documents
import SnapTree.Proofs.Sync.Project
import SnapTree.Proofs.Sync.ProjectStages
import SnapTree.Proofs.Sync.Projects
import SnapTree.Proofs.Sync.Synchronize
import SnapTree.Proofs.Sync.Convergence
import SnapTree.Proofs.Sync.FromScratch
import SnapTree.Proofs.Storage.Frame
import SnapTree.Proofs.Storage.FileTree
import SnapTree.Proofs.Storage.Objects
import SnapTree.Proofs.Data.Attempts
import SnapTree.Proofs.Storage.Directory
import SnapTree.Proofs.Storage.Store
import SnapTree.Proofs.Sync.Rebuild
import SnapTree.Proofs.Workspace.Identification
import SnapTree.Proofs.Exchange.Integrity
import SnapTree.Proofs.Exchange.Nodes
import SnapTree.Proofs.Sync.Soundness
import SnapTree.Proofs.Exchange.Journal
import SnapTree.Proofs.Sync.Fetches
import SnapTree.Proofs.Exchange.Comparison
import SnapTree.Proofs.Sync.Comparison
import SnapTree.Proofs.Sync.Agreement
import SnapTree.Proofs.Exchange.Leads
import SnapTree.Proofs.Exchange.Interruption
import SnapTree.Proofs.Sync.Interruption
import SnapTree.Proofs.Exchange.RoundTrip
import SnapTree.Proofs.Binary.Canonical
import SnapTree.Proofs.Binary.Forms
import SnapTree.Proofs.Data.Ascending
import SnapTree.Proofs.Workspace.Places
import SnapTree.Proofs.Sync.Report
import SnapTree.Proofs.Sync.Balance
import SnapTree.Proofs.Compare.Contents
import SnapTree.Proofs.Compare.Snapshots
import SnapTree.Proofs.Compare.Published
import SnapTree.Proofs.Workspace.BackwardSearch
import SnapTree.Proofs.Workspace.Rearrangement
import SnapTree.Proofs.Exchange.RoundCount
import SnapTree.Proofs.Sync.RoundCount
import SnapTree.Proofs.Sync.ScratchCount
import SnapTree.Proofs.Sync.DocumentCount
import SnapTree.Proofs.Sync.ProjectCount
import SnapTree.Proofs.Sync.IncrementalCount
import SnapTree.Proofs.Merkle.Separation
import SnapTree.Proofs.Exchange.ScratchUse
import SnapTree.Proofs.Workspace.PublishedTree
import SnapTree.Proofs.Workspace.IndependentEdits
import SnapTree.Proofs.Workspace.Batches
import SnapTree.Proofs.Storage.Answers
import SnapTree.Proofs.Manifest.Versions
import SnapTree.Proofs.Manifest.RecordedPaths
import SnapTree.Proofs.Digest.TextForm
