import EntityStore.Connector
import EntityStore.Document.Calls
import EntityStore.Document.Errors
import EntityStore.Document.Mappings
import EntityStore.Document.Queries
import EntityStore.Main
import EntityStore.Proofs.Replays
import EntityStore.Proofs.KnownIds
import EntityStore.Samples
import EntityStore.TestStore
import EntityStore.Workbench
import EntityStore.Proofs.Actions
import EntityStore.Proofs.Brackets
import EntityStore.Proofs.Columns
import EntityStore.Proofs.FaithfulTables
import EntityStore.Proofs.Insertions
import EntityStore.Proofs.Journals
import EntityStore.Proofs.Orderly
import EntityStore.Proofs.Pending
import EntityStore.Proofs.Runs
import EntityStore.Proofs.SavedGraphs
import EntityStore.Proofs.Transactions
import EntityStore.Proofs.Failures
import EntityStore.Proofs.Circles
import EntityStore.Proofs.UnrefusedWork
import EntityStore.Proofs.ReferenceCircles
import EntityStore.Proofs.InstanceSnapshots
import EntityStore.Proofs.KeptSnapshots
import EntityStore.Proofs.Snapshots
import EntityStore.Proofs.PuttingBack
import EntityStore.Proofs.SavedValues
import EntityStore.Proofs.KnownRows
import EntityStore.Proofs.Coherence
import EntityStore.Proofs.Accounts
import EntityStore.Proofs.Confinement
import EntityStore.Proofs.Bracketing
import EntityStore.Proofs.Forgetting
import EntityStore.Proofs.Acceptance
import EntityStore.Proofs.Binding
import EntityStore.Proofs.ReadingBack
import EntityStore.Proofs.OwnWrites
import EntityStore.Proofs.Refusals
import EntityStore.Proofs.SlowReaders
import EntityStore.Proofs.Recorded
import EntityStore.Proofs.Members
import EntityStore.Proofs.Registries
import EntityStore.Proofs.MinimalUpdates
import EntityStore.Proofs.PutOffReferences
import EntityStore.Proofs.SharedKeys
import EntityStore.Proofs.CacheHistories
import EntityStore.Proofs.Roundtrips
import EntityStore.Proofs.Renderings
import EntityStore.Proofs.TokenCuts
import EntityStore.Proofs.Placeholders
import EntityStore.Proofs.Hydration
import EntityStore.Proofs.Pages
import EntityStore.Proofs.WholeTypes
import EntityStore.Proofs.QueryShapes
import EntityStore.Proofs.SaveShapes
import EntityStore.Proofs.SentTexts
import EntityStore.Proofs.TextsWithoutValues
import EntityStore.Proofs.Specifications
import EntityStore.Proofs.AgreeingStatements
import EntityStore.Proofs.SynchronisedTables
import EntityStore.Proofs.SequenceNames
import EntityStore.Proofs.IdleQueues
import EntityStore.Proofs.RebuiltMappings
import EntityStore.Proofs.PrintedStatements
import EntityStore.Proofs.SynchronisedFiles
import EntityStore.Proofs.ListedHolders
