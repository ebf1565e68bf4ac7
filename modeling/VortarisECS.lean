import VortarisECS.Core.Alike
import VortarisECS.Core.AlikeSteps
import VortarisECS.Core.Allocator
import VortarisECS.Core.Archetype
import VortarisECS.Core.ArchetypeStore
import VortarisECS.Core.ChangeLog
import VortarisECS.Core.ChangeView
import VortarisECS.Core.Column
import VortarisECS.Core.ComponentRegistration
import VortarisECS.Core.Contents
import VortarisECS.Core.Control
import VortarisECS.Core.DeferredExecution
import VortarisECS.Core.DeferredMoves
import VortarisECS.Core.Directory
import VortarisECS.Core.EnabledFlags
import VortarisECS.Core.Entity
import VortarisECS.Core.EntityCommands
import VortarisECS.Core.EventCopies
import VortarisECS.Core.FiniteMap
import VortarisECS.Core.Flush
import VortarisECS.Core.FlushEquivalence
import VortarisECS.Core.Handles
import VortarisECS.Core.Iteration
import VortarisECS.Core.IterationSafety
import VortarisECS.Core.NetEvents
import VortarisECS.Core.Observer
import VortarisECS.Core.ObserverDispatch
import VortarisECS.Core.Query
import VortarisECS.Core.Registration
import VortarisECS.Core.Reports
import VortarisECS.Core.Representation
import VortarisECS.Core.RowOrder
import VortarisECS.Core.Runs
import VortarisECS.Core.Scheduler
import VortarisECS.Core.SchedulerPass
import VortarisECS.Core.Schema
import VortarisECS.Core.SlotSteps
import VortarisECS.Core.SoundWorld
import VortarisECS.Core.Stable
import VortarisECS.Core.StoreRows
import VortarisECS.Core.StoreSteps
import VortarisECS.Core.StructuralOps
import VortarisECS.Core.SystemOrder
import VortarisECS.Core.TypedWalks
import VortarisECS.Core.World
import VortarisECS.Core.WorldCells
import VortarisECS.Core.WorldModes
import VortarisECS.Core.WorldRealizes
import VortarisECS.Core.WorldSteps
import VortarisECS.Core.WriteVersions
import VortarisECS.Gdscript.AutoParenting
import VortarisECS.Gdscript.ChangeLogRuns
import VortarisECS.Gdscript.ComponentLayout
import VortarisECS.Gdscript.CreateWithComponents
import VortarisECS.Gdscript.DataRoundTrip
import VortarisECS.Gdscript.EnabledRuns
import VortarisECS.Gdscript.EntityHandle
import VortarisECS.Gdscript.FieldAccess
import VortarisECS.Gdscript.FieldChanges
import VortarisECS.Gdscript.JsonRollback
import VortarisECS.Gdscript.JsonSnapshot
import VortarisECS.Gdscript.MergeWorld
import VortarisECS.Gdscript.QueryAnswers
import VortarisECS.Gdscript.QueryBuilder
import VortarisECS.Gdscript.QueryRuns
import VortarisECS.Gdscript.RegisterComponent
import VortarisECS.Gdscript.SavedData
import VortarisECS.Gdscript.SimpleCsv
import VortarisECS.Gdscript.SpawnFromData
import VortarisECS.Gdscript.Subscriptions
import VortarisECS.Library.Association
import VortarisECS.Library.Bytes
import VortarisECS.Library.CycleOrder
import VortarisECS.Library.MergeJoin
import VortarisECS.Library.Notices
import VortarisECS.Library.Pairing
import VortarisECS.Library.Parser
import VortarisECS.Library.Patches
import VortarisECS.Library.Rearming
import VortarisECS.Library.Roster
import VortarisECS.Library.Slots
import VortarisECS.Library.SwapRemove
import VortarisECS.Library.TickLog
import VortarisECS.Library.TopologicalOrder
import VortarisECS.Library.Traced
import VortarisECS.Library.Transcript
import VortarisECS.Network.Agreement
import VortarisECS.Network.Authority
import VortarisECS.Network.Client
import VortarisECS.Network.Convergence
import VortarisECS.Network.Delta
import VortarisECS.Network.DeltaEncoding
import VortarisECS.Network.DeltaInstall
import VortarisECS.Network.DiscardScratch
import VortarisECS.Network.EntityRange
import VortarisECS.Network.EntitySets
import VortarisECS.Network.FieldAgreement
import VortarisECS.Network.FieldPartition
import VortarisECS.Network.FieldValues
import VortarisECS.Network.FullState
import VortarisECS.Network.FullStateInstall
import VortarisECS.Network.FullStateTransfer
import VortarisECS.Network.Link
import VortarisECS.Network.LiveIds
import VortarisECS.Network.LoadTransfer
import VortarisECS.Network.Observability
import VortarisECS.Network.Packet
import VortarisECS.Network.PrivateFields
import VortarisECS.Network.RateLimit
import VortarisECS.Network.ReadBack
import VortarisECS.Network.Receive
import VortarisECS.Network.Reconcile
import VortarisECS.Network.Replication
import VortarisECS.Network.Retransmission
import VortarisECS.Network.SavedSessions
import VortarisECS.Network.Server
import VortarisECS.Network.ServerLoad
import VortarisECS.Network.Session
import VortarisECS.Network.SessionFlush
import VortarisECS.Network.SyncPlan
import VortarisECS.Network.TickTransfer
import VortarisECS.Network.Tracking
import VortarisECS.Network.Validation
import VortarisECS.Network.WholePackets
import VortarisECS.Reflect.ComponentRoundTrip
import VortarisECS.Reflect.FieldItems
import VortarisECS.Reflect.FieldRoundTrip
import VortarisECS.Reflect.JsonText
import VortarisECS.Reflect.Truncation
import VortarisECS.Reflect.TypeTraits
import VortarisECS.Reflect.Variant
import VortarisECS.Serialization.BinaryBuffer
import VortarisECS.Serialization.Builds
import VortarisECS.Serialization.ComponentSerializer
import VortarisECS.Serialization.EntityRecord
import VortarisECS.Serialization.FieldMask
import VortarisECS.Serialization.Install
import VortarisECS.Serialization.Layout
import VortarisECS.Serialization.RecordEncoding
import VortarisECS.Serialization.Reencode
import VortarisECS.Serialization.Resave
import VortarisECS.Serialization.RoundTrip
import VortarisECS.Serialization.SavedWorld
import VortarisECS.Serialization.Snapshot
import VortarisECS.Serialization.Walk
import VortarisECS.Serialization.WireSizes
