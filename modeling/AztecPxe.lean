import AztecPxe.EventReorg
import AztecPxe.Json
import AztecPxe.NoteService
import AztecPxe.SpendReorg
import AztecPxe.NoteReorg
import AztecPxe.TaggingSync
import AztecPxe.NoteStoreReplay
import AztecPxe.Aggregation
import AztecPxe.NullifierCollection
import AztecPxe.CircuitOutputs
import AztecPxe.SimulatedKernel
import AztecPxe.RevertiblePhase
import AztecPxe.ExecutionPayload
import AztecPxe.Deployment
import AztecPxe.FeePayload
import AztecPxe.StaticCalls
import AztecPxe.NestedMerge
import AztecPxe.CounterPairs
import AztecPxe.TransientMatching
import AztecPxe.GetNotes
import AztecPxe.PendingNotes
import AztecPxe.PersistNotes
import AztecPxe.SpentNotes
import AztecPxe.PublicCalldata
import AztecPxe.KernelConservation
import AztecPxe.PhaseSquash
import AztecPxe.LogLinks
import AztecPxe.KernelCapacity
import AztecPxe.NoteIndex
import AztecPxe.RetriedInsertions
import AztecPxe.Sweep
import AztecPxe.RemovalSweep
import AztecPxe.ReorgRetry
import AztecPxe.AnchorTip
import AztecPxe.ConcurrentSync
import AztecPxe.ContractSync
import AztecPxe.PersistedRecords
import AztecPxe.Expiration
import AztecPxe.SenderTaggingStore
import AztecPxe.LiveExecution
import AztecPxe.Simulation
import AztecPxe.TagIndexes
import AztecPxe.TaggingReorg
import AztecPxe.TxConstants
import AztecPxe.AbiTypes
import AztecPxe.FunctionTree
import AztecPxe.ClassId
import AztecPxe.ContractRegistry
import AztecPxe.AbiCodec
import AztecPxe.AbiSizes
import AztecPxe.AbiRoundTrip
import AztecPxe.AccountEntrypoint
import AztecPxe.AbiFlatten
import AztecPxe.LucasTest
import AztecPxe.ShortCurve
import AztecPxe.FrField
import AztecPxe.Grumpkin
import AztecPxe.TaggingSecret
import AztecPxe.TagAtomicity
import AztecPxe.EventInclusion
import AztecPxe.EventFilter
import AztecPxe.EventLog
import AztecPxe.SentBytes
import AztecPxe.WalletRequests
import AztecPxe.PublishedAddress
import AztecPxe.ClassLogFields
import AztecPxe.KeyRequests
import AztecPxe.ScopeIsolation
import AztecPxe.ScopeLeaks
import AztecPxe.PrefixStore
import AztecPxe.KvStore
import AztecPxe.KvRegistries
import AztecPxe.KvTagging
import AztecPxe.KvNotes
import AztecPxe.StoreFrames
import AztecPxe.BoundedVecLength
import AztecPxe.ClassLogValidation
import AztecPxe.FeeWrapping
import AztecPxe.GasMetering
import AztecPxe.NoteSelection
import AztecPxe.CapsuleArrays
import AztecPxe.CapsuleCopy
import AztecPxe.EventMembers
import AztecPxe.CheckedDecoder
import AztecPxe.DecodeTotality
import AztecPxe.PendingNullifiers
import AztecPxe.Schnorr
import AztecPxe.StorageSlots
import AztecPxe.VkTree
import AztecPxe.SiblingPath
import AztecPxe.PackedBuffer
import AztecPxe.CanonicalJson
import AztecPxe.AuthWitnesses
import AztecPxe.AcvmExecutor
import AztecPxe.OracleExecution
import AztecPxe.LogRetrieval
import AztecPxe.UtilityExecution
import AztecPxe.ExecutionProver
import AztecPxe.Polling
import AztecPxe.NodeWaits
import AztecPxe.TransactionSubmission
import AztecPxe.NargoArtifact
import AztecPxe.L1Bridge
import AztecPxe.KernelRequest
