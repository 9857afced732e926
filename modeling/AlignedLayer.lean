import AlignedLayer.Sdk.CommitmentBinding
import AlignedLayer.Batcher.Submission
import AlignedLayer.Batcher.UserState
import AlignedLayer.Batcher.Shared
import AlignedLayer.Batcher.NoSilentLoss
import AlignedLayer.Batcher.Restoration
import AlignedLayer.Batcher.SelfWaits
import AlignedLayer.Batcher.Deadlocks
import AlignedLayer.Batcher.BalanceCover
import AlignedLayer.Batcher.Chain
import AlignedLayer.Batcher.BatchState
import AlignedLayer.Contracts.BatchInclusion
import AlignedLayer.Contracts.Solvency
import AlignedLayer.Batcher.BlockOrder
import AlignedLayer.Batcher.DisabledVerifiers
import AlignedLayer.Batcher.UnlockedUsers
import AlignedLayer.AggregationMode.FetchOnce
import AlignedLayer.AggregationMode.Inclusion
import AlignedLayer.AggregationMode.RootAgreement
import AlignedLayer.Operator.CheckedBytes
import AlignedLayer.Batcher.BatchFinalization
import AlignedLayer.Batcher.FeeParams
import AlignedLayer.Contracts.WithdrawTimelock
import AlignedLayer.Aggregator.TaskMaps
import AlignedLayer.Operator.VerifiedBatches
import AlignedLayer.Contracts.AirdropClaims
import AlignedLayer.Batcher.ClientAgreement
import AlignedLayer.Batcher.FeeEstimates
import AlignedLayer.Batcher.NoncePrefix
import AlignedLayer.Contracts.TaskCharges
import AlignedLayer.Operator.BatchRoots
import AlignedLayer.AggregationMode.Blob
import AlignedLayer.Batcher.BatchBytes
import AlignedLayer.Batcher.RefusedReplacements
import AlignedLayer.Batcher.CheckedArithmetic
import AlignedLayer.Batcher.Counters
import AlignedLayer.Batcher.NonceCount
import AlignedLayer.Operator.BatchUrls
import AlignedLayer.AggregationMode.BlobCapacity
import AlignedLayer.AggregationMode.FetchProgress
import AlignedLayer.Contracts.ClaimBatch
import AlignedLayer.Aggregator.Collection
import AlignedLayer.Chainio.AvsWriter
import AlignedLayer.Chainio.AvsSubscriber
import AlignedLayer.Operator.Restarts
import AlignedLayer.Aggregator.Responses
import AlignedLayer.Batcher.Signatures
import AlignedLayer.Batcher.LateTransactions
import AlignedLayer.AggregationMode.Completeness
import AlignedLayer.Operator.IncludedProofs
import AlignedLayer.Batcher.Payments
import AlignedLayer.Operator.Availability
