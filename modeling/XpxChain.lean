import XpxChain.Accounts.EffectiveBalance
import XpxChain.Accounts.Levy
import XpxChain.BlockStorage.Refinement
import XpxChain.Caches.HistoryCalls
import XpxChain.Caches.NamespaceStorage
import XpxChain.Caches.StateHash
import XpxChain.Caches.TransactionRollback
import XpxChain.ChainSync.Difficulty
import XpxChain.ChainSync.Preprocess
import XpxChain.Crypto.HashVector
import XpxChain.Dbrb.Agreement
import XpxChain.Dbrb.Delivery
import XpxChain.Dbrb.History
import XpxChain.Dbrb.NetworkRemoval
import XpxChain.Dbrb.ProcessPruning
import XpxChain.Dbrb.ShardedAdmission
import XpxChain.Dbrb.ShardedDelivery
import XpxChain.Dbrb.ShardedPartition
import XpxChain.Dbrb.SingleDelivery
import XpxChain.Dbrb.ViewCacheRuns
import XpxChain.Disruptor.Progress
import XpxChain.Exchange.Placement
import XpxChain.ExchangeSda.Soundness
import XpxChain.FastFinality.Completeness
import XpxChain.FastFinality.Schedule
import XpxChain.FastFinality.TimeSlices
import XpxChain.LiquidityProvider.Solvency
import XpxChain.Metadata.Rollback
import XpxChain.Multisig.Cosigners
import XpxChain.Multisig.Rollback
import XpxChain.Patricia.PatriciaTreeSerializer
import XpxChain.Storage.AVLTreeRefinement
import XpxChain.Storage.UploadPayments
import XpxChain.Storage.VerificationShards
import XpxChain.WeightedVoting.OrderIndependence
import XpxChain.WeightedVoting.Rotation
