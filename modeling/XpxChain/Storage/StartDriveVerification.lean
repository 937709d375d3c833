import XpxChain.Storage.AVLTree
import XpxChain.Library.OrderedContainers

/-! The observer that starts drive verifications in every block, and the cache entries that it reads. -/

namespace XpxChain.Storage

open Std Library OrderedContainers

structure ActiveDataModification where
  id : Hash256
  expectedUploadSizeMegabytes : ℕ
  actualUploadSizeMegabytes : ℕ
  readyForApproval : Bool := true

inductive DataModificationApprovalState
  | approved
  | cancelled
deriving DecidableEq, Repr

structure CompletedDataModification extends ActiveDataModification where
  approvalState : DataModificationApprovalState

structure ConfirmedStorageInfo where
  timeInConfirmedStorage : Timestamp := 0
  confirmedStorageSince : Option Timestamp := none
deriving DecidableEq, Repr

structure ModificationShardInfo where
  actualShardMembers : ExtTreeMap Key ℕ := ∅
  formerShardMembers : ExtTreeMap Key ℕ := ∅
  ownerUpload : ℕ := 0

structure Verification where
  verificationTrigger : Hash256
  expiration : Timestamp
  duration : ℕ
  shards : List (Finset Key)
deriving DecidableEq

def Verification.expired (verification : Verification) (timestamp : Timestamp) : Prop :=
  verification.expiration ≤ timestamp
deriving Decidable

inductive OwnerManagement
  | allowed
  | temporaryForbidden
  | permanentlyForbidden
deriving DecidableEq, Repr

structure BcDriveEntry where
  key : Key
  owner : Key := 0
  rootHash : Hash256 := 0
  lastModificationId : Hash256 := 0
  size : ℕ := 0
  usedSizeBytes : ℕ := 0
  metaFilesSizeBytes : ℕ := 0
  replicatorCount : UInt16 := 0
  activeDataModifications : List ActiveDataModification := []
  completedDataModifications : List CompletedDataModification := []
  confirmedUsedSizes : ExtTreeMap Key ℕ := ∅
  replicators : Finset Key := ∅
  formerReplicators : Finset Key := ∅
  offboardingReplicators : List Key := []
  verification : Option Verification := none
  confirmedStates : ExtTreeMap Key Hash256 := ∅
  confirmedStorageInfos : ExtTreeMap Key ConfirmedStorageInfo := ∅
  downloadShards : Finset Hash256 := ∅
  dataModificationShards : ExtTreeMap Key ModificationShardInfo := ∅
  queueNext : Key := 0
  queuePrevious : Key := 0
  lastPayment : Timestamp := 0
  verificationNode : AVLTreeNode := {}
  ownerManagement : OwnerManagement := .allowed

abbrev BcDriveCache := ExtTreeMap Key BcDriveEntry

/-- The random numbers of a node: the generator `std::mt19937`, seeded with 32 bytes, and the algorithms of the standard
library that draw from it. -/
structure RandomEngine (G : Type) where
  seed : Fin (2 ^ 256) → G
  next : G → ℕ × G
  shuffle : List Key → G → List Key × G
  sample : List Key → ℕ → G → List Key × G
  shuffle_perm : ∀ l g, (shuffle l g).1.Perm l
  sample_sublist : ∀ l n g, (sample l n g).1.Sublist l
  sample_length : ∀ l n g, (sample l n g).1.length = min n l.length

/-- The block and the configuration that the observer reads. The hash of the block's event and the timeout (a
floating-point function of the drive's gigabytes) are given as functions. -/
structure VerificationContext (G : Type) where
  rng : RandomEngine G
  enabled : Bool
  rollback : Bool
  height : Height
  timestamp : Timestamp
  lastBlockTimestamp : Timestamp
  generationHash : Hash256
  getVerificationEventHash : Timestamp → Hash256 → Hash256
  verificationInterval : ℕ
  minReplicatorCount : ℕ
  shardSize : ℕ
  timeoutMinutes : ℕ → ℕ

def kilobytesCeil (bytes : ℕ) : ℕ := (bytes + 1023) / 1024

def megabytesCeil (bytes : ℕ) : ℕ := (kilobytesCeil bytes + 1023) / 1024

def gigabytesCeil (bytes : ℕ) : ℕ := (megabytesCeil bytes + 1023) / 1024

def fillRound : List (Finset Key) → List Key → Option (List (Finset Key) × List Key)
  | [], keys => some ([], keys)
  | _ :: _, [] => none
  | shard :: shards, key :: keys => do
    let (shards, keys) ← fillRound shards keys
    return (insert key shard :: shards, keys)

def fillRounds : ℕ → List (Finset Key) → List Key → Option (List (Finset Key) × List Key)
  | 0, shards, keys => some (shards, keys)
  | n + 1, shards, keys => do
    let (shards, keys) ← fillRound shards keys
    fillRounds n shards keys

def fillRemainder : List (Finset Key) → List Key → Option (List (Finset Key))
  | shards, [] => some shards
  | [], _ :: _ => none
  | shard :: shards, key :: keys => do
    let shards ← fillRemainder shards keys
    return insert key shard :: shards

def fillShards (replicatorCount shardCount : ℕ) (replicators : List Key) : Option (List (Finset Key)) := do
  let (shards, keys) ← fillRounds (replicatorCount / shardCount) (List.replicate shardCount ∅) replicators
  fillRemainder shards keys

namespace VerificationContext

variable {G : Type} (context : VerificationContext G)

def eventHash : Hash256 := context.getVerificationEventHash context.timestamp context.generationHash

def verificationFactor : ℕ :=
  max (context.verificationInterval / max (sizeSub context.timestamp context.lastBlockTimestamp / 1000) 1) 1

def Due (driveEntry : BcDriveEntry) : Prop :=
  driveEntry.rootHash ≠ 0 ∧ (∀ verification ∈ driveEntry.verification, verification.expired context.timestamp) ∧
    context.minReplicatorCount ≤ driveEntry.replicators.card
deriving Decidable

def makeShards (replicators : List Key) (g : G) : Option (List (Finset Key) × G) :=
  let replicatorCount := replicators.length % 2 ^ 16
  let shardSize := context.shardSize / 2
  if replicatorCount < 2 * shardSize then some ([replicators.toFinset], g)
  else if shardSize = 0 then none
  else do
    let (replicators, g) := context.rng.shuffle replicators g
    let shards ← fillShards replicatorCount (replicatorCount / shardSize) replicators
    return (shards, g)

def expiration (gigabytes : ℕ) : Timestamp :=
  (context.timestamp + context.timeoutMinutes gigabytes * 60 * 1000) % 2 ^ 64

def startVerification (driveEntry : BcDriveEntry) (g : G) : Option (BcDriveEntry × G) := do
  let gigabytes := gigabytesCeil driveEntry.usedSizeBytes
  let keys := ascending driveEntry.replicators
  let infos := keys.foldl (fun infos key => infos.insertIfNew key {}) driveEntry.confirmedStorageInfos
  let replicators := keys.filter fun key => (infos[key]?.bind (·.confirmedStorageSince)).isSome
  let (shards, g) ← context.makeShards replicators g
  let verification := {
    verificationTrigger := context.eventHash
    expiration := context.expiration gigabytes
    duration := context.timeoutMinutes gigabytes * 60 * 1000 % 2 ^ 32
    shards }
  return ({ driveEntry with confirmedStorageInfos := infos, verification := some verification }, g)

def verificationsTree (root : Key) (driveCache : BcDriveCache) : StoredTree :=
  ⟨root, fun key => driveCache[key]?.map (·.verificationNode)⟩

/-- One turn of the loop up to the local check: the drive that a random number picks is skipped, or its verification
starts and its replicators are returned. -/
def turn (fuel : ℕ) (root : Key) (totalDrives : ℕ) (driveCache : BcDriveCache) (g : G) :
    Option (Option (Finset Key) × BcDriveCache × G) := do
  let (random, g) := context.rng.next g
  let driveKey ← (verificationsTree root driveCache).orderStatistics fuel (random % totalDrives)
  let driveEntry ← driveCache[driveKey]?
  if context.Due driveEntry then do
    let (driveEntry, g) ← context.startVerification driveEntry g
    some (some driveEntry.replicators, driveCache.insert driveKey driveEntry, g)
  else some (none, driveCache, g)

def verifyDrives (fuel : ℕ) (root : Key) (totalDrives : ℕ) (replicatorKey : Key) :
    ℕ → BcDriveCache → G → Option BcDriveCache
  | 0, driveCache, _ => some driveCache
  | drivesToVerify + 1, driveCache, g => do
    match ← context.turn fuel root totalDrives driveCache g with
    | (some driveReplicators, driveCache, g) =>
      if replicatorKey ∉ driveReplicators then some driveCache
      else verifyDrives fuel root totalDrives replicatorKey drivesToVerify driveCache g
    | (none, driveCache, g) => verifyDrives fuel root totalDrives replicatorKey drivesToVerify driveCache g

def drivesToVerify (totalDrives : ℕ) : ℕ × G :=
  let guaranteedVerifications := totalDrives / context.verificationFactor
  let (r, g) := context.rng.next (context.rng.seed context.eventHash)
  let additionalVerifications :=
    if r % context.verificationFactor < totalDrives % context.verificationFactor then 1 else 0
  (guaranteedVerifications + additionalVerifications, g)

/-- The drive cache after a block, on the node of the replicator with the given key. -/
def observe (fuel : ℕ) (root : Key) (replicatorKey : Key) (driveCache : BcDriveCache) : Option BcDriveCache :=
  if ¬ context.enabled ∨ context.height < 2 then some driveCache
  else if context.rollback then none
  else do
    let totalDrives ← (verificationsTree root driveCache).size
    if totalDrives = 0 then some driveCache
    else
      let (count, g) := context.drivesToVerify totalDrives
      context.verifyDrives fuel root totalDrives replicatorKey count driveCache g

end VerificationContext

end XpxChain.Storage
