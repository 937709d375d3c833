import XpxChain.Dbrb.View
import XpxChain.FastFinality.Round

/-! The states and events of the fast finality state machine, and what its actions read. -/

namespace XpxChain.FastFinality

open Library Exceptions WeightedVoting

inductive State
  | initialState
  | localChainCheck
  | blocksDownloading
  | roundDetection
  | connectionChecking
  | roundStart
  | blockProducerSelection
  | blockGeneration
  | blockWaiting
  | commit
  | onHold
  deriving DecidableEq

inductive Event
  | startLocalChainCheck
  | networkHeightDetectionFailure
  | networkHeightLessThanLocal
  | networkHeightGreaterThanLocal
  | networkHeightEqualToLocal
  | downloadBlocksFailed
  | downloadBlocksSucceeded
  | roundDetectionCompleted
  | connectionNumberSufficient
  | connectionNumberInsufficient
  | roundStarted
  | generateBlock
  | waitForBlock
  | notRegisteredInDbrbSystem
  | dbrbProcessBanned
  | unexpectedBlockHeight
  | blockGenerationFailed
  | blockGenerationSucceeded
  | selectNextBlockProducer
  | blockNotReceived (syncWithNetwork : Bool)
  | blockReceived
  | unexpectedBlock
  | commitBlockFailed
  | commitBlockSucceeded
  | stop
  | hold
  deriving DecidableEq

inductive RoundAction
  | incrementRound
  | resetRound

/-- `FastFinalityTransitionTable`, without the region of `StopWaiting`. -/
def transition : State → Event → Option (State × Option RoundAction)
  | .initialState, .startLocalChainCheck => some (.localChainCheck, none)
  | .localChainCheck, .networkHeightDetectionFailure => some (.localChainCheck, none)
  | .localChainCheck, .networkHeightLessThanLocal => some (.localChainCheck, none)
  | .localChainCheck, .networkHeightGreaterThanLocal => some (.blocksDownloading, none)
  | .localChainCheck, .networkHeightEqualToLocal => some (.roundDetection, none)
  | .localChainCheck, .notRegisteredInDbrbSystem => some (.localChainCheck, none)
  | .localChainCheck, .dbrbProcessBanned => some (.localChainCheck, none)
  | .localChainCheck, .startLocalChainCheck => some (.localChainCheck, none)
  | .localChainCheck, .hold => some (.onHold, none)
  | .blocksDownloading, .downloadBlocksFailed => some (.localChainCheck, none)
  | .blocksDownloading, .downloadBlocksSucceeded => some (.localChainCheck, none)
  | .blocksDownloading, .hold => some (.onHold, none)
  | .roundDetection, .roundDetectionCompleted => some (.connectionChecking, none)
  | .connectionChecking, .connectionNumberSufficient => some (.roundStart, none)
  | .connectionChecking, .connectionNumberInsufficient => some (.localChainCheck, none)
  | .roundStart, .roundStarted => some (.blockProducerSelection, none)
  | .blockProducerSelection, .generateBlock => some (.blockGeneration, none)
  | .blockProducerSelection, .waitForBlock => some (.blockWaiting, none)
  | .blockProducerSelection, .notRegisteredInDbrbSystem => some (.localChainCheck, none)
  | .blockProducerSelection, .dbrbProcessBanned => some (.localChainCheck, none)
  | .blockGeneration, .blockGenerationFailed => some (.blockWaiting, none)
  | .blockGeneration, .blockGenerationSucceeded => some (.blockWaiting, none)
  | .blockWaiting, .unexpectedBlockHeight => some (.localChainCheck, none)
  | .blockWaiting, .selectNextBlockProducer => some (.blockProducerSelection, none)
  | .blockWaiting, .blockNotReceived true => some (.localChainCheck, none)
  | .blockWaiting, .blockNotReceived false => some (.connectionChecking, some .incrementRound)
  | .blockWaiting, .blockReceived => some (.commit, none)
  | .commit, .unexpectedBlock => some (.localChainCheck, none)
  | .commit, .commitBlockFailed => some (.connectionChecking, some .incrementRound)
  | .commit, .commitBlockSucceeded => some (.connectionChecking, some .resetRound)
  | .commit, .hold => some (.onHold, none)
  | _, _ => none

/-- The row of `StopWaiting` is taken for an event that no row of the table names. An event that the table
names, but not for the current state, is dropped. -/
def Event.isUnexpected (event : Event) : Bool := event = .stop

inductive Callback
  | raise (event : Event)
  | blockNotReceived
  | commitBlock (success : Bool)
  deriving DecidableEq

inductive Pending
  | idle
  | entry
  | waiting
  | delayed (callback : Callback)
  | posted (event : Event)
  deriving DecidableEq

inductive NodeWorkState
  | none
  | synchronizing
  | running

structure RemoteNodeState where
  height : Height
  blockHash : Hash256
  nodeWorkState : NodeWorkState
  nodeKey : Key
  harvesterKeys : List Key

structure ChainSyncData where
  networkHeight : Height := 0
  localHeight : Height := 0
  nodeIdentityKeys : List Key := []

/-- A block of a response, the chain to which it is applied, whether its cosignatures are valid (for versions
that have them) and whether it is committed. -/
structure DownloadedBlock where
  block : Block
  chain : Chain
  cosigned : Bool
  committed : Bool

structure Environment where
  chain : Chain
  clock : List Timestamp
  maxChainHeight : Height
  localBlockHash : Hash256
  id : Key
  isDbrbProcess : Bool
  isInDbrbSystem : Bool
  banned : Bool
  registeredProcesses : Finset Key
  bootstrapProcesses : Finset Key
  unreachableNodeCount : Finset Key → ℕ
  remoteNodeStates : List RemoteNodeState
  -- the ratings are computed with `double` values
  approvalRatingSufficient : Hash256 → List RemoteNodeState → Bool
  pullBlocks : Key → Option (List DownloadedBlock)
  unlockedAccounts : List Key
  enableDbrbFastFinality : Bool
  calculatesDifficulty : Bool
  generatesBlock : Bool
  -- the promise of a block is made after the check for a block, so a block can go unnoticed
  signalsBlock : Bool
  commitsBlock : Bool
  checkNetworkHeightInterval : ℕ

structure Machine extends Node where
  state : State := .initialState
  stopWaiting : Bool := true
  pending : Pending
  chainSyncData : ChainSyncData := {}
  nodeWorkState : NodeWorkState := .none
  stopped : Bool := false
  fault : Option Fault := none

namespace DownloadedBlock

variable (downloaded : DownloadedBlock)

def selectCommittees : ℕ → WeightedVotingCommitteeManagerV3 → Except Fault WeightedVotingCommitteeManagerV3
  | 0, manager => .ok manager
  | count + 1, manager => do
    let manager ← downloaded.chain.selectCommittee downloaded.block.height manager
    selectCommittees count manager

def selectCommittee (manager : WeightedVotingCommitteeManagerV3) : Except Fault WeightedVotingCommitteeManagerV3 :=
  let version := downloaded.block.entityVersion
  if version = 6 ∨ version = 7 then
    -- after a reset the round is -1
    downloaded.selectCommittees (downloaded.block.round + 1).toNat (manager.reset downloaded.chain.accounts)
  else if version = 4 ∨ version = 5 then .ok manager
  else .error (.committeeManagerNotSet version)

def validateBlockCosignatures (manager : WeightedVotingCommitteeManagerV3) : Bool :=
  if 6 ≤ downloaded.block.entityVersion then manager.committee.validateBlockProposer downloaded.block.signer
  else downloaded.cosigned

end DownloadedBlock

inductive DownloadResult
  | held
  | failed
  | succeeded

namespace Environment

variable (env : Environment)

def isMaxChainHeight (height : Height) : Bool := 0 < env.maxChainHeight ∧ env.maxChainHeight ≤ height

def applyBlocks : List DownloadedBlock → Bool → WeightedVotingCommitteeManagerV3 →
    Except Fault (WeightedVotingCommitteeManagerV3 × DownloadResult)
  | [], success, manager => .ok (manager, if success then .succeeded else .failed)
  | downloaded :: blocks, _, manager => do
    let manager ← downloaded.selectCommittee manager
    if downloaded.validateBlockCosignatures manager ∧ downloaded.committed then
      if env.isMaxChainHeight downloaded.block.height then .ok (manager, .held)
      else applyBlocks blocks true manager
    else .ok (manager, .failed)

def requestBlocks : List Key → WeightedVotingCommitteeManagerV3 →
    Except Fault (WeightedVotingCommitteeManagerV3 × DownloadResult)
  | [], manager => .ok (manager, .failed)
  | identityKey :: keys, manager =>
    match env.pullBlocks identityKey with
    | none => requestBlocks keys manager
    | some blocks => do
      let (manager, result) ← env.applyBlocks blocks false manager
      match result with
      | .failed => requestBlocks keys manager
      | result => .ok (manager, result)

def view : Finset Key := env.registeredProcesses ∪ env.bootstrapProcesses

def notInDbrbSystem : Event := if env.banned then .dbrbProcessBanned else .notRegisteredInDbrbSystem

end Environment

def maxFailedNodeStateRetrievalAttempt : ℕ := 100

def sortNodeStates : List RemoteNodeState → List RemoteNodeState :=
  List.insertionSort fun a b => toLex (b.height, b.blockHash) ≤ toLex (a.height, a.blockHash)

end XpxChain.FastFinality
