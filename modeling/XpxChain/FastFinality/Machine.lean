import XpxChain.FastFinality.MachineState

/-! The fast finality state machine: its transition table, the actions that the states run on entry, and the
handlers that change its data from other threads. -/

namespace XpxChain.FastFinality

open Library Exceptions WeightedVoting

namespace Machine

variable (env : Environment) (m : Machine)

def raise (event : Event) : Machine := { m with pending := .posted event }

def delay (event : Event) : Machine := { m with pending := .delayed (.raise event) }

def checkLocalChain : Machine :=
  let localHeight := env.chain.lastBlock.height
  if env.isMaxChainHeight localHeight then m.raise .hold
  else
    let data := { m.data.reset with isBlockBroadcastEnabled := false }
    let m := { m with nodeWorkState := .synchronizing, chainSyncData := {}, data }
    match sortNodeStates env.remoteNodeStates with
    | [] =>
      let count := m.data.failedNodeStateRetrievalCount + 1
      let failedNodeStateRetrievalCount := if maxFailedNodeStateRetrievalAttempt ≤ count then 0 else count
      { m with data := { m.data with failedNodeStateRetrievalCount } }.delay .networkHeightDetectionFailure
    | first :: states =>
      let networkHeight := first.height
      let chainSyncData : ChainSyncData := { networkHeight, localHeight }
      let m := { m with chainSyncData }
      if networkHeight < localHeight then m.delay .networkHeightLessThanLocal
      else if localHeight < networkHeight then
        let highest := (first :: states).takeWhile fun state => ¬ state.height < networkHeight
        { m with chainSyncData := { chainSyncData with nodeIdentityKeys := highest.map RemoteNodeState.nodeKey } }.raise
          .networkHeightGreaterThanLocal
      else if ¬ env.isDbrbProcess then m.delay .startLocalChainCheck
      else if ¬ env.approvalRatingSufficient env.localBlockHash (first :: states) then
        m.delay .networkHeightDetectionFailure
      else if env.isInDbrbSystem then m.raise .networkHeightEqualToLocal
      else m.delay env.notInDbrbSystem

def downloadBlocks : Except Fault Machine := do
  let (manager, result) ← env.requestBlocks m.chainSyncData.nodeIdentityKeys m.manager
  let m := { m with manager }
  match result with
  | .held => .ok (m.raise .hold)
  | .succeeded => .ok (m.raise .downloadBlocksSucceeded)
  | .failed => .ok (m.delay .downloadBlocksFailed)

def detectRound : Except Fault Machine := do
  let node ← env.chain.detectRound env.clock m.toNode
  let m := { m with toNode := node, chainSyncData := {}, nodeWorkState := .running }
  .ok (m.delay .roundDetectionCompleted)

def checkConnections : Machine :=
  let maxUnreachableNodeCount := Dbrb.maxInvalidProcesses env.view.card
  if maxUnreachableNodeCount < env.unreachableNodeCount (env.view.erase env.id) then
    m.delay .connectionNumberInsufficient
  else m.raise .connectionNumberSufficient

def startRound : Except Fault Machine :=
  let m := { m with data := { m.data with unexpectedBlockHeight := false } }
  if ¬ env.isInDbrbSystem then .ok (m.delay env.notInDbrbSystem)
  else
    let m := { m with data := { m.data with isBlockBroadcastEnabled := true } }
    if m.manager.committee.round ≠ m.data.round.round then
      .error (.invalidRound m.manager.committee.round m.data.round.round)
    else .ok (m.raise .roundStarted)

def selectBlockProducer : Except Fault Machine :=
  let round := m.data.round
  match m.manager.committee.blockProposers[round.timeSliceIndex]?, env.clock with
  | none, _ => .error .blockProposersOutOfRange
  | some _, [] => .error .clockExhausted
  | some producer, now :: _ =>
    let isBlockProducer := producer ∈ env.unlockedAccounts
    let blockProducer := if isBlockProducer then some producer else none
    let m := { m with data := { m.data with blockProducer } }
    let skipBlockProducing := round.timeSliceMillis / 2 < sizeSub now round.timeSliceStart
    .ok (m.raise (if isBlockProducer ∧ ¬ skipBlockProducing then .generateBlock else .waitForBlock))

def generateBlock : Machine :=
  let m := { m with data := { m.data with block := none } }
  if ¬ env.enableDbrbFastFinality then m.raise .blockGenerationFailed
  else if m.data.blockProducer = none then m.raise .blockGenerationFailed
  else if ¬ env.calculatesDifficulty then m.raise .blockGenerationFailed
  else if env.generatesBlock then m.raise .blockGenerationSucceeded
  else m.raise .blockGenerationFailed

def waitForBlock : Machine :=
  if m.data.block.isSome then m.raise .blockReceived else { m with pending := .waiting }

def stopWaitForBlock : Machine :=
  let round := m.data.round
  if env.signalsBlock ∧ m.data.block.isSome then m.raise .blockReceived
  else if m.data.unexpectedBlockHeight then m.raise .unexpectedBlockHeight
  else if round.timeSliceIndex + 1 = round.timeSliceCount then { m with pending := .delayed .blockNotReceived }
  else
    let round := { round with
      timeSliceIndex := round.timeSliceIndex + 1
      timeSliceStart := round.timeSliceStart + round.timeSliceMillis }
    { m with data := { m.data with round, proposedBlockHash := 0 } }.raise .selectNextBlockProducer

def commitBlock : Except Fault Machine :=
  match m.data.block with
  | none => .error .nullBlock
  | some block =>
    if block.round ≠ m.manager.committee.round then .ok (m.raise .unexpectedBlock)
    else
      match m.manager.committee.blockProposers[m.data.round.timeSliceIndex]? with
      | none => .error .blockProposersOutOfRange
      | some proposer =>
        if block.signer ≠ proposer ∨ block.height ≠ m.data.currentBlockHeight then .ok (m.raise .unexpectedBlock)
        else .ok { m with pending := .delayed (.commitBlock env.commitsBlock) }

def runEntryAction : Except Fault Machine :=
  match m.state with
  | .localChainCheck => .ok (m.checkLocalChain env)
  | .blocksDownloading => m.downloadBlocks env
  | .roundDetection => m.detectRound env
  | .connectionChecking => .ok (m.checkConnections env)
  | .roundStart => m.startRound env
  | .blockProducerSelection => m.selectBlockProducer env
  | .blockGeneration => .ok (m.generateBlock env)
  | .blockWaiting => .ok m.waitForBlock
  | .commit => m.commitBlock env
  | .initialState | .onHold => .ok { m with pending := .idle }

def runCallback : Callback → Except Fault Machine
  | .raise event => .ok (m.raise event)
  | .blockNotReceived =>
    if m.data.proposedBlockHash ≠ 0 then .ok (m.raise (.blockNotReceived true))
    else if env.checkNetworkHeightInterval = 0 then .error .divisionByZero
    else .ok (m.raise (.blockNotReceived (m.data.round.round.tmod env.checkNetworkHeightInterval = 0)))
  | .commitBlock success =>
    if ¬ success then .ok (m.raise .commitBlockFailed)
    else if env.maxChainHeight = 0 then .ok (m.raise .commitBlockSucceeded)
    else
      match m.data.block with
      | none => .error .nullBlock
      | some block =>
        .ok (m.raise (if env.isMaxChainHeight block.height then .hold else .commitBlockSucceeded))

def runRoundAction : Option RoundAction → Except Fault Node
  | none => .ok m.toNode
  | some .incrementRound => env.chain.incrementRound m.toNode
  | some .resetRound => env.chain.resetRound m.toNode

def processEvent (event : Event) : Except Fault Machine :=
  match transition m.state event with
  | none => .ok { m with pending := .idle, stopWaiting := m.stopWaiting && !event.isUnexpected }
  | some (state, action) => do
    let node ← m.runRoundAction env action
    .ok { m with toNode := node, state, pending := .entry }

def advance : Except Fault Machine :=
  match m.pending with
  | .idle => .ok m
  | .entry => m.runEntryAction env
  | .waiting => .ok (m.stopWaitForBlock env)
  | .delayed callback => m.runCallback env callback
  | .posted event => m.processEvent env event

def pushBlock (block : Block) : Machine := { m with data := { m.data with block := some block } }

/-- `ValidateBlock`, where `accepted` is the verdict of the block consumers. -/
def validateBlock (payloadHash : Hash256) (block : Block) (accepted : Bool) : Machine :=
  let committee := m.manager.committee
  if m.data.proposedBlockHash ≠ 0 then m
  else if m.data.currentBlockHeight ≠ block.height then { m with data := { m.data with unexpectedBlockHeight := true } }
  else if 0 ≤ committee.round ∧ block.round = committee.round ∧ committee.validateBlockProposer block.signer ∧
      accepted then
    { m with data := { m.data with proposedBlockHash := payloadHash } }
  else m

def shutdown : Machine := { m with stopped := true, data := m.data.reset }

end Machine

inductive Input
  | run (env : Environment)
  | pushBlock (block : Block)
  | validateBlock (payloadHash : Hash256) (block : Block) (accepted : Bool)
  | shutdown

namespace Machine

def step (m : Machine) (input : Input) : Machine :=
  if m.stopped || m.fault.isSome then m
  else
    match input with
    | .run env =>
      match m.advance env with
      | .ok m => m
      | .error fault => { m with fault := some fault }
    | .pushBlock block => m.pushBlock block
    | .validateBlock payloadHash block accepted => m.validateBlock payloadHash block accepted
    | .shutdown => m.shutdown

def init (manager : WeightedVotingCommitteeManagerV3) : Machine where
  manager
  pending := .delayed (.raise .startLocalChainCheck)

theorem step_induction {P : Machine → Prop} {m : Machine} {input : Input} (hm : P m)
    (hrun : ∀ env m', m.stopped = false → input = .run env → m.advance env = .ok m' → P m')
    (hf : ∀ fault, P { m with fault := some fault })
    (hp : ∀ block, P (m.pushBlock block))
    (hv : ∀ payloadHash block accepted, P (m.validateBlock payloadHash block accepted))
    (hsh : P m.shutdown) : P (m.step input) := by
  unfold step
  split
  next => exact hm
  next hl =>
    cases input with
    | run env =>
      cases hadv : m.advance env with
      | error fault => simpa only [hadv] using hf fault
      | ok m' =>
        have hst : m.stopped = false := by
          cases hs : m.stopped with
          | false => rfl
          | true => simp [hs] at hl
        simpa only [hadv] using hrun env m' hst rfl hadv
    | pushBlock block => exact hp block
    | validateBlock payloadHash block accepted => exact hv payloadHash block accepted
    | shutdown => exact hsh

lemma validateBlock_eq (m : Machine) (payloadHash : Hash256) (block : Block) (accepted : Bool) :
    ∃ proposedBlockHash unexpectedBlockHeight, m.validateBlock payloadHash block accepted =
      { m with data := { m.data with proposedBlockHash, unexpectedBlockHeight } } := by
  simp only [validateBlock]
  split_ifs
  · exact ⟨_, _, rfl⟩
  · exact ⟨_, _, rfl⟩
  · exact ⟨_, _, rfl⟩
  · exact ⟨_, _, rfl⟩

end Machine

def Environment.synchronized (clock : List Timestamp) : Environment where
  chain := .level
  clock
  maxChainHeight := 0
  localBlockHash := 1
  id := 1
  isDbrbProcess := true
  isInDbrbSystem := true
  banned := false
  registeredProcesses := {1, 2, 3, 4}
  bootstrapProcesses := ∅
  unreachableNodeCount := fun _ => 0
  remoteNodeStates := [⟨7, 1, .running, 2, []⟩]
  approvalRatingSufficient := fun hash states => states.all fun state => state.blockHash = hash
  pullBlocks := fun _ => none
  unlockedAccounts := []
  enableDbrbFastFinality := true
  calculatesDifficulty := true
  generatesBlock := false
  signalsBlock := false
  commitsBlock := false
  checkNetworkHeightInterval := 3

end XpxChain.FastFinality
