import XpxChain.WeightedVoting.Activity

/-! The committee managers. The accounts are kept in a hash table, so each selection is given the order in which
it iterates them. -/

namespace XpxChain.WeightedVoting

open Library OrderedContainers SortedTables

structure Committee where
  cosigners : Finset Key := ∅
  blockProposer : Key := 0
  blockProposers : List Key := []
  round : ℤ := -1
  roundStart : Timestamp := 0

def Committee.validateBlockProposer (committee : Committee) (key : Key) : Bool :=
  if committee.blockProposers.length < 2 then key = committee.blockProposer else key ∈ committee.blockProposers

inductive CommitteeError
  | accountNotFound (key : Key)
  | activityOverflow (key : Key)
  | blockProposerNotFound (key : Key)
  | committeeEmpty (round : ℤ)
  | committeeNotFull (size committeeSize : ℕ)
  | emptyBlockProposerCandidates
  | noBlockProposerCandidates (round : ℤ)

/-- The hashes of `Hasher`, the first eight bytes of a hash, and the computations on `double` values: the
weight of an activity, the rate of an account and the rate of its greed. -/
structure Rating where
  hashOfKey : GenerationHash → Key → Hash256
  hashOfHash : Hash256 → Hash256
  hashOfRate : ℤ → Key → Hash256
  hit : Hash256 → ℕ
  weight : CommitteeConfiguration → ℤ → ℤ
  rate : (effectiveBalance hit : ℕ) → (weight : ℤ) → (heightDelta : ℕ) → ℤ
  greed : CommitteeConfiguration → (feeInterest feeInterestDenominator hit : ℕ) → ℤ

structure WeightedVotingCommitteeManagerV2 where
  hashes : Std.ExtTreeMap Key Hash256 := ∅
  accounts : AccountMap
  timestamp : Timestamp := 0
  phaseTime : ℕ := 0
  committee : Committee := {}

def IsIterationOrder (order : List Key) (accounts : AccountMap) : Prop :=
  order.Nodup ∧ ∀ key, key ∈ order ↔ key ∈ accounts

structure Selection where
  rating : Rating
  networkConfig : NetworkConfiguration
  config : CommitteeConfiguration
  blockchainVersion : BlockchainVersion
  lastBlock : BlockElement

/-- A rate with the hash that orders equal rates. `RateLess` is the order of rates, `RateGreater` its dual. -/
abbrev Rate := ℤ ×ₗ Hash256

namespace Selection

variable (c : Selection)

def rateOf (value : ℤ) (key : Key) : Rate := toLex (value, c.rating.hashOfRate value key)

def calculateWeight (data : AccountData) : ℤ :=
  if c.config.enableEqualWeights then c.config.weightScaleFactor
  else
    let weight := c.rating.weight c.config data.activity
    if weight = 0 then 1 else weight

def isEligible (timestamp : Timestamp) (key : Key) (data : AccountData) : Bool :=
  let notBootstrapHarvester := key ∉ c.networkConfig.bootstrapHarvesters
  let notEmergencyHarvester := key ∉ c.networkConfig.emergencyHarvesters
  let expired := c.networkConfig.enableHarvesterExpiration ∧ data.expirationTime ≤ timestamp
  if ¬ data.canHarvest then false
  else if c.config.enableBlockchainVersionValidation ∧ data.blockchainVersion < c.blockchainVersion ∧
      notBootstrapHarvester ∧ notEmergencyHarvester then false
  else if 0 < data.banPeriod ∧ notBootstrapHarvester ∧ notEmergencyHarvester then false
  else if c.networkConfig.bootstrapHarvesters = ∅ then ¬ (expired ∧ notEmergencyHarvester)
  else ¬ (notBootstrapHarvester ∧ (expired ∨ data.bootKey = 0))

def accountRate (data : AccountData) (hash : Hash256) : ℤ :=
  let hit := max (c.rating.hit hash) 1
  let nextHeight := c.lastBlock.height + 1
  let heightDelta :=
    if c.config.enableEqualWeights then
      if data.lastSigningBlockHeight < nextHeight then nextHeight - data.lastSigningBlockHeight else 1
    else 1
  c.rating.rate data.effectiveBalance hit (c.calculateWeight data) heightDelta

def greedRate (data : AccountData) (hash : Hash256) : ℤ :=
  c.rating.greed c.config data.feeInterest data.feeInterestDenominator (c.rating.hit hash)

def decreaseActivity (key : Key) (accounts : AccountMap) : Except CommitteeError AccountMap :=
  match accounts[key]? with
  | none => .error (.accountNotFound key)
  | some data =>
    match data.decreaseActivity c.config.activityCommitteeNotCosignedDeltaInt with
    | none => .error (.activityOverflow key)
    | some data => .ok (accounts.insert key data)

def decreaseEach : List Key → AccountMap → AccountMap × Option CommitteeError
  | [], accounts => (accounts, none)
  | key :: keys, accounts =>
    match c.decreaseActivity key accounts with
    | .error error => (accounts, some error)
    | .ok accounts => decreaseEach keys accounts

def decreaseActivities (committee : Committee) (accounts : AccountMap) : AccountMap × Option CommitteeError :=
  c.decreaseEach
    ((if committee.blockProposers = [] then [committee.blockProposer] else committee.blockProposers) ++
      ascending committee.cosigners) accounts

end Selection

def Selection.level : Selection where
  rating :=
    { hashOfKey := fun _ key => key
      hashOfHash := fun hash => hash
      hashOfRate := fun _ key => key
      hit := fun hash => hash.val
      weight := fun _ _ => 1
      rate := fun _ _ _ _ => 5
      greed := fun _ _ _ hit => hit }
  networkConfig :=
    { committeeSize := 2
      committeePhaseTime := 10
      minCommitteePhaseTime := 10
      maxCommitteePhaseTime := 80
      committeeTimeAdjustment := ⟨false, (2 * ·), (· / 2)⟩
      enableHarvesterExpiration := true
      emergencyHarvesters := ∅
      bootstrapHarvesters := {4}
      blockTimeUpdateStrategy := .increaseDecreaseCoefficient
      harvestersQueueSize := 1
      enableCommitteeManagerImprovement := true }
  config :=
    { minGreedFeeInterest := 1
      minGreedFeeInterestDenominator := 10
      activityCommitteeNotCosignedDeltaInt := 1
      weightScaleFactor := 1
      enableEqualWeights := false
      enableBlockchainVersionValidation := false
      enableHarvesterRotation := true
      harvesterBanPeriod := 0
      enableBlockProducerSelectionImprovement := true }
  blockchainVersion := 1
  lastBlock := { height := 7, timestamp := 1000, committeePhaseTime := 20, generationHash := 0 }

def harvesters (expirationTimes : List (Key × Timestamp)) : AccountMap :=
  let data (expirationTime : Timestamp) : AccountData :=
    { lastSigningBlockHeight := 0
      effectiveBalance := 1
      canHarvest := true
      expirationTime
      activity := 0
      feeInterest := 1
      feeInterestDenominator := 1
      bootKey := 9
      blockchainVersion := 1
      banPeriod := 0 }
  .ofList (expirationTimes.map fun (key, expirationTime) => (key, data expirationTime))

structure Scan where
  hashes : Std.ExtTreeMap Key Hash256
  rates : List (ℤ × Key) := []
  ineligible : Finset Key := ∅

namespace WeightedVotingCommitteeManagerV2

variable (c : Selection) (m : WeightedVotingCommitteeManagerV2)

def reset (accounts : AccountMap) : WeightedVotingCommitteeManagerV2 :=
  { m with hashes := ∅, committee := {}, accounts }

def nextPhaseTime : ℕ :=
  let strategy := c.networkConfig.blockTimeUpdateStrategy
  if m.committee.round < 0 then
    if c.lastBlock.committeePhaseTime = 0 then c.networkConfig.committeePhaseTime
    else c.lastBlock.committeePhaseTime
  else if 0 < m.committee.round then
    if strategy = .increaseDecreaseCoefficient ∨ strategy = .increaseCoefficient ∨
        ¬ c.networkConfig.enableCommitteeManagerImprovement then
      increasePhaseTime c.networkConfig m.phaseTime
    else m.phaseTime
  else if strategy = .increaseDecreaseCoefficient ∨ ¬ c.networkConfig.enableCommitteeManagerImprovement then
    decreasePhaseTime c.networkConfig m.phaseTime
  else if strategy = .increaseCoefficient then c.networkConfig.minCommitteePhaseTime
  else m.phaseTime

def nextTimestamp : Timestamp :=
  (if m.committee.round < 0 then c.lastBlock.timestamp else m.timestamp) +
    committeePhaseCount * m.nextPhaseTime c

def nextHash (previousRound : ℤ) (key : Key) (hash : Hash256) : Hash256 :=
  if previousRound < 0 then c.rating.hashOfKey c.lastBlock.generationHash key else c.rating.hashOfHash hash

def visit (previousRound : ℤ) (filter : Key → Bool) (scan : Scan) (key : Key) : Scan :=
  match m.accounts[key]? with
  | none => scan
  | some data =>
    if ¬ filter key then scan
    else if ¬ c.isEligible m.timestamp key data then { scan with ineligible := insert key scan.ineligible }
    else
      let hash := nextHash c previousRound key (scan.hashes.getD key 0)
      { scan with
        hashes := scan.hashes.insert key hash
        rates := emplace (fun entry => OrderDual.toDual entry.1) (c.accountRate data hash, key) scan.rates }

def startRound : WeightedVotingCommitteeManagerV2 × Option CommitteeError :=
  let timed := { m with phaseTime := m.nextPhaseTime c, timestamp := m.nextTimestamp c }
  let started := { timed with committee := { round := m.committee.round + 1, roundStart := m.nextTimestamp c } }
  if m.committee.round < 0 then (started, none)
  else
    match c.decreaseActivities m.committee m.accounts with
    | (accounts, none) => ({ started with accounts }, none)
    | (accounts, some error) =>
      -- the exception leaves before the phase is added to the timestamp
      ({ timed with accounts, timestamp := m.timestamp }, some error)

def scanAccounts (order : List Key) (previousRound : ℤ) (filter : Key → Bool) : Scan :=
  order.foldl (m.visit c previousRound filter) { hashes := m.hashes }

def getCandidates (order : List Key) (filter : Key → Bool) :
    WeightedVotingCommitteeManagerV2 × Except CommitteeError Scan :=
  match m.startRound c with
  | (started, some error) => (started, .error error)
  | (started, none) =>
    let scan := started.scanAccounts c order m.committee.round filter
    ({ started with hashes := scan.hashes }, .ok scan)

def candidates (rates : List (ℤ × Key)) : List (ℤ × Key) :=
  map (fun entry => OrderDual.toDual (c.rateOf entry.1 entry.2)) rates

def blockProposerCandidates (keys : List Key) : List (ℤ × Key) :=
  map (fun entry => c.rateOf entry.1 entry.2) (keys.filterMap fun key =>
    m.accounts[key]?.map fun data => (c.greedRate data (m.hashes.getD key 0), key))

def electCommittee (committeeCandidates : List (ℤ × Key)) : WeightedVotingCommitteeManagerV2 × Option CommitteeError :=
  if committeeCandidates = [] then (m, some (.committeeEmpty m.committee.round))
  else
    let keys := (committeeCandidates.take c.networkConfig.committeeSize).map Prod.snd
    let committee := { m.committee with cosigners := keys.toFinset }
    if committee.cosigners.card < c.networkConfig.committeeSize then
      ({ m with committee }, some (.committeeNotFull committee.cosigners.card c.networkConfig.committeeSize))
    else
      match m.blockProposerCandidates c keys with
      | [] => ({ m with committee }, some .emptyBlockProposerCandidates)
      | (_, blockProposer) :: _ =>
        ({ m with committee := { committee with
            blockProposer, cosigners := committee.cosigners.erase blockProposer } }, none)

def selectCommittee (order : List Key) : WeightedVotingCommitteeManagerV2 × Option CommitteeError :=
  match m.getCandidates c order fun _ => true with
  | (m, .error error) => (m, some error)
  | (m, .ok scan) =>
    m.electCommittee c (candidates c
      (cut (fun entry => OrderDual.toDual entry.1) c.networkConfig.committeeSize scan.rates))

end WeightedVotingCommitteeManagerV2

structure WeightedVotingCommitteeManagerV3 extends WeightedVotingCommitteeManagerV2 where
  failedBlockProposers : Finset Key := ∅
  ineligibleHarvesters : Finset Key := ∅
  banPeriods : Std.ExtTreeMap Key ℕ := ∅

namespace Selection

variable (c : Selection)

def ban (key : Key) (state : AccountMap × Std.ExtTreeMap Key ℕ) :
    Except CommitteeError (AccountMap × Std.ExtTreeMap Key ℕ) :=
  if key ∉ c.networkConfig.bootstrapHarvesters ∧ key ∉ c.networkConfig.emergencyHarvesters then
    match state.1[key]? with
    | none => .error (.blockProposerNotFound key)
    | some data =>
      let banPeriod := blocks c.config.harvesterBanPeriod
        (c.networkConfig.minCommitteePhaseTime * committeePhaseCount)
      .ok (state.1.insert key { data with banPeriod }, state.2.insert data.bootKey banPeriod)
  else .ok state

def banEach : List Key → AccountMap × Std.ExtTreeMap Key ℕ →
    (AccountMap × Std.ExtTreeMap Key ℕ) × Option CommitteeError
  | [], state => (state, none)
  | key :: keys, state =>
    match c.ban key state with
    | .error error => (state, some error)
    | .ok state => banEach keys state

end Selection

def queueProposers (queueSize accountCount ineligibleCount : ℕ) :
    List Key → List Key → Finset Key → List Key × Finset Key
  | [], proposers, failed => (proposers, failed)
  | key :: keys, proposers, failed =>
    if proposers.length < queueSize then
      let failed := insert key failed
      queueProposers queueSize accountCount ineligibleCount keys (proposers ++ [key])
        (if failed.card + ineligibleCount = accountCount then ∅ else failed)
    else (proposers, failed)

namespace WeightedVotingCommitteeManagerV3

variable (c : Selection) (m : WeightedVotingCommitteeManagerV3)

def reset (accounts : AccountMap) : WeightedVotingCommitteeManagerV3 :=
  { m.toWeightedVotingCommitteeManagerV2.reset accounts with }

def filter (key : Key) : Bool := ¬ (c.config.enableHarvesterRotation ∧ key ∈ m.failedBlockProposers)

def banProposers : WeightedVotingCommitteeManagerV3 × Option CommitteeError :=
  if 0 ≤ m.committee.round then
    let ((accounts, banPeriods), error) := c.banEach m.committee.blockProposers (m.accounts, m.banPeriods)
    ({ m with accounts, banPeriods }, error)
  else (m, none)

def proposerKeys (candidates : List (ℤ × Key)) : List Key :=
  if c.config.enableBlockProducerSelectionImprovement then candidates.map Prod.snd
  else (m.blockProposerCandidates c (candidates.map Prod.snd)).map Prod.snd

def selectProposers (keys : List Key) : WeightedVotingCommitteeManagerV3 :=
  let (blockProposers, failedBlockProposers) := queueProposers c.networkConfig.harvestersQueueSize
    m.accounts.size m.ineligibleHarvesters.card keys [] m.failedBlockProposers
  { m with
    committee := { m.committee with blockProposer := keys.headD 0, blockProposers }
    failedBlockProposers }

def selectCommittee (order : List Key) : WeightedVotingCommitteeManagerV3 × Option CommitteeError :=
  match m.banProposers c with
  | (m, some error) => (m, some error)
  | (m, none) =>
    match m.getCandidates c order (m.filter c) with
    | (base, .error error) => ({ m with toWeightedVotingCommitteeManagerV2 := base }, some error)
    | (base, .ok scan) =>
      let m := { m with
        toWeightedVotingCommitteeManagerV2 := base
        ineligibleHarvesters := m.ineligibleHarvesters ∪ scan.ineligible }
      let candidates := WeightedVotingCommitteeManagerV2.candidates c scan.rates
      if candidates = [] then (m, some (.noBlockProposerCandidates m.committee.round))
      else (m.selectProposers c (m.proposerKeys c candidates), none)

end WeightedVotingCommitteeManagerV3

end XpxChain.WeightedVoting
