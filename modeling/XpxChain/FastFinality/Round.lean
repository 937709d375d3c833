import XpxChain.Library.Exceptions
import XpxChain.WeightedVoting.Managers

/-! The actions by which a fast finality node finds the current round and goes on to the next ones. -/

namespace XpxChain.FastFinality

open Library Exceptions WeightedVoting

structure FastFinalityRound where
  round : ℤ := -1
  -- the source starts with the time at which the round is made; it is read only for the delays of timers
  roundStart : Timestamp := 0
  roundTimeMillis : ℕ := 0
  timeSliceStart : Timestamp := roundStart
  timeSliceMillis : ℕ := 0
  timeSliceIndex : ℕ := 0
  timeSliceCount : ℕ := 0

structure Block where
  entityVersion : ℕ
  height : Height
  round : ℤ
  signer : Key

structure FastFinalityData where
  round : FastFinalityRound := {}
  blockProducer : Option Key := none
  proposedBlockHash : Hash256 := 0
  block : Option Block := none
  currentBlockHeight : Height := 0
  unexpectedBlockHeight : Bool := false
  isBlockBroadcastEnabled : Bool := false
  failedNodeStateRetrievalCount : ℕ := 0

def FastFinalityData.reset (data : FastFinalityData) : FastFinalityData :=
  { data with
    round := {}, blockProducer := none, proposedBlockHash := 0, block := none, unexpectedBlockHeight := false }

/-- What ends an action without an event: its exceptions, undefined behaviour, and a clock that is not read
often enough for the action to return. -/
inductive Fault
  | invalidCurrentTime (currentTime timestamp : Timestamp)
  | invalidRound (committeeRound round : ℤ)
  | committee (error : CommitteeError)
  | committeeManagerNotSet (blockVersion : ℕ)
  | divisionByZero
  | blockProposersOutOfRange
  | nullBlock
  | clockExhausted

structure Chain where
  rating : Rating
  config : Height → NetworkConfiguration
  pluginConfig : Height → CommitteeConfiguration
  version : Height → BlockchainVersion
  lastBlock : BlockElement
  accounts : AccountMap

structure Node where
  data : FastFinalityData := {}
  manager : WeightedVotingCommitteeManagerV3

def firstPhaseTime (config : NetworkConfiguration) (phaseTimeMillis : ℕ) : ℕ :=
  match config.blockTimeUpdateStrategy with
  | .increaseDecreaseCoefficient => decreasePhaseTime config phaseTimeMillis
  | .increaseCoefficient => config.minCommitteePhaseTime
  | .none => phaseTimeMillis

def nextPhaseTime (config : NetworkConfiguration) (phaseTimeMillis : ℕ) : ℕ :=
  match config.blockTimeUpdateStrategy with
  | .increaseDecreaseCoefficient | .increaseCoefficient => increasePhaseTime config phaseTimeMillis
  | .none => phaseTimeMillis

def firstRoundTime (config : NetworkConfiguration) (roundTimeMillis : ℕ) : ℕ :=
  match config.blockTimeUpdateStrategy with
  | .increaseDecreaseCoefficient =>
    committeePhaseCount * decreasePhaseTime config (roundTimeMillis / committeePhaseCount)
  | .increaseCoefficient => committeePhaseCount * config.minCommitteePhaseTime
  | .none => roundTimeMillis

def nextRoundTime (config : NetworkConfiguration) (roundTimeMillis : ℕ) : ℕ :=
  match config.blockTimeUpdateStrategy with
  | .increaseDecreaseCoefficient | .increaseCoefficient =>
    committeePhaseCount * increasePhaseTime config (roundTimeMillis / committeePhaseCount)
  | .none => roundTimeMillis

namespace Chain

variable (chain : Chain)

def selection (height : Height) : Selection where
  rating := chain.rating
  networkConfig := chain.config height
  config := chain.pluginConfig height
  blockchainVersion := chain.version height
  lastBlock := chain.lastBlock

-- the selection does not depend on the order in which the accounts are iterated
def selectCommittee (height : Height) (manager : WeightedVotingCommitteeManagerV3) :
    Except Fault WeightedVotingCommitteeManagerV3 :=
  match manager.selectCommittee (chain.selection height) manager.accounts.keys with
  | (manager, none) => .ok manager
  | (_, some error) => .error (.committee error)

def tipPhaseTime : ℕ :=
  if chain.lastBlock.committeePhaseTime = 0 then (chain.config (chain.lastBlock.height + 1)).committeePhaseTime
  else chain.lastBlock.committeePhaseTime

end Chain

namespace FastFinalityRound

def start (round : ℤ) (roundStart : Timestamp) (roundTimeMillis timeSliceCount : ℕ) : Except Fault FastFinalityRound :=
  if timeSliceCount = 0 then .error .divisionByZero
  else .ok
    { round, roundStart, roundTimeMillis, timeSliceCount
      timeSliceMillis := roundTimeMillis / timeSliceCount }

def detect (round : ℤ) (roundStart : Timestamp) (roundTimeMillis timeSliceCount : ℕ) (now : Timestamp) :
    Except Fault FastFinalityRound :=
  let timeSliceMillis := roundTimeMillis / timeSliceCount
  if timeSliceCount = 0 ∨ roundStart < now ∧ timeSliceMillis = 0 then .error .divisionByZero
  else
    let timeSliceIndex := if roundStart < now then (now - roundStart) / timeSliceMillis else 0
    .ok
      { round, roundStart, roundTimeMillis, timeSliceMillis, timeSliceIndex, timeSliceCount
        timeSliceStart := roundStart + timeSliceIndex * timeSliceMillis }

end FastFinalityRound

structure Located where
  roundStart : Timestamp
  phaseTimeMillis : ℕ
  manager : WeightedVotingCommitteeManagerV3
  clock : List Timestamp

namespace Chain

variable (chain : Chain)

def locateRound (height : Height) :
    List Timestamp → Timestamp → ℕ → WeightedVotingCommitteeManagerV3 → Except Fault Located
  | [], _, _, _ => .error .clockExhausted
  | now :: clock, roundStart, phaseTimeMillis, manager =>
    let nextRoundStart := roundStart + committeePhaseCount * phaseTimeMillis
    if nextRoundStart ≤ now then do
      let manager ← chain.selectCommittee height manager
      locateRound height clock nextRoundStart (nextPhaseTime (chain.config height) phaseTimeMillis) manager
    else .ok { roundStart, phaseTimeMillis, manager, clock }

/-- The same loop with the numbers of the source, which have 64 bits. -/
def locateRound64 (height : Height) :
    List Timestamp → Timestamp → ℕ → WeightedVotingCommitteeManagerV3 → Except Fault Located
  | [], _, _, _ => .error .clockExhausted
  | now :: clock, roundStart, phaseTimeMillis, manager =>
    let nextRoundStart := (roundStart + committeePhaseCount * phaseTimeMillis % 2 ^ 64) % 2 ^ 64
    if nextRoundStart ≤ now then do
      let manager ← chain.selectCommittee height manager
      locateRound64 height clock nextRoundStart (nextPhaseTime (chain.config height) phaseTimeMillis) manager
    else .ok { roundStart, phaseTimeMillis, manager, clock }

/-- The round of the next block at the times of the clock, with the committee manager at that round. -/
def findRound (clock : List Timestamp) (manager : WeightedVotingCommitteeManagerV3) : Except Fault Located :=
  let block := chain.lastBlock
  let currentHeight := block.height + 1
  let roundStart := block.timestamp + committeePhaseCount * chain.tipPhaseTime
  match clock with
  | [] => .error .clockExhausted
  | currentTime :: clock =>
    if currentTime < block.timestamp then .error (.invalidCurrentTime currentTime block.timestamp)
    else do
      let manager ← chain.selectCommittee currentHeight (manager.reset chain.accounts)
      chain.locateRound currentHeight clock roundStart
        (firstPhaseTime (chain.config currentHeight) chain.tipPhaseTime) manager

def detectRound (clock : List Timestamp) (node : Node) : Except Fault Node := do
  let located ← chain.findRound clock node.manager
  match located.clock with
  | [] => .error .clockExhausted
  | now :: _ =>
    let committee := located.manager.committee
    let round ← FastFinalityRound.detect committee.round located.roundStart
      (committeePhaseCount * located.phaseTimeMillis) committee.blockProposers.length now
    .ok
      { data := { node.data with round, currentBlockHeight := chain.lastBlock.height + 1 }
        manager := located.manager }

def incrementRound (node : Node) : Except Fault Node := do
  let currentRound := node.data.round
  let height := node.data.currentBlockHeight + 1
  let manager ← chain.selectCommittee height node.manager
  let round ← FastFinalityRound.start (currentRound.round + 1)
    (currentRound.roundStart + currentRound.roundTimeMillis)
    (nextRoundTime (chain.config height) currentRound.roundTimeMillis) manager.committee.blockProposers.length
  .ok { data := { node.data.reset with round }, manager }

def resetRound (node : Node) : Except Fault Node := do
  let currentRound := node.data.round
  let height := node.data.currentBlockHeight + 1
  let manager ← chain.selectCommittee height (node.manager.reset chain.accounts)
  let round ← FastFinalityRound.start 0 (currentRound.roundStart + currentRound.roundTimeMillis)
    (firstRoundTime (chain.config height) currentRound.roundTimeMillis) manager.committee.blockProposers.length
  .ok { data := { node.data.reset with round, currentBlockHeight := height }, manager }

end Chain

variable {round : ℤ} {roundStart : Timestamp} {timeSliceCount roundTimeMillis : ℕ} {r : FastFinalityRound}

lemma FastFinalityRound.start_ok
    (h : start round roundStart roundTimeMillis timeSliceCount = .ok r) :
    0 < timeSliceCount ∧
      r = { round, roundStart, roundTimeMillis, timeSliceCount
            timeSliceMillis := roundTimeMillis / timeSliceCount } := by
  unfold start at h
  split at h
  next => cases h
  next hcnt => exact ⟨Nat.pos_of_ne_zero hcnt, (Except.ok.inj h).symm⟩

lemma FastFinalityRound.detect_ok {now : Timestamp}
    (h : detect round roundStart roundTimeMillis timeSliceCount now = .ok r) :
    0 < timeSliceCount ∧
      r = { round, roundStart, roundTimeMillis, timeSliceCount
            timeSliceMillis := roundTimeMillis / timeSliceCount
            timeSliceIndex := (now - roundStart) / (roundTimeMillis / timeSliceCount)
            timeSliceStart := roundStart +
              (now - roundStart) / (roundTimeMillis / timeSliceCount) * (roundTimeMillis / timeSliceCount) } := by
  simp only [detect] at h
  split at h
  next => cases h
  next hcnt =>
    refine ⟨Nat.pos_of_ne_zero fun h => hcnt (.inl h), ?_⟩
    cases h
    split
    next => rfl
    next hle => simp [Nat.sub_eq_zero_of_le (Nat.le_of_not_lt hle)]

namespace Chain

variable {chain : Chain} {height : Height} {node node' : Node}

lemma selectCommittee_ok {m m' : WeightedVotingCommitteeManagerV3} (h : chain.selectCommittee height m = .ok m') :
    m.selectCommittee (chain.selection height) m.accounts.keys = (m', none) := by
  unfold selectCommittee at h
  split at h
  next hs => rw [hs, Except.ok.inj h]
  next => cases h

lemma nextPhaseTime_lt {config : NetworkConfiguration} {phase bound : ℕ} (hp : phase < bound)
    (hmax : config.maxCommitteePhaseTime < bound) : nextPhaseTime config phase < bound := by
  cases hs : config.blockTimeUpdateStrategy with
  | none => simpa only [nextPhaseTime, hs] using hp
  | increaseDecreaseCoefficient | increaseCoefficient =>
    simp only [nextPhaseTime, hs, increasePhaseTime]
    split_ifs
    · exact hp
    · exact hp
    · exact (Nat.min_le_right _ _).trans_lt hmax

/-- No number of the loop leaves 64 bits as long as no phase is longer than `2 ^ 60` milliseconds and the clock is that
far from its end. -/
theorem locateRound64_eq {clock : List Timestamp} {roundStart : Timestamp} {phase : ℕ}
    {m : WeightedVotingCommitteeManagerV3} (hclock : ∀ now ∈ clock, now < 2 ^ 63) (hstart : roundStart < 2 ^ 63)
    (hp : phase < 2 ^ 60) (hmax : (chain.config height).maxCommitteePhaseTime < 2 ^ 60) :
    chain.locateRound64 height clock roundStart phase m = chain.locateRound height clock roundStart phase m := by
  induction clock generalizing roundStart phase m with
  | nil => rfl
  | cons now clock ih =>
    obtain ⟨hnow, hclock⟩ := List.forall_mem_cons.mp hclock
    have hfour : committeePhaseCount * phase < 2 ^ 62 := Nat.mul_lt_mul_of_pos_left hp (by decide)
    have hnext : (roundStart + committeePhaseCount * phase % 2 ^ 64) % 2 ^ 64 =
        roundStart + committeePhaseCount * phase := by
      rw [Nat.mod_eq_of_lt (hfour.trans (by decide)),
        Nat.mod_eq_of_lt ((Nat.add_lt_add hstart hfour).trans (by decide))]
    simp only [locateRound64, locateRound, hnext]
    split_ifs with hpast
    · exact bind_congr fun manager => ih hclock (hpast.trans_lt hnow) (nextPhaseTime_lt hp hmax)
    · rfl

lemma detectRound_ok {clock : List Timestamp} (h : chain.detectRound clock node = .ok node') :
    ∃ located now rest round, chain.findRound clock node.manager = .ok located ∧ located.clock = now :: rest ∧
      FastFinalityRound.detect located.manager.committee.round located.roundStart
        (committeePhaseCount * located.phaseTimeMillis) located.manager.committee.blockProposers.length now =
          .ok round ∧
      node' = { data := { node.data with round, currentBlockHeight := chain.lastBlock.height + 1 }
                manager := located.manager } := by
  obtain ⟨located, hl, h⟩ := bind_eq_ok.mp h
  split at h
  next => cases h
  next now rest hc =>
    obtain ⟨round, hr, h⟩ := bind_eq_ok.mp h
    exact ⟨located, now, rest, round, hl, hc, hr, (Except.ok.inj h).symm⟩

lemma incrementRound_ok (h : chain.incrementRound node = .ok node') :
    ∃ manager round, chain.selectCommittee (node.data.currentBlockHeight + 1) node.manager = .ok manager ∧
      FastFinalityRound.start (node.data.round.round + 1) (node.data.round.roundStart + node.data.round.roundTimeMillis)
        (nextRoundTime (chain.config (node.data.currentBlockHeight + 1)) node.data.round.roundTimeMillis)
        manager.committee.blockProposers.length = .ok round ∧
          node' = { data := { node.data.reset with round }, manager } := by
  obtain ⟨manager, hm, h⟩ := bind_eq_ok.mp h
  obtain ⟨round, hr, h⟩ := bind_eq_ok.mp h
  exact ⟨manager, round, hm, hr, (Except.ok.inj h).symm⟩

lemma resetRound_ok (h : chain.resetRound node = .ok node') :
    ∃ manager round,
      chain.selectCommittee (node.data.currentBlockHeight + 1) (node.manager.reset chain.accounts) = .ok manager ∧
      FastFinalityRound.start 0 (node.data.round.roundStart + node.data.round.roundTimeMillis)
        (firstRoundTime (chain.config (node.data.currentBlockHeight + 1)) node.data.round.roundTimeMillis)
        manager.committee.blockProposers.length = .ok round ∧
      node' = { data := { node.data.reset with
                  round, currentBlockHeight := node.data.currentBlockHeight + 1 }
                manager } := by
  obtain ⟨manager, hm, h⟩ := bind_eq_ok.mp h
  obtain ⟨round, hr, h⟩ := bind_eq_ok.mp h
  exact ⟨manager, round, hm, hr, (Except.ok.inj h).symm⟩

end Chain

def Chain.level : Chain where
  rating := Selection.level.rating
  config _ := Selection.level.networkConfig
  pluginConfig _ := Selection.level.config
  version _ := Selection.level.blockchainVersion
  lastBlock := Selection.level.lastBlock
  accounts := harvesters [(2, 5000), (4, 5000)]

end XpxChain.FastFinality
