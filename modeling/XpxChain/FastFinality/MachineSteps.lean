import XpxChain.FastFinality.Machine

/-! What one step of the fast finality machine can do: the events that each action raises, and what it leaves
as it is. -/

namespace XpxChain.FastFinality

open Library Exceptions WeightedVoting

def State.events : State → List Event
  | .initialState | .onHold => []
  | .localChainCheck =>
    [.hold, .networkHeightDetectionFailure, .networkHeightLessThanLocal, .networkHeightGreaterThanLocal,
      .startLocalChainCheck, .networkHeightEqualToLocal, .dbrbProcessBanned, .notRegisteredInDbrbSystem]
  | .blocksDownloading => [.hold, .downloadBlocksSucceeded, .downloadBlocksFailed]
  | .roundDetection => [.roundDetectionCompleted]
  | .connectionChecking => [.connectionNumberInsufficient, .connectionNumberSufficient]
  | .roundStart => [.dbrbProcessBanned, .notRegisteredInDbrbSystem, .roundStarted]
  | .blockProducerSelection => [.generateBlock, .waitForBlock]
  | .blockGeneration => [.blockGenerationFailed, .blockGenerationSucceeded]
  | .blockWaiting =>
    [.blockReceived, .unexpectedBlockHeight, .blockNotReceived true, .blockNotReceived false,
      .selectNextBlockProducer]
  | .commit => [.unexpectedBlock, .hold, .commitBlockSucceeded, .commitBlockFailed]

/-- The events to which what the machine does next can lead while it stays in its state. -/
def Pending.events : Pending → List Event
  | .idle | .entry => []
  | .waiting => State.blockWaiting.events
  | .delayed (.raise event) | .posted event => [event]
  | .delayed .blockNotReceived => [.blockNotReceived true, .blockNotReceived false]
  | .delayed (.commitBlock _) => [.hold, .commitBlockSucceeded, .commitBlockFailed]

namespace Machine

variable {env : Environment} {events : List Event} {event : Event} {m m' : Machine}

def control (m : Machine) : State × Bool := (m.state, m.stopWaiting)

structure Stays (events : List Event) (m m' : Machine) : Prop where
  control : m'.control = m.control
  events : m'.pending.events ⊆ events

structure KeepsRound (events : List Event) (m m' : Machine) : Prop extends Stays events m m' where
  round : m'.data.round = m.data.round
  manager : m'.manager = m.manager

section

variable (hc : m'.control = m.control)
include hc

lemma Stays.raise (he : event ∈ events) : Stays events m (m'.raise event) :=
  ⟨hc, List.cons_subset.mpr ⟨he, List.nil_subset _⟩⟩

lemma Stays.delay (he : event ∈ events) : Stays events m (m'.delay event) :=
  ⟨hc, List.cons_subset.mpr ⟨he, List.nil_subset _⟩⟩

lemma KeepsRound.raise (hr : m'.data.round = m.data.round)
    (hm : m'.manager = m.manager) (he : event ∈ events) : KeepsRound events m (m'.raise event) :=
  ⟨.raise hc he, hr, hm⟩

lemma KeepsRound.delay (hr : m'.data.round = m.data.round)
    (hm : m'.manager = m.manager) (he : event ∈ events) : KeepsRound events m (m'.delay event) :=
  ⟨.delay hc he, hr, hm⟩

end

lemma Stays.state (h : Stays events m m') : m'.state = m.state := (Prod.mk.inj h.control).1

lemma Stays.stopWaiting (h : Stays events m m') : m'.stopWaiting = m.stopWaiting := (Prod.mk.inj h.control).2

lemma notInDbrbSystem_mem : env.notInDbrbSystem ∈ [.dbrbProcessBanned, .notRegisteredInDbrbSystem] := by
  unfold Environment.notInDbrbSystem
  split <;> decide

lemma stays_checkLocalChain : Stays State.localChainCheck.events m (m.checkLocalChain env) := by
  simp only [checkLocalChain]
  split
  next => exact .raise rfl (by decide)
  next =>
    split
    next => exact .delay rfl (by decide)
    next =>
      split_ifs
      · exact .delay rfl (by decide)
      · exact .raise rfl (by decide)
      · exact .raise rfl (by decide)
      · exact .delay rfl (List.subset_append_right [.hold, _, _, _, _, _] _ notInDbrbSystem_mem)
      · exact .delay rfl (by decide)
      · exact .delay rfl (by decide)

lemma stays_downloadBlocks (h : m.downloadBlocks env = .ok m') : Stays State.blocksDownloading.events m m' := by
  obtain ⟨⟨manager, result⟩, -, h⟩ := bind_eq_ok.mp h
  cases result with
  | held =>
    cases h
    exact .raise rfl (by decide)
  | succeeded =>
    cases h
    exact .raise rfl (by decide)
  | failed =>
    cases h
    exact .delay rfl (by decide)

lemma stays_detectRound (h : m.detectRound env = .ok m') : Stays State.roundDetection.events m m' := by
  obtain ⟨node, -, h⟩ := bind_eq_ok.mp h
  cases h
  exact .delay rfl (by decide)

lemma keepsRound_checkConnections : KeepsRound State.connectionChecking.events m (m.checkConnections env) := by
  simp only [checkConnections]
  split
  next => exact .delay rfl rfl rfl (by decide)
  next => exact .raise rfl rfl rfl (by decide)

lemma keepsRound_startRound (h : m.startRound env = .ok m') :
    KeepsRound (if env.isInDbrbSystem then [.roundStarted] else [.dbrbProcessBanned, .notRegisteredInDbrbSystem]) m
      m' := by
  cases hin : env.isInDbrbSystem with
  | false =>
    simp only [startRound, hin, Bool.false_eq_true, not_false_eq_true, if_true] at h
    cases h
    exact .delay rfl rfl rfl notInDbrbSystem_mem
  | true =>
    simp only [startRound, hin, not_true, if_false] at h
    split at h
    next => cases h
    next =>
      cases h
      exact .raise rfl rfl rfl (by decide)

lemma keepsRound_selectBlockProducer (h : m.selectBlockProducer env = .ok m') :
    KeepsRound State.blockProducerSelection.events m m' := by
  simp only [selectBlockProducer] at h
  split at h
  next => cases h
  next => cases h
  next =>
    cases h
    refine .raise rfl rfl rfl ?_
    split <;> decide

lemma keepsRound_generateBlock : KeepsRound State.blockGeneration.events m (m.generateBlock env) := by
  simp only [generateBlock]
  split_ifs
  all_goals exact .raise rfl rfl rfl (by decide)

lemma keepsRound_waitForBlock : KeepsRound State.blockWaiting.events m m.waitForBlock := by
  unfold waitForBlock
  split
  next => exact .raise rfl rfl rfl (by decide)
  next => exact ⟨⟨rfl, List.Subset.refl _⟩, rfl, rfl⟩

lemma stays_stopWaitForBlock (env : Environment) (m : Machine) :
    Stays State.blockWaiting.events m (m.stopWaitForBlock env) := by
  simp only [stopWaitForBlock]
  split_ifs
  · exact .raise rfl (by decide)
  · exact .raise rfl (by decide)
  · exact ⟨rfl, show (Pending.delayed .blockNotReceived).events ⊆ _ by decide⟩
  · exact .raise rfl (by decide)

lemma keepsRound_commitBlock (h : m.commitBlock env = .ok m') : KeepsRound State.commit.events m m' := by
  unfold commitBlock at h
  split at h
  next => cases h
  next =>
    split at h
    next =>
      cases h
      exact .raise rfl rfl rfl (by decide)
    next =>
      split at h
      next => cases h
      next =>
        split at h
        next =>
          cases h
          exact .raise rfl rfl rfl (by decide)
        next =>
          cases h
          exact ⟨⟨rfl, List.subset_cons_self _ _⟩, rfl, rfl⟩

lemma blockNotReceived_mem (sync : Bool) :
    Event.blockNotReceived sync ∈ (Pending.delayed .blockNotReceived).events := by
  cases sync <;> decide

lemma keepsRound_runCallback {callback : Callback} (h : m.runCallback env callback = .ok m') :
    KeepsRound (Pending.delayed callback).events m m' := by
  cases callback with
  | raise event =>
    cases h
    exact .raise rfl rfl rfl List.mem_cons_self
  | blockNotReceived =>
    simp only [runCallback] at h
    split_ifs at h
    · cases h
      exact .raise rfl rfl rfl (by decide)
    · cases h
      exact .raise rfl rfl rfl (blockNotReceived_mem _)
  | commitBlock success =>
    simp only [runCallback] at h
    split_ifs at h
    · cases h
      exact .raise rfl rfl rfl (by simp [Pending.events])
    · split at h
      next => cases h
      next =>
        cases h
        refine .raise rfl rfl rfl ?_
        split <;> simp [Pending.events]
    · cases h
      exact .raise rfl rfl rfl (by simp [Pending.events])

lemma stays_runEntryAction (h : m.runEntryAction env = .ok m') : Stays m.state.events m m' := by
  unfold runEntryAction at h
  split at h
  next hs =>
    cases h
    rw [hs]
    exact stays_checkLocalChain
  next hs =>
    rw [hs]
    exact stays_downloadBlocks h
  next hs =>
    rw [hs]
    exact stays_detectRound h
  next hs =>
    cases h
    rw [hs]
    exact keepsRound_checkConnections.toStays
  next hs =>
    rw [hs]
    refine ⟨(keepsRound_startRound h).control, List.Subset.trans (keepsRound_startRound h).events ?_⟩
    split <;> decide
  next hs =>
    rw [hs]
    exact (keepsRound_selectBlockProducer h).toStays
  next hs =>
    cases h
    rw [hs]
    exact keepsRound_generateBlock.toStays
  next hs =>
    cases h
    rw [hs]
    exact keepsRound_waitForBlock.toStays
  next hs =>
    rw [hs]
    exact (keepsRound_commitBlock h).toStays
  next =>
    cases h
    exact ⟨rfl, List.nil_subset _⟩
  next =>
    cases h
    exact ⟨rfl, List.nil_subset _⟩

end Machine

end XpxChain.FastFinality

