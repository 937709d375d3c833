import XpxChain.Library.Runs
import XpxChain.FastFinality.MachineSteps
import XpxChain.FastFinality.Schedule

/-! The time slice of a round and the block proposer to whom it belongs. -/

namespace XpxChain.FastFinality

open Library Exceptions Runs WeightedVoting

structure Node.InSlice (node : Node) : Prop where
  index : node.data.round.timeSliceIndex < node.data.round.timeSliceCount
  count : node.data.round.timeSliceCount = node.manager.committee.blockProposers.length

/-- The committee that is selected for round `k` of the next block has that many block proposers. -/
def Chain.proposerCount (chain : Chain) (manager : WeightedVotingCommitteeManagerV3) (k : ℕ) : ℕ :=
  (chain.managerAt manager k).toOption.elim 0 (·.committee.blockProposers.length)

/-- If the readings after the first one stop in round `k` of the timetable, then the reading after them is before the
end of the last whole time slice of that round. -/
def Chain.ReadsSlice (chain : Chain) (manager : WeightedVotingCommitteeManagerV3) (clock : List Timestamp) : Prop :=
  ∀ k < clock.length, chain.StopsIn clock.tail k → ∀ now ∈ clock.tail[k + 1]?,
    roundStart chain.detectingConfig chain.lastBlock.timestamp chain.tipPhaseTime k < now →
    now + committeePhaseCount * phaseTime chain.detectingConfig chain.tipPhaseTime (k + 1) %
      chain.proposerCount manager k <
      roundStart chain.detectingConfig chain.lastBlock.timestamp chain.tipPhaseTime (k + 1)

lemma sliceIndex_lt {now start time count : ℕ} (hlt : start < now) (hnow : now + time % count < start + time) :
    (now - start) / (time / count) < count := by
  have hdiv := Nat.div_add_mod' time count
  exact Nat.div_lt_of_lt_mul (by omega)

namespace Chain

variable {chain : Chain} {clock : List Timestamp} {node node' : Node}

lemma inSlice_detectRound (h : chain.detectRound clock node = .ok node')
    (hclock : chain.ReadsSlice node.manager clock) : node'.InSlice := by
  obtain ⟨located, now, rest, round, hl, hc, hr, rfl⟩ := detectRound_ok h
  obtain ⟨hcnt, rfl⟩ := FastFinalityRound.detect_ok hr
  refine ⟨?_, rfl⟩
  rcases Nat.lt_or_ge located.roundStart now with hlt | hge
  · cases clock with
    | nil => cases hl
    | cons currentTime clock =>
      obtain ⟨k, hstops, hrest, hlocated⟩ := findRound_stopsIn hl
      have hnow : clock[k + 1]? = some now := by
        rw [← Nat.add_zero (k + 1), ← List.getElem?_drop, ← hrest, hc]
        rfl
      have hk : k < (currentTime :: clock).length := by
        have := (List.getElem?_eq_some_iff.mp hnow).1
        rw [List.length_cons]
        omega
      have hslice := hclock k hk hstops now hnow (hlocated.roundStart ▸ hlt)
      rw [proposerCount, hlocated.manager, roundStart, ← hlocated.roundStart, ← hlocated.phaseTimeMillis] at hslice
      exact sliceIndex_lt hlt hslice
  · simpa [Nat.sub_eq_zero_of_le hge] using hcnt

lemma inSlice_incrementRound (h : chain.incrementRound node = .ok node') : node'.InSlice := by
  obtain ⟨manager, round, -, hr, rfl⟩ := incrementRound_ok h
  obtain ⟨hcnt, rfl⟩ := FastFinalityRound.start_ok hr
  exact ⟨hcnt, rfl⟩

lemma inSlice_resetRound (h : chain.resetRound node = .ok node') : node'.InSlice := by
  obtain ⟨manager, round, -, hr, rfl⟩ := resetRound_ok h
  obtain ⟨hcnt, rfl⟩ := FastFinalityRound.start_ok hr
  exact ⟨hcnt, rfl⟩

end Chain

def State.isInRound : State → Bool
  | .connectionChecking | .roundStart | .blockProducerSelection | .blockGeneration | .blockWaiting | .commit => true
  | .initialState | .localChainCheck | .blocksDownloading | .roundDetection | .onHold => false

lemma isInRound_of_transition {state target : State} {event : Event}
    (h : transition state event = some (target, none)) (ht : target.isInRound) :
    state.isInRound ∨ state = .roundDetection := by
  unfold transition at h
  split at h
  all_goals cases h
  all_goals simp_all [State.isInRound]

namespace Machine

variable {env : Environment} {event : Event} {events : List Event} {m m' : Machine}

def KnowsRound (m : Machine) : Prop :=
  m.state.isInRound ∨ m.state = .roundDetection ∧ m.pending ≠ .entry

def SliceInv (m : Machine) : Prop := m.stopped = false → m.KnowsRound → m.InSlice

def Indexes (m : Machine) : Prop :=
  m.stopped = false ∧ m.fault.isSome = false ∧ m.pending = .entry ∧
    (m.state = .blockProducerSelection ∨ m.state = .commit)

def DetectsInSlices (m : Machine) : Input → Prop
  | .run env => m.state = .roundDetection → m.pending = .entry →
      env.chain.ReadsSlice m.manager env.clock
  | _ => True

lemma SliceInv.indexes (hm : m.SliceInv) (h : m.Indexes) : m.InSlice := by
  obtain ⟨hso, -, -, hst⟩ := h
  refine hm hso (.inl ?_)
  rcases hst with hs | hs <;> rw [hs] <;> rfl

lemma KeepsRound.inSlice (h : KeepsRound events m m') (hm : m.InSlice) : m'.InSlice := by
  refine ⟨?_, ?_⟩
  · rw [h.round]
    exact hm.index
  · rw [h.round, h.manager]
    exact hm.count

lemma keepsRound_runEntryAction (h : m.runEntryAction env = .ok m') (hr : m.state.isInRound) :
    ∃ events, KeepsRound events m m' := by
  unfold runEntryAction at h
  split at h
  next hs => simp [hs, State.isInRound] at hr
  next hs => simp [hs, State.isInRound] at hr
  next hs => simp [hs, State.isInRound] at hr
  next =>
    cases h
    exact ⟨_, keepsRound_checkConnections⟩
  next => exact ⟨_, keepsRound_startRound h⟩
  next => exact ⟨_, keepsRound_selectBlockProducer h⟩
  next =>
    cases h
    exact ⟨_, keepsRound_generateBlock⟩
  next =>
    cases h
    exact ⟨_, keepsRound_waitForBlock⟩
  next => exact ⟨_, keepsRound_commitBlock h⟩
  next hs => simp [hs, State.isInRound] at hr
  next hs => simp [hs, State.isInRound] at hr

lemma inSlice_stopWaitForBlock (hm : m.InSlice) : (m.stopWaitForBlock env).InSlice := by
  simp only [stopWaitForBlock]
  split_ifs with _ _ hl
  · exact hm
  · exact hm
  · exact hm
  · exact ⟨Nat.lt_of_le_of_ne hm.index hl, hm.count⟩

lemma inSlice_processEvent (hm : m.KnowsRound → m.InSlice) (hp : m.pending = .posted event)
    (h : m.processEvent env event = .ok m') (hk : m'.KnowsRound) : m'.InSlice := by
  unfold processEvent at h
  split at h
  next =>
    cases h
    exact hm (hk.imp_right fun hd => ⟨hd.1, by rw [hp]; exact Pending.noConfusion⟩)
  next target action ht =>
    obtain ⟨node, hn, h⟩ := bind_eq_ok.mp h
    cases h
    have hta : target.isInRound := hk.resolve_right fun hd => hd.2 rfl
    cases action with
    | none =>
      cases hn
      exact hm ((isInRound_of_transition ht hta).imp_right fun hd => ⟨hd, by rw [hp]; exact Pending.noConfusion⟩)
    | some action =>
      cases action with
      | incrementRound => exact Chain.inSlice_incrementRound hn
      | resetRound => exact Chain.inSlice_resetRound hn

lemma inSlice_runEntryAction (hm : m.KnowsRound → m.InSlice) (h : m.runEntryAction env = .ok m')
    (hc : m.state = .roundDetection → env.chain.ReadsSlice m.manager env.clock) (hk : m'.KnowsRound) : m'.InSlice := by
  cases hr : m.state.isInRound with
  | true =>
    obtain ⟨events, hke⟩ := keepsRound_runEntryAction h hr
    exact hke.inSlice (hm (.inl hr))
  | false =>
    have hst := (stays_runEntryAction h).state
    by_cases hs : m.state = .roundDetection
    · rw [runEntryAction, hs] at h
      obtain ⟨node, hn, h⟩ := bind_eq_ok.mp h
      cases h
      exact Chain.inSlice_detectRound hn (hc hs)
    · rcases hk with hk | ⟨hk, -⟩
      · rw [hst, hr] at hk
        exact absurd hk Bool.false_ne_true
      · exact absurd (hst.symm.trans hk) hs

lemma SliceInv.advance (hm : m.SliceInv) (hst : m.stopped = false) (h : m.advance env = .ok m')
    (hc : m.state = .roundDetection → m.pending = .entry → env.chain.ReadsSlice m.manager env.clock)
    (hk : m'.KnowsRound) : m'.InSlice := by
  have hm := hm hst
  unfold Machine.advance at h
  split at h
  next =>
    cases h
    exact hm hk
  next hp => exact inSlice_runEntryAction hm h (fun hs => hc hs hp) hk
  next hp =>
    cases h
    have hs := (stays_stopWaitForBlock env m).state
    exact inSlice_stopWaitForBlock (hm (hk.imp (hs ▸ ·) fun hd => ⟨hs ▸ hd.1, by rw [hp]; exact Pending.noConfusion⟩))
  next callback hp =>
    have hke := keepsRound_runCallback h
    exact hke.inSlice (hm (hk.imp (hke.state ▸ ·) fun hd =>
      ⟨hke.state ▸ hd.1, by rw [hp]; exact Pending.noConfusion⟩))
  next hp => exact inSlice_processEvent hm hp h hk

lemma SliceInv.step (hm : m.SliceInv) {input : Input} (hin : m.DetectsInSlices input) : (m.step input).SliceInv := by
  apply step_induction hm
  · rintro env m' hs rfl h _ hk
    exact hm.advance hs h hin hk
  · exact fun _ => hm
  · intro block hs hk
    exact ⟨(hm hs hk).index, (hm hs hk).count⟩
  · intro payloadHash block accepted
    obtain ⟨_, _, hv⟩ := validateBlock_eq m payloadHash block accepted
    rw [hv]
    intro hs hk
    exact ⟨(hm hs hk).index, (hm hs hk).count⟩
  · exact fun hs => nomatch hs

lemma sliceInv_init (manager : WeightedVotingCommitteeManagerV3) : (init manager).SliceInv := by
  rintro - (h | ⟨h, -⟩)
  · exact absurd h Bool.false_ne_true
  · exact State.noConfusion h

theorem indexes_in_slice (manager : WeightedVotingCommitteeManagerV3) (inputs : List Input)
    (h : Always step (init manager) (fun _ m input => m.DetectsInSlices input) inputs)
    (hi : (run step (init manager) inputs).Indexes) : (run step (init manager) inputs).InSlice :=
  (invariant_run (fun _ (m : Machine) => m.SliceInv) (sliceInv_init manager)
    (fun _ _ _ hm hin => hm.step hin) h).indexes hi

deriving instance Decidable for Indexes

instance (chain : Chain) (clock : List Timestamp) (k : ℕ) : Decidable (chain.StopsIn clock k) := by
  unfold Chain.StopsIn
  infer_instance

instance (chain : Chain) (manager : WeightedVotingCommitteeManagerV3) (clock : List Timestamp) :
    Decidable (chain.ReadsSlice manager clock) := by
  unfold Chain.ReadsSlice
  infer_instance

instance (m : Machine) : (input : Input) → Decidable (m.DetectsInSlices input)
  | .run env => inferInstanceAs (Decidable (m.state = .roundDetection → m.pending = .entry →
      env.chain.ReadsSlice m.manager env.clock))
  | .pushBlock _ | .validateBlock _ _ _ | .shutdown => isTrue trivial

def clockReadings (inputs : List Input) : List Timestamp :=
  inputs.flatMap fun
    | .run env => env.clock
    | _ => []

def selectingRun (now : Timestamp) : List Input :=
  let env := Environment.synchronized [now, now, now]
  let networkConfig := { Selection.level.networkConfig with harvestersQueueSize := 3 }
  let chain := { Chain.level with
    config := fun _ => networkConfig, accounts := harvesters [(2, 5000), (3, 5000), (4, 5000)] }
  List.replicate 11 (.run { env with chain })

theorem indexes_in_slice_selectingRun : (run step (init { accounts := ∅ }) (selectingRun 1090)).InSlice :=
  indexes_in_slice _ _ (by decide +kernel) (by decide +kernel)

/-- A round of 40 ms has three slices of 13 ms, and the last millisecond is in none of them. -/
theorem not_indexes_in_slice : (clockReadings (selectingRun 1119)).Pairwise (· ≤ ·) ∧
    (run step (init { accounts := ∅ }) (selectingRun 1119)).Indexes ∧
    ¬ (run step (init { accounts := ∅ }) (selectingRun 1119)).InSlice := by
  refine ⟨by decide +kernel, by decide +kernel, fun h => ?_⟩
  exact absurd h.index (by decide +kernel)

end Machine

end XpxChain.FastFinality
