import XpxChain.FastFinality.Round

/-! The timetable of the rounds of a block. -/

namespace XpxChain.WeightedVoting

structure StartsRound (c : Selection) (m m' : WeightedVotingCommitteeManagerV2) : Prop where
  round : m'.committee.round = m.committee.round + 1
  roundStart : m'.committee.roundStart = m.nextTimestamp c
  timestamp : m'.timestamp = m.nextTimestamp c
  phaseTime : m'.phaseTime = m.nextPhaseTime c

lemma WeightedVotingCommitteeManagerV2.getCandidates_startsRound {c : Selection} {order : List Key}
    {m m' : WeightedVotingCommitteeManagerV2} {filter : Key → Bool} {scan : Scan}
    (h : m.getCandidates c order filter = (m', .ok scan)) : StartsRound c m m' := by
  simp only [getCandidates, startRound] at h
  split at h
  next => cases h
  next started hs =>
    obtain rfl := (Prod.mk.inj h).1
    split at hs
    next =>
      obtain rfl := (Prod.mk.inj hs).1
      exact ⟨rfl, rfl, rfl, rfl⟩
    next =>
      split at hs
      next =>
        obtain rfl := (Prod.mk.inj hs).1
        exact ⟨rfl, rfl, rfl, rfl⟩
      next => cases hs

namespace WeightedVotingCommitteeManagerV3

variable {c : Selection} {m m' : WeightedVotingCommitteeManagerV3} {order : List Key}

lemma banProposers_base (c : Selection) (m : WeightedVotingCommitteeManagerV3) :
    ∃ accounts, (m.banProposers c).1.toWeightedVotingCommitteeManagerV2 =
      { m.toWeightedVotingCommitteeManagerV2 with accounts } := by
  unfold banProposers
  split
  next => exact ⟨_, rfl⟩
  next => exact ⟨_, rfl⟩

lemma selectCommittee_startsRound (h : m.selectCommittee c order = (m', none)) :
    StartsRound c m.toWeightedVotingCommitteeManagerV2 m'.toWeightedVotingCommitteeManagerV2 := by
  obtain ⟨accounts, hb⟩ := banProposers_base c m
  simp only [selectCommittee] at h
  split at h
  next => cases h
  next banned hban =>
    rw [hban] at hb
    split at h
    next => cases h
    next base scan hsc =>
      split at h
      next => cases h
      next =>
        obtain rfl := (Prod.mk.inj h).1
        rw [hb] at hsc
        -- the bans change only the accounts, and the times do not depend on them
        have hs := WeightedVotingCommitteeManagerV2.getCandidates_startsRound hsc
        exact { hs with }

end WeightedVotingCommitteeManagerV3

end XpxChain.WeightedVoting

namespace XpxChain.FastFinality

open Library Exceptions WeightedVoting

section

variable (config : NetworkConfiguration) (timestamp : Timestamp) (phase : ℕ)

def phaseTime : ℕ → ℕ
  | 0 => phase
  | 1 => firstPhaseTime config phase
  | k + 2 => nextPhaseTime config (phaseTime (k + 1))

def roundStart : ℕ → Timestamp
  | 0 => timestamp + committeePhaseCount * phase
  | k + 1 => roundStart k + committeePhaseCount * phaseTime config phase (k + 1)

lemma roundStart_mono : Monotone (roundStart config timestamp phase) :=
  monotone_nat_of_le_succ fun _ => Nat.le_add_right _ _

structure Keeps (k : ℕ) (m : WeightedVotingCommitteeManagerV2) : Prop where
  round : m.committee.round = k
  times : config.enableCommitteeManagerImprovement →
    m.committee.roundStart = roundStart config timestamp phase k ∧
      m.timestamp = roundStart config timestamp phase k ∧ m.phaseTime = phaseTime config phase k

end

section

variable {c : Selection} {config : NetworkConfiguration} {timestamp : Timestamp} {phase k : ℕ}
  {m m' : WeightedVotingCommitteeManagerV2}

lemma nextPhaseTime_eq (himp : c.networkConfig.enableCommitteeManagerImprovement)
    (hr : m.committee.round = k) (hp : m.phaseTime = phaseTime c.networkConfig phase k) :
    m.nextPhaseTime c = phaseTime c.networkConfig phase (k + 1) := by
  cases k with
  | zero =>
    cases hs : c.networkConfig.blockTimeUpdateStrategy <;>
      simp [WeightedVotingCommitteeManagerV2.nextPhaseTime, phaseTime, firstPhaseTime, hr, hp, himp, hs]
  | succ k =>
    have hpos : ¬ (k : ℤ) + 1 < 0 := by omega
    have hpos' : 0 < (k : ℤ) + 1 := by omega
    cases hs : c.networkConfig.blockTimeUpdateStrategy <;>
      simp [WeightedVotingCommitteeManagerV2.nextPhaseTime, phaseTime, nextPhaseTime, hr, hp, himp, hs, hpos, hpos']

lemma Keeps.next (hm : Keeps c.networkConfig timestamp phase k m) (hs : StartsRound c m m') :
    Keeps c.networkConfig timestamp phase (k + 1) m' := by
  refine ⟨by rw [hs.round, hm.round]; rfl, fun himp => ?_⟩
  obtain ⟨-, ht, hp⟩ := hm.times himp
  have hn := nextPhaseTime_eq himp hm.round hp
  have hr : ¬ m.committee.round < 0 := by rw [hm.round]; omega
  have hti : m.nextTimestamp c = roundStart c.networkConfig timestamp phase (k + 1) := by
    rw [WeightedVotingCommitteeManagerV2.nextTimestamp, if_neg hr, ht, hn, roundStart]
  exact ⟨hs.roundStart.trans hti, hs.timestamp.trans hti, hs.phaseTime.trans hn⟩

end

def FastFinalityRound.timing (round : FastFinalityRound) : ℤ × Timestamp × ℕ :=
  (round.round, round.roundStart, round.roundTimeMillis)

namespace Chain

variable (chain : Chain)

def detectingConfig : NetworkConfiguration := chain.config (chain.lastBlock.height + 1)

/-- The configuration of the block after the next one, by which `IncrementRound` goes on to the rounds of the
next block. -/
def incrementingConfig : NetworkConfiguration := chain.config (chain.lastBlock.height + 1 + 1)

def InRound (k : ℕ) (now : Timestamp) : Prop :=
  roundStart chain.detectingConfig chain.lastBlock.timestamp chain.tipPhaseTime k ≤ now ∧
    now < roundStart chain.detectingConfig chain.lastBlock.timestamp chain.tipPhaseTime (k + 1)

def follow (node : Node) : ℕ → Except Fault Node
  | 0 => chain.resetRound node
  | k + 1 => do
    let node ← follow node k
    chain.incrementRound node

variable {chain} {k : ℕ} {m m' : WeightedVotingCommitteeManagerV3} {node node' : Node}

open WeightedVotingCommitteeManagerV3

lemma keeps_zero (config : NetworkConfiguration)
    (h : chain.selectCommittee (chain.lastBlock.height + 1) (m.reset chain.accounts) = .ok m') :
    Keeps config chain.lastBlock.timestamp chain.tipPhaseTime 0 m'.toWeightedVotingCommitteeManagerV2 := by
  have hs := selectCommittee_startsRound (selectCommittee_ok h)
  exact ⟨hs.round, fun _ => ⟨hs.roundStart, hs.timestamp, hs.phaseTime⟩⟩

variable {clock : List Timestamp}

/-- The committee manager after it has selected the committees of the rounds up to `k`. -/
def managerAt (chain : Chain) (manager : WeightedVotingCommitteeManagerV3) :
    ℕ → Except Fault WeightedVotingCommitteeManagerV3
  | 0 => chain.selectCommittee (chain.lastBlock.height + 1) (manager.reset chain.accounts)
  | k + 1 => do
    let manager ← managerAt chain manager k
    chain.selectCommittee (chain.lastBlock.height + 1) manager

/-- Each of the first `k` readings is past the end of the round at hand, the next one is not. -/
def StopsIn (chain : Chain) (clock : List Timestamp) (k : ℕ) : Prop :=
  (∀ j < k, clock[j]?.any
    (roundStart chain.detectingConfig chain.lastBlock.timestamp chain.tipPhaseTime (j + 1) ≤ ·)) ∧
  clock[k]?.any (· < roundStart chain.detectingConfig chain.lastBlock.timestamp chain.tipPhaseTime (k + 1))

structure LocatedIn (chain : Chain) (manager : WeightedVotingCommitteeManagerV3) (k : ℕ)
    (located : Located) : Prop where
  roundStart : located.roundStart = roundStart chain.detectingConfig chain.lastBlock.timestamp chain.tipPhaseTime k
  phaseTimeMillis : located.phaseTimeMillis = phaseTime chain.detectingConfig chain.tipPhaseTime (k + 1)
  manager : chain.managerAt manager k = .ok located.manager

lemma locateRound_stopsIn {located : Located} {j : ℕ} {l : List Timestamp} (hpast : l.length = j)
    (hpassed : ∀ i < j, l[i]?.any
      (roundStart chain.detectingConfig chain.lastBlock.timestamp chain.tipPhaseTime (i + 1) ≤ ·))
    (hm : chain.managerAt m j = .ok m')
    (h : chain.locateRound (chain.lastBlock.height + 1) clock
      (roundStart chain.detectingConfig chain.lastBlock.timestamp chain.tipPhaseTime j)
      (phaseTime chain.detectingConfig chain.tipPhaseTime (j + 1)) m' = .ok located) :
    ∃ k, chain.StopsIn (l ++ clock) k ∧ located.clock = (l ++ clock).drop (k + 1) ∧ chain.LocatedIn m k located := by
  induction clock generalizing j m' l with
  | nil => cases h
  | cons now clock ih =>
    simp only [locateRound] at h
    split at h
    next hn =>
      obtain ⟨m₁, hm₁, h⟩ := bind_eq_ok.mp h
      have hnext := ih (l := l ++ [now]) (j := j + 1) (by simp [hpast]) ?_ (bind_eq_ok.mpr ⟨m', hm, hm₁⟩) h
      · rwa [List.append_assoc] at hnext
      · intro i hi
        rcases Nat.lt_succ_iff_lt_or_eq.mp hi with hi | rfl
        · rw [List.getElem?_append_left (hpast ▸ hi)]
          exact hpassed i hi
        · rw [← hpast, List.getElem?_concat_length]
          subst hpast
          exact decide_eq_true hn
    next hn =>
      cases h
      subst hpast
      refine ⟨l.length, ⟨fun i hi => ?_, ?_⟩, ?_, rfl, rfl, hm⟩
      · rw [List.getElem?_append_left hi]
        exact hpassed i hi
      · rw [List.getElem?_append_right le_rfl, Nat.sub_self]
        exact decide_eq_true (Nat.lt_of_not_le hn)
      · simp

lemma findRound_stopsIn {located : Located} {currentTime : Timestamp}
    (h : chain.findRound (currentTime :: clock) m = .ok located) :
    ∃ k, chain.StopsIn clock k ∧ located.clock = clock.drop (k + 1) ∧ chain.LocatedIn m k located := by
  simp only [findRound] at h
  split at h
  next => cases h
  next =>
    obtain ⟨m', hm, h⟩ := bind_eq_ok.mp h
    exact locateRound_stopsIn (l := []) rfl (fun i hi => absurd hi i.not_lt_zero) hm h

lemma keeps_managerAt (h : chain.managerAt m k = .ok m') :
    Keeps chain.detectingConfig chain.lastBlock.timestamp chain.tipPhaseTime k
      m'.toWeightedVotingCommitteeManagerV2 := by
  induction k generalizing m' with
  | zero => exact keeps_zero _ h
  | succ k ih =>
    obtain ⟨m₀, h₀, h⟩ := bind_eq_ok.mp h
    exact (ih h₀).next (selectCommittee_startsRound (selectCommittee_ok h))

lemma StopsIn.eq_of_inRound {j : ℕ} (h : chain.StopsIn clock j) (hc : ∀ now ∈ clock, chain.InRound k now) : j = k := by
  have hmo := roundStart_mono chain.detectingConfig chain.lastBlock.timestamp chain.tipPhaseTime
  obtain ⟨hpassed, hstops⟩ := h
  rcases Nat.lt_trichotomy j k with hlt | heq | hlt
  · obtain ⟨now, hnow, hb⟩ := Option.any_eq_true _ _ |>.mp hstops
    exact absurd (of_decide_eq_true hb) (((hmo hlt).trans (hc now (List.mem_of_getElem? hnow)).1).not_gt)
  · exact heq
  · obtain ⟨now, hnow, hb⟩ := Option.any_eq_true _ _ |>.mp (hpassed k hlt)
    exact absurd (of_decide_eq_true hb) (hc now (List.mem_of_getElem? hnow)).2.not_ge

lemma detectRound_timing (hc : ∀ now ∈ clock, chain.InRound k now) (h : chain.detectRound clock node = .ok node') :
    node'.data.round.timing =
        ((k : ℤ), roundStart chain.detectingConfig chain.lastBlock.timestamp chain.tipPhaseTime k,
          committeePhaseCount * phaseTime chain.detectingConfig chain.tipPhaseTime (k + 1)) ∧
      Keeps chain.detectingConfig chain.lastBlock.timestamp chain.tipPhaseTime k
        node'.manager.toWeightedVotingCommitteeManagerV2 := by
  obtain ⟨located, now, rest, round, hl, -, hr, rfl⟩ := detectRound_ok h
  cases clock with
  | nil => cases hl
  | cons currentTime clock =>
    obtain ⟨j, hstops, -, hlocated⟩ := findRound_stopsIn hl
    obtain rfl := hstops.eq_of_inRound fun now hnow => hc now (List.mem_cons_of_mem _ hnow)
    have hk := keeps_managerAt hlocated.manager
    refine ⟨?_, hk⟩
    rw [(FastFinalityRound.detect_ok hr).2, hk.round, hlocated.roundStart, hlocated.phaseTimeMillis]
    rfl

end Chain

end XpxChain.FastFinality
