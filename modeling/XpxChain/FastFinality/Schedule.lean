import XpxChain.FastFinality.Timetable

/-! The timetable of the rounds of a block, as a node follows it, as a node detects it, and as the committee
manager keeps it. -/

namespace XpxChain.FastFinality

open Library Exceptions WeightedVoting

section

variable (first next : NetworkConfiguration) (round : FastFinalityRound)

def followedTime : ℕ → ℕ
  | 0 => firstRoundTime first round.roundTimeMillis
  | k + 1 => nextRoundTime next (followedTime k)

def followedStart : ℕ → Timestamp
  | 0 => round.roundStart + round.roundTimeMillis
  | k + 1 => followedStart k + followedTime first next round k

end

lemma nextRoundTime_mul (config : NetworkConfiguration) (phase : ℕ) :
    nextRoundTime config (committeePhaseCount * phase) = committeePhaseCount * nextPhaseTime config phase := by
  have hp : committeePhaseCount * phase / committeePhaseCount = phase := Nat.mul_div_cancel_left phase (by decide)
  cases hs : config.blockTimeUpdateStrategy <;> simp only [nextRoundTime, nextPhaseTime, hs, hp]

lemma firstRoundTime_eq_iff {config : NetworkConfiguration} {roundTimeMillis phase : ℕ} :
    firstRoundTime config roundTimeMillis = committeePhaseCount * firstPhaseTime config phase ↔
      firstPhaseTime config (roundTimeMillis / committeePhaseCount) = firstPhaseTime config phase ∧
        (config.blockTimeUpdateStrategy = .none → committeePhaseCount ∣ roundTimeMillis) := by
  have hpos : 0 < committeePhaseCount := by decide
  cases hs : config.blockTimeUpdateStrategy with
  | none =>
    simp only [firstRoundTime, firstPhaseTime, hs, true_imp_iff]
    constructor
    · rintro rfl
      exact ⟨Nat.mul_div_cancel_left phase hpos, Nat.dvd_mul_right _ _⟩
    · rintro ⟨rfl, hdvd⟩
      exact (Nat.mul_div_cancel' hdvd).symm
  | increaseDecreaseCoefficient => simp [firstRoundTime, firstPhaseTime, hs, hpos.ne']
  | increaseCoefficient => simp [firstRoundTime, firstPhaseTime, hs]

namespace Chain

variable {chain : Chain} {k n : ℕ} {node node' node₁ node₂ : Node}

lemma follow_timing (hht : node.data.currentBlockHeight = chain.lastBlock.height)
    (h : chain.follow node k = .ok node') :
    node'.data.round.timing = ((k : ℤ), followedStart chain.detectingConfig chain.incrementingConfig node.data.round k,
          followedTime chain.detectingConfig chain.incrementingConfig node.data.round k) ∧
      Keeps chain.incrementingConfig chain.lastBlock.timestamp chain.tipPhaseTime k
        node'.manager.toWeightedVotingCommitteeManagerV2 ∧
      node'.data.currentBlockHeight = chain.lastBlock.height + 1 := by
  induction k generalizing node' with
  | zero =>
    obtain ⟨m, round, hm, hr, rfl⟩ := resetRound_ok h
    rw [hht] at hm hr
    rw [(FastFinalityRound.start_ok hr).2]
    exact ⟨rfl, keeps_zero _ hm, congrArg (· + 1) hht⟩
  | succ k ih =>
    obtain ⟨node₀, h₀, h⟩ := bind_eq_ok.mp h
    obtain ⟨ht, hk, hht₀⟩ := ih h₀
    obtain ⟨m, round, hm, hr, rfl⟩ := incrementRound_ok h
    rw [hht₀] at hm hr
    have hs := WeightedVotingCommitteeManagerV3.selectCommittee_startsRound (selectCommittee_ok hm)
    refine ⟨?_, hk.next hs, hht₀⟩
    obtain ⟨hro, hre⟩ := Prod.mk.inj ht
    obtain ⟨hst, hti⟩ := Prod.mk.inj hre
    rw [(FastFinalityRound.start_ok hr).2, hro, hst, hti]
    rfl

lemma exists_follow_of_le (hk : k ≤ n) (h : ∃ node', chain.follow node n = .ok node') :
    ∃ node', chain.follow node k = .ok node' := by
  induction n, hk using Nat.le_induction with
  | base => exact h
  | succ n _ ih =>
    obtain ⟨node', h⟩ := h
    obtain ⟨node₀, h₀, -⟩ := bind_eq_ok.mp h
    exact ih ⟨node₀, h₀⟩

def Improved (chain : Chain) : Prop :=
  chain.detectingConfig.enableCommitteeManagerImprovement ∧
    chain.incrementingConfig.enableCommitteeManagerImprovement

/-- Round `k` of the next block is the same for a node that followed the rounds and a node that detects it,
and starts when the committee manager of each of them says. -/
def RoundsAgree (chain : Chain) (followed detected : Node) (k : ℕ) : Prop :=
  ∀ clock a b, (∀ now ∈ clock, chain.InRound k now) → chain.follow followed k = .ok a →
    chain.detectRound clock detected = .ok b →
      a.data.round.timing = b.data.round.timing ∧
        (chain.Improved → a.data.round.roundStart = a.manager.committee.roundStart ∧
          b.data.round.roundStart = b.manager.committee.roundStart)

/-- The last round of the node ends when the round of the last block does and has the same first phase after
it, and the configuration of the block after the next one gives the first `n` rounds the phase times that the
configuration of the next block gives them. -/
structure SameTimetable (chain : Chain) (round : FastFinalityRound) (n : ℕ) : Prop where
  ends : round.roundStart + round.roundTimeMillis =
    chain.lastBlock.timestamp + committeePhaseCount * chain.tipPhaseTime
  phase : firstPhaseTime chain.detectingConfig (round.roundTimeMillis / committeePhaseCount) =
    firstPhaseTime chain.detectingConfig chain.tipPhaseTime
  whole : chain.detectingConfig.blockTimeUpdateStrategy = .none → committeePhaseCount ∣ round.roundTimeMillis
  first : chain.Improved → 0 < n → firstPhaseTime chain.incrementingConfig chain.tipPhaseTime =
    firstPhaseTime chain.detectingConfig chain.tipPhaseTime
  next : ∀ j < n,
    nextPhaseTime chain.incrementingConfig (phaseTime chain.detectingConfig chain.tipPhaseTime (j + 1)) =
      nextPhaseTime chain.detectingConfig (phaseTime chain.detectingConfig chain.tipPhaseTime (j + 1))

structure TimesAgree (chain : Chain) (round : FastFinalityRound) (k : ℕ) : Prop where
  start : followedStart chain.detectingConfig chain.incrementingConfig round k =
    roundStart chain.detectingConfig chain.lastBlock.timestamp chain.tipPhaseTime k
  time : followedTime chain.detectingConfig chain.incrementingConfig round k =
    committeePhaseCount * phaseTime chain.detectingConfig chain.tipPhaseTime (k + 1)
  kept : chain.Improved →
    roundStart chain.incrementingConfig chain.lastBlock.timestamp chain.tipPhaseTime k =
      roundStart chain.detectingConfig chain.lastBlock.timestamp chain.tipPhaseTime k

lemma roundsAgree_iff (hht : node₁.data.currentBlockHeight = chain.lastBlock.height)
    (hf : ∃ a, chain.follow node₁ k = .ok a)
    (hd : ∃ clock b, (∀ now ∈ clock, chain.InRound k now) ∧ chain.detectRound clock node₂ = .ok b) :
    chain.RoundsAgree node₁ node₂ k ↔ chain.TimesAgree node₁.data.round k := by
  constructor
  · intro h
    obtain ⟨a, ha⟩ := hf
    obtain ⟨clock, b, hc, hb⟩ := hd
    obtain ⟨ht, hk⟩ := h clock a b hc ha hb
    obtain ⟨hta, hka, -⟩ := follow_timing hht ha
    obtain ⟨htb, -⟩ := detectRound_timing hc hb
    obtain ⟨-, hti⟩ := Prod.mk.inj (hta.symm.trans (ht.trans htb))
    obtain ⟨hs, htm⟩ := Prod.mk.inj hti
    refine ⟨hs, htm, fun himp => ?_⟩
    rw [← (hka.times himp.2).1, ← (hk himp).1, ← hs]
    exact congrArg (·.2.1) hta
  · intro h clock a b hc ha hb
    obtain ⟨hta, hka, -⟩ := follow_timing hht ha
    obtain ⟨htb, hkb⟩ := detectRound_timing hc hb
    refine ⟨by rw [hta, htb, h.start, h.time], fun himp => ⟨?_, ?_⟩⟩
    · rw [(hka.times himp.2).1, h.kept himp, ← h.start]
      exact congrArg (·.2.1) hta
    · rw [(hkb.times himp.1).1]
      exact congrArg (·.2.1) htb

variable {round : FastFinalityRound}

lemma SameTimetable.of_timesAgree (h : ∀ k ≤ n, chain.TimesAgree round k) : chain.SameTimetable round n := by
  obtain ⟨hp, hw⟩ := firstRoundTime_eq_iff.mp (h 0 n.zero_le).time
  refine ⟨(h 0 n.zero_le).start, hp, hw, fun himp hn => ?_, fun j hj => ?_⟩
  · exact Nat.eq_of_mul_eq_mul_left (by decide) (Nat.add_left_cancel ((h 1 hn).kept himp))
  · have ht := (h (j + 1) hj).time
    rw [followedTime, (h j hj.le).time, nextRoundTime_mul] at ht
    exact Nat.eq_of_mul_eq_mul_left (by decide) ht

lemma SameTimetable.phaseTime_eq (h : chain.SameTimetable round n) (himp : chain.Improved) (hk : k ≤ n) :
    phaseTime chain.incrementingConfig chain.tipPhaseTime k = phaseTime chain.detectingConfig chain.tipPhaseTime k := by
  induction k with
  | zero => rfl
  | succ k ih =>
    cases k with
    | zero => exact h.first himp hk
    | succ k => rw [phaseTime, phaseTime, ih (by omega), h.next k (by omega)]

lemma SameTimetable.timesAgree (h : chain.SameTimetable round n) (hk : k ≤ n) : chain.TimesAgree round k := by
  induction k with
  | zero => exact ⟨h.ends, firstRoundTime_eq_iff.mpr ⟨h.phase, h.whole⟩, fun _ => rfl⟩
  | succ k ih =>
    have hk' := ih (by omega)
    refine ⟨?_, ?_, fun himp => ?_⟩
    · rw [followedStart, hk'.start, hk'.time, roundStart]
    · rw [followedTime, hk'.time, nextRoundTime_mul, h.next k hk, phaseTime]
    · rw [roundStart, roundStart, hk'.kept himp, h.phaseTime_eq himp hk]

theorem rounds_agree_iff (hheight : node₁.data.currentBlockHeight = chain.lastBlock.height)
    (hfollow : ∃ a, chain.follow node₁ n = .ok a)
    (hdetect : ∀ k ≤ n, ∃ clock b, (∀ now ∈ clock, chain.InRound k now) ∧ chain.detectRound clock node₂ = .ok b) :
    (∀ k ≤ n, chain.RoundsAgree node₁ node₂ k) ↔ chain.SameTimetable node₁.data.round n := by
  have hagree : ∀ k ≤ n, (chain.RoundsAgree node₁ node₂ k ↔ chain.TimesAgree node₁.data.round k) := fun k hk =>
    roundsAgree_iff hheight (exists_follow_of_le hk hfollow) (hdetect k hk)
  constructor
  · intro h
    exact .of_timesAgree fun k hk => (hagree k hk).mp (h k hk)
  · intro h k hk
    exact (hagree k hk).mpr (h.timesAgree hk)

def changing (strategy : BlockTimeUpdateStrategy) : Chain :=
  { level with
    config := fun height =>
      if height < 9 then Selection.level.networkConfig
      else { Selection.level.networkConfig with blockTimeUpdateStrategy := strategy } }

def committed : Node where
  data := { round := { round := 0, roundStart := 1000, roundTimeMillis := 80 }, currentBlockHeight := 7 }
  manager := { accounts := ∅ }

theorem rounds_agree_iff_unchanged : (changing .increaseDecreaseCoefficient).RoundsAgree committed committed 0 ∧
      (changing .increaseDecreaseCoefficient).RoundsAgree committed committed 1 := by
  have hdetect : ∀ k ≤ 1, ∃ clock b, (∀ now ∈ clock, (changing .increaseDecreaseCoefficient).InRound k now) ∧
      (changing .increaseDecreaseCoefficient).detectRound clock committed = .ok b := by
    intro k hk
    interval_cases k
    · obtain ⟨b, hb⟩ := exists_ok_iff.mpr
        (show ((changing .increaseDecreaseCoefficient).detectRound [1090, 1090, 1090] committed).isOk by decide +kernel)
      exact ⟨_, b, by simp only [InRound]; decide +kernel, hb⟩
    · obtain ⟨b, hb⟩ := exists_ok_iff.mpr
        (show ((changing .increaseDecreaseCoefficient).detectRound [1130, 1130, 1130, 1130] committed).isOk by
          decide +kernel)
      exact ⟨_, b, by simp only [InRound]; decide +kernel, hb⟩
  have hagree : ∀ k ≤ 1, (changing .increaseDecreaseCoefficient).RoundsAgree committed committed k :=
    (rounds_agree_iff rfl (exists_ok_iff.mpr (by decide +kernel)) hdetect).mpr
      ⟨by decide +kernel, by decide +kernel, by decide +kernel, fun _ _ => by decide +kernel, by decide +kernel⟩
  exact ⟨hagree 0 zero_le_one, hagree 1 le_rfl⟩

theorem not_rounds_agree : ¬ (changing .none).RoundsAgree committed committed 1 := by
  intro h
  obtain ⟨a, ha⟩ := exists_ok_iff.mpr (show ((changing .none).follow committed 1).isOk by decide +kernel)
  obtain ⟨b, hb⟩ :=
    exists_ok_iff.mpr (show ((changing .none).detectRound [1130, 1130, 1130, 1130] committed).isOk by decide +kernel)
  have hagree := (h _ a b (by simp only [InRound]; decide +kernel) ha hb).1
  have hfollowed : ((changing .none).follow committed 1).toOption.map (·.data.round.timing) = some (1, 1120, 40) := by
    decide +kernel
  have hdetected : ((changing .none).detectRound [1130, 1130, 1130, 1130] committed).toOption.map
      (·.data.round.timing) = some (1, 1120, 80) := by
    decide +kernel
  rw [ha] at hfollowed
  rw [hb] at hdetected
  exact absurd ((Option.some.inj hfollowed).symm.trans (hagree.trans (Option.some.inj hdetected))) (by decide)

end Chain

end XpxChain.FastFinality
