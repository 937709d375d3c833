import XpxChain.Library.OrderedContainers
import XpxChain.Types
import XpxChain.Library.SortedTables

/-! The configuration of the committee, and the activity of accounts. -/

namespace XpxChain.WeightedVoting

open Library OrderedContainers SortedTables

abbrev BlockchainVersion := ℕ
abbrev GenerationHash := Fin (2 ^ 256)

def committeePhaseCount : ℕ := 4

/-- The `double` by which phase times are adjusted: whether it is one, and the truncated product and
quotient of a time and it. -/
structure TimeAdjustment where
  isOne : Bool
  multiply : ℕ → ℕ
  divide : ℕ → ℕ

inductive BlockTimeUpdateStrategy
  | none
  | increaseDecreaseCoefficient
  | increaseCoefficient
  deriving DecidableEq

structure NetworkConfiguration where
  committeeSize : ℕ
  committeePhaseTime : ℕ
  minCommitteePhaseTime : ℕ
  maxCommitteePhaseTime : ℕ
  committeeTimeAdjustment : TimeAdjustment
  enableHarvesterExpiration : Bool
  emergencyHarvesters : Finset Key
  bootstrapHarvesters : Finset Key
  blockTimeUpdateStrategy : BlockTimeUpdateStrategy
  harvestersQueueSize : ℕ
  enableCommitteeManagerImprovement : Bool

structure CommitteeConfiguration where
  minGreedFeeInterest : ℕ
  minGreedFeeInterestDenominator : ℕ
  activityCommitteeNotCosignedDeltaInt : ℤ
  weightScaleFactor : ℤ
  enableEqualWeights : Bool
  enableBlockchainVersionValidation : Bool
  enableHarvesterRotation : Bool
  harvesterBanPeriod : ℕ
  enableBlockProducerSelectionImprovement : Bool

section

variable (config : NetworkConfiguration) (phaseTimeMillis : ℕ)

def increasePhaseTime : ℕ :=
  if config.committeeTimeAdjustment.isOne then phaseTimeMillis
  else if phaseTimeMillis = config.maxCommitteePhaseTime then phaseTimeMillis
  else min (config.committeeTimeAdjustment.multiply phaseTimeMillis) config.maxCommitteePhaseTime

def decreasePhaseTime : ℕ :=
  if config.committeeTimeAdjustment.isOne then phaseTimeMillis
  else if phaseTimeMillis = config.minCommitteePhaseTime then phaseTimeMillis
  else max (config.committeeTimeAdjustment.divide phaseTimeMillis) config.minCommitteePhaseTime

end

def blocks (millis generationTargetTime : ℕ) : ℕ :=
  if millis = 0 then 0 else millis / max generationTargetTime 1

structure BlockElement where
  height : Height
  timestamp : Timestamp
  committeePhaseTime : ℕ
  generationHash : GenerationHash

structure AccountData where
  lastSigningBlockHeight : Height
  effectiveBalance : ℕ
  canHarvest : Bool
  expirationTime : Timestamp
  activity : ℤ
  feeInterest : ℕ
  feeInterestDenominator : ℕ
  bootKey : Key
  blockchainVersion : BlockchainVersion
  banPeriod : ℕ

abbrev AccountMap := Std.ExtTreeMap Key AccountData

def int64Min : ℤ := -2 ^ 63

def int64Max : ℤ := 2 ^ 63 - 1

def AccountData.increaseActivity (data : AccountData) (delta : ℤ) : AccountData :=
  { data with
    activity := if 0 < data.activity ∧ int64Max - data.activity < delta then int64Max else data.activity + delta }

def AccountData.decreaseActivity (data : AccountData) (delta : ℤ) : Option AccountData :=
  if delta = int64Min then none
  else if delta < 0 then some (data.increaseActivity (-delta))
  else
    some { data with
      activity := if data.activity < 0 ∧ data.activity - int64Min < delta then int64Min else data.activity - delta }

/-- The smallest number is its own negation in 64 bits. -/
def negateActivity (delta : ℤ) : ℤ := if delta = int64Min then int64Min else -delta

mutual

/-- At most the given number of calls are nested: for a negative argument the two functions call each other. -/
def AccountData.increaseActivityIn (data : AccountData) : ℕ → ℤ → Option AccountData
  | 0, _ => none
  | calls + 1, delta =>
    if delta < 0 then data.decreaseActivityIn calls (negateActivity delta) else some (data.increaseActivity delta)

def AccountData.decreaseActivityIn (data : AccountData) : ℕ → ℤ → Option AccountData
  | 0, _ => none
  | calls + 1, delta =>
    if delta < 0 then data.increaseActivityIn calls (negateActivity delta) else data.decreaseActivity delta

end

def saturate (activity : ℤ) : ℤ := max int64Min (min int64Max activity)

section

variable {data : AccountData} {delta : ℤ} (hmin : int64Min ≤ data.activity) (hmax : data.activity ≤ int64Max)
include hmin hmax

lemma AccountData.increaseActivity_of_nonneg (hd : 0 ≤ delta) (hle : delta ≤ int64Max) :
    data.increaseActivity delta = { data with activity := saturate (data.activity + delta) } := by
  have hs : (if 0 < data.activity ∧ int64Max - data.activity < delta then int64Max else data.activity + delta) =
      saturate (data.activity + delta) := by
    simp only [saturate, int64Max, int64Min] at *
    split_ifs <;> omega
  rw [increaseActivity, hs]

lemma AccountData.decreaseActivity_of_nonneg (hd : 0 ≤ delta) (hle : delta ≤ int64Max) :
    data.decreaseActivity delta = some { data with activity := saturate (data.activity - delta) } := by
  have hs : (if data.activity < 0 ∧ data.activity - int64Min < delta then int64Min else data.activity - delta) =
      saturate (data.activity - delta) := by
    simp only [saturate, int64Max, int64Min] at *
    split_ifs <;> omega
  rw [decreaseActivity, if_neg (by rw [int64Min]; omega), if_neg (not_lt.mpr hd), hs]

lemma AccountData.activityIn_two (hlow : int64Min < delta) (hhigh : delta ≤ int64Max) :
    data.increaseActivityIn 2 delta = some { data with activity := saturate (data.activity + delta) } ∧
      data.decreaseActivityIn 2 delta = some { data with activity := saturate (data.activity - delta) } := by
  have hnegated : negateActivity delta = -delta := if_neg hlow.ne'
  simp only [AccountData.increaseActivityIn, AccountData.decreaseActivityIn, hnegated]
  by_cases hdelta : delta < 0
  · have hneg : 0 ≤ -delta ∧ -delta ≤ int64Max := by
      simp only [int64Min, int64Max] at *
      omega
    rw [if_pos hdelta, if_pos hdelta, if_neg (not_lt.mpr hneg.1), if_neg (not_lt.mpr hneg.1),
      AccountData.increaseActivity_of_nonneg hmin hmax hneg.1 hneg.2,
      AccountData.decreaseActivity_of_nonneg hmin hmax hneg.1 hneg.2, sub_neg_eq_add]
    exact ⟨rfl, rfl⟩
  · rw [not_lt] at hdelta
    rw [if_neg (not_lt.mpr hdelta), if_neg (not_lt.mpr hdelta),
      AccountData.increaseActivity_of_nonneg hmin hmax hdelta hhigh,
      AccountData.decreaseActivity_of_nonneg hmin hmax hdelta hhigh]
    exact ⟨rfl, rfl⟩

omit hmin hmax in
lemma AccountData.activityIn_int64Min (data : AccountData) (calls : ℕ) :
    data.increaseActivityIn calls int64Min = none ∧ data.decreaseActivityIn calls int64Min = none := by
  induction calls with
  | zero => exact ⟨rfl, rfl⟩
  | succ calls ih => exact ⟨ih.2, ih.1⟩

/-- Both functions return the clamped activity, except for the delta that is its own negation. -/
theorem activity_saturates_iff (hlow : int64Min ≤ delta) (hhigh : delta ≤ int64Max) :
    ((∃ calls, data.increaseActivityIn calls delta = some { data with activity := saturate (data.activity + delta) }) ∧
      ∃ calls, data.decreaseActivityIn calls delta = some { data with activity := saturate (data.activity - delta) }) ↔
      delta ≠ int64Min := by
  constructor
  · rintro ⟨⟨calls, h⟩, -⟩ rfl
    rw [(data.activityIn_int64Min calls).1] at h
    cases h
  · intro hne
    obtain ⟨hincrease, hdecrease⟩ := AccountData.activityIn_two hmin hmax (lt_of_le_of_ne hlow hne.symm) hhigh
    exact ⟨⟨2, hincrease⟩, ⟨2, hdecrease⟩⟩

end

def activeAccount (activity : ℤ) : AccountData := ⟨0, 0, false, 0, activity, 0, 0, 0, 0, 0⟩

theorem activity_saturates_above :
    ∃ calls, (activeAccount 5).increaseActivityIn calls int64Max = some (activeAccount int64Max) :=
  ((activity_saturates_iff (by decide) (by decide) (by decide) (by decide)).mpr (by decide)).1

theorem increaseActivity_diverges : ∃ delta, int64Min ≤ delta ∧ delta ≤ int64Max ∧
    ∀ calls, (activeAccount 0).increaseActivityIn calls delta = none :=
  ⟨int64Min, le_rfl, by decide, fun calls => ((activeAccount 0).activityIn_int64Min calls).1⟩

end XpxChain.WeightedVoting
