import XpxChain.Library.Runs
import XpxChain.WeightedVoting.Scan

/-! The start of a round in `WeightedVotingCommitteeManagerV3`, and what its rotation keeps. -/

namespace XpxChain.WeightedVoting

open Library OrderedContainers SortedTables Runs WeightedVotingCommitteeManagerV2 Finset List

section

variable {queueSize accountCount ineligibleCount : ℕ} {keys proposers : List Key} {failed : Finset Key}

lemma queueProposers_fst : (queueProposers queueSize accountCount ineligibleCount keys proposers failed).1 =
    proposers ++ keys.take (queueSize - proposers.length) := by
  induction keys generalizing proposers failed with
  | nil => simp [queueProposers]
  | cons key keys ih =>
    rw [queueProposers]
    split
    next hr =>
      have hsz : queueSize - proposers.length = queueSize - (proposers.length + 1) + 1 := by omega
      simp [ih, hsz]
    next hf => simp [Nat.sub_eq_zero_of_le (not_lt.mp hf)]

lemma queueProposers_snd (queueSize : ℕ) (proposers : List Key) (accounts ineligible failed : Finset Key)
    (hn : keys.Nodup) (hk : ∀ key ∈ keys, key ∈ accounts ∧ key ∉ failed ∧ key ∉ ineligible) (hf : failed ⊆ accounts)
    (hi : ineligible ⊆ accounts) (hd : Disjoint failed ineligible) :
    (queueProposers queueSize accounts.card ineligible.card keys proposers failed).2 = ∅ ∨
      (queueProposers queueSize accounts.card ineligible.card keys proposers failed).2 =
        failed ∪ (keys.take (queueSize - proposers.length)).toFinset := by
  induction keys generalizing proposers failed with
  | nil => simp [queueProposers]
  | cons key keys ih =>
    obtain ⟨hkey, hn⟩ := nodup_cons.mp hn
    obtain ⟨hac, -, hie⟩ := hk key mem_cons_self
    have hf' : insert key failed ⊆ accounts := insert_subset hac hf
    have hd' : Disjoint (insert key failed) ineligible := disjoint_insert_left.mpr ⟨hie, hd⟩
    have hr : ∀ other ∈ keys, other ∈ accounts ∧ other ∉ insert key failed ∧ other ∉ ineligible := by
      intro other ho
      obtain ⟨ha, hfa, hin⟩ := hk other (mem_cons_of_mem key ho)
      refine ⟨ha, ?_, hin⟩
      rw [mem_insert, not_or]
      exact ⟨fun h => hkey (h ▸ ho), hfa⟩
    rw [queueProposers]
    split
    next hro =>
      simp only
      split
      next hall =>
        -- all accounts have failed or are ineligible, so none is left
        have hc : insert key failed ∪ ineligible = accounts := by
          refine eq_of_subset_of_card_le (union_subset hf' hi) ?_
          rw [card_union_of_disjoint hd', hall]
        cases keys with
        | nil => exact Or.inl rfl
        | cons other keys =>
          obtain ⟨ha, hfa, hin⟩ := hr other mem_cons_self
          rw [← hc, mem_union] at ha
          exact absurd ha (not_or.mpr ⟨hfa, hin⟩)
      next =>
        have hsz : queueSize - proposers.length = queueSize - (proposers ++ [key]).length + 1 := by
          rw [length_append, length_singleton]
          omega
        rw [hsz, take_succ_cons, toFinset_cons, union_insert, ← insert_union]
        exact ih _ _ hn hr hf' hd'
    next hfu => simp [Nat.sub_eq_zero_of_le (not_lt.mp hfu)]

end

namespace WeightedVotingCommitteeManagerV3

variable {c : Selection} {m : WeightedVotingCommitteeManagerV3} {order : List Key}

def next (c : Selection) (m : WeightedVotingCommitteeManagerV3) (order : List Key) : WeightedVotingCommitteeManagerV3 :=
  (m.selectCommittee c order).1

def Selects (c : Selection) (m : WeightedVotingCommitteeManagerV3) (order : List Key) : Prop :=
  (m.selectCommittee c order).2 = none ∧ (m.next c order).committee.blockProposers ≠ []

/-- If the rotation leaves out failed proposers, then some account has neither failed nor been ineligible, and
does not expire before the next round starts. -/
def HasUntried (c : Selection) (m : WeightedVotingCommitteeManagerV3) : Prop :=
  c.config.enableHarvesterRotation → m.failedBlockProposers ≠ ∅ →
    ∃ entry ∈ m.accounts.toList, entry.1 ∉ m.failedBlockProposers ∧ entry.1 ∉ m.ineligibleHarvesters ∧
      ¬ c.Expires (m.nextTimestamp c) entry.1 entry.2

structure RotationInv (c : Selection) (accounts : AccountMap) (m : WeightedVotingCommitteeManagerV3) : Prop where
  keys : ∀ key, key ∈ m.accounts ↔ key ∈ accounts
  safe : ∃ (key : Key) (data : AccountData), m.accounts[key]? = some data ∧ c.Protected key data
  cosigners : m.committee.cosigners = ∅
  round : -1 ≤ m.committee.round
  first : m.committee.round < 0 → m.failedBlockProposers = ∅ ∧ m.ineligibleHarvesters = ∅
  later : 0 ≤ m.committee.round → m.committee.blockProposers ≠ []
  proposers : ∀ key ∈ m.committee.blockProposers, key ∈ m.accounts ∧ key ∉ m.ineligibleHarvesters
  ineligible : ∀ key ∈ m.ineligibleHarvesters, ∃ data, m.accounts[key]? = some data ∧
    c.isEligible m.timestamp key data = false
  rotation : c.config.enableHarvesterRotation →
    (∀ key ∈ m.failedBlockProposers, key ∈ m.accounts ∧ key ∉ m.ineligibleHarvesters) ∧
    (m.failedBlockProposers ≠ ∅ → (∀ key ∈ m.committee.blockProposers, key ∈ m.failedBlockProposers) ∧
      ∀ (key : Key) (data : AccountData), m.accounts[key]? = some data → key ∉ m.failedBlockProposers →
        key ∉ m.ineligibleHarvesters → c.isEligible m.timestamp key data)

def started (c : Selection) (m : WeightedVotingCommitteeManagerV3) (accounts : AccountMap) :
    WeightedVotingCommitteeManagerV2 where
  hashes := m.hashes
  accounts := accounts
  phaseTime := m.nextPhaseTime c
  timestamp := m.nextTimestamp c
  committee := { round := m.committee.round + 1, roundStart := m.nextTimestamp c }

lemma startRound_spec (hd : c.config.activityCommitteeNotCosignedDeltaInt ≠ int64Min)
    (hc : m.committee.cosigners = ∅) (hl : 0 ≤ m.committee.round → m.committee.blockProposers ≠ [])
    (hp : ∀ key ∈ m.committee.blockProposers, key ∈ m.accounts) :
    ∃ banned banPeriods accounts, Kept m.committee.blockProposers m.accounts accounts ∧
      m.banProposers c = ({ m with accounts := banned, banPeriods }, none) ∧
      WeightedVotingCommitteeManagerV2.startRound c
        { m.toWeightedVotingCommitteeManagerV2 with accounts := banned } = (m.started c accounts, none) := by
  rcases lt_or_ge m.committee.round 0 with hneg | hpos
  · refine ⟨m.accounts, m.banPeriods, m.accounts, .refl, ?_, ?_⟩
    · rw [banProposers, if_neg (not_le.mpr hneg)]
    · simp only [startRound, if_pos hneg, started]
  · obtain ⟨hban, hkept⟩ := c.banEach_kept m.banPeriods (List.Subset.refl m.committee.blockProposers) hp
    rcases hr : c.banEach m.committee.blockProposers (m.accounts, m.banPeriods) with ⟨⟨banned, banPeriods⟩, error⟩
    rw [hr] at hban hkept
    obtain ⟨hn, hlo⟩ := c.decreaseEach_kept hd (List.Subset.refl m.committee.blockProposers)
      (fun key hk => hkept.mem_iff.mpr (hp key hk))
    rcases hs : c.decreaseEach m.committee.blockProposers banned with ⟨accounts, error'⟩
    rw [hs] at hn hlo
    obtain rfl : error = none := hban
    obtain rfl : error' = none := hn
    refine ⟨banned, banPeriods, accounts, hkept.trans hlo, ?_, ?_⟩
    · rw [banProposers, if_pos hpos, hr]
    · have hemp : ascending (∅ : Finset Key) = [] := rfl
      simp only [startRound, if_neg (not_lt.mpr hpos), Selection.decreaseActivities, hc, if_neg (hl hpos), hemp,
        append_nil, hs]
      rfl

def scanOf (c : Selection) (m : WeightedVotingCommitteeManagerV3) (accounts : AccountMap) (order : List Key) : Scan :=
  (m.started c accounts).scanAccounts c order m.committee.round (m.filter c)

def scanned (c : Selection) (m : WeightedVotingCommitteeManagerV3) (accounts : AccountMap)
    (banPeriods : Std.ExtTreeMap Key ℕ) (order : List Key) : WeightedVotingCommitteeManagerV3 where
  toWeightedVotingCommitteeManagerV2 := { m.started c accounts with hashes := (m.scanOf c accounts order).hashes }
  failedBlockProposers := m.failedBlockProposers
  ineligibleHarvesters := m.ineligibleHarvesters ∪ (m.scanOf c accounts order).ineligible
  banPeriods := banPeriods

lemma selectCommittee_eq (order : List Key) (hd : c.config.activityCommitteeNotCosignedDeltaInt ≠ int64Min)
    (hc : m.committee.cosigners = ∅) (hl : 0 ≤ m.committee.round → m.committee.blockProposers ≠ [])
    (hp : ∀ key ∈ m.committee.blockProposers, key ∈ m.accounts) :
    ∃ accounts banPeriods, Kept m.committee.blockProposers m.accounts accounts ∧
      ((m.scanOf c accounts order).rates ≠ [] →
        m.selectCommittee c order = ((m.scanned c accounts banPeriods order).selectProposers c
          ((m.scanned c accounts banPeriods order).proposerKeys c
            (WeightedVotingCommitteeManagerV2.candidates c (m.scanOf c accounts order).rates)), none)) := by
  obtain ⟨banned, banPeriods, accounts, hkept, hban, hs⟩ := startRound_spec hd hc hl hp
  refine ⟨accounts, banPeriods, hkept, ?_⟩
  intro hr
  have hne : candidates c (m.scanOf c accounts order).rates ≠ [] :=
    fun h => hr (map_eq_nil_iff.mp h)
  simp only [selectCommittee, hban, getCandidates, hs]
  exact if_neg hne

end WeightedVotingCommitteeManagerV3

end XpxChain.WeightedVoting
