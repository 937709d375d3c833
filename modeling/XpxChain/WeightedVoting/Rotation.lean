import XpxChain.WeightedVoting.RoundStart

/-! The rotation of block proposers in `WeightedVotingCommitteeManagerV3` over consecutive rounds. -/

namespace XpxChain.WeightedVoting

open Library OrderedContainers SortedTables Runs WeightedVotingCommitteeManagerV2 Finset List

namespace WeightedVotingCommitteeManagerV3

variable {c : Selection} {m : WeightedVotingCommitteeManagerV3} {order : List Key}

section

variable {accounts : AccountMap}

def IsCandidate (c : Selection) (m : WeightedVotingCommitteeManagerV3) (accounts : AccountMap) (key : Key) : Prop :=
  ∃ data, accounts[key]? = some data ∧ m.filter c key ∧ c.isEligible (m.nextTimestamp c) key data

variable {key : Key}

lemma IsCandidate.mem (h : m.IsCandidate c accounts key) : key ∈ accounts := by
  obtain ⟨data, hd, -⟩ := h
  exact mem_keySet.mp (mem_keySet_iff.mpr ⟨data, hd⟩)

lemma mem_keys_rates (ho : IsIterationOrder order accounts) :
    key ∈ (m.scanOf c accounts order).rates.map Prod.snd ↔ m.IsCandidate c accounts key := by
  have hp := scan_rates_perm c (m.started c accounts) m.committee.round (m.filter c) ho.1
  rw [scanOf, (hp.map Prod.snd).mem_iff, mem_keys_ratedKeys]
  exact and_iff_right_of_imp fun h => (ho.2 key).mpr (IsCandidate.mem h)

lemma nodup_keys_rates (ho : IsIterationOrder order accounts) :
    ((m.scanOf c accounts order).rates.map Prod.snd).Nodup :=
  ((scan_rates_perm c _ _ _ ho.1).map Prod.snd).nodup_iff.mpr (nodup_keys_ratedKeys ho.1)

lemma mem_scanOf_ineligible (ho : IsIterationOrder order accounts) :
    key ∈ (m.scanOf c accounts order).ineligible ↔ ∃ data, accounts[key]? = some data ∧ m.filter c key ∧
      c.isEligible (m.nextTimestamp c) key data = false := by
  rw [scanOf, mem_scan_ineligible ho.1]
  refine and_iff_right_of_imp ?_
  rintro ⟨data, hd, -⟩
  exact (ho.2 key).mpr (mem_keySet.mp (mem_keySet_iff.mpr ⟨data, hd⟩))

lemma proposerKeys_spec (banPeriods : Std.ExtTreeMap Key ℕ) (ho : IsIterationOrder order accounts)
    (hr : (m.scanOf c accounts order).rates ≠ []) :
    let keys := (m.scanned c accounts banPeriods order).proposerKeys c
      (candidates c (m.scanOf c accounts order).rates)
    keys.Nodup ∧ keys ≠ [] ∧ ∀ key ∈ keys, m.IsCandidate c accounts key := by
  intro keys
  have hc : ((candidates c (m.scanOf c accounts order).rates).map
      Prod.snd).Subperm ((m.scanOf c accounts order).rates.map Prod.snd) := map_map_subperm Prod.snd
  have hne : (candidates c (m.scanOf c accounts order).rates).map Prod.snd ≠ [] := by
    rw [Ne, map_eq_nil_iff]
    exact fun h => hr (map_eq_nil_iff.mp h)
  have hk : keys.Subperm ((m.scanOf c accounts order).rates.map Prod.snd) ∧ keys ≠ [] := by
    simp only [keys, proposerKeys]
    split
    next => exact ⟨hc, hne⟩
    next =>
      refine ⟨blockProposerCandidates_subperm.trans hc, ?_⟩
      rw [Ne, map_eq_nil_iff]
      refine blockProposerCandidates_ne_nil ?_ hne
      intro key hkey
      exact ((mem_keys_rates ho).mp (hc.subset hkey)).mem
  obtain ⟨l, hp, hsub⟩ := hk.1
  refine ⟨hp.nodup_iff.mp (hsub.nodup (nodup_keys_rates ho)), hk.2, ?_⟩
  intro key hkey
  exact (mem_keys_rates ho).mp (hk.1.subset hkey)

lemma filter_of_not_mem (h : c.config.enableHarvesterRotation → key ∉ m.failedBlockProposers) : m.filter c key :=
  decide_eq_true (not_and.mpr h)

lemma not_mem_of_filter (hrot : c.config.enableHarvesterRotation) (h : m.filter c key) : key ∉ m.failedBlockProposers :=
  not_and.mp (of_decide_eq_true h) hrot

lemma timestamp_le (hr : 0 ≤ m.committee.round) : m.timestamp ≤ m.nextTimestamp c := by
  rw [nextTimestamp, if_neg (not_lt.mpr hr)]
  exact Nat.le_add_right _ _

lemma blockProposers_selectProposers {keys : List Key} : (m.selectProposers c keys).committee.blockProposers =
    keys.take c.networkConfig.harvestersQueueSize := by
  simp only [selectProposers, queueProposers_fst]
  simp

namespace RotationInv

variable {all : AccountMap} (hm : RotationInv c all m) (hkept : Kept m.committee.blockProposers m.accounts accounts)
include hm hkept

lemma exists_candidate (hu : m.HasUntried c) : ∃ key, m.IsCandidate c accounts key := by
  by_cases hrot : c.config.enableHarvesterRotation ∧ m.failedBlockProposers ≠ ∅
  · obtain ⟨hp, he⟩ := (hm.rotation hrot.1).2 hrot.2
    obtain ⟨⟨key, data⟩, hent, hf, hi, hex⟩ := hu hrot.1 hrot.2
    have hd := Std.ExtTreeMap.mem_toList_iff_getElem?_eq_some.mp hent
    refine ⟨key, data, ?_, filter_of_not_mem fun _ => hf, ?_⟩
    · rw [hkept.outside key fun h => hf (hp key h), hd]
    · have hnow := he key data hd hf hi
      exact Selection.isEligible_iff.mpr ⟨(Selection.isEligible_iff.mp hnow).1, hex⟩
  · obtain ⟨key, data, hd, hpr⟩ := hm.safe
    obtain ⟨data', hd', hpr⟩ := hkept.exists_protected hd hpr
    refine ⟨key, data', hd', filter_of_not_mem fun h => ?_, hpr.isEligible⟩
    rw [not_and_or, not_not] at hrot
    rw [hrot.resolve_left (not_not.mpr h)]
    exact notMem_empty key

variable {key : Key}

lemma stays_ineligible (hkey : key ∈ m.ineligibleHarvesters) :
    ∃ data, accounts[key]? = some data ∧ c.isEligible (m.nextTimestamp c) key data = false := by
  obtain ⟨data, hd, hno⟩ := hm.ineligible key hkey
  have hr : 0 ≤ m.committee.round := by
    by_contra hneg
    rw [(hm.first (not_le.mp hneg)).2] at hkey
    exact notMem_empty key hkey
  refine ⟨data, ?_, ?_⟩
  · rw [hkept.outside key fun h => (hm.proposers key h).2 hkey, hd]
  · rw [Bool.eq_false_iff] at hno ⊢
    exact fun h => hno (Selection.isEligible_of_le (timestamp_le hr) h)

lemma not_mem_ineligible (ho : IsIterationOrder order accounts) (hkey : m.IsCandidate c accounts key) :
    key ∉ m.ineligibleHarvesters ∪ (m.scanOf c accounts order).ineligible := by
  obtain ⟨data, hd, -, he⟩ := hkey
  rw [mem_union, not_or]
  constructor
  · intro hin
    obtain ⟨other, hoth, hno⟩ := hm.stays_ineligible hkept hin
    rw [hd] at hoth
    cases hoth
    simp [he] at hno
  · intro hin
    obtain ⟨other, hoth, -, hno⟩ := (mem_scanOf_ineligible ho).mp hin
    rw [hd] at hoth
    cases hoth
    simp [he] at hno

omit hkept in
lemma failed_not_mem_ineligible (hrot : c.config.enableHarvesterRotation)
    (ho : IsIterationOrder order accounts) (hkey : key ∈ m.failedBlockProposers) :
    key ∉ m.ineligibleHarvesters ∪ (m.scanOf c accounts order).ineligible := by
  rw [mem_union, not_or]
  refine ⟨((hm.rotation hrot).1 key hkey).2, ?_⟩
  intro hin
  obtain ⟨data, -, hf, -⟩ := (mem_scanOf_ineligible ho).mp hin
  exact not_mem_of_filter hrot hf hkey

lemma queue_cases (banPeriods : Std.ExtTreeMap Key ℕ) (hrot : c.config.enableHarvesterRotation)
    (ho : IsIterationOrder order accounts) {keys : List Key} (hn : keys.Nodup)
    (hk : ∀ key ∈ keys, m.IsCandidate c accounts key) :
    ((m.scanned c accounts banPeriods order).selectProposers c keys).failedBlockProposers = ∅ ∨
      ((m.scanned c accounts banPeriods order).selectProposers c keys).failedBlockProposers =
        m.failedBlockProposers ∪ (keys.take c.networkConfig.harvestersQueueSize).toFinset := by
  have hsz := card_keySet accounts
  have hmem : ∀ key data, accounts[key]? = some data → key ∈ keySet accounts :=
    fun key data h => mem_keySet_iff.mpr ⟨data, h⟩
  have hq := queueProposers_snd c.networkConfig.harvestersQueueSize [] (keySet accounts)
    (m.ineligibleHarvesters ∪ (m.scanOf c accounts order).ineligible) m.failedBlockProposers hn ?_ ?_ ?_ ?_
  · rw [hsz] at hq
    exact hq
  · intro key hkey
    obtain ⟨data, hd, hf, -⟩ := hk key hkey
    exact ⟨hmem key data hd, not_mem_of_filter hrot hf, hm.not_mem_ineligible hkept ho (hk key hkey)⟩
  · intro key hkey
    exact mem_keySet.mpr (hkept.mem_iff.mpr ((hm.rotation hrot).1 key hkey).1)
  · refine union_subset ?_ ?_
    · intro key hkey
      obtain ⟨data, hd, -⟩ := hm.stays_ineligible hkept hkey
      exact hmem key data hd
    · intro key hkey
      obtain ⟨data, hd, -⟩ := (mem_scanOf_ineligible ho).mp hkey
      exact hmem key data hd
  · exact disjoint_left.mpr fun key hkey => hm.failed_not_mem_ineligible hrot ho hkey

lemma rotation_selectProposers (banPeriods : Std.ExtTreeMap Key ℕ) (hrot : c.config.enableHarvesterRotation)
    (ho : IsIterationOrder order accounts) {keys : List Key} (hn : keys.Nodup)
    (hk : ∀ key ∈ keys, m.IsCandidate c accounts key) :
    let after := (m.scanned c accounts banPeriods order).selectProposers c keys
    (∀ key ∈ after.failedBlockProposers, key ∈ accounts ∧ key ∉ after.ineligibleHarvesters) ∧
      (after.failedBlockProposers ≠ ∅ → (∀ key ∈ after.committee.blockProposers, key ∈ after.failedBlockProposers) ∧
        ∀ (key : Key) (data : AccountData), accounts[key]? = some data → key ∉ after.failedBlockProposers →
          key ∉ after.ineligibleHarvesters → c.isEligible (m.nextTimestamp c) key data) := by
  intro after
  have hi : after.ineligibleHarvesters = m.ineligibleHarvesters ∪ (m.scanOf c accounts order).ineligible := rfl
  rw [hi]
  rcases hm.queue_cases hkept banPeriods hrot ho hn hk with hf | hf
  · rw [hf]
    exact ⟨fun key hkey => absurd hkey (notMem_empty key), fun h => absurd rfl h⟩
  · rw [hf]
    refine ⟨?_, fun _ => ⟨?_, ?_⟩⟩
    · intro key hkey
      rcases mem_union.mp hkey with hkey | hkey
      · exact ⟨hkept.mem_iff.mpr ((hm.rotation hrot).1 key hkey).1, hm.failed_not_mem_ineligible hrot ho hkey⟩
      · have hcand := hk key (mem_of_mem_take (mem_toFinset.mp hkey))
        exact ⟨hcand.mem, hm.not_mem_ineligible hkept ho hcand⟩
    · intro key hkey
      rw [blockProposers_selectProposers] at hkey
      exact mem_union_right _ (mem_toFinset.mpr hkey)
    · intro key data hdata hnot hin
      rw [mem_union, not_or] at hnot hin
      by_contra hno
      rw [Bool.not_eq_true] at hno
      exact hin.2 ((mem_scanOf_ineligible ho).mpr ⟨data, hdata, filter_of_not_mem fun _ => hnot.1, hno⟩)

lemma selectProposers (banPeriods : Std.ExtTreeMap Key ℕ) (hq : 0 < c.networkConfig.harvestersQueueSize)
    (ho : IsIterationOrder order accounts) {keys : List Key} (hn : keys.Nodup) (hne : keys ≠ [])
    (hk : ∀ key ∈ keys, m.IsCandidate c accounts key) :
    RotationInv c all ((m.scanned c accounts banPeriods order).selectProposers c keys) := by
  have hround := hm.round
  have hro : ((m.scanned c accounts banPeriods order).selectProposers c keys).committee.round = m.committee.round + 1 :=
    rfl
  constructor
  case keys => exact fun key => hkept.mem_iff.trans (hm.keys key)
  case safe =>
    obtain ⟨key, data, hdata, hpr⟩ := hm.safe
    obtain ⟨data', hdata', hpr⟩ := hkept.exists_protected hdata hpr
    exact ⟨key, data', hdata', hpr⟩
  case cosigners => rfl
  case round => omega
  case first => omega
  case later =>
    intro _
    rw [blockProposers_selectProposers, Ne, take_eq_nil_iff, not_or]
    exact ⟨hq.ne', hne⟩
  case proposers =>
    intro key hkey
    rw [blockProposers_selectProposers] at hkey
    have hcand := hk key (mem_of_mem_take hkey)
    exact ⟨hcand.mem, hm.not_mem_ineligible hkept ho hcand⟩
  case ineligible =>
    intro key hkey
    rcases mem_union.mp hkey with hkey | hkey
    · exact hm.stays_ineligible hkept hkey
    · obtain ⟨data, hdata, -, hno⟩ := (mem_scanOf_ineligible ho).mp hkey
      exact ⟨data, hdata, hno⟩
  case rotation => exact fun hrot => hm.rotation_selectProposers hkept banPeriods hrot ho hn hk

end RotationInv

end

lemma RotationInv.next {all : AccountMap} (hm : RotationInv c all m)
    (hd : c.config.activityCommitteeNotCosignedDeltaInt ≠ int64Min) (hq : 0 < c.networkConfig.harvestersQueueSize)
    (ho : IsIterationOrder order all) (hu : m.HasUntried c) :
    m.Selects c order ∧ RotationInv c all (m.next c order) := by
  obtain ⟨accounts, banPeriods, hkept, heq⟩ := selectCommittee_eq order hd hm.cosigners hm.later
    fun key hkey => (hm.proposers key hkey).1
  have hmem : ∀ key, key ∈ accounts ↔ key ∈ all := fun key => hkept.mem_iff.trans (hm.keys key)
  have ho' : IsIterationOrder order accounts := ⟨ho.1, fun key => (ho.2 key).trans (hmem key).symm⟩
  obtain ⟨key, hkey⟩ := hm.exists_candidate hkept hu
  have hr : (m.scanOf c accounts order).rates ≠ [] := by
    intro hnil
    have hrated := (mem_keys_rates ho').mpr hkey
    rw [hnil] at hrated
    contradiction
  obtain ⟨hn, hne, hke⟩ := proposerKeys_spec banPeriods ho' hr
  have hsel := heq hr
  rw [Selects, WeightedVotingCommitteeManagerV3.next, hsel]
  refine ⟨⟨rfl, ?_⟩, hm.selectProposers hkept banPeriods hq ho' hn hne hke⟩
  rw [blockProposers_selectProposers, Ne, take_eq_nil_iff, not_or]
  exact ⟨hq.ne', hne⟩

lemma rotationInv_reset {accounts : AccountMap} (hs : ∃ entry ∈ accounts.toList, c.Protected entry.1 entry.2) :
    RotationInv c accounts (m.reset accounts) := by
  obtain ⟨⟨key, data⟩, hent, hp⟩ := hs
  constructor
  case keys => exact fun key => Iff.rfl
  case safe => exact ⟨key, data, Std.ExtTreeMap.mem_toList_iff_getElem?_eq_some.mp hent, hp⟩
  case cosigners => rfl
  case round => exact le_rfl
  case first => exact fun _ => ⟨rfl, rfl⟩
  case later => exact fun h => absurd h (by decide : ¬ (0 : ℤ) ≤ -1)
  case proposers => exact fun key hkey => absurd hkey not_mem_nil
  case ineligible => exact fun key hkey => absurd hkey (notMem_empty key)
  case rotation => exact fun _ => ⟨fun key hkey => absurd hkey (notMem_empty key), fun h => absurd rfl h⟩

theorem never_runs_dry {accounts : AccountMap} {orders : List (List Key)}
    (hs : ∃ entry ∈ accounts.toList, c.Protected entry.1 entry.2)
    (hd : c.config.activityCommitteeNotCosignedDeltaInt ≠ int64Min) (hq : 0 < c.networkConfig.harvestersQueueSize)
    (ho : ∀ order ∈ orders, IsIterationOrder order accounts)
    (h : Always (next c) (m.reset accounts) (fun _ m _ => m.HasUntried c) orders) :
    Always (next c) (m.reset accounts) (fun _ m order => m.Selects c order) orders := by
  have hboth : Always (next c) (m.reset accounts) (fun _ m order => IsIterationOrder order accounts ∧
      m.HasUntried c) orders := by
    intro past order rest horders
    exact ⟨ho order (by simp [horders]), h past order rest horders⟩
  refine always_of_invariant (fun _ m => RotationInv c accounts m) (rotationInv_reset hs) ?_ ?_ hboth
  · intro _ m order hm hx
    exact (hm.next hd hq hx.1 hx.2).2
  · intro _ m order hm hx
    exact (hm.next hd hq hx.1 hx.2).1

deriving instance Decidable for HasUntried, Selects

def twoHarvesters (expirationTime : Timestamp) : AccountMap := harvesters [(2, expirationTime), (4, 0)]

def resetManager (accounts : AccountMap) : WeightedVotingCommitteeManagerV3 :=
  reset { accounts := ∅ } accounts

theorem never_runs_dry_twoHarvesters :
    Always (next .level) (resetManager (twoHarvesters 5000)) (fun _ m order => m.Selects .level order)
      (List.replicate 5 (twoHarvesters 5000).keys) := by
  refine never_runs_dry (by decide +kernel) (by decide) (by decide) ?_ (by decide +kernel)
  intro order ho
  rw [eq_of_mem_replicate ho]
  exact isIterationOrder_keys _

theorem not_never_runs_dry : (∃ entry ∈ (twoHarvesters 1100).toList, entry.2.canHarvest ∧
        entry.1 ∈ Selection.level.networkConfig.bootstrapHarvesters) ∧
      ¬ Always (next .level) (resetManager (twoHarvesters 1100)) (fun _ m order => m.Selects .level order)
        (List.replicate 2 (twoHarvesters 1100).keys) := by
  decide +kernel

end WeightedVotingCommitteeManagerV3

end XpxChain.WeightedVoting
