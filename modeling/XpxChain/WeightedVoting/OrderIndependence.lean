import XpxChain.WeightedVoting.Scan

/-! The committees do not depend on the order in which the hash table of the accounts is iterated. -/

namespace XpxChain.WeightedVoting

open Library OrderedContainers SortedTables WeightedVotingCommitteeManagerV2 List

namespace WeightedVotingCommitteeManagerV2

def rankedAccounts (c : Selection) (m : WeightedVotingCommitteeManagerV2) : List (ℤ × Key) :=
  let started := (m.startRound c).1
  (started.ratedKeys c m.committee.round (fun _ => true) started.accounts.keys).insertionSort
    fun a b => c.rateOf b.1 b.2 ≤ c.rateOf a.1 a.2

def members (committee : Committee) : Finset Key := insert committee.blockProposer committee.cosigners

variable {c : Selection} {m : WeightedVotingCommitteeManagerV2}

lemma electCommittee_spec {committeeCandidates : List (ℤ × Key)} (hn : (committeeCandidates.map Prod.snd).Nodup)
    (hk : ∀ entry ∈ committeeCandidates, entry.2 ∈ m.accounts) :
    ((m.electCommittee c committeeCandidates).2 = none ↔
        0 < c.networkConfig.committeeSize ∧ c.networkConfig.committeeSize ≤ committeeCandidates.length) ∧
      ((m.electCommittee c committeeCandidates).2 = none →
        members (m.electCommittee c committeeCandidates).1.committee =
          ((committeeCandidates.take c.networkConfig.committeeSize).map Prod.snd).toFinset) := by
  have hca : ((committeeCandidates.take c.networkConfig.committeeSize).map Prod.snd).toFinset.card =
      min c.networkConfig.committeeSize committeeCandidates.length := by
    rw [toFinset_card_of_nodup (((take_sublist _ _).map _).nodup hn), length_map, length_take]
  simp only [electCommittee]
  split
  next hnil =>
    subst hnil
    simp
    omega
  next hne =>
    split
    next hlt =>
      simp
      omega
    next hfu =>
      split
      next hemp =>
        refine ⟨iff_of_false (by simp) ?_, fun h => absurd h (by simp)⟩
        rintro ⟨hpos, hle⟩
        refine blockProposerCandidates_ne_nil ?_ ?_ hemp
        · intro key hkey
          obtain ⟨entry, he, rfl⟩ := mem_map.mp hkey
          exact hk entry (mem_of_mem_take he)
        · intro hnil
          have hlen := congrArg length hnil
          rw [length_map, length_take, length_nil] at hlen
          omega
      next rate blockProposer rest hf =>
        have hmem : blockProposer ∈ (committeeCandidates.take c.networkConfig.committeeSize).map Prod.snd :=
          (blockProposerCandidates_subperm).subset (by rw [hf]; exact mem_cons_self)
        have hpos : 0 < c.networkConfig.committeeSize := by
          rw [Nat.pos_iff_ne_zero]
          intro hz
          rw [hz] at hmem
          contradiction
        refine ⟨iff_of_true rfl ⟨hpos, by omega⟩, fun _ => ?_⟩
        exact Finset.insert_erase (mem_toFinset.mpr hmem)

end WeightedVotingCommitteeManagerV2

section

variable {c : Selection} (hc : ∀ value, Function.Injective (c.rating.hashOfRate value))
include hc

lemma nodup_rates {rates : List (ℤ × Key)} (hn : rates.Nodup) :
    (rates.map fun entry => OrderDual.toDual (c.rateOf entry.1 entry.2)).Nodup :=
  hn.map (OrderDual.toDual.injective.comp (Selection.rateOf_injective hc))

namespace WeightedVotingCommitteeManagerV2

lemma candidates_congr {r₁ r₂ : List (ℤ × Key)} (hn : r₁.Nodup) (hp : r₁.Perm r₂) : candidates c r₁ = candidates c r₂ :=
  map_eq_of_perm (nodup_rates hc hn) hp

variable {m : WeightedVotingCommitteeManagerV2} {rates : List (ℤ × Key)} {order : List Key}

lemma selectCommittee_congr {o₁ o₂ : List Key} (hn : o₁.Nodup) (hp : o₁.Perm o₂) :
    m.selectCommittee c o₁ = m.selectCommittee c o₂ := by
  unfold selectCommittee getCandidates
  match m.startRound c with
  | (started, some error) => rfl
  | (started, none) =>
    have hs : SameScan (started.scanAccounts c o₁ m.committee.round fun _ => true)
      (started.scanAccounts c o₂ m.committee.round fun _ => true) := sameScan_of_perm hn hp
    have hcut := candidates_congr hc (cut_sublist.nodup hs.nodup)
      (cut_perm c.networkConfig.committeeSize hs.sorted₁ hs.sorted₂ hs.rates)
    simp only [hs.hashes, hcut]

lemma candidates_perm (hn : rates.Nodup) : (candidates c rates).Perm rates :=
  map_perm (nodup_rates hc hn)

lemma take_candidates_cut (size : ℕ) (hn : rates.Nodup)
    (hs : rates.Pairwise (fun a b => OrderDual.toDual a.1 ≤ OrderDual.toDual b.1)) :
    (candidates c (cut (fun entry => OrderDual.toDual entry.1) size rates)).take size =
      (candidates c rates).take size := by
  refine take_map_cut hs ?_ (nodup_rates hc hn)
  intro a b hab
  rcases Prod.Lex.le_iff.mp (OrderDual.toDual_le_toDual.mp hab) with hlt | ⟨heq, -⟩
  · exact OrderDual.toDual_le_toDual.mpr hlt.le
  · exact OrderDual.toDual_le_toDual.mpr heq.le

lemma electCommittee_cut (hs : rates.Pairwise (fun a b => OrderDual.toDual a.1 ≤ OrderDual.toDual b.1))
    (hn : (rates.map Prod.snd).Nodup) (hk : ∀ entry ∈ rates, entry.2 ∈ m.accounts) :
    ((m.electCommittee c (candidates c
      (cut (fun entry => OrderDual.toDual entry.1) c.networkConfig.committeeSize rates))).2 = none ↔
      0 < c.networkConfig.committeeSize ∧ c.networkConfig.committeeSize ≤ (candidates c rates).length) ∧
    ((m.electCommittee c (candidates c
      (cut (fun entry => OrderDual.toDual entry.1) c.networkConfig.committeeSize rates))).2 = none →
      members (m.electCommittee c (candidates c (cut (fun entry => OrderDual.toDual entry.1)
          c.networkConfig.committeeSize rates))).1.committee =
        (((candidates c rates).take c.networkConfig.committeeSize).map Prod.snd).toFinset) := by
  have ht := take_candidates_cut hc c.networkConfig.committeeSize hn.of_map hs
  have hp : (candidates c (cut (fun entry => OrderDual.toDual entry.1) c.networkConfig.committeeSize rates)).Perm
      (cut (fun entry => OrderDual.toDual entry.1) c.networkConfig.committeeSize rates) :=
    candidates_perm hc (cut_sublist.nodup hn.of_map)
  obtain ⟨hno, hm⟩ := electCommittee_spec ((hp.map Prod.snd).nodup_iff.mpr ((cut_sublist.map Prod.snd).nodup hn))
    (fun entry he => hk entry (cut_sublist.subset (hp.mem_iff.mp he)))
  have hlen := congrArg length ht
  rw [length_take, length_take] at hlen
  rw [ht] at hm
  refine ⟨hno.trans (and_congr_right fun _ => ?_), hm⟩
  omega

lemma candidates_eq_insertionSort (hn : rates.Nodup) :
    candidates c rates = rates.insertionSort fun a b => c.rateOf b.1 b.2 ≤ c.rateOf a.1 a.2 := by
  have hk := nodup_rates hc hn
  exact eq_of_perm_of_sorted (((map_perm hk).map _).nodup_iff.mpr hk)
    ((map_perm hk).trans (perm_insertionSort _ _).symm) (map_sorted hk) (pairwise_insertionSort _ _)

lemma candidates_scan (ho : IsIterationOrder order m.accounts) :
    candidates c ((m.startRound c).1.scanAccounts c order m.committee.round fun _ => true).rates =
      m.rankedAccounts c := by
  have hk := isIterationOrder_keys (m.startRound c).1.accounts
  have ho' : IsIterationOrder order (m.startRound c).1.accounts :=
    ⟨ho.1, fun key => (ho.2 key).trans mem_startRound.symm⟩
  have hr : ((m.startRound c).1.scanAccounts c order m.committee.round fun _ => true).rates.Perm
      ((m.startRound c).1.ratedKeys c m.committee.round (fun _ => true) (m.startRound c).1.accounts.keys) :=
    (scan_rates_perm c _ _ _ ho.1).trans ((ho'.perm hk).filterMap _)
  rw [candidates_congr hc (hr.nodup_iff.mpr (nodup_ratedKeys hk.1)) hr,
    candidates_eq_insertionSort hc (nodup_ratedKeys hk.1), rankedAccounts]

lemma selectCommittee_spec (ho : IsIterationOrder order m.accounts) :
    ((m.selectCommittee c order).2 = none ↔ (m.startRound c).2 = none ∧ 0 < c.networkConfig.committeeSize ∧
        c.networkConfig.committeeSize ≤ (m.rankedAccounts c).length) ∧
      ((m.selectCommittee c order).2 = none → members (m.selectCommittee c order).1.committee =
        (((m.rankedAccounts c).take c.networkConfig.committeeSize).map Prod.snd).toFinset) := by
  have hr := candidates_scan hc ho
  unfold selectCommittee getCandidates
  rcases hs : m.startRound c with ⟨started, _ | error⟩
  · rw [hs] at hr
    have hra := scan_rates_perm c started m.committee.round (fun _ => true) ho.1
    have hmem := fun entry he => mem_accounts_of_mem_ratedKeys (hra.mem_iff (a := entry).mp he)
    have hel := electCommittee_cut hc
      (m := { started with hashes := (started.scanAccounts c order m.committee.round fun _ => true).hashes })
      (scan_rates_sorted ho.1) ((hra.map Prod.snd).nodup_iff.mpr (nodup_keys_ratedKeys ho.1)) hmem
    rw [hr] at hel
    exact ⟨hel.1.trans (iff_and_self.mpr fun _ => rfl), hel.2⟩
  · exact ⟨iff_of_false (by simp) (by simp), fun h => absurd h (by simp)⟩

end WeightedVotingCommitteeManagerV2

namespace WeightedVotingCommitteeManagerV3

lemma selectCommittee_congr {m : WeightedVotingCommitteeManagerV3} {o₁ o₂ : List Key} (hn : o₁.Nodup)
    (hp : o₁.Perm o₂) : m.selectCommittee c o₁ = m.selectCommittee c o₂ := by
  unfold selectCommittee
  match m.banProposers c with
  | (m, some error) => rfl
  | (m, none) =>
    simp only [getCandidates]
    match m.startRound c with
    | (started, some error) => rfl
    | (started, none) =>
      have hs : WeightedVotingCommitteeManagerV2.SameScan (started.scanAccounts c o₁ m.committee.round (m.filter c))
          (started.scanAccounts c o₂ m.committee.round (m.filter c)) :=
        sameScan_of_perm hn hp
      have hca := candidates_congr hc hs.nodup hs.rates
      simp only [hs.hashes, hs.ineligible, hca]

end WeightedVotingCommitteeManagerV3

end

theorem selectCommittee_order_independent {c : Selection}
    (hc : ∀ value, Function.Injective (c.rating.hashOfRate value)) :
    (∀ (m : WeightedVotingCommitteeManagerV2) (o₁ o₂ : List Key), IsIterationOrder o₁ m.accounts →
        IsIterationOrder o₂ m.accounts → m.selectCommittee c o₁ = m.selectCommittee c o₂) ∧
      (∀ (m : WeightedVotingCommitteeManagerV3) (o₁ o₂ : List Key), IsIterationOrder o₁ m.accounts →
        IsIterationOrder o₂ m.accounts → m.selectCommittee c o₁ = m.selectCommittee c o₂) ∧
      ∀ (m : WeightedVotingCommitteeManagerV2) (order : List Key), IsIterationOrder order m.accounts →
        ((m.selectCommittee c order).2 = none ↔ (m.startRound c).2 = none ∧ 0 < c.networkConfig.committeeSize ∧
            c.networkConfig.committeeSize ≤ (m.rankedAccounts c).length) ∧ ((m.selectCommittee c order).2 = none →
            WeightedVotingCommitteeManagerV2.members (m.selectCommittee c order).1.committee =
              (((m.rankedAccounts c).take c.networkConfig.committeeSize).map Prod.snd).toFinset) := by
  refine ⟨?_, ?_, ?_⟩
  · intro m o₁ o₂ h₁ h₂
    exact selectCommittee_congr hc h₁.1 (h₁.perm h₂)
  · intro m o₁ o₂ h₁ h₂
    exact WeightedVotingCommitteeManagerV3.selectCommittee_congr hc h₁.1 (h₁.perm h₂)
  · intro m order ho
    exact selectCommittee_spec hc ho

def tiedManager : WeightedVotingCommitteeManagerV2 where
  accounts := harvesters [(1, 5000), (2, 5000), (3, 5000), (4, 5000)]

theorem selectCommittee_order_independent_tied : tiedManager.selectCommittee .level tiedManager.accounts.keys =
        tiedManager.selectCommittee .level tiedManager.accounts.keys.reverse ∧ WeightedVotingCommitteeManagerV2.members
        (tiedManager.selectCommittee .level tiedManager.accounts.keys.reverse).1.committee = {3, 4} := by
  have hkeys := isIterationOrder_keys tiedManager.accounts
  have hreverse : IsIterationOrder tiedManager.accounts.keys.reverse tiedManager.accounts :=
    ⟨nodup_reverse.mpr hkeys.1, fun key => mem_reverse.trans (hkeys.2 key)⟩
  obtain ⟨hsame, -, hmembers⟩ := selectCommittee_order_independent (c := .level) fun _ => Function.injective_id
  refine ⟨hsame tiedManager _ _ hkeys hreverse, ((hmembers tiedManager _ hreverse).2 ?_).trans ?_⟩
  · decide +kernel
  · decide +kernel

end XpxChain.WeightedVoting
