import XpxChain.WeightedVoting.Managers

/-! What `getCandidates` finds, without the order in which it iterates the accounts, and which accounts stay eligible.
-/

namespace XpxChain.WeightedVoting

open Library OrderedContainers SortedTables Std.ExtTreeMap Option

lemma IsIterationOrder.perm {o₁ o₂ : List Key} {accounts : AccountMap} (h₁ : IsIterationOrder o₁ accounts)
    (h₂ : IsIterationOrder o₂ accounts) : o₁.Perm o₂ :=
  (List.perm_ext_iff_of_nodup h₁.1 h₂.1).mpr fun key => (h₁.2 key).trans (h₂.2 key).symm

lemma isIterationOrder_keys (accounts : AccountMap) : IsIterationOrder accounts.keys accounts := by
  refine ⟨?_, fun key => mem_keys⟩
  simpa only [List.Nodup, ne_eq, Std.compare_eq_iff_eq] using accounts.distinct_keys

namespace Selection

variable {c : Selection} {accounts : AccountMap}

lemma rateOf_injective (hc : ∀ value, Function.Injective (c.rating.hashOfRate value)) :
    Function.Injective fun entry : ℤ × Key => c.rateOf entry.1 entry.2 := by
  rintro ⟨value, key⟩ ⟨other, key'⟩ h
  obtain ⟨rfl, hh⟩ := Prod.mk.inj (toLex.injective h)
  exact Prod.ext rfl (hc value hh)

lemma mem_decreaseActivity {key other : Key} {accounts' : AccountMap}
    (h : c.decreaseActivity key accounts = .ok accounts') : other ∈ accounts' ↔ other ∈ accounts := by
  unfold decreaseActivity at h
  split at h
  next => contradiction
  next data hd =>
    split at h
    next => contradiction
    next =>
      cases h
      have hmem : key ∈ accounts := mem_iff_isSome_getElem?.mpr (by simp [hd])
      rw [mem_insert, Std.compare_eq_iff_eq]
      exact or_iff_right_of_imp fun h => h ▸ hmem

lemma mem_decreaseEach {keys : List Key} {other : Key} :
    other ∈ (c.decreaseEach keys accounts).1 ↔ other ∈ accounts := by
  induction keys generalizing accounts with
  | nil => rfl
  | cons key keys ih =>
    rw [decreaseEach]
    split
    next => rfl
    next accounts' h => exact ih.trans (mem_decreaseActivity h)

lemma mem_decreaseActivities (committee : Committee) (accounts : AccountMap) (other : Key) :
    other ∈ (c.decreaseActivities committee accounts).1 ↔ other ∈ accounts :=
  mem_decreaseEach

end Selection

namespace WeightedVotingCommitteeManagerV2

variable {c : Selection} {m : WeightedVotingCommitteeManagerV2} {order : List Key} {previousRound : ℤ}
  {filter : Key → Bool}

def rated (c : Selection) (m : WeightedVotingCommitteeManagerV2) (previousRound : ℤ) (filter : Key → Bool)
    (key : Key) : Option (ℤ × Hash256) :=
  match m.accounts[key]? with
  | none => none
  | some data =>
    if filter key && c.isEligible m.timestamp key data then
      let hash := nextHash c previousRound key (m.hashes.getD key 0)
      some (c.accountRate data hash, hash)
    else none

def ratedKeys (c : Selection) (m : WeightedVotingCommitteeManagerV2) (previousRound : ℤ) (filter : Key → Bool)
    (keys : List Key) : List (ℤ × Key) :=
  keys.filterMap fun key => (m.rated c previousRound filter key).map fun r => (r.1, key)

def rejected (c : Selection) (m : WeightedVotingCommitteeManagerV2) (filter : Key → Bool) (key : Key) : Bool :=
  m.accounts[key]?.any fun data => filter key && !c.isEligible m.timestamp key data

variable {scan : Scan} {key : Key} {keys : List Key}

lemma visit_eq (h : scan.hashes[key]? = m.hashes[key]?) : m.visit c previousRound filter scan key =
      { hashes := insertSome (fun key => (m.rated c previousRound filter key).map Prod.snd) scan.hashes key
        rates := (m.ratedKeys c previousRound filter [key]).foldl
          (fun rates entry => emplace (fun entry => OrderDual.toDual entry.1) entry rates) scan.rates
        ineligible := scan.ineligible ∪ ([key].filter (m.rejected c filter)).toFinset } := by
  have hd : scan.hashes.getD key 0 = m.hashes.getD key 0 := by
    rw [getD_eq_getD_getElem?, getD_eq_getD_getElem?, h]
  cases hda : m.accounts[key]? with
  | none => simp [visit, rated, ratedKeys, rejected, insertSome, hda]
  | some data =>
    cases hf : filter key with
    | false => simp [visit, rated, ratedKeys, rejected, insertSome, hda, hf]
    | true =>
      cases he : c.isEligible m.timestamp key data with
      | false => simp [visit, rated, ratedKeys, rejected, insertSome, hda, hf, he]
      | true => simp [visit, rated, ratedKeys, rejected, insertSome, hda, hf, he, hd]

lemma foldl_visit (hn : order.Nodup) (hs : ∀ key ∈ order, scan.hashes[key]? = m.hashes[key]?) :
    order.foldl (m.visit c previousRound filter) scan =
      { hashes := order.foldl (insertSome fun key => (m.rated c previousRound filter key).map Prod.snd) scan.hashes
        rates := (m.ratedKeys c previousRound filter order).foldl
          (fun rates entry => emplace (fun entry => OrderDual.toDual entry.1) entry rates) scan.rates
        ineligible := scan.ineligible ∪ (order.filter (m.rejected c filter)).toFinset } := by
  induction order generalizing scan with
  | nil => simp [ratedKeys]
  | cons key order ih =>
    obtain ⟨hkey, hn⟩ := List.nodup_cons.mp hn
    rw [List.foldl_cons, visit_eq (hs key List.mem_cons_self), ih hn]
    · have hra : m.ratedKeys c previousRound filter (key :: order) =
          m.ratedKeys c previousRound filter [key] ++ m.ratedKeys c previousRound filter order :=
        List.filterMap_append (l := [key])
      have hr : (key :: order).filter (m.rejected c filter) =
          [key].filter (m.rejected c filter) ++ order.filter (m.rejected c filter) := List.filter_append [key] order
      rw [hra, hr, List.foldl_append, List.toFinset_append, Finset.union_assoc, List.foldl_cons]
    · intro other ho
      have hne : key ≠ other := fun h => hkey (h ▸ ho)
      rw [getElem?_insertSome, if_neg hne]
      exact hs other (List.mem_cons_of_mem key ho)

structure SameScan (s₁ s₂ : Scan) : Prop where
  hashes : s₁.hashes = s₂.hashes
  ineligible : s₁.ineligible = s₂.ineligible
  rates : s₁.rates.Perm s₂.rates
  nodup : s₁.rates.Nodup
  sorted₁ : s₁.rates.Pairwise (fun a b => OrderDual.toDual a.1 ≤ OrderDual.toDual b.1)
  sorted₂ : s₂.rates.Pairwise (fun a b => OrderDual.toDual a.1 ≤ OrderDual.toDual b.1)

lemma scanAccounts_eq (hn : order.Nodup) : m.scanAccounts c order previousRound filter =
      { hashes := order.foldl (insertSome fun key => (m.rated c previousRound filter key).map Prod.snd) m.hashes
        rates := multimap (fun entry => OrderDual.toDual entry.1) (m.ratedKeys c previousRound filter order)
        ineligible := (order.filter (m.rejected c filter)).toFinset } := by
  rw [scanAccounts, foldl_visit hn fun _ _ => rfl]
  rfl

lemma map_snd_filterMap_sublist {f : Key → Option (ℤ × Key)} (hf : ∀ key, ∀ entry ∈ f key, entry.2 = key)
    (keys : List Key) : ((keys.filterMap f).map Prod.snd).Sublist keys := by
  induction keys with
  | nil => exact .slnil
  | cons key keys ih =>
    rw [List.filterMap_cons]
    split
    next => exact ih.cons key
    next entry he =>
      rw [List.map_cons, hf key entry he]
      exact ih.cons_cons key

lemma nodup_keys_ratedKeys (hn : order.Nodup) : ((m.ratedKeys c previousRound filter order).map Prod.snd).Nodup := by
  refine (map_snd_filterMap_sublist ?_ order).nodup hn
  intro key entry he
  obtain ⟨_, -, rfl⟩ := map_eq_some_iff.mp he
  rfl

lemma nodup_ratedKeys (hn : order.Nodup) : (m.ratedKeys c previousRound filter order).Nodup :=
  (nodup_keys_ratedKeys hn).of_map

lemma sameScan_of_perm {o₁ o₂ : List Key} (hn : o₁.Nodup) (hp : o₁.Perm o₂) :
    SameScan (m.scanAccounts c o₁ previousRound filter) (m.scanAccounts c o₂ previousRound filter) := by
  rw [scanAccounts_eq hn, scanAccounts_eq (hp.nodup_iff.mp hn)]
  constructor
  case hashes =>
    apply ext_getElem?
    intro key
    rw [getElem?_foldl_insertSome, getElem?_foldl_insertSome]
    simp only [hp.mem_iff]
  case ineligible => exact List.toFinset_eq_of_perm _ _ (hp.filter _)
  case rates => exact multimap_perm.trans ((hp.filterMap _).trans multimap_perm.symm)
  case nodup => exact multimap_perm.nodup_iff.mpr (nodup_ratedKeys hn)
  case sorted₁ => exact multimap_sorted
  case sorted₂ => exact multimap_sorted

lemma mem_keys_ratedKeys : key ∈ (m.ratedKeys c previousRound filter order).map Prod.snd ↔
    key ∈ order ∧ ∃ data, m.accounts[key]? = some data ∧ filter key ∧ c.isEligible m.timestamp key data := by
  have hra : (m.rated c previousRound filter key).isSome ↔ ∃ data, m.accounts[key]? = some data ∧
      filter key ∧ c.isEligible m.timestamp key data := by
    unfold rated
    split
    next hn => simp [hn]
    next data hd =>
      rw [hd]
      split
      next h => simpa using h
      next h => simpa using h
  rw [← hra, ratedKeys, List.map_filterMap, List.mem_filterMap]
  constructor
  · rintro ⟨other, ho, hr⟩
    rw [Option.map_map] at hr
    obtain ⟨r, hs, rfl⟩ := Option.map_eq_some_iff.mp hr
    exact ⟨ho, Option.isSome_of_mem hs⟩
  · rintro ⟨ho, hr⟩
    obtain ⟨r, hr⟩ := Option.isSome_iff_exists.mp hr
    exact ⟨key, ho, by simp [hr]⟩

lemma mem_accounts_of_mem_ratedKeys {entry : ℤ × Key} (h : entry ∈ m.ratedKeys c previousRound filter order) :
    entry.2 ∈ m.accounts := by
  obtain ⟨-, data, hd, -⟩ := mem_keys_ratedKeys.mp (List.mem_map_of_mem h)
  exact mem_iff_isSome_getElem?.mpr (by simp [hd])

lemma mem_scan_ineligible (hn : order.Nodup) : key ∈ (m.scanAccounts c order previousRound filter).ineligible ↔
      key ∈ order ∧ ∃ data, m.accounts[key]? = some data ∧ filter key ∧ c.isEligible m.timestamp key data = false := by
  rw [scanAccounts_eq hn, List.mem_toFinset, List.mem_filter, rejected, any_eq_true]
  simp

lemma scan_rates_perm (c : Selection) (m : WeightedVotingCommitteeManagerV2) (previousRound : ℤ)
    (filter : Key → Bool) (hn : order.Nodup) :
    (m.scanAccounts c order previousRound filter).rates.Perm (m.ratedKeys c previousRound filter order) := by
  rw [scanAccounts_eq hn]
  exact multimap_perm

lemma scan_rates_sorted (hn : order.Nodup) : (m.scanAccounts c order previousRound filter).rates.Pairwise
    (fun a b => OrderDual.toDual a.1 ≤ OrderDual.toDual b.1) := by
  rw [scanAccounts_eq hn]
  exact multimap_sorted

lemma blockProposerCandidates_subperm : ((m.blockProposerCandidates c keys).map Prod.snd).Subperm keys := by
  refine (map_map_subperm Prod.snd).trans (map_snd_filterMap_sublist ?_ keys).subperm
  intro key entry he
  obtain ⟨_, -, rfl⟩ := map_eq_some_iff.mp he
  rfl

lemma blockProposerCandidates_ne_nil (hk : ∀ key ∈ keys, key ∈ m.accounts) (hne : keys ≠ []) :
    m.blockProposerCandidates c keys ≠ [] := by
  rw [blockProposerCandidates, Ne, map_eq_nil_iff, List.filterMap_eq_nil_iff]
  intro h
  obtain ⟨key, hkey⟩ := List.exists_mem_of_ne_nil keys hne
  have hmem := mem_iff_isSome_getElem?.mp (hk key hkey)
  have hn := map_eq_none_iff.mp (h key hkey)
  rw [hn] at hmem
  contradiction

lemma mem_startRound : key ∈ (m.startRound c).1.accounts ↔ key ∈ m.accounts := by
  simp only [startRound]
  split
  next => rfl
  next =>
    have hmem := Selection.mem_decreaseActivities (c := c) m.committee m.accounts key
    split
    next accounts h => rwa [h] at hmem
    next accounts error h => rwa [h] at hmem

end WeightedVotingCommitteeManagerV2

namespace Selection

variable {c : Selection} {t u : Timestamp} {key : Key} {data : AccountData}

def Expires (c : Selection) (t : Timestamp) (key : Key) (data : AccountData) : Prop :=
  c.networkConfig.enableHarvesterExpiration ∧ data.expirationTime ≤ t ∧
    key ∉ c.networkConfig.bootstrapHarvesters ∧
    ¬ (c.networkConfig.bootstrapHarvesters = ∅ ∧ key ∈ c.networkConfig.emergencyHarvesters)
deriving Decidable

/-- An account that is always eligible. An emergency harvester is exempt from expiration only if there are no
bootstrap harvesters, and otherwise needs a boot key. -/
def Protected (c : Selection) (key : Key) (data : AccountData) : Prop :=
  data.canHarvest ∧ (key ∈ c.networkConfig.bootstrapHarvesters ∨
    key ∈ c.networkConfig.emergencyHarvesters ∧ (c.networkConfig.bootstrapHarvesters = ∅ ∨
      ¬ c.networkConfig.enableHarvesterExpiration ∧ data.bootKey ≠ 0))
deriving Decidable

def Admitted (c : Selection) (key : Key) (data : AccountData) : Prop :=
  data.canHarvest ∧
    (key ∈ c.networkConfig.bootstrapHarvesters ∨ key ∈ c.networkConfig.emergencyHarvesters ∨
      ¬ (c.config.enableBlockchainVersionValidation ∧ data.blockchainVersion < c.blockchainVersion) ∧
        data.banPeriod = 0) ∧
    (c.networkConfig.bootstrapHarvesters = ∅ ∨ key ∈ c.networkConfig.bootstrapHarvesters ∨ data.bootKey ≠ 0)

lemma isEligible_iff : c.isEligible t key data ↔ c.Admitted key data ∧ ¬ c.Expires t key data := by
  unfold isEligible Admitted Expires
  simp only
  split_ifs with hh hv hban hb
  · grind
  · grind
  · grind
  · grind
  · grind

lemma Expires.mono (htu : t ≤ u) (h : c.Expires t key data) : c.Expires u key data :=
  ⟨h.1, h.2.1.trans htu, h.2.2⟩

lemma isEligible_of_le (htu : t ≤ u) (h : c.isEligible u key data) : c.isEligible t key data := by
  rw [isEligible_iff] at h ⊢
  exact ⟨h.1, fun he => h.2 (he.mono htu)⟩

lemma Protected.isEligible (h : c.Protected key data) : c.isEligible t key data := by
  rw [isEligible_iff]
  obtain ⟨hh, hb | ⟨he, hn | ⟨hex, hkey⟩⟩⟩ := h
  · exact ⟨⟨hh, Or.inl hb, Or.inr (Or.inl hb)⟩, fun h => h.2.2.1 hb⟩
  · exact ⟨⟨hh, Or.inr (Or.inl he), Or.inl hn⟩, fun h => h.2.2.2 ⟨hn, he⟩⟩
  · exact ⟨⟨hh, Or.inr (Or.inl he), Or.inr (Or.inr hkey)⟩, fun h => hex h.1⟩

end Selection

def AccountData.standing (data : AccountData) : Bool × Key := (data.canHarvest, data.bootKey)

lemma AccountData.exists_decreaseActivity (data : AccountData) {delta : ℤ} (hd : delta ≠ int64Min) :
    ∃ data', data.decreaseActivity delta = some data' ∧ data'.standing = data.standing := by
  unfold AccountData.decreaseActivity
  rw [if_neg hd]
  split
  · exact ⟨_, rfl, rfl⟩
  · exact ⟨_, rfl, rfl⟩

structure Kept (keys : List Key) (before after : AccountMap) : Prop where
  outside : ∀ key ∉ keys, after[key]? = before[key]?
  standing : ∀ key : Key, after[key]?.map AccountData.standing = before[key]?.map AccountData.standing

namespace Kept

variable {keys : List Key} {a b d : AccountMap} {key : Key} {data data' : AccountData}

lemma refl : Kept keys a a := ⟨fun _ _ => rfl, fun _ => rfl⟩

lemma trans (h : Kept keys a b) (h' : Kept keys b d) : Kept keys a d :=
  ⟨fun key hk => (h'.outside key hk).trans (h.outside key hk), fun key => (h'.standing key).trans (h.standing key)⟩

lemma insert (hkey : key ∈ keys) (hd : a[key]? = some data) (hs : data'.standing = data.standing) :
    Kept keys a (a.insert key data') := by
  constructor
  · intro other ho
    rw [getElem?_insert, if_neg]
    rintro heq
    exact ho (Std.LawfulEqCmp.eq_of_compare heq ▸ hkey)
  · intro other
    rw [getElem?_insert]
    split
    next heq =>
      obtain rfl := Std.LawfulEqCmp.eq_of_compare heq
      rw [hd, map_some, map_some, hs]
    next => rfl

lemma mem_iff (h : Kept keys a b) : key ∈ b ↔ key ∈ a := by
  have hs := congrArg isSome (h.standing key)
  rw [isSome_map, isSome_map] at hs
  rw [mem_iff_isSome_getElem?, mem_iff_isSome_getElem?, hs]

lemma exists_protected {c : Selection} (h : Kept keys a b) (hd : a[key]? = some data)
    (hp : c.Protected key data) : ∃ data', b[key]? = some data' ∧ c.Protected key data' := by
  have hs := h.standing key
  rw [hd, map_some, map_eq_some_iff] at hs
  obtain ⟨data', hd', hsa⟩ := hs
  obtain ⟨hh, hb⟩ := Prod.mk.inj hsa
  refine ⟨data', hd', ?_⟩
  unfold Selection.Protected
  rw [hh, hb]
  exact hp

end Kept

namespace Selection

variable {c : Selection} {keys all : List Key} {accounts : AccountMap} {key : Key}

lemma ban_kept (banPeriods : Std.ExtTreeMap Key ℕ) (hkey : key ∈ all) (hmem : key ∈ accounts) :
    ∃ after, c.ban key (accounts, banPeriods) = .ok after ∧ Kept all accounts after.1 := by
  unfold ban
  split
  next =>
    obtain ⟨data, hd⟩ := isSome_iff_exists.mp (mem_iff_isSome_getElem?.mp hmem)
    rw [hd]
    exact ⟨_, rfl, .insert hkey hd rfl⟩
  next => exact ⟨_, rfl, .refl⟩

lemma banEach_kept (banPeriods : Std.ExtTreeMap Key ℕ) (hsub : keys ⊆ all) (hk : ∀ key ∈ keys, key ∈ accounts) :
    (c.banEach keys (accounts, banPeriods)).2 = none ∧
      Kept all accounts (c.banEach keys (accounts, banPeriods)).1.1 := by
  induction keys generalizing accounts banPeriods with
  | nil => exact ⟨rfl, .refl⟩
  | cons key keys ih =>
    obtain ⟨hkey, hsub⟩ := List.cons_subset.mp hsub
    obtain ⟨⟨after, periods⟩, hban, hke⟩ := ban_kept banPeriods hkey (hk key List.mem_cons_self)
    rw [banEach, hban]
    obtain ⟨hn, hr⟩ := ih periods hsub fun other ho =>
      hke.mem_iff.mpr (hk other (List.mem_cons_of_mem key ho))
    exact ⟨hn, hke.trans hr⟩

lemma decreaseActivity_kept (hd : c.config.activityCommitteeNotCosignedDeltaInt ≠ int64Min) (hkey : key ∈ all)
    (hmem : key ∈ accounts) : ∃ after, c.decreaseActivity key accounts = .ok after ∧ Kept all accounts after := by
  obtain ⟨data, hda⟩ := isSome_iff_exists.mp (mem_iff_isSome_getElem?.mp hmem)
  obtain ⟨data', hde, hs⟩ := AccountData.exists_decreaseActivity data hd
  refine ⟨accounts.insert key data', ?_, .insert hkey hda hs⟩
  rw [decreaseActivity, hda]
  simp only [hde]

lemma decreaseEach_kept (hd : c.config.activityCommitteeNotCosignedDeltaInt ≠ int64Min) (hsub : keys ⊆ all)
    (hk : ∀ key ∈ keys, key ∈ accounts) :
    (c.decreaseEach keys accounts).2 = none ∧ Kept all accounts (c.decreaseEach keys accounts).1 := by
  induction keys generalizing accounts with
  | nil => exact ⟨rfl, .refl⟩
  | cons key keys ih =>
    obtain ⟨hkey, hsub⟩ := List.cons_subset.mp hsub
    obtain ⟨after, hde, hke⟩ := decreaseActivity_kept hd hkey (hk key List.mem_cons_self)
    rw [decreaseEach, hde]
    obtain ⟨hn, hr⟩ := ih hsub fun other ho => hke.mem_iff.mpr (hk other (List.mem_cons_of_mem key ho))
    exact ⟨hn, hke.trans hr⟩

end Selection

end XpxChain.WeightedVoting
