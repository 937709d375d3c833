import XpxChain.Storage.CancellationPayments

/-! What a download channel pays for approved downloads. -/

namespace XpxChain.Storage

open Std Library OrderedContainers Runs List

structure DownloadChannelEntry where
  id : Hash256
  cumulativePayments : ExtTreeMap Key ℕ

/-- With the streaming units that the account of the channel has. -/
structure DownloadApprovalPayment where
  judgingKeysCount : ℕ
  overlappingKeysCount : ℕ
  judgedKeysCount : ℕ
  publicKeys : ℕ → Key
  presentOpinions : ℕ → Bool
  opinions : ℕ → Fin (2 ^ 64)
  balance : ℕ

def median (opinions : List ℕ) : ℕ :=
  let sorted := opinions.insertionSort (· ≤ ·)
  let medianIndex := sorted.length / 2
  if sorted.length % 2 = 1 then sorted.getD medianIndex 0
  else (sorted.getD (medianIndex - 1) 0 + sorted.getD medianIndex 0) % 2 ^ 64 / 2

namespace DownloadApprovalPayment

variable (notification : DownloadApprovalPayment)

def totalJudgedKeysCount : ℕ := notification.overlappingKeysCount + notification.judgedKeysCount

def opinionsCount : ℕ :=
  (notification.judgingKeysCount + notification.overlappingKeysCount) * notification.totalJudgedKeysCount

/-- The opinions of a judging key on all judged keys stand next to each other. -/
def judgedKey (index : ℕ) : Key :=
  notification.publicKeys (notification.judgingKeysCount + index % notification.totalJudgedKeysCount)

def judgedKeys : Finset Key := (Finset.range notification.opinionsCount).image notification.judgedKey

end DownloadApprovalPayment

/-- How far the pointer to the opinions has moved at a cell of the matrix. -/
def opinionsBefore (presentOpinions : ℕ → Bool) (index : ℕ) : ℕ := (List.range index).countP presentOpinions

lemma opinionsBefore_succ (presentOpinions : ℕ → Bool) (index : ℕ) : opinionsBefore presentOpinions (index + 1) =
    opinionsBefore presentOpinions index + if presentOpinions index then 1 else 0 := by
  simp [opinionsBefore, range_succ, countP_append]

namespace DownloadChannelEntry

variable (channel : DownloadChannelEntry) (notification : DownloadApprovalPayment)

def addOpinion : ExtTreeMap Key (List ℕ) × ℕ → ℕ → Option (ExtTreeMap Key (List ℕ) × ℕ)
  | (opinions, next), index => do
    let key := notification.judgedKey index
    let paidBytes ← channel.cumulativePayments[key]?
    if notification.presentOpinions index then
      some (opinions.insert key (opinions.getD key [] ++ [(notification.opinions next).val]), next + 1)
    else some (opinions.insert key (opinions.getD key [] ++ [paidBytes]), next)

def fullPayments : Option (List (Key × ℕ)) := do
  let (opinions, _) ← (List.range notification.opinionsCount).foldlM (channel.addOpinion notification) (∅, 0)
  return opinions.toList.map fun (key, opinions) => (key, median opinions - channel.cumulativePayments.getD key 0)

def payments : Option (List (Key × ℕ)) := do
  let full ← channel.fullPayments notification
  let total := (full.map (·.2)).sum % 2 ^ 64
  let balanceBytes := notification.balance * 2 ^ 20 % 2 ^ 64
  return if balanceBytes < total then full.map fun p => (p.1, p.2 * balanceBytes / total % 2 ^ 64) else full

def debits (payments : List (Key × ℕ)) : List Debit := payments.map fun p => ⟨channel.id, p.1, p.2 / 2 ^ 20⟩

def record (p : Key × ℕ) : DownloadChannelEntry :=
  { channel with cumulativePayments := channel.cumulativePayments.modify p.1 fun c => (c + p.2) % 2 ^ 64 }

/-- A judging key without an opinion counts as one that agrees with what is recorded. -/
def opinionAt (index : ℕ) : ℕ :=
  if notification.presentOpinions index then
    notification.opinions (opinionsBefore notification.presentOpinions index)
  else channel.cumulativePayments.getD (notification.judgedKey index) 0

def opinionsOn (count : ℕ) (key : Key) : List ℕ :=
  ((List.range count).filter (notification.judgedKey · = key)).map (channel.opinionAt notification)

/-- The full payment of a replicator, by the median of the opinions on it. -/
def medianPayment (key : Key) : ℕ :=
  median (channel.opinionsOn notification notification.opinionsCount key) - channel.cumulativePayments.getD key 0

def totalPayment : ℕ := ∑ key ∈ notification.judgedKeys, channel.medianPayment notification key

/-- What is left of a full payment if the sum of all, cut to 64 bits, is more than the balance. -/
def cappedPayment (full : ℕ) : ℕ :=
  let total := channel.totalPayment notification % 2 ^ 64
  let balanceBytes := notification.balance * 2 ^ 20 % 2 ^ 64
  if balanceBytes < total then full * balanceBytes / total % 2 ^ 64 else full

section

variable {channel notification} {opinions : ExtTreeMap Key (List ℕ)} {next count : ℕ} {full payments : List (Key × ℕ)}

lemma opinionsOn_succ (key : Key) : channel.opinionsOn notification (count + 1) key =
    channel.opinionsOn notification count key ++
      if notification.judgedKey count = key then [channel.opinionAt notification count] else [] := by
  rw [opinionsOn, range_succ, filter_append, map_append, opinionsOn]
  by_cases h : notification.judgedKey count = key <;> simp [h]

lemma addOpinion_eq_some {state : ExtTreeMap Key (List ℕ) × ℕ}
    (hnext : next = opinionsBefore notification.presentOpinions count)
    (h : channel.addOpinion notification (opinions, next) count = some state) :
    state.2 = opinionsBefore notification.presentOpinions (count + 1) ∧
      state.1 = opinions.insert (notification.judgedKey count)
        (opinions.getD (notification.judgedKey count) [] ++ [channel.opinionAt notification count]) := by
  obtain ⟨bytes, hbytes, h⟩ := Option.bind_eq_some_iff.mp h
  have hpaid : channel.cumulativePayments.getD (notification.judgedKey count) 0 = bytes := by
    rw [ExtTreeMap.getD_eq_getD_getElem?, hbytes]
    rfl
  rw [opinionsBefore_succ, ← hnext, opinionAt, ← hnext, hpaid]
  split_ifs at h ⊢ with hp <;> cases h <;> exact ⟨rfl, rfl⟩

lemma foldlM_addOpinion (h : (range count).foldlM (channel.addOpinion notification) (∅, 0) = some (opinions, next)) :
    next = opinionsBefore notification.presentOpinions count ∧ ∀ key, opinions[key]? =
      if ∃ index < count, notification.judgedKey index = key then some (channel.opinionsOn notification count key)
      else none := by
  induction count generalizing opinions next with
  | zero =>
    cases h
    exact ⟨rfl, fun key => by simp⟩
  | succ count ih =>
    rw [range_succ, foldlM_append] at h
    obtain ⟨⟨before, next'⟩, hbefore, h⟩ := Option.bind_eq_some_iff.mp h
    simp only [foldlM_cons, foldlM_nil, bind_pure] at h
    obtain ⟨hnext, hopinions⟩ := ih hbefore
    obtain ⟨hnext', hstate⟩ := addOpinion_eq_some hnext h
    refine ⟨hnext', fun key => ?_⟩
    obtain rfl : opinions = _ := hstate
    have hbefore : ∀ key, before.getD key [] = channel.opinionsOn notification count key := by
      intro key
      rw [ExtTreeMap.getD_eq_getD_getElem?, hopinions]
      split_ifs with hk
      · rfl
      · rw [opinionsOn, filter_eq_nil_iff.mpr fun index hi => by
          simpa using fun heq => hk ⟨index, mem_range.mp hi, heq⟩]
        rfl
    rw [getElem?_insert_eq, hbefore, opinionsOn_succ, hopinions]
    by_cases hkey : key = notification.judgedKey count
    · rw [if_pos hkey, if_pos ⟨count, Nat.lt_succ_self count, hkey.symm⟩, if_pos hkey.symm, hkey]
    · simp only [hkey, Ne.symm hkey, if_false, append_nil, Nat.lt_succ_iff_lt_or_eq, or_and_right, exists_or,
        exists_eq_left, or_false]

lemma perm_fullPayments (h : channel.fullPayments notification = some full) :
    full.Perm (notification.judgedKeys.toList.map fun key => (key, channel.medianPayment notification key)) := by
  obtain ⟨⟨opinions, next⟩, hfold, h⟩ := Option.bind_eq_some_iff.mp h
  cases h
  obtain ⟨-, hopinions⟩ := foldlM_addOpinion hfold
  have hkeys : opinions.keys.Perm notification.judgedKeys.toList := by
    refine (perm_ext_iff_of_nodup ExtTreeMap.nodup_keys (Finset.nodup_toList _)).mpr fun key => ?_
    rw [ExtTreeMap.mem_keys, ExtTreeMap.mem_iff_isSome_getElem?, hopinions, Finset.mem_toList]
    simp [DownloadApprovalPayment.judgedKeys]
  have hmap : opinions.toList.map (fun p => (p.1, median p.2 - channel.cumulativePayments.getD p.1 0)) =
      opinions.keys.map fun key => (key, channel.medianPayment notification key) := by
    rw [← ExtTreeMap.map_fst_toList_eq_keys, map_map]
    refine map_congr_left fun p hp => ?_
    have hentry := ExtTreeMap.mem_toList_iff_getElem?_eq_some.mp hp
    rw [hopinions] at hentry
    split_ifs at hentry
    rw [Function.comp_apply, medianPayment, Option.some.inj hentry]
  exact hmap ▸ hkeys.map _

lemma sum_fullPayments (h : channel.fullPayments notification = some full) (g : Key → ℕ → ℕ) :
    (full.map fun p => g p.1 p.2).sum = ∑ key ∈ notification.judgedKeys,
      g key (channel.medianPayment notification key) := by
  rw [((perm_fullPayments h).map _).sum_eq, map_map]
  exact Finset.sum_map_toList _ _

lemma payments_eq_map (hfull : channel.fullPayments notification = some full)
    (h : channel.payments notification = some payments) :
    payments = full.map fun p => (p.1, channel.cappedPayment notification p.2) := by
  have htotal : (full.map (·.2)).sum = channel.totalPayment notification := sum_fullPayments hfull fun _ f => f
  rw [DownloadChannelEntry.payments, hfull] at h
  cases h
  rw [htotal]
  simp only [cappedPayment]
  split_ifs <;> simp

lemma cappedPayment_le (f : ℕ) : channel.cappedPayment notification f ≤ f := by
  unfold cappedPayment
  simp only
  split_ifs with hless
  · refine (Nat.mod_le _ _).trans (Nat.div_le_of_le_mul ?_)
    rw [mul_comm]
    exact Nat.mul_le_mul_right _ hless.le
  · exact le_rfl

lemma payment_le (h : channel.payments notification = some payments) :
    ∀ p ∈ payments, p.2 ≤ channel.medianPayment notification p.1 := by
  obtain ⟨full, hfull, -⟩ := Option.bind_eq_some_iff.mp h
  rw [payments_eq_map hfull h]
  intro p hp
  obtain ⟨q, hq, rfl⟩ := mem_map.mp hp
  obtain ⟨key, -, rfl⟩ := mem_map.mp ((perm_fullPayments hfull).mem_iff.mp hq)
  exact cappedPayment_le _

end

end DownloadChannelEntry

variable {channel : DownloadChannelEntry} {notification : DownloadApprovalPayment} {payments : List (Key × ℕ)}

def pairChannel : DownloadChannelEntry := ⟨1, (∅ : ExtTreeMap Key ℕ).insert 10 0 |>.insert 11 0⟩

def onePerKey (opinion : Fin (2 ^ 64)) : DownloadApprovalPayment where
  judgingKeysCount := 0
  overlappingKeysCount := 1
  judgedKeysCount := 1
  publicKeys := fun i => Fin.ofNat _ (10 + i)
  presentOpinions := fun _ => true
  opinions := fun _ => opinion
  balance := 3

end XpxChain.Storage
