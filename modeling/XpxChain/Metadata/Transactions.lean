import XpxChain.Metadata.Entries

/-! What metadata transactions do to the entries. -/

namespace XpxChain.Metadata

open Std Accounts Caches List

section

variable {generateUniqueKey : MetadataKey → Hash256} {context : MetadataContext} {cache : MetadataCache}
  {key k : Hash256} {newEntry entry : MetadataEntry} {valueBuffer : List UInt8} {mode : NotifyMode}
  {transaction : MetadataTransaction}

lemma getElem?_updateCache_of_ne (h : k ≠ key) : (updateCache cache key newEntry valueBuffer)[k]? = cache[k]? := by
  have hc : ¬compare key k = .eq := by rwa [Std.compare_eq_iff_eq, eq_comm]
  rw [updateCache]
  split
  · rw [ExtTreeMap.getElem?_insert, if_neg hc]
  · split_ifs
    · rw [ExtTreeMap.getElem?_erase, if_neg hc]
    · rw [ExtTreeMap.getElem?_insert, if_neg hc]

lemma getElem?_updateCache_of_none (h : cache[key]? = none) : (updateCache cache key newEntry valueBuffer)[key]? =
    some { newEntry with value := MetadataValue.update newEntry.value valueBuffer } := by
  simp [updateCache, h]

lemma getElem?_updateCache_of_some (h : cache[key]? = some entry) : (updateCache cache key newEntry valueBuffer)[key]? =
    if valueBuffer.length = 0 then none
    else some { entry with value := MetadataValue.update entry.value valueBuffer } := by
  rw [updateCache, h]
  split_ifs <;> simp

@[simp] lemma newEntry_value : (transaction.newEntry context).value = [] := by
  cases transaction <;> rfl

section

variable (h : transaction.Accepted generateUniqueKey context cache)
include h

lemma MetadataTransaction.Accepted.sizes : 0 < transaction.notification.value.length ∧
      |transaction.notification.valueSizeDelta| ≤ transaction.notification.value.length := by
  obtain ⟨hs, -⟩ := h
  rw [validateMetadataSizes] at hs
  split_ifs at hs with hz hd hmax
  exact ⟨Nat.pos_of_ne_zero hz, Int.not_lt.mp hd⟩

lemma MetadataTransaction.Accepted.of_none (hn : cache[transaction.uniqueKey generateUniqueKey context]? = none) :
    transaction.notification.valueSizeDelta = transaction.notification.value.length := by
  have hv := h.2.1
  rw [validateMetadataValue, hn] at hv
  dsimp only at hv
  split_ifs at hv with heq
  exact heq

lemma MetadataTransaction.Accepted.of_some (hs : cache[transaction.uniqueKey generateUniqueKey context]? = some entry) :
    (0 ≤ transaction.notification.valueSizeDelta ∧
        (entry.value.length : ℤ) = transaction.notification.value.length - transaction.notification.valueSizeDelta) ∨
      transaction.notification.valueSizeDelta < 0 ∧ entry.value.length = transaction.notification.value.length ∧
        entry.value.drop (transaction.notification.value.length + transaction.notification.valueSizeDelta).toNat =
          transaction.notification.value.drop
            (transaction.notification.value.length + transaction.notification.valueSizeDelta).toNat := by
  obtain ⟨hpos, habs⟩ := h.sizes
  have hv := h.2.1
  have hlt := transaction.notification.valueSize_lt
  rw [abs_le] at habs
  rw [validateMetadataValue, hs] at hv
  dsimp only at hv
  by_cases hd : 0 ≤ transaction.notification.valueSizeDelta
  · refine Or.inl ⟨hd, ?_⟩
    split_ifs at hv with hg hm hm <;> omega
  · refine Or.inr ⟨by omega, ?_⟩
    rw [if_neg (by omega : ¬0 < transaction.notification.valueSizeDelta)] at hv
    split_ifs at hv with hm ht
    simp only [MetadataValue.canTrim, Bool.and_eq_true, decide_eq_true_eq] at ht
    obtain ⟨⟨hlen, hcnt⟩, hdr⟩ := ht
    have hsz : (transaction.notification.value.length + transaction.notification.valueSizeDelta).toNat =
        transaction.notification.value.length - (-transaction.notification.valueSizeDelta).toNat := by
      omega
    rw [hsz]
    exact ⟨hlen, hdr⟩

end

lemma MetadataTransaction.Accepted.not_immutable {notification : MetadataNotification} {isValueImmutable : Bool}
    (h : (MetadataTransaction.extended notification isValueImmutable).Accepted generateUniqueKey context cache)
    (hs : cache[(MetadataTransaction.extended notification isValueImmutable).uniqueKey generateUniqueKey context]? =
      some entry) :
    entry.immutable = false := by
  have he := h.2.2
  dsimp only at he
  rw [validateExtendedMetadataValue, hs] at he
  split_ifs at he with himm
  exact Bool.not_eq_true _ ▸ himm

end

structure MetadataStep where
  context : MetadataContext
  transaction : MetadataTransaction

inductive AcceptedRun (generateUniqueKey : MetadataKey → Hash256) (condition : MetadataCache → MetadataStep → Prop) :
    MetadataCache → MetadataCache → Prop
  | refl (cache : MetadataCache) : AcceptedRun generateUniqueKey condition cache cache
  | step {cache cache' : MetadataCache} {step : MetadataStep} : AcceptedRun generateUniqueKey condition cache cache' →
    step.transaction.Accepted generateUniqueKey step.context cache' → condition cache' step →
    AcceptedRun generateUniqueKey condition cache
      (step.transaction.observe generateUniqueKey step.context .commit cache')

section

variable {generateUniqueKey : MetadataKey → Hash256}

def SparesImmutable (generateUniqueKey : MetadataKey → Hash256) (cache : MetadataCache) (step : MetadataStep) : Prop :=
  match step.transaction with
  | .plain _ =>
    ∀ entry, cache[step.transaction.uniqueKey generateUniqueKey step.context]? = some entry → entry.immutable = false
  | .extended _ _ => True

lemma observe_of_immutable {step : MetadataStep} {cache : MetadataCache} {key : Hash256} {entry : MetadataEntry}
    (hacc : step.transaction.Accepted generateUniqueKey step.context cache)
    (hs : SparesImmutable generateUniqueKey cache step) (hent : cache[key]? = some entry) (himm : entry.immutable) :
    (step.transaction.observe generateUniqueKey step.context .commit cache)[key]? = some entry := by
  rw [← hent]
  apply getElem?_updateCache_of_ne
  rintro rfl
  have hf : entry.immutable = false := by
    obtain ⟨context, notification | ⟨notification, isValueImmutable⟩⟩ := step
    · exact hs entry hent
    · exact hacc.not_immutable hent
  rw [himm] at hf
  cases hf

theorem immutable_metadata_is_kept {cache cache' : MetadataCache}
    (hrun : AcceptedRun generateUniqueKey (SparesImmutable generateUniqueKey) cache cache') {key : Hash256}
    {entry : MetadataEntry} (hentry : cache[key]? = some entry)
    (himmutable : entry.immutable = true) : cache'[key]? = some entry := by
  induction hrun with
  | refl => exact hentry
  | step _ haccepted hspares ih => exact observe_of_immutable haccepted hspares ih himmutable

end

section

instance neZero3 : NeZero 3 := inferInstance

def sampleNotification (scopedMetadataKey : Fin (2 ^ 64)) (valueSizeDelta : Fin 3)
    (value : UInt8) : MetadataNotification where
  partialMetadataKey := { sourceAddress := 1, targetKey := 2, scopedMetadataKey }
  metadataTarget := { type := .account, id := 0 }
  valueSizeDelta := valueSizeDelta - 1
  value := [value]
  le_valueSizeDelta := by omega
  valueSizeDelta_lt := by omega
  valueSize_lt := by simp

def sampleContext : MetadataContext := { maxValueSize := 1024, resolve := id, uninitializedImmutable := false }

def sampleDigest (key : MetadataKey) : Hash256 := Fin.castLE (by decide) key.scopedMetadataKey

def sampleCache (isValueImmutable : Bool) : MetadataCache :=
  (MetadataTransaction.extended (sampleNotification 3 2 5) isValueImmutable).observe sampleDigest
    sampleContext .commit ∅

def otherTransaction : MetadataTransaction := .plain (sampleNotification 4 2 7)

theorem immutable_metadata_is_kept_sample :
    (otherTransaction.observe sampleDigest sampleContext .commit (sampleCache true))[(3 : Hash256)]?.map
      MetadataEntry.value =
      some [5] := by
  have haccepted : otherTransaction.Accepted sampleDigest sampleContext (sampleCache true) := by decide +kernel
  have hspares : SparesImmutable sampleDigest (sampleCache true) ⟨sampleContext, otherTransaction⟩ := by
    intro entry hentry
    cases hentry
  have hrun := @AcceptedRun.step sampleDigest (SparesImmutable sampleDigest) _ _ ⟨sampleContext, otherTransaction⟩
    (.refl (sampleCache true)) haccepted hspares
  obtain ⟨entry, hentry, hvalue⟩ : ∃ entry, (sampleCache true)[(3 : Hash256)]? = some entry ∧
      (entry.value, entry.immutable) = ([5], true) := by
    decide +kernel
  rw [immutable_metadata_is_kept hrun hentry (congrArg Prod.snd hvalue)]
  exact congrArg (some ·.1) hvalue

/-- A plain transaction for the key of an immutable entry is accepted and overwrites the value. -/
theorem plain_transaction_overwrites_immutable_metadata :
    (MetadataTransaction.extended (sampleNotification 3 2 5) true).Accepted sampleDigest sampleContext ∅ ∧
      (sampleCache true)[(3 : Hash256)]?.map (fun entry => (entry.value, entry.immutable)) = some ([5], true) ∧
      (MetadataTransaction.plain (sampleNotification 3 1 6)).Accepted sampleDigest sampleContext (sampleCache true) ∧
      ((MetadataTransaction.plain (sampleNotification 3 1 6)).observe sampleDigest sampleContext .commit
        (sampleCache true))[(3 : Hash256)]?.map (fun entry => (entry.value, entry.immutable)) = some ([3], true) := by
  decide +kernel

end

end XpxChain.Metadata
