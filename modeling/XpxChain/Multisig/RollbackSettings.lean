import XpxChain.Multisig.RollbackObservers

/-! The entry of the signer after the rollback of its settings. -/

namespace XpxChain.Multisig

open Std Library Exceptions BoundedPaths ExtTreeSet List Option

section

variable {config : MultisigConfiguration} {fuel : ℕ} {cache cache' : MultisigCache}
  {transaction : ModifyMultisigAccount}

def RemovesEntry (cache : MultisigCache) (transaction : ModifyMultisigAccount) (entry : MultisigEntry) : Prop :=
  cache[transaction.signer]? = some entry ∧ entry.multisigAccounts = ∅ ∧
    (∀ m ∈ transaction.modifications, isAdd m = false) ∧
    ∀ v ∈ entry.cosignatories, ∃ m ∈ transaction.modifications, m.cosignatoryPublicKey = v

/-- The two settings of an entry that is removed are the negated deltas, which are bytes. -/
def SubtractsSettings (cache : MultisigCache) (transaction : ModifyMultisigAccount) : Prop :=
  ∀ entry, RemovesEntry cache transaction entry →
    addDelta entry.minApproval transaction.minApprovalDelta = 0 ∧
      addDelta entry.minRemoval transaction.minRemovalDelta = 0

lemma getElem?_rollbackSettings_of_ne {u : Key} (hu : u ≠ transaction.signer) :
    (rollbackSettings transaction cache)[u]? = cache[u]? := by
  rw [rollbackSettings]
  split_ifs
  · rfl
  · rw [getElem?_modify, if_neg (Ne.symm hu), getElem?_getMultisigEntry_of_ne hu]

lemma getElem?_rollbackSettings_self (h : ¬(transaction.signer ∉ cache ∧ transaction.modifications = [])) :
    (rollbackSettings transaction cache)[transaction.signer]? = some
      { cache[transaction.signer]?.getD {} with
        minApproval := addDelta (cache[transaction.signer]?.getD {}).minApproval (-transaction.minApprovalDelta)
        minRemoval := addDelta (cache[transaction.signer]?.getD {}).minRemoval (-transaction.minRemovalDelta) } := by
  rw [rollbackSettings, if_neg h, getElem?_modify, if_pos rfl, getElem?_getMultisigEntry_self]
  rfl

lemma getElem?_modifySettings_of_ne {u : Key} (hu : u ≠ transaction.signer) :
    (modifySettings transaction cache)[u]? = cache[u]? := by
  rw [modifySettings, getElem?_modify, if_neg (Ne.symm hu)]

lemma getElem?_modifySettings_self : (modifySettings transaction cache)[transaction.signer]? =
    cache[transaction.signer]?.map fun entry =>
      { entry with
        minApproval := addDelta entry.minApproval transaction.minApprovalDelta
        minRemoval := addDelta entry.minRemoval transaction.minRemovalDelta } := by
  rw [modifySettings, getElem?_modify, if_pos rfl]

lemma rollbackSettings_modifySettings {entry : MultisigEntry} (hentry : cache[transaction.signer]? = some entry)
    (ha : entry.minApproval < 2 ^ 8) (hrmv : entry.minRemoval < 2 ^ 8) :
    (rollbackSettings transaction (modifySettings transaction cache))[transaction.signer]? = some entry := by
  have hset := @getElem?_modifySettings_self cache transaction
  rw [hentry, map_some] at hset
  have hmem : transaction.signer ∈ modifySettings transaction cache := by
    rw [ExtTreeMap.mem_iff_isSome_getElem?, hset]
    rfl
  rw [getElem?_rollbackSettings_self fun hnot => hnot.1 hmem, hset, getD_some]
  simp only [addDelta_neg_addDelta ha, addDelta_neg_addDelta hrmv]

section

variable {entry : MultisigEntry}
  (hentry : (getMultisigEntry transaction.signer cache)[transaction.signer]? = some entry)
include hentry

lemma mem_cosignatories_iff
    (happ : Applicable transaction.signer (getMultisigEntry transaction.signer cache) transaction.modifications)
    {m : CosignatoryModification} (hm : m ∈ transaction.modifications) :
    m.cosignatoryPublicKey ∈ entry.cosignatories ↔ isAdd m = false := by
  rw [← cosigns_of_entry hentry]
  exact happ.cosigns m hm

lemma eq_default_of_signer_none (hn : cache[transaction.signer]? = none) : entry = {} := by
  rw [getElem?_getMultisigEntry_self, hn] at hentry
  exact (some.inj hentry).symm

lemma eq_of_signer_some {other : MultisigEntry} (hs : cache[transaction.signer]? = some other) : entry = other := by
  rw [getElem?_getMultisigEntry_self, hs] at hentry
  exact (some.inj hentry).symm

section

variable {cosignatories : KeySet} (happ : Applicable transaction.signer (getMultisigEntry transaction.signer cache)
    transaction.modifications)
  (hmo : transaction.modifications ≠ []) (hmem : ∀ v, v ∈ cosignatories ↔
    (v ∈ entry.cosignatories ∧ ∀ m ∈ transaction.modifications, isAdd m ≠ true → m.cosignatoryPublicKey ≠ v) ∨
      ∃ m ∈ transaction.modifications, isAdd m ∧ m.cosignatoryPublicKey = v)
include happ hmo hmem

lemma isEmpty_iff_removesEntry :
    (entry.withCosignatories cosignatories).IsEmpty ↔ RemovesEntry cache transaction entry := by
  constructor
  · intro hemp
    have hnot : ∀ v, v ∉ cosignatories := fun v hv => ne_empty_of_mem hv hemp.1
    have hr : ∀ m ∈ transaction.modifications, isAdd m = false := fun m hm =>
      Bool.eq_false_of_not_eq_true fun hadd => hnot _ ((hmem _).mpr (Or.inr ⟨m, hm, hadd, rfl⟩))
    refine ⟨?_, hemp.2, hr, fun v hv => ?_⟩
    · cases hold : cache[transaction.signer]? with
      | some other => rw [eq_of_signer_some hentry hold]
      | none =>
        obtain ⟨m, hm⟩ := exists_mem_of_ne_nil _ hmo
        have hin := (mem_cosignatories_iff hentry happ hm).mpr (hr m hm)
        rw [eq_default_of_signer_none hentry hold] at hin
        exact absurd rfl (ne_empty_of_mem hin)
    · by_contra hoth
      push Not at hoth
      exact hnot v ((hmem v).mpr (Or.inl ⟨hv, fun m hm _ => hoth m hm⟩))
  · rintro ⟨-, haccounts, hr, hall⟩
    refine ⟨ext_mem fun v => ⟨fun hv => ?_, fun hv => absurd rfl (ne_empty_of_mem hv)⟩, haccounts⟩
    rcases (hmem v).mp hv with ⟨hold, hkept⟩ | ⟨m, hm, hadd, -⟩
    · obtain ⟨m, hm, hkey⟩ := hall v hold
      exact absurd hkey (hkept m hm (by rw [hr m hm]; decide))
    · rw [hr m hm] at hadd
      cases hadd

lemma signer_after_rollbackSettings (h : WellFormed config cache) (hn : NoSettings cache)
    (hrel : cache'[transaction.signer]? = some (entry.withCosignatories cosignatories)) :
    ∃ minApproval minRemoval, (rollbackSettings transaction
        (modifySettings transaction (removeIfEmpty transaction.signer cache')))[transaction.signer]? =
      some { entry with cosignatories, minApproval, minRemoval } ∧
      (minApproval = entry.minApproval ∧ minRemoval = entry.minRemoval ↔ SubtractsSettings cache transaction) := by
  have hlt : entry.minApproval < 2 ^ 8 ∧ entry.minRemoval < 2 ^ 8 := by
    cases hold : cache[transaction.signer]? with
    | none =>
      rw [eq_default_of_signer_none hentry hold]
      exact ⟨by decide, by decide⟩
    | some other =>
      rw [eq_of_signer_some hentry hold]
      exact h.settings_lt hn hold
  by_cases hemp : (entry.withCosignatories cosignatories).IsEmpty
  · -- The entry is gone, so its settings come from the deltas alone.
    have hg : (modifySettings transaction (removeIfEmpty transaction.signer cache'))[transaction.signer]? = none := by
      rw [getElem?_modifySettings_self, getElem?_removeIfEmpty_self, hrel, bind_some, unlessEmpty_of_isEmpty hemp]
      rfl
    refine ⟨addDelta 0 (-transaction.minApprovalDelta), addDelta 0 (-transaction.minRemovalDelta), ?_, ?_⟩
    · have hcos : cosignatories = ∅ := hemp.1
      have hac : entry.multisigAccounts = ∅ := hemp.2
      rw [getElem?_rollbackSettings_self fun hb => hmo hb.2, hg, getD_none, hcos, ← hac]
    · rw [addDelta_zero_neg_eq hlt.1, addDelta_zero_neg_eq hlt.2]
      have hremoves := (isEmpty_iff_removesEntry hentry happ hmo hmem).mp hemp
      refine ⟨fun hzero other hother => ?_, fun hs => hs entry hremoves⟩
      rwa [← eq_of_signer_some hentry hother.1]
  · refine ⟨_, _, rollbackSettings_modifySettings ?_ hlt.1 hlt.2, iff_of_true ⟨rfl, rfl⟩ fun other hother => ?_⟩
    · rw [getElem?_removeIfEmpty_self, hrel, bind_some, unlessEmpty_of_not_isEmpty hemp]
      rfl
    · rw [← eq_of_signer_some hentry hother.1] at hother
      exact absurd ((isEmpty_iff_removesEntry hentry happ hmo hmem).mpr hother) hemp

end

end

end

end XpxChain.Multisig
