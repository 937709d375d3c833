import XpxChain.Multisig.RollbackSettings

/-! Undoing a modification. The observers run in reverse order, but the loop over the modifications does not. -/

namespace XpxChain.Multisig

open Std Library Exceptions BoundedPaths ExtTreeSet List Option

section

variable {config : MultisigConfiguration} {fuel : ℕ} {cache cache' : MultisigCache}
  {transaction : ModifyMultisigAccount}

section

variable {m : CosignatoryModification} {relinked before after : MultisigCache} (h : WellFormed config cache)
  (hne : m.cosignatoryPublicKey ≠ transaction.signer) (hm : m ∈ transaction.modifications)
  (hcommit : Relinked true transaction.signer transaction.modifications
    (getMultisigEntry transaction.signer cache) relinked)
  (hsame : before[m.cosignatoryPublicKey]? = relinked[m.cosignatoryPublicKey]?)
  (hrollback : Relinked false transaction.signer transaction.modifications before after)
include h hne hm hcommit hsame hrollback

lemma getElem?_of_added (hadd : isAdd m)
    (hc : ¬Cosigns (getMultisigEntry transaction.signer cache) transaction.signer m.cosignatoryPublicKey) :
    after[m.cosignatoryPublicKey]? = cache[m.cosignatoryPublicKey]? := by
  have hrel := hcommit.added m hm hadd
  rw [getElem?_getMultisigEntry_of_ne hne] at hrel
  rw [hrollback.removed m hm (by rw [hadd]; decide) _ (hsame.trans hrel)]
  rw [h.consistent_getMultisigEntry.symmetric, CosignsFor, Links, getElem?_getMultisigEntry_of_ne hne] at hc
  cases hold : cache[m.cosignatoryPublicKey]? with
  | none =>
    apply unlessEmpty_of_isEmpty
    refine ⟨rfl, ?_⟩
    apply ext_mem
    intro v
    rw [getD_none, mem_erase, mem_insert]
    simp
  | some entry =>
    have hn : transaction.signer ∉ entry.multisigAccounts := fun hmem => hc ⟨entry, hold, hmem⟩
    have ha : (entry.multisigAccounts.insert transaction.signer).erase transaction.signer = entry.multisigAccounts := by
      apply ext_mem
      intro v
      rw [mem_erase, mem_insert]
      constructor
      · tauto
      · intro hv
        exact ⟨fun heq => hn (heq ▸ hv), Or.inr hv⟩
    rw [getD_some, ha]
    exact unlessEmpty_of_not_isEmpty (h.linked _ entry hold)

lemma getElem?_of_removed (hno : NoSettings cache) (hadd : isAdd m = false)
    (hc : Cosigns (getMultisigEntry transaction.signer cache) transaction.signer m.cosignatoryPublicKey) :
    after[m.cosignatoryPublicKey]? = cache[m.cosignatoryPublicKey]? := by
  obtain ⟨entry, hentry, hmem⟩ := (h.consistent_getMultisigEntry.symmetric _ _).mp hc
  have hrel := hcommit.removed m hm (by rw [hadd]; decide) entry hentry
  rw [getElem?_getMultisigEntry_of_ne hne] at hentry
  rw [hrollback.added m hm hadd, hsame, hrel, hentry]
  by_cases hemp : ({ entry with multisigAccounts := entry.multisigAccounts.erase transaction.signer } :
    MultisigEntry).IsEmpty
  · -- The entry comes back without settings, and it had none.
    rw [unlessEmpty_of_isEmpty hemp, getD_none]
    have hcos : entry.cosignatories = ∅ := hemp.1
    obtain ⟨hap, hrmv⟩ := hno _ entry hentry hcos
    have ha : (∅ : KeySet).insert transaction.signer = entry.multisigAccounts := by
      apply ext_mem
      intro v
      have hn : entry.multisigAccounts.erase transaction.signer = ∅ := hemp.2
      have he : v ∈ entry.multisigAccounts.erase transaction.signer ↔ v ∈ (∅ : KeySet) := by rw [hn]
      rw [mem_erase] at he
      rw [mem_insert]
      constructor
      · rintro (rfl | hv)
        · exact hmem
        · exact (he.mpr hv).2
      · intro hv
        by_cases heq : v = transaction.signer
        · exact Or.inl heq
        · exact Or.inr (he.mp ⟨heq, hv⟩)
    obtain ⟨⟨cosignatories, approval, removal⟩, accounts⟩ := entry
    dsimp only at hcos hap hrmv ha ⊢
    rw [hcos, hap, hrmv, ha]
  · rw [unlessEmpty_of_not_isEmpty hemp, getD_some]
    have ha : (entry.multisigAccounts.erase transaction.signer).insert transaction.signer = entry.multisigAccounts := by
      apply ext_mem
      intro v
      rw [mem_insert, mem_erase]
      constructor
      · rintro (rfl | hv)
        · exact hmem
        · exact hv.2
      · tauto
    dsimp only
    rw [ha]

end

lemma cosignatories_restored {keys between restored : KeySet} {modifications : List CosignatoryModification}
    (hnd : (modifications.map CosignatoryModification.cosignatoryPublicKey).Nodup)
    (hk : ∀ m ∈ modifications, m.cosignatoryPublicKey ∈ keys ↔ isAdd m = false)
    (hb : ∀ v, v ∈ between ↔ (v ∈ keys ∧ ∀ m ∈ modifications, isAdd m ≠ true → m.cosignatoryPublicKey ≠ v) ∨
      ∃ m ∈ modifications, isAdd m ∧ m.cosignatoryPublicKey = v)
    (hr : ∀ v, v ∈ restored ↔ (v ∈ between ∧ ∀ m ∈ modifications, isAdd m ≠ false → m.cosignatoryPublicKey ≠ v) ∨
      ∃ m ∈ modifications, isAdd m = false ∧ m.cosignatoryPublicKey = v) : restored = keys := by
  apply ext_mem
  intro v
  rw [hr, hb]
  by_cases hmem : ∃ m ∈ modifications, m.cosignatoryPublicKey = v
  · obtain ⟨m, hm, rfl⟩ := hmem
    have hu : ∀ m' ∈ modifications, m'.cosignatoryPublicKey = m.cosignatoryPublicKey → m' = m :=
      fun m' hm' heq => inj_on_of_nodup_map hnd hm' hm heq
    rw [hk m hm]
    cases hadd : isAdd m with
    | false => exact ⟨fun _ => rfl, fun _ => Or.inr ⟨m, hm, hadd, rfl⟩⟩
    | true =>
      constructor
      · rintro (⟨-, hnot⟩ | ⟨m', hm', hf, heq⟩)
        · exact absurd rfl (hnot m hm (by rw [hadd]; decide))
        · rw [hu m' hm' heq, hadd] at hf
          exact hf
      · nofun
  · push Not at hmem
    constructor
    · rintro (⟨⟨hv, -⟩ | ⟨m, hm, -, heq⟩, -⟩ | ⟨m, hm, -, heq⟩)
      · exact hv
      · exact absurd heq (hmem m hm)
      · exact absurd heq (hmem m hm)
    · exact fun hv => Or.inl ⟨Or.inl ⟨hv, fun m hm _ => hmem m hm⟩, fun m hm _ => hmem m hm⟩

lemma rollback_settings_only (h : WellFormed config cache) (hno : NoSettings cache)
    (hmo : transaction.modifications = []) :
    rollbackSettings transaction (modifySettings transaction cache) = cache := by
  apply ExtTreeMap.ext_getElem?
  intro u
  by_cases hu : u = transaction.signer
  · subst hu
    cases hold : cache[transaction.signer]? with
    | none =>
      have hg : (modifySettings transaction cache)[transaction.signer]? = none := by
        rw [getElem?_modifySettings_self, hold]
        rfl
      have hn : transaction.signer ∉ modifySettings transaction cache := by
        rw [ExtTreeMap.mem_iff_isSome_getElem?, hg]
        decide
      rw [rollbackSettings, if_pos ⟨hn, hmo⟩, hg]
    | some entry =>
      obtain ⟨ha, hrmv⟩ := h.settings_lt hno hold
      exact rollbackSettings_modifySettings hold ha hrmv
  · rw [getElem?_rollbackSettings_of_ne hu, getElem?_modifySettings_of_ne hu]

lemma subtractsSettings_of_nil (h : WellFormed config cache) (hmo : transaction.modifications = []) :
    SubtractsSettings cache transaction := by
  rintro entry ⟨hentry, haccounts, -, hall⟩
  refine absurd ⟨?_, haccounts⟩ (h.linked _ entry hentry)
  refine ext_mem fun v => ⟨fun hv => ?_, fun hv => absurd rfl (ne_empty_of_mem hv)⟩
  obtain ⟨m, hm, -⟩ := hall v hv
  rw [hmo] at hm
  cases hm

lemma rollback_modifications (hfuel : config.maxMultisigDepth < fuel) (h : WellFormed config cache)
    (hnone : NoSettings cache) (hmo : transaction.modifications ≠ [])
    (hok : executeCosigners config fuel transaction cache = .ok cache') :
    ∃ entry minApproval minRemoval restored,
      (getMultisigEntry transaction.signer cache)[transaction.signer]? = some entry ∧
      rollbackCosigners transaction (rollbackSettings transaction (modifySettings transaction cache')) = .ok restored ∧
      restored[transaction.signer]? = ({ entry with minApproval, minRemoval } : MultisigEntry).unlessEmpty ∧
      (∀ u ≠ transaction.signer, restored[u]? = cache[u]?) ∧
      (minApproval = entry.minApproval ∧ minRemoval = entry.minRemoval ↔ SubtractsSettings cache transaction) := by
  obtain ⟨happlicable, relinked, hcommit, rfl⟩ := h.executeCosigners_eq_ok hfuel hok
  obtain ⟨entry, hentry⟩ := h.consistent_getMultisigEntry.signer_entry
  obtain ⟨between, hbetween, hmem⟩ := hcommit.signer entry hentry
  obtain ⟨minApproval, minRemoval, hsigner, hsettings⟩ :=
    signer_after_rollbackSettings hentry happlicable hmo hmem h hnone hbetween
  have hsame : ∀ u ≠ transaction.signer, (getMultisigEntry transaction.signer (rollbackSettings transaction
      (modifySettings transaction (removeIfEmpty transaction.signer relinked))))[u]? = relinked[u]? := by
    intro u hu
    rw [getElem?_getMultisigEntry_of_ne hu, getElem?_rollbackSettings_of_ne hu, getElem?_modifySettings_of_ne hu,
      getElem?_removeIfEmpty_of_ne hu]
  obtain ⟨after, hfold, hrollback⟩ := @foldlM_applyModificationIn_eq_ok false transaction.signer _ _ happlicable.nodup
    happlicable.ne_signer fun m hm hadd => by
      rw [hsame _ (happlicable.ne_signer m hm), hcommit.added m hm (Bool.eq_true_of_not_eq_false hadd)]
      exact ⟨_, rfl⟩
  obtain ⟨restored, hrestored, hmem'⟩ := hrollback.signer _ (by rw [getElem?_getMultisigEntry_self, hsigner, getD_some])
  obtain rfl := cosignatories_restored happlicable.nodup
    (fun m hm => mem_cosignatories_iff hentry happlicable hm) hmem hmem'
  refine ⟨entry, minApproval, minRemoval, _, hentry, bind_eq_ok.mpr ⟨after, hfold, rfl⟩, ?_, fun u hu => ?_, hsettings⟩
  · rw [getElem?_removeIfEmpty_self, hrestored, bind_some]
    rfl
  · rw [getElem?_removeIfEmpty_of_ne hu]
    by_cases hkey : u ∈ transaction.modifications.map CosignatoryModification.cosignatoryPublicKey
    · obtain ⟨m, hm, rfl⟩ := mem_map.mp hkey
      cases hadd : isAdd m with
      | true =>
        refine getElem?_of_added h hu hm hcommit (hsame _ hu) hrollback hadd ?_
        rw [happlicable.cosigns m hm, hadd]
        decide
      | false =>
        exact getElem?_of_removed h hu hm hcommit (hsame _ hu) hrollback hnone hadd
          ((happlicable.cosigns m hm).mpr hadd)
    · rw [hrollback.other u hu hkey, hsame u hu, hcommit.other u hu hkey, getElem?_getMultisigEntry_of_ne hu]

theorem multisig_rollback_inverts_commit_iff (hfuel : config.maxMultisigDepth < fuel)
    {transactions : List ModifyMultisigAccount} (hreached : transactions.foldlM (execute config fuel) ∅ = .ok cache)
    (hok : execute config fuel cache transaction = .ok cache') :
    rollback transaction cache' = .ok cache ↔ SubtractsSettings cache transaction := by
  have h := wellFormed_run hfuel hreached
  have hnone := noSettings_run hfuel hreached
  obtain ⟨next, hnext, hok⟩ := bind_eq_ok.mp hok
  obtain ⟨_, -, hok⟩ := bind_eq_ok.mp hok
  cases hok
  rw [executeModifications] at hnext
  rw [rollback]
  by_cases hmodifications : transaction.modifications = []
  · rw [if_pos hmodifications] at hnext ⊢
    cases hnext
    rw [rollback_settings_only h hnone hmodifications]
    exact iff_of_true rfl (subtractsSettings_of_nil h hmodifications)
  · rw [if_neg hmodifications] at hnext ⊢
    obtain ⟨entry, minApproval, minRemoval, restored, hentry, hrollback, hsigner, hother, hsettings⟩ :=
      rollback_modifications hfuel h hnone hmodifications hnext
    rw [hrollback, Except.ok.injEq]
    constructor
    · rintro rfl
      cases hold : restored[transaction.signer]? with
      | none => exact fun entry hremoves => absurd (hold.symm.trans hremoves.1) (by simp)
      | some other =>
        obtain rfl := eq_of_signer_some hentry hold
        obtain ⟨heq, -⟩ := unlessEmpty_eq_some.mp (hsigner.symm.trans hold)
        exact hsettings.mp ⟨congrArg (·.minApproval) heq, congrArg (·.minRemoval) heq⟩
    · intro hs
      obtain ⟨rfl, rfl⟩ := hsettings.mpr hs
      apply ExtTreeMap.ext_getElem?
      intro u
      by_cases hu : u = transaction.signer
      · subst hu
        rw [hsigner]
        cases hold : cache[transaction.signer]? with
        | none =>
          rw [eq_default_of_signer_none hentry hold]
          exact unlessEmpty_of_isEmpty ⟨rfl, rfl⟩
        | some other =>
          rw [eq_of_signer_some hentry hold]
          exact unlessEmpty_of_not_isEmpty (h.linked _ other hold)
      · exact hother u hu

/-! Account 1 gets its only cosignatory 2, and loses it again. -/

def onlyCosigner : List ModifyMultisigAccount := [⟨1, 1, 1, [⟨.add, 2⟩], by decide, false⟩]

def lastRemoval (delta : ℤ) : ModifyMultisigAccount := ⟨1, delta, delta, [⟨.del, 2⟩], by decide, false⟩

theorem multisig_rollback_inverts_commit_sample :
    ∃ cache cache', onlyCosigner.foldlM (execute sampleConfiguration 4) ∅ = .ok cache ∧
      execute sampleConfiguration 4 cache (lastRemoval (-1)) = .ok cache' ∧
        rollback (lastRemoval (-1)) cache' = .ok cache := by
  have hboth : (onlyCosigner.foldlM (execute sampleConfiguration 4) ∅ >>= fun cache => do
      let _ ← execute sampleConfiguration 4 cache (lastRemoval (-1))
      return (cache[(1 : Key)]?.map fun entry => (entry.minApproval, entry.minRemoval))) = .ok (some (1, 1)) := by
    decide +kernel
  obtain ⟨cache, hcache, hboth⟩ := bind_eq_ok.mp hboth
  obtain ⟨cache', hcache', hsettings⟩ := bind_eq_ok.mp hboth
  refine ⟨cache, cache', hcache, hcache', (multisig_rollback_inverts_commit_iff (by decide) hcache hcache').mpr ?_⟩
  rintro entry ⟨hentry, -⟩
  have hsame := Except.ok.inj hsettings
  rw [show cache[(1 : Key)]? = some entry from hentry, map_some, some.injEq, Prod.mk.injEq] at hsame
  rw [hsame.1, hsame.2]
  exact ⟨rfl, rfl⟩

/-- The removal is accepted with any two equal deltas, and the settings come back from them. -/
theorem rollback_loses_settings_of_removed_entry :
    (onlyCosigner.foldlM (execute sampleConfiguration 4) ∅ >>= fun cache => do
      let committed ← execute sampleConfiguration 4 cache (lastRemoval 0)
      let restored ← rollback (lastRemoval 0) committed
      return (cache[(1 : Key)]?.map fun entry => (entry.minApproval, entry.minRemoval),
        restored[(1 : Key)]?.map fun entry => (entry.minApproval, entry.minRemoval))) =
      .ok (some (1, 1), some (0, 0)) := by
  decide +kernel

end

end XpxChain.Multisig
