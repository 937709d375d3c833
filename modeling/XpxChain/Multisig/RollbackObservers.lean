import XpxChain.Multisig.Invariants

/-! The observers of a modification in rollback mode, and the settings that they meet. -/

namespace XpxChain.Multisig

open Std Library Exceptions BoundedPaths ExtTreeSet List Option

def applyModificationIn (forward : Bool) (signer : Key) (cache : MultisigCache)
    (modification : CosignatoryModification) : Except MultisigError MultisigCache :=
  if isAdd modification = forward then .ok (addCosignatory signer modification.cosignatoryPublicKey cache)
  else removeCosignatory signer modification.cosignatoryPublicKey cache

lemma applyModificationIn_true (signer : Key) : applyModificationIn true signer = applyModification signer := rfl

def rollbackCosigners (transaction : ModifyMultisigAccount) (cache : MultisigCache) :
    Except MultisigError MultisigCache := do
  let cache ← transaction.modifications.foldlM (applyModificationIn false transaction.signer)
    (getMultisigEntry transaction.signer cache)
  return removeIfEmpty transaction.signer cache

def rollbackSettings (transaction : ModifyMultisigAccount) (cache : MultisigCache) : MultisigCache :=
  if transaction.signer ∉ cache ∧ transaction.modifications = [] then cache
  else
    modify transaction.signer
      (fun entry =>
        { entry with
          minApproval := addDelta entry.minApproval (-transaction.minApprovalDelta)
          minRemoval := addDelta entry.minRemoval (-transaction.minRemovalDelta) })
      (getMultisigEntry transaction.signer cache)

def rollback (transaction : ModifyMultisigAccount) (cache : MultisigCache) : Except MultisigError MultisigCache :=
  if transaction.modifications = [] then .ok (rollbackSettings transaction cache)
  else rollbackCosigners transaction (rollbackSettings transaction cache)

section

variable {forward : Bool} {signer u v : Key} {cache cache' : MultisigCache} {modification : CosignatoryModification}
  {modifications : List CosignatoryModification} {entry : MultisigEntry}

def MultisigEntry.withCosignatories (entry : MultisigEntry) (cosignatories : KeySet) : MultisigEntry :=
  { entry with cosignatories }

def MultisigEntry.unlessEmpty (entry : MultisigEntry) : Option MultisigEntry :=
  if entry.cosignatories.isEmpty && entry.multisigAccounts.isEmpty then none else some entry

lemma unlessEmpty_eq_some {entry' : MultisigEntry} :
    entry.unlessEmpty = some entry' ↔ entry = entry' ∧ ¬entry.IsEmpty := by
  rw [MultisigEntry.unlessEmpty, MultisigEntry.IsEmpty]
  split_ifs with hemp
  · simp_all
  · simp_all

lemma unlessEmpty_of_isEmpty (h : entry.IsEmpty) : entry.unlessEmpty = none := by
  simp [MultisigEntry.unlessEmpty, h.1, h.2]

lemma unlessEmpty_of_not_isEmpty (h : ¬entry.IsEmpty) : entry.unlessEmpty = some entry :=
  unlessEmpty_eq_some.mpr ⟨rfl, h⟩

lemma getElem?_removeIfEmpty_self : (removeIfEmpty u cache)[u]? = cache[u]?.bind MultisigEntry.unlessEmpty := by
  ext entry
  rw [getElem?_removeIfEmpty, bind_eq_some_iff]
  constructor
  · rintro ⟨hentry, hemp⟩
    exact ⟨entry, hentry, unlessEmpty_of_not_isEmpty (hemp rfl)⟩
  · rintro ⟨entry', hentry', hs⟩
    obtain ⟨rfl, hemp⟩ := unlessEmpty_eq_some.mp hs
    exact ⟨hentry', fun _ => hemp⟩

lemma getElem?_removeIfEmpty_of_ne (h : u ≠ v) : (removeIfEmpty v cache)[u]? = cache[u]? := by
  ext entry
  rw [getElem?_removeIfEmpty]
  exact ⟨fun hb => hb.1, fun hentry => ⟨hentry, fun heq => absurd heq.symm h⟩⟩

structure Relinked (forward : Bool) (signer : Key) (modifications : List CosignatoryModification)
    (cache cache' : MultisigCache) : Prop where
  other : ∀ u ≠ signer, u ∉ modifications.map CosignatoryModification.cosignatoryPublicKey → cache'[u]? = cache[u]?
  added : ∀ m ∈ modifications, isAdd m = forward → cache'[m.cosignatoryPublicKey]? =
    some { cache[m.cosignatoryPublicKey]?.getD {} with
      multisigAccounts := (cache[m.cosignatoryPublicKey]?.getD {}).multisigAccounts.insert signer }
  removed : ∀ m ∈ modifications, isAdd m ≠ forward → ∀ entry, cache[m.cosignatoryPublicKey]? = some entry →
    cache'[m.cosignatoryPublicKey]? =
      ({ entry with multisigAccounts := entry.multisigAccounts.erase signer } : MultisigEntry).unlessEmpty
  signer : ∀ entry, cache[signer]? = some entry →
    ∃ cosignatories, cache'[signer]? = some (entry.withCosignatories cosignatories) ∧
    ∀ v, v ∈ cosignatories ↔
      (v ∈ entry.cosignatories ∧ ∀ m ∈ modifications, isAdd m ≠ forward → m.cosignatoryPublicKey ≠ v) ∨
        ∃ m ∈ modifications, isAdd m = forward ∧ m.cosignatoryPublicKey = v

lemma getElem?_removeCosignatory {cosignatory : Key} (hne : cosignatory ≠ signer)
    (hentry : cache[cosignatory]? = some entry) :
    ∃ cache', removeCosignatory signer cosignatory cache = .ok cache' ∧ ∀ u, cache'[u]? =
      if signer = u then cache[u]?.map fun entry =>
        { entry with cosignatories := entry.cosignatories.erase cosignatory }
      else if cosignatory = u then
        ({ entry with multisigAccounts := entry.multisigAccounts.erase signer } : MultisigEntry).unlessEmpty
      else cache[u]? := by
  obtain ⟨cache', hok, hl⟩ := removeCosignatory_eq_ok hne hentry
  refine ⟨cache', hok, fun u => ?_⟩
  ext entry'
  rw [hl, getElem?_eraseCosignatory]
  by_cases hs : signer = u
  · subst hs
    simp [Ne.symm hne]
  · by_cases hc : cosignatory = u
    · subst hc
      rw [if_neg hs, if_neg hs, if_pos rfl, unlessEmpty_eq_some]
      constructor
      · rintro (⟨-, hf⟩ | ⟨-, rfl, hemp⟩)
        · exact absurd rfl hf
        · exact ⟨rfl, hemp⟩
      · rintro ⟨rfl, hemp⟩
        exact Or.inr ⟨rfl, rfl, hemp⟩
    · simp [hs, hc, Ne.symm hc]

lemma applyModificationIn_eq_ok (hne : modification.cosignatoryPublicKey ≠ signer)
    (hk : isAdd modification ≠ forward → ∃ entry, cache[modification.cosignatoryPublicKey]? = some entry) :
    ∃ cache', applyModificationIn forward signer cache modification = .ok cache' ∧
      Relinked forward signer [modification] cache cache' := by
  rw [applyModificationIn]
  by_cases hadd : isAdd modification = forward
  · rw [if_pos hadd]
    refine ⟨_, rfl, ?_, ?_, ?_, ?_⟩
    · intro u hu hkey
      rw [getElem?_addCosignatory hne, if_neg (Ne.symm hu), if_neg (by simpa [eq_comm] using hkey)]
    · intro m hm _
      obtain rfl := mem_singleton.mp hm
      rw [getElem?_addCosignatory hne, if_neg (Ne.symm hne), if_pos rfl]
    · intro m hm hrem
      obtain rfl := mem_singleton.mp hm
      exact absurd hadd hrem
    · intro entry hentry
      refine ⟨entry.cosignatories.insert modification.cosignatoryPublicKey, ?_, ?_⟩
      · rw [getElem?_addCosignatory hne, if_pos rfl, hentry]
        rfl
      · intro v
        rw [mem_insert]
        simp only [mem_singleton, forall_eq, exists_eq_left, hadd, @eq_comm _ v]
        tauto
  · rw [if_neg hadd]
    obtain ⟨entry, hentry⟩ := hk hadd
    obtain ⟨cache', hok, hl⟩ := getElem?_removeCosignatory hne hentry
    refine ⟨cache', hok, ?_, ?_, ?_, ?_⟩
    · intro u hu hkey
      rw [hl, if_neg (Ne.symm hu), if_neg (by simpa [eq_comm] using hkey)]
    · intro m hm ha
      obtain rfl := mem_singleton.mp hm
      exact absurd ha hadd
    · intro m hm _ entry' hentry'
      obtain rfl := mem_singleton.mp hm
      rw [hentry] at hentry'
      cases hentry'
      rw [hl, if_neg (Ne.symm hne), if_pos rfl]
    · intro entry' hentry'
      refine ⟨entry'.cosignatories.erase modification.cosignatoryPublicKey, ?_, ?_⟩
      · rw [hl, if_pos rfl, hentry']
        rfl
      · intro v
        rw [mem_erase]
        simp only [mem_singleton, forall_eq, exists_eq_left, @ne_comm _ v]
        tauto

lemma foldlM_applyModificationIn_eq_ok (hnd : (modifications.map CosignatoryModification.cosignatoryPublicKey).Nodup)
    (hne : ∀ m ∈ modifications, m.cosignatoryPublicKey ≠ signer)
    (hko : ∀ m ∈ modifications, isAdd m ≠ forward → ∃ entry, cache[m.cosignatoryPublicKey]? = some entry) :
    ∃ cache', modifications.foldlM (applyModificationIn forward signer) cache = .ok cache' ∧
      Relinked forward signer modifications cache cache' := by
  induction modifications generalizing cache with
  | nil =>
    refine ⟨cache, rfl, fun _ _ _ => rfl, by simp, by simp, ?_⟩
    intro entry hentry
    exact ⟨entry.cosignatories, hentry, by simp⟩
  | cons m rest ih =>
    obtain ⟨hn, hnd⟩ := nodup_cons.mp hnd
    obtain ⟨hm, hr⟩ := forall_mem_cons.mp hne
    obtain ⟨hk, hkn⟩ := forall_mem_cons.mp hko
    obtain ⟨next, hok, hh⟩ := applyModificationIn_eq_ok hm hk
    have hkey : ∀ m' ∈ rest, m'.cosignatoryPublicKey ≠ m.cosignatoryPublicKey := by
      intro m' hm' heq
      exact hn (heq ▸ mem_map_of_mem hm')
    have hsame : ∀ m' ∈ rest, next[m'.cosignatoryPublicKey]? = cache[m'.cosignatoryPublicKey]? := by
      intro m' hm'
      exact hh.other _ (hr m' hm') (by simpa using hkey m' hm')
    obtain ⟨cache', hf, ht⟩ := ih hnd hr fun m' hm' hrem => by
      rw [hsame m' hm']
      exact hkn m' hm' hrem
    have hke : cache'[m.cosignatoryPublicKey]? = next[m.cosignatoryPublicKey]? := ht.other _ hm hn
    refine ⟨cache', by rw [foldlM_cons]; exact bind_eq_ok.mpr ⟨next, hok, hf⟩, ?_, ?_, ?_, ?_⟩
    · intro u hu hmem
      rw [map_cons, mem_cons, not_or] at hmem
      rw [ht.other u hu hmem.2, hh.other u hu (by simpa using hmem.1)]
    · intro m' hm' ha
      rcases mem_cons.mp hm' with rfl | hm'
      · rw [hke, hh.added m' (mem_singleton_self m') ha]
      · rw [ht.added m' hm' ha, hsame m' hm']
    · intro m' hm' hrem entry hentry
      rcases mem_cons.mp hm' with rfl | hm'
      · rw [hke, hh.removed m' (mem_singleton_self m') hrem entry hentry]
      · exact ht.removed m' hm' hrem entry (by rw [hsame m' hm', hentry])
    · intro entry hentry
      obtain ⟨between, hb, hmem⟩ := hh.signer entry hentry
      obtain ⟨cosignatories, hcos, hmem'⟩ := ht.signer _ hb
      refine ⟨cosignatories, hcos, fun v => ?_⟩
      rw [hmem', MultisigEntry.withCosignatories, hmem]
      simp only [mem_singleton, forall_eq, exists_eq_left, forall_mem_cons, exists_mem_cons_iff]
      by_cases hv : m.cosignatoryPublicKey = v
      · subst hv
        have hno : ∀ m' ∈ rest, isAdd m' ≠ forward → m'.cosignatoryPublicKey ≠ m.cosignatoryPublicKey :=
          fun m' hm' _ => hkey m' hm'
        tauto
      · tauto

end

section

variable {config : MultisigConfiguration} {fuel : ℕ} {cache cache' : MultisigCache}
  {transaction : ModifyMultisigAccount} {signer u : Key} {modifications : List CosignatoryModification}

def NoSettings (cache : MultisigCache) : Prop :=
  ∀ (u : Key) (entry : MultisigEntry), cache[u]? = some entry → entry.cosignatories = ∅ →
    entry.minApproval = 0 ∧ entry.minRemoval = 0

lemma getElem?_getMultisigEntry_of_ne (h : u ≠ signer) : (getMultisigEntry signer cache)[u]? = cache[u]? := by
  rw [getElem?_getMultisigEntry, if_neg (Ne.symm h)]

lemma getElem?_getMultisigEntry_self : (getMultisigEntry signer cache)[signer]? = some (cache[signer]?.getD {}) := by
  rw [getElem?_getMultisigEntry, if_pos rfl]

lemma WellFormed.known_of_removed (h : WellFormed config cache)
    (happ : Applicable signer (getMultisigEntry signer cache) modifications) :
    ∀ m ∈ modifications, isAdd m ≠ true →
      ∃ entry, (getMultisigEntry signer cache)[m.cosignatoryPublicKey]? = some entry := by
  intro m hm hrem
  obtain ⟨entry, hentry, -⟩ := (h.consistent_getMultisigEntry.symmetric _ _).mp
    ((happ.cosigns m hm).mpr (Bool.eq_false_of_not_eq_true hrem))
  exact ⟨entry, hentry⟩

lemma WellFormed.executeCosigners_eq_ok (h : WellFormed config cache) (hfu : config.maxMultisigDepth < fuel)
    (hok : Multisig.executeCosigners config fuel transaction cache = .ok cache') :
    Applicable transaction.signer (getMultisigEntry transaction.signer cache) transaction.modifications ∧
      ∃ relinked, Relinked true transaction.signer transaction.modifications
        (getMultisigEntry transaction.signer cache) relinked ∧
        cache' = removeIfEmpty transaction.signer relinked := by
  obtain ⟨_, hfo, hok⟩ := bind_eq_ok.mp hok
  obtain ⟨_, hval, hok⟩ := bind_eq_ok.mp hok
  obtain ⟨_, hmax, hok⟩ := bind_eq_ok.mp hok
  obtain ⟨_, hi, hok⟩ := bind_eq_ok.mp hok
  have happ := h.applicable (fun m hm hadd =>
    (validateNewCosigner_eq_ok h.toCosignerGraph hfu (forM_eq_ok.mp hfo m (mem_filter.mpr ⟨hm, hadd⟩))).1) hval hi
  refine ⟨happ, ?_⟩
  obtain ⟨relinked, hf, hrel⟩ := @foldlM_applyModificationIn_eq_ok true _ _ _ happ.nodup happ.ne_signer
    (h.known_of_removed happ)
  obtain ⟨relinked', hf', hok⟩ := bind_eq_ok.mp hok
  rw [applyModificationIn_true, hf'] at hf
  cases hf
  exact ⟨relinked, hrel, (Except.ok.inj hok).symm⟩

lemma Relinked.settings_of_ne {forward : Bool} {modifications : List CosignatoryModification}
    (h : Relinked forward signer modifications cache cache') (hu : u ≠ signer)
    (hk : ∀ m ∈ modifications, isAdd m ≠ forward → ∃ entry, cache[m.cosignatoryPublicKey]? = some entry)
    {entry' : MultisigEntry} (hentry' : cache'[u]? = some entry') : entry'.toCosignatorySettings = {} ∨
      ∃ entry, cache[u]? = some entry ∧ entry.toCosignatorySettings = entry'.toCosignatorySettings := by
  by_cases hmem : u ∈ modifications.map CosignatoryModification.cosignatoryPublicKey
  · obtain ⟨m, hm, rfl⟩ := mem_map.mp hmem
    by_cases hadd : isAdd m = forward
    · rw [h.added m hm hadd] at hentry'
      cases hentry'
      cases hold : cache[m.cosignatoryPublicKey]? with
      | none => exact Or.inl rfl
      | some entry => exact Or.inr ⟨entry, rfl, rfl⟩
    · obtain ⟨entry, hentry⟩ := hk m hm hadd
      rw [h.removed m hm hadd entry hentry, unlessEmpty_eq_some] at hentry'
      exact Or.inr ⟨entry, hentry, by rw [← hentry'.1]⟩
  · exact Or.inr ⟨entry', by rw [← h.other u hu hmem, hentry'], rfl⟩

lemma noSettings_empty : NoSettings ∅ := by
  intro u entry hentry
  simp at hentry

lemma noSettings_modifySettings
    (ho : ∀ u ≠ transaction.signer, ∀ entry : MultisigEntry, cache[u]? = some entry → entry.cosignatories = ∅ →
      entry.minApproval = 0 ∧ entry.minRemoval = 0)
    (hval : validateSettings cache transaction = .ok ()) : NoSettings (modifySettings transaction cache) := by
  intro u entry hentry hemp
  rw [modifySettings, getElem?_modify] at hentry
  split_ifs at hentry with hu
  · subst hu
    obtain ⟨entry₀, hentry₀, rfl⟩ := map_eq_some_iff.mp hentry
    rw [validateSettings, hentry₀] at hval
    change (if _ then _ else if _ then _ else _) = _ at hval
    split_ifs at hval with hr hl
    have hsz : entry₀.cosignatories.size = 0 := eq_empty_iff_size_eq_zero.mp hemp
    simp only [not_or, Int.not_lt, hsz] at hr hl
    have ha : (entry₀.minApproval : ℤ) + transaction.minApprovalDelta = 0 := by omega
    have hrmv : (entry₀.minRemoval : ℤ) + transaction.minRemovalDelta = 0 := by omega
    simp [addDelta, ha, hrmv]
  · exact ho u (Ne.symm hu) entry hentry hemp

lemma NoSettings.execute (h : WellFormed config cache) (hf : config.maxMultisigDepth < fuel) (hno : NoSettings cache)
    (hok : Multisig.execute config fuel cache transaction = .ok cache') : NoSettings cache' := by
  obtain ⟨next, hn, hok⟩ := bind_eq_ok.mp hok
  obtain ⟨_, hset, hok⟩ := bind_eq_ok.mp hok
  cases hok
  apply noSettings_modifySettings _ hset
  rw [executeModifications] at hn
  split_ifs at hn
  · cases hn
    exact fun u _ => hno u
  · obtain ⟨happ, relinked, hrel, rfl⟩ := h.executeCosigners_eq_ok hf hn
    intro u hu entry hentry hemp
    rw [getElem?_removeIfEmpty_of_ne hu] at hentry
    rcases hrel.settings_of_ne hu (h.known_of_removed happ) hentry with hd | ⟨entry₀, hentry₀, heq⟩
    · rw [hd]
      exact ⟨rfl, rfl⟩
    · rw [getElem?_getMultisigEntry_of_ne hu] at hentry₀
      rw [← heq]
      exact hno u entry₀ hentry₀ (by rw [heq, hemp])

lemma noSettings_run (hf : config.maxMultisigDepth < fuel) {transactions : List ModifyMultisigAccount}
    (h : transactions.foldlM (execute config fuel) ∅ = .ok cache) : NoSettings cache := by
  have hb :=
    foldlM_invariant (fun _ cache => WellFormed config cache ∧ NoSettings cache) h
    ⟨wellFormed_empty, noSettings_empty⟩ (by
      intro past transaction rest cache cache' _ hc hok
      exact ⟨(hc.1.execute hf).2 cache' hok, hc.2.execute hc.1 hf hok⟩)
  exact hb.2

lemma WellFormed.settings_lt (h : WellFormed config cache) (hn : NoSettings cache) {entry : MultisigEntry}
    (hentry : cache[u]? = some entry) : entry.minApproval < 2 ^ 8 ∧ entry.minRemoval < 2 ^ 8 := by
  by_cases hemp : entry.cosignatories = ∅
  · obtain ⟨ha, hrmv⟩ := hn u entry hentry hemp
    omega
  · obtain ⟨ha, hrmv⟩ := h.inRange u entry hentry hemp
    have hsz := h.size_le u entry hentry
    have hlt := config.maxCosignersPerAccount_lt
    omega

lemma addDelta_neg_addDelta {value : ℕ} (h : value < 2 ^ 8) (delta : ℤ) :
    addDelta (addDelta value delta) (-delta) = value := by
  rw [addDelta, addDelta]
  omega

lemma addDelta_zero_neg_eq {value : ℕ} (h : value < 2 ^ 8) {delta : ℤ} :
    addDelta 0 (-delta) = value ↔ addDelta value delta = 0 := by
  rw [addDelta, addDelta]
  omega

end

end XpxChain.Multisig
