import XpxChain.Multisig.Searches

/-! What the observers do to the links of the cosigner graph. -/

namespace XpxChain.Multisig

open Std Library Exceptions BoundedPaths ExtTreeSet List

variable {links : MultisigEntry → KeySet} {cache : MultisigCache} {fuel : ℕ} {key u v : Key}

variable {cache cache' : MultisigCache} {key u v signer cosignatory : Key} {change : MultisigEntry → MultisigEntry}

section

section

variable (hne : cosignatory ≠ signer)
include hne

lemma getElem?_addCosignatory : (addCosignatory signer cosignatory cache)[u]? =
    if signer = u then cache[u]?.map fun entry => { entry with cosignatories := entry.cosignatories.insert cosignatory }
    else if cosignatory = u then
      some { cache[u]?.getD {} with multisigAccounts := (cache[u]?.getD {}).multisigAccounts.insert signer }
    else cache[u]? := by
  rw [addCosignatory, getElem?_modify, getElem?_modify, getElem?_getMultisigEntry]
  split_ifs with hs hc hc
  · exact absurd (hc.trans hs.symm) hne
  · rfl
  · rfl
  · rfl

lemma cosigns_addCosignatory (hsi : ∃ entry, cache[signer]? = some entry) :
    Cosigns (addCosignatory signer cosignatory cache) u v ↔ Cosigns cache u v ∨ u = signer ∧ v = cosignatory := by
  obtain ⟨entry, hent⟩ := hsi
  rw [Cosigns, Cosigns, Links, Links, getElem?_addCosignatory hne]
  by_cases hs : signer = u
  · subst hs
    rw [hent]
    simp [or_comm, eq_comm (a := v)]
  · rw [if_neg hs]
    by_cases hc : cosignatory = u
    · subst hc
      cases hold : cache[cosignatory]? <;> simp [hne]
    · rw [if_neg hc]
      simp [Ne.symm hs]

lemma cosignsFor_addCosignatory :
    CosignsFor (addCosignatory signer cosignatory cache) u v ↔ CosignsFor cache u v ∨ u = cosignatory ∧ v = signer := by
  rw [CosignsFor, CosignsFor, Links, Links, getElem?_addCosignatory hne]
  by_cases hs : signer = u
  · subst hs
    cases hold : cache[signer]? <;> simp [Ne.symm hne]
  · rw [if_neg hs]
    by_cases hc : cosignatory = u
    · subst hc
      cases hold : cache[cosignatory]? <;> simp [or_comm, eq_comm (a := v)]
    · rw [if_neg hc]
      simp [Ne.symm hc]

lemma keepsSettings_addCosignatory :
    KeepsSettings signer cache (addCosignatory signer cosignatory cache) := by
  intro u hu entry' hent' hcos
  rw [getElem?_addCosignatory hne, if_neg (Ne.symm hu)] at hent'
  split_ifs at hent' with hc
  · cases hent'
    cases hold : cache[u]? with
    | none =>
      rw [hold] at hcos
      exact absurd rfl hcos
    | some entry => exact ⟨entry, rfl, rfl⟩
  · exact ⟨entry', hent', rfl⟩

end

lemma Consistent.addCosignatory (h : Consistent signer cache) (hne : cosignatory ≠ signer) :
    Consistent signer (addCosignatory signer cosignatory cache) where
  symmetric u v := by
    rw [cosigns_addCosignatory hne h.signer_entry, cosignsFor_addCosignatory hne, h.symmetric u v, and_comm]
  linked u hu entry hent hemp := by
    rw [getElem?_addCosignatory hne, if_neg (Ne.symm hu)] at hent
    split_ifs at hent with hc
    · cases hent
      exact ne_empty_of_mem mem_insert_self hemp.2
    · exact h.linked u hu entry hent hemp
  signer_entry := by
    obtain ⟨entry, hent⟩ := h.signer_entry
    exact ⟨_, by rw [getElem?_addCosignatory hne, if_pos rfl, hent]; rfl⟩

end

section

lemma getElem?_eraseCosignatory : (eraseCosignatory signer cosignatory cache)[u]? =
    if signer = u then cache[u]?.map fun entry => { entry with cosignatories := entry.cosignatories.erase cosignatory }
    else cache[u]? := getElem?_modify

/-- The entries after a removal: those of before, without the two links, and the cosignatory only while it has links. -/
def HasRemoved (signer cosignatory : Key) (entry : MultisigEntry) (cache cache' : MultisigCache) : Prop :=
  ∀ u entry', cache'[u]? = some entry' ↔
    (eraseCosignatory signer cosignatory cache)[u]? = some entry' ∧ u ≠ cosignatory ∨
    u = cosignatory ∧ entry' = { entry with multisigAccounts := entry.multisigAccounts.erase signer } ∧ ¬entry'.IsEmpty

section

variable (hne : cosignatory ≠ signer) {entry : MultisigEntry} (hent : cache[cosignatory]? = some entry)
include hne hent

lemma removeCosignatory_eq_ok :
    ∃ cache', removeCosignatory signer cosignatory cache = .ok cache' ∧
      HasRemoved signer cosignatory entry cache cache' := by
  have hl : (eraseCosignatory signer cosignatory cache)[cosignatory]? = some entry := by
    rw [getElem?_eraseCosignatory, if_neg (Ne.symm hne), hent]
  have hmem : cosignatory ∈ eraseCosignatory signer cosignatory cache := by
    rw [ExtTreeMap.mem_iff_isSome_getElem?, hl]
    rfl
  refine ⟨_, if_pos hmem, fun u entry' => ?_⟩
  rw [getElem?_removeIfEmpty, getElem?_modify]
  by_cases hu : cosignatory = u
  · subst hu
    rw [hl]
    simp [eq_comm]
  · simp [hu, Ne.symm hu]

variable (hl : HasRemoved signer cosignatory entry cache cache')
include hl

lemma HasRemoved.cosigns_iff : Cosigns cache' u v ↔ Cosigns cache u v ∧ ¬(u = signer ∧ v = cosignatory) := by
  constructor
  · rintro ⟨entry', hent', hv⟩
    rcases (hl u entry').mp hent' with ⟨hold, hu⟩ | ⟨rfl, rfl, -⟩
    · rw [getElem?_eraseCosignatory] at hold
      split_ifs at hold with hs
      · obtain ⟨entry₀, hent₀, rfl⟩ := Option.map_eq_some_iff.mp hold
        obtain ⟨hvne, hv⟩ := mem_erase.mp hv
        exact ⟨⟨entry₀, hent₀, hv⟩, fun h => hvne h.2⟩
      · exact ⟨⟨entry', hold, hv⟩, fun h => hs h.1.symm⟩
    · exact ⟨⟨entry, hent, hv⟩, fun h => hne h.1⟩
  · rintro ⟨⟨entry₀, hent₀, hv⟩, hnot⟩
    by_cases hu : u = cosignatory
    · subst hu
      rw [hent] at hent₀
      cases hent₀
      exact ⟨_, (hl _ _).mpr (Or.inr ⟨rfl, rfl, fun hemp => ne_empty_of_mem hv hemp.1⟩), hv⟩
    · by_cases hs : signer = u
      · subst hs
        have hv' : v ∈ entry₀.cosignatories.erase cosignatory := mem_erase.mpr ⟨fun hv' => hnot ⟨rfl, hv'⟩, hv⟩
        refine ⟨{ entry₀ with cosignatories := entry₀.cosignatories.erase cosignatory },
          (hl _ _).mpr (Or.inl ⟨?_, hu⟩), hv'⟩
        rw [getElem?_eraseCosignatory, if_pos rfl, hent₀]
        rfl
      · refine ⟨entry₀, (hl _ _).mpr (Or.inl ⟨?_, hu⟩), hv⟩
        rw [getElem?_eraseCosignatory, if_neg hs, hent₀]

omit hne in
lemma HasRemoved.cosignsFor_iff : CosignsFor cache' u v ↔ CosignsFor cache u v ∧ ¬(u = cosignatory ∧ v = signer) := by
  constructor
  · rintro ⟨entry', hent', hv⟩
    rcases (hl u entry').mp hent' with ⟨hold, hu⟩ | ⟨rfl, rfl, -⟩
    · rw [getElem?_eraseCosignatory] at hold
      refine ⟨?_, fun h => hu h.1⟩
      split_ifs at hold with hs
      · obtain ⟨entry₀, hent₀, rfl⟩ := Option.map_eq_some_iff.mp hold
        exact ⟨entry₀, hent₀, hv⟩
      · exact ⟨entry', hold, hv⟩
    · obtain ⟨hvne, hv⟩ := mem_erase.mp hv
      exact ⟨⟨entry, hent, hv⟩, fun h => hvne h.2⟩
  · rintro ⟨⟨entry₀, hent₀, hv⟩, hnot⟩
    by_cases hu : u = cosignatory
    · subst hu
      rw [hent] at hent₀
      cases hent₀
      have hv' : v ∈ entry.multisigAccounts.erase signer := mem_erase.mpr ⟨fun hv' => hnot ⟨rfl, hv'⟩, hv⟩
      exact ⟨_, (hl _ _).mpr (Or.inr ⟨rfl, rfl, fun hemp => ne_empty_of_mem hv' hemp.2⟩), hv'⟩
    · by_cases hs : signer = u
      · subst hs
        refine ⟨{ entry₀ with cosignatories := entry₀.cosignatories.erase cosignatory },
          (hl _ _).mpr (Or.inl ⟨?_, hu⟩), hv⟩
        rw [getElem?_eraseCosignatory, if_pos rfl, hent₀]
        rfl
      · refine ⟨entry₀, (hl _ _).mpr (Or.inl ⟨?_, hu⟩), hv⟩
        rw [getElem?_eraseCosignatory, if_neg hs, hent₀]

omit hent in
lemma HasRemoved.signer_eq : cache'[signer]? = cache[signer]?.map fun entry =>
    { entry with cosignatories := entry.cosignatories.erase cosignatory } := by
  cases hold : cache[signer]? with
  | none =>
    rw [Option.map_none, Option.eq_none_iff_forall_ne_some]
    intro entry' hent'
    rcases (hl signer entry').mp hent' with ⟨he, -⟩ | ⟨hs, -⟩
    · rw [getElem?_eraseCosignatory, if_pos rfl, hold] at he
      cases he
    · exact hne hs.symm
  | some entry₀ =>
    refine (hl _ _).mpr (Or.inl ⟨?_, Ne.symm hne⟩)
    rw [getElem?_eraseCosignatory, if_pos rfl, hold]
    rfl

end

structure Removed (signer cosignatory : Key) (cache cache' : MultisigCache) : Prop where
  cosigns : ∀ u v, Cosigns cache' u v ↔ Cosigns cache u v ∧ ¬(u = signer ∧ v = cosignatory)
  cosignsFor : ∀ u v, CosignsFor cache' u v ↔ CosignsFor cache u v ∧ ¬(u = cosignatory ∧ v = signer)
  settings : KeepsSettings signer cache cache'
  linked : ∀ u ≠ signer, ∀ entry', cache'[u]? = some entry' → ¬entry'.IsEmpty ∨ cache[u]? = some entry'
  signer : cache'[signer]? = cache[signer]?.map fun entry =>
    { entry with cosignatories := entry.cosignatories.erase cosignatory }

lemma removed_removeCosignatory (hne : cosignatory ≠ signer) {entry : MultisigEntry}
    (hent : cache[cosignatory]? = some entry) :
    ∃ cache', removeCosignatory signer cosignatory cache = .ok cache' ∧ Removed signer cosignatory cache cache' := by
  obtain ⟨cache', hok, hl⟩ := removeCosignatory_eq_ok hne hent
  refine ⟨cache', hok, fun u v => hl.cosigns_iff hne hent, fun u v => hl.cosignsFor_iff hent, ?_, ?_, hl.signer_eq hne⟩
  · intro u hu entry' hent' hcos
    rcases (hl u entry').mp hent' with ⟨hold, -⟩ | ⟨rfl, rfl, -⟩
    · rw [getElem?_eraseCosignatory, if_neg (Ne.symm hu)] at hold
      exact ⟨entry', hold, rfl⟩
    · exact ⟨entry, hent, rfl⟩
  · intro u hu entry' hent'
    rcases (hl u entry').mp hent' with ⟨hold, -⟩ | ⟨rfl, rfl, hnot⟩
    · rw [getElem?_eraseCosignatory, if_neg (Ne.symm hu)] at hold
      exact Or.inr hold
    · exact Or.inl hnot

lemma Consistent.removed (h : Consistent signer cache) (hrem : Removed signer cosignatory cache cache') :
    Consistent signer cache' where
  symmetric u v := by rw [hrem.cosigns, hrem.cosignsFor, h.symmetric u v, and_comm (a := u = signer)]
  linked u hu entry hent := (hrem.linked u hu entry hent).elim id (h.linked u hu entry)
  signer_entry := by
    obtain ⟨entry, hent⟩ := h.signer_entry
    exact ⟨_, by rw [hrem.signer, hent]; rfl⟩

end

section

variable {modification : CosignatoryModification} {modifications : List CosignatoryModification}

structure Applicable (signer : Key) (cache : MultisigCache) (modifications : List CosignatoryModification) : Prop where
  nodup : (modifications.map CosignatoryModification.cosignatoryPublicKey).Nodup
  ne_signer : ∀ modification ∈ modifications, modification.cosignatoryPublicKey ≠ signer
  cosigns : ∀ modification ∈ modifications,
    Cosigns cache signer modification.cosignatoryPublicKey ↔ isAdd modification = false

structure Modified (signer : Key) (modifications : List CosignatoryModification)
    (cache cache' : MultisigCache) : Prop where
  consistent : Consistent signer cache'
  settings : KeepsSettings signer cache cache'
  cosigns : ∀ u v, Cosigns cache' u v → Cosigns cache u v ∨
    u = signer ∧ ∃ modification ∈ modifications, isAdd modification ∧ modification.cosignatoryPublicKey = v
  signer : ∀ entry, cache[signer]? = some entry → ∃ entry', cache'[signer]? = some entry' ∧
    entry'.minApproval = entry.minApproval ∧ entry'.minRemoval = entry.minRemoval ∧
    (entry'.cosignatories.size : ℤ) =
      entry.cosignatories.size + (modifications.map fun m => if isAdd m then (1 : ℤ) else -1).sum

lemma cosigns_of_entry {entry : MultisigEntry} (hent : cache[u]? = some entry) :
    Cosigns cache u v ↔ v ∈ entry.cosignatories := by
  constructor
  · rintro ⟨entry', hent', hv⟩
    rw [hent] at hent'
    cases hent'
    exact hv
  · exact fun hv => ⟨entry, hent, hv⟩

lemma applyModification_ok (h : Consistent signer cache) (hmod : Applicable signer cache [modification]) :
    ∃ cache', applyModification signer cache modification = .ok cache' ∧ Modified signer [modification] cache cache' ∧
      ∀ v ≠ modification.cosignatoryPublicKey, (Cosigns cache' signer v ↔ Cosigns cache signer v) := by
  have hne := hmod.ne_signer modification (mem_singleton_self _)
  have hc := hmod.cosigns modification (mem_singleton_self _)
  rw [applyModification]
  cases hadd : isAdd modification with
  | true =>
    refine ⟨_, rfl, ⟨h.addCosignatory hne, keepsSettings_addCosignatory hne, ?_, ?_⟩, ?_⟩
    · intro u v huv
      rcases (cosigns_addCosignatory hne h.signer_entry).mp huv with hold | ⟨rfl, rfl⟩
      · exact Or.inl hold
      · exact Or.inr ⟨rfl, modification, mem_singleton_self _, hadd, rfl⟩
    · intro entry hent
      have hnot : modification.cosignatoryPublicKey ∉ entry.cosignatories := by
        rw [← cosigns_of_entry hent, hc, hadd]
        nofun
      refine ⟨{ entry with cosignatories := entry.cosignatories.insert modification.cosignatoryPublicKey },
        by rw [getElem?_addCosignatory hne, if_pos rfl, hent]; rfl, rfl, rfl, ?_⟩
      rw [size_insert, if_neg (by simpa using hnot)]
      simp [hadd]
    · intro v hv
      rw [cosigns_addCosignatory hne h.signer_entry]
      simp [hv]
  | false =>
    have hcos := hc.mpr hadd
    obtain ⟨entry, hent, -⟩ := (h.symmetric _ _).mp hcos
    obtain ⟨cache', hok, hrem⟩ := removed_removeCosignatory hne hent
    refine ⟨cache', hok, ⟨h.removed hrem, hrem.settings, ?_, ?_⟩, ?_⟩
    · intro u v huv
      exact Or.inl ((hrem.cosigns u v).mp huv).1
    · intro entry₀ hent₀
      have hmem := (cosigns_of_entry hent₀).mp hcos
      refine ⟨{ entry₀ with cosignatories := entry₀.cosignatories.erase modification.cosignatoryPublicKey },
        by rw [hrem.signer, hent₀]; rfl, rfl, rfl, ?_⟩
      have hpos : entry₀.cosignatories.size ≠ 0 := fun hz =>
        ne_empty_of_mem hmem (eq_empty_iff_size_eq_zero.mpr hz)
      rw [size_erase, if_pos (by simpa using hmem)]
      simp [hadd]
      omega
    · intro v hv
      rw [hrem.cosigns]
      simp [hv]

lemma Modified.trans {cache'' : MultisigCache} {rest : List CosignatoryModification}
    (h : Modified signer [modification] cache cache') (h' : Modified signer rest cache' cache'') :
    Modified signer (modification :: rest) cache cache'' where
  consistent := h'.consistent
  settings := h.settings.trans h'.settings
  cosigns u v huv := by
    rcases h'.cosigns u v huv with hold | ⟨rfl, m, hm, hadd, rfl⟩
    · rcases h.cosigns u v hold with hold | ⟨rfl, m, hm, hadd, rfl⟩
      · exact Or.inl hold
      · exact Or.inr ⟨rfl, m, by rw [mem_singleton.mp hm]; exact mem_cons_self, hadd, rfl⟩
    · exact Or.inr ⟨rfl, m, mem_cons_of_mem _ hm, hadd, rfl⟩
  signer entry hent := by
    obtain ⟨entry', hent', ha, hrmv, hsz⟩ := h.signer entry hent
    obtain ⟨entry'', hent'', ha', hrmv', hsz'⟩ := h'.signer entry' hent'
    refine ⟨entry'', hent'', ha'.trans ha, hrmv'.trans hrmv, ?_⟩
    rw [hsz', hsz, map_singleton, sum_singleton, map_cons, sum_cons, add_assoc]

lemma foldlM_applyModification_ok (h : Consistent signer cache) (hmo : Applicable signer cache modifications) :
    ∃ cache', modifications.foldlM (applyModification signer) cache = .ok cache' ∧
      Modified signer modifications cache cache' := by
  induction modifications generalizing cache with
  | nil =>
    refine ⟨cache, rfl, h, fun u _ entry hent _ => ⟨entry, hent, rfl⟩, fun u v huv => Or.inl huv, ?_⟩
    exact fun entry hent => ⟨entry, hent, rfl, rfl, by simp⟩
  | cons modification rest ih =>
    obtain ⟨hn, hnd⟩ := nodup_cons.mp hmo.nodup
    obtain ⟨next, hok, hmd, ho⟩ := applyModification_ok h
      ⟨nodup_singleton _, fun m hm => hmo.ne_signer m (by rw [mem_singleton.mp hm]; exact mem_cons_self),
        fun m hm => hmo.cosigns m (by rw [mem_singleton.mp hm]; exact mem_cons_self)⟩
    have hr : Applicable signer next rest := by
      refine ⟨hnd, fun m hm => hmo.ne_signer m (mem_cons_of_mem _ hm), fun m hm => ?_⟩
      rw [ho]
      · exact hmo.cosigns m (mem_cons_of_mem _ hm)
      · intro heq
        exact hn (heq ▸ mem_map_of_mem hm)
    obtain ⟨cache', hf, hmd'⟩ := ih hmd.consistent hr
    exact ⟨cache', by rw [foldlM_cons, hok]; exact hf, hmd.trans hmd'⟩

end

end XpxChain.Multisig
