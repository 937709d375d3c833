import XpxChain.Multisig.Cache

/-! The recursive searches of the cosigner graph. -/

namespace XpxChain.Multisig

open Std Library Exceptions BoundedPaths ExtTreeSet List

variable {links : MultisigEntry → KeySet} {cache : MultisigCache} {fuel : ℕ} {key u v : Key}

def Links (links : MultisigEntry → KeySet) (cache : MultisigCache) (u v : Key) : Prop :=
  ∃ entry, cache[u]? = some entry ∧ v ∈ links entry

def Cosigns (cache : MultisigCache) : Key → Key → Prop := Links (fun entry => entry.cosignatories) cache

def CosignsFor (cache : MultisigCache) : Key → Key → Prop := Links MultisigEntry.multisigAccounts cache

structure Found (links : MultisigEntry → KeySet) (cache : MultisigCache) (key : Key) (start : KeySet)
    (found : ℕ × KeySet) : Prop where
  levels : ∀ n v, Path (Links links cache) n key v → n ≤ found.1
  start_mem : ∀ k ∈ start, k ∈ found.2
  mem : ∀ n v, Path (Links links cache) (n + 1) key v → v ∈ found.2

lemma foldlM_findAll {linkedKeys : List Key}
    (hd : ∀ y ∈ linkedKeys, ∀ start, ∃ found, findAll links cache fuel y start = .ok found ∧
      Found links cache y start found)
    (acc : ℕ × KeySet) :
    ∃ found, linkedKeys.foldlM (fun found linkedKey => do
          let deeper ← findAll links cache fuel linkedKey (found.2.insert linkedKey)
          return (max found.1 (deeper.1 + 1), deeper.2)) acc = Except.ok found ∧
      acc.1 ≤ found.1 ∧ (∀ k ∈ acc.2, k ∈ found.2) ∧
      ∀ y ∈ linkedKeys, y ∈ found.2 ∧ (∀ n v, Path (Links links cache) n y v → n + 1 ≤ found.1) ∧
        ∀ n v, Path (Links links cache) (n + 1) y v → v ∈ found.2 := by
  induction linkedKeys generalizing acc with
  | nil => exact ⟨acc, rfl, le_rfl, fun k hk => hk, fun y hy => absurd hy not_mem_nil⟩
  | cons y linkedKeys ih =>
    obtain ⟨hy, hr⟩ := forall_mem_cons.mp hd
    obtain ⟨deeper, hd, hf⟩ := hy (acc.2.insert y)
    obtain ⟨found, hfo, hle, hsub, hall⟩ := ih hr (max acc.1 (deeper.1 + 1), deeper.2)
    refine ⟨found, ?_, (le_max_left _ _).trans hle, ?_, ?_⟩
    · rw [foldlM_cons, hd]
      exact hfo
    · intro k hk
      exact hsub k (hf.start_mem k (mem_insert.mpr (Or.inr hk)))
    · intro z hz
      rcases mem_cons.mp hz with rfl | hz
      · refine ⟨hsub z (hf.start_mem z mem_insert_self), ?_, ?_⟩
        · intro n v hp
          exact (Nat.succ_le_succ (hf.levels n v hp)).trans ((le_max_right _ _).trans hle)
        · intro n v hp
          exact hsub v (hf.mem n v hp)
      · exact hall z hz

theorem findAll_found (hf : ∀ n v, Path (Links links cache) n key v → n < fuel) (start : KeySet) :
    ∃ found, findAll links cache fuel key start = .ok found ∧ Found links cache key start found := by
  refine fuel_induction (P := fun fuel key => ∀ start, ∃ found, findAll links cache fuel key start = .ok found ∧
    Found links cache key start found) ?_ hf start
  intro fuel key ih start
  rw [findAll]
  cases hent : cache[key]? with
  | none =>
    have hn : ∀ n v, ¬Path (Links links cache) (n + 1) key v := by
      rintro n v (_ | ⟨⟨entry, hs, -⟩, -⟩)
      rw [hent] at hs
      cases hs
    refine ⟨_, rfl, ?_, fun k hk => hk, fun n v hp => absurd hp (hn n v)⟩
    intro n v hp
    cases n with
    | zero => exact le_rfl
    | succ n => exact absurd hp (hn n v)
  | some entry =>
    have hl : ∀ y, Links links cache key y → y ∈ (links entry).toList := by
      rintro y ⟨entry', hent', hy⟩
      rw [hent] at hent'
      cases hent'
      exact mem_toList.mpr hy
    obtain ⟨found, hfo, -, hsub, hall⟩ := foldlM_findAll
      (fun y (hy : y ∈ (links entry).toList) => ih y ⟨entry, hent, mem_toList.mp hy⟩) (0, start)
    refine ⟨found, hfo, ?_, hsub, ?_⟩
    · rintro n v (_ | ⟨hli, hp⟩)
      · exact Nat.zero_le _
      · exact (hall _ (hl _ hli)).2.1 _ _ hp
    · rintro n v (_ | ⟨hli, hp⟩)
      cases n with
      | zero =>
        cases hp
        exact (hall _ (hl _ hli)).1
      | succ n => exact (hall _ (hl _ hli)).2.2 _ _ hp

theorem isSatisfied_terminates {cosigners : Finset Key} {operationType : OperationType}
    (hf : ∀ n v, Path (Cosigns cache) n key v → n < fuel) :
    ∃ satisfied, isSatisfied cache cosigners operationType fuel key = .ok satisfied := by
  refine fuel_induction (P := fun fuel key => ∃ satisfied, isSatisfied cache cosigners operationType fuel key =
    .ok satisfied) ?_ hf
  intro fuel key ih
  rw [isSatisfied]
  split
  · exact ⟨_, rfl⟩
  · rename_i entry hent
    split_ifs
    · exact ⟨_, rfl⟩
    · have hst : ∀ y ∈ entry.cosignatories.toList, ∀ numApprovers : ℕ, ∃ next : ℕ,
          (do let satisfied ← isSatisfied cache cosigners operationType fuel y
              return numApprovers + if satisfied then 1 else 0) = Except.ok next := by
        intro y hy numApprovers
        obtain ⟨satisfied, hs⟩ := ih y ⟨entry, hent, mem_toList.mp hy⟩
        exact ⟨_, bind_eq_ok.mpr ⟨satisfied, hs, rfl⟩⟩
      obtain ⟨numApprovers, hfo⟩ := exists_foldlM_ok hst 0
      exact ⟨_, bind_eq_ok.mpr ⟨numApprovers, hfo, rfl⟩⟩

theorem findEligibleCosigners_terminates (hf : ∀ n v, Path (Cosigns cache) n key v → n < fuel) (eligible : Finset Key) :
    ∃ found, findEligibleCosigners cache fuel key eligible = .ok found := by
  refine fuel_induction (P := fun fuel key => ∀ eligible, ∃ found,
    findEligibleCosigners cache fuel key eligible = .ok found)
    ?_ hf eligible
  intro fuel key ih eligible
  rw [findEligibleCosigners]
  split
  · exact ⟨_, rfl⟩
  · rename_i entry hent
    split_ifs
    · exact ⟨_, rfl⟩
    · exact exists_foldlM_ok (fun y hy eligible => ih y ⟨entry, hent, mem_toList.mp hy⟩ eligible) eligible

variable {cache cache' : MultisigCache} {key u v signer cosignatory : Key} {change : MultisigEntry → MultisigEntry}

lemma mem_insert {keys : KeySet} : v ∈ keys.insert u ↔ v = u ∨ v ∈ keys := by
  rw [ExtTreeSet.mem_insert, Std.compare_eq_iff_eq, eq_comm]

lemma mem_erase {keys : KeySet} : v ∈ keys.erase u ↔ v ≠ u ∧ v ∈ keys := by
  rw [ExtTreeSet.mem_erase, ne_eq, Std.compare_eq_iff_eq, eq_comm]

lemma getElem?_modify : (modify key change cache)[u]? = if key = u then cache[u]?.map change else cache[u]? := by
  rw [modify]
  split
  · rename_i hn
    split_ifs with hu
    · subst hu
      rw [hn]
      rfl
    · rfl
  · rename_i entry hent
    rw [ExtTreeMap.getElem?_insert]
    simp only [Std.compare_eq_iff_eq]
    split_ifs with hu
    · subst hu
      rw [hent]
      rfl
    · rfl

lemma getElem?_getMultisigEntry :
    (getMultisigEntry key cache)[u]? = if key = u then some (cache[u]?.getD {}) else cache[u]? := by
  rw [getMultisigEntry]
  by_cases hmem : key ∈ cache
  · rw [if_pos hmem]
    split_ifs with hu
    · subst hu
      obtain ⟨entry, hent⟩ := ExtTreeMap.mem_iff_isSome_getElem?.mp hmem |> Option.isSome_iff_exists.mp
      rw [hent]
      rfl
    · rfl
  · rw [if_neg hmem, ExtTreeMap.getElem?_insert]
    simp only [Std.compare_eq_iff_eq]
    split_ifs with hu
    · subst hu
      rw [ExtTreeMap.getElem?_eq_none hmem]
      rfl
    · rfl

def MultisigEntry.IsEmpty (entry : MultisigEntry) : Prop := entry.cosignatories = ∅ ∧ entry.multisigAccounts = ∅

lemma getElem?_removeIfEmpty {entry : MultisigEntry} :
    (removeIfEmpty key cache)[u]? = some entry ↔ cache[u]? = some entry ∧ (key = u → ¬entry.IsEmpty) := by
  rw [removeIfEmpty]
  split
  · rename_i hn
    constructor
    · intro h
      refine ⟨h, ?_⟩
      rintro rfl
      rw [hn] at h
      cases h
    · exact fun h => h.1
  · rename_i entry' hent'
    by_cases hemp : entry'.IsEmpty
    · rw [if_pos (by simpa [MultisigEntry.IsEmpty] using hemp), ExtTreeMap.getElem?_erase]
      simp only [Std.compare_eq_iff_eq]
      split_ifs with hu
      · subst hu
        rw [hent']
        constructor
        · intro h
          cases h
        · rintro ⟨heq, hne⟩
          cases heq
          exact absurd hemp (hne rfl)
      · exact ⟨fun h => ⟨h, fun hu' => absurd hu' hu⟩, fun h => h.1⟩
    · rw [if_neg (by simpa [MultisigEntry.IsEmpty] using hemp)]
      constructor
      · intro h
        refine ⟨h, ?_⟩
        rintro rfl
        rw [hent'] at h
        cases h
        exact hemp
      · exact fun h => h.1

def KeepsSettings (signer : Key) (cache cache' : MultisigCache) : Prop :=
  ∀ u ≠ signer, ∀ entry', cache'[u]? = some entry' → entry'.cosignatories ≠ ∅ →
    ∃ entry, cache[u]? = some entry ∧ entry.toCosignatorySettings = entry'.toCosignatorySettings

lemma KeepsSettings.trans {cache'' : MultisigCache} (h : KeepsSettings signer cache cache')
    (h' : KeepsSettings signer cache' cache'') : KeepsSettings signer cache cache'' := by
  intro u hu entry'' hent'' hne
  obtain ⟨entry', hent', heq'⟩ := h' u hu entry'' hent'' hne
  obtain ⟨entry, hent, heq⟩ := h u hu entry' hent' (by rwa [heq'])
  exact ⟨entry, hent, heq.trans heq'⟩

structure Consistent (signer : Key) (cache : MultisigCache) : Prop where
  symmetric : ∀ u v, Cosigns cache u v ↔ CosignsFor cache v u
  linked : ∀ u ≠ signer, ∀ entry, cache[u]? = some entry → ¬entry.IsEmpty
  signer_entry : ∃ entry, cache[signer]? = some entry

end XpxChain.Multisig
