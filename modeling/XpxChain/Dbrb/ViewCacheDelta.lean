import XpxChain.Dbrb.ViewCacheObservers

/-! The delta of the DBRB view cache follows the registry, where the identifiers are the keys of the entries. -/

namespace XpxChain.Dbrb

open Std Library OrderedContainers DeltaSet Exceptions DbrbViewCache ExtTreeMap

/-! The delta stands for two registries, the committed one and the one with the pending changes. -/

def RefinesIds (delta : BaseSetDelta ProcessId ProcessId) (base content : Finset ProcessId) : Prop :=
  ∃ map, Refines delta map ∧ keySet map.base = base ∧ keySet map.content = content

structure Represents (delta : DbrbViewCacheDelta) (base : Finset ProcessId)
    (committed pending : DbrbViewCache) : Prop where
  entries : Refines delta.dbrbProcessEntries { base := committed.entries, content := pending.entries }
  processIds : RefinesIds delta.deltaProcessIds base (keySet pending.entries)

section

variable {ids : BaseSetDelta ProcessId ProcessId} {base content : Finset ProcessId} {id : ProcessId}

lemma RefinesIds.contains_iff (h : RefinesIds ids base content) : ids.contains id ↔ id ∈ content := by
  obtain ⟨map, hmap, -, rfl⟩ := h
  rw [hmap.contains_iff, mem_keySet]

lemma RefinesIds.insert (h : RefinesIds ids base content) :
    RefinesIds (ids.insert id id).1 base (insert id content) := by
  obtain ⟨map, hmap, rfl, rfl⟩ := h
  exact ⟨_, hmap.next (.insert id id), rfl, keySet_insert⟩

lemma RefinesIds.remove (h : RefinesIds ids base content) : RefinesIds (ids.remove id).1 base (content.erase id) := by
  obtain ⟨map, hmap, rfl, rfl⟩ := h
  refine ⟨_, hmap.next (.remove id), rfl, ?_⟩
  ext other
  simp [PlainMap.next, @eq_comm _ id]

lemma refinesIds_rebase {elements : ExtTreeMap ProcessId ProcessId} :
    RefinesIds (rebase elements) (keySet elements) (keySet elements) :=
  ⟨_, refines_rebase elements, rfl, rfl⟩

lemma RefinesIds.commit (h : RefinesIds ids base content) :
    ∃ ids', ids.commit = .ok ids' ∧ RefinesIds ids' content content := by
  obtain ⟨map, hmap, -, rfl⟩ := h
  exact ⟨_, hmap.commit_eq, refinesIds_rebase⟩

lemma RefinesIds.eq_sdiff (h : RefinesIds ids base content) :
    (keySet ids.originalElements ∪ keySet ids.added) \ keySet ids.removed = content := by
  obtain ⟨map, hmap, -, rfl⟩ := h
  ext other
  have hcon := hmap.contains_iff other
  simp only [BaseSetDelta.contains, decide_eq_true_eq] at hcon
  simp only [Finset.mem_sdiff, Finset.mem_union, mem_keySet, ← hcon]
  tauto

end

section

variable {delta : DbrbViewCacheDelta} {base : Finset ProcessId} {committed pending : DbrbViewCache}
  {processId : ProcessId} {entry : DbrbProcessEntry} {change : DbrbProcessEntry → DbrbProcessEntry}

lemma ascending_keySet (pending : DbrbViewCache) : ascending (keySet pending.entries) = pending.processIds := by
  have hp : (ascending (keySet pending.entries)).Perm pending.processIds := by
    rw [List.perm_ext_iff_of_nodup (nodup_ascending _) nodup_processIds]
    intro id
    rw [mem_ascending, mem_keySet, processIds, mem_keys]
  refine List.Perm.eq_of_pairwise ?_ ExtTreeSet.ordered_toList ordered_keys hp
  intro a b _ _ hab hba
  rw [Std.OrientedCmp.gt_of_lt hab] at hba
  cases hba

lemma Represents.processIds_eq (h : Represents delta base committed pending) :
    delta.processIds = pending.processIds := by
  rw [DbrbViewCacheDelta.processIds, h.processIds.eq_sdiff, ascending_keySet]

lemma Represents.contains_iff (h : Represents delta base committed pending) :
    delta.dbrbProcessEntries.contains processId ↔ processId ∈ pending.entries :=
  h.entries.contains_iff processId

lemma entries_modify (hchg : ∀ entry, (change entry).processId = entry.processId) :
    (pending.modify processId change).entries = pending.entries.modify processId change := by
  apply ext_getElem?
  intro id
  rw [getElem?_modify, DbrbViewCache.modify]
  split
  · rename_i hn
    split_ifs with hid
    · rw [← Std.compare_eq_iff_eq.mp hid, hn]
      rfl
    · rfl
  · rename_i entry hent
    have hp := pending.processId_of_mem hent
    have hs : { change entry with processId := entry.processId } = change entry := by rw [← hchg entry]
    rw [hs, DbrbViewCache.insert, getElem?_insert, hchg, hp]
    split_ifs
    · rw [hent]
      rfl
    · rfl

lemma keySet_modify (hchg : ∀ entry, (change entry).processId = entry.processId) :
    keySet (pending.modify processId change).entries = keySet pending.entries := by
  ext id
  rw [entries_modify hchg, mem_keySet, mem_keySet, mem_modify]

section

variable (h : Represents delta base committed pending)
include h

lemma Represents.find (hchg : ∀ entry, (change entry).processId = entry.processId) :
    Represents { delta with dbrbProcessEntries := (delta.dbrbProcessEntries.find processId change).1 } base committed
      (pending.modify processId change) where
  entries := by
    rw [entries_modify hchg]
    exact h.entries.next (.find processId change)
  processIds := by
    rw [keySet_modify hchg]
    exact h.processIds

lemma Represents.findConst : delta.dbrbProcessEntries.findConst processId = pending.entries[processId]? := by
  rw [findConst_eq]
  exact h.entries.encodes.value_eq processId

lemma Represents.modify (hent : pending.entries[processId]? = some entry)
    (change : DbrbProcessEntry → DbrbProcessEntry) (hchg : ∀ entry, (change entry).processId = entry.processId) :
    ∃ delta', delta.modify processId change = .ok (delta', entry) ∧
      Represents delta' base committed (pending.modify processId change) := by
  refine ⟨_, ?_, h.find hchg⟩
  have hf : (delta.dbrbProcessEntries.find processId change).2 = some entry := by
    rw [find_snd, h.findConst, hent]
  rw [DbrbViewCacheDelta.modify]
  generalize delta.dbrbProcessEntries.find processId change = found at hf
  obtain ⟨entries, other⟩ := found
  cases hf
  rfl

end

@[simp] lemma dbrbProcessEntries_insertProcessId :
    (delta.insertProcessId processId).dbrbProcessEntries = delta.dbrbProcessEntries := by
  rw [DbrbViewCacheDelta.insertProcessId]
  split_ifs <;> rfl

lemma refinesIds_insertProcessId {content : Finset ProcessId} (h : RefinesIds delta.deltaProcessIds base content) :
    RefinesIds (delta.insertProcessId processId).deltaProcessIds base (insert processId content) := by
  rw [DbrbViewCacheDelta.insertProcessId]
  split_ifs with hcon
  · rwa [Finset.insert_eq_of_mem (h.contains_iff.mp hcon)]
  · exact h.insert

lemma Represents.insert (h : Represents delta base committed pending) (hnew : entry.processId ∉ pending.entries) :
    ∃ delta', delta.insert entry = .ok delta' ∧ Represents delta' base committed (pending.insert entry) := by
  refine ⟨_, if_pos (h.entries.insert_snd entry hnew), ?_, ?_⟩
  · rw [dbrbProcessEntries_insertProcessId]
    exact h.entries.next (.insert entry.processId entry)
  · rw [DbrbViewCache.insert, keySet_insert]
    exact refinesIds_insertProcessId h.processIds

lemma Represents.remove (h : Represents delta base committed pending) (hmem : processId ∈ pending.entries) :
    ∃ delta', delta.remove processId = .ok delta' ∧ Represents delta' base committed (pending.remove processId) := by
  have hk : keySet (pending.remove processId).entries = (keySet pending.entries).erase processId := by
    ext id
    simp [DbrbViewCache.remove, @eq_comm _ processId]
  refine ⟨_, if_neg (not_or.mpr (h.entries.remove_snd hmem)), h.entries.next (.remove processId), ?_⟩
  rw [if_pos (h.processIds.contains_iff.mpr (mem_keySet.mpr hmem)), hk]
  exact h.processIds.remove

end

section

variable {delta : DbrbViewCacheDelta} {base : Finset ProcessId} {committed pending : DbrbViewCache}
  {config : RegistryConfiguration} {timestamp : Timestamp} {height : Height}

theorem Represents.observe (h : Represents delta base committed pending) (notification : RegistryNotification) :
    ∃ delta', delta.observe config timestamp notification = .ok delta' ∧
      Represents delta' base committed (notification.observe config timestamp pending) := by
  cases notification with
  | addDbrbProcess processId =>
    rw [DbrbViewCacheDelta.observe, DbrbViewCacheDelta.addDbrbProcess, RegistryNotification.observe, addDbrbProcess]
    by_cases hmem : processId ∈ pending.entries
    · rw [if_pos (h.contains_iff.mpr hmem), if_pos hmem]
      obtain ⟨entry, hent⟩ := mem_keySet_iff.mp (mem_keySet.mpr hmem)
      obtain ⟨delta', hd, hrep⟩ := h.modify hent
        (fun entry => { entry with expirationTime := registrationExpirationTime config timestamp }) fun entry => rfl
      exact ⟨delta', bind_eq_ok.mpr ⟨_, hd, rfl⟩, hrep⟩
    · rw [if_neg (h.contains_iff.not.mpr hmem), if_neg hmem]
      exact h.insert hmem
  | removeDbrbProcess processId =>
    rw [DbrbViewCacheDelta.observe, DbrbViewCacheDelta.removeDbrbProcess, RegistryNotification.observe,
      removeDbrbProcess]
    split_ifs with hl hcon hmem hmem
    · exact ⟨_, rfl, h.find fun entry => rfl⟩
    · exact h.remove hmem
    · exact absurd (h.contains_iff.mp hcon) hmem
    · exact absurd (h.contains_iff.mpr hmem) hcon
    · exact ⟨_, rfl, h⟩

lemma Represents.foldlM {step : DbrbViewCacheDelta → ProcessId → Except ViewCacheError DbrbViewCacheDelta}
    {next : DbrbViewCache → ProcessId → DbrbViewCache}
    (hs : ∀ {delta pending processId entry}, Represents delta base committed pending →
      pending.entries[processId]? = some entry →
      ∃ delta', step delta processId = .ok delta' ∧ Represents delta' base committed (next pending processId))
    (hk : ∀ pending {processId id}, processId ≠ id → id ∈ pending.entries → id ∈ (next pending processId).entries)
    {ids : List ProcessId} (hnd : ids.Nodup) (hmem : ∀ id ∈ ids, id ∈ pending.entries)
    (h : Represents delta base committed pending) :
    ∃ delta', ids.foldlM step delta = .ok delta' ∧ Represents delta' base committed (ids.foldl next pending) := by
  induction ids generalizing delta pending with
  | nil => exact ⟨delta, rfl, h⟩
  | cons processId ids ih =>
    obtain ⟨hn, hnd⟩ := List.nodup_cons.mp hnd
    obtain ⟨hh, ht⟩ := List.forall_mem_cons.mp hmem
    obtain ⟨entry, hent⟩ := mem_keySet_iff.mp (mem_keySet.mpr hh)
    obtain ⟨delta₁, hd₁, h₁⟩ := hs h hent
    obtain ⟨delta', hd', h'⟩ := ih hnd (fun id hid => hk pending (by rintro rfl; exact hn hid) (ht id hid)) h₁
    exact ⟨delta', by rw [List.foldlM_cons]; exact bind_eq_ok.mpr ⟨delta₁, hd₁, hd'⟩, h'⟩

lemma forall_mem_processIds (pending : DbrbViewCache) : ∀ id ∈ pending.processIds, id ∈ pending.entries :=
  fun _ hid => mem_keys.mp hid

lemma DbrbViewCache.modify_id {processId : ProcessId} : pending.modify processId id = pending := by
  have he : (pending.modify processId id).entries = pending.entries := by
    apply ext_getElem?
    intro other
    rw [@entries_modify _ _ id fun _ => rfl, getElem?_modify]
    split_ifs with hid
    · rw [← Std.compare_eq_iff_eq.mp hid, Option.map_id]
      rfl
    · rfl
  cases h : modify _ processId id
  rw [h] at he
  subst he
  rfl

lemma Represents.pruneProcess {boundary : Timestamp} {processId : ProcessId} {entry : DbrbProcessEntry}
    (h : Represents delta base committed pending) (hent : pending.entries[processId]? = some entry) :
    ∃ delta', delta.pruneProcess boundary processId = .ok delta' ∧
      Represents delta' base committed (Dbrb.pruneProcess boundary pending processId) := by
  obtain ⟨delta₁, hd₁, h₁⟩ := h.modify hent id fun entry => rfl
  rw [modify_id] at h₁
  rw [Dbrb.pruneProcess, hent]
  dsimp only
  by_cases hexp : entry.expirationTime < boundary
  · rw [if_pos hexp]
    obtain ⟨delta', hd', h'⟩ := h₁.remove (mem_keySet.mp (mem_keySet_iff.mpr ⟨entry, hent⟩))
    exact ⟨delta', bind_eq_ok.mpr ⟨_, hd₁, by dsimp only; rw [if_pos hexp, hd']⟩, h'⟩
  · rw [if_neg hexp]
    exact ⟨delta₁, bind_eq_ok.mpr ⟨_, hd₁, by dsimp only; rw [if_neg hexp]; rfl⟩, h₁⟩

lemma mem_pruneProcess_of_ne {boundary : Timestamp} (pending : DbrbViewCache) {processId id : ProcessId}
    (hne : processId ≠ id) (hid : id ∈ pending.entries) :
    id ∈ (Dbrb.pruneProcess boundary pending processId).entries := by
  rw [Dbrb.pruneProcess]
  split
  · exact hid
  · split_ifs
    · rw [mem_iff_isSome_getElem?, getElem?_remove_of_ne hne]
      exact mem_iff_isSome_getElem?.mp hid
    · exact hid

section

variable (h : Represents delta base committed pending)
include h

theorem Represents.dbrbProcessPruning :
    (∃ delta' pending', delta.dbrbProcessPruning config height timestamp = .ok delta' ∧
        Dbrb.dbrbProcessPruning config height timestamp pending = .ok pending' ∧
          Represents delta' base committed pending') ∨
      (blockTargetTime config = 0 ∨ pruningInterval config = 0) ∧
        delta.dbrbProcessPruning config height timestamp = .error .divisionByZero := by
  rw [DbrbViewCacheDelta.dbrbProcessPruning, Dbrb.dbrbProcessPruning]
  by_cases hz : blockTargetTime config = 0 ∨ pruningInterval config = 0
  · exact Or.inr ⟨hz, if_pos hz⟩
  · refine Or.inl ?_
    rw [if_neg hz, if_neg hz]
    by_cases hblk : IsPruningBlock config height timestamp
    · rw [if_pos hblk, if_pos hblk, h.processIds_eq]
      obtain ⟨delta', hd', h'⟩ := h.foldlM Represents.pruneProcess mem_pruneProcess_of_ne nodup_processIds
        (forall_mem_processIds pending)
      exact ⟨delta', _, hd', rfl, h'⟩
    · rw [if_neg hblk, if_neg hblk]
      exact ⟨delta, pending, rfl, rfl, h⟩

theorem Represents.dbrbProcessUpdate {banPeriods : ProcessId → Option ℕ} :
    ∃ delta', delta.dbrbProcessUpdate config banPeriods = .ok delta' ∧
      Represents delta' base committed (Dbrb.dbrbProcessUpdate config banPeriods pending) := by
  rw [DbrbViewCacheDelta.dbrbProcessUpdate, Dbrb.dbrbProcessUpdate]
  split_ifs
  · rw [h.processIds_eq]
    have hp : ∀ (processId : ProcessId) (entry : DbrbProcessEntry),
        ({ entry with version := 2, banPeriod := (banPeriods processId).getD entry.banPeriod }.decrementBanPeriod :
          DbrbProcessEntry).processId = entry.processId := by
      intro processId entry
      rw [DbrbProcessEntry.decrementBanPeriod]
      split_ifs <;> rfl
    refine h.foldlM ?_ ?_ nodup_processIds (forall_mem_processIds pending)
    · intro delta pending processId entry h hent
      obtain ⟨delta', hd', h'⟩ := h.modify hent _ (hp processId)
      exact ⟨delta', bind_eq_ok.mpr ⟨_, hd', rfl⟩, h'⟩
    · intro pending processId id _ hid
      rw [← mem_keySet, keySet_modify (hp processId), mem_keySet]
      exact hid
  · exact ⟨delta, rfl, h⟩

theorem Represents.updateDbrbView :
    ∃ delta', delta.updateDbrbView = .ok (delta', pending.updateDbrbView) ∧
      Represents delta' base committed pending := by
  rw [DbrbViewCacheDelta.updateDbrbView, h.processIds_eq, DbrbViewCache.updateDbrbView, DbrbViewCache.addDbrbProcesses]
  have hmem := forall_mem_processIds pending
  generalize pending.processIds = ids at hmem
  generalize DbrbViewFetcher.empty = fetcher
  induction ids generalizing delta fetcher with
  | nil => exact ⟨delta, rfl, h⟩
  | cons processId ids ih =>
    obtain ⟨hh, ht⟩ := List.forall_mem_cons.mp hmem
    obtain ⟨entry, hent⟩ := mem_keySet_iff.mp (mem_keySet.mpr hh)
    obtain ⟨delta₁, hd₁, h₁⟩ := h.modify hent id fun entry => rfl
    rw [DbrbViewCache.modify_id] at h₁
    obtain ⟨delta', hd', h'⟩ := ih h₁ ht (fetcher.addDbrbProcess entry)
    refine ⟨delta', ?_, h'⟩
    rw [List.foldl_cons, hent]
    exact bind_eq_ok.mpr ⟨_, bind_eq_ok.mpr ⟨_, hd₁, rfl⟩, hd'⟩

theorem Represents.commit :
    ∃ delta', delta.commit = .ok (delta', pending.updateDbrbView) ∧
      Represents delta' (keySet pending.entries) pending pending := by
  obtain ⟨delta₁, hdelta₁, h₁⟩ := h.updateDbrbView
  obtain ⟨ids, hids, hrep⟩ := h₁.processIds.commit
  refine ⟨⟨rebase pending.entries, ids⟩, ?_, refines_rebase _, hrep⟩
  refine bind_eq_ok.mpr ⟨_, hdelta₁, bind_eq_ok.mpr ⟨_, mapError_eq_ok.mpr h₁.entries.commit_eq, ?_⟩⟩
  exact bind_eq_ok.mpr ⟨ids, mapError_eq_ok.mpr hids, rfl⟩

end

end

end XpxChain.Dbrb
