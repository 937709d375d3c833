import XpxChain.Accounts.Balances
import XpxChain.Dbrb.View
import XpxChain.Library.SortedTables

/-! The registered DBRB processes: the cache of their entries, the observers that change it and the view fetcher, which
is rebuilt from it on every commit. -/

namespace XpxChain.Dbrb

open Std Accounts Library OrderedContainers ExtTreeMap

structure DbrbProcessEntry where
  processId : ProcessId
  expirationTime : Timestamp
  version : ℕ := 1
  banPeriod : ℕ := 0
deriving DecidableEq

def DbrbProcessEntry.decrementBanPeriod (entry : DbrbProcessEntry) : DbrbProcessEntry :=
  if 0 < entry.banPeriod then { entry with banPeriod := entry.banPeriod - 1 } else entry

structure RegistryConfiguration where
  dbrbBootstrapProcesses : ViewData
  dbrbRegistrationDuration : ℕ
  dbrbRegistrationGracePeriod : ℕ
  maxTransactionLifetime : ℕ
  maxBlockFutureTime : ℕ
  minCommitteePhaseTime : ℕ
  dbrbProcessLifetimeAfterExpiration : ℕ
  enableDbrbProcessBanning : Bool

inductive RegistryError
  | divisionByZero
deriving DecidableEq

structure DbrbViewCache where
  entries : ExtTreeMap ProcessId DbrbProcessEntry
  processId_of_mem : ∀ {id : ProcessId} {entry : DbrbProcessEntry}, entries[id]? = some entry → entry.processId = id

namespace DbrbViewCache

def empty : DbrbViewCache where
  entries := ∅
  processId_of_mem := by simp

variable (cache : DbrbViewCache)

def insert (entry : DbrbProcessEntry) : DbrbViewCache where
  entries := cache.entries.insert entry.processId entry
  processId_of_mem := by
    intro id other h
    rw [ExtTreeMap.getElem?_insert] at h
    split_ifs at h with he
    · rw [← Option.some.inj h]
      exact Std.compare_eq_iff_eq.mp he
    · exact cache.processId_of_mem h

def remove (id : ProcessId) : DbrbViewCache where
  entries := cache.entries.erase id
  processId_of_mem := by
    intro other entry h
    rw [ExtTreeMap.getElem?_erase] at h
    split_ifs at h
    exact cache.processId_of_mem h

def modify (id : ProcessId) (change : DbrbProcessEntry → DbrbProcessEntry) : DbrbViewCache :=
  match cache.entries[id]? with
  | none => cache
  | some entry => cache.insert { change entry with processId := entry.processId }

def processIds : List ProcessId := cache.entries.keys

end DbrbViewCache

inductive RegistryNotification
  | addDbrbProcess (processId : ProcessId)
  | removeDbrbProcess (processId : ProcessId)
deriving DecidableEq

def registrationExpirationTime (config : RegistryConfiguration) (timestamp : Timestamp) : Timestamp :=
  addAmount timestamp (addAmount config.dbrbRegistrationDuration config.dbrbRegistrationGracePeriod)

def addDbrbProcess (config : RegistryConfiguration) (timestamp : Timestamp) (processId : ProcessId)
    (cache : DbrbViewCache) : DbrbViewCache :=
  if processId ∈ cache.entries then
    cache.modify processId fun entry => { entry with expirationTime := registrationExpirationTime config timestamp }
  else cache.insert { processId, expirationTime := registrationExpirationTime config timestamp }

def removeDbrbProcess (config : RegistryConfiguration) (timestamp : Timestamp) (processId : ProcessId)
    (cache : DbrbViewCache) : DbrbViewCache :=
  if 0 < config.dbrbProcessLifetimeAfterExpiration then
    cache.modify processId fun entry => { entry with expirationTime := timestamp }
  else if processId ∈ cache.entries then cache.remove processId
  else cache

def RegistryNotification.observe (config : RegistryConfiguration) (timestamp : Timestamp) (cache : DbrbViewCache) :
    RegistryNotification → DbrbViewCache
  | .addDbrbProcess processId => Dbrb.addDbrbProcess config timestamp processId cache
  | .removeDbrbProcess processId => Dbrb.removeDbrbProcess config timestamp processId cache

def committeePhaseCount : ℕ := 4

def pruningBoundary (config : RegistryConfiguration) (timestamp : Timestamp) : Timestamp :=
  if 0 < config.dbrbProcessLifetimeAfterExpiration then sizeSub timestamp config.dbrbProcessLifetimeAfterExpiration
  else sizeSub timestamp config.maxTransactionLifetime

def pruneProcess (boundary : Timestamp) (cache : DbrbViewCache) (processId : ProcessId) : DbrbViewCache :=
  match cache.entries[processId]? with
  | none => cache
  | some entry => if entry.expirationTime < boundary then cache.remove processId else cache

def prune (boundary : Timestamp) (cache : DbrbViewCache) : DbrbViewCache :=
  cache.processIds.foldl (pruneProcess boundary) cache

def blockTargetTime (config : RegistryConfiguration) : ℕ := committeePhaseCount * config.minCommitteePhaseTime % 2 ^ 64

def pruningInterval (config : RegistryConfiguration) : ℕ := config.maxTransactionLifetime / blockTargetTime config

def IsPruningBlock (config : RegistryConfiguration) (height : Height) (timestamp : Timestamp) : Prop :=
  ¬(height % pruningInterval config ≠ 0 ∨ pruningInterval config < height ∨ timestamp < config.maxTransactionLifetime)
deriving Decidable

def dbrbProcessPruning (config : RegistryConfiguration) (height : Height) (timestamp : Timestamp)
    (cache : DbrbViewCache) : Except RegistryError DbrbViewCache :=
  if blockTargetTime config = 0 ∨ pruningInterval config = 0 then .error .divisionByZero
  else if IsPruningBlock config height timestamp then .ok (prune (pruningBoundary config timestamp) cache)
  else .ok cache

def dbrbProcessUpdate (config : RegistryConfiguration) (banPeriods : ProcessId → Option ℕ)
    (cache : DbrbViewCache) : DbrbViewCache :=
  if config.enableDbrbProcessBanning then
    cache.processIds.foldl
      (fun cache processId => cache.modify processId fun entry =>
        { entry with version := 2, banPeriod := (banPeriods processId).getD entry.banPeriod }.decrementBanPeriod)
      cache
  else cache

structure RegistryBlock where
  config : RegistryConfiguration
  height : Height
  timestamp : Timestamp
  notifications : List RegistryNotification
  banPeriods : ProcessId → Option ℕ

def observeAll (config : RegistryConfiguration) (timestamp : Timestamp) (notifications : List RegistryNotification)
    (cache : DbrbViewCache) : DbrbViewCache :=
  notifications.foldl (RegistryNotification.observe config timestamp) cache

def RegistryBlock.execute (cache : DbrbViewCache) (block : RegistryBlock) : Except RegistryError DbrbViewCache := do
  let cache ← dbrbProcessPruning block.config block.height block.timestamp
    (observeAll block.config block.timestamp block.notifications cache)
  return dbrbProcessUpdate block.config block.banPeriods cache

def executeBlocks (cache : DbrbViewCache) (blocks : List RegistryBlock) : Except RegistryError DbrbViewCache :=
  blocks.foldlM RegistryBlock.execute cache

lemma executeBlocks_append {cache : DbrbViewCache} {blocks blocks' : List RegistryBlock} :
    executeBlocks cache (blocks ++ blocks') = executeBlocks cache blocks >>= fun cache' =>
      executeBlocks cache' blocks' :=
  List.foldlM_append

/-- The ban period of every process that has an expiration time is there, so `m_banPeriods.at` does not throw. -/
structure DbrbViewFetcher where
  processes : ExtTreeMap ProcessId Timestamp := ∅
  expirationTimes : ExtTreeMap Timestamp (Finset ProcessId) := ∅
  banPeriods : ExtTreeMap ProcessId ℕ := ∅
  mem_banPeriods : ∀ {time : Timestamp} {ids}, expirationTimes[time]? = some ids →
    ∀ id ∈ ids, id ∈ banPeriods := by simp

namespace DbrbViewFetcher

def empty : DbrbViewFetcher := {}

variable (fetcher : DbrbViewFetcher)

def addDbrbProcess (entry : DbrbProcessEntry) : DbrbViewFetcher where
  processes := fetcher.processes.insert entry.processId entry.expirationTime
  expirationTimes := fetcher.expirationTimes.insert entry.expirationTime
    (Insert.insert entry.processId (fetcher.expirationTimes[entry.expirationTime]?.getD ∅))
  banPeriods := fetcher.banPeriods.insert entry.processId entry.banPeriod
  mem_banPeriods := by
    intro time ids hids id hid
    rw [ExtTreeMap.mem_insert]
    rw [ExtTreeMap.getElem?_insert] at hids
    split_ifs at hids
    · obtain rfl := Option.some.inj hids
      obtain rfl | hid := Finset.mem_insert.mp hid
      · exact .inl Std.compare_self
      · cases hold : fetcher.expirationTimes[entry.expirationTime]? with
        | none =>
          rw [hold] at hid
          exact absurd hid (Finset.notMem_empty id)
        | some old =>
          rw [hold] at hid
          exact .inr (fetcher.mem_banPeriods hold id hid)
    · exact .inr (fetcher.mem_banPeriods hids id hid)

/-- The latest expiration times come first, and the first one that is not later ends the loop. -/
def getView (timestamp : Timestamp) : ViewData :=
  (fetcher.expirationTimes.toList.reverse.takeWhile fun entry => timestamp < entry.1).foldl
    (fun view entry => view ∪ entry.2.filter fun id => fetcher.banPeriods[id]? = some 0) ∅

end DbrbViewFetcher

def DbrbViewCache.addDbrbProcesses (cache : DbrbViewCache) (processIds : List ProcessId) : DbrbViewFetcher :=
  processIds.foldl (fun fetcher processId => (cache.entries[processId]?).elim fetcher fetcher.addDbrbProcess) .empty

def DbrbViewCache.updateDbrbView (cache : DbrbViewCache) : DbrbViewFetcher := cache.addDbrbProcesses cache.processIds

namespace DbrbViewFetcher

variable {fetcher : DbrbViewFetcher} {id : ProcessId} {timestamp : Timestamp}

lemma mem_foldl_union {l : List (Timestamp × Finset ProcessId)} {p : ProcessId → Prop} [DecidablePred p]
    {view : ViewData} :
    id ∈ l.foldl (fun view entry => view ∪ entry.2.filter p) view ↔ id ∈ view ∨ ∃ entry ∈ l, id ∈ entry.2 ∧ p id := by
  induction l generalizing view with
  | nil => simp
  | cons a l ih => simp [ih, or_assoc]

lemma mem_getView : id ∈ fetcher.getView timestamp ↔ fetcher.banPeriods[id]? = some 0 ∧
      ∃ time ids, fetcher.expirationTimes[time]? = some ids ∧ timestamp < time ∧ id ∈ ids := by
  have hs : fetcher.expirationTimes.toList.reverse.Pairwise fun a b => b.1 < a.1 := by
    rw [List.pairwise_reverse]
    exact (fetcher.expirationTimes.ordered_keys_toList).imp fun h => Nat.compare_eq_lt.mp h
  have ht := SortedTables.takeWhile_eq_filter_of_pairwise
    (hs.imp fun {a b} hab hb => decide_eq_true ((of_decide_eq_true hb : timestamp < b.1).trans hab))
  rw [getView, ht, mem_foldl_union]
  simp only [Finset.notMem_empty, false_or, List.mem_filter, List.mem_reverse, decide_eq_true_eq]
  constructor
  · rintro ⟨⟨time, ids⟩, ⟨hmem, hlt⟩, hid, hban⟩
    exact ⟨hban, time, ids, mem_toList_iff_getElem?_eq_some.mp hmem, hlt, hid⟩
  · rintro ⟨hban, time, ids, hmem, hlt, hid⟩
    exact ⟨(time, ids), ⟨mem_toList_iff_getElem?_eq_some.mpr hmem, hlt⟩, hid, hban⟩

end DbrbViewFetcher

namespace DbrbViewCache

variable {cache : DbrbViewCache} {id : ProcessId} {timestamp : Timestamp}

lemma addDbrbProcesses_append_singleton {l : List ProcessId} {a : ProcessId} : cache.addDbrbProcesses (l ++ [a]) =
    (cache.entries[a]?).elim (cache.addDbrbProcesses l) (cache.addDbrbProcesses l).addDbrbProcess := by
  rw [addDbrbProcesses, List.foldl_append]
  rfl

lemma banPeriods_addDbrbProcesses (l : List ProcessId) (id : ProcessId) : (cache.addDbrbProcesses l).banPeriods[id]? =
      if id ∈ l then cache.entries[id]?.map DbrbProcessEntry.banPeriod else none := by
  induction l using List.reverseRecOn with
  | nil => simp [addDbrbProcesses, DbrbViewFetcher.empty]
  | append_singleton l a ih =>
    rw [addDbrbProcesses_append_singleton]
    cases hent : cache.entries[a]? with
    | none =>
      rw [Option.elim_none, ih]
      by_cases hid : id = a
      · subst hid
        simp [hent]
      · simp [hid]
    | some entry =>
      rw [Option.elim_some]
      simp only [DbrbViewFetcher.addDbrbProcess, cache.processId_of_mem hent, getElem?_insert,
        Std.compare_eq_iff_eq, ih]
      by_cases hid : a = id
      · subst hid
        simp [hent]
      · simp [hid, Ne.symm hid]

lemma mem_expirationTimes_addDbrbProcesses (l : List ProcessId) (time : Timestamp) (id : ProcessId) :
    id ∈ (cache.addDbrbProcesses l).expirationTimes[time]?.getD ∅ ↔
      id ∈ l ∧ cache.entries[id]?.map DbrbProcessEntry.expirationTime = some time := by
  induction l using List.reverseRecOn with
  | nil => simp [addDbrbProcesses, DbrbViewFetcher.empty]
  | append_singleton l a ih =>
    rw [addDbrbProcesses_append_singleton]
    cases hent : cache.entries[a]? with
    | none =>
      rw [Option.elim_none, ih]
      by_cases hid : id = a
      · subst hid
        simp [hent]
      · simp [hid]
    | some entry =>
      rw [Option.elim_some]
      simp only [DbrbViewFetcher.addDbrbProcess, cache.processId_of_mem hent, getElem?_insert, Std.compare_eq_iff_eq]
      by_cases ht : entry.expirationTime = time
      · subst ht
        rw [if_pos rfl, Option.getD_some, Finset.mem_insert, ih]
        by_cases hid : id = a
        · subst hid
          simp [hent]
        · simp [hid]
      · rw [if_neg ht, ih]
        by_cases hid : id = a
        · subst hid
          simp [hent, ht]
        · simp [hid]

def Active (cache : DbrbViewCache) (timestamp : Timestamp) (id : ProcessId) : Prop :=
  ∃ entry, cache.entries[id]? = some entry ∧ timestamp < entry.expirationTime ∧ entry.banPeriod = 0

lemma nodup_processIds : cache.processIds.Nodup := by
  have hd := cache.entries.distinct_keys
  simp only [Std.compare_eq_iff_eq] at hd
  exact hd

lemma mem_processIds : id ∈ cache.processIds ↔ ∃ entry, cache.entries[id]? = some entry := by
  rw [processIds, mem_keys, ← isSome_getElem?_iff_mem, Option.isSome_iff_exists]

theorem mem_getView_updateDbrbView : id ∈ cache.updateDbrbView.getView timestamp ↔ cache.Active timestamp id := by
  rw [DbrbViewFetcher.mem_getView, updateDbrbView, banPeriods_addDbrbProcesses]
  constructor
  · rintro ⟨hz, time, ids, hids, hlt, hid⟩
    obtain ⟨hmem, hexp⟩ := (mem_expirationTimes_addDbrbProcesses cache.processIds time id).mp (by rwa [hids])
    obtain ⟨entry, hent⟩ := mem_processIds.mp hmem
    rw [if_pos hmem, hent] at hz
    rw [hent] at hexp
    exact ⟨entry, hent, (Option.some.inj hexp) ▸ hlt, Option.some.inj hz⟩
  · rintro ⟨entry, hent, hlt, hz⟩
    have hmem := mem_processIds.mpr ⟨entry, hent⟩
    have hin :=
      (mem_expirationTimes_addDbrbProcesses cache.processIds entry.expirationTime id).mpr ⟨hmem, by rw [hent]; rfl⟩
    refine ⟨by rw [if_pos hmem, hent, Option.map_some, hz], entry.expirationTime, ?_⟩
    cases hids : (cache.addDbrbProcesses cache.processIds).expirationTimes[entry.expirationTime]? with
    | none =>
      rw [hids] at hin
      exact absurd hin (Finset.notMem_empty id)
    | some ids =>
      rw [hids] at hin
      exact ⟨ids, rfl, hlt, hin⟩

lemma getElem?_remove_of_ne {processId : ProcessId} (h : processId ≠ id) :
    (cache.remove processId).entries[id]? = cache.entries[id]? := by
  rw [remove, getElem?_erase, if_neg (by rwa [Std.compare_eq_iff_eq])]

end DbrbViewCache

end XpxChain.Dbrb
