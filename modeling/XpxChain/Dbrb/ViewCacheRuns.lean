import XpxChain.Dbrb.ViewCacheSummary

/-! Runs of a node over the DBRB view cache, with restarts from the summary that it saves with every commit. -/

namespace XpxChain.Dbrb

open Std Library OrderedContainers DeltaSet Exceptions BinaryFormats DbrbViewCache List

inductive RegistryStep
  | notify (config : RegistryConfiguration) (timestamp : Timestamp) (notification : RegistryNotification)
  | prune (config : RegistryConfiguration) (height : Height) (timestamp : Timestamp)
  | update (config : RegistryConfiguration) (banPeriods : ProcessId → Option ℕ)
  | commit
  | drop
  | restart

structure RegistryNode where
  delta : DbrbViewCacheDelta
  fetcher : DbrbViewFetcher
  summary : Bytes

namespace RegistryNode

def initial : RegistryNode := ⟨⟨rebase ∅, rebase ∅⟩, .empty, []⟩

variable (node : RegistryNode)

/-- A delta of the cache `init` gets the identifiers and is committed. -/
def init (entries : ExtTreeMap ProcessId DbrbProcessEntry) (processIds : Finset ProcessId) :
    Except ViewCacheError (DbrbViewCacheDelta × DbrbViewFetcher) :=
  ((ascending processIds).foldl DbrbViewCacheDelta.insertProcessId ⟨rebase entries, rebase ∅⟩).commit

def changeDelta (changed : Except ViewCacheError DbrbViewCacheDelta) : Except ViewCacheError RegistryNode := do
  let delta ← changed
  return { node with delta }

def next : RegistryStep → Except ViewCacheError RegistryNode
  | .notify config timestamp notification => node.changeDelta (node.delta.observe config timestamp notification)
  | .prune config height timestamp => node.changeDelta (node.delta.dbrbProcessPruning config height timestamp)
  | .update config banPeriods => node.changeDelta (node.delta.dbrbProcessUpdate config banPeriods)
  | .commit => do
    let (delta, fetcher) ← node.delta.commit
    return ⟨delta, fetcher, saveSummary node.delta.processIds⟩
  | .drop => .ok { node with
      delta :=
        ⟨rebase node.delta.dbrbProcessEntries.originalElements, rebase node.delta.deltaProcessIds.originalElements⟩ }
  | .restart =>
    match loadSummary node.summary with
    | none => .error .unreadableSummary
    | some processIds => do
      let (delta, fetcher) ← init node.delta.dbrbProcessEntries.originalElements processIds
      return ⟨delta, fetcher, node.summary⟩

def run (steps : List RegistryStep) : Except ViewCacheError RegistryNode := steps.foldlM next initial

end RegistryNode

def RegistryStep.DividesByZero : RegistryStep → Prop
  | .prune config _ _ => blockTargetTime config = 0 ∨ pruningInterval config = 0
  | _ => False

structure RegistryNode.Represents (steps : ℕ) (node : RegistryNode) (committed pending : DbrbViewCache) : Prop where
  delta : Dbrb.Represents node.delta (keySet committed.entries) committed pending
  fetcher : node.fetcher = committed.updateDbrbView
  summary : loadSummary node.summary =
    if committed.entries.size < 2 ^ 32 then some (keySet committed.entries) else none
  committed_le : committed.entries.size ≤ steps
  pending_le : pending.entries.size ≤ steps

section

variable {steps : ℕ} {node : RegistryNode} {committed pending : DbrbViewCache} {config : RegistryConfiguration}
  {timestamp : Timestamp} {height : Height}

lemma size_insert_le {entry : DbrbProcessEntry} : (pending.insert entry).entries.size ≤ pending.entries.size + 1 :=
  ExtTreeMap.size_insert_le

variable {processId : ProcessId} {pending' : DbrbViewCache}

lemma size_remove_le : (pending.remove processId).entries.size ≤ pending.entries.size :=
  ExtTreeMap.size_erase_le

lemma size_modify {change : DbrbProcessEntry → DbrbProcessEntry} :
    (pending.modify processId change).entries.size = pending.entries.size := by
  rw [DbrbViewCache.modify]
  split
  · rfl
  · rename_i entry hent
    rw [DbrbViewCache.insert, ExtTreeMap.size_insert]
    apply if_pos
    rw [pending.processId_of_mem hent]
    exact mem_keySet.mp (mem_keySet_iff.mpr ⟨entry, hent⟩)

lemma size_observe_le (notification : RegistryNotification) :
    (notification.observe config timestamp pending).entries.size ≤ pending.entries.size + 1 := by
  cases notification with
  | addDbrbProcess processId =>
    rw [RegistryNotification.observe, addDbrbProcess]
    split_ifs
    · rw [size_modify]
      exact Nat.le_succ _
    · exact size_insert_le
  | removeDbrbProcess processId =>
    rw [RegistryNotification.observe, removeDbrbProcess]
    split_ifs
    · rw [size_modify]
      exact Nat.le_succ _
    · exact size_remove_le.trans (Nat.le_succ _)
    · exact Nat.le_succ _

lemma size_prune_le {boundary : Timestamp} : (prune boundary pending).entries.size ≤ pending.entries.size := by
  rw [prune]
  generalize pending.processIds = ids
  induction ids generalizing pending with
  | nil => exact le_rfl
  | cons processId ids ih =>
    refine ih.trans ?_
    rw [pruneProcess]
    split
    · exact le_rfl
    · split_ifs
      · exact size_remove_le
      · exact le_rfl

lemma size_dbrbProcessPruning_le (h : dbrbProcessPruning config height timestamp pending = .ok pending') :
    pending'.entries.size ≤ pending.entries.size := by
  rw [dbrbProcessPruning] at h
  split_ifs at h
  · cases h
    exact size_prune_le
  · cases h
    exact le_rfl

lemma size_dbrbProcessUpdate {banPeriods : ProcessId → Option ℕ} :
    (dbrbProcessUpdate config banPeriods pending).entries.size = pending.entries.size := by
  rw [dbrbProcessUpdate]
  split_ifs
  · generalize pending.processIds = ids
    induction ids generalizing pending with
    | nil => rfl
    | cons processId ids ih => rw [foldl_cons, ih, size_modify]
  · rfl

lemma RegistryNode.represents_initial : initial.Represents 0 DbrbViewCache.empty DbrbViewCache.empty where
  delta := ⟨refines_rebase ∅, refinesIds_rebase⟩
  fetcher := rfl
  summary := by simp [initial, loadSummary, empty]
  committed_le := by simp [empty]
  pending_le := by simp [empty]

lemma RegistryNode.Represents.changeDelta (h : node.Represents steps committed pending) {delta' : DbrbViewCacheDelta}
    (hrep : Dbrb.Represents delta' (keySet committed.entries) committed pending')
    (hsz : pending'.entries.size ≤ steps + 1) :
    ({ node with delta := delta' } : RegistryNode).Represents (steps + 1) committed pending' where
  delta := hrep
  fetcher := h.fetcher
  summary := h.summary
  committed_le := h.committed_le.trans (Nat.le_succ _)
  pending_le := hsz

lemma RegistryNode.Represents.saveSummary (h : node.Represents steps committed pending) (hs : steps < 2 ^ 64) :
    loadSummary (Dbrb.saveSummary node.delta.processIds) =
      if pending.entries.size < 2 ^ 32 then some (keySet pending.entries) else none := by
  have hlen : node.delta.processIds.length = pending.entries.size := by
    rw [DbrbViewCacheDelta.processIds, h.delta.processIds.eq_sdiff, length_ascending, card_keySet]
  split_ifs with hsz
  · rw [loadSummary_saveSummary (by rwa [hlen]), DbrbViewCacheDelta.processIds, h.delta.processIds.eq_sdiff]
    congr 1
    ext id
    rw [mem_toFinset, mem_ascending]
  · apply loadSummary_saveSummary_of_le
    · rw [hlen]
      exact Nat.not_lt.mp hsz
    · rw [hlen]
      exact h.pending_le.trans_lt hs

open DbrbViewCacheDelta

lemma RegistryNode.init_eq_ok (committed : DbrbViewCache) :
    ∃ delta', init committed.entries (keySet committed.entries) = .ok (delta', committed.updateDbrbView) ∧
      Dbrb.Represents delta' (keySet committed.entries) committed committed := by
  have hids : ∀ (ids : List ProcessId) (delta : DbrbViewCacheDelta) (content : Finset ProcessId),
      RefinesIds delta.deltaProcessIds ∅ content →
        RefinesIds (ids.foldl insertProcessId delta).deltaProcessIds ∅ (content ∪ ids.toFinset) ∧
          (ids.foldl insertProcessId delta).dbrbProcessEntries = delta.dbrbProcessEntries := by
    intro ids
    induction ids with
    | nil =>
      intro delta content h
      rw [toFinset_nil, Finset.union_empty]
      exact ⟨h, rfl⟩
    | cons id ids ih =>
      intro delta content h
      obtain ⟨hc, he⟩ := ih (delta.insertProcessId id) _ (refinesIds_insertProcessId h)
      rw [toFinset_cons, Finset.union_insert, ← Finset.insert_union]
      exact ⟨hc, he.trans dbrbProcessEntries_insertProcessId⟩
  obtain ⟨hc, he⟩ := hids (ascending (keySet committed.entries)) ⟨rebase committed.entries, rebase ∅⟩ ∅
    (by simpa using @refinesIds_rebase ∅)
  have hrep : Dbrb.Represents
      ((ascending (keySet committed.entries)).foldl insertProcessId ⟨rebase committed.entries, rebase ∅⟩)
      ∅ committed committed := by
    refine ⟨he ▸ refines_rebase committed.entries, ?_⟩
    have hk : ∅ ∪ (ascending (keySet committed.entries)).toFinset = keySet committed.entries := by
      ext id
      simp
    rwa [hk] at hc
  exact hrep.commit

theorem RegistryNode.Represents.next (h : node.Represents steps committed pending) (hs : steps < 2 ^ 64)
    (step : RegistryStep) :
    (∃ node' committed' pending', node.next step = .ok node' ∧ node'.Represents (steps + 1) committed' pending') ∨
      (node.next step = .error .divisionByZero ∧ step.DividesByZero) ∨
      (node.next step = .error .unreadableSummary ∧ 2 ^ 32 ≤ steps) := by
  cases step with
  | notify config timestamp notification =>
    obtain ⟨delta', hd', hrep⟩ := h.delta.observe notification
    exact Or.inl ⟨_, _, _, bind_eq_ok.mpr ⟨delta', hd', rfl⟩, h.changeDelta hrep
      ((size_observe_le notification).trans (Nat.succ_le_succ h.pending_le))⟩
  | prune config height timestamp =>
    rcases h.delta.dbrbProcessPruning with ⟨delta', pending', hd', hp', hrep⟩ | ⟨hz, he⟩
    · exact Or.inl ⟨_, _, _, bind_eq_ok.mpr ⟨delta', hd', rfl⟩,
        h.changeDelta hrep ((size_dbrbProcessPruning_le hp').trans (h.pending_le.trans (Nat.le_succ _)))⟩
    · refine Or.inr (Or.inl ⟨?_, hz⟩)
      rw [RegistryNode.next, he]
      rfl
  | update config banPeriods =>
    obtain ⟨delta', hd', hrep⟩ := h.delta.dbrbProcessUpdate
    exact Or.inl ⟨_, _, _, bind_eq_ok.mpr ⟨delta', hd', rfl⟩,
      h.changeDelta hrep (size_dbrbProcessUpdate.le.trans (h.pending_le.trans (Nat.le_succ _)))⟩
  | commit =>
    obtain ⟨delta', hd', hrep⟩ := h.delta.commit
    refine Or.inl ⟨_, pending, pending, bind_eq_ok.mpr ⟨_, hd', rfl⟩, hrep, rfl, h.saveSummary hs, ?_, ?_⟩
    · exact h.pending_le.trans (Nat.le_succ _)
    · exact h.pending_le.trans (Nat.le_succ _)
  | drop =>
    refine Or.inl ⟨_, committed, committed, rfl, h.changeDelta ⟨?_, ?_⟩ (h.committed_le.trans (Nat.le_succ _))⟩
    · rw [← h.delta.entries.base_eq]
      exact refines_rebase committed.entries
    · obtain ⟨map, hmap, hb, -⟩ := h.delta.processIds
      rw [← hb, hmap.base_eq]
      exact refinesIds_rebase
  | restart =>
    by_cases hsz : committed.entries.size < 2 ^ 32
    · obtain ⟨delta', hd', hrep⟩ := init_eq_ok committed
      refine Or.inl ⟨⟨delta', committed.updateDbrbView, node.summary⟩, committed, committed, ?_, hrep, rfl,
        h.summary, ?_, ?_⟩
      · rw [RegistryNode.next, h.summary, if_pos hsz, ← h.delta.entries.base_eq]
        exact bind_eq_ok.mpr ⟨_, hd', rfl⟩
      · exact h.committed_le.trans (Nat.le_succ _)
      · exact h.committed_le.trans (Nat.le_succ _)
    · refine Or.inr (Or.inr ⟨?_, (Nat.not_lt.mp hsz).trans h.committed_le⟩)
      rw [RegistryNode.next, h.summary, if_neg hsz]

end

structure RegistryNode.Matches (node : RegistryNode) : Prop where
  mem_getView : ∀ timestamp id, id ∈ node.fetcher.getView timestamp ↔
    ∃ entry, node.delta.dbrbProcessEntries.originalElements[id]? = some entry ∧ timestamp < entry.expirationTime ∧
      entry.banPeriod = 0
  entry_of_id : ∀ id ∈ node.delta.processIds, ∃ entry, node.delta.dbrbProcessEntries.findConst id = some entry

lemma RegistryNode.Represents.matches {steps : ℕ} {node : RegistryNode} {committed pending : DbrbViewCache}
    (h : node.Represents steps committed pending) : node.Matches where
  mem_getView timestamp id := by
    rw [h.fetcher, ← h.delta.entries.base_eq]
    exact mem_getView_updateDbrbView
  entry_of_id id hid := by
    rw [h.delta.processIds_eq] at hid
    rw [h.delta.findConst]
    exact mem_processIds.mp hid

/-- A run goes on as long as no pruning divides by zero and the summary can be loaded; then the node matches. -/
theorem dbrb_view_matches_registered_processes (steps : List RegistryStep) (hsteps : steps.length < 2 ^ 64) :
    (∃ node, RegistryNode.run steps = .ok node ∧ node.Matches) ∨
      (RegistryNode.run steps = .error .divisionByZero ∧ ∃ step ∈ steps, step.DividesByZero) ∨
      (RegistryNode.run steps = .error .unreadableSummary ∧ 2 ^ 32 ≤ steps.length) := by
  suffices hrun : (∃ node committed pending, RegistryNode.run steps = .ok node ∧
      node.Represents steps.length committed pending) ∨
      (RegistryNode.run steps = .error .divisionByZero ∧ ∃ step ∈ steps, step.DividesByZero) ∨
      (RegistryNode.run steps = .error .unreadableSummary ∧ 2 ^ 32 ≤ steps.length) by
    rcases hrun with ⟨node, committed, pending, hok, hrep⟩ | herror
    · exact Or.inl ⟨node, hok, hrep.matches⟩
    · exact Or.inr herror
  induction steps using reverseRecOn with
  | nil => exact Or.inl ⟨_, _, _, rfl, RegistryNode.represents_initial⟩
  | append_singleton steps step ih =>
    rw [length_append] at hsteps ⊢
    have happend : RegistryNode.run (steps ++ [step]) = RegistryNode.run steps >>= fun node => node.next step := by
      simp [RegistryNode.run]
    rw [happend]
    rcases ih (by omega) with ⟨node, committed, pending, hok, hrep⟩ | ⟨herror, step', hmem, hzero⟩ | ⟨herror, hle⟩
    · rw [hok]
      rcases hrep.next (by omega) step with ⟨node', committed', pending', hnext, hrep'⟩ | ⟨hnext, hzero⟩ | ⟨hnext, hle⟩
      · exact Or.inl ⟨node', committed', pending', hnext, hrep'⟩
      · exact Or.inr (Or.inl ⟨hnext, step, by simp, hzero⟩)
      · exact Or.inr (Or.inr ⟨hnext, by omega⟩)
    · rw [herror]
      exact Or.inr (Or.inl ⟨rfl, step', by simp [hmem], hzero⟩)
    · rw [herror]
      exact Or.inr (Or.inr ⟨rfl, by omega⟩)

section

def sampleRegistration : RegistryConfiguration where
  dbrbBootstrapProcesses := ∅
  dbrbRegistrationDuration := 1000
  dbrbRegistrationGracePeriod := 0
  maxTransactionLifetime := 8000
  maxBlockFutureTime := 0
  minCommitteePhaseTime := 1000
  dbrbProcessLifetimeAfterExpiration := 0
  enableDbrbProcessBanning := true

def sampleSteps : List RegistryStep :=
  [.notify sampleRegistration 100 (.addDbrbProcess 7), .notify sampleRegistration 100 (.addDbrbProcess 8), .commit,
    .notify sampleRegistration 200 (.removeDbrbProcess 7), .notify sampleRegistration 300 (.addDbrbProcess 7),
    .update sampleRegistration (fun _ => some 0), .prune sampleRegistration 2 9000, .commit, .drop, .restart]

theorem dbrb_view_matches_registered_processes_sample :
    ∃ node, RegistryNode.run sampleSteps = .ok node ∧ node.Matches := by
  rcases dbrb_view_matches_registered_processes sampleSteps (by decide) with hok | ⟨-, step, hmem, hzero⟩ | ⟨-, hlength⟩
  · exact hok
  · have hpositive : ¬(blockTargetTime sampleRegistration = 0 ∨ pruningInterval sampleRegistration = 0) := by decide
    simp only [sampleSteps, mem_cons, not_mem_nil, or_false] at hmem
    rcases hmem with rfl | rfl | rfl | rfl | rfl | rfl | rfl | rfl | rfl | rfl <;>
      first | exact hzero.elim | exact absurd hzero hpositive
  · exact absurd hlength (by decide)

end

end XpxChain.Dbrb
