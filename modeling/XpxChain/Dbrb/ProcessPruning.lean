import XpxChain.Dbrb.ProcessRegistry

/-! The pruning of expired processes, with the reports to the listeners. -/

namespace XpxChain.Dbrb

open Std Accounts DbrbViewCache List

variable {L : Type} [DecidableEq L]

def pruneAndReportProcess (boundary : Timestamp) (updateListeners : List L)
    (state : DbrbViewCache × List (L × ProcessId)) (processId : ProcessId) : DbrbViewCache × List (L × ProcessId) :=
  match state.1.entries[processId]? with
  | none => state
  | some entry =>
    if entry.expirationTime < boundary then
      (state.1.remove processId, state.2 ++ updateListeners.map fun listener => (listener, processId))
    else state

def pruneAndReport (boundary : Timestamp) (updateListeners : List L) (cache : DbrbViewCache) :
    DbrbViewCache × List (L × ProcessId) :=
  cache.processIds.foldl (pruneAndReportProcess boundary updateListeners) (cache, [])

def dbrbProcessPruningReporting (config : RegistryConfiguration) (updateListeners : List L) (height : Height)
    (timestamp : Timestamp) (cache : DbrbViewCache) : Except RegistryError (DbrbViewCache × List (L × ProcessId)) :=
  if blockTargetTime config = 0 ∨ pruningInterval config = 0 then .error .divisionByZero
  else if IsPruningBlock config height timestamp then
    .ok (pruneAndReport (pruningBoundary config timestamp) updateListeners cache)
  else .ok (cache, [])

section

variable {boundary : Timestamp} {updateListeners : List L} {state : DbrbViewCache × List (L × ProcessId)}
  {processId id : ProcessId} {listener : L}

def IsExpired (boundary : Timestamp) (cache : DbrbViewCache) (id : ProcessId) : Prop :=
  ∃ entry, cache.entries[id]? = some entry ∧ entry.expirationTime < boundary

omit [DecidableEq L] in
lemma pruneAndReportProcess_of_expired (h : IsExpired boundary state.1 processId) :
    pruneAndReportProcess boundary updateListeners state processId =
      (state.1.remove processId, state.2 ++ updateListeners.map fun listener => (listener, processId)) := by
  obtain ⟨entry, hent, hexp⟩ := h
  simp [pruneAndReportProcess, hent, hexp]

omit [DecidableEq L] in
lemma pruneAndReportProcess_of_not_expired (h : ¬IsExpired boundary state.1 processId) :
    pruneAndReportProcess boundary updateListeners state processId = state := by
  rw [pruneAndReportProcess]
  split
  · rfl
  · rename_i entry hent
    exact if_neg fun hexp => h ⟨entry, hent, hexp⟩

omit [DecidableEq L] in
lemma fst_foldl_pruneAndReportProcess (ids : List ProcessId) :
    (ids.foldl (pruneAndReportProcess boundary updateListeners) state).1 =
      ids.foldl (pruneProcess boundary) state.1 := by
  induction ids generalizing state with
  | nil => rfl
  | cons processId ids ih =>
    rw [foldl_cons, foldl_cons, ih]
    congr 1
    by_cases hexp : IsExpired boundary state.1 processId
    · rw [pruneAndReportProcess_of_expired hexp]
      obtain ⟨entry, hent, hlt⟩ := hexp
      simp [pruneProcess, hent, hlt]
    · rw [pruneAndReportProcess_of_not_expired hexp, pruneProcess]
      split
      · rfl
      · rename_i entry hent
        rw [if_neg fun hlt => hexp ⟨entry, hent, hlt⟩]

omit [DecidableEq L] in
theorem dbrbProcessPruningReporting_fst {config : RegistryConfiguration} {height : Height} {timestamp : Timestamp}
    {cache : DbrbViewCache} : (dbrbProcessPruningReporting config updateListeners height timestamp cache).map Prod.fst =
      dbrbProcessPruning config height timestamp cache := by
  rw [dbrbProcessPruningReporting, dbrbProcessPruning]
  split_ifs
  · rfl
  · exact congrArg Except.ok (fst_foldl_pruneAndReportProcess cache.processIds)
  · rfl

omit [DecidableEq L] in
lemma isExpired_pruneAndReportProcess_of_ne (h : processId ≠ id) :
    IsExpired boundary (pruneAndReportProcess boundary updateListeners state processId).1 id ↔
      IsExpired boundary state.1 id := by
  by_cases hexp : IsExpired boundary state.1 processId
  · rw [pruneAndReportProcess_of_expired hexp, IsExpired, IsExpired, getElem?_remove_of_ne h]
  · rw [pruneAndReportProcess_of_not_expired hexp]

omit [DecidableEq L] in
lemma getElem?_foldl_pruneAndReportProcess {ids : List ProcessId} (hnd : ids.Nodup) :
    (id ∈ ids → IsExpired boundary state.1 id →
        (ids.foldl (pruneAndReportProcess boundary updateListeners) state).1.entries[id]? = none) ∧
      (¬(id ∈ ids ∧ IsExpired boundary state.1 id) →
        (ids.foldl (pruneAndReportProcess boundary updateListeners) state).1.entries[id]? = state.1.entries[id]?) := by
  induction ids generalizing state with
  | nil => simp
  | cons processId ids ih =>
    obtain ⟨hn, hnd⟩ := nodup_cons.mp hnd
    obtain ⟨hg, hk⟩ := @ih (pruneAndReportProcess boundary updateListeners state processId) hnd
    rw [foldl_cons]
    by_cases hid : processId = id
    · subst hid
      have hr := hk fun h => hn h.1
      constructor
      · intro _ hexp
        rw [hr, pruneAndReportProcess_of_expired hexp]
        simp [remove]
      · intro hnot
        rw [hr, pruneAndReportProcess_of_not_expired fun hexp => hnot ⟨mem_cons_self, hexp⟩]
    · have hs : (pruneAndReportProcess boundary updateListeners state processId).1.entries[id]? =
          state.1.entries[id]? := by
        by_cases hexp : IsExpired boundary state.1 processId
        · rw [pruneAndReportProcess_of_expired hexp, getElem?_remove_of_ne hid]
        · rw [pruneAndReportProcess_of_not_expired hexp]
      rw [isExpired_pruneAndReportProcess_of_ne hid, hs] at hk
      rw [isExpired_pruneAndReportProcess_of_ne hid] at hg
      constructor
      · intro hmem hexp
        exact hg ((mem_cons.mp hmem).resolve_left (Ne.symm hid)) hexp
      · intro hnot
        exact hk fun h => hnot ⟨mem_cons_of_mem _ h.1, h.2⟩

lemma count_reports {ids : List ProcessId} :
    (ids.map fun id => updateListeners.map fun listener => (listener, id)).flatten.count (listener, id) =
      updateListeners.count listener * ids.count id := by
  induction ids with
  | nil => simp
  | cons processId ids ih =>
    rw [map_cons, flatten_cons, count_append, count_cons, Nat.mul_add, Nat.add_comm]
    congr 1
    by_cases hid : processId = id
    · subst hid
      have hi : Function.Injective fun listener : L => (listener, processId) := fun a b h => congrArg Prod.fst h
      rw [count_map_of_injective _ _ hi]
      simp
    · rw [count_eq_zero_of_not_mem]
      · simp [hid]
      · simp [hid]

omit [DecidableEq L] in
lemma snd_foldl_pruneAndReportProcess {ids : List ProcessId} (hnd : ids.Nodup)
    [DecidablePred (IsExpired boundary state.1)] :
    (ids.foldl (pruneAndReportProcess boundary updateListeners) state).2 = state.2 ++
      ((ids.filter (IsExpired boundary state.1 ·)).map fun id => updateListeners.map fun listener =>
        (listener, id)).flatten := by
  classical
  induction ids generalizing state with
  | nil => simp
  | cons processId ids ih =>
    obtain ⟨hn, hnd⟩ := nodup_cons.mp hnd
    have hf : ids.filter (IsExpired boundary (pruneAndReportProcess boundary updateListeners state processId).1 ·) =
        ids.filter (IsExpired boundary state.1 ·) := by
      apply filter_congr
      intro id hid
      simp only [decide_eq_decide]
      exact isExpired_pruneAndReportProcess_of_ne fun h => hn (h ▸ hid)
    rw [foldl_cons, ih hnd, hf]
    by_cases hexp : IsExpired boundary state.1 processId
    · rw [pruneAndReportProcess_of_expired hexp]
      simp [hexp]
    · rw [pruneAndReportProcess_of_not_expired hexp]
      simp [hexp]

end

section

variable {config : RegistryConfiguration} {updateListeners : List L} {height : Height} {timestamp : Timestamp}
  {cache : DbrbViewCache}

def processLifetime (config : RegistryConfiguration) : ℕ :=
  if 0 < config.dbrbProcessLifetimeAfterExpiration then config.dbrbProcessLifetimeAfterExpiration
  else config.maxTransactionLifetime

lemma pruningBoundary_eq : pruningBoundary config timestamp = sizeSub timestamp (processLifetime config) := by
  rw [pruningBoundary, processLifetime]
  split_ifs <;> rfl

def IsOutdated (config : RegistryConfiguration) (timestamp : Timestamp) (cache : DbrbViewCache)
    (id : ProcessId) : Prop :=
  ∃ entry, cache.entries[id]? = some entry ∧ entry.expirationTime + processLifetime config < timestamp

lemma isExpired_pruningBoundary (h : processLifetime config ≤ timestamp) {id : ProcessId} :
    IsExpired (pruningBoundary config timestamp) cache id ↔ IsOutdated config timestamp cache id := by
  refine exists_congr fun entry => and_congr_right fun _ => ?_
  rw [pruningBoundary_eq, sizeSub_of_le h]
  exact Nat.lt_sub_iff_add_lt

structure IsDue (config : RegistryConfiguration) (height : Height) (timestamp : Timestamp) : Prop where
  positive : 0 < height
  multiple : pruningInterval config ∣ height
  lifetime : config.maxTransactionLifetime ≤ timestamp

structure Pruned (config : RegistryConfiguration) (updateListeners : List L) (timestamp : Timestamp)
    (cache : DbrbViewCache) (result : DbrbViewCache × List (L × ProcessId)) : Prop where
  removed : ∀ id, IsOutdated config timestamp cache id → result.1.entries[id]? = none
  kept : ∀ id, ¬IsOutdated config timestamp cache id → result.1.entries[id]? = cache.entries[id]?
  reported : ∀ listener id, IsOutdated config timestamp cache id →
    result.2.count (listener, id) = updateListeners.count listener
  not_reported : ∀ listener id, ¬IsOutdated config timestamp cache id → (listener, id) ∉ result.2

lemma pruned_pruneAndReport
    (h : ∀ id, IsExpired (pruningBoundary config timestamp) cache id ↔ IsOutdated config timestamp cache id) :
    Pruned config updateListeners timestamp cache
      (pruneAndReport (pruningBoundary config timestamp) updateListeners cache) := by
  classical
  have he :=
    fun id => @getElem?_foldl_pruneAndReportProcess L (pruningBoundary config timestamp) updateListeners (cache, [])
    id cache.processIds nodup_processIds
  have hr := @snd_foldl_pruneAndReportProcess L (pruningBoundary config timestamp) updateListeners (cache, [])
    cache.processIds nodup_processIds (fun _ => Classical.dec _)
  simp only [h, nil_append] at he hr
  have hmem : ∀ id, IsOutdated config timestamp cache id → id ∈ cache.processIds := by
    rintro id ⟨entry, hent, -⟩
    exact mem_processIds.mpr ⟨entry, hent⟩
  refine ⟨?_, ?_, ?_, ?_⟩
  · intro id ho
    exact (he id).1 (hmem id ho) ho
  · intro id hnot
    exact (he id).2 fun hb => hnot hb.2
  · intro listener id ho
    have hcnt : (cache.processIds.filter (IsOutdated config timestamp cache ·)).count id = 1 := by
      rw [count_filter (by simpa using ho)]
      exact count_eq_one_of_mem nodup_processIds (hmem id ho)
    rw [pruneAndReport, hr, count_reports, hcnt, Nat.mul_one]
  · intro listener id hnot
    rw [pruneAndReport, hr]
    simp [hnot]

lemma pruned_self (h : ∀ id, ¬IsOutdated config timestamp cache id) :
    Pruned config updateListeners timestamp cache (cache, []) :=
  ⟨fun id ho => absurd ho (h id), fun _ _ => rfl, fun _ id ho => absurd ho (h id), fun _ _ _ => not_mem_nil⟩

/-- The guard passes no multiple of the interval but the first, and the boundary wraps for a lifetime beyond the
timestamp. -/
def PrunesOutdated (config : RegistryConfiguration) (height : Height) (timestamp : Timestamp)
    (cache : DbrbViewCache) : Prop :=
  if height ≤ pruningInterval config then
    processLifetime config ≤ timestamp ∨ ∀ id, ¬IsExpired (pruningBoundary config timestamp) cache id
  else ∀ id, ¬IsOutdated config timestamp cache id

lemma isExpired_iff_of_prunesOutdated (hle : height ≤ pruningInterval config)
    (h : PrunesOutdated config height timestamp cache) (id : ProcessId) :
    IsExpired (pruningBoundary config timestamp) cache id ↔ IsOutdated config timestamp cache id := by
  rw [PrunesOutdated, if_pos hle] at h
  by_cases hlifetime : processLifetime config ≤ timestamp
  · exact isExpired_pruningBoundary hlifetime
  · refine iff_of_false (h.resolve_left hlifetime id) ?_
    rintro ⟨entry, -, hlt⟩
    exact hlifetime ((Nat.le_add_left _ _).trans hlt.le)

lemma prunesOutdated_of_pruned (hle : height ≤ pruningInterval config)
    (h : Pruned config updateListeners timestamp cache
      (pruneAndReport (pruningBoundary config timestamp) updateListeners cache)) :
    PrunesOutdated config height timestamp cache := by
  rw [PrunesOutdated, if_pos hle, or_iff_not_imp_left]
  rintro hlifetime id ⟨entry, hentry, hlt⟩
  have hremoved :=
    (@getElem?_foldl_pruneAndReportProcess L (pruningBoundary config timestamp) updateListeners (cache, []) id
    cache.processIds nodup_processIds).1 (mem_processIds.mpr ⟨entry, hentry⟩) ⟨entry, hentry, hlt⟩
  have hkept := h.kept id fun ⟨_, _, hlt⟩ => hlifetime ((Nat.le_add_left _ _).trans hlt.le)
  cases hentry.symm.trans (hkept.symm.trans hremoved)

theorem pruning_removes_outdated_iff (hinterval : 0 < pruningInterval config) (hheight : 0 < height) :
    (∃ result, dbrbProcessPruningReporting config updateListeners height timestamp cache = .ok result ∧
      (IsDue config height timestamp → Pruned config updateListeners timestamp cache result) ∧
      (¬(0 < height ∧ pruningInterval config ∣ height) → result = (cache, []))) ↔
    (IsDue config height timestamp → PrunesOutdated config height timestamp cache) := by
  have htarget : ¬(blockTargetTime config = 0 ∨ pruningInterval config = 0) := by
    rintro (hzero | hzero)
    · rw [pruningInterval, hzero, Nat.div_zero] at hinterval
      exact absurd hinterval (Nat.lt_irrefl 0)
    · exact absurd hzero hinterval.ne'
  have hguard : IsPruningBlock config height timestamp ↔ IsDue config height timestamp ∧
      height ≤ pruningInterval config := by
    rw [IsPruningBlock, not_or, not_or, not_not, Nat.not_lt, Nat.not_lt, ← Nat.dvd_iff_mod_eq_zero]
    exact ⟨fun ⟨hm, hle, ht⟩ => ⟨⟨hheight, hm, ht⟩, hle⟩, fun ⟨hd, hle⟩ => ⟨hd.multiple, hle, hd.lifetime⟩⟩
  rw [dbrbProcessPruningReporting, if_neg htarget]
  by_cases hblock : IsPruningBlock config height timestamp
  · obtain ⟨hdue, hle⟩ := hguard.mp hblock
    simp only [if_pos hblock, Except.ok.injEq, exists_eq_left', hdue, hdue.positive, hdue.multiple, true_imp_iff,
      and_self, not_true_eq_false, false_imp_iff, and_true]
    exact ⟨prunesOutdated_of_pruned hle, fun h => pruned_pruneAndReport (isExpired_iff_of_prunesOutdated hle h)⟩
  · simp only [if_neg hblock, Except.ok.injEq, exists_eq_left', implies_true, and_true]
    refine forall_congr' fun hdue => ?_
    have hlate : ¬height ≤ pruningInterval config := fun hle => hblock (hguard.mpr ⟨hdue, hle⟩)
    rw [PrunesOutdated, if_neg hlate]
    refine ⟨?_, pruned_self⟩
    rintro h id ⟨entry, hentry, hlt⟩
    cases hentry.symm.trans (h.removed id ⟨entry, hentry, hlt⟩)

section

def pruningConfiguration (dbrbProcessLifetimeAfterExpiration : ℕ) : RegistryConfiguration where
  dbrbBootstrapProcesses := ∅
  dbrbRegistrationDuration := 1000
  dbrbRegistrationGracePeriod := 0
  maxTransactionLifetime := 8000
  maxBlockFutureTime := 0
  minCommitteePhaseTime := 1000
  dbrbProcessLifetimeAfterExpiration
  enableDbrbProcessBanning := false

def expiredCache : DbrbViewCache := DbrbViewCache.empty.insert { processId := 7, expirationTime := 1000 }

theorem pruning_removes_outdated_processes_sample :
    ∃ result, dbrbProcessPruningReporting (pruningConfiguration 3000) ["listener"] 2 9000 expiredCache = .ok result ∧
      Pruned (pruningConfiguration 3000) ["listener"] 9000 expiredCache result := by
  obtain ⟨result, hresult, hpruned, -⟩ :=
    (@pruning_removes_outdated_iff String _ (pruningConfiguration 3000) ["listener"] 2
    9000 expiredCache (by decide) (by decide)).mpr fun _ => .inl (by decide)
  exact ⟨result, hresult, hpruned ⟨by decide, by decide, by decide⟩⟩

/-- At the second multiple of the interval the same process stays. -/
theorem pruning_keeps_outdated_process_at_later_heights :
    IsDue (pruningConfiguration 3000) 4 17000 ∧ IsOutdated (pruningConfiguration 3000) 17000 expiredCache 7 ∧
      dbrbProcessPruningReporting (pruningConfiguration 3000) ["listener"] 4 17000 expiredCache =
        .ok (expiredCache, []) := by
  refine ⟨⟨by decide, by decide, by decide⟩, ⟨{ processId := 7, expirationTime := 1000 }, by decide +kernel, by decide⟩,
    rfl⟩

end

end

end XpxChain.Dbrb
