import XpxChain.Caches.NamespaceStorage

/-! The calls of the namespace cache change each of its histories by the calls of a history. -/

namespace XpxChain.Caches

open Std DeltaSet Accounts Library OrderedContainers Exceptions RootNamespaceHistory NamespaceCacheDelta

variable {cache cache' : NamespaceCacheDelta} {history history' : RootNamespaceHistory} {id rootId : NamespaceId}

/-- The child is described by its path, and nothing is removed: `remove` only undoes registrations. -/
def NamespaceCall.Forward : NamespaceCall → Prop
  | .change (.insertChild rootId path parentId id) => path.head? = some rootId ∧ id = path.id ∧ parentId = path.parentId
  | .change (.remove _) => False
  | .change (.insertRoot _ _ _ _) | .change (.setAlias _ _) | .prune _ => True

def ReachedByCalls (id : NamespaceId) (history : RootNamespaceHistory) : Prop :=
  ∃ calls : List HistoryCall, calls.foldlM RootNamespaceHistory.call { id } = .ok history

lemma ReachedByCalls.call (h : ReachedByCalls id history) (call : HistoryCall)
    (hok : history.call call = .ok history') : ReachedByCalls id history' := by
  obtain ⟨calls, hcalls⟩ := h
  refine ⟨calls ++ [call], ?_⟩
  rw [List.foldlM_append]
  refine bind_eq_ok.mpr ⟨history, hcalls, ?_⟩
  rw [List.foldlM_cons]
  exact bind_eq_ok.mpr ⟨history', hok, rfl⟩

lemma RootNamespaceHistory.call_id {call : HistoryCall}
    (hok : history.call call = .ok history') : history'.id = history.id := by
  cases call with
  | pushBack owner lifetime setAliasOnRenew =>
    cases hok
    unfold RootNamespaceHistory.pushBack
    split
    · split_ifs <;> rfl
    · rfl
  | add path =>
    cases hr : history.roots with
    | nil => simp [RootNamespaceHistory.call, RootNamespaceHistory.add, hr] at hok
    | cons back rest =>
      obtain ⟨-, rfl⟩ := add_eq_ok hr hok
      exact modifyChildren_id _ _
  | setAlias id newAlias =>
    change history.setAlias id newAlias = .ok history' at hok
    unfold RootNamespaceHistory.setAlias at hok
    split at hok
    · cases hok
    · split_ifs at hok
      · cases hok
        rfl
      · split at hok
        · cases hok
        · cases hok
          exact modifyChildren_id _ _
  | prune height =>
    cases hok
    rfl

lemma ReachedByCalls.id_eq (h : ReachedByCalls id history) : history.id = id := by
  obtain ⟨calls, hcalls⟩ := h
  induction calls using List.reverseRecOn generalizing history with
  | nil =>
    cases hcalls
    rfl
  | append_singleton calls call ih =>
    rw [List.foldlM_append] at hcalls
    obtain ⟨before, hbefore, hcall⟩ := bind_eq_ok.mp hcalls
    rw [List.foldlM_cons] at hcall
    obtain ⟨after, hafter, hcall⟩ := bind_eq_ok.mp hcall
    cases hcall
    exact (call_id hafter).trans (ih hbefore)

lemma reachedByCalls_changeHistory (h : Holds ReachedByCalls cache.historyById) (call : HistoryCall)
    {change : RootNamespaceHistory → Except NamespaceError RootNamespaceHistory}
    (hchange : ∀ history, change history = history.call call)
    {changed : NamespaceCacheDelta} (hok : cache.changeHistory rootId change = .ok (changed, history')) :
    Holds ReachedByCalls changed.historyById := by
  obtain ⟨history, hhistory, hnew, rfl⟩ := changeHistory_eq_ok hok
  rw [hchange] at hnew
  exact h.modify rootId _ fun _ _ => (h.of_findConst hhistory).call call hnew

lemma reachedByCalls_insertRoot (h : Holds ReachedByCalls cache.historyById) {owner : Key}
    {lifetime : NamespaceLifetime} {setAliasOnRenew : Bool}
    (hok : cache.insertRoot id owner lifetime setAliasOnRenew = .ok cache') :
    Holds ReachedByCalls cache'.historyById := by
  have hpush : ∀ history, ReachedByCalls id history →
      ReachedByCalls id (history.pushBack owner lifetime setAliasOnRenew) :=
    fun history hh => hh.call (.pushBack owner lifetime setAliasOnRenew) rfl
  unfold NamespaceCacheDelta.insertRoot at hok
  cases hf : cache.historyById.findConst id with
  | none =>
    simp only [hf] at hok
    cases hok
    exact (h.insert id _ (hpush _ ⟨[], rfl⟩)).1
  | some history =>
    simp only [hf] at hok
    split at hok
    · cases hok
    · cases hok
      have hmodified :=
        h.modify id (fun history => history.pushBack owner lifetime setAliasOnRenew) fun history hfound =>
        hpush history (h.of_findConst hfound)
      split_ifs <;> exact hmodified

lemma reachedByCalls_pruneHistory (h : Holds ReachedByCalls cache.historyById) (height : Height)
    (hf : cache.historyById.findConst id = some history) :
    Holds ReachedByCalls (cache.pruneHistory height history).historyById := by
  have hhistory := h.of_findConst hf
  have hid := hhistory.id_eq
  have hmodified := h.modify history.id (fun _ => (history.prune height).1) fun _ _ =>
    hid ▸ hhistory.call (.prune height) rfl
  simp only [pruneHistory]
  split_ifs
  · exact (hmodified.remove history.id).1
  · exact hmodified

lemma reachedByCalls_prune (h : Holds ReachedByCalls cache.historyById) (height : Height) :
    Holds ReachedByCalls (cache.prune height).1.historyById := by
  suffices hs : ∀ (ids : List NamespaceId) (collected : NamespaceCacheDelta × Finset NamespaceId),
      Holds ReachedByCalls collected.1.historyById →
        Holds ReachedByCalls (ids.foldl (pruneIdentifier height) collected).1.historyById from
    hs _ (cache, ∅) h
  intro ids
  induction ids with
  | nil => exact fun _ h => h
  | cons id ids ih =>
    intro collected h
    apply ih
    unfold pruneIdentifier
    cases hf : collected.1.historyById.findConst id with
    | none => exact h
    | some history => exact reachedByCalls_pruneHistory h height hf

lemma reachedByCalls_call (h : Holds ReachedByCalls cache.historyById) {call : NamespaceCall} (hforward : call.Forward)
    (hok : cache.call call = .ok cache') : Holds ReachedByCalls cache'.historyById := by
  obtain (operation | height) := call
  · cases operation with
    | insertRoot id owner lifetime setAliasOnRenew => exact reachedByCalls_insertRoot h hok
    | insertChild rootId path parentId id =>
      obtain ⟨-, rfl, rfl⟩ := hforward
      obtain ⟨⟨changed, history'⟩, hchange, hok⟩ := bind_eq_ok.mp hok
      have hchanged := reachedByCalls_changeHistory h (.add path) (fun _ => rfl) hchange
      cases hok
      exact hchanged
    | setAlias id newAlias =>
      obtain ⟨⟨found, path⟩, hfound, hok⟩ := bind_eq_ok.mp hok
      obtain ⟨⟨changed, history'⟩, hchange, hok⟩ := bind_eq_ok.mp hok
      cases hok
      have hfind : Holds ReachedByCalls found.historyById := by
        rw [findNamespace_eq_ok hfound]
        exact h
      exact reachedByCalls_changeHistory hfind (.setAlias id newAlias) (fun _ => rfl) hchange
    | remove id => exact hforward.elim
  · cases hok
    exact reachedByCalls_prune h height

theorem reachedByCalls_run {calls : List NamespaceCall} (h : Holds ReachedByCalls cache.historyById)
    (hforward : ∀ call ∈ calls, call.Forward) (hok : calls.foldlM NamespaceCacheDelta.call cache = .ok cache') :
    Holds ReachedByCalls cache'.historyById := by
  induction calls generalizing cache with
  | nil =>
    cases hok
    exact h
  | cons call calls ih =>
    obtain ⟨next, hnext, hok⟩ := bind_eq_ok.mp hok
    obtain ⟨hcall, hcalls⟩ := List.forall_mem_cons.mp hforward
    exact ih (reachedByCalls_call h hcall hnext) hcalls hok

/-- Every history of the cache comes from calls of the history, from an empty one on. -/
theorem reachedByCalls_of_cache {calls : List NamespaceCall} (hforward : ∀ call ∈ calls, call.Forward)
    (hok : calls.foldlM NamespaceCacheDelta.call .empty = .ok cache)
    (hf : cache.historyById.findConst id = some history) : ReachedByCalls id history :=
  (reachedByCalls_run Holds.rebase_empty hforward hok).of_findConst hf

end XpxChain.Caches
