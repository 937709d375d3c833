import XpxChain.Caches.TransactionExecution

/-! What a transaction that is rejected leaves behind in the caches. -/

namespace XpxChain.Caches

open Std DeltaSet Library Exceptions BaseSetDelta

section

variable {start : AccountStateCacheDelta} {keys : BaseSetDelta Key Address} {key : Key} {address : Address}

structure KeysKept (start : AccountStateCacheDelta) (keys : BaseSetDelta Key Address) : Prop where
  removed : keys.removed = start.keyToAddress.removed
  entry : ∀ key, (keys.findConst key = start.keyToAddress.findConst key ∧
      keys.contains key = start.keyToAddress.contains key) ∨
    start.keyToAddress.findConst key = none ∧ keys.contains key ∧
      ∃ address, keys.findConst key = some address ∧ start.stateByAddress.findConst address = none

lemma KeysKept.insertImmutable (h : KeysKept start keys) (hkey : KeyKept start key address) :
    KeysKept start (keys.insertImmutable key address).1 := by
  by_cases hcon : keys.contains key
  · -- The key is there already.
    have hsa : (keys.insertImmutable key address).1 = keys := by
      simp only [BaseSetDelta.contains, decide_eq_true_eq] at hcon
      rw [BaseSetDelta.insertImmutable, if_neg hcon.1, if_pos hcon.2.symm]
    rw [hsa]
    exact h
  have hent := h.entry key
  have hnew : keys.findConst key = none ∧ key ∉ keys.removed ∧
      start.stateByAddress.findConst address = none ∧ start.keyToAddress.findConst key = none := by
    obtain hk | ⟨hrem, hn, hac⟩ := hkey
    · obtain ⟨-, hc⟩ | ⟨-, hc, -⟩ := hent
      · exact absurd (hc.trans hk) hcon
      · exact absurd hc hcon
    · obtain ⟨hf, -⟩ | ⟨-, hc, -⟩ := hent
      · exact ⟨hf.trans hn, h.removed ▸ hrem, hac, hn⟩
      · exact absurd hc hcon
  obtain ⟨hfi, hrem, hac, hs⟩ := hnew
  have ha : ¬ (key ∈ keys.originalElements ∨ key ∈ keys.added) := by
    intro hmem
    apply hcon
    simp only [BaseSetDelta.contains, decide_eq_true_eq]
    exact ⟨hrem, hmem.symm⟩
  have hi : (keys.insertImmutable key address).1 = { keys.markKey key with
      added := keys.added.insert key address } := by
    rw [BaseSetDelta.insertImmutable, if_neg hrem, if_neg ha]
  rw [hi]
  refine ⟨h.removed, fun j => ?_⟩
  rw [findConst_eq, DeltaElements.value] at hfi
  by_cases hj : j = key
  · subst hj
    right
    refine ⟨hs, ?_, address, ?_, hac⟩
    · simp [BaseSetDelta.contains, BaseSetDelta.markKey, hrem]
    · rw [findConst_eq, DeltaElements.value]
      simp only [BaseSetDelta.markKey, if_neg hrem, ExtTreeMap.getElem?_insert_self]
      cases hc : keys.copied[j]? <;> cases ho : keys.originalElements[j]? <;> simp_all
  · have hsa : ∀ j ≠ key, (keys.added.insert key address)[j]? = keys.added[j]? := by
      intro j hj
      rw [ExtTreeMap.getElem?_insert, if_neg (by simpa using Ne.symm hj)]
    have hf : BaseSetDelta.findConst { keys.markKey key with
        added := keys.added.insert key address } j = keys.findConst j := by
      simp only [findConst_eq, DeltaElements.value, BaseSetDelta.markKey, hsa j hj]
    have hc : BaseSetDelta.contains { keys.markKey key with
        added := keys.added.insert key address } j = keys.contains j := by
      simp [BaseSetDelta.contains, BaseSetDelta.markKey, Ne.symm hj]
    simp only [hf, hc]
    exact h.entry j

end

structure Kept {κ α : Type} [Ord κ] [TransOrd κ] (start cur : CatapultCacheDelta κ α) : Prop where
  states : SameFrame start.accounts.stateByAddress cur.accounts.stateByAddress
  keys : KeysKept start.accounts cur.accounts.keyToAddress
  histories : SameFrame start.namespaces.historyById cur.namespaces.historyById
  paths : SameContent start.namespaces.namespaceById cur.namespaces.namespaceById
  namespaces : cur.namespaces = { start.namespaces with
    historyById := cur.namespaces.historyById, namespaceById := cur.namespaces.namespaceById }
  entries : SameFrame start.entries cur.entries

section

variable {publicKeyToAddress : Key → Address} {start cur : AccountStateCacheDelta}

def AccountsKept (start cur cur' : AccountStateCacheDelta) : Prop :=
  KeysKept start cur'.keyToAddress ∧ SameFrame cur.stateByAddress cur'.stateByAddress

section

variable (h : KeysKept start cur.keyToAddress)
include h

lemma KeysKept.addAccount {accountState : AccountState}
    (hkey : accountState.publicKeyHeight ≠ 0 → KeyKept start accountState.publicKey accountState.address) :
    AccountsKept start cur (cur.addAccount accountState) := by
  unfold AccountStateCacheDelta.addAccount
  split_ifs with hcon hht
  · exact ⟨h, rfl⟩
  · exact ⟨h.insertImmutable (hkey hht), insert_frame _ _ _⟩
  · exact ⟨h, insert_frame _ _ _⟩

lemma KeysKept.addAddress (address : Address) (height : Height) :
    AccountsKept start cur (cur.addAddress address height) := by
  unfold AccountStateCacheDelta.addAddress
  split_ifs with hcon
  · exact ⟨h, rfl⟩
  · exact h.addAccount fun hne => absurd rfl hne

lemma KeysKept.getAddress {key : Key} (hkey : KeyKept start key (publicKeyToAddress key)) :
    AccountsKept start cur (cur.getAddress publicKeyToAddress key).1 := by
  unfold AccountStateCacheDelta.getAddress
  cases cur.keyToAddress.findConst key with
  | some address => exact ⟨h, rfl⟩
  | none => exact ⟨h.insertImmutable hkey, rfl⟩

lemma KeysKept.addPublicKey {key : Key} (height : Height) (hkey : KeyKept start key (publicKeyToAddress key)) :
    AccountsKept start cur (cur.addPublicKey publicKeyToAddress key height) := by
  obtain ⟨hk, hf⟩ := h.getAddress hkey
  unfold AccountStateCacheDelta.addPublicKey
  cases hget : cur.getAddress publicKeyToAddress key with
  | mk cache address =>
    rw [hget] at hk hf
    obtain ⟨hk', hf'⟩ := hk.addAddress address height
    simp only
    cases hl : (cache.addAddress address height).lookup address with
    | none => exact ⟨hk', hf.trans hf'⟩
    | some accountState =>
      simp only
      split_ifs with hht
      · exact ⟨hk', hf.trans hf'⟩
      · exact ⟨hk', (hf.trans hf').trans (find_frame _ _ _)⟩

lemma KeysKept.findByKey (key : Key) (change : AccountState → AccountState) :
    AccountsKept start cur (cur.findByKey key change) := by
  unfold AccountStateCacheDelta.findByKey
  cases cur.keyToAddress.findConst key with
  | none => exact ⟨h, rfl⟩
  | some address => exact ⟨h, find_frame _ _ _⟩

end

end

section

variable {κ α : Type} [Ord κ] [TransOrd κ] {publicKeyToAddress : Key → Address}
  {start cur cur' : CatapultCacheDelta κ α}

section

variable (h : Kept start cur)
include h

lemma Kept.accounts {accounts : AccountStateCacheDelta}
    (ha : AccountsKept start.accounts cur.accounts accounts) : Kept start { cur with accounts } :=
  { h with states := h.states.trans ha.2, keys := ha.1 }

lemma Kept.setAlias {id : NamespaceId} {newAlias : NamespaceAlias} {namespaces : NamespaceCacheDelta}
    (ha : cur.namespaces.setAlias id newAlias = .ok namespaces) : Kept start { cur with namespaces } := by
  obtain ⟨⟨found, path⟩, hfound, ha⟩ := bind_eq_ok.mp ha
  obtain ⟨⟨changed, history'⟩, hchg, ha⟩ := bind_eq_ok.mp ha
  cases ha
  obtain rfl := findNamespace_eq_ok hfound
  obtain ⟨history, -, -, rfl⟩ := changeHistory_eq_ok hchg
  refine ⟨h.states, h.keys, h.histories.trans (find_frame _ _ _), h.paths.trans (sameContent_find _ _), ?_, h.entries⟩
  rw [h.namespaces]

theorem Kept.apply {op : CacheOperation κ α} (hop : Restorable publicKeyToAddress start.accounts op)
    (ha : cur.apply publicKeyToAddress op = .ok cur') : Kept start cur' := by
  cases op with
  | account op =>
    cases ha
    cases op with
    | addAddress address height => exact h.accounts (h.keys.addAddress address height)
    | addPublicKey key height => exact h.accounts (h.keys.addPublicKey height hop)
    | addAccount accountState => exact h.accounts (h.keys.addAccount hop)
    | find address change => exact h.accounts ⟨h.keys, find_frame _ _ _⟩
    | findByKey key change => exact h.accounts (h.keys.findByKey key change)
    | removeAddress address height => exact hop.elim
    | removePublicKey key height => exact hop.elim
    | queueRemoveAddress address height => exact hop.elim
    | queueRemovePublicKey key height => exact hop.elim
    | commitRemovals => exact hop.elim
  | «namespace» op =>
    obtain ⟨namespaces, hns, ha⟩ := bind_eq_ok.mp ha
    cases ha
    cases op with
    | setAlias id newAlias => exact h.setAlias hns
    | insertRoot id owner lifetime renew => exact hop.elim
    | insertChild rootId path parentId id => exact hop.elim
    | remove id => exact hop.elim
  | insertEntry key element =>
    cases ha
    exact { h with entries := h.entries.trans (insert_frame _ _ _) }
  | removeEntry key =>
    cases ha
    exact { h with entries := h.entries.trans (remove_frame _ _) }
  | findEntry key change =>
    cases ha
    exact { h with entries := h.entries.trans (find_frame _ _ _) }

lemma Kept.foldlM {ops : List (CacheOperation κ α)} (hops : ∀ op ∈ ops, Restorable publicKeyToAddress start.accounts op)
    (hf : ops.foldlM (CatapultCacheDelta.apply publicKeyToAddress) cur = .ok cur') : Kept start cur' := by
  induction ops generalizing cur with
  | nil =>
    cases hf
    exact h
  | cons op ops ih =>
    obtain ⟨cache, ha, hf⟩ := bind_eq_ok.mp hf
    exact ih (h.apply (hops op List.mem_cons_self) ha) (fun op hop => hops op (List.mem_cons_of_mem _ hop)) hf

theorem Kept.publish {notifications : List (Notification κ α)} {success : Bool}
    (hrun : RestorableRun publicKeyToAddress start.accounts notifications cur)
    (hpub : publish publicKeyToAddress notifications cur = .ok (cur', success)) : Kept start cur' := by
  induction notifications generalizing cur with
  | nil =>
    obtain ⟨rfl, -⟩ := Prod.mk.inj (Except.ok.inj hpub)
    exact h
  | cons notification notifications ih =>
    unfold Caches.publish at hpub
    split_ifs at hpub with hval
    · obtain ⟨cache, hf, hpub⟩ := bind_eq_ok.mp hpub
      obtain ⟨hops, hr⟩ := hrun hval
      exact ih (h.foldlM hops hf) (hr cache hf) hpub
    · obtain ⟨rfl, -⟩ := Prod.mk.inj (Except.ok.inj hpub)
      exact h

end

lemma KeysKept.lookup_eq {start : AccountStateCacheDelta} {keys : BaseSetDelta Key Address} (h : KeysKept start keys)
    {states : BaseSetDelta Address AccountState} (hf : ∀ a, states.findConst a = start.stateByAddress.findConst a)
    (hcon : ∀ a, states.contains a = start.stateByAddress.contains a) (key : Key) :
    AccountStateCacheDelta.lookupByKey { start with stateByAddress := states, keyToAddress := keys } key =
      start.lookupByKey key ∧
      AccountStateCacheDelta.containsKey { start with stateByAddress := states, keyToAddress := keys } key =
        start.containsKey key := by
  obtain ⟨hsa, hsa'⟩ | ⟨hn, hnew, address, ha, hac⟩ := h.entry key
  · constructor
    · simp only [AccountStateCacheDelta.lookupByKey, hsa, hf]
    · simp only [AccountStateCacheDelta.containsKey, hsa, hsa', hcon]
  · have hs : start.keyToAddress.contains key = false := by
      rw [Bool.eq_false_iff]
      exact fun hc => findConst_ne_none hc hn
    have hst : start.stateByAddress.contains address = false := by
      rw [Bool.eq_false_iff]
      exact fun hc => findConst_ne_none hc hac
    constructor
    · simp only [AccountStateCacheDelta.lookupByKey, hn, ha, hf, hac]
    · simp only [AccountStateCacheDelta.containsKey, hs, ha, hcon, hst, Bool.and_false, Bool.false_and]

/-- A rejected transaction whose operations a backup can take back leaves no trace. -/
theorem rejected_transaction_leaves_no_trace (publicKeyToAddress : Key → Address) (replace : Bool)
    (notifications : List (Notification κ α)) (cache cache' : CatapultCacheDelta κ α)
    (hrejected : applyTransaction publicKeyToAddress replace notifications cache = .ok (cache', false))
    (hrun : RestorableRun publicKeyToAddress (cache.backupChanges replace).accounts notifications
      (cache.backupChanges replace)) : SameAnswers cache cache' := by
  obtain ⟨⟨cur, success⟩, hpublish, hrejected⟩ := bind_eq_ok.mp hrejected
  obtain ⟨hrestored, rfl⟩ := Prod.mk.inj (Except.ok.inj hrejected)
  subst hrestored
  have hstart : Kept (cache.backupChanges replace) (cache.backupChanges replace) :=
    ⟨rfl, ⟨rfl, fun key => .inl ⟨rfl, rfl⟩⟩, rfl, .refl _, rfl, rfl⟩
  have hkept := hstart.publish hrun hpublish
  obtain ⟨hstates, hstatesOriginal⟩ := SameFrame.restore hkept.states
  obtain ⟨hhistories, hhistoriesOriginal⟩ := SameFrame.restore hkept.histories
  obtain ⟨hentries, hentriesOriginal⟩ := SameFrame.restore hkept.entries
  have hkeys := hkept.keys.lookup_eq (findConst_congr hstates hstatesOriginal) (contains_congr hstates hstatesOriginal)
  have hnamespaces := hkept.namespaces
  have hfind := findConst_congr hhistories hhistoriesOriginal
  refine ⟨findConst_congr hstates hstatesOriginal, fun key => (hkeys key).1, contains_congr hstates hstatesOriginal,
    fun key => (hkeys key).2, size_congr hstates hstatesOriginal, ?_, ?_,
      size_congr hhistories hhistoriesOriginal, ?_, ?_, ?_,
    findConst_congr hentries hentriesOriginal, contains_congr hentries hentriesOriginal,
    size_congr hentries hentriesOriginal, elements_congr hentries hentriesOriginal⟩
  · intro id
    change (do
      let path ← cur.namespaces.namespaceById.findConst id
      let rootId ← path.head?
      let history ← cur.namespaces.historyById.restoreChanges.findConst rootId
      return (path, history)) = _
    simp only [hfind, hkept.paths.findConst]
    rfl
  · intro id
    exact hkept.paths.contains id
  · change cur.namespaces.activeSize = _
    rw [hnamespaces]
    rfl
  · change cur.namespaces.deepSize = _
    rw [hnamespaces]
    rfl
  · intro height
    change (cur.namespaces.rootNamespaceIdsByExpiryHeight.findConst height).getD ∅ = _
    rw [hnamespaces]
    rfl

end

section

def exampleCache : CatapultCacheDelta ℕ ℕ where
  accounts :=
    { stateByAddress := rebase ((∅ : ExtTreeMap Address AccountState).insert 5 ⟨5, 1, 0, 0, 0⟩), keyToAddress :=
    rebase ∅ }
  namespaces := ⟨rebase ∅, rebase ∅, rebase ∅, 0, 0⟩
  entries := rebase ∅

def exampleNotifications (key : Key) : List (Notification ℕ ℕ) :=
  [⟨fun _ => true, fun _ => [.account (.addPublicKey key 2), .insertEntry 1 1]⟩, ⟨fun _ => false, fun _ => []⟩]

def exampleAddress (key : Key) : Address := if key = 9 then 5 else 6

/-- After the rejection the account is found by its public key, which was not so before. -/
theorem rejected_transaction_leaves_public_key : (exampleCache.accounts.lookupByKey 9).isSome = false ∧
      (applyTransaction exampleAddress true (exampleNotifications 9) exampleCache).toOption.map
        (fun result => (result.2, (result.1.accounts.lookupByKey 9).isSome)) = some (false, true) := by
  decide +kernel

theorem rejected_transaction_leaves_no_trace_example :
    ∃ cache', applyTransaction exampleAddress true (exampleNotifications 8) exampleCache = .ok (cache', false) ∧
      SameAnswers exampleCache cache' := by
  refine ⟨_, rfl, rejected_transaction_leaves_no_trace exampleAddress true
    (exampleNotifications 8) exampleCache _ rfl ?_⟩
  intro _
  refine ⟨?_, fun cache' _ hfalse => absurd hfalse Bool.false_ne_true⟩
  intro op hop
  simp only [List.mem_cons, List.not_mem_nil, or_false] at hop
  obtain rfl | rfl := hop
  · right
    decide +kernel
  · trivial

end

end XpxChain.Caches
