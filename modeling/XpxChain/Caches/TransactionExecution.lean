import XpxChain.Caches.NamespaceChildren

/-! The execution of transactions on the caches, which are backed up before and restored after a rejection. -/

namespace XpxChain.Caches

open Std DeltaSet Library Exceptions BaseSetDelta

structure CatapultCacheDelta (κ α : Type) [Ord κ] [TransOrd κ] where
  accounts : AccountStateCacheDelta
  namespaces : NamespaceCacheDelta
  entries : BaseSetDelta κ α

inductive CacheOperation (κ α : Type)
  | account (op : AccountOperation)
  | namespace (op : NamespaceOperation)
  | insertEntry (key : κ) (element : α)
  | removeEntry (key : κ)
  | findEntry (key : κ) (change : α → α)

section

variable {κ α : Type} [Ord κ] [TransOrd κ] (publicKeyToAddress : Key → Address)

namespace CatapultCacheDelta

variable (cache : CatapultCacheDelta κ α)

def apply : CacheOperation κ α → Except NamespaceError (CatapultCacheDelta κ α)
  | .account op => .ok { cache with accounts := cache.accounts.apply publicKeyToAddress op }
  | .namespace op => do
    let namespaces ← cache.namespaces.apply op
    return { cache with namespaces }
  | .insertEntry key element => .ok { cache with entries := (cache.entries.insert key element).1 }
  | .removeEntry key => .ok { cache with entries := (cache.entries.remove key).1 }
  | .findEntry key change => .ok { cache with entries := (cache.entries.find key change).1 }

def backupChanges (replace : Bool) : CatapultCacheDelta κ α where
  accounts := cache.accounts.backupChanges replace
  namespaces := cache.namespaces.backupChanges replace
  entries := cache.entries.backupChanges replace

def restoreChanges : CatapultCacheDelta κ α where
  accounts := cache.accounts.restoreChanges
  namespaces := cache.namespaces.restoreChanges
  entries := cache.entries.restoreChanges

end CatapultCacheDelta

/-- A notification as the processing subscriber treats it: it is validated and, if that succeeds, observed. -/
structure Notification (κ α : Type) [Ord κ] [TransOrd κ] where
  validate : CatapultCacheDelta κ α → Bool
  observe : CatapultCacheDelta κ α → List (CacheOperation κ α)

def publish : List (Notification κ α) → CatapultCacheDelta κ α → Except NamespaceError (CatapultCacheDelta κ α × Bool)
  | [], cache => .ok (cache, true)
  | notification :: notifications, cache =>
    if notification.validate cache then do
      let cache ← (notification.observe cache).foldlM (CatapultCacheDelta.apply publicKeyToAddress) cache
      publish notifications cache
    else .ok (cache, false)

/-- One transaction of `UtUpdater::apply`, which replaces the last backup, or of `HarvestingUtFacade::apply`, which adds
one. -/
def applyTransaction (replace : Bool) (notifications : List (Notification κ α)) (cache : CatapultCacheDelta κ α) :
    Except NamespaceError (CatapultCacheDelta κ α × Bool) := do
  let (cache, success) ← publish publicKeyToAddress notifications (cache.backupChanges replace)
  return (if success then cache else cache.restoreChanges, success)

structure SameAnswers (cache cache' : CatapultCacheDelta κ α) : Prop where
  lookup : ∀ address, cache'.accounts.lookup address = cache.accounts.lookup address
  lookupByKey : ∀ key, cache'.accounts.lookupByKey key = cache.accounts.lookupByKey key
  contains : ∀ address, cache'.accounts.contains address = cache.accounts.contains address
  containsKey : ∀ key, cache'.accounts.containsKey key = cache.accounts.containsKey key
  accountsSize : cache'.accounts.size = cache.accounts.size
  lookupNamespace : ∀ id, cache'.namespaces.lookup id = cache.namespaces.lookup id
  containsNamespace : ∀ id, cache'.namespaces.contains id = cache.namespaces.contains id
  namespacesSize : cache'.namespaces.size = cache.namespaces.size
  activeSize : cache'.namespaces.activeSize = cache.namespaces.activeSize
  deepSize : cache'.namespaces.deepSize = cache.namespaces.deepSize
  identifiersAt : ∀ height, cache'.namespaces.identifiersAt height = cache.namespaces.identifiersAt height
  entry : ∀ key, cache'.entries.findConst key = cache.entries.findConst key
  containsEntry : ∀ key, cache'.entries.contains key = cache.entries.contains key
  entriesSize : cache'.entries.size = cache.entries.size
  entriesView : cache'.entries.elements = cache.entries.elements

def KeyKept (start : AccountStateCacheDelta) (key : Key) (address : Address) : Prop :=
  start.keyToAddress.contains key ∨
    key ∉ start.keyToAddress.removed ∧ start.keyToAddress.findConst key = none ∧
      start.stateByAddress.findConst address = none

def Restorable (start : AccountStateCacheDelta) : CacheOperation κ α → Prop
  | .account (.addPublicKey key _) => KeyKept start key (publicKeyToAddress key)
  | .account (.addAccount accountState) =>
    accountState.publicKeyHeight ≠ 0 → KeyKept start accountState.publicKey accountState.address
  | .account (.addAddress _ _) | .account (.find _ _) | .account (.findByKey _ _) => True
  | .account _ => False
  | .namespace (.setAlias _ _) => True
  | .namespace _ => False
  | .insertEntry _ _ | .removeEntry _ | .findEntry _ _ => True

def RestorableRun (start : AccountStateCacheDelta) : List (Notification κ α) → CatapultCacheDelta κ α → Prop
  | [], _ => True
  | notification :: notifications, cache => notification.validate cache →
    (∀ op ∈ notification.observe cache, Restorable publicKeyToAddress start op) ∧
      ∀ cache', (notification.observe cache).foldlM (CatapultCacheDelta.apply publicKeyToAddress) cache = .ok cache' →
        RestorableRun start notifications cache'

end

section

variable {κ α : Type} [Ord κ] {delta delta' : BaseSetDelta κ α}

def SameFrame (delta delta' : BaseSetDelta κ α) : Prop :=
  delta' = { delta with toDeltaElements := delta'.toDeltaElements }

lemma SameFrame.trans {delta'' : BaseSetDelta κ α} (h₁ : SameFrame delta delta') (h₂ : SameFrame delta' delta'') :
    SameFrame delta delta'' := by
  unfold SameFrame at *
  rw [h₂, h₁]

lemma SameFrame.restore {replace : Bool} (h : SameFrame (delta.backupChanges replace) delta') :
    delta'.restoreChanges.toDeltaElements = delta.toDeltaElements ∧
      delta'.restoreChanges.originalElements = delta.originalElements := by
  rw [h]
  exact ⟨rfl, rfl⟩

end

section

variable {κ α : Type} [Ord κ] [TransOrd κ] {delta delta' : BaseSetDelta κ α}

section

variable (h : delta'.toDeltaElements = delta.toDeltaElements) (ho : delta'.originalElements = delta.originalElements)
  (k : κ)
include h ho k

lemma findConst_congr : delta'.findConst k = delta.findConst k := by
  rw [findConst_eq, findConst_eq, h, ho]

lemma contains_congr : delta'.contains k = delta.contains k := by
  simp only [contains, h, ho]

end

omit [TransOrd κ] in
lemma size_congr (h : delta'.toDeltaElements = delta.toDeltaElements)
    (ho : delta'.originalElements = delta.originalElements) : delta'.size = delta.size := by
  simp only [size, h, ho]

lemma elements_congr (h : delta'.toDeltaElements = delta.toDeltaElements)
    (ho : delta'.originalElements = delta.originalElements) : delta'.elements = delta.elements := by
  have hm : ∀ iter : Iterator κ α, iter.moveToValidElement delta' = iter.moveToValidElement delta := by
    intro iter
    simp only [Iterator.moveToValidElement, h]
  have hf : ∀ fuel iter, delta'.elementsFrom fuel iter = delta.elementsFrom fuel iter := by
    intro fuel
    induction fuel with
    | zero => exact fun _ => rfl
    | succ fuel ih =>
      intro iter
      simp only [elementsFrom, size_congr h ho, Iterator.current, Iterator.advance, h, hm, ih]
  simp only [elements, size_congr h ho, Iterator.begin, h, ho, hm, hf]

lemma findConst_ne_none {k : κ} (h : delta.contains k) : delta.findConst k ≠ none := by
  simp only [contains, decide_eq_true_eq] at h
  rw [findConst_eq, DeltaElements.value]
  grind

end

end XpxChain.Caches
