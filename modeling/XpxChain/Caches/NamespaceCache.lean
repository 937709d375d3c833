import XpxChain.Caches.AccountStateCache
import XpxChain.DeltaSet.Holds

/-! The delta of the namespace cache. -/

namespace XpxChain.Caches

open Std DeltaSet Accounts Library OrderedContainers Exceptions

abbrev NamespaceId := Fin (2 ^ 64)

/-- The end includes no grace period, `gracePeriodEnd` does. -/
structure NamespaceLifetime where
  start : Height
  endHeight : Height
  gracePeriodEnd : Height
deriving DecidableEq, Repr

inductive NamespaceAlias
  | none
  | mosaic (mosaicId : MosaicId)
  | address (address : Address)
deriving DecidableEq, Repr

abbrev NamespacePath := List NamespaceId

abbrev NamespaceChild := NamespacePath × NamespaceAlias

abbrev NamespaceChildren := ExtTreeMap NamespaceId NamespaceChild

structure RootNamespace where
  owner : Key
  lifetime : NamespaceLifetime
  rootAlias : NamespaceAlias := .none
  children : NamespaceChildren := ∅

structure RootNamespaceHistory where
  id : NamespaceId
  roots : List RootNamespace := []

inductive NamespaceError
  | unknownRoot (id : NamespaceId)
  | unknownNamespace (id : NamespaceId)
  | emptyHistory (id : NamespaceId)
  | childAlreadyExists (id : NamespaceId)
  | childHasNoParent (id parentId : NamespaceId)
  | childHasIncorrectPath (id : NamespaceId)
  | cannotRemoveNonEmptyRoot (id : NamespaceId)
  | cannotRemoveChild (id : NamespaceId)
  | notUnderRoot (id rootId : NamespaceId)
deriving DecidableEq, Repr

namespace RootNamespaceHistory

variable (history : RootNamespaceHistory)

def modifyChildren (change : NamespaceChildren → NamespaceChildren) : RootNamespaceHistory :=
  match history.roots with
  | [] => history
  | back :: _ => { history with
    roots :=
      (history.roots.takeWhile (·.owner = back.owner)).map
      (fun root => { root with children := change root.children }) ++
      history.roots.dropWhile (·.owner = back.owner) }

def activeOwnerHistoryDepth : ℕ :=
  match history.roots with
  | [] => 0
  | back :: _ => (history.roots.takeWhile (·.owner = back.owner)).length

def pushBack (owner : Key) (lifetime : NamespaceLifetime) (setAliasOnRenew : Bool) : RootNamespaceHistory :=
  match history.roots with
  | back :: _ =>
    if back.owner = owner then
      { history with roots :=
        { back with lifetime, rootAlias := if setAliasOnRenew then back.rootAlias else .none } :: history.roots }
    else { history with roots := { owner, lifetime } :: history.roots }
  | [] => { history with roots := [{ owner, lifetime }] }

def add (path : NamespacePath) (id parentId : NamespaceId) : Except NamespaceError RootNamespaceHistory :=
  match history.roots with
  | [] => .error (.emptyHistory history.id)
  | back :: _ => do
    if id ∈ back.children then throw (.childAlreadyExists id)
    if history.id ≠ parentId then
      match back.children[parentId]? with
      | none => throw (.childHasNoParent id parentId)
      | some (parentPath, _) => if parentPath.length ≠ path.length - 1 then throw (.childHasIncorrectPath id)
    return history.modifyChildren (·.insert id (path, .none))

/-- A child that is on the path of another one stays. -/
def remove (id : NamespaceId) : Except NamespaceError RootNamespaceHistory :=
  match history.roots with
  | [] => .error (.emptyHistory history.id)
  | back :: _ =>
    match back.children[id]? with
    | none => .error (.cannotRemoveChild id)
    | some (path, _) =>
      if back.children.toList.any fun child =>
        path.length < child.2.1.length && child.2.1[path.length - 1]? = some id then
        .error (.cannotRemoveChild id)
      else .ok (history.modifyChildren (·.erase id))

def setAlias (id : NamespaceId) (newAlias : NamespaceAlias) : Except NamespaceError RootNamespaceHistory :=
  match history.roots with
  | [] => .error (.emptyHistory history.id)
  | back :: rest =>
    if history.id = id then .ok { history with roots := { back with rootAlias := newAlias } :: rest }
    else match back.children[id]? with
      | none => .error (.notUnderRoot id history.id)
      | some (path, _) => .ok (history.modifyChildren (·.insert id (path, newAlias)))

end RootNamespaceHistory

/-- The histories by root, the paths of all namespaces, the roots by the height of their expiry and two counters. -/
structure NamespaceCacheDelta where
  historyById : BaseSetDelta NamespaceId RootNamespaceHistory
  namespaceById : BaseSetDelta NamespaceId NamespacePath
  rootNamespaceIdsByExpiryHeight : BaseSetDelta Height (Finset NamespaceId)
  activeSize : ℕ
  deepSize : ℕ

inductive NamespaceOperation
  | insertRoot (id : NamespaceId) (owner : Key) (lifetime : NamespaceLifetime) (setAliasOnRenew : Bool)
  | insertChild (rootId : NamespaceId) (path : NamespacePath) (parentId id : NamespaceId)
  | setAlias (id : NamespaceId) (newAlias : NamespaceAlias)
  | remove (id : NamespaceId)

def addIdentifierWithGroup (groups : BaseSetDelta Height (Finset NamespaceId)) (key : Height) (id : NamespaceId) :
    BaseSetDelta Height (Finset NamespaceId) :=
  let groups := if groups.contains key then groups else (groups.insert key ∅).1
  (groups.find key (insert id)).1

def removeIdentifierWithGroup (groups : BaseSetDelta Height (Finset NamespaceId)) (key : Height) (id : NamespaceId) :
    BaseSetDelta Height (Finset NamespaceId) :=
  let groups := (groups.find key (·.erase id)).1
  if groups.findConst key = some ∅ then (groups.remove key).1 else groups

namespace NamespaceCacheDelta

variable (cache : NamespaceCacheDelta)

def lookup (id : NamespaceId) : Option (NamespacePath × RootNamespaceHistory) := do
  let path ← cache.namespaceById.findConst id
  let rootId ← path.head?
  let history ← cache.historyById.findConst rootId
  return (path, history)

def contains (id : NamespaceId) : Bool := cache.namespaceById.contains id

def size : ℕ := cache.historyById.size

def identifiersAt (height : Height) : Finset NamespaceId :=
  (cache.rootNamespaceIdsByExpiryHeight.findConst height).getD ∅

def removeAll (children : NamespaceChildren) : BaseSetDelta NamespaceId NamespacePath :=
  children.toList.foldl (fun namespaces child => (namespaces.remove child.1).1) cache.namespaceById

def addAll (children : NamespaceChildren) : BaseSetDelta NamespaceId NamespacePath :=
  children.toList.foldl (fun namespaces child => (namespaces.insert child.1 child.2.1).1) cache.namespaceById

def insertRoot (id : NamespaceId) (owner : Key) (lifetime : NamespaceLifetime) (setAliasOnRenew : Bool) :
    Except NamespaceError NamespaceCacheDelta :=
  let groups := addIdentifierWithGroup cache.rootNamespaceIdsByExpiryHeight lifetime.gracePeriodEnd id
  let cache := { cache with rootNamespaceIdsByExpiryHeight := groups }
  match cache.historyById.findConst id with
  | some history =>
    match history.roots with
    | [] => .error (.emptyHistory id)
    | back :: _ =>
      let cache :=
        if back.owner ≠ owner then
          { cache with
            namespaceById := cache.removeAll back.children
            activeSize := sizeSub cache.activeSize back.children.size }
        else { cache with deepSize := addAmount cache.deepSize back.children.size }
      .ok { cache with
        historyById := (cache.historyById.find id fun history => history.pushBack owner lifetime setAliasOnRenew).1
        deepSize := addAmount cache.deepSize 1 }
  | none =>
    let history := RootNamespaceHistory.pushBack { id } owner lifetime setAliasOnRenew
    .ok { cache with
      historyById := (cache.historyById.insert id history).1
      namespaceById := (cache.namespaceById.insert id [id]).1
      activeSize := addAmount cache.activeSize 1
      deepSize := addAmount cache.deepSize 1 }

def changeHistory (rootId : NamespaceId) (change : RootNamespaceHistory → Except NamespaceError RootNamespaceHistory) :
    Except NamespaceError (NamespaceCacheDelta × RootNamespaceHistory) :=
  match cache.historyById.findConst rootId with
  | none => .error (.unknownRoot rootId)
  | some history => do
    let history ← change history
    return ({ cache with historyById := (cache.historyById.find rootId fun _ => history).1 }, history)

def insertChild (rootId : NamespaceId) (path : NamespacePath) (parentId id : NamespaceId) :
    Except NamespaceError NamespaceCacheDelta := do
  let (cache, history) ← cache.changeHistory rootId fun history => history.add path id parentId
  return { cache with
    namespaceById := (cache.namespaceById.insert id path).1
    activeSize := addAmount cache.activeSize 1
    deepSize := addAmount cache.deepSize history.activeOwnerHistoryDepth }

/-- The lookup is the one of a mutable element, which is copied. -/
def findNamespace (id : NamespaceId) : Except NamespaceError (NamespaceCacheDelta × NamespacePath) :=
  match cache.namespaceById.find id fun path => path with
  | (_, none) => .error (.unknownNamespace id)
  | (namespaceById, some path) => .ok ({ cache with namespaceById }, path)

def setAlias (id : NamespaceId) (newAlias : NamespaceAlias) : Except NamespaceError NamespaceCacheDelta := do
  let (cache, path) ← cache.findNamespace id
  let (cache, _) ← cache.changeHistory (path.headD id) fun history => history.setAlias id newAlias
  return cache

def removeRoot (id : NamespaceId) : Except NamespaceError NamespaceCacheDelta :=
  match cache.historyById.findConst id with
  | none => .error (.unknownRoot id)
  | some history =>
    match history.roots with
    | [] => .error (.emptyHistory id)
    | [root] =>
      if root.children.size ≠ 0 then .error (.cannotRemoveNonEmptyRoot id)
      else .ok { cache with
        rootNamespaceIdsByExpiryHeight :=
          removeIdentifierWithGroup cache.rootNamespaceIdsByExpiryHeight root.lifetime.gracePeriodEnd id
        historyById := ((cache.historyById.find id fun history => { history with roots := [] }).1.remove id).1
        namespaceById := (cache.namespaceById.remove id).1
        activeSize := sizeSub cache.activeSize 1
        deepSize := sizeSub cache.deepSize 1 }
    | removedRoot :: currentRoot :: roots =>
      let groups :=
        removeIdentifierWithGroup cache.rootNamespaceIdsByExpiryHeight removedRoot.lifetime.gracePeriodEnd id
      let cache := { cache with
        rootNamespaceIdsByExpiryHeight := groups
        historyById := (cache.historyById.find id fun history => { history with roots := currentRoot :: roots }).1 }
      let cache :=
        if removedRoot.owner ≠ currentRoot.owner then
          let cache := { cache with
            namespaceById := cache.removeAll removedRoot.children
            activeSize := sizeSub cache.activeSize removedRoot.children.size }
          { cache with
            namespaceById := cache.addAll currentRoot.children
            activeSize := addAmount cache.activeSize currentRoot.children.size }
        else cache
      .ok { cache with deepSize := sizeSub cache.deepSize (1 + removedRoot.children.size) }

def removeChild (rootId id : NamespaceId) : Except NamespaceError NamespaceCacheDelta := do
  let (cache, history) ← cache.changeHistory rootId fun history => history.remove id
  return { cache with
    namespaceById := (cache.namespaceById.remove id).1
    activeSize := sizeSub cache.activeSize 1
    deepSize := sizeSub cache.deepSize history.activeOwnerHistoryDepth }

def remove (id : NamespaceId) : Except NamespaceError NamespaceCacheDelta := do
  let (cache, path) ← cache.findNamespace id
  if path.headD id = id then cache.removeRoot id else cache.removeChild (path.headD id) id

def apply : NamespaceOperation → Except NamespaceError NamespaceCacheDelta
  | .insertRoot id owner lifetime setAliasOnRenew => cache.insertRoot id owner lifetime setAliasOnRenew
  | .insertChild rootId path parentId id => cache.insertChild rootId path parentId id
  | .setAlias id newAlias => cache.setAlias id newAlias
  | .remove id => cache.remove id

def backupChanges (replace : Bool) : NamespaceCacheDelta :=
  { cache with historyById := cache.historyById.backupChanges replace }

def restoreChanges : NamespaceCacheDelta := { cache with historyById := cache.historyById.restoreChanges }

end NamespaceCacheDelta

structure NamespaceSizes where
  active : ℕ
  deep : ℕ
deriving DecidableEq, Repr

namespace RootNamespaceHistory

variable (history : RootNamespaceHistory)

def numActiveRootChildren : ℕ := history.roots.head?.elim 0 (·.children.size)

def numAllHistoricalChildren : ℕ := (history.roots.map (·.children.size)).sum % 2 ^ 64

def getNamespaceSizes : NamespaceSizes where
  active := addAmount (if history.roots = [] then 0 else 1) history.numActiveRootChildren
  deep := addAmount history.roots.length history.numAllHistoricalChildren

def pruneRoot (height : Height) (root : RootNamespace) (seen : List RootNamespace × Finset NamespaceId) :
    List RootNamespace × Finset NamespaceId :=
  if root.lifetime.gracePeriodEnd ≤ height then (seen.1, seen.2 ∪ keySet root.children)
  else (root :: seen.1, seen.2 \ keySet root.children)

/-- The loop goes from the oldest root to the newest.
The children of a root are shared only with successive roots of its owner: a root of another owner between two of them
is registered after the grace period of the first, and so is not erased before it. -/
def prune (height : Height) : RootNamespaceHistory × Finset NamespaceId :=
  let pruned := history.roots.foldr (pruneRoot height) ([], ∅)
  ({ history with roots := pruned.1 }, if pruned.1 = [] then insert history.id pruned.2 else pruned.2)

end RootNamespaceHistory

namespace NamespaceCacheDelta

variable (cache : NamespaceCacheDelta)

def pruneHistory (height : Height) (history : RootNamespaceHistory) : NamespaceCacheDelta :=
  let pruned := history.prune height
  let originalSizes := history.getNamespaceSizes
  let newSizes := pruned.1.getNamespaceSizes
  let historyById := (cache.historyById.find history.id fun _ => pruned.1).1
  { cache with
    namespaceById :=
      (ascending pruned.2).foldl (fun namespaces id => (namespaces.remove id).1) cache.namespaceById
    historyById := if pruned.1.roots = [] then (historyById.remove history.id).1 else historyById
    activeSize := sizeSub cache.activeSize (sizeSub originalSizes.active newSizes.active)
    deepSize := sizeSub cache.deepSize (sizeSub originalSizes.deep newSizes.deep) }

def pruneIdentifier (height : Height) (collected : NamespaceCacheDelta × Finset NamespaceId) (id : NamespaceId) :
    NamespaceCacheDelta × Finset NamespaceId :=
  match collected.1.historyById.findConst id with
  | none => collected
  | some history => (collected.1.pruneHistory height history, collected.2 ∪ (history.prune height).2)

def prune (height : Height) : NamespaceCacheDelta × Finset NamespaceId :=
  (ascending (cache.identifiersAt height)).foldl (pruneIdentifier height) (cache, ∅)

end NamespaceCacheDelta

inductive NamespaceCall
  | change (operation : NamespaceOperation)
  | prune (height : Height)

def NamespaceCacheDelta.call (cache : NamespaceCacheDelta) : NamespaceCall → Except NamespaceError NamespaceCacheDelta
  | .change operation => cache.apply operation
  | .prune height => .ok (cache.prune height).1

def NamespaceCacheDelta.empty : NamespaceCacheDelta := ⟨rebase ∅, rebase ∅, rebase ∅, 0, 0⟩

/-- The root of the tree that an identifier belongs to is fixed in advance, as identifiers are hashes of their paths.
A root is not registered until an earlier height than the one before it, nor more than 2³² times. -/
def NamespaceCall.Orderly (rootOf : NamespaceId → NamespaceId) (cache : NamespaceCacheDelta) : NamespaceCall → Prop
  | .change (.insertRoot id _ lifetime _) => rootOf id = id ∧
    ∀ history ∈ cache.historyById.findConst id, history.roots.length + 1 < 2 ^ 32 ∧
      ∀ back ∈ history.roots.head?, back.lifetime.gracePeriodEnd ≤ lifetime.gracePeriodEnd
  | .change (.insertChild rootId path _ id) => path.head? = some rootId ∧ rootOf id = rootId ∧ id ≠ rootId
  | .change (.setAlias _ _) | .change (.remove _) | .prune _ => True

def OrderlyCalls (rootOf : NamespaceId → NamespaceId) : NamespaceCacheDelta → List NamespaceCall → Prop
  | _, [] => True
  | cache, call :: calls => call.Orderly rootOf cache ∧
    ∀ cache', cache.call call = .ok cache' → OrderlyCalls rootOf cache' calls

instance (rootOf : NamespaceId → NamespaceId) (cache : NamespaceCacheDelta) (call : NamespaceCall) :
    Decidable (call.Orderly rootOf cache) := by
  unfold NamespaceCall.Orderly
  split <;> infer_instance

instance decidableOrderlyCalls (rootOf : NamespaceId → NamespaceId) :
    (cache : NamespaceCacheDelta) → (calls : List NamespaceCall) → Decidable (OrderlyCalls rootOf cache calls)
  | _, [] => isTrue trivial
  | cache, call :: calls =>
    have := fun cache' => decidableOrderlyCalls rootOf cache' calls
    inferInstanceAs (Decidable (call.Orderly rootOf cache ∧
      ∀ cache', cache.call call = .ok cache' → OrderlyCalls rootOf cache' calls))

end XpxChain.Caches
