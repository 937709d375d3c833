import XpxChain.Caches.NamespaceConsistency
import XpxChain.Library.BinaryFormats

/-! The storage format of the history of a root namespace. -/

namespace XpxChain.Caches

open Std Accounts Library OrderedContainers BinaryFormats RootNamespaceHistory Reads List

/-- There is no grace period after the greatest height. The sum of the end and the grace period may overflow. -/
def NamespaceLifetime.create (start endHeight gracePeriodDuration : ℕ) : Option NamespaceLifetime :=
  let gracePeriodEnd := if endHeight = 2 ^ 64 - 1 then endHeight else (endHeight + gracePeriodDuration) % 2 ^ 64
  if endHeight ≤ start then none
  else if gracePeriodEnd < endHeight then none
  else some { start, endHeight, gracePeriodEnd }

namespace NamespacePath

def maxDepth : ℕ := 3

def id (path : NamespacePath) : NamespaceId := path.getLastD 0

def parentId (path : NamespacePath) : NamespaceId := path.dropLast.getLastD 0

end NamespacePath

def RootNamespace.alias (root : RootNamespace) (rootId id : NamespaceId) : Option NamespaceAlias :=
  if rootId = id then some root.rootAlias else root.children[id]?.map (·.2)

def RootNamespace.sortedChildPaths (root : RootNamespace) : List NamespacePath :=
  ascending (root.children.toList.map fun child => child.2.1).toFinset

section

def saveNamespaceId (id : NamespaceId) : Bytes := littleEndian 8 id.val

def saveAlias : NamespaceAlias → Bytes
  | .none => littleEndian 1 0
  | .mosaic mosaicId => littleEndian 1 1 ++ littleEndian 8 mosaicId.val
  | .address address => littleEndian 1 2 ++ littleEndian 25 address.val

/-- The root is left out, and the rest is padded to the length of the deepest path. -/
def savePath (path : NamespacePath) : Bytes :=
  (path.drop 1 ++ List.replicate (NamespacePath.maxDepth - path.length) 0).flatMap saveNamespaceId

def saveChild (rootId : NamespaceId) (root : RootNamespace) (path : NamespacePath) : Option Bytes := do
  let childAlias ← root.alias rootId path.id
  return savePath path ++ saveAlias childAlias

def saveChildren (rootId : NamespaceId) (root : RootNamespace) : Option Bytes := do
  let children ← root.sortedChildPaths.mapM (saveChild rootId root)
  return littleEndian 8 root.sortedChildPaths.length ++ children.flatten

/-- The end of the grace period is not written, nor are the children that are shared with the root before. -/
def saveRootNamespace (rootId : NamespaceId) (root : RootNamespace) (lastOwner : Option Key) : Option Bytes := do
  let children ← if lastOwner = some root.owner then some (littleEndian 8 0) else saveChildren rootId root
  return littleEndian 32 root.owner.val ++
    (littleEndian 8 root.lifetime.start ++ (littleEndian 8 root.lifetime.endHeight ++
    (saveAlias root.rootAlias ++ children)))

def saveRoots (rootId : NamespaceId) : List RootNamespace → Option Bytes
  | [] => some []
  | root :: older => do
    let bytes ← saveRoots rootId older
    let rootBytes ← saveRootNamespace rootId root (older.head?.map (·.owner))
    return bytes ++ rootBytes

def RootNamespaceHistory.save (history : RootNamespaceHistory) : Option Bytes := do
  let roots ← saveRoots history.id history.roots
  return littleEndian 4 1 ++ (littleEndian 8 history.roots.length ++ (saveNamespaceId history.id ++ roots))

end

section

def loadNamespaceId : Reader NamespaceId := do
  let id ← readNumber 8
  return Fin.ofNat _ id

/-- An unknown type stands for no alias. -/
def loadAlias : Reader NamespaceAlias := do
  match ← readNumber 1 with
  | 1 => return .mosaic (Fin.ofNat _ (← readNumber 8))
  | 2 => return .address (Fin.ofNat _ (← readNumber 25))
  | _ => return .none

def loadPath (rootId : NamespaceId) : Reader NamespacePath := do
  let parts ← repeatRead (fun parts => do
    let idPart ← loadNamespaceId
    return if idPart = 0 then parts else parts ++ [idPart]) (NamespacePath.maxDepth - 1) []
  return rootId :: parts

/-- The counter of the loop has 32 bits: if there are more items, the loop ends only with the input, by an exception. -/
def loadEach {β : Type} (step : β → Reader β) (count : ℕ) (b : β) : Reader β :=
  if count < 2 ^ 32 then repeatRead step count b else failure

def loadChildren (rootId : NamespaceId) (numChildren : ℕ) : Reader (List (NamespaceChild)) :=
  loadEach (fun children => do
    let path ← loadPath rootId
    let childAlias ← loadAlias
    return children ++ [(path, childAlias)]) numChildren []

def RootNamespaceHistory.addChild (history : RootNamespaceHistory)
    (child : NamespaceChild) : Option RootNamespaceHistory := do
  let history ← (history.add child.1 child.1.id child.1.parentId).toOption
  (history.setAlias child.1.id child.2).toOption

def loadRootNamespace (history : RootNamespaceHistory) : Reader RootNamespaceHistory := do
  let owner ← readNumber 32
  let lifetimeStart ← readNumber 8
  let lifetimeEnd ← readNumber 8
  let lifetime ← liftM (NamespaceLifetime.create lifetimeStart lifetimeEnd 0)
  let history := history.pushBack (Fin.ofNat _ owner) lifetime false
  let rootAlias ← loadAlias
  let history ← liftM (history.setAlias history.id rootAlias).toOption
  let numChildren ← readNumber 8
  let children ← loadChildren history.id numChildren
  liftM (children.foldlM RootNamespaceHistory.addChild history)

def RootNamespaceHistory.load : Reader RootNamespaceHistory := do
  let _ ← readNumber 4
  let historyDepth ← readNumber 8
  let id ← loadNamespaceId
  loadEach loadRootNamespace historyDepth { id }

end

end XpxChain.Caches
