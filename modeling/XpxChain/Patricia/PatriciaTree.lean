import XpxChain.Library.CompressedTries

/-! The patricia tree over a data source, whose nodes are held in memory or behind their hashes, and the base tree with
its delta. -/

namespace XpxChain.Patricia

open Library CompressedTries

abbrev Nibble := Fin 16

abbrev TreeNodePath := List Nibble

def findFirstDifferenceIndex : TreeNodePath → TreeNodePath → ℕ
  | x :: lhs, y :: rhs => if x = y then findFirstDifferenceIndex lhs rhs + 1 else 0
  | _, _ => 0

def encodePairs : TreeNodePath → List ℕ
  | x :: y :: path => ((x.val <<< 4) + y.val) :: encodePairs path
  | _ => []

def encodeKey (path : TreeNodePath) (isLeaf : Bool) : List ℕ :=
  let flag := if isLeaf then 0x20 else 0
  match path with
  | x :: rest => if path.length % 2 = 1 then (flag ||| 0x10 ||| x.val) :: encodePairs rest else flag :: encodePairs path
  | [] => [flag]

variable (H : Type)

/-- The hash of the bytes of a path followed by hashes, and the zero hash. -/
structure Hasher where
  zero : H
  sha3 : List ℕ → List H → H

/-- No two different inputs have the same hash, and none has the hash zero. -/
structure Hasher.CollisionFree {H : Type} (hasher : Hasher H) : Prop where
  injective : ∀ key key' hashes hashes', hasher.sha3 key hashes = hasher.sha3 key' hashes' →
    key = key' ∧ hashes = hashes'
  ne_zero : ∀ key hashes, hasher.sha3 key hashes ≠ hasher.zero

inductive TreeNode
  | empty
  | leaf (path : TreeNodePath) (value : H)
  | branch (path : TreeNodePath) (links : Nibble → H) (linkedNodes : Nibble → TreeNode) (linkSet : Finset Nibble)

namespace TreeNode

variable {H} (hasher : Hasher H)

def isEmpty : TreeNode H → Bool
  | empty => true
  | _ => false

def path : TreeNode H → TreeNodePath
  | empty => []
  | leaf path _ => path
  | branch path _ _ _ => path

def hash : TreeNode H → H
  | empty => hasher.zero
  | leaf path value => hasher.sha3 (encodeKey path true) [value]
  | branch path links linkedNodes _ =>
    hasher.sha3 (encodeKey path false)
      (List.ofFn fun index => if (linkedNodes index).isEmpty then links index else (linkedNodes index).hash)

def link : TreeNode H → Nibble → H
  | branch _ links linkedNodes _, index =>
    if (linkedNodes index).isEmpty then links index else (linkedNodes index).hash hasher
  | _, _ => hasher.zero

def linkedNode : TreeNode H → Nibble → Option (TreeNode H)
  | branch _ _ linkedNodes _, index => if (linkedNodes index).isEmpty then none else some (linkedNodes index)
  | _, _ => none

def linkSet : TreeNode H → Finset Nibble
  | branch _ _ _ linkSet => linkSet
  | _ => ∅

def numLinks (node : TreeNode H) : ℕ := node.linkSet.card

def highestLinkIndex (node : TreeNode H) : Nibble := ((List.finRange 16).filter (· ∈ node.linkSet)).getLastD 0

def setPath (path : TreeNodePath) : TreeNode H → TreeNode H
  | empty => empty
  | leaf _ value => leaf path value
  | branch _ links linkedNodes linkSet => branch path links linkedNodes linkSet

def newBranch (path : TreeNodePath) : TreeNode H := branch path (fun _ => hasher.zero) (fun _ => empty) ∅

-- the links of leaves and empty nodes are never changed

def setLink (branchNode node : TreeNode H) (index : Nibble) : TreeNode H :=
  match branchNode with
  | branch path links linkedNodes linkSet =>
    branch path links (Function.update linkedNodes index node) (insert index linkSet)
  | other => other

def clearLink (branchNode : TreeNode H) (index : Nibble) : TreeNode H :=
  match branchNode with
  | branch path links linkedNodes linkSet =>
    branch path (Function.update links index hasher.zero) (Function.update linkedNodes index empty)
      (linkSet.erase index)
  | other => other

def compactLinks (branchNode : TreeNode H) : TreeNode H :=
  match branchNode with
  | branch path links linkedNodes linkSet =>
    branch path (fun index => if (linkedNodes index).isEmpty then links index else (linkedNodes index).hash hasher)
      (fun _ => empty) linkSet
  | other => other

end TreeNode

structure DataSource where
  nodes : List (TreeNode H) := []

namespace DataSource

variable {H} [DecidableEq H] (hasher : Hasher H) (dataSource : DataSource H)

def get (hash : H) : Option (TreeNode H) := dataSource.nodes.find? fun node => node.hash hasher = hash

def set (node : TreeNode H) : DataSource H :=
  if (dataSource.get hasher (node.hash hasher)).isSome then dataSource else ⟨dataSource.nodes ++ [node]⟩

end DataSource

variable {H : Type} (hasher : Hasher H)

section

variable (source : H → Option (TreeNode H))

def getLinkedNode (branchNode : TreeNode H) (index : Nibble) : Option (TreeNode H) :=
  branchNode.linkedNode index <|> source (branchNode.link hasher index)

def branchLeafNode (leafPath : TreeNodePath) (leafValue : H) (path : TreeNodePath) (value : H) : TreeNode H :=
  let differenceIndex := findFirstDifferenceIndex leafPath path
  match leafPath.drop differenceIndex, path.drop differenceIndex with
  | leafNibble :: leafRest, nibble :: rest =>
    let branchNode := TreeNode.newBranch hasher (leafPath.take differenceIndex)
    (branchNode.setLink (.leaf leafRest leafValue) leafNibble).setLink (.leaf rest value) nibble
  | _, _ => .leaf leafPath leafValue -- one path is the start of the other, which paths of one length never are

/-- The part of `insertNewPairIntoBranch` that splits a branch whose path is not shared: the new node is a leaf. -/
def insertNewPairIntoBranch (branchNode : TreeNode H) (differenceIndex : ℕ) (path : TreeNodePath)
    (value : H) : TreeNode H :=
  match branchNode.path.drop differenceIndex, path.drop differenceIndex with
  | branchLinkIndex :: branchRest, nibble :: rest =>
    let newBranchNode := TreeNode.newBranch hasher (branchNode.path.take differenceIndex)
    (newBranchNode.setLink (.leaf rest value) nibble).setLink (branchNode.setPath branchRest) branchLinkIndex
  | _, _ => branchNode -- the new path ends inside of the branch path, which paths of one length never do

/-- Sets the value of a path. A branch path that is empty or shared as a whole is consumed, so that the pair goes into
the linked node (`updateBranchLink`). -/
def set (node : TreeNode H) (path : TreeNodePath) (value : H) : TreeNode H :=
  match node with
  | .empty => .leaf path value
  | .leaf leafPath leafValue =>
    if leafPath = path then .leaf path value else branchLeafNode hasher leafPath leafValue path value
  | .branch branchPath links linkedNodes linkSet =>
    let branchNode := TreeNode.branch branchPath links linkedNodes linkSet
    let differenceIndex := findFirstDifferenceIndex branchPath path
    if differenceIndex = branchPath.length then
      match _hpath : path.drop differenceIndex with
      | nibble :: rest =>
        let nextNode := (getLinkedNode hasher source branchNode nibble).getD .empty
        branchNode.setLink (set nextNode rest value) nibble
      | [] => branchNode
    else insertNewPairIntoBranch hasher branchNode differenceIndex path value
termination_by path.length
decreasing_by
  have hlength := congrArg List.length _hpath
  rw [List.length_drop, List.length_cons] at hlength
  omega

def unsetBranchLink (branchNode : TreeNode H) (linkIndex : Nibble) : TreeNode H :=
  let branchNode := branchNode.clearLink hasher linkIndex
  if branchNode.numLinks ≠ 1 then branchNode
  else
    let lastLinkIndex := branchNode.highestLinkIndex
    match getLinkedNode hasher source branchNode lastLinkIndex with
    | some referencedNode => referencedNode.setPath (branchNode.path ++ lastLinkIndex :: referencedNode.path)
    | none => branchNode -- a link of a valid tree leads to a node

def unset (node : TreeNode H) (keyPath : TreeNodePath) (canMerge : Bool) : Option (TreeNode H × Bool) :=
  match node with
  | .empty => none
  | .leaf path _ => if findFirstDifferenceIndex path keyPath = keyPath.length then some (.empty, canMerge) else none
  | .branch path links linkedNodes linkSet =>
    let branchNode := TreeNode.branch path links linkedNodes linkSet
    let differenceIndex := findFirstDifferenceIndex path keyPath
    if differenceIndex = keyPath.length then some (.empty, canMerge)
    else
      match _hpath : keyPath.drop differenceIndex with
      | [] => none
      | nodeLinkIndex :: rest => do
        let nextNode ← getLinkedNode hasher source branchNode nodeLinkIndex
        let (updatedNextNode, canMerge) ← unset nextNode rest canMerge
        let updatedNode :=
          if canMerge then unsetBranchLink hasher source branchNode nodeLinkIndex
          else branchNode.setLink updatedNextNode nodeLinkIndex
        return (updatedNode, false)
termination_by keyPath.length
decreasing_by
  have hlength := congrArg List.length _hpath
  rw [List.length_drop, List.length_cons] at hlength
  omega

def lookup (node : TreeNode H) (keyPath : TreeNodePath) : Option H × List (TreeNode H) :=
  match node with
  | .empty => (none, [])
  | .leaf path value =>
    (if findFirstDifferenceIndex path keyPath = keyPath.length then some value else none, [.leaf path value])
  | .branch path links linkedNodes linkSet =>
    let branchNode := TreeNode.branch path links linkedNodes linkSet
    match _hpath : keyPath.drop (findFirstDifferenceIndex path keyPath) with
    | [] => (none, [branchNode])
    | nodeLinkIndex :: rest =>
      match getLinkedNode hasher source branchNode nodeLinkIndex with
      | none => (none, [branchNode])
      | some nextNode =>
        let (value, nodePath) := lookup nextNode rest
        (value, branchNode :: nodePath)
termination_by keyPath.length
decreasing_by
  have hlength := congrArg List.length _hpath
  rw [List.length_drop, List.length_cons] at hlength
  omega

def saveAll [DecidableEq H] : TreeNode H → DataSource H → DataSource H
  | .empty, dataSource => dataSource
  | .leaf path value, dataSource => dataSource.set hasher (.leaf path value)
  | .branch path links linkedNodes linkSet, dataSource =>
    let dataSource :=
      (List.finRange 16).foldl (fun dataSource index => saveAll (linkedNodes index) dataSource) dataSource
    dataSource.set hasher ((TreeNode.branch path links linkedNodes linkSet).compactLinks hasher)

end

/-- `ReadThroughMemoryDataSource::get`. -/
def readThrough [DecidableEq H] (memory backing : DataSource H) (hash : H) : Option (TreeNode H) :=
  memory.get hasher hash <|> backing.get hasher hash

/-- A base tree with its data source and the delta that is attached to it, which reads through its own saved nodes. -/
structure BasePatriciaTree (H : Type) where
  dataSource : DataSource H
  rootNode : TreeNode H := .empty
  memory : DataSource H := {}
  deltaRootNode : TreeNode H := .empty

namespace BasePatriciaTree

variable [DecidableEq H] (tree : BasePatriciaTree H)

def root : H := tree.rootNode.hash hasher

def deltaRoot : H := tree.deltaRootNode.hash hasher

def source : H → Option (TreeNode H) := readThrough hasher tree.memory tree.dataSource

def set (path : TreeNodePath) (value : H) : BasePatriciaTree H :=
  { tree with deltaRootNode := Patricia.set hasher (tree.source hasher) tree.deltaRootNode path value }

def unset (path : TreeNodePath) : BasePatriciaTree H × Bool :=
  match Patricia.unset hasher (tree.source hasher) tree.deltaRootNode path true with
  | some (updatedNode, _) => ({ tree with deltaRootNode := updatedNode }, true)
  | none => (tree, false)

def setCheckpoint : BasePatriciaTree H := { tree with memory := saveAll hasher tree.deltaRootNode tree.memory }

def copyPendingChanges : BasePatriciaTree H :=
  { tree with
    dataSource := tree.memory.nodes.foldl (fun dataSource node => dataSource.set hasher node) tree.dataSource }

def copyRoot : BasePatriciaTree H :=
  if tree.deltaRoot hasher = hasher.zero then { tree with rootNode := .empty }
  else { tree with rootNode := (tree.source hasher (tree.deltaRoot hasher)).getD .empty }

/-- The tree of the delta is replaced by what the data source has for the root hash; nothing is returned if it has
nothing. -/
def reset (rootHash : H) : Option (BasePatriciaTree H) :=
  if rootHash = hasher.zero then some { tree with deltaRootNode := .empty }
  else do
    let node ← tree.source hasher rootHash
    return { tree with deltaRootNode := node }

def commit : Option (BasePatriciaTree H) :=
  let tree := ((tree.setCheckpoint hasher).copyPendingChanges hasher).copyRoot hasher
  tree.reset hasher (tree.deltaRoot hasher)

def rebase : BasePatriciaTree H :=
  { tree with memory := {}, deltaRootNode := (tree.dataSource.get hasher (tree.root hasher)).getD .empty }

def reload : BasePatriciaTree H :=
  rebase hasher { tree with rootNode := (tree.dataSource.get hasher (tree.root hasher)).getD .empty }

end BasePatriciaTree

end XpxChain.Patricia
