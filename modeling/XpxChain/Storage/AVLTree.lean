import XpxChain.Types
import XpxChain.Library.StatePrograms

/-! The AVL tree adapter: a search tree whose nodes are stored in the entries of a cache. -/

namespace XpxChain.Storage

open Library.StatePrograms

structure AVLTreeNode where
  left : Key := 0
  right : Key := 0
  height : ℕ := 1
  size : ℕ := 1
deriving DecidableEq, Repr

inductive Rotation
  | none
  | ll
  | lr
  | rr
  | rl
deriving DecidableEq, Repr

abbrev Nodes := Key → Option AVLTreeNode

/-- Subtraction of `uint32_t` values, which wraps below zero. -/
def uint32Sub (a b : ℕ) : ℕ := if b ≤ a then a - b else a + 2 ^ 32 - b

namespace AVLTreeAdapter

def nodeExtractor (key : Key) : Program Nodes AVLTreeNode :=
  fun nodes => (nodes key).map fun node => (node, nodes)

def nodeSaver (key : Key) (node : AVLTreeNode) : Program Nodes Unit :=
  fun nodes => if (nodes key).isSome then some ((), Function.update nodes key (some node)) else none

def getHeight (nodePointer : Key) : Program Nodes ℕ :=
  if nodePointer = 0 then pure 0 else do
    return (← nodeExtractor nodePointer).height

def getSize (nodePointer : Key) : Program Nodes ℕ :=
  if nodePointer = 0 then pure 0 else do
    return (← nodeExtractor nodePointer).size

def getStatistics (nodePointer : Key) : Program Nodes (ℕ × ℕ) :=
  if nodePointer = 0 then pure (0, 0) else do
    let node ← nodeExtractor nodePointer
    return (node.height, node.size)

def updateStatistics (nodePointer : Key) : Program Nodes Unit :=
  if nodePointer = 0 then pure () else do
    let node ← nodeExtractor nodePointer
    let (leftHeight, leftSize) ← getStatistics node.left
    let (rightHeight, rightSize) ← getStatistics node.right
    nodeSaver nodePointer { node with
      height := (max leftHeight rightHeight + 1) % 2 ^ 16
      size := (leftSize + rightSize + 1) % 2 ^ 32 }

def getRotationType (nodePointer : Key) : Program Nodes Rotation :=
  if nodePointer = 0 then pure .none else do
    let node ← nodeExtractor nodePointer
    let leftHeight ← getHeight node.left
    let rightHeight ← getHeight node.right
    if ((leftHeight : ℤ) - rightHeight).natAbs ≤ 1 then
      pure .none
    else if leftHeight > rightHeight then do
      let left ← nodeExtractor node.left
      let outer ← getHeight left.left
      let inner ← getHeight left.right
      pure (if outer ≥ inner then .ll else .lr)
    else do
      let right ← nodeExtractor node.right
      let outer ← getHeight right.right
      let inner ← getHeight right.left
      pure (if outer ≥ inner then .rr else .rl)

def llRotation (nodePointer : Key) : Program Nodes Key := do
  let node ← nodeExtractor nodePointer
  let parentPointer := node.left
  let parent ← nodeExtractor parentPointer
  nodeSaver nodePointer { node with left := parent.right }
  updateStatistics nodePointer
  nodeSaver parentPointer { parent with right := nodePointer }
  updateStatistics parentPointer
  return parentPointer

def lrRotation (nodePointer : Key) : Program Nodes Key := do
  let node ← nodeExtractor nodePointer
  let left ← nodeExtractor node.left
  let parentPointer := left.right
  let parent ← nodeExtractor parentPointer
  nodeSaver node.left { left with right := parent.left }
  updateStatistics node.left
  nodeSaver nodePointer { node with left := parent.right }
  updateStatistics nodePointer
  nodeSaver parentPointer { parent with left := node.left, right := nodePointer }
  updateStatistics parentPointer
  return parentPointer

def rlRotation (nodePointer : Key) : Program Nodes Key := do
  let node ← nodeExtractor nodePointer
  let right ← nodeExtractor node.right
  let parentPointer := right.left
  let parent ← nodeExtractor parentPointer
  nodeSaver node.right { right with left := parent.right }
  updateStatistics node.right
  nodeSaver nodePointer { node with right := parent.left }
  updateStatistics nodePointer
  nodeSaver parentPointer { parent with right := node.right, left := nodePointer }
  updateStatistics parentPointer
  return parentPointer

def rrRotation (nodePointer : Key) : Program Nodes Key := do
  let node ← nodeExtractor nodePointer
  let parentPointer := node.right
  let parent ← nodeExtractor parentPointer
  nodeSaver nodePointer { node with right := parent.left }
  updateStatistics nodePointer
  nodeSaver parentPointer { parent with left := nodePointer }
  updateStatistics parentPointer
  return parentPointer

def rotate (nodePointer : Key) : Rotation → Program Nodes Key
  | .ll => llRotation nodePointer
  | .lr => lrRotation nodePointer
  | .rl => rlRotation nodePointer
  | .rr => rrRotation nodePointer
  | .none => pure nodePointer

def maybeRotate (nodePointer : Key) : Program Nodes Key :=
  if nodePointer = 0 then pure nodePointer else do
    rotate nodePointer (← getRotationType nodePointer)

def findReplacer : ℕ → Key → Program Nodes (Key × Key)
  | 0, _ => failure
  | fuel + 1, nodePointer => do
    let node ← nodeExtractor nodePointer
    if node.right = 0 then do
      let tmpParent := node.left
      updateStatistics tmpParent
      return (← maybeRotate tmpParent, nodePointer)
    else do
      let (right, replacer) ← findReplacer fuel node.right
      nodeSaver nodePointer { node with right }
      updateStatistics nodePointer
      return (← maybeRotate nodePointer, replacer)

/-- The part that `remove` and `extractOrderStatistics` share: the pointer that takes the place of a
node that leaves the tree. -/
def takeOut (fuel : ℕ) (nodePointer : Key) (node : AVLTreeNode) : Program Nodes Key := do
  let resultPointer ←
    if node.left = 0 ∧ node.right = 0 then pure 0
    else if node.left = 0 then pure node.right
    else do
      let (leftChild, replacer) ← findReplacer fuel node.left
      let newNode ← nodeExtractor replacer
      nodeSaver replacer { newNode with left := leftChild, right := node.right }
      pure replacer
  nodeSaver nodePointer {}
  return resultPointer

/-- The index is an `int` that is only compared with and reduced by `uint32_t` values, so it counts
modulo `2 ^ 32`; after an extraction from the left subtree the right one is still walked, with the
wrapped index. -/
def extractOrderStatistics : ℕ → Key → ℕ → Key → Program Nodes (Key × Key)
  | 0, _, _, _ => failure
  | fuel + 1, nodePointer, index, extractedPointer =>
    if nodePointer = 0 then pure (nodePointer, extractedPointer) else do
      let node ← nodeExtractor nodePointer
      let leftSize ← getSize node.left
      let (node, extractedPointer) ←
        if index < leftSize then do
          let (left, extractedPointer) ← extractOrderStatistics fuel node.left index extractedPointer
          nodeSaver nodePointer { node with left }
          updateStatistics nodePointer
          pure ({ node with left }, extractedPointer)
        else pure (node, extractedPointer)
      let (resultPointer, extractedPointer) ←
        if index = leftSize then do
          let resultPointer ← takeOut fuel nodePointer node
          pure (resultPointer, nodePointer)
        else do
          let (right, extractedPointer) ←
            extractOrderStatistics fuel node.right (uint32Sub (uint32Sub index leftSize) 1) extractedPointer
          nodeSaver nodePointer { node with right }
          updateStatistics nodePointer
          pure (nodePointer, extractedPointer)
      updateStatistics resultPointer
      return (← maybeRotate resultPointer, extractedPointer)

def orderStatistics : ℕ → Key → ℕ → Program Nodes Key
  | 0, _, _ => failure
  | fuel + 1, nodePointer, index =>
    if nodePointer = 0 then pure nodePointer else do
      let node ← nodeExtractor nodePointer
      let leftSize ← getSize node.left
      if index < leftSize then orderStatistics fuel node.left index
      else if index = leftSize then pure nodePointer
      else orderStatistics fuel node.right (uint32Sub (uint32Sub index leftSize) 1)

section

variable {TKey : Type} [LinearOrder TKey] (keyExtractor : Key → TKey)

def insert : ℕ → Key → Key → Program Nodes Key
  | 0, _, _ => failure
  | fuel + 1, nodePointer, insertedNodePointer =>
    if nodePointer = 0 then pure insertedNodePointer
    else if nodePointer = insertedNodePointer then pure nodePointer
    else do
      let node ← nodeExtractor nodePointer
      let node ←
        if keyExtractor insertedNodePointer < keyExtractor nodePointer then do
          let left ← insert fuel node.left insertedNodePointer
          pure { node with left }
        else do
          let right ← insert fuel node.right insertedNodePointer
          pure { node with right }
      nodeSaver nodePointer node
      updateStatistics nodePointer
      maybeRotate nodePointer

def remove : ℕ → Key → TKey → Program Nodes Key
  | 0, _, _ => failure
  | fuel + 1, nodePointer, removedKey =>
    if nodePointer = 0 then pure nodePointer else do
      let node ← nodeExtractor nodePointer
      let resultPointer ←
        if keyExtractor nodePointer = removedKey then takeOut fuel nodePointer node
        else if removedKey < keyExtractor nodePointer then do
          let left ← remove fuel node.left removedKey
          nodeSaver nodePointer { node with left }
          updateStatistics nodePointer
          pure nodePointer
        else do
          let right ← remove fuel node.right removedKey
          nodeSaver nodePointer { node with right }
          updateStatistics nodePointer
          pure nodePointer
      updateStatistics resultPointer
      maybeRotate resultPointer

def lowerBound : ℕ → Key → TKey → Program Nodes Key
  | 0, _, _ => failure
  | fuel + 1, nodePointer, key =>
    if nodePointer = 0 then pure nodePointer else do
      let node ← nodeExtractor nodePointer
      if keyExtractor nodePointer < key then lowerBound fuel node.right key
      else do
        let leftLowerBound ← lowerBound fuel node.left key
        if leftLowerBound ≠ 0 then pure leftLowerBound else pure nodePointer

def numberOfLess : ℕ → Key → TKey → Program Nodes ℕ
  | 0, _, _ => failure
  | fuel + 1, nodePointer, key =>
    if nodePointer = 0 then pure 0 else do
      let node ← nodeExtractor nodePointer
      if keyExtractor nodePointer < key then do
        let less ← numberOfLess fuel node.right key
        let leftSize ← getSize node.left
        pure ((less + leftSize + 1) % 2 ^ 32)
      else numberOfLess fuel node.left key

end

end AVLTreeAdapter

/-- A tree as the adapter sees it: the root in its queue entry (`Key()` before the entry exists, since
`getRoot` creates it so) and the nodes of the cache. -/
structure StoredTree where
  root : Key
  nodes : Nodes

namespace StoredTree

variable {TKey : Type} [LinearOrder TKey] (tree : StoredTree) (fuel : ℕ) (keyExtractor : Key → TKey)

def insert (pValue : Key) : Option StoredTree := do
  let (root, nodes) ← (AVLTreeAdapter.insert keyExtractor fuel tree.root pValue).run tree.nodes
  return ⟨root, nodes⟩

def remove (key : TKey) : Option StoredTree := do
  let (root, nodes) ← (AVLTreeAdapter.remove keyExtractor fuel tree.root key).run tree.nodes
  return ⟨root, nodes⟩

def extractOrderStatistics (index : ℕ) : Option (Key × StoredTree) := do
  let ((root, extractedPointer), nodes) ←
    (AVLTreeAdapter.extractOrderStatistics fuel tree.root index 0).run tree.nodes
  return (extractedPointer, ⟨root, nodes⟩)

def lowerBound (key : TKey) : Option Key :=
  (AVLTreeAdapter.lowerBound keyExtractor fuel tree.root key).run' tree.nodes

def numberOfLess (key : TKey) : Option ℕ :=
  (AVLTreeAdapter.numberOfLess keyExtractor fuel tree.root key).run' tree.nodes

def orderStatistics (index : ℕ) : Option Key :=
  (AVLTreeAdapter.orderStatistics fuel tree.root index).run' tree.nodes

def size : Option ℕ := (AVLTreeAdapter.getSize tree.root).run' tree.nodes

end StoredTree

end XpxChain.Storage
