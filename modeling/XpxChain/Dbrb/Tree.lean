import XpxChain.Dbrb.View
import XpxChain.Library.OrderedContainers

/-! The tree of DBRB shards and the order of the processes in it. Pointers to the nodes of the tree are
indexes into the vector of nodes. -/

namespace XpxChain.Dbrb

open Library OrderedContainers

structure DbrbTreeNode where
  index : ℕ := 0
  maxNodesToRemove : ℕ := 0
  nodeCount : ℕ := 0
  childIndex : ℕ := 0
  parent : Option ℕ := none
  children : List (Option ℕ) := []

/-- The exceptions of `CreateDbrbTreeView`, and the states in which its pointers are not valid. -/
inductive TreeError
  | broadcasterReachable
  | broadcasterUnreachable
  | failedToCreateTree
  | undefinedBehaviour
  deriving DecidableEq

namespace DbrbTree

abbrev Nodes := List DbrbTreeNode

def updateAncestors (f : DbrbTreeNode → DbrbTreeNode) : ℕ → Nodes → Option ℕ → Nodes
  | 0, tree, _ => tree
  | _, tree, none => tree
  | fuel + 1, tree, some i => updateAncestors f fuel (tree.modify i f) (tree[i]?.bind (·.parent))

def firstLeaf : ℕ → Nodes → ℕ → ℕ
  | 0, _, i => i
  | fuel + 1, tree, i =>
    match tree[i]?.bind (·.children.head?) with
    | some (some child) => firstLeaf fuel tree child
    | _ => i

def climb (tree : Nodes) (childCount : ℕ) : ℕ → ℕ → ℕ → List ℕ → Option (ℕ × List ℕ)
  | 0, _, _, _ => none
  | fuel + 1, parent, currentLevelIndex, path =>
    if childCount ≤ currentLevelIndex then do
      let parent ← tree[parent]?.bind (·.parent)
      let currentLevelIndex := currentLevelIndex / childCount
      climb tree childCount fuel parent currentLevelIndex (currentLevelIndex % childCount :: path)
    else some (parent, path)

def descend (tree : Nodes) : ℕ → List ℕ → Option ℕ
  | parent, [] => some parent
  | parent, i :: path => do
    let child ← tree[parent]?.bind (·.children[i]?)
    descend tree (← child) path

structure Builder where
  tree : Nodes
  parent : ℕ
  levelIndex : ℕ
  childIndex : ℕ
  levelNodeCount : ℕ

def attachNode (b : Builder) (index : ℕ) : Nodes :=
  let node : DbrbTreeNode :=
    { index, nodeCount := 1, childIndex := b.childIndex, parent := some b.parent }
  let tree := (b.tree.set index node).modify b.parent fun parent =>
    { parent with children := parent.children ++ [some index] }
  updateAncestors (fun node => { node with nodeCount := node.nodeCount + 1 }) tree.length tree (some b.parent)

def nextPosition (childCount : ℕ) (b : Builder) : Option Builder :=
  let levelIndex := b.levelIndex + 1
  let childIndex := b.childIndex + 1
  if b.levelNodeCount ≤ levelIndex then
    some { tree := b.tree, parent := firstLeaf b.tree.length b.tree 0, levelIndex := 0, childIndex := 0
           levelNodeCount := b.levelNodeCount * childCount }
  else if childCount ≤ childIndex then
    ((climb b.tree childCount (levelIndex + 1) b.parent levelIndex []).bind fun (parent, path) =>
      descend b.tree parent path).map fun parent => { b with parent, levelIndex, childIndex := 0 }
  else some { b with levelIndex, childIndex }

def addNode (childCount : ℕ) (b : Builder) (index : ℕ) : Option Builder :=
  nextPosition childCount { b with tree := attachNode b index }

def buildDbrbTree (nodeCount shardSize : ℕ) : Option Nodes :=
  if nodeCount = 0 then some []
  else do
    let childCount := sizeSub shardSize 1
    let tree := (List.replicate nodeCount {}).set 0 { nodeCount := 1 }
    let b ← ((List.range nodeCount).drop 1).foldlM (addNode childCount)
      { tree, parent := 0, levelIndex := 0, childIndex := 0, levelNodeCount := childCount }
    some b.tree

def addProcesses (tree : Nodes) : ℕ → List ℕ → DbrbTreeView → List ProcessId →
    Option (DbrbTreeView × List ProcessId)
  | _, [], view, processes => some (view, processes)
  | 0, _ :: _, _, _ => none
  | fuel + 1, i :: queue, view, processes => do
    let node ← tree[i]?
    match processes with
    | [] => none
    | process :: processes =>
      addProcesses tree fuel (queue ++ node.children.filterMap id) (view.set node.index process) processes

def addProcessesToView (tree : Nodes) (root : ℕ) (addRoot : Bool) (view : DbrbTreeView)
    (processes : List ProcessId) : Option (DbrbTreeView × List ProcessId) := do
  let node ← tree[root]?
  let queue := if addRoot then [root] else node.children.filterMap id
  addProcesses tree (tree.length + 1) queue view processes

structure Remover where
  tree : Nodes
  queue : List (Option ℕ)
  removedSubtrees : List ℕ
  unreachableNodeCount : ℕ

def removeSubtrees : ℕ → Remover → Except TreeError Remover
  | 0, _ => .error .undefinedBehaviour
  | fuel + 1, r =>
    if r.unreachableNodeCount = 0 then .ok r
    else match r.queue with
    | [] => .error .failedToCreateTree
    | none :: _ => .error .undefinedBehaviour
    | some i :: queue =>
      match r.tree[i]?, r.tree[i]?.bind (·.parent), (r.tree[i]?.bind (·.parent)).bind (r.tree[·]?) with
      | some subTree, some parentIndex, some parent =>
        if subTree.nodeCount ≤ r.unreachableNodeCount ∧ subTree.nodeCount ≤ parent.maxNodesToRemove then
          let tree := r.tree.modify parentIndex fun parent =>
            { parent with children := parent.children.set subTree.childIndex none }
          removeSubtrees fuel
            { tree := updateAncestors (fun node =>
                { node with maxNodesToRemove := sizeSub node.maxNodesToRemove subTree.nodeCount })
                tree.length tree (some parentIndex)
              queue
              removedSubtrees := r.removedSubtrees ++ [i]
              unreachableNodeCount := r.unreachableNodeCount - subTree.nodeCount }
        else
          removeSubtrees fuel
            { r with
              tree := r.tree.modify i fun node =>
                { node with maxNodesToRemove := maxInvalidProcesses node.nodeCount }
              queue := queue ++ subTree.children }
      | _, _, _ => .error .undefinedBehaviour

def addRemoved (tree : Nodes) : List ℕ → DbrbTreeView → List ProcessId → Option DbrbTreeView
  | [], view, _ => some view
  | root :: roots, view, processes => do
    let (view, processes) ← addProcessesToView tree root true view processes
    addRemoved tree roots view processes

end DbrbTree

open DbrbTree in
def createDbrbTreeView (reachableNodes unreachableNodes : ViewData) (broadcaster : ProcessId)
    (shardSize : ℕ) : Except TreeError DbrbTreeView :=
  let unreachableNodeCount := unreachableNodes.card
  let nodeCount := reachableNodes.card + unreachableNodeCount + 1
  if broadcaster ∈ reachableNodes then .error .broadcasterReachable
  else if broadcaster ∈ unreachableNodes then .error .broadcasterUnreachable
  else if maxInvalidProcesses nodeCount < unreachableNodeCount then .ok []
  else if unreachableNodeCount = 0 ∨ nodeCount ≤ shardSize then
    .ok (broadcaster :: (ascending reachableNodes ++ ascending unreachableNodes))
  else do
    let .some tree := buildDbrbTree nodeCount shardSize | .error .undefinedBehaviour
    let tree := tree.modify 0 fun root => { root with maxNodesToRemove := maxInvalidProcesses root.nodeCount }
    let r ← removeSubtrees (nodeCount + 1)
      { tree, queue := (tree[0]?.map (·.children)).getD [], removedSubtrees := [], unreachableNodeCount }
    let view := broadcaster :: List.replicate (nodeCount - 1) 0
    let .some (view, _) := addProcessesToView r.tree 0 false view (ascending reachableNodes)
      | .error .undefinedBehaviour
    let .some view := addRemoved r.tree r.removedSubtrees view (ascending unreachableNodes)
      | .error .undefinedBehaviour
    .ok view

end XpxChain.Dbrb
