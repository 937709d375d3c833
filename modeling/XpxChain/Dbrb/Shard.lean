import XpxChain.Dbrb.View
import XpxChain.Library.Exceptions
import XpxChain.Library.OrderedContainers

/-! The pair of shards of a process in the tree of shards. -/

namespace XpxChain.Dbrb

open Library OrderedContainers Exceptions

abbrev ShardViews := Std.ExtTreeMap ProcessId ViewData

structure DbrbDoubleShard where
  initialized : Bool := false
  parent : ProcessId := 0
  siblings : ViewData := ∅
  children : ViewData := ∅
  neighbours : ViewData := ∅
  parentView : ViewData := ∅
  siblingViews : ShardViews := ∅
  childViews : ShardViews := ∅

def DbrbDoubleShard.minShardSize : ℕ := 3

inductive ShardError
  | shardSizeInvalid
  | siblingViewNotFound
  deriving DecidableEq

namespace DbrbShard

structure Place where
  levelIndex : ℕ
  levelNodeCount : ℕ

def Place.next (childCount : ℕ) (place : Place) : Place :=
  if place.levelNodeCount ≤ place.levelIndex + 1 then ⟨0, place.levelNodeCount * childCount⟩
  else ⟨place.levelIndex + 1, place.levelNodeCount⟩

def findProcess (thisProcessId : ProcessId) (childCount : ℕ) : Place → DbrbTreeView → List ProcessId × Option Place
  | _, [] => ([], none)
  | place, id :: view =>
    if id = thisProcessId then ([], some place)
    else
      let (before, found) := findProcess thisProcessId childCount (place.next childCount) view
      (id :: before, found)

/-- The shard under construction. `siblingIndexes` and `childIndexes` name the views that the index maps
of the source refer to. -/
structure Builder where
  shard : DbrbDoubleShard
  siblingIndexes : Std.ExtTreeMap ℕ ProcessId := ∅
  childIndexes : Std.ExtTreeMap ℕ ProcessId := ∅

def addToView (views : ShardViews) (key id : ProcessId) : ShardViews :=
  views.alter key (Option.map (insert id))

def addSibling (b : Builder) (siblingLevelIndex : ℕ) (id : ProcessId) : Builder :=
  { b with
    shard := { b.shard with
      parentView := b.shard.parentView.erase id
      siblings := insert id b.shard.siblings
      neighbours := insert id b.shard.neighbours
      siblingViews := b.shard.siblingViews.insertIfNew id {id} }
    siblingIndexes := b.siblingIndexes.insertIfNew siblingLevelIndex id }

def addChild (b : Builder) (childrenLevelIndex : ℕ) (id : ProcessId) : Builder :=
  { b with
    shard := { b.shard with
      children := insert id b.shard.children
      neighbours := insert id b.shard.neighbours
      childViews := b.shard.childViews.insertIfNew id {id} }
    childIndexes := b.childIndexes.insertIfNew childrenLevelIndex id }

def addDescendant (childCount : ℕ) (this : Place) : Builder × Place → ProcessId →
    Except ShardError (Builder × Place)
  | (b, place), id => do
    let place := place.next childCount
    let parentLevelIndex := this.levelIndex / childCount
    let parentLevelNodeCount := this.levelNodeCount / childCount
    if place.levelIndex * parentLevelNodeCount / place.levelNodeCount = parentLevelIndex then
      let siblingsLevelIndex := place.levelIndex * this.levelNodeCount / place.levelNodeCount
      if siblingsLevelIndex = this.levelIndex then
        let childrenLevelIndex := place.levelIndex * (this.levelNodeCount * childCount) / place.levelNodeCount
        match b.childIndexes[childrenLevelIndex]? with
        | none => .ok (addChild b childrenLevelIndex id, place)
        | some key =>
          .ok ({ b with shard := { b.shard with childViews := addToView b.shard.childViews key id } }, place)
      else
        match b.siblingIndexes[siblingsLevelIndex]? with
        | none => .error .siblingViewNotFound
        | some key =>
          .ok ({ b with shard := { b.shard with siblingViews := addToView b.shard.siblingViews key id } }, place)
    else
      .ok ({ b with shard := { b.shard with parentView := insert id b.shard.parentView } }, place)

def siblingsOf (view : DbrbTreeView) (childCount index : ℕ) (this : Place) : List (ProcessId × ℕ) :=
  let siblingsStartIndex := this.levelIndex / childCount * childCount
  let shard := (view.drop (index - this.levelIndex + siblingsStartIndex)).take childCount
  (shard.zipIdx siblingsStartIndex).filter fun sibling => sibling.2 ≠ this.levelIndex

def restOfLevel (view : DbrbTreeView) (childCount index : ℕ) (this : Place) : List ProcessId :=
  let start := index + (childCount - this.levelIndex % childCount)
  (view.drop start).take (index - this.levelIndex + this.levelNodeCount - start)

def parentOf (view : DbrbTreeView) (childCount index : ℕ) (this : Place) : ProcessId :=
  let parentLevelIndex := this.levelIndex / childCount
  let parentLevelNodeCount := this.levelNodeCount / childCount
  view.getD (index - this.levelIndex - (parentLevelNodeCount - parentLevelIndex)) 0

def addLevel (view : DbrbTreeView) (childCount index : ℕ) (this : Place) (shard : DbrbDoubleShard) : Builder :=
  if 1 < this.levelNodeCount then
    let parent := parentOf view childCount index this
    let b := (siblingsOf view childCount index this).foldl
      (fun b sibling => addSibling b sibling.2 sibling.1)
      { shard := { shard with parent, neighbours := insert parent shard.neighbours } }
    { b with shard := { b.shard with
        parentView := b.shard.parentView ∪ (restOfLevel view childCount index this).toFinset } }
  else { shard }

end DbrbShard

open DbrbShard in
def createDbrbShard (view : DbrbTreeView) (thisProcessId : ProcessId) (shardSize : ℕ) :
    Except ShardError DbrbDoubleShard :=
  if shardSize < DbrbDoubleShard.minShardSize then .error .shardSizeInvalid
  else if view = [] then .ok {}
  else
    let childCount := shardSize - 1
    match findProcess thisProcessId childCount ⟨0, 1⟩ view with
    | (before, none) => .ok { parentView := before.toFinset }
    | (before, some this) => do
      let index := before.length
      let b := addLevel view childCount index this { parentView := before.toFinset }
      let descendants := view.drop (index - this.levelIndex + this.levelNodeCount)
      let (b, _) ← descendants.foldlM (addDescendant childCount this)
        (b, ⟨this.levelNodeCount - 1, this.levelNodeCount⟩)
      .ok { b.shard with initialized := true }

end XpxChain.Dbrb
