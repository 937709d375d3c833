import XpxChain.Library.OrderedContainers

/-! A delta on top of a base set of mutable elements, as `BaseSetDelta` and `BaseSet` compute it. -/

namespace XpxChain.DeltaSet

open Std Library.OrderedContainers

variable (κ α : Type) [Ord κ] [TransOrd κ]

structure DeltaElements where
  added : ExtTreeMap κ α := ∅
  removed : ExtTreeMap κ α := ∅
  copied : ExtTreeMap κ α := ∅
  keyGenerationIdMap : ExtTreeMap κ ℕ := ∅

/-- The four vectors of backups grow and shrink together, so they are one list, the last backup first. -/
structure BaseSetDelta extends DeltaElements κ α where
  originalElements : ExtTreeMap κ α
  generationId : ℕ := 1
  backup : List (DeltaElements κ α) := []

inductive InsertResult
  | unremoved
  | updated
  | redundant
  | inserted
deriving DecidableEq, Repr

inductive RemoveResult
  | none
  | unmodifiedAndRemoved
  | uninserted
  | redundant
  | removed
deriving DecidableEq, Repr

variable {κ α}

namespace BaseSetDelta

variable (delta : BaseSetDelta κ α) (key : κ)

/-- In unsigned arithmetic the removed elements come off first; where that wraps, adding the added ones wraps back. -/
def size : ℕ := delta.originalElements.size + delta.added.size - delta.removed.size

def markKey : BaseSetDelta κ α :=
  { delta with keyGenerationIdMap := delta.keyGenerationIdMap.insert key delta.generationId }

def findConst : Option α :=
  if key ∈ delta.removed then none
  else match delta.copied[key]? with
    | some element => some element
    | none => match delta.originalElements[key]? with
      | some element => some element
      | none => delta.added[key]?

def contains : Bool :=
  key ∉ delta.removed ∧ (key ∈ delta.added ∨ key ∈ delta.originalElements)

/-- The mutable lookup followed by a change of the element that it returns: an original element is copied first. -/
def find (change : α → α) : BaseSetDelta κ α × Option α :=
  if key ∈ delta.removed then (delta, none)
  else match delta.copied[key]? with
    | some element => ({ delta.markKey key with copied := delta.copied.insert key (change element) }, some element)
    | none => match delta.originalElements[key]? with
      | some element => ({ delta.markKey key with copied := delta.copied.insert key (change element) }, some element)
      | none => match delta.added[key]? with
        | some element => ({ delta.markKey key with added := delta.added.insert key (change element) }, some element)
        | none => (delta, none)

def insert (element : α) : BaseSetDelta κ α × InsertResult :=
  let delta := delta.markKey key
  if key ∈ delta.removed then
    let delta := { delta with removed := delta.removed.erase key }
    if key ∈ delta.added then ({ delta with added := delta.added.insert key element }, .unremoved)
    else ({ delta with copied := delta.copied.insert key element }, .unremoved)
  else if key ∈ delta.originalElements then ({ delta with copied := delta.copied.insert key element }, .updated)
  else ({ delta with added := delta.added.insert key element }, if key ∈ delta.added then .updated else .inserted)

def remove : BaseSetDelta κ α × RemoveResult :=
  if key ∈ delta.removed then (delta, .redundant)
  else match delta.copied[key]? with
    | some element =>
      ({ delta.markKey key with
        removed := delta.removed.insert key element
        copied := delta.copied.erase key }, .unmodifiedAndRemoved)
    | none => match delta.added[key]? with
      | some element => ({ delta.markKey key with removed := delta.removed.insert key element }, .uninserted)
      | none => match delta.originalElements[key]? with
        | some element => ({ delta.markKey key with removed := delta.removed.insert key element }, .removed)
        | none => (delta, .none)

/-- `insert` for immutable elements: the element that was seen first stays. -/
def insertImmutable (element : α) : BaseSetDelta κ α × InsertResult :=
  if key ∈ delta.removed then
    let delta :=
      if key ∈ delta.added then delta.markKey key
      else { delta with keyGenerationIdMap := delta.keyGenerationIdMap.erase key }
    ({ delta with removed := delta.removed.erase key }, .unremoved)
  else if key ∈ delta.originalElements ∨ key ∈ delta.added then (delta, .redundant)
  else ({ delta.markKey key with added := delta.added.insert key element }, .inserted)

/-- `remove` for immutable elements, of which there are no copies. -/
def removeImmutable : BaseSetDelta κ α × RemoveResult :=
  if key ∈ delta.removed then (delta, .redundant)
  else match delta.added[key]? with
    | some element => ({ delta.markKey key with removed := delta.removed.insert key element }, .uninserted)
    | none => match delta.originalElements[key]? with
      | some element => ({ delta.markKey key with removed := delta.removed.insert key element }, .removed)
      | none => (delta, .none)

def backupChanges (replace : Bool) : BaseSetDelta κ α :=
  { delta with backup := delta.toDeltaElements :: if replace then [] else delta.backup }

def restoreChanges : BaseSetDelta κ α :=
  match delta.backup with
  | [] => { delta with toDeltaElements := {} }
  | elements :: backup => { delta with toDeltaElements := elements, backup }

def incrementGenerationId : BaseSetDelta κ α :=
  { delta with generationId := (delta.generationId + 1) % 2 ^ 32 }

def keyGenerationId : ℕ := delta.keyGenerationIdMap[key]?.getD 0

end BaseSetDelta

def rebase (elements : ExtTreeMap κ α) : BaseSetDelta κ α := { originalElements := elements }

/-- An element of `copied` that is not in the set: "element not found, cannot update". -/
structure ElementNotFound (κ : Type) where
  key : κ

def updateCopied (elements : ExtTreeMap κ α) (pair : κ × α) : Except (ElementNotFound κ) (ExtTreeMap κ α) :=
  if pair.1 ∈ elements then .ok ((elements.erase pair.1).insert pair.1 pair.2) else .error ⟨pair.1⟩

/-- `UpdateSet`. Adding an element that is there already does not replace it. -/
def updateSet (elements : ExtTreeMap κ α) (deltas : DeltaElements κ α) :
    Except (ElementNotFound κ) (ExtTreeMap κ α) := do
  let elements := deltas.added.toList.foldl (fun elements pair => elements.insertIfNew pair.1 pair.2) elements
  let elements ← deltas.copied.toList.foldlM updateCopied elements
  return deltas.removed.toList.foldl (fun elements pair => elements.erase pair.1) elements

def BaseSetDelta.commit (delta : BaseSetDelta κ α) : Except (ElementNotFound κ) (BaseSetDelta κ α) := do
  let elements ← updateSet delta.originalElements delta.toDeltaElements
  return rebase elements

/-- The iterator over a delta. `original` and `added` are what is left of the two containers, from the current element
on. -/
structure Iterator (κ α : Type) where
  position : ℕ
  original : List (κ × α)
  added : List (κ × α)

namespace Iterator

variable (delta : BaseSetDelta κ α)

def moveToValidElement (iter : Iterator κ α) : Iterator κ α :=
  match iter.original.dropWhile (fun pair => pair.1 ∈ delta.removed) with
  | [] => { iter with original := [], added := iter.added.dropWhile fun pair => pair.1 ∈ delta.removed }
  | original => { iter with original }

def begin : Iterator κ α :=
  moveToValidElement delta ⟨0, delta.originalElements.toList, delta.added.toList⟩

def current (iter : Iterator κ α) : Option (κ × α) :=
  match iter.original with
  | pair :: _ => some (pair.1, delta.copied[pair.1]?.getD pair.2)
  | [] => iter.added.head?

def advance (iter : Iterator κ α) : Iterator κ α :=
  moveToValidElement delta { iter with
    position := iter.position + 1
    original := iter.original.tail
    added := if iter.original = [] then iter.added.tail else iter.added }

end Iterator

def BaseSetDelta.elementsFrom (delta : BaseSetDelta κ α) : ℕ → Iterator κ α → List (κ × α)
  | 0, _ => []
  | fuel + 1, iter =>
    if iter.position = delta.size then []
    else (iter.current delta).toList ++ delta.elementsFrom fuel (iter.advance delta)

def BaseSetDelta.elements (delta : BaseSetDelta κ α) : List (κ × α) :=
  delta.elementsFrom delta.size (Iterator.begin delta)

end XpxChain.DeltaSet
