import XpxChain.ChainSync.Blocks

/-! The first stage of a synchronisation: the peer's blocks are compared with the local chain. -/

namespace XpxChain.ChainSync

open Std Library Exceptions List

variable {Payload Config : Type}

inductive InputSource
  | unknown
  | loc
  | remotePush
  | remotePull
deriving DecidableEq

inductive AbortReason
  | remoteChainUnlinked
  | remoteChainTooFarBehind
  | remoteNetworkConfigMalformed
  | remoteChainMismatchedDifficulties
  | remoteChainScoreNotBetter
deriving DecidableEq

structure SyncState (Payload : Type) where
  commonBlockElement : BlockElement Payload
  scoreDelta : ℤ
  removedTransactionInfos : List (Transaction Payload)
deriving DecidableEq

inductive PreprocessResult (Payload : Type)
  | abort (reason : AbortReason)
  | proceed (elements : List (BlockElement Payload)) (syncState : SyncState Payload)
deriving DecidableEq

/-- What the consumer gets from elsewhere; `maxRollbackBlocks` is the one of the local chain height. -/
structure Handlers (Payload Config : Type) where
  conversion : Conversion
  parseConfig : Payload → Option Config
  difficultyChecker : List (BlockElement Payload) → ExtTreeMap Height Config → Except SyncError Bool
  maxRollbackBlocks : ℕ

/-- The difficulty checker of the node. -/
def chainDifficultyChecker (cache : List BlockDifficultyInfo) (configAt : Height → SyncConfiguration)
    (elements : List (BlockElement Payload))
    (remoteConfigs : ExtTreeMap Height SyncConfiguration) : Except SyncError Bool :=
  ((checkDifficulties cache configAt remoteConfigs ((elements.head?.map (·.height)).getD 0) []
    (elements.map BlockElement.difficultyInfo)).mapError .difficulty).map (· = elements.length)

def isLinked (peerStartHeight localChainHeight : Height) (source : InputSource) : Prop :=
  2 ≤ peerStartHeight ∧ peerStartHeight ≤ localChainHeight + 1 ∧
    (source = .remotePull ∨ localChainHeight ≤ peerStartHeight)
deriving Decidable

section

variable (conversion : Conversion) (localChain : List (BlockElement Payload))

def loadBlockElement : Height → Except SyncError (BlockElement Payload)
  | 0 => .error .blockNotFound
  | index + 1 => (localChain[index]?).elim (.error .blockNotFound) .ok

structure UnwindResult (Payload : Type) where
  score : ℤ := 0
  configHeights : Finset Height := ∅
  transactionInfos : List (Transaction Payload) := []

def UnwindResult.extractConfigs (result : UnwindResult Payload)
    (element : BlockElement Payload) : UnwindResult Payload :=
  { result with configHeights := extractConfigHeights element result.configHeights }

def UnwindResult.addChild (result : UnwindResult Payload) (parent : BlockElement Payload) :
    Option (BlockElement Payload) → Except SyncError (UnwindResult Payload)
  | none => .ok result
  | some child => do
    let score ← calculateScore conversion parent child
    return { result with
      score := result.score + score
      transactionInfos := result.transactionInfos ++ child.transactions }

def unwindFrom (commonBlockHeight : Height) :
    Height → Option (BlockElement Payload) → UnwindResult Payload → Except SyncError (UnwindResult Payload)
  | 0, _, _ => .error .blockNotFound
  | index + 1, child, result => do
    let parent ← loadBlockElement localChain (index + 1)
    let result ← (result.extractConfigs parent).addChild conversion parent child
    if index + 1 = commonBlockHeight then return result
    else unwindFrom commonBlockHeight index (some parent) result

def unwindLocalChain (commonBlockHeight : Height) : Except SyncError (UnwindResult Payload) :=
  if localChain.length = commonBlockHeight then .ok {}
  else unwindFrom conversion localChain commonBlockHeight localChain.length none {}

end

section

variable (conversion : Conversion) (elements : List (BlockElement Payload))

def cutSize (remoteConfigs : ExtTreeMap Height Config) (configHeights : Finset Height)
    (peerStartHeight : Height) : Option ℕ :=
  (remoteConfigs.keys.find? fun height =>
    height ∉ configHeights ∧ sizeSub height peerStartHeight < elements.length).map (sizeSub · peerStartHeight)

/-- The loop over the blocks that are cut off, from the last one on. At index zero it reads the block before the first.
-/
def cutFrom (newSize : ℕ) : ℕ → List (BlockElement Payload) → ℤ → Except SyncError (List (BlockElement Payload) × ℤ)
  | 0, left, peerScore => if 0 < newSize then .ok (left, peerScore) else .error .outOfRange
  | i + 1, left, peerScore =>
    if i + 1 < newSize then .ok (left, peerScore)
    else
      match elements[i]?, elements[i + 1]? with
      | some parent, some block => do
        let score ← calculateScore conversion parent block
        cutFrom newSize i left.dropLast (peerScore - score)
      | _, _ => .error .outOfRange

def cut (peerScore : ℤ) : Option ℕ → Except SyncError (List (BlockElement Payload) × ℤ)
  | none => .ok (elements, peerScore)
  | some newSize => cutFrom conversion elements newSize (elements.length - 1) elements peerScore

end

section

variable (handlers : Handlers Payload Config) (localChain : List (BlockElement Payload))

def compareScores (elements : List (BlockElement Payload)) (peerStartHeight : Height)
    (remoteConfigs : ExtTreeMap Height Config) : Except SyncError (PreprocessResult Payload) := do
  let unwindResult ← unwindLocalChain handlers.conversion localChain (peerStartHeight - 1)
  let commonBlockElement ← loadBlockElement localChain (peerStartHeight - 1)
  let peerScore ← calculatePartialChainScore handlers.conversion commonBlockElement elements
  if peerScore ≤ unwindResult.score then return .abort .remoteChainScoreNotBetter
  else do
    let (left, peerScore) ← cut handlers.conversion elements peerScore
      (cutSize elements remoteConfigs unwindResult.configHeights peerStartHeight)
    return .proceed left {
      commonBlockElement
      scoreDelta := peerScore - unwindResult.score
      removedTransactionInfos := unwindResult.transactionInfos }

def preprocess (source : InputSource) : List (BlockElement Payload) → Except SyncError (PreprocessResult Payload)
  | [] => .error .outOfRange
  | first :: rest =>
    if ¬isLinked first.height localChain.length source then .ok (.abort .remoteChainUnlinked)
    else if (handlers.maxRollbackBlocks : ℤ) < localChain.length - first.height then
      .ok (.abort .remoteChainTooFarBehind)
    else
      match extractConfigs handlers.parseConfig (first :: rest) with
      | none => .ok (.abort .remoteNetworkConfigMalformed)
      | some remoteConfigs => do
        let matching ← handlers.difficultyChecker (first :: rest) remoteConfigs
        if matching = false then return .abort .remoteChainMismatchedDifficulties
        else compareScores handlers localChain (first :: rest) first.height remoteConfigs

end

end XpxChain.ChainSync
