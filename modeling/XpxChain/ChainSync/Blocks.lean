import XpxChain.ChainSync.Difficulty
import XpxChain.Library.Exceptions

/-! The blocks of a chain as synchronisation reads them: scores and network configurations. -/

namespace XpxChain.ChainSync

open Std Library Exceptions

variable {Payload Config : Type}

inductive SubTransaction (Payload : Type)
  | networkConfig (applyHeightDelta : ℕ) (config : Payload)
  | other
deriving DecidableEq

inductive Transaction (Payload : Type)
  | networkConfig (applyHeightDelta : ℕ) (config : Payload)
  | aggregate (transactions : List (SubTransaction Payload))
  | other
deriving DecidableEq

structure BlockElement (Payload : Type) where
  height : Height
  timestamp : Timestamp
  difficulty : ℕ
  transactions : List (Transaction Payload)
deriving DecidableEq

def BlockElement.difficultyInfo (element : BlockElement Payload) : BlockDifficultyInfo :=
  ⟨.ofNat _ element.height, .ofNat _ element.timestamp, .ofNat _ element.difficulty⟩

inductive SyncError
  | invalidArgument
  | blockNotFound
  | difficulty (error : DifficultyError)
  /-- An access outside of a vector, of which the code says nothing. -/
  | outOfRange
deriving DecidableEq

def applyHeight (blockHeight : Height) (applyHeightDelta : ℕ) : Height := (blockHeight + applyHeightDelta) % 2 ^ 64

def Transaction.configs (blockHeight : Height) : Transaction Payload → List (Height × Payload)
  | .networkConfig applyHeightDelta config => [(applyHeight blockHeight applyHeightDelta, config)]
  | .aggregate transactions => transactions.filterMap fun
    | .networkConfig applyHeightDelta config => some (applyHeight blockHeight applyHeightDelta, config)
    | .other => none
  | .other => []

def BlockElement.configs (element : BlockElement Payload) : List (Height × Payload) :=
  element.transactions.flatMap (Transaction.configs element.height)

def extractConfigs (parseConfig : Payload → Option Config) (elements : List (BlockElement Payload)) :
    Option (ExtTreeMap Height Config) :=
  (elements.flatMap BlockElement.configs).foldlM
    (fun configs entry => (parseConfig entry.2).map (configs.insertIfNew entry.1)) ∅

def extractConfigHeights (element : BlockElement Payload) (heights : Finset Height) : Finset Height :=
  element.configs.foldl (fun heights entry => insert entry.1 heights) heights

/-- The conversion of a number of 256 bits to 64 bits. -/
structure Conversion where
  convertToUInt64 : ℕ → ℕ
  convertToUInt64_of_lt : ∀ n, n < 2 ^ 64 → convertToUInt64 n = n

variable (conversion : Conversion)

def calculateScore (parentBlock currentBlock : BlockElement Payload) : Except SyncError ℕ :=
  if currentBlock.timestamp ≤ parentBlock.timestamp then .ok 0
  else if currentBlock.difficulty = 0 then .error .invalidArgument
  else .ok (conversion.convertToUInt64 (2 ^ 64 / currentBlock.difficulty))

def addPartialChainScore (score : ℤ) (parent : BlockElement Payload) : List (BlockElement Payload) → Except SyncError ℤ
  | [] => .ok score
  | block :: blocks => do
    let blockScore ← calculateScore conversion parent block
    addPartialChainScore (score + blockScore) block blocks

def calculatePartialChainScore (parent : BlockElement Payload)
    (blocks : List (BlockElement Payload)) : Except SyncError ℤ :=
  addPartialChainScore conversion 0 parent blocks

variable {conversion} {parent block : BlockElement Payload} {blocks blocks' : List (BlockElement Payload)}
  {score total : ℤ}

lemma addPartialChainScore_eq_ok : addPartialChainScore conversion score parent blocks = .ok total ↔
    calculatePartialChainScore conversion parent blocks = .ok (total - score) := by
  rw [calculatePartialChainScore]
  induction blocks generalizing score parent total with
  | nil =>
    simp only [addPartialChainScore, Except.ok.injEq]
    omega
  | cons block blocks ih =>
    simp only [addPartialChainScore, bind_eq_ok]
    refine exists_congr fun blockScore => and_congr_right fun _ => ?_
    refine ih.trans (Iff.trans ?_ ih.symm)
    rw [show total - (score + blockScore) = total - score - (0 + blockScore) by ring]

lemma calculatePartialChainScore_cons : calculatePartialChainScore conversion parent (block :: blocks) = .ok total ↔
    ∃ blockScore, calculateScore conversion parent block = .ok blockScore ∧
      calculatePartialChainScore conversion block blocks = .ok (total - blockScore) := by
  rw [calculatePartialChainScore, addPartialChainScore, bind_eq_ok]
  refine exists_congr fun blockScore => and_congr_right fun _ => ?_
  rw [zero_add, addPartialChainScore_eq_ok]

lemma calculatePartialChainScore_append : calculatePartialChainScore conversion parent (blocks ++ blocks') = .ok total ↔
    ∃ front back, calculatePartialChainScore conversion parent blocks = .ok front ∧
      calculatePartialChainScore conversion (blocks.getLastD parent) blocks' = .ok back ∧ total = front + back := by
  induction blocks generalizing parent total with
  | nil =>
    constructor
    · intro h
      exact ⟨0, total, rfl, h, (zero_add total).symm⟩
    · rintro ⟨front, back, hf, hb, rfl⟩
      cases hf
      rwa [zero_add]
  | cons block blocks ih =>
    rw [List.cons_append, calculatePartialChainScore_cons]
    have hl : (block :: blocks).getLastD parent = blocks.getLastD block := by
      rw [List.getLastD_cons]
    rw [hl]
    constructor
    · rintro ⟨blockScore, hblk, hr⟩
      obtain ⟨front, back, hf, hb, ht⟩ := ih.mp hr
      refine ⟨blockScore + front, back, ?_, hb, by omega⟩
      exact calculatePartialChainScore_cons.mpr ⟨blockScore, hblk, by rwa [add_sub_cancel_left]⟩
    · rintro ⟨front, back, hf, hb, rfl⟩
      obtain ⟨blockScore, hblk, hr⟩ := calculatePartialChainScore_cons.mp hf
      exact ⟨blockScore, hblk, ih.mpr ⟨_, back, hr, hb, by omega⟩⟩

lemma calculatePartialChainScore_concat : calculatePartialChainScore conversion parent (blocks ++ [block]) = .ok total ↔
    ∃ blockScore, calculateScore conversion (blocks.getLastD parent) block = .ok blockScore ∧
      calculatePartialChainScore conversion parent blocks = .ok (total - blockScore) := by
  rw [calculatePartialChainScore_append]
  constructor
  · rintro ⟨front, back, hf, hb, rfl⟩
    obtain ⟨blockScore, hblk, hnil⟩ := calculatePartialChainScore_cons.mp hb
    have hz := Except.ok.inj hnil
    exact ⟨blockScore, hblk, by rwa [show front + back - blockScore = front by omega]⟩
  · rintro ⟨blockScore, hblk, hf⟩
    refine ⟨_, blockScore, hf, calculatePartialChainScore_cons.mpr ⟨blockScore, hblk, ?_⟩, by omega⟩
    rw [sub_self]
    rfl

end XpxChain.ChainSync
