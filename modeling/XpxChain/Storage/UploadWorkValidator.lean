import XpxChain.Library.Exceptions
import XpxChain.Storage.Payments

/-! The opinions of replicators on the upload work for a modification, and their validator. -/

namespace XpxChain.Storage

open Std Library OrderedContainers Exceptions

/-- The opinions stand row by row, one row for each judging key, without those whose presence bit is not set. -/
structure UploadWork where
  driveKey : Key
  modificationId : Hash256
  judgingKeysCount : ℕ
  overlappingKeysCount : ℕ
  judgedKeysCount : ℕ
  publicKeys : List Key
  presentOpinions : ℕ → Bool
  opinions : ℕ → Fin (2 ^ 64)

inductive UploadWorkFailure
  | driveNotFound
  | replicatorNotFound
  | opinionInvalidKey
  | invalidOpinion
  | invalidOpinionsSum
deriving DecidableEq

/-- A result of the validator, a read outside of the keys, or an exception of a container. -/
inductive UploadWorkError
  | failure (result : UploadWorkFailure)
  | outOfBounds
  | outOfRange
deriving DecidableEq

namespace ModificationShardInfo

variable (shards : ModificationShardInfo) (key : Key)

def upload : ℕ := (shards.actualShardMembers[key]? <|> shards.formerShardMembers[key]?).getD shards.ownerUpload

def setUpload (opinion : ℕ) : ModificationShardInfo :=
  if key ∈ shards.actualShardMembers then
    { shards with actualShardMembers := shards.actualShardMembers.insert key opinion }
  else if key ∈ shards.formerShardMembers then
    { shards with formerShardMembers := shards.formerShardMembers.insert key opinion }
  else { shards with ownerUpload := opinion }

def IsMember : Prop := key ∈ shards.actualShardMembers ∨ key ∈ shards.formerShardMembers
deriving Decidable

variable {shards key}

lemma isMember_setUpload {other : Key} {opinion : ℕ} :
    (shards.setUpload key opinion).IsMember other ↔ shards.IsMember other := by
  unfold setUpload IsMember
  split_ifs with ha hf
  · rw [mem_insert_of_mem ha]
  · rw [mem_insert_of_mem hf]
  · rfl

lemma upload_setUpload_of_ne {other : Key} {opinion : ℕ} (hne : other ≠ key)
    (h : shards.IsMember key ∨ shards.IsMember other) :
    (shards.setUpload key opinion).upload other = shards.upload other := by
  unfold setUpload
  split_ifs with ha hf
  · rw [upload, getElem?_insert_eq, if_neg hne, upload]
  · rw [upload, getElem?_insert_eq, if_neg hne, upload]
  · have hother := h.resolve_left (not_or.mpr ⟨ha, hf⟩)
    rw [upload, upload]
    cases hactual : shards.actualShardMembers[other]? with
    | some bytes => simp
    | none =>
      have hformer := hother.resolve_left (not_mem_iff.mpr hactual)
      simp [ExtTreeMap.getElem?_eq_some_getElem hformer]

end ModificationShardInfo

namespace UploadWork

variable (n : UploadWork)

def totalJudgingKeysCount : ℕ := n.judgingKeysCount + n.overlappingKeysCount

def totalJudgedKeysCount : ℕ := n.overlappingKeysCount + n.judgedKeysCount

def key (i : ℕ) : Except UploadWorkError Key := n.publicKeys[i]?.elim (.error .outOfBounds) .ok

def judgedKey (j : ℕ) : Except UploadWorkError Key := n.key (n.judgingKeysCount + j)

def cell (i j : ℕ) : ℕ := i * n.totalJudgedKeysCount + j

def shards (drive : BcDriveEntry) (i : ℕ) : Except UploadWorkError (Key × ModificationShardInfo) := do
  let judgingKey ← n.key i
  drive.dataModificationShards[judgingKey]?.elim (.error .outOfRange) fun shards => .ok (judgingKey, shards)

section

variable (drive : BcDriveEntry)

def checkMember (i : ℕ) : Except UploadWorkError Unit := do
  let key ← n.judgedKey i
  if key ≠ drive.owner ∧ key ∉ drive.replicators then throw (.failure .replicatorNotFound)

/-- The second number is the position of `pOpinion`. -/
def checkOpinion (shards : ModificationShardInfo) (i : ℕ) : ℕ × ℕ → ℕ → Except UploadWorkError (ℕ × ℕ)
  | (totalCumulativeUpload, next), j =>
    if n.presentOpinions (n.cell i j) then do
      let judgedKey ← n.judgedKey j
      if ¬shards.IsMember judgedKey ∧ judgedKey ≠ drive.owner then throw (.failure .opinionInvalidKey)
      else if (n.opinions next).val < shards.upload judgedKey ∨ 2 ^ 64 ≤ totalCumulativeUpload + n.opinions next then
        throw (.failure .invalidOpinion)
      else return (totalCumulativeUpload + n.opinions next, next + 1)
    else return (totalCumulativeUpload, next)

def checkRow (shards : ModificationShardInfo) (i next : ℕ) : Except UploadWorkError (ℕ × ℕ) :=
  (List.range n.totalJudgedKeysCount).foldlM (n.checkOpinion drive shards i) (0, next)

def unaccountedSizeBytes : ℕ :=
  match drive.activeDataModifications with
  | [] => 0
  | front :: _ => if front.id = n.modificationId then front.actualUploadSizeMegabytes * 2 ^ 20 % 2 ^ 64 else 0

variable (work : Key → Key → Option ℕ)

/-- The work of a replicator for a drive is `none` if the entry of the replicator or its entry for the drive is missing.
-/
def checkOpinions (next i : ℕ) : Except UploadWorkError ℕ := do
  let (judgingKey, shards) ← n.shards drive i
  let (totalCumulativeUpload, next) ← n.checkRow drive shards i next
  match work judgingKey n.driveKey with
  | none => throw .outOfRange
  | some lastCompletedCumulativeDownloadWorkBytes =>
    if (lastCompletedCumulativeDownloadWorkBytes + n.unaccountedSizeBytes drive) % 2 ^ 64 ≠ totalCumulativeUpload then
      throw (.failure .invalidOpinionsSum)
    else return next

def checkRows (count : ℕ) : Except UploadWorkError ℕ := (List.range count).foldlM (n.checkOpinions drive work) 0

end

def validate (driveCache : BcDriveCache) (work : Key → Key → Option ℕ) : Except UploadWorkError Unit :=
  match driveCache[n.driveKey]? with
  | none => throw (.failure .driveNotFound)
  | some drive => do
    -- As many judged keys are checked as there are judging ones.
    (List.range n.totalJudgingKeysCount).forM (n.checkMember drive)
    let _ ← n.checkRows drive work n.totalJudgingKeysCount
    return ()

end UploadWork

end XpxChain.Storage
