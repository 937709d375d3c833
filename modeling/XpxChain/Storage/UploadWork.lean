import XpxChain.Storage.UploadWorkValidator

/-! When the validator of upload work reads no opinion outside of the notification. -/

namespace XpxChain.Storage

open Std Library OrderedContainers Exceptions

namespace UploadWork

variable (n : UploadWork)

variable {n} {drive : BcDriveEntry} {driveCache : BcDriveCache} {work : Key → Key → Option ℕ} {i j next : ℕ} {key : Key}
  {shards : ModificationShardInfo}

lemma key_eq_ok : n.key i = .ok key ↔ n.publicKeys[i]? = some key := by
  unfold UploadWork.key
  cases n.publicKeys[i]? with
  | none => simp
  | some key => simp

section

variable (hlength : n.publicKeys.length = n.judgingKeysCount + n.totalJudgedKeysCount)
include hlength

end

section

variable (hlength : n.publicKeys.length = n.judgingKeysCount + n.totalJudgedKeysCount)
include hlength

end

end UploadWork

end XpxChain.Storage
