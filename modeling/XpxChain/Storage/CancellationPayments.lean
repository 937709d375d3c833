import XpxChain.Library.Runs
import XpxChain.Storage.StartDriveVerification

/-! What a drive pays for a cancelled modification. -/

namespace XpxChain.Storage

open Std Library OrderedContainers Runs List

/-- A call of `debitMosaics`: units of `debtor` are sold, and `creditor` gets the currency. -/
structure Debit where
  debtor : Key
  creditor : Key
  amount : ℕ
deriving DecidableEq

def paid (debits : List Debit) : ℕ := (debits.map (·.amount)).sum

namespace BcDriveEntry

def cancellationDebits (drive : BcDriveEntry) (modification front : ActiveDataModification) : List Debit :=
  let size := modification.expectedUploadSizeMegabytes
  let count := drive.replicators.card
  if modification.id = front.id then
    (ascending drive.replicators).map (⟨drive.key, ·, (size + size * (count - 1) % 2 ^ 64 / count) % 2 ^ 64⟩) ++
      [⟨drive.key, drive.owner, (size + 2 * size * sizeSub drive.replicatorCount.toNat count) % 2 ^ 64⟩]
  else [⟨drive.key, drive.owner, 2 * size * drive.replicatorCount.toNat % 2 ^ 64⟩]

/-- The modification is looked up without a check that it is there. -/
def dataModificationCancel (drive : BcDriveEntry) (id : Hash256) : Option (BcDriveEntry × List Debit) := do
  let modification ← drive.activeDataModifications.find? (·.id = id)
  let front ← drive.activeDataModifications.head?
  return ({ drive with
    activeDataModifications := drive.activeDataModifications.eraseP (·.id = id)
    completedDataModifications :=
      drive.completedDataModifications ++ [{ modification with approvalState := .cancelled }] },
    drive.cancellationDebits modification front)

end BcDriveEntry

lemma work_add_refund_le {size count : ℕ} (hcnt : 0 < count) (missing : ℕ) :
    count * (size + size * (count - 1) / count) + (size + 2 * size * missing) ≤ 2 * size * (count + missing) := by
  have hw := Nat.mul_div_le (size * (count - 1)) count
  obtain ⟨others, rfl⟩ : ∃ others, count = others + 1 := ⟨count - 1, by omega⟩
  rw [Nat.add_sub_cancel] at *
  linarith

/-- The upload work of the owner is paid even if no replicator has got its share of the deposit. -/
theorem cancellation_covered_by_deposit_iff {drive : BcDriveEntry} {modification : ActiveDataModification}
    {queued : List ActiveDataModification} (hfront : drive.activeDataModifications = modification :: queued)
    (hcount : drive.replicators.card ≤ drive.replicatorCount.toNat)
    (hsize : modification.expectedUploadSizeMegabytes < 2 ^ 64) :
    (∃ drive' debits, drive.dataModificationCancel modification.id = some (drive', debits) ∧
      paid debits ≤ 2 * modification.expectedUploadSizeMegabytes * drive.replicatorCount.toNat) ↔
      drive.replicators.Nonempty ∨ modification.expectedUploadSizeMegabytes = 0 ∨
        2 ^ 64 ≤ modification.expectedUploadSizeMegabytes +
          2 * modification.expectedUploadSizeMegabytes * drive.replicatorCount.toNat := by
  obtain ⟨drive', hcancel⟩ : ∃ drive', drive.dataModificationCancel modification.id =
      some (drive', drive.cancellationDebits modification modification) := by
    rw [BcDriveEntry.dataModificationCancel, hfront, find?_cons_of_pos (by simp)]
    exact ⟨_, rfl⟩
  obtain ⟨missing, hmissing⟩ := Nat.exists_eq_add_of_le hcount
  simp only [hcancel, Option.some.injEq, Prod.mk.injEq, ↓existsAndEq, true_and]
  rw [BcDriveEntry.cancellationDebits, if_pos rfl, sizeSub_of_le hcount, hmissing, Nat.add_sub_cancel_left]
  simp only [paid, map_append, map_map, Function.comp_def, map_const', sum_append, sum_replicate,
    length_ascending, smul_eq_mul, map_cons, map_nil, sum_singleton]
  generalize modification.expectedUploadSizeMegabytes = size at *
  rcases drive.replicators.eq_empty_or_nonempty with hnone | hsome
  · simp only [hnone, Finset.card_empty, zero_mul, zero_add, Finset.not_nonempty_empty, false_or]
    generalize 2 * size * missing = refund
    omega
  · have hreplicator : (size + size * (drive.replicators.card - 1) % 2 ^ 64 / drive.replicators.card) % 2 ^ 64 ≤
        size + size * (drive.replicators.card - 1) / drive.replicators.card :=
      (Nat.mod_le _ _).trans (Nat.add_le_add_left (Nat.div_le_div_right (Nat.mod_le _ _)) _)
    have hall := Nat.add_le_add (Nat.mul_le_mul_left drive.replicators.card hreplicator)
      (Nat.mod_le (size + 2 * size * missing) (2 ^ 64))
    exact iff_of_true (hall.trans (work_add_refund_le hsome.card_pos missing)) (.inl hsome)

def emptyDrive (replicators : Finset Key) : BcDriveEntry where
  key := 1
  owner := 2
  replicatorCount := 4
  replicators
  activeDataModifications := [⟨7, 10, 10, true⟩]

theorem cancellation_covered_by_deposit_pair : ∃ drive' debits,
    (emptyDrive {3, 4}).dataModificationCancel 7 = some (drive', debits) ∧ paid debits ≤ 2 * 10 * 4 :=
  (@cancellation_covered_by_deposit_iff (emptyDrive {3, 4}) _ _ rfl (by decide) (by decide)).mpr (by decide)

theorem cancellation_exceeds_deposit :
    ((emptyDrive ∅).dataModificationCancel 7).map (fun result => paid result.2) = some 90 := by
  decide +kernel

end XpxChain.Storage
