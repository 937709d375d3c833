import XpxChain.Storage.UploadWork

/-! What the uploaders of a modification are paid for their work. -/

namespace XpxChain.Storage.UploadWork

open Std Library OrderedContainers Exceptions

variable {n : UploadWork} {drive : BcDriveEntry} {driveCache : BcDriveCache} {work : Key → Key → Option ℕ}
  {i j next : ℕ} {key : Key} {shards : ModificationShardInfo}

/-- The increments of all rows are in one vector; `next` is the position of `pOpinion`. -/
structure PayState where
  increments : List ℕ
  debits : List Debit
  next : ℕ

section

variable (n) (drive : BcDriveEntry)

/-- The sizes of a row are written through a reference to the shards. -/
def payOpinion (i : ℕ) :
    ModificationShardInfo × PayState → ℕ → Except UploadWorkError (ModificationShardInfo × PayState)
  | (shards, s), j =>
    if n.presentOpinions (n.cell i j) then do
      let judgedKey ← n.judgedKey j
      let opinion := (n.opinions s.next).val
      let increments := s.increments.modify j fun bytes => (bytes + sizeSub opinion (shards.upload judgedKey)) % 2 ^ 64
      match increments[i]? with
      | none => throw .outOfRange
      | some bytes => return (shards.setUpload judgedKey opinion,
          ⟨increments, s.debits ++ [⟨drive.key, judgedKey, bytes / 2 ^ 20⟩], s.next + 1⟩)
    else return (shards, s)

def payOpinions : BcDriveEntry × PayState → ℕ → Except UploadWorkError (BcDriveEntry × PayState)
  | (drive, s), i => do
    let (judgingKey, shards) ← n.shards drive i
    let (shards, s) ← (List.range n.totalJudgedKeysCount).foldlM (n.payOpinion drive i) (shards, s)
    return ({ drive with dataModificationShards := drive.dataModificationShards.insert judgingKey shards }, s)

def observe (driveCache : BcDriveCache) : Except UploadWorkError (BcDriveCache × List Debit) :=
  match driveCache[n.driveKey]? with
  | none => throw .outOfRange
  | some drive => do
    let (drive, s) ← (List.range n.totalJudgingKeysCount).foldlM n.payOpinions
      (drive, ⟨List.replicate n.totalJudgedKeysCount 0, [], 0⟩)
    return (driveCache.insert n.driveKey drive, s.debits)

def opinion (i j : ℕ) : ℕ := n.opinions (opinionsBefore n.presentOpinions (n.cell i j))

/-- What an opinion adds to the upload that is recorded in the shards. -/
def increment (i j : ℕ) : ℕ :=
  match n.shards drive i, n.judgedKey j with
  | .ok (_, shards), .ok judgedKey =>
    if n.presentOpinions (n.cell i j) then n.opinion i j - shards.upload judgedKey else 0
  | _, _ => 0

/-- The increments on the judged key `j` in the rows before `i`. -/
def column (i j : ℕ) : ℕ := ∑ row ∈ Finset.range i, n.increment drive row j

/-- For an opinion of row `i` the uploader gets what has come up so far in the column with the number of the row. -/
def payment (i j : ℕ) : ℕ :=
  if n.presentOpinions (n.cell i j) then
    (n.column drive i i + if i ≤ j then n.increment drive i i else 0) % 2 ^ 64 / 2 ^ 20
  else 0

end

def paidTo (key : Key) (debits : List Debit) : ℕ := paid (debits.filter (·.creditor = key))

lemma paidTo_append_singleton {debits : List Debit} {debit : Debit} :
    paidTo key (debits ++ [debit]) = paidTo key debits + if debit.creditor = key then debit.amount else 0 := by
  by_cases h : debit.creditor = key <;> simp [paidTo, paid, h]

lemma index_unique (hkeys : n.publicKeys.Nodup) (hi : n.key i = .ok key) (hj : n.key j = .ok key) : i = j := by
  rw [key_eq_ok] at hi hj
  exact (List.getElem?_inj (List.getElem?_eq_some_iff.mp hi).1 hkeys).mp (hi.trans hj.symm)

/-- The opinion is about a key that the shards or the owner's upload account for, and is not below the recorded upload.
-/
structure AcceptedOpinion (n : UploadWork) (drive : BcDriveEntry) (shards : ModificationShardInfo) (i j : ℕ)
    (key : Key) : Prop where
  key_eq : n.judgedKey j = .ok key
  known : shards.IsMember key ∨ key = drive.owner
  upload_le : shards.upload key ≤ n.opinion i j

def AcceptedRow (n : UploadWork) (drive : BcDriveEntry) (shards : ModificationShardInfo) (i : ℕ) : Prop :=
  ∀ j < n.totalJudgedKeysCount, n.presentOpinions (n.cell i j) → ∃ key, n.AcceptedOpinion drive shards i j key

lemma opinionsBefore_cell : opinionsBefore n.presentOpinions (n.cell i (j + 1)) =
    opinionsBefore n.presentOpinions (n.cell i j) + if n.presentOpinions (n.cell i j) then 1 else 0 :=
  opinionsBefore_succ _ _

section

variable {s : PayState} {row : ModificationShardInfo}

/-- The increments and the payments after the rows before `i` and the cells of row `i` before `j`. -/
structure Paid (n : UploadWork) (drive : BcDriveEntry) (i j : ℕ) (s : PayState) : Prop where
  increments : ∀ k, s.increments[k]? = if k < n.totalJudgedKeysCount then
    some ((n.column drive i k + if k < j then n.increment drive i k else 0) % 2 ^ 64) else none
  debits : ∀ k < n.totalJudgedKeysCount, ∀ key, n.judgedKey k = .ok key → paidTo key s.debits =
    ∑ row ∈ Finset.range i, n.payment drive row k + if k < j then n.payment drive i k else 0
  next : s.next = opinionsBefore n.presentOpinions (n.cell i j)

/-- The uploads of the cells from `j` on are those that were recorded before the row. -/
structure Unread (n : UploadWork) (shards : ModificationShardInfo) (i j : ℕ) (row : ModificationShardInfo) : Prop where
  isMember : ∀ key, row.IsMember key ↔ shards.IsMember key
  upload : ∀ k < n.totalJudgedKeysCount, j ≤ k → n.presentOpinions (n.cell i k) → ∀ key, n.judgedKey k = .ok key →
    row.upload key = shards.upload key

lemma Unread.setUpload (hrow : n.AcceptedRow drive shards i) (hkeys : n.publicKeys.Nodup) (h : n.Unread shards i j row)
    (ha : n.AcceptedOpinion drive shards i j key) (bytes : ℕ) :
    n.Unread shards i (j + 1) (row.setUpload key bytes) where
  isMember other := ModificationShardInfo.isMember_setUpload.trans (h.isMember other)
  upload k hk hjk hp other hother := by
    have hne : other ≠ key := by
      rintro rfl
      have := index_unique hkeys hother ha.key_eq
      omega
    rw [ModificationShardInfo.upload_setUpload_of_ne hne, h.upload k hk (by omega) hp other hother]
    obtain ⟨other', ho⟩ := hrow k hk hp
    obtain rfl := Except.ok.inj (hother.symm.trans ho.key_eq)
    rw [h.isMember, h.isMember]
    -- Only one of the two keys can be that of the owner, which has no entry in the shards.
    rcases ha.known with hmem | rfl
    · exact .inl hmem
    · exact .inr (ho.known.resolve_right hne)

/-- An opinion adds to its column, and the column with the number of its row is paid. -/
lemma Paid.opinion (hkeys : n.publicKeys.Nodup) (hj : j < n.totalJudgedKeysCount) (hp : n.presentOpinions (n.cell i j))
    (hkey : n.judgedKey j = .ok key) (debtor : Key) (h : n.Paid drive i j s) : n.Paid drive i (j + 1)
      ⟨s.increments.modify j fun bytes => (bytes + n.increment drive i j) % 2 ^ 64,
        s.debits ++ [⟨debtor, key, n.payment drive i j⟩], s.next + 1⟩ where
  increments k := by
    rw [List.getElem?_modify, h.increments]
    by_cases hk : k < n.totalJudgedKeysCount
    · by_cases heq : j = k
      · subst heq
        simp [hk]
      · have hiff : k < j + 1 ↔ k < j := by omega
        simp [hk, heq, hiff]
    · simp [hk]
  debits k hk other hother := by
    rw [paidTo_append_singleton, h.debits k hk other hother]
    by_cases heq : k = j
    · subst heq
      obtain rfl := Except.ok.inj (hkey.symm.trans hother)
      simp
    · have hne : key ≠ other := by
        rintro rfl
        exact heq (Nat.add_left_cancel (index_unique hkeys hother hkey))
      have hiff : k < j + 1 ↔ k < j := by omega
      simp [hne, hiff]
  next := by rw [opinionsBefore_cell, if_pos hp, h.next]

end

section

variable (hdrive : driveCache[n.driveKey]? = some drive)
include hdrive

end

end XpxChain.Storage.UploadWork
