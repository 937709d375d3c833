import XpxChain.BlockStorage.Rollback

/-! Dropping blocks, and what the next start of the storage makes of a drop that was stopped. -/

namespace XpxChain.BlockStorage

open Library BinaryFormats DurablePrograms OrderedContainers Meets

variable {mode : FileBlockStorageMode} {disk disk' : Disk} {blocks : List BlockElement}
  {entries : ℕ → BlockChunkIndexEntry} {target : ℕ} {temporary : ℕ → Option Bytes} {environment : Environment}

structure AtRest (mode : FileBlockStorageMode) (blocks : List BlockElement) (entries : ℕ → BlockChunkIndexEntry)
    (disk : Disk) : Prop where
  keeps : Keeps mode disk blocks entries
  index : IndexHolds disk blocks.length
  journal : disk.file .rollbackJournal = none

def NoTemporaryJournal (disk : Disk) : Prop := ∀ name, disk.file (.temporaryJournal name) = none

def Stopped (mode : FileBlockStorageMode) (blocks : List BlockElement) (entries : ℕ → BlockChunkIndexEntry) (target : ℕ)
    (disk : Disk) : Prop :=
  AtRest mode blocks entries disk ∨ (∃ temporary, Rolling mode blocks entries target temporary disk) ∨
    AtRest mode (blocks.take target) entries disk

def Path.isBookkeeping : Path → Bool
  | .rollbackLock => true
  | .temporaryJournal _ => true
  | _ => false

lemma AtRest.congr (h : AtRest mode blocks entries disk)
    (hf : ∀ path, path.isBookkeeping = false → disk'.file path = disk.file path) :
    AtRest mode blocks entries disk' where
  keeps := h.keeps.congr (fun _ _ _ _ => hf _ rfl) (hf _ rfl)
  index := h.index.congr (hf _ rfl)
  journal := (hf _ rfl).trans h.journal

lemma Rolling.congr_bookkeeping (h : Rolling mode blocks entries target temporary disk)
    (hf : ∀ path, path.isBookkeeping = false → disk'.file path = disk.file path) :
    Rolling mode blocks entries target (fun name => disk'.file (.temporaryJournal name)) disk' where
  keeps := h.keeps.congr (fun _ _ _ _ => hf _ rfl) (hf _ rfl)
  index := h.index.imp (·.congr (hf _ rfl)) (·.congr (hf _ rfl))
  journal := (hf _ rfl).trans h.journal
  temporary_eq _ := rfl

section

variable {P : Disk → Prop}
  (hP : ∀ d d' : Disk, (∀ path, path.isBookkeeping = false → d'.file path = d.file path) → P d → P d') (h : P disk)
include hP h

lemma meets_acquireRollbackLock : Meets acquireRollbackLock P
    (fun _ d => P d ∧ ∀ path ≠ .rollbackLock, d.file path = disk.file path) disk := by
  refine bind (query rfl (ite (fun _ => pure ⟨h, fun _ _ => rfl⟩) fun _ => ?_))
  have hput : P (disk.put .rollbackLock []) := by
    refine hP disk _ (fun path hp => ?_) h
    rw [Disk.file_put, if_neg]
    rintro rfl
    cases hp
  refine change hput ⟨hput, fun path hp => ?_⟩
  rw [Disk.file_put, if_neg (Ne.symm hp)]

lemma meets_removeTemporaryJournals :
    Meets (removeTemporaryJournals environment) P (fun _ d => P d ∧ NoTemporaryJournal d) disk := by
  refine bind (query rfl ?_)
  -- the temporary journals that are still there are among those that are left to remove
  refine forM (I := fun rest d => (∀ path ∈ rest, path.isTemporaryJournal) ∧ P d ∧
    ∀ name, d.file (.temporaryJournal name) ≠ none → .temporaryJournal name ∈ rest) ⟨?_, h, ?_⟩ ?_ ?_
  · intro path hp
    exact (List.mem_filter.mp ((environment.listFiles_perm _).mem_iff.mp hp)).2
  · intro name hn
    refine (environment.listFiles_perm _).mem_iff.mpr (List.mem_filter.mpr ⟨?_, rfl⟩)
    rw [Disk.file] at hn
    simpa using hn
  · rintro path rest d ⟨hr, hd, hl⟩
    have hde : P (d.delete path) := by
      refine hP d _ (fun other hoth => ?_) hd
      rw [Disk.file_delete, if_neg]
      rintro rfl
      cases path <;> simp_all [Path.isTemporaryJournal, Path.isBookkeeping]
    refine change hde ⟨fun path hp => hr path (List.mem_cons_of_mem _ hp), hde, fun name hn => ?_⟩
    rw [Disk.file_delete] at hn
    split_ifs at hn with heq
    · exact absurd rfl hn
    · exact (List.mem_cons.mp (hl name hn)).resolve_left (Ne.symm heq)
  · rintro d ⟨-, hd, hl⟩
    refine ⟨hd, fun name => ?_⟩
    by_contra hn
    exact List.not_mem_nil (hl name hn)

end

lemma Stopped.congr (h : Stopped mode blocks entries target disk)
    (hf : ∀ path, path.isBookkeeping = false → disk'.file path = disk.file path) :
    Stopped mode blocks entries target disk' :=
  h.imp (·.congr hf) (Or.imp (fun ⟨_, h⟩ => ⟨_, h.congr_bookkeeping hf⟩) (·.congr hf))

lemma Rolling.meets_removeJournal (h : Rolling mode blocks entries target temporary disk)
    (hidx : IndexHolds disk target) (hle : target ≤ blocks.length) :
    Meets removeJournal (Stopped mode blocks entries target) (fun _ d => AtRest mode (blocks.take target) entries d ∧
      ∀ name, d.file (.temporaryJournal name) = temporary name) disk := by
  have hr : AtRest mode (blocks.take target) entries (disk.delete .rollbackJournal) := by
    refine ⟨h.keeps.congr (fun height element _ file => by simp [chunkPath]) (by simp), ?_, by simp⟩
    rw [List.length_take, min_eq_left hle]
    exact hidx.congr (by simp)
  exact change (.inr (.inr hr)) ⟨hr, fun name => by simpa using h.temporary_eq name⟩

lemma Rolling.meets_rest (h : Rolling mode blocks entries target temporary disk) (hle : target ≤ blocks.length)
    (hlen : blocks.length < 2 ^ 64) :
    Meets (applyRollbackOperations environment (headerFor entries target blocks.length) >>= fun _ => removeJournal)
      (Stopped mode blocks entries target) (fun _ d => AtRest mode (blocks.take target) entries d ∧
        ∀ name, d.file (.temporaryJournal name) = temporary name) disk := by
  have hs : ∀ d, Rolling mode blocks entries target temporary d → Stopped mode blocks entries target d :=
    fun d hd => .inr (.inl ⟨_, hd⟩)
  refine bind (((h.meets_applyRollbackOperations hle (by omega)).weaken hs).mono fun _ d hd => ?_)
  exact hd.1.meets_removeJournal hd.2 hle

section

variable (h : AtRest mode blocks entries disk)
include h

lemma AtRest.rolling (target : ℕ) (disk' : Disk)
    (hf : ∀ path, path.isBookkeeping = false → path ≠ .rollbackJournal → disk'.file path = disk.file path)
    (hj : disk'.file .rollbackJournal = some (headerFor entries target blocks.length).toBytes) :
    Rolling mode blocks entries target (fun name => disk'.file (.temporaryJournal name)) disk' where
  keeps :=
    (h.keeps.take target).congr (fun height element _ file => hf _ rfl (by simp [chunkPath])) (hf _ rfl (by simp))
  index := .inl (h.index.congr (hf _ rfl (by simp)))
  journal := hj
  temporary_eq _ := rfl

lemma AtRest.meets_publishJournal (target : ℕ)
    (htmp : ∀ name ≠ environment.temporaryName, disk.file (.temporaryJournal name) = none) :
    Meets (publishJournal environment (headerFor entries target blocks.length)) (Stopped mode blocks entries target)
      (fun _ d => Rolling mode blocks entries target (fun _ => none) d) disk := by
  set header := headerFor entries target blocks.length
  have hp : Rolling mode blocks entries target (fun _ => none)
      ((disk.put .rollbackJournal header.toBytes).delete (.temporaryJournal environment.temporaryName)) := by
    convert h.rolling target
      ((disk.put .rollbackJournal header.toBytes).delete (.temporaryJournal environment.temporaryName))
      ?_ (by simp [header]) using 2 with name
    · by_cases hn : name = environment.temporaryName
      · simp [hn]
      · simp [Ne.symm hn, htmp name hn]
    · intro path hpa hj
      rw [Disk.file_delete, Disk.file_put, if_neg, if_neg (Ne.symm hj)]
      rintro rfl
      cases hpa
  refine ite (fun _ => ?_) fun _ => change (.inr (.inl ⟨_, hp⟩)) hp
  have hl := h.rolling target (disk.put .rollbackJournal header.toBytes)
    (fun path _ hj => by rw [Disk.file_put, if_neg (Ne.symm hj)]) (by simp [header])
  exact bind (change (.inr (.inl ⟨_, hl⟩)) (change (.inr (.inl ⟨_, hp⟩)) hp))

lemma AtRest.meets_writeRollbackJournal (target : ℕ) (htmp : NoTemporaryJournal disk) :
    Meets (writeRollbackJournal environment (headerFor entries target blocks.length))
      (Stopped mode blocks entries target)
      (fun _ d => Rolling mode blocks entries target (fun _ => none) d) disk := by
  have hput : ∀ d content, AtRest mode blocks entries d →
      AtRest mode blocks entries (d.put (.temporaryJournal environment.temporaryName) content) := by
    intro d content hd
    refine hd.congr fun path hp => ?_
    rw [Disk.file_put, if_neg]
    rintro rfl
    cases hp
  refine bind (query rfl ?_)
  rw [isRegularFile, h.journal]
  refine bind (change (.inl (hput _ _ h)) (bind (change (.inl (hput _ _ (hput _ _ h))) ?_)))
  refine (hput _ _ (hput _ _ h)).meets_publishJournal target fun name hn => ?_
  simp [Ne.symm hn, htmp name]

variable {transactionCount : Bytes → ℕ} {storage : FileBlockStorage}

omit h in
lemma AtRest.length_lt (h : AtRest mode blocks entries disk) : blocks.length < 2 ^ 64 := by
  rcases h.index with ⟨-, hlt⟩ | ⟨-, hz⟩
  · exact hlt
  · omega

lemma AtRest.meets_rollBack (hle : target ≤ blocks.length) (htmp : NoTemporaryJournal disk) :
    Meets (FileBlockStorage.rollBack environment target blocks.length) (Stopped mode blocks entries target)
      (fun _ d => AtRest mode (blocks.take target) entries d ∧ NoTemporaryJournal d) disk := by
  refine bind (query (h.keeps.rollbackHeader_eq hle blocks.length) ?_)
  exact bind ((h.meets_writeRollbackJournal target htmp).mono fun _ d hd => hd.meets_rest hle h.length_lt)

theorem AtRest.meets_dropBlocksAfter (hm : storage.mode = mode) (hle : target ≤ blocks.length)
    (htmp : NoTemporaryJournal disk) :
    Meets (storage.dropBlocksAfter environment target) (Stopped mode blocks entries target)
      (fun storage' d => storage' = { mode } ∧ AtRest mode (blocks.take target) entries d ∧
        NoTemporaryJournal d) disk := by
  have hs : ∀ d, AtRest mode blocks entries d → Stopped mode blocks entries target d := fun d hd => .inl hd
  have hl := (meets_acquireRollbackLock (fun d d' hf hd => AtRest.congr hd hf) h).weaken hs
  refine bind (hl.mono fun _ d ⟨hd, hf⟩ => ?_)
  have htmp' : NoTemporaryJournal d := fun name => (hf _ (by simp)).trans (htmp name)
  refine bind (query rfl ?_)
  rw [isRegularFile, hd.journal]
  refine bind (query hd.index.chainHeight_eq ?_)
  refine ite (fun hemp => by omega) fun _ => ?_
  have hr : ∀ d', AtRest mode (blocks.take target) entries d' ∧ NoTemporaryJournal d' →
      Meets (pure { mode := storage.mode } : StorageProgram FileBlockStorage) (Stopped mode blocks entries target)
        (fun storage' d => storage' = { mode } ∧ AtRest mode (blocks.take target) entries d ∧
          NoTemporaryJournal d) d' :=
    fun d' hd' => pure ⟨by rw [hm], hd'⟩
  refine ite (fun hall => hr d ⟨?_, htmp'⟩) fun _ => ?_
  · rwa [List.take_of_length_le hall.1]
  · exact bind ((hd.meets_rollBack hle htmp').mono fun _ => hr)

end

section

theorem Stopped.meets_recoverUnfinishedRollback (h : Stopped mode blocks entries target disk)
    (hle : target ≤ blocks.length) (hlen : blocks.length < 2 ^ 64) :
    Meets (recoverUnfinishedRollback environment) (Stopped mode blocks entries target)
      (fun _ d => (AtRest mode blocks entries d ∨ AtRest mode (blocks.take target) entries d) ∧
        NoTemporaryJournal d) disk := by
  refine bind (query rfl (ite (fun _ => ?_) fun hfin => pure ?_))
  · refine bind ((meets_acquireRollbackLock (fun d d' hf hd => hd.congr hf) h).mono fun _ d hd => ?_)
    refine bind ((meets_removeTemporaryJournals (fun d d' hf hd => hd.congr hf) hd.1).mono fun _ d ⟨hd, hn⟩ => ?_)
    refine bind (query rfl ?_)
    rcases hd with hd | ⟨temporary, hd⟩ | hd
    · rw [hd.journal]
      exact pure ⟨.inl hd, hn⟩
    · rw [hd.journal]
      refine bind (query (require_eq_ok (length_toBytes_header _)) ?_)
      rw [hd.keeps.layout.ofBytes_headerFor hle hlen]
      refine (hd.meets_rest hle hlen).mono fun _ d' ⟨hd', htmp⟩ => ⟨.inr hd', fun name => ?_⟩
      rw [htmp, ← hd.temporary_eq, hn]
    · rw [hd.journal]
      exact pure ⟨.inr hd, hn⟩
  · simp only [Bool.or_eq_true, not_or, List.any_eq_true, not_exists, not_and] at hfin
    refine ⟨?_, fun name => ?_⟩
    · rcases h with h | ⟨temporary, h⟩ | h
      · exact .inl h
      · exact absurd (by rw [isRegularFile, h.journal]; rfl) hfin.1
      · exact .inr h
    · by_contra hna
      refine hfin.2 (.temporaryJournal name) ?_ rfl
      rw [Disk.file] at hna
      simpa using hna

end

end XpxChain.BlockStorage
