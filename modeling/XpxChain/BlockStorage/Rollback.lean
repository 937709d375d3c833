import XpxChain.BlockStorage.RollingDisk

/-! A rollback can be stopped anywhere and finished later. -/

namespace XpxChain.BlockStorage

open Library BinaryFormats DurablePrograms OrderedContainers Meets BlockChunkIndexEntry List

variable {mode : FileBlockStorageMode} {disk disk' : Disk} {blocks : List BlockElement}
  {entries : ℕ → BlockChunkIndexEntry} {target : ℕ} {temporary : ℕ → Option Bytes} {environment : Environment}

/-- The pieces of the blocks in one chunk file end at `size` or before. -/
def EndsWithin (mode : FileBlockStorageMode) (blocks : List BlockElement) (entries : ℕ → BlockChunkIndexEntry)
    (directoryId : ℕ) (file : ChunkFile) (size : ℕ) : Prop :=
  ∀ height element, BlockAt blocks height element → directoryIdAt height = directoryId →
    ∀ piece ∈ pieces mode height element (entries height), piece.1 = file → piece.2.1 + piece.2.2.length ≤ size

section

variable (h : Rolling mode blocks entries target temporary disk)
include h

namespace Rolling

variable {directoryId : ℕ} {file : ChunkFile}

lemma meets_resizeFile {size : ℕ} {content : Bytes} (hf : file ≠ .hashesDat)
    (hc : disk.file (.inChunk directoryId file) = some content) (hsz : size ≤ content.length)
    (he : EndsWithin mode (blocks.take target) entries directoryId file size) (message : String) :
    Meets (resizeFile (.inChunk directoryId file) size message) (Rolling mode blocks entries target temporary)
      (fun _ => Rolling mode blocks entries target temporary) disk := by
  have hput : Rolling mode blocks entries target temporary
      (disk.put (.inChunk directoryId file) (resized content size)) := by
    refine h.put (h.keeps.put hf ?_)
    intro height element hblk hdir piece hp heq hold
    rw [hc] at hold
    rw [resized_of_le hsz]
    exact hold.take (he height element hblk hdir piece hp heq)
  refine bind (query rfl ?_)
  rw [hc]
  exact change hput hput

lemma meets_clearFile (hfi : file ≠ .hashesDat)
    (he : EndsWithin mode (blocks.take target) entries directoryId file 0) (message : String) :
    Meets (clearFile (.inChunk directoryId file) message) (Rolling mode blocks entries target temporary)
      (fun _ => Rolling mode blocks entries target temporary) disk := by
  refine bind (query rfl (ite (fun hf => ?_) fun _ => pure h))
  obtain ⟨content, hc⟩ := Option.isSome_iff_exists.mp hf
  exact h.meets_resizeFile hfi hc (Nat.zero_le _) he message

lemma meets_truncateBlocks (hpos : 0 < target) (hle : target ≤ blocks.length) (message : String) :
    Meets (resizeFile (chunkPath target .blocksDat) (entries target).blockEnd message)
      (Rolling mode blocks entries target temporary)
      (fun _ => Rolling mode blocks entries target temporary) disk := by
  obtain ⟨element, hblk⟩ := exists_target hpos hle
  have hh := h.keeps.block hblk
  obtain ⟨content, hc⟩ := Option.isSome_iff_exists.mp hh.isRegularFile
  have hend := hh
  rw [hc] at hend
  refine h.meets_resizeFile (by simp) hc ?_ ?_ message
  · have hlen := hend.length_le
    rwa [← h.keeps.layout.blockSize target element hblk] at hlen
  · intro height other hoth hdir piece hp hf
    obtain ⟨hat, hht⟩ := blockAt_take.mp hoth
    have hl := h.keeps.layout.blockEnd_le (by rw [length_take]; omega) hat.1 hht hdir
    rcases mem_pieces.mp hp with rfl | rfl | ⟨-, rfl⟩ | ⟨-, rfl⟩ <;> try cases hf
    rwa [blockEnd, h.keeps.layout.blockSize height other hoth] at hl

lemma meets_truncateStatements (hle : target ≤ blocks.length) :
    Meets (truncateStatements target (statementsEnd entries (directoryIdAt target) target))
      (Rolling mode blocks entries target temporary) (fun _ => Rolling mode blocks entries target temporary) disk := by
  have hlen : target ≤ (blocks.take target).length := by
    rw [length_take]
    omega
  have he : EndsWithin mode (blocks.take target) entries (directoryIdAt target) .statementsDat
      (statementsEnd entries (directoryIdAt target) target) := by
    intro height element hblk hdir piece hpi hfi
    rcases mem_pieces.mp hpi with rfl | rfl | ⟨hso, rfl⟩ | ⟨-, rfl⟩ <;> try cases hfi
    obtain ⟨hat, hht⟩ := blockAt_take.mp hblk
    have hsz := h.keeps.layout.stmtSize height element hblk
    have hp : 0 < (entries height).stmtSize := by
      obtain ⟨statement, hs⟩ := Option.isSome_iff_exists.mp hso
      rw [hsz, statementData, hs]
      exact length_writeBlockStatement statement
    have hl := h.keeps.layout.stmtEnd_le hlen le_rfl hat.1 hht hdir hp
    rwa [stmtEnd, hsz] at hl
  refine ite (fun hpos => ?_) fun hz => ?_
  · obtain ⟨hf, hsz⟩ := h.keeps.statementsEnd_le hlen hpos
    obtain ⟨content, hc⟩ := Option.isSome_iff_exists.mp hf
    rw [fileSize, hc] at hsz
    exact h.meets_resizeFile (by simp) hc hsz he _
  · rw [Nat.eq_zero_of_not_pos hz] at he
    exact h.meets_clearFile (by simp) he _

lemma meets_zeroIndexFrom (hpos : 0 < target) (hle : target ≤ blocks.length) :
    Meets (zeroIndexFrom (chunkPath target .blocksIdx) ((indexAt target + 1) * BlockChunkIndexEntry.size))
      (Rolling mode blocks entries target temporary) (fun _ => Rolling mode blocks entries target temporary) disk := by
  obtain ⟨element, hblk⟩ := exists_target hpos hle
  obtain ⟨content, hc⟩ := Option.isSome_iff_exists.mp (h.keeps.entry hblk).isRegularFile
  have ht : disk.touch (chunkPath target .blocksIdx) = disk := by simp [Disk.touch, hc]
  refine bind (meets_openReadAppend (.inl (by simp [hc])) (ht.symm ▸ h) ?_)
  rw [ht, hc]
  refine ite (fun hlt => ?_) fun _ => pure h
  refine bind (meets_seek hlt.le ?_)
  have hput : Rolling mode blocks entries target temporary (disk.put (chunkPath target .blocksIdx)
      (overwrite content ((indexAt target + 1) * size)
        (replicate (content.length - (indexAt target + 1) * size) 0))) := by
    refine h.put (h.keeps.put (by simp) ?_)
    intro height other hoth hdir piece hp hf hold
    rcases mem_pieces.mp hp with rfl | rfl | ⟨-, rfl⟩ | ⟨-, rfl⟩ <;> try cases hf
    rw [chunkPath] at hc
    rw [hc] at hold
    refine hold.overwrite_after ?_
    have hidx : indexAt height ≤ indexAt target := by
      have hht := (blockAt_take.mp hoth).2
      simp only [indexAt, directoryIdAt, filesPerDirectory] at *
      omega
    rw [length_toBytes, ← Nat.succ_mul]
    exact Nat.mul_le_mul_right _ (Nat.succ_le_succ hidx)
  exact bind (meets_write ⟨rfl, rfl, hc⟩ hlt.le hput fun _ _ => pure hput)

lemma meets_truncateRetainedChunk (hle : target ≤ blocks.length) :
    Meets (truncateRetainedChunk (headerFor entries target blocks.length))
      (Rolling mode blocks entries target temporary)
      (fun _ => Rolling mode blocks entries target temporary) disk := by
  refine ite (fun hz => ?_) fun hpos => ite (fun hi => ?_) fun _ => pure h
  · have hn : ∀ directoryId file, EndsWithin mode (blocks.take target) entries directoryId file 0 := by
      intro directoryId file height element hblk
      obtain ⟨hat, hht⟩ := blockAt_take.mp hblk
      have ht : target = 0 := hz
      have := hat.1
      omega
    refine bind ((h.meets_clearFile (by simp) (hn _ _) _).mono fun _ d h => ?_)
    refine bind ((h.meets_clearFile (by simp) (hn _ _) _).mono fun _ d h => ?_)
    exact h.meets_clearFile (by simp) (hn _ _) _
  · have hp : 0 < target := Nat.pos_of_ne_zero hpos
    have hb : (headerFor entries target blocks.length).targetBlockEnd = (entries target).blockEnd := if_pos ⟨hpos, hi⟩
    have hs : (headerFor entries target blocks.length).targetStmtEnd =
        statementsEnd entries (directoryIdAt target) target :=
      if_pos ⟨hpos, hi⟩
    have hidx : (headerFor entries target blocks.length).targetIndex = indexAt target + 1 := if_neg hpos
    rw [hb, hs, hidx]
    refine bind ((h.meets_truncateBlocks hp hle _).mono fun _ d h => ?_)
    refine bind ((h.meets_truncateStatements hle).mono fun _ d h => ?_)
    exact h.meets_zeroIndexFrom hp hle

lemma setIndex (hf : ∀ path ≠ .indexDat, disk'.file path = disk.file path)
    (hidx : IndexHolds disk' blocks.length ∨ IndexHolds disk' target) :
    Rolling mode blocks entries target temporary disk' where
  keeps := h.keeps.congr (fun height element _ file => hf _ (by simp [chunkPath])) (hf _ (by simp))
  index := hidx
  journal := (hf _ (by simp)).trans h.journal
  temporary_eq name := (hf _ (by simp)).trans (h.temporary_eq name)

lemma meets_indexFile_set (hta : target < 2 ^ 64) :
    Meets (IndexFile.set target) (Rolling mode blocks entries target temporary)
      (fun _ d => Rolling mode blocks entries target temporary d ∧ IndexHolds d target) disk := by
  have ht : ∀ path ≠ .indexDat, (disk.touch .indexDat).file path = disk.file path := by
    intro path hp
    rw [Disk.file_touch, if_neg (Ne.symm hp)]
  have hidx : IndexHolds ((disk.touch .indexDat).put .indexDat (littleEndian 8 target)) target := indexHolds_put hta
  have hput : Rolling mode blocks entries target temporary
      ((disk.touch .indexDat).put .indexDat (littleEndian 8 target)) := by
    refine h.setIndex (fun path hp => ?_) (.inr hidx)
    rw [Disk.file_put, if_neg (Ne.symm hp), ht path hp]
  obtain ⟨old, hold⟩ : ∃ old, IndexHolds disk old := h.index.elim (⟨_, ·⟩) (⟨_, ·⟩)
  exact BlockStorage.meets_indexFile_set hold (h.setIndex ht (h.index.imp IndexHolds.touch IndexHolds.touch))
    hput ⟨hput, hidx⟩

lemma meets_removeAll (hidx : IndexHolds disk target) (hdir : directoryIdAt target < directoryId) :
    Meets (removeAll environment directoryId) (Rolling mode blocks entries target temporary)
      (fun _ d => Rolling mode blocks entries target temporary d ∧ IndexHolds d target) disk := by
  refine bind (query rfl (bind ?_))
  refine forM (I := fun rest d => (∀ path ∈ rest, path.isInDirectory directoryId) ∧
    Rolling mode blocks entries target temporary d ∧ IndexHolds d target) ⟨?_, h, hidx⟩ ?_ ?_
  · intro path hp
    exact (mem_filter.mp ((environment.listFiles_perm _).mem_iff.mp hp)).2
  · rintro path rest d ⟨hrs, hr, hd⟩
    have hp := hrs path mem_cons_self
    cases path with
    | inChunk id file =>
      obtain rfl : id = directoryId := by simpa [Path.isInDirectory] using hp
      have hde := hr.delete file hdir
      exact change hde ⟨fun path hp => hrs path (mem_cons_of_mem _ hp), hde, hd.congr (by simp)⟩
    | _ => simp [Path.isInDirectory] at hp
  · rintro d ⟨-, hr, hd⟩
    have hre : Rolling mode blocks entries target temporary (d.removeDirectory directoryId) :=
      hr.congr fun path _ => rfl
    exact change hre ⟨hre, hd.congr rfl⟩

lemma meets_purgeFutureChunks (hidx : IndexHolds disk target) :
    Meets (purgeFutureChunks environment (directoryIdAt target)) (Rolling mode blocks entries target temporary)
      (fun _ d => Rolling mode blocks entries target temporary d ∧ IndexHolds d target) disk := by
  refine bind (query rfl ?_)
  refine forM (I := fun rest d => (∀ id ∈ rest, directoryIdAt target < id) ∧
    Rolling mode blocks entries target temporary d ∧ IndexHolds d target) ⟨?_, h, hidx⟩ ?_ fun d hd => hd.2
  · intro id hid
    have hf := (mem_filter.mp hid).2
    simp only [isFutureChunk, decide_eq_true_eq] at hf
    exact hf.2
  · rintro id rest d ⟨hre, hr, hd⟩
    exact (hr.meets_removeAll hd (hre id mem_cons_self)).mono fun _ d' hd' =>
      ⟨fun id hid => hre id (mem_cons_of_mem _ hid), hd'⟩

theorem meets_applyRollbackOperations (hle : target ≤ blocks.length) (ht : target < 2 ^ 64) :
    Meets (applyRollbackOperations environment (headerFor entries target blocks.length))
      (Rolling mode blocks entries target temporary)
      (fun _ d => Rolling mode blocks entries target temporary d ∧ IndexHolds d target) disk := by
  refine bind (query (h.validate_eq_ok hle) ?_)
  refine bind ((h.meets_truncateRetainedChunk hle).mono fun _ d h => ?_)
  refine bind ((h.meets_indexFile_set ht).mono fun _ d h => ?_)
  exact h.1.meets_purgeFutureChunks h.2

end Rolling

end

end XpxChain.BlockStorage
