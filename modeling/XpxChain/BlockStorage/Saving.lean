import XpxChain.BlockStorage.ChunkWriting

/-! Saving a block puts it behind the blocks that are there. -/

namespace XpxChain.BlockStorage

open Library BinaryFormats DurablePrograms Meets Disk List Function

variable {disk : Disk} {path : Path} {file : RawFile} {content data : Bytes} {height : ℕ} {element : BlockElement}

section

variable {mode : FileBlockStorageMode} {blocks : List BlockElement} {entries : ℕ → BlockChunkIndexEntry}
  {transactionCount : Bytes → ℕ} {storage : FileBlockStorage}

lemma chunkPath_ne_of_directory {later : ℕ} (h : directoryIdAt height ≠ directoryIdAt later) (file file' : ChunkFile) :
    chunkPath height file ≠ chunkPath later file' := by
  simp [chunkPath, h]

lemma HoldsAt.contentOf {offset : ℕ} (h : HoldsAt (disk.file path) offset data) :
    HoldsAt (some (BlockStorage.contentOf path disk)) offset data := by
  obtain ⟨before, after, hf, hlen⟩ := h
  exact ⟨before, after, by rw [BlockStorage.contentOf, hf, Option.getD_some], hlen⟩

lemma length_writeBlockElement (h : element.Valid transactionCount) : 0 < (writeBlockElement element).length := by
  have := h.header
  rw [writeBlockElement, length_append]
  omega

lemma Layout.append (h : Layout blocks entries) (hht : element.height = blocks.length + 1)
    (hk : Keeps mode disk blocks entries) (hval : element.Valid transactionCount) (hf : FitsInChunk disk element) :
    Layout (blocks ++ [element]) (Function.update entries element.height (newEntry disk element)) := by
  have hold : ∀ height, height ≤ blocks.length →
      update entries element.height (newEntry disk element) height = entries height := fun height hle =>
    update_of_ne (by omega) _ _
  have hnew : update entries element.height (newEntry disk element) element.height = newEntry disk element :=
    update_self _ _ _
  have hc : ∀ (P : ℕ → BlockElement → BlockChunkIndexEntry → Prop),
      (∀ height element', BlockAt blocks height element' → P height element' (entries height)) →
      P element.height element (newEntry disk element) →
        ∀ height element', BlockAt (blocks ++ [element]) height element' →
        P height element' (update entries element.height (newEntry disk element) height) := by
    intro P hall hla height element' hblk
    rcases blockAt_append.mp hblk with hblk | ⟨hlen, rfl⟩
    · rw [hold height hblk.le_length]
      exact hall height element' hblk
    · rw [hlen, ← hht, hnew]
      exact hla
  obtain ⟨hb, hs⟩ := hf
  refine ⟨hc _ h.fits ⟨?_, ?_, ?_, ?_⟩,
    hc (fun _ element entry => entry.blockSize = (writeBlockElement element).length) h.blockSize rfl,
    hc (fun _ element entry => entry.stmtSize = (statementData element).length) h.stmtSize rfl,
    hc (fun _ _ entry => 0 < entry.blockSize) h.positive (length_writeBlockElement hval), ?_⟩
  · exact Nat.lt_of_le_of_lt (Nat.le_add_right _ _) hb
  · exact Nat.lt_of_le_of_lt (Nat.le_add_left _ _) hb
  · exact Nat.lt_of_le_of_lt (Nat.le_add_right _ _) hs
  · exact Nat.lt_of_le_of_lt (Nat.le_add_left _ _) hs
  · intro height later hpos hlt hle hdir
    rw [length_append, length_singleton] at hle
    rw [hold height (by omega)]
    rcases Nat.lt_or_eq_of_le hle with hl | rfl
    · rw [hold later (by omega)]
      exact h.ordered height later hpos hlt (by omega) hdir
    · -- The new block starts where the files of its chunk ended.
      obtain ⟨element', hblk⟩ := exists_blockAt hpos (show height ≤ blocks.length by omega)
      have hp : ∀ file, chunkPath height file = chunkPath element.height file := by
        intro file
        rw [chunkPath, chunkPath, hht, hdir]
      rw [← hht, hnew]
      constructor
      · have hend := (hk.block hblk).contentOf.length_le
        rw [← h.blockSize height element' hblk, hp] at hend
        exact hend.trans (Nat.le_add_right _ _)
      · intro hsz _
        have hso : element'.optionalStatement.isSome := by
          rw [h.stmtSize height element' hblk, statementData] at hsz
          cases hst : element'.optionalStatement with
          | none => simp [hst] at hsz
          | some statement => rfl
        have hend := (hk.statement hblk hso).contentOf.length_le
        rw [← h.stmtSize height element' hblk, hp] at hend
        exact hend.trans (Nat.le_add_right _ _)

structure BlockSaved (mode : FileBlockStorageMode) (disk disk' : Disk) (element : BlockElement) : Prop where
  blocks : disk'.file (chunkPath element.height .blocksDat) =
    some (contentOf (chunkPath element.height .blocksDat) disk ++ writeBlockElement element)
  statements : disk'.file (chunkPath element.height .statementsDat) =
    some (contentOf (chunkPath element.height .statementsDat) disk ++ statementData element)
  entry : HoldsAt (disk'.file (chunkPath element.height .blocksIdx))
    (indexAt element.height * BlockChunkIndexEntry.size)
    (newEntry disk element).toBytes
  index : ∀ offset data, offset + data.length ≤ indexAt element.height * BlockChunkIndexEntry.size →
    HoldsAt (disk.file (chunkPath element.height .blocksIdx)) offset data →
      HoldsAt (disk'.file (chunkPath element.height .blocksIdx)) offset data
  hash : mode = .hashIndex → disk'.file (chunkPath element.height .hashesDat) =
    some (overwrite (contentOf (chunkPath element.height .hashesDat) disk) (indexAt element.height * 32)
      element.entityHash)
  others : ∀ height file, directoryIdAt height ≠ directoryIdAt element.height →
    disk'.file (chunkPath height file) = disk.file (chunkPath height file)

variable {disk' : Disk}

lemma mem_pieces {entry : BlockChunkIndexEntry} {piece : ChunkFile × ℕ × Bytes} :
    piece ∈ pieces mode height element entry ↔
    piece = (.blocksIdx, indexAt height * BlockChunkIndexEntry.size, entry.toBytes) ∨
      piece = (.blocksDat, entry.blockOffset, writeBlockElement element) ∨
      element.optionalStatement.isSome ∧ piece = (.statementsDat, entry.stmtOffset, statementData element) ∨
      mode = .hashIndex ∧ piece = (.hashesDat, indexAt height * 32, element.entityHash) := by
  simp only [pieces, mem_append, mem_cons, mem_ite_nil_right, not_mem_nil, or_false]
  tauto

lemma BlockSaved.keeps_old (hs : BlockSaved mode disk disk' element) (h : Keeps mode disk blocks entries)
    (hht : element.height = blocks.length + 1) (hl : ∀ element ∈ blocks, element.entityHash.length = 32) :
    Stored mode disk' blocks entries := by
  intro height element' hblk piece hp
  have hh := h.stored height element' hblk piece hp
  by_cases hdir : directoryIdAt height = directoryIdAt element.height
  · have hpa : ∀ file, chunkPath height file = chunkPath element.height file := by
      intro file
      rw [chunkPath, chunkPath, hdir]
    have hlt : indexAt height + 1 ≤ indexAt element.height :=
      indexAt_lt (by have := hblk.le_length; omega) hdir
    rw [hpa] at hh ⊢
    rcases mem_pieces.mp hp with rfl | rfl | ⟨-, rfl⟩ | ⟨hm, rfl⟩
    · refine hs.index _ _ ?_ hh
      rw [length_toBytes, ← Nat.succ_mul]
      exact Nat.mul_le_mul_right _ hlt
    · rw [hs.blocks]
      exact hh.contentOf.append
    · rw [hs.statements]
      exact hh.contentOf.append
    · rw [hs.hash hm]
      refine hh.contentOf.overwrite_after ?_
      rw [hl element' (mem_of_getElem? hblk.2), ← Nat.succ_mul]
      exact Nat.mul_le_mul_right _ hlt
  · rw [hs.others height piece.1 hdir]
    exact hh

lemma Keeps.append (h : Keeps mode disk blocks entries) (hht : element.height = blocks.length + 1)
    (hval : element.Valid transactionCount) (hl : ∀ element ∈ blocks, element.entityHash.length = 32)
    (hfi : FitsInChunk disk element) (hr : mode = .hashIndex →
      indexAt element.height * 32 ≤ (contentOf (chunkPath element.height .hashesDat) disk).length)
    (hs : BlockSaved mode disk disk' element) :
    Keeps mode disk' (blocks ++ [element]) (Function.update entries element.height (newEntry disk element)) := by
  refine ⟨h.layout.append hht h hval hfi, ?_, ?_⟩
  · intro height element' hblk
    rcases blockAt_append.mp hblk with hblk | ⟨hlen, rfl⟩
    · rw [update_of_ne (by have := hblk.le_length; omega)]
      exact hs.keeps_old h hht hl height element' hblk
    · rw [hlen, ← hht, update_self]
      intro piece hp
      rcases mem_pieces.mp hp with rfl | rfl | ⟨-, rfl⟩ | ⟨hm, rfl⟩
      · exact hs.entry
      · rw [hs.blocks]
        exact holdsAt_end
      · rw [hs.statements]
        exact holdsAt_end
      · rw [hs.hash hm]
        exact holdsAt_overwrite (hr hm)
  · intro hm
    obtain ⟨content, hf, hlen⟩ := h.hashes hm
    by_cases hdir : directoryIdAt element.height = 0
    · have hpa : chunkPath element.height .hashesDat = .inChunk 0 .hashesDat := by rw [chunkPath, hdir]
      have hh := hs.hash hm
      have hr := hr hm
      rw [hpa] at hh hr
      refine ⟨_, hh, ?_⟩
      rw [length_overwrite hr, contentOf, hf]
      exact hlen.trans (le_max_left _ _)
    · have hsa := hs.others 0 .hashesDat (by simpa [directoryIdAt] using Ne.symm hdir)
      exact ⟨content, hsa.trans hf, hlen⟩

end

structure Holds (transactionCount : Bytes → ℕ) (mode : FileBlockStorageMode) (disk : Disk)
    (blocks : List BlockElement) : Prop where
  keeps : ∃ entries, Keeps mode disk blocks entries
  index : IndexHolds disk blocks.length
  valid : ∀ element ∈ blocks, element.Valid transactionCount

structure Usable (transactionCount : Bytes → ℕ) (storage : FileBlockStorage) (disk : Disk)
    (blocks : List BlockElement) : Prop
    extends Holds transactionCount storage.mode disk blocks where
  journal : disk.file .rollbackJournal = none
  temporary : ∀ name, disk.file (.temporaryJournal name) = none
  hashFile : storage.hashFile.Consistent disk
  chunkWriter : storage.chunkWriter.Consistent disk

section

variable {transactionCount : Bytes → ℕ} {storage : FileBlockStorage} {blocks : List BlockElement} {disk' : Disk}

lemma height_lt (element : BlockElement) : element.height < 2 ^ 64 := by
  have hlt := valueOf_lt ((element.block.drop 106).take 8)
  have hlen : ((element.block.drop 106).take 8).length ≤ 8 := length_take_le _ _
  calc element.height < 256 ^ ((element.block.drop 106).take 8).length := hlt
    _ ≤ 256 ^ 8 := Nat.pow_le_pow_right (by decide) hlen
    _ = 2 ^ 64 := by norm_num

lemma ChunkWriter.Consistent.congr {writer : ChunkWriter} (h : writer.Consistent disk)
    (hf : ∀ directoryId file, file ≠ .hashesDat →
      disk'.file (.inChunk directoryId file) = disk.file (.inChunk directoryId file)) :
    writer.Consistent disk' := by
  intro chunk hc
  obtain ⟨blocks, statements, index, hb, hs, hidx⟩ := h chunk hc
  exact ⟨blocks, statements, index, hb.congr (hf _ _ (by simp)), hs.congr (hf _ _ (by simp)),
    hidx.congr (hf _ _ (by simp))⟩

lemma HashFile.Consistent.congr {hashFile : HashFile} (h : hashFile.Consistent disk)
    (hf : ∀ directoryId, disk'.file (.inChunk directoryId .hashesDat) = disk.file (.inChunk directoryId .hashesDat)) :
    hashFile.Consistent disk' := by
  intro cached hc
  obtain ⟨content, ho⟩ := h cached hc
  exact ⟨content, ho.congr (hf _)⟩

lemma meets_saveHash {hash : Hash256} (hc : storage.hashFile.Consistent disk) (hr : HashesReady storage.mode disk)
    (hre : storage.mode = .hashIndex → indexAt height * 32 ≤ (contentOf (chunkPath height .hashesDat) disk).length) :
    Meets (storage.saveHash height hash) (fun _ => True) (fun hashFile d =>
      (storage.mode = .hashIndex → HashSaved disk d height hash) ∧
        (∀ path, path ≠ chunkPath height .hashesDat → d.file path = disk.file path) ∧ hashFile.Consistent d) disk := by
  unfold FileBlockStorage.saveHash
  cases hm : storage.mode with
  | none => exact pure ⟨by simp, fun _ _ => rfl, hc⟩
  | hashIndex =>
    rw [hm] at hr
    refine (meets_hashFile_save hc hr (hre hm)).mono ?_
    rintro hashFile d ⟨hs, hc'⟩
    exact ⟨fun _ => hs, hs.others, hc'⟩

section

variable {d₁ d₂ d₃ : Disk} (ha : Appended disk d₁ element)
  (hothers₂ : ∀ path, path ≠ chunkPath element.height .hashesDat → d₂.file path = d₁.file path)
  (hsame₃ : ∀ path ≠ .indexDat, d₃.file path = d₂.file path)
include ha hothers₂ hsame₃

lemma Appended.file_eq {path : Path} (hidx : path ≠ .indexDat) (hc : ∀ file, path ≠ chunkPath element.height file) :
    d₃.file path = disk.file path := by
  rw [hsame₃ path hidx, hothers₂ path (hc _), ha.others path (hc _) (hc _) (hc _)]

/-- The files after the block, its hash and the new height have been written. -/
lemma Appended.blockSaved {mode : FileBlockStorageMode}
    (hha : mode = .hashIndex → HashSaved d₁ d₂ element.height element.entityHash) :
    BlockSaved mode disk d₃ element := by
  have hf₃ : ∀ file ≠ .hashesDat, d₃.file (chunkPath element.height file) =
      d₁.file (chunkPath element.height file) := by
    intro file hf
    rw [hsame₃ _ (by simp [chunkPath]), hothers₂ _ (by simpa [chunkPath] using hf)]
  have hco : contentOf (chunkPath element.height .hashesDat) d₁ =
      contentOf (chunkPath element.height .hashesDat) disk := by
    rw [contentOf, contentOf, ha.others _ (by simp [chunkPath]) (by simp [chunkPath]) (by simp [chunkPath])]
  refine ⟨?_, ?_, ?_, ?_, ?_, ?_⟩
  · rw [hf₃ _ (by simp)]
    exact ha.blocks
  · rw [hf₃ _ (by simp)]
    exact ha.statements
  · rw [hf₃ _ (by simp)]
    exact ha.entry
  · rw [hf₃ _ (by simp)]
    exact ha.index
  · intro hm
    rw [hsame₃ _ (by simp [chunkPath]), (hha hm).content, hco]
  · intro height file hdir
    exact ha.file_eq hothers₂ hsame₃ (by simp [chunkPath]) fun _ => chunkPath_ne_of_directory hdir _ _

end

theorem meets_saveBlock (h : Usable transactionCount storage disk blocks) (hval : element.Valid transactionCount)
    (hht : element.height = blocks.length + 1) (hfi : FitsInChunk disk element) :
    Meets (storage.saveBlock element) (fun _ => True)
      (fun storage' d => storage'.mode = storage.mode ∧
        Usable transactionCount storage' d (blocks ++ [element])) disk := by
  obtain ⟨entries, hk⟩ := h.keeps
  have hl : ∀ element ∈ blocks, element.entityHash.length = 32 := fun element hmem => (h.valid element hmem).entityHash
  have hr : storage.mode = .hashIndex →
      indexAt element.height * 32 ≤ (contentOf (chunkPath element.height .hashesDat) disk).length := by
    intro hm
    rw [hm] at hk
    rw [hht]
    exact hk.hashes_reach hl
  have hn : ¬ element.height ≠ (blocks.length + 1) % 2 ^ 64 := by
    rw [← hht, Nat.mod_eq_of_lt (height_lt element), not_not]
  refine bind (query h.index.chainHeight_eq ?_)
  rw [if_neg hn]
  refine bind ((meets_chunkWriter_save h.chunkWriter hfi).mono ?_)
  rintro writer d₁ ⟨ha, hw⟩
  have hp : ∀ directoryId, d₁.file (.inChunk directoryId .hashesDat) = disk.file (.inChunk directoryId .hashesDat) := by
    intro directoryId
    exact ha.others _ (by simp [chunkPath]) (by simp [chunkPath]) (by simp [chunkPath])
  have hco : contentOf (chunkPath element.height .hashesDat) d₁ =
      contentOf (chunkPath element.height .hashesDat) disk := by
    rw [contentOf, contentOf, chunkPath, hp]
  have hready₁ : HashesReady storage.mode d₁ := by
    intro hm
    rw [hp]
    exact hk.hashes hm
  refine bind ((meets_saveHash (h.hashFile.congr hp) hready₁ (by rwa [hco])).mono ?_)
  rintro hashFile d₂ ⟨hha, hothers₂, hh⟩
  rw [if_pos (by omega)]
  have hidx₂ : IndexHolds d₂ blocks.length := by
    refine h.index.congr ?_
    rw [hothers₂ _ (by simp [chunkPath]), ha.others _ (by simp [chunkPath]) (by simp [chunkPath]) (by simp [chunkPath])]
  refine bind (meets_indexFile_set hidx₂ trivial trivial (pure ⟨rfl, ?_⟩))
  set d₃ := (d₂.touch .indexDat).put .indexDat (littleEndian 8 element.height) with hd₃
  have hsame₃ : ∀ path ≠ .indexDat, d₃.file path = d₂.file path := by
    intro path hpa
    rw [file_put, if_neg hpa.symm, file_touch, if_neg hpa.symm]
  have hs := ha.blockSaved hothers₂ hsame₃ hha
  refine ⟨⟨⟨_, hk.append hht hval hl hfi hr hs⟩, ?_, ?_⟩, ?_, ?_, ?_, ?_⟩
  · rw [length_append, length_singleton, ← hht]
    exact indexHolds_put (height_lt element)
  · intro element' hmem
    rcases mem_append.mp hmem with hold | hnew
    · exact h.valid element' hold
    · obtain rfl := mem_singleton.mp hnew
      exact hval
  · rw [ha.file_eq hothers₂ hsame₃ (by simp) (by simp [chunkPath])]
    exact h.journal
  · intro name
    rw [ha.file_eq hothers₂ hsame₃ (by simp) (by simp [chunkPath])]
    exact h.temporary name
  · exact hh.congr fun directoryId => hsame₃ _ (by simp)
  · refine hw.congr fun directoryId file hf => ?_
    rw [hsame₃ _ (by simp), hothers₂ _ (by simp [chunkPath, hf])]

end

end XpxChain.BlockStorage
