import XpxChain.BlockStorage.Layout

/-! Appending a block and its hash to the files of their chunks. -/

namespace XpxChain.BlockStorage

open Library BinaryFormats DurablePrograms Meets Disk List Function

variable {disk : Disk} {path : Path} {file : RawFile} {content data : Bytes} {height : ℕ} {element : BlockElement}

def contentOf (path : Path) (disk : Disk) : Bytes := (disk.file path).getD []

def ChunkWriter.Consistent (writer : ChunkWriter) (disk : Disk) : Prop :=
  ∀ chunk ∈ writer.cached, ∃ blocks statements index,
    IsOpen disk chunk.blocksFile (.inChunk chunk.directoryId .blocksDat) blocks ∧
    IsOpen disk chunk.stmtFile (.inChunk chunk.directoryId .statementsDat) statements ∧
    IsOpen disk chunk.idxFile (.inChunk chunk.directoryId .blocksIdx) index

def HashFile.Consistent (hashFile : HashFile) (disk : Disk) : Prop :=
  ∀ cached ∈ hashFile.cached, ∃ content, IsOpen disk cached.2 (.inChunk cached.1 .hashesDat) content

section

lemma meets_createDirectories : Meets (createDirectories height) (fun _ => True)
    (fun _ d => (∀ path, d.file path = disk.file path) ∧ directoryIdAt height ∈ d.directories) disk := by
  refine bind (query rfl ?_)
  by_cases he : directoryIdAt height ∈ disk.directories
  · rw [decide_eq_true he]
    exact pure ⟨fun _ => rfl, he⟩
  · rw [decide_eq_false he]
    exact change trivial ⟨fun _ => rfl, Finset.mem_insert_self _ _⟩

lemma meets_openInChunk {chunkFile : ChunkFile} (hdir : directoryIdAt height ∈ disk.directories) :
    Meets (RawFile.openReadAppend (chunkPath height chunkFile)) (fun _ => True)
      (fun file d => d = disk.touch (chunkPath height chunkFile) ∧
        IsOpen d file (chunkPath height chunkFile) (contentOf (chunkPath height chunkFile) disk)) disk := by
  refine meets_openReadAppend (.inr (by simpa [hasParent, chunkPath] using hdir)) trivial ⟨rfl, rfl, rfl, ?_⟩
  rw [file_touch, if_pos rfl]
  rfl

lemma meets_appendData (h : IsOpen disk file path content) (hsz : content.length + data.length < 2 ^ 32)
    (message : String) :
    Meets (appendData file data height message) (fun _ => True)
      (fun file' d => d = disk.put path (content ++ data) ∧ IsOpen d file' path (content ++ data)) disk := by
  refine bind (meets_seek le_rfl ?_)
  have hend : overwrite content file.fileSize data = content ++ data := by rw [h.size_eq, overwrite_end]
  have ho : IsOpen disk { file with position := file.fileSize } path content := { h with }
  refine bind (meets_write ho h.size_eq.le trivial ?_)
  intro written hwr
  simp only [hend] at hwr ⊢
  refine bind (query (if_neg ?_) (pure ⟨rfl, hwr⟩))
  rw [hwr.size_eq, length_append]
  omega

lemma meets_appendStatement (h : IsOpen disk file path content) {element : BlockElement}
    (hsz : content.length + (statementData element).length < 2 ^ 32) :
    Meets (appendStatement file element.optionalStatement height) (fun _ => True)
      (fun file' d => (∀ other, path ≠ other → d.file other = disk.file other) ∧
        IsOpen d file' path (content ++ statementData element)) disk := by
  unfold statementData at hsz ⊢
  cases hs : element.optionalStatement with
  | none => exact pure ⟨fun _ _ => rfl, by simpa using h⟩
  | some statement =>
    rw [hs] at hsz
    refine (meets_appendData h hsz _).mono ?_
    rintro file' d ⟨rfl, ho⟩
    exact ⟨fun other hoth => by rw [file_put, if_neg hoth], ho⟩

lemma meets_writeIndexEntry (h : IsOpen disk file path content) (entry : BlockChunkIndexEntry) :
    Meets (writeIndexEntry file height entry) (fun _ => True)
      (fun file' d => (∀ other, path ≠ other → d.file other = disk.file other) ∧
        ∃ content', IsOpen d file' path content' ∧
        HoldsAt (some content') (indexAt height * BlockChunkIndexEntry.size) entry.toBytes ∧
        ∀ offset data, offset + data.length ≤ indexAt height * BlockChunkIndexEntry.size →
          HoldsAt (some content) offset data →
          HoldsAt (some content') offset data) disk := by
  set target := indexAt height * BlockChunkIndexEntry.size with ht
  have hpad : Meets (padIndex file target) (fun _ => True)
      (fun file' d => (∀ other, path ≠ other → d.file other = disk.file other) ∧
        ∃ more, IsOpen d file' path (content ++ more) ∧ target ≤ (content ++ more).length) disk := by
    refine ite ?_ ?_
    · intro hs
      have hend : overwrite content file.fileSize (replicate (target - file.fileSize) 0) =
          content ++ replicate (target - file.fileSize) 0 := by
        rw [h.size_eq, overwrite_end]
      have hop : IsOpen disk { file with position := file.fileSize } path content := { h with }
      refine bind (meets_seek le_rfl (meets_write hop h.size_eq.le trivial ?_))
      intro written hwr
      simp only [hend] at hwr ⊢
      refine ⟨fun other hoth => by rw [file_put, if_neg hoth], _, hwr, ?_⟩
      rw [length_append, length_replicate, ← h.size_eq]
      omega
    · intro hl
      refine pure ⟨fun _ _ => rfl, [], by simpa using h, ?_⟩
      rw [append_nil, ← h.size_eq]
      omega
  refine bind (hpad.mono ?_)
  rintro padded d ⟨ho, more, hop, hl⟩
  refine bind (meets_seek (by rw [hop.size_eq]; exact hl) ?_)
  have hse : IsOpen d { padded with position := target } path (content ++ more) :=
    { hop with }
  refine meets_write hse hl trivial ?_
  intro written hwr
  refine ⟨fun other hoth => ?_, _, hwr, holdsAt_overwrite hl, ?_⟩
  · rw [file_put, if_neg hoth, ho other hoth]
  · intro offset data hbef hh
    exact hh.append.overwrite_after hbef

end

section

structure Opened (disk disk' : Disk) (chunk : CachedChunk) (height : ℕ) : Prop where
  directoryId : chunk.directoryId = directoryIdAt height
  blocks : IsOpen disk' chunk.blocksFile (chunkPath height .blocksDat) (contentOf (chunkPath height .blocksDat) disk)
  statements : IsOpen disk' chunk.stmtFile (chunkPath height .statementsDat)
    (contentOf (chunkPath height .statementsDat) disk)
  index : IsOpen disk' chunk.idxFile (chunkPath height .blocksIdx) (contentOf (chunkPath height .blocksIdx) disk)
  others : ∀ path, path ≠ chunkPath height .blocksDat → path ≠ chunkPath height .statementsDat →
    path ≠ chunkPath height .blocksIdx → disk'.file path = disk.file path

lemma IsOpen.contentOf_eq (h : IsOpen disk file path content) : contentOf path disk = content := by
  rw [contentOf, h.content_eq, Option.getD_some]

lemma chunkPath_ne {chunkFile chunkFile' : ChunkFile} (h : chunkFile ≠ chunkFile') :
    chunkPath height chunkFile ≠ chunkPath height chunkFile' := by
  simpa [chunkPath] using h

lemma meets_openChunk : Meets (openChunk height) (fun _ => True) (fun chunk d => Opened disk d chunk height) disk := by
  refine bind (meets_createDirectories.mono ?_)
  rintro - d₀ ⟨hsa, hdir⟩
  have hc : ∀ chunkFile, contentOf (chunkPath height chunkFile) d₀ = contentOf (chunkPath height chunkFile) disk := by
    intro chunkFile
    rw [contentOf, contentOf, hsa]
  refine bind ((meets_openInChunk hdir).mono ?_)
  rintro blocksFile d₁ ⟨rfl, hb⟩
  have hdir₁ : directoryIdAt height ∈ (d₀.touch (chunkPath height .blocksDat)).directories := by
    rwa [directories_touch]
  refine bind ((meets_openInChunk hdir₁).mono ?_)
  rintro stmtFile d₂ ⟨rfl, hs⟩
  refine bind ((meets_openInChunk (by rwa [directories_touch])).mono ?_)
  rintro idxFile d₃ ⟨rfl, hidx⟩
  refine pure ⟨rfl, ?_, ?_, ?_, ?_⟩
  · rw [← hc]
    refine hb.congr ?_
    simp [file_touch, chunkPath]
  · have hsa' : contentOf (chunkPath height .statementsDat) (d₀.touch (chunkPath height .blocksDat)) =
        contentOf (chunkPath height .statementsDat) disk := by
      rw [← hc]
      simp [contentOf, file_touch, chunkPath]
    rw [hsa'] at hs
    exact hs.congr (by simp [file_touch, chunkPath])
  · rw [← hc]
    simpa [contentOf, file_touch, chunkPath] using hidx
  · intro path hb' hs' hidx'
    rw [file_touch, if_neg hidx'.symm, file_touch, if_neg hs'.symm, file_touch, if_neg hb'.symm, hsa]

lemma meets_openAt {writer : ChunkWriter} (h : writer.Consistent disk) :
    Meets (writer.openAt height) (fun _ => True) (fun chunk d => Opened disk d chunk height) disk := by
  unfold ChunkWriter.openAt
  cases hc : writer.cached with
  | none => exact meets_openChunk
  | some chunk =>
    refine ite ?_ fun _ => meets_openChunk
    intro hdir
    obtain ⟨blocks, statements, index, hb, hs, hidx⟩ := h chunk hc
    rw [hdir] at hb hs hidx
    refine pure ⟨hdir, ?_, ?_, ?_, fun _ _ _ _ => rfl⟩
    · rwa [← hb.contentOf_eq] at hb
    · rwa [← hs.contentOf_eq] at hs
    · rwa [← hidx.contentOf_eq] at hidx

def FitsInChunk (disk : Disk) (element : BlockElement) : Prop :=
  (contentOf (chunkPath element.height .blocksDat) disk).length + (writeBlockElement element).length < 2 ^ 32 ∧
    (contentOf (chunkPath element.height .statementsDat) disk).length + (statementData element).length < 2 ^ 32
deriving Decidable

def newEntry (disk : Disk) (element : BlockElement) : BlockChunkIndexEntry where
  blockOffset := (contentOf (chunkPath element.height .blocksDat) disk).length
  blockSize := (writeBlockElement element).length
  stmtOffset := (contentOf (chunkPath element.height .statementsDat) disk).length
  stmtSize := (statementData element).length

structure Appended (disk disk' : Disk) (element : BlockElement) : Prop where
  blocks : disk'.file (chunkPath element.height .blocksDat) =
    some (contentOf (chunkPath element.height .blocksDat) disk ++ writeBlockElement element)
  statements : disk'.file (chunkPath element.height .statementsDat) =
    some (contentOf (chunkPath element.height .statementsDat) disk ++ statementData element)
  entry : HoldsAt (disk'.file (chunkPath element.height .blocksIdx))
    (indexAt element.height * BlockChunkIndexEntry.size)
    (newEntry disk element).toBytes
  index : ∀ offset data, offset + data.length ≤ indexAt element.height * BlockChunkIndexEntry.size →
    HoldsAt (disk.file (chunkPath element.height .blocksIdx)) offset data →
      HoldsAt (disk'.file (chunkPath element.height .blocksIdx)) offset data
  others : ∀ path, path ≠ chunkPath element.height .blocksDat → path ≠ chunkPath element.height .statementsDat →
    path ≠ chunkPath element.height .blocksIdx → disk'.file path = disk.file path

lemma meets_chunkWriter_save {writer : ChunkWriter} (h : writer.Consistent disk) (hf : FitsInChunk disk element) :
    Meets (writer.save element.height element) (fun _ => True)
      (fun writer' d => Appended disk d element ∧ writer'.Consistent d) disk := by
  obtain ⟨hbl, hst⟩ := hf
  refine bind ((meets_openAt h).mono ?_)
  rintro chunk d₁ ⟨hdir, hb, hs, hidx, ho⟩
  refine bind (query (if_neg (by rw [hb.size_eq]; omega)) ?_)
  refine bind ((meets_appendData hb hbl _).mono ?_)
  rintro blocksFile d₂ ⟨rfl, hb₂⟩
  refine bind (query (if_neg (by rw [hs.size_eq]; omega)) ?_)
  have hs₂ : IsOpen (d₁.put (chunkPath element.height .blocksDat)
      (contentOf (chunkPath element.height .blocksDat) disk ++ writeBlockElement element)) chunk.stmtFile
      (chunkPath element.height .statementsDat) (contentOf (chunkPath element.height .statementsDat) disk) :=
    hs.congr (by simp [chunkPath])
  refine bind ((meets_appendStatement hs₂ hst).mono ?_)
  rintro stmtFile d₃ ⟨ho₃, hs₃⟩
  have hidx₃ : IsOpen d₃ chunk.idxFile (chunkPath element.height .blocksIdx)
      (contentOf (chunkPath element.height .blocksIdx) disk) := by
    refine hidx.congr ?_
    rw [ho₃ _ (chunkPath_ne (by simp)), file_put, if_neg (chunkPath_ne (by simp))]
  have hent : (⟨chunk.blocksFile.fileSize, blocksFile.fileSize - chunk.blocksFile.fileSize, chunk.stmtFile.fileSize,
      stmtFile.fileSize - chunk.stmtFile.fileSize⟩ : BlockChunkIndexEntry) = newEntry disk element := by
    simp only [hb.size_eq, hb₂.size_eq, hs.size_eq, hs₃.size_eq, length_append,
      Nat.add_sub_cancel_left, newEntry]
  rw [hent]
  refine bind ((meets_writeIndexEntry hidx₃ (newEntry disk element)).mono ?_)
  rintro idxFile d₄ ⟨ho₄, index', hidx₄, hnew, hbef⟩
  have hb₄ : IsOpen d₄ blocksFile (chunkPath element.height .blocksDat)
      (contentOf (chunkPath element.height .blocksDat) disk ++ writeBlockElement element) := by
    refine hb₂.congr ?_
    rw [ho₄ _ (chunkPath_ne (by simp)), ho₃ _ (chunkPath_ne (by simp))]
  have hs₄ := hs₃.congr (ho₄ _ (chunkPath_ne (by simp)))
  refine pure ⟨⟨hb₄.content_eq, hs₄.content_eq, ?_, ?_, ?_⟩, ?_⟩
  · rwa [hidx₄.content_eq]
  · intro offset data hle hh
    rw [hidx₄.content_eq]
    refine hbef offset data hle ?_
    obtain ⟨before, after, hfi, hlen⟩ := hh
    exact ⟨before, after, by rw [contentOf, hfi, Option.getD_some], hlen⟩
  · intro path hp hp' hp''
    rw [ho₄ _ hp''.symm, ho₃ _ hp'.symm, file_put, if_neg hp.symm, ho _ hp hp' hp'']
  · rintro _ ⟨rfl⟩
    simp only [hdir]
    exact ⟨_, _, _, hb₄, hs₄, hidx₄⟩

end

section

variable {mode : FileBlockStorageMode} {blocks : List BlockElement} {entries : ℕ → BlockChunkIndexEntry}

lemma indexAt_succ {n : ℕ} (h : indexAt (n + 1) ≠ 0) :
    directoryIdAt n = directoryIdAt (n + 1) ∧ indexAt n + 1 = indexAt (n + 1) := by
  simp only [indexAt, directoryIdAt, filesPerDirectory] at *
  omega

lemma indexAt_lt {later : ℕ} (hlt : height < later) (hdir : directoryIdAt height = directoryIdAt later) :
    indexAt height < indexAt later := by
  simp only [indexAt, directoryIdAt, filesPerDirectory] at *
  omega

lemma Keeps.hashes_reach (h : Keeps .hashIndex disk blocks entries)
    (hl : ∀ element ∈ blocks, element.entityHash.length = 32) :
    indexAt (blocks.length + 1) * 32 ≤ (contentOf (chunkPath (blocks.length + 1) .hashesDat) disk).length := by
  by_cases hz : indexAt (blocks.length + 1) = 0
  · simp [hz]
  obtain ⟨hdir, hidx⟩ := indexAt_succ hz
  rcases Nat.eq_zero_or_pos blocks.length with hemp | hpos
  · obtain ⟨content, hf, hlen⟩ := h.hashes rfl
    rw [hemp]
    have hc : disk.file (chunkPath (0 + 1) .hashesDat) = some content := hf
    rw [contentOf, hc, Option.getD_some]
    have hone : indexAt (0 + 1) = 1 := rfl
    omega
  · obtain ⟨element, hblk⟩ := exists_blockAt hpos le_rfl
    have hh := h.hash hblk rfl
    rw [chunkPath, hdir] at hh
    obtain ⟨content, hf⟩ : ∃ content, disk.file (chunkPath (blocks.length + 1) .hashesDat) = some content := by
      obtain ⟨before, after, hco, -⟩ := hh
      exact ⟨_, hco⟩
    rw [contentOf, hf, Option.getD_some]
    rw [chunkPath] at hf
    rw [hf] at hh
    have hlen := hh.length_le
    rw [hl element (mem_of_getElem? hblk.2)] at hlen
    omega

structure HashSaved (disk disk' : Disk) (height : ℕ) (hash : Hash256) : Prop where
  content : disk'.file (chunkPath height .hashesDat) =
    some (overwrite (contentOf (chunkPath height .hashesDat) disk) (indexAt height * 32) hash)
  others : ∀ path, path ≠ chunkPath height .hashesDat → disk'.file path = disk.file path

lemma meets_openHashFile (hr : HashesReady .hashIndex disk) : Meets (openHashFile height) (fun _ => True) (fun file d =>
      (∀ path, path ≠ chunkPath height .hashesDat → d.file path = disk.file path) ∧
        IsOpen d file (chunkPath height .hashesDat) (contentOf (chunkPath height .hashesDat) disk)) disk := by
  refine bind (meets_createDirectories.mono ?_)
  rintro - d₀ ⟨hsa, hdir⟩
  refine bind ((meets_openInChunk hdir).mono ?_)
  rintro file d₁ ⟨rfl, ho⟩
  have hc : contentOf (chunkPath height .hashesDat) d₀ = contentOf (chunkPath height .hashesDat) disk := by
    rw [contentOf, contentOf, hsa]
  rw [hc] at ho
  refine bind (query (if_neg ?_) (pure ⟨?_, ho⟩))
  · rintro ⟨hf, hs⟩
    obtain ⟨content, hfi, hlen⟩ := hr rfl
    have hz : directoryIdAt height = 0 := Nat.div_eq_of_lt hf
    rw [ho.size_eq, contentOf, chunkPath, hz, hfi, Option.getD_some] at hs
    omega
  · intro path hp
    rw [file_touch, if_neg hp.symm, hsa]

lemma meets_hashFile_save {hashFile : HashFile} {hash : Hash256} (hc : hashFile.Consistent disk)
    (hr : HashesReady .hashIndex disk)
    (hre : indexAt height * 32 ≤ (contentOf (chunkPath height .hashesDat) disk).length) :
    Meets (hashFile.save height hash) (fun _ => True)
      (fun hashFile' d => HashSaved disk d height hash ∧ hashFile'.Consistent d) disk := by
  have ho : Meets (hashFile.openAt height) (fun _ => True) (fun file d =>
      (∀ path, path ≠ chunkPath height .hashesDat → d.file path = disk.file path) ∧
        IsOpen d file (chunkPath height .hashesDat) (contentOf (chunkPath height .hashesDat) disk)) disk := by
    unfold HashFile.openAt
    split
    next directoryId file hca =>
      refine ite ?_ fun _ => meets_openHashFile hr
      rintro rfl
      obtain ⟨content, hop⟩ := hc _ hca
      rw [← hop.contentOf_eq] at hop
      exact pure ⟨fun _ _ => rfl, hop⟩
    next => exact meets_openHashFile hr
  refine bind (ho.mono ?_)
  rintro file d ⟨hot, hop⟩
  refine bind (meets_seek (by rw [hop.size_eq]; exact hre) ?_)
  have hs : IsOpen d { file with position := indexAt height * 32 } (chunkPath height .hashesDat)
      (contentOf (chunkPath height .hashesDat) disk) :=
    { hop with }
  refine bind (meets_write hs hre trivial ?_)
  intro written hwr
  refine pure ⟨⟨hwr.content_eq, fun path hp => ?_⟩, ?_⟩
  · rw [file_put, if_neg hp.symm, hot path hp]
  · rintro _ ⟨rfl⟩
    exact ⟨_, hwr⟩

end

end XpxChain.BlockStorage
