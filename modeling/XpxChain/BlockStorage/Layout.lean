import XpxChain.BlockStorage.FileContents

/-! Where the blocks of a chain are in the chunk files. -/

namespace XpxChain.BlockStorage

open Library BinaryFormats DurablePrograms BlockChunkIndexEntry Meets List

def BlockAt (blocks : List BlockElement) (height : ℕ) (element : BlockElement) : Prop :=
  0 < height ∧ blocks[height - 1]? = some element

def statementData (element : BlockElement) : Bytes := element.optionalStatement.elim [] writeBlockStatement

def pieces (mode : FileBlockStorageMode) (height : ℕ) (element : BlockElement) (entry : BlockChunkIndexEntry) :
    List (ChunkFile × ℕ × Bytes) :=
  [(.blocksIdx, indexAt height * BlockChunkIndexEntry.size, entry.toBytes),
    (.blocksDat, entry.blockOffset, writeBlockElement element)] ++
  (if element.optionalStatement.isSome then [(.statementsDat, entry.stmtOffset, statementData element)] else []) ++
  (if mode = .hashIndex then [(.hashesDat, indexAt height * 32, element.entityHash)] else [])

structure BlockChunkIndexEntry.Fits (entry : BlockChunkIndexEntry) : Prop where
  blockOffset : entry.blockOffset < 2 ^ 32
  blockSize : entry.blockSize < 2 ^ 32
  stmtOffset : entry.stmtOffset < 2 ^ 32
  stmtSize : entry.stmtSize < 2 ^ 32

structure Layout (blocks : List BlockElement) (entries : ℕ → BlockChunkIndexEntry) : Prop where
  fits : ∀ height element, BlockAt blocks height element → (entries height).Fits
  blockSize : ∀ height element, BlockAt blocks height element →
    (entries height).blockSize = (writeBlockElement element).length
  stmtSize : ∀ height element, BlockAt blocks height element →
    (entries height).stmtSize = (statementData element).length
  positive : ∀ height element, BlockAt blocks height element → 0 < (entries height).blockSize
  ordered : ∀ height later, 0 < height → height < later → later ≤ blocks.length →
    directoryIdAt height = directoryIdAt later →
    (entries height).blockEnd ≤ (entries later).blockEnd ∧
      (0 < (entries height).stmtSize → 0 < (entries later).stmtSize →
        (entries height).stmtEnd ≤ (entries later).stmtEnd)

def Stored (mode : FileBlockStorageMode) (disk : Disk) (blocks : List BlockElement)
    (entries : ℕ → BlockChunkIndexEntry) : Prop :=
  ∀ height element, BlockAt blocks height element → ∀ piece ∈ pieces mode height element (entries height),
    HoldsAt (disk.file (chunkPath height piece.1)) piece.2.1 piece.2.2

def HashesReady (mode : FileBlockStorageMode) (disk : Disk) : Prop :=
  mode = .hashIndex → ∃ content, disk.file (.inChunk 0 .hashesDat) = some content ∧ 64 ≤ content.length

structure Keeps (mode : FileBlockStorageMode) (disk : Disk) (blocks : List BlockElement)
    (entries : ℕ → BlockChunkIndexEntry) : Prop where
  layout : Layout blocks entries
  stored : Stored mode disk blocks entries
  hashes : HashesReady mode disk

def IndexHolds (disk : Disk) (height : ℕ) : Prop :=
  disk.file .indexDat = some (littleEndian 8 height) ∧ height < 2 ^ 64 ∨
    (disk.file .indexDat = none ∨ disk.file .indexDat = some []) ∧ height = 0

section

variable {disk : Disk} {height n : ℕ} {entry : BlockChunkIndexEntry}

lemma IndexHolds.chainHeight_eq (h : IndexHolds disk n) : chainHeight disk = .ok n := by
  unfold chainHeight IndexFile.exists IndexFile.get RawFile.openReadOnly RawFile.read
  rcases h with ⟨hf, hn⟩ | ⟨hf | hf, rfl⟩
  · have hv : valueOf (littleEndian 8 n) = n := valueOf_littleEndian hn
    simp [hf, Bind.bind, Except.bind, Pure.pure, Except.pure, take_of_length_le, hv]
  · simp [hf]
  · simp [hf, Bind.bind, Except.bind, Pure.pure, Except.pure]

lemma IndexHolds.congr {disk' : Disk} (h : IndexHolds disk n) (hf : disk'.file .indexDat = disk.file .indexDat) :
    IndexHolds disk' n := by
  unfold IndexHolds
  rwa [hf]

lemma IndexHolds.touch (h : IndexHolds disk n) : IndexHolds (disk.touch .indexDat) n := by
  unfold IndexHolds at *
  rw [Disk.file_touch]
  rcases h with ⟨hf, hn⟩ | ⟨hf | hf, hn⟩
  · exact .inl ⟨by simp [hf], hn⟩
  · exact .inr ⟨by simp [hf], hn⟩
  · exact .inr ⟨by simp [hf], hn⟩

lemma indexHolds_put (hn : n < 2 ^ 64) : IndexHolds (disk.put .indexDat (littleEndian 8 n)) n := .inl ⟨by simp, hn⟩

lemma meets_indexFile_set {C : Disk → Prop} {Q : Unit → Disk → Prop} {old : ℕ} (h : IndexHolds disk old)
    (ht : C (disk.touch .indexDat)) (hput : C ((disk.touch .indexDat).put .indexDat (littleEndian 8 n)))
    (hQ : Q () ((disk.touch .indexDat).put .indexDat (littleEndian 8 n))) : Meets (IndexFile.set n) C Q disk := by
  obtain ⟨content, hc, hlen⟩ : ∃ content, (disk.touch .indexDat).file .indexDat = some content ∧
      content.length ≤ 8 := by
    rw [Disk.file_touch]
    refine ⟨_, rfl, ?_⟩
    rcases h with ⟨hf, -⟩ | ⟨hf | hf, -⟩ <;> simp [hf]
  have ho : overwrite content 0 (littleEndian 8 n) = littleEndian 8 n := by
    simp [overwrite, drop_eq_nil_of_le hlen]
  have hg : (disk.file .indexDat).getD [] = content := by
    rw [Disk.file_touch] at hc
    exact Option.some.inj hc
  refine bind (meets_openReadAppend (.inr rfl) ht ?_)
  refine bind (meets_seek (Nat.zero_le _) ?_)
  have hop : IsOpen (disk.touch .indexDat) ⟨.indexDat, ((disk.file .indexDat).getD []).length, 0⟩ .indexDat content :=
    ⟨rfl, by rw [hg], hc⟩
  refine bind (meets_write hop (Nat.zero_le _) ?_ ?_)
  · rwa [ho]
  · intro file' _
    rw [ho]
    exact pure hQ

lemma length_toBytes : entry.toBytes.length = BlockChunkIndexEntry.size := by
  simp [toBytes, size]

lemma ofBytes_toBytes (h : entry.Fits) : BlockChunkIndexEntry.ofBytes entry.toBytes = entry := by
  obtain ⟨h1, h2, h3, h4⟩ := h
  have hnu : ∀ n rest, n < 2 ^ 32 → valueOf ((littleEndian 4 n ++ rest).take 4) = n := by
    intro n rest hn
    rw [take_left' (length_littleEndian 4 n), valueOf_littleEndian hn]
  have hl : valueOf ((littleEndian 4 entry.stmtSize).take 4) = entry.stmtSize := by
    have := hnu entry.stmtSize [] h4
    rwa [append_nil] at this
  cases entry
  simp only [ofBytes, toBytes, BlockChunkIndexEntry.mk.injEq]
  refine ⟨hnu _ _ h1, ?_, ?_, ?_⟩
  · exact hnu _ _ h2
  · exact hnu _ _ h3
  · exact hl

lemma hasChunkIndexEntry_eq_some
    (h : HoldsAt (disk.file (chunkPath height .blocksIdx)) (indexAt height * BlockChunkIndexEntry.size) entry.toBytes)
    (hf : entry.Fits) (hp : 0 < entry.blockSize) : hasChunkIndexEntry height disk = some entry := by
  obtain ⟨content, hc⟩ : ∃ content, disk.file (chunkPath height .blocksIdx) = some content := by
    obtain ⟨before, after, hc, -⟩ := h
    exact ⟨_, hc⟩
  rw [hc] at h
  have hlen := h.length_le
  have hs := h.slice
  rw [length_toBytes] at hlen hs
  have hl : ¬ content.length < (indexAt height + 1) * size := by
    rw [Nat.add_mul]
    omega
  simp only [hasChunkIndexEntry, hc, if_neg hl, hs, ofBytes_toBytes hf, if_pos hp]

end

section

variable {mode : FileBlockStorageMode} {disk disk' : Disk} {blocks : List BlockElement}
  {entries : ℕ → BlockChunkIndexEntry} {height n : ℕ} {element element' : BlockElement}

lemma BlockAt.le_length (h : BlockAt blocks height element) : height ≤ blocks.length := by
  obtain ⟨hpos, hget⟩ := h
  have := (List.getElem?_eq_some_iff.mp hget).1
  omega

lemma exists_blockAt (hpos : 0 < height) (hle : height ≤ blocks.length) : ∃ element, BlockAt blocks height element :=
  ⟨_, hpos, getElem?_eq_getElem (by omega)⟩

lemma blockAt_take : BlockAt (blocks.take n) height element ↔ BlockAt blocks height element ∧ height ≤ n := by
  unfold BlockAt
  rw [getElem?_take]
  constructor
  · rintro ⟨hpos, hget⟩
    split_ifs at hget with hlt
    exact ⟨⟨hpos, hget⟩, by omega⟩
  · rintro ⟨⟨hpos, hget⟩, hle⟩
    exact ⟨hpos, by rw [if_pos (by omega), hget]⟩

lemma blockAt_append : BlockAt (blocks ++ [element]) height element' ↔
    BlockAt blocks height element' ∨ height = blocks.length + 1 ∧ element' = element := by
  unfold BlockAt
  rcases Nat.lt_trichotomy (height - 1) blocks.length with hlt | heq | hgt
  · rw [getElem?_append_left hlt]
    constructor
    · exact fun h => .inl h
    · rintro (h | ⟨rfl, -⟩)
      · exact h
      · omega
  · rw [heq, getElem?_append_right le_rfl, Nat.sub_self, getElem?_eq_none le_rfl]
    simp only [getElem?_cons_zero, Option.some.injEq, reduceCtorEq, and_false, false_or]
    constructor
    · rintro ⟨hpos, rfl⟩
      exact ⟨by omega, rfl⟩
    · rintro ⟨rfl, rfl⟩
      exact ⟨by omega, rfl⟩
  · rw [getElem?_eq_none (by simp; omega), getElem?_eq_none (by omega)]
    simp only [reduceCtorEq, and_false, false_or, false_iff, not_and]
    omega

lemma Layout.take (h : Layout blocks entries) (n : ℕ) : Layout (blocks.take n) entries where
  fits height element hblk := h.fits height element (blockAt_take.mp hblk).1
  blockSize height element hblk := h.blockSize height element (blockAt_take.mp hblk).1
  stmtSize height element hblk := h.stmtSize height element (blockAt_take.mp hblk).1
  positive height element hblk := h.positive height element (blockAt_take.mp hblk).1
  ordered height later hpos hlt hle := h.ordered height later hpos hlt (hle.trans (length_take_le' n blocks))

lemma Keeps.take (h : Keeps mode disk blocks entries) (n : ℕ) : Keeps mode disk (blocks.take n) entries where
  layout := h.layout.take n
  stored height element hblk := h.stored height element (blockAt_take.mp hblk).1
  hashes := h.hashes

lemma Keeps.congr (h : Keeps mode disk blocks entries)
    (hf : ∀ height element, BlockAt blocks height element →
      ∀ file, disk'.file (chunkPath height file) = disk.file (chunkPath height file))
    (hh : disk'.file (.inChunk 0 .hashesDat) = disk.file (.inChunk 0 .hashesDat)) :
    Keeps mode disk' blocks entries where
  layout := h.layout
  stored height element hblk piece hp := by
    rw [hf height element hblk]
    exact h.stored height element hblk piece hp
  hashes hm := by
    rw [hh]
    exact h.hashes hm

lemma Keeps.put (h : Keeps mode disk blocks entries) {directoryId : ℕ} {file : ChunkFile} {content : Bytes}
    (hf : file ≠ .hashesDat)
    (hh : ∀ height element, BlockAt blocks height element → directoryIdAt height = directoryId →
      ∀ piece ∈ pieces mode height element (entries height), piece.1 = file →
      HoldsAt (disk.file (.inChunk directoryId file)) piece.2.1 piece.2.2 → HoldsAt (some content) piece.2.1
    piece.2.2) :
    Keeps mode (disk.put (.inChunk directoryId file) content) blocks entries where
  layout := h.layout
  stored height element hblk piece hp := by
    have hold := h.stored height element hblk piece hp
    rw [Disk.file_put]
    split_ifs with heq
    · obtain ⟨rfl, rfl⟩ := heq
      exact hh height element hblk rfl piece hp rfl hold
    · exact hold
  hashes hm := by
    rw [Disk.file_put, if_neg (by simp [hf])]
    exact h.hashes hm

variable (h : Keeps mode disk blocks entries)
include h

section

variable (hblk : BlockAt blocks height element)
include hblk

lemma Keeps.entry :
    HoldsAt (disk.file (chunkPath height .blocksIdx)) (indexAt height * BlockChunkIndexEntry.size)
      (entries height).toBytes :=
  h.stored height element hblk (.blocksIdx, indexAt height * size, (entries height).toBytes) (by simp [pieces])

lemma Keeps.block :
    HoldsAt (disk.file (chunkPath height .blocksDat)) (entries height).blockOffset (writeBlockElement element) :=
  h.stored height element hblk (.blocksDat, (entries height).blockOffset, writeBlockElement element) (by simp [pieces])

lemma Keeps.statement (hs : element.optionalStatement.isSome) :
    HoldsAt (disk.file (chunkPath height .statementsDat)) (entries height).stmtOffset (statementData element) :=
  h.stored height element hblk (.statementsDat, (entries height).stmtOffset, statementData element)
    (by simp [pieces, hs])

lemma Keeps.hash (hm : mode = .hashIndex) :
    HoldsAt (disk.file (chunkPath height .hashesDat)) (indexAt height * 32) element.entityHash :=
  h.stored height element hblk (.hashesDat, indexAt height * 32, element.entityHash) (by simp [pieces, hm])

lemma Keeps.hasEntry : hasChunkIndexEntry height disk = some (entries height) :=
  hasChunkIndexEntry_eq_some (h.entry hblk) (h.layout.fits height element hblk) (h.layout.positive height element hblk)

end

end

section

variable {mode : FileBlockStorageMode} {disk : Disk} {blocks : List BlockElement} {entries : ℕ → BlockChunkIndexEntry}
  {directoryId height n : ℕ}

def statementsEnd (entries : ℕ → BlockChunkIndexEntry) (directoryId : ℕ) : ℕ → ℕ
  | 0 => 0
  | height + 1 =>
    if directoryIdAt (height + 1) ≠ directoryId then 0
    else if 0 < (entries (height + 1)).stmtSize then (entries (height + 1)).stmtEnd
    else statementsEnd entries directoryId height

lemma Keeps.lastStatementEnd_eq (h : Keeps mode disk blocks entries) (hn : n ≤ blocks.length) :
    lastStatementEnd directoryId disk n = statementsEnd entries directoryId n := by
  induction n with
  | zero => rfl
  | succ n ih =>
    obtain ⟨element, hblk⟩ := exists_blockAt (Nat.succ_pos n) hn
    simp only [lastStatementEnd, statementsEnd, h.hasEntry hblk, ih (Nat.le_of_succ_le hn)]

lemma directoryIdAt_mono {height later : ℕ} (h : height ≤ later) : directoryIdAt height ≤ directoryIdAt later :=
  Nat.div_le_div_right h

lemma statementsEnd_eq_zero_or (entries : ℕ → BlockChunkIndexEntry) (directoryId n : ℕ) :
    statementsEnd entries directoryId n = 0 ∨
    ∃ height, 0 < height ∧ height ≤ n ∧ directoryIdAt height = directoryId ∧ 0 < (entries height).stmtSize ∧
      statementsEnd entries directoryId n = (entries height).stmtEnd := by
  induction n with
  | zero => exact .inl rfl
  | succ n ih =>
    rw [statementsEnd]
    split_ifs with hdir hsz
    · exact .inl rfl
    · exact .inr ⟨n + 1, Nat.succ_pos n, le_rfl, not_not.mp hdir, hsz, rfl⟩
    · rcases ih with hz | ⟨height, hpos, hle, hr⟩
      · exact .inl hz
      · exact .inr ⟨height, hpos, hle.trans (Nat.le_succ n), hr⟩

lemma Layout.stmtEnd_le (h : Layout blocks entries) (hn : n ≤ blocks.length) (hdir : directoryIdAt n ≤ directoryId)
    (hpos : 0 < height) (hle : height ≤ n) (hht : directoryIdAt height = directoryId)
    (hsz : 0 < (entries height).stmtSize) :
    (entries height).stmtEnd ≤ statementsEnd entries directoryId n := by
  induction n with
  | zero => omega
  | succ n ih =>
    have hs : directoryIdAt (n + 1) = directoryId := le_antisymm hdir (hht ▸ directoryIdAt_mono hle)
    rw [statementsEnd, if_neg (not_not.mpr hs)]
    rcases Nat.lt_or_eq_of_le hle with hlt | rfl
    · split_ifs with hl
      · exact (h.ordered height (n + 1) hpos hlt hn (hht.trans hs.symm)).2 hsz hl
      · exact ih (Nat.le_of_succ_le hn) ((directoryIdAt_mono (Nat.le_succ n)).trans hdir) (Nat.le_of_lt_succ hlt)
    · rw [if_pos hsz]

lemma Layout.blockEnd_le (h : Layout blocks entries) (hn : n ≤ blocks.length) (hpos : 0 < height) (hle : height ≤ n)
    (hdir : directoryIdAt height = directoryIdAt n) : (entries height).blockEnd ≤ (entries n).blockEnd := by
  rcases Nat.lt_or_eq_of_le hle with hlt | rfl
  · exact (h.ordered height n hpos hlt hn hdir).1
  · exact le_rfl

end

end XpxChain.BlockStorage
