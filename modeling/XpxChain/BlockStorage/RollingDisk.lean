import XpxChain.BlockStorage.Loading

/-! A disk in the middle of a rollback, and the journal that it keeps. -/

namespace XpxChain.BlockStorage

open Library BinaryFormats DurablePrograms OrderedContainers Meets BlockChunkIndexEntry List

variable {mode : FileBlockStorageMode} {disk disk' : Disk} {blocks : List BlockElement}
  {entries : ℕ → BlockChunkIndexEntry} {target : ℕ} {temporary : ℕ → Option Bytes} {environment : Environment}

section

def headerFor (entries : ℕ → BlockChunkIndexEntry) (target previousHeight : ℕ) : RollbackJournalHeader where
  targetHeight := target
  previousHeight := previousHeight
  targetBlockEnd := if target ≠ 0 ∧ indexAt target < filesPerDirectory - 1 then (entries target).blockEnd else 0
  targetStmtEnd :=
    if target ≠ 0 ∧ indexAt target < filesPerDirectory - 1 then statementsEnd entries (directoryIdAt target) target
    else 0
  targetIndex := expectedTargetIndex target

lemma Keeps.rollbackHeader_eq (h : Keeps mode disk blocks entries) (hle : target ≤ blocks.length) (previousHeight : ℕ) :
    FileBlockStorage.rollbackHeader target previousHeight disk = .ok (headerFor entries target previousHeight) := by
  unfold FileBlockStorage.rollbackHeader headerFor
  split_ifs with hi
  · obtain ⟨element, hblk⟩ := exists_blockAt (Nat.pos_of_ne_zero hi.1) hle
    simp only [h.hasEntry hblk, h.lastStatementEnd_eq hle]
  · rfl

lemma ofBytes_toBytes_header {header : RollbackJournalHeader} (hm : header.magic < 2 ^ 32)
    (hv : header.version < 2 ^ 32) (ht : header.targetHeight < 2 ^ 64) (hp : header.previousHeight < 2 ^ 64)
    (hblk : header.targetBlockEnd < 2 ^ 64) (hs : header.targetStmtEnd < 2 ^ 64) (hidx : header.targetIndex < 2 ^ 32)
    (hpa : header.padding < 2 ^ 32) :
    RollbackJournalHeader.ofBytes header.toBytes = header := by
  have hta : ∀ width n rest, n < 256 ^ width → valueOf ((littleEndian width n ++ rest).take width) = n := by
    intro width n rest hn
    rw [take_left' (length_littleEndian width n), valueOf_littleEndian hn]
  have hd : ∀ width m n rest, (littleEndian width n ++ rest).drop (width + m) = rest.drop m := by
    intro width m n rest
    rw [← drop_drop, drop_left' (length_littleEndian width n)]
  have hl : ∀ n, n < 2 ^ 32 → valueOf ((littleEndian 4 n).take 4) = n := by
    intro n hn
    have := hta 4 n [] hn
    rwa [append_nil] at this
  cases header
  simp only [RollbackJournalHeader.ofBytes, RollbackJournalHeader.toBytes, RollbackJournalHeader.mk.injEq]
  refine ⟨hta 4 _ _ hm, ?_, ?_, ?_, ?_, ?_, ?_, ?_⟩
  · rw [hd 4 0]
    exact hta 4 _ _ hv
  · exact hta 8 _ _ ht
  · exact hta 8 _ _ hp
  · exact hta 8 _ _ hblk
  · exact hta 8 _ _ hs
  · exact hta 4 _ _ hidx
  · exact hl _ hpa

lemma length_toBytes_header (header : RollbackJournalHeader) : header.toBytes.length = RollbackJournalHeader.size := by
  simp [RollbackJournalHeader.toBytes, RollbackJournalHeader.size]

lemma Layout.ofBytes_headerFor (h : Layout (blocks.take target) entries) (hle : target ≤ blocks.length)
    (hlen : blocks.length < 2 ^ 64) :
    RollbackJournalHeader.ofBytes (headerFor entries target blocks.length).toBytes =
      headerFor entries target blocks.length := by
  have he : ∀ height, 0 < height → height ≤ target → (entries height).blockEnd < 2 ^ 64 ∧
      (entries height).stmtEnd < 2 ^ 64 := by
    intro height hpos hht
    obtain ⟨element, hblk⟩ := exists_blockAt hpos (hht.trans hle)
    replace hblk := blockAt_take.mpr ⟨hblk, hht⟩
    obtain ⟨h1, h2, h3, h4⟩ := h.fits height element hblk
    simp only [blockEnd, stmtEnd]
    omega
  have hidx : indexAt target < filesPerDirectory := Nat.mod_lt _ (by decide)
  refine ofBytes_toBytes_header (by simp [headerFor]) (by simp [headerFor]) ?_ hlen ?_ ?_ ?_ (by simp [headerFor])
  · simp only [headerFor]
    omega
  · simp only [headerFor]
    split_ifs with hi
    · exact (he target (Nat.pos_of_ne_zero hi.1) le_rfl).1
    · decide
  · simp only [headerFor]
    split_ifs with hi
    · rcases statementsEnd_eq_zero_or entries (directoryIdAt target) target with
        hz | ⟨height, hpos, hht, -, -, heq⟩
      · rw [hz]
        decide
      · rw [heq]
        exact (he height hpos hht).2
    · decide
  · simp only [headerFor, expectedTargetIndex, filesPerDirectory] at *
    split_ifs <;> omega

end

structure Rolling (mode : FileBlockStorageMode) (blocks : List BlockElement) (entries : ℕ → BlockChunkIndexEntry)
    (target : ℕ) (temporary : ℕ → Option Bytes) (disk : Disk) : Prop where
  keeps : Keeps mode disk (blocks.take target) entries
  index : IndexHolds disk blocks.length ∨ IndexHolds disk target
  journal : disk.file .rollbackJournal = some (headerFor entries target blocks.length).toBytes
  temporary_eq : ∀ name, disk.file (.temporaryJournal name) = temporary name

namespace Rolling

section

variable (h : Rolling mode blocks entries target temporary disk)
include h

lemma congr (hf : ∀ path ≠ .rollbackLock, disk'.file path = disk.file path) :
    Rolling mode blocks entries target temporary disk' where
  keeps := h.keeps.congr (fun height element _ file => hf _ (by simp [chunkPath])) (hf _ (by simp))
  index := h.index.imp (·.congr (hf _ (by simp))) (·.congr (hf _ (by simp)))
  journal := (hf _ (by simp)).trans h.journal
  temporary_eq name := (hf _ (by simp)).trans (h.temporary_eq name)

lemma put {directoryId : ℕ} {file : ChunkFile} {content : Bytes}
    (hk : Keeps mode (disk.put (.inChunk directoryId file) content) (blocks.take target) entries) :
    Rolling mode blocks entries target temporary (disk.put (.inChunk directoryId file) content) where
  keeps := hk
  index := h.index.imp (·.congr (by simp)) (·.congr (by simp))
  journal := by simpa using h.journal
  temporary_eq name := by simpa using h.temporary_eq name

lemma delete {directoryId : ℕ} (file : ChunkFile) (hdir : directoryIdAt target < directoryId) :
    Rolling mode blocks entries target temporary (disk.delete (.inChunk directoryId file)) where
  keeps := by
    refine h.keeps.congr ?_ ?_
    · intro height element hblk file'
      have hle := directoryIdAt_mono (blockAt_take.mp hblk).2
      rw [Disk.file_delete, if_neg]
      simp only [chunkPath, Path.inChunk.injEq, not_and]
      omega
    · rw [Disk.file_delete, if_neg]
      simp only [Path.inChunk.injEq, not_and]
      omega
  index := h.index.imp (·.congr (by simp)) (·.congr (by simp))
  journal := by simpa using h.journal
  temporary_eq name := by simpa using h.temporary_eq name

end

end Rolling

section

lemma exists_target (hpos : 0 < target) (hle : target ≤ blocks.length) :
    ∃ element, BlockAt (blocks.take target) target element :=
  exists_blockAt hpos (by rw [length_take]; omega)

variable {condition : Prop} {message : String}

lemma require_eq_ok [Decidable condition] (h : condition) : require condition message = .ok () := if_pos h

lemma require_bind [Decidable condition] {next : Unit → Except StorageError Unit}
    (h : condition) (hn : next () = .ok ()) : (require condition message >>= next) = .ok () := by
  rw [require_eq_ok h]
  exact hn

lemma HoldsAt.isRegularFile {path : Path} {offset : ℕ} {data : Bytes} (h : HoldsAt (disk.file path) offset data) :
    isRegularFile path disk := by
  obtain ⟨before, after, hf, -⟩ := h
  rw [BlockStorage.isRegularFile, hf]
  rfl

lemma Layout.isSome_of_stmtSize (h : Layout blocks entries) {height : ℕ} {element : BlockElement}
    (hblk : BlockAt blocks height element) (hsz : 0 < (entries height).stmtSize) :
    element.optionalStatement.isSome := by
  rw [h.stmtSize height element hblk, statementData] at hsz
  cases hs : element.optionalStatement with
  | none => simp [hs] at hsz
  | some statement => rfl

lemma Keeps.statementsEnd_le (h : Keeps mode disk blocks entries) (hle : target ≤ blocks.length)
    (hpos : 0 < statementsEnd entries (directoryIdAt target) target) :
    isRegularFile (chunkPath target .statementsDat) disk ∧
      statementsEnd entries (directoryIdAt target) target ≤ fileSize (chunkPath target .statementsDat) disk := by
  rcases statementsEnd_eq_zero_or entries (directoryIdAt target) target with
    hz | ⟨height, hht, hle', hdir, hsz, heq⟩
  · omega
  · obtain ⟨element, hblk⟩ := exists_blockAt hht (hle'.trans hle)
    have hh := h.statement hblk (h.layout.isSome_of_stmtSize hblk hsz)
    rw [chunkPath, hdir] at hh
    refine ⟨hh.isRegularFile, ?_⟩
    have hlen := hh.contentOf.length_le
    rw [← h.layout.stmtSize height element hblk] at hlen
    rw [heq]
    exact hlen

lemma Keeps.validateRetainedChunk_eq_ok (h : Keeps mode disk (blocks.take target) entries)
    (hle : target ≤ blocks.length) (hi : target ≠ 0 ∧ indexAt target < filesPerDirectory - 1) (previousHeight : ℕ) :
    validateRetainedChunk (headerFor entries target previousHeight) (entries target) disk = .ok () := by
  obtain ⟨element, hblk⟩ := exists_target (Nat.pos_of_ne_zero hi.1) hle
  have hlen : target ≤ (blocks.take target).length := by
    rw [length_take]
    omega
  have hb : (headerFor entries target previousHeight).targetBlockEnd = (entries target).blockEnd := if_pos hi
  have hs : (headerFor entries target previousHeight).targetStmtEnd =
      statementsEnd entries (directoryIdAt target) target :=
    if_pos hi
  have hf : (entries target).blockEnd ≤ fileSize (chunkPath target .blocksDat) disk := by
    have hend := (h.block hblk).contentOf.length_le
    rwa [← h.layout.blockSize target element hblk] at hend
  have hl : lastStatementEnd (directoryIdAt target) disk target = statementsEnd entries (directoryIdAt target) target :=
    h.lastStatementEnd_eq hlen
  unfold validateRetainedChunk
  rw [hb, hs]
  refine require_bind hf (require_bind rfl (require_bind hl.symm ?_))
  split_ifs with hpos
  · obtain ⟨hfi, hsz⟩ := h.statementsEnd_le hlen hpos
    exact require_bind hfi (require_eq_ok hsz)
  · rfl

lemma Rolling.validate_eq_ok (h : Rolling mode blocks entries target temporary disk) (hle : target ≤ blocks.length) :
    validateRollbackJournal (headerFor entries target blocks.length) disk = .ok () := by
  obtain ⟨current, hc, hht⟩ : ∃ current, chainHeight disk = .ok current ∧
      (current = blocks.length ∨ current = target) := by
    rcases h.index with hidx | hidx
    · exact ⟨_, hidx.chainHeight_eq, .inl rfl⟩
    · exact ⟨_, hidx.chainHeight_eq, .inr rfl⟩
  refine require_bind ⟨rfl, rfl⟩ (require_bind hle (require_bind rfl ?_))
  rw [hc]
  refine require_bind hht ?_
  change (if target = 0 then _ else _) = _
  by_cases hz : target = 0
  · rw [if_pos hz]
    exact require_eq_ok ⟨if_neg fun hi => hi.1 hz, if_neg fun hi => hi.1 hz⟩
  · rw [if_neg hz]
    obtain ⟨element, hblk⟩ := exists_target (Nat.pos_of_ne_zero hz) hle
    refine require_bind (h.keeps.block hblk).isRegularFile (require_bind (h.keeps.entry hblk).isRegularFile ?_)
    have hent : hasChunkIndexEntry (headerFor entries target blocks.length).targetHeight disk = some (entries target) :=
      h.keeps.hasEntry hblk
    have hidx : indexAt target < filesPerDirectory := Nat.mod_lt _ (by decide)
    rw [hent]
    change (if indexAt target = filesPerDirectory - 1 then _ else _) = _
    split_ifs with hl
    · exact require_eq_ok ⟨if_neg fun hi => by omega, if_neg fun hi => by omega⟩
    · exact h.keeps.validateRetainedChunk_eq_ok hle ⟨hz, by omega⟩ blocks.length

end

end XpxChain.BlockStorage
