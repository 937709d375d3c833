import XpxChain.BlockStorage.Saving

/-! Loading gives back what was saved. -/

namespace XpxChain.BlockStorage

open Library BinaryFormats DurablePrograms FileBlockStorage List

variable {transactionCount : Bytes → ℕ} {mode : FileBlockStorageMode} {disk : Disk} {blocks : List BlockElement}
  {entries : ℕ → BlockChunkIndexEntry} {element : BlockElement} {height : ℕ}

lemma HoldsAt.left {content : Option Bytes} {offset : ℕ} {data more : Bytes}
    (h : HoldsAt content offset (data ++ more)) : HoldsAt content offset data := by
  obtain ⟨before, after, hc, hlen⟩ := h
  exact ⟨before, more ++ after, by simpa using hc, hlen⟩

lemma readAllOf_eq_ok {α : Type} {reader : Reader α} {data : Bytes} {a : α} (h : Reads reader data a)
    (message : String) : readAllOf reader data message height = .ok a := by
  have hr := h []
  rw [append_nil] at hr
  rw [readAllOf, hr]

lemma readBlockAt_eq_ok {path : Path} {offset : ℕ} {block : Bytes} (h : HoldsAt (disk.file path) offset block)
    (hblk : SizePrefixed block) : readBlockAt path offset disk = .ok block := by
  obtain ⟨hl, hlt, hsz⟩ := hblk
  have hf : HoldsAt (disk.file path) offset (littleEndian 4 block.length) := by
    rw [← hsz]
    rw [← take_append_drop 4 block] at h
    exact h.left
  have hr : readAt path offset 4 disk = .ok (littleEndian 4 block.length) := by
    rw [← readAt_eq_ok hf, length_littleEndian]
  rw [readBlockAt, hr]
  change readAt path offset (valueOf (littleEndian 4 block.length)) disk = _
  rw [valueOf_littleEndian hlt, readAt_eq_ok h]

section

variable (h : Keeps mode disk blocks entries) (hblk : BlockAt blocks height element)
include h hblk

lemma loadBlock_eq_ok (hht : ∀ message, requireHeight height message disk = .ok ())
    (hval : element.Valid transactionCount) : loadBlock height disk = .ok element.block := by
  have hb := h.block hblk
  rw [loadBlock, hht, h.hasEntry hblk]
  exact readBlockAt_eq_ok hb.left hval.block

lemma loadStatement_eq_ok (hval : element.Valid transactionCount) :
    loadStatement height (entries height) disk = .ok element.optionalStatement := by
  have hsz := h.layout.stmtSize height element hblk
  rw [loadStatement]
  cases hs : element.optionalStatement with
  | none =>
    rw [statementData, hs, Option.elim_none, length_nil] at hsz
    rw [hsz, if_neg (Nat.lt_irrefl 0)]
  | some statement =>
    have hh := h.statement hblk (by rw [hs]; rfl)
    rw [statementData, hs] at hsz hh
    rw [hsz, readAt_eq_ok hh]
    change (readAllOf readBlockStatement (writeBlockStatement statement) _ height >>= _) = _
    rw [readAllOf_eq_ok (reads_blockStatement (hval.statement statement hs))]
    rfl

lemma loadBlockElement_eq_ok (hht : ∀ message, requireHeight height message disk = .ok ())
    (hval : element.Valid transactionCount) : loadBlockElement transactionCount height disk = .ok element := by
  have hsz := h.layout.blockSize height element hblk
  rw [loadBlockElement, hht, h.hasEntry hblk]
  change (readAt _ _ (entries height).blockSize disk >>= _) = _
  rw [hsz, readAt_eq_ok (h.block hblk)]
  change (readAllOf _ _ _ _ >>= _) = _
  rw [readAllOf_eq_ok (reads_blockElement hval)]
  rw [loadStatement_eq_ok h hblk hval]
  rfl

lemma loadBlockStatementData_eq_ok (hht : ∀ message, requireHeight height message disk = .ok ()) :
    loadBlockStatementData height disk = .ok (statementData element, element.optionalStatement.isSome) := by
  have hsz := h.layout.stmtSize height element hblk
  rw [loadBlockStatementData, hht, h.hasEntry hblk]
  change (if (entries height).stmtSize = 0 then _ else _) = _
  cases hs : element.optionalStatement with
  | none =>
    rw [statementData, hs, Option.elim_none, length_nil] at hsz
    rw [statementData, hs, if_pos hsz]
    rfl
  | some statement =>
    have hh := h.statement hblk (by rw [hs]; rfl)
    rw [statementData, hs] at hsz hh ⊢
    have hp := length_writeBlockStatement statement
    rw [hsz, readAt_eq_ok hh]
    rfl

end

section

variable (h : Keeps .hashIndex disk blocks entries) (hlengths : ∀ element ∈ blocks, element.entityHash.length = 32)
include h hlengths

lemma slice_hashes (count : ℕ) (hpos : 0 < height) (hcnt : 0 < count) (hle : height + count ≤ blocks.length + 1)
    (hc : indexAt height + count ≤ filesPerDirectory) :
    ∃ content, disk.file (chunkPath height .hashesDat) = some content ∧ (indexAt height + count) * 32 ≤ content.length ∧
      splitHashes ((content.drop (indexAt height * 32)).take (count * 32)) count =
        ((blocks.drop (height - 1)).take count).map (·.entityHash) := by
  have hat : ∀ i, i < count → ∃ element, blocks[height - 1 + i]? = some element ∧
      HoldsAt (disk.file (chunkPath height .hashesDat)) ((indexAt height + i) * 32) element.entityHash := by
    intro i hi
    obtain ⟨element, hblk⟩ : ∃ element, BlockAt blocks (height + i) element := exists_blockAt (by omega) (by omega)
    have hdir : directoryIdAt (height + i) = directoryIdAt height := by
      simp only [directoryIdAt, indexAt, filesPerDirectory] at *
      omega
    have hidx : indexAt (height + i) = indexAt height + i := by
      simp only [indexAt, filesPerDirectory] at *
      omega
    have hh := h.hash hblk rfl
    rw [chunkPath, hdir, hidx] at hh
    refine ⟨element, ?_, hh⟩
    rw [← hblk.2]
    congr 1
    omega
  obtain ⟨content, hf⟩ : ∃ content, disk.file (chunkPath height .hashesDat) = some content := by
    obtain ⟨element, -, before, after, hco, -⟩ := hat 0 hcnt
    exact ⟨_, hco⟩
  refine ⟨content, hf, ?_, ?_⟩
  · obtain ⟨element, hget, hh⟩ := hat (count - 1) (by omega)
    rw [hf] at hh
    have hlen := hh.length_le
    rw [hlengths element (mem_of_getElem? hget)] at hlen
    omega
  · apply ext_getElem
    · simp only [splitHashes, length_map, length_range, length_take, length_drop]
      omega
    · intro i hi hi'
      have hlt : i < count := by simpa [splitHashes] using hi
      obtain ⟨element, hget, hh⟩ := hat i hlt
      rw [hf] at hh
      have hs := hh.slice
      rw [hlengths element (mem_of_getElem? hget)] at hs
      have he : blocks[height - 1 + i]? = some blocks[height - 1 + i] := getElem?_eq_getElem (by omega)
      have heq : blocks[height - 1 + i] = element := Option.some.inj (he.symm.trans hget)
      simp only [splitHashes, getElem_map, getElem_range, getElem_take, getElem_drop, heq]
      rw [← hs, drop_take, take_take, drop_drop, Nat.add_mul]
      congr 1
      omega

lemma readHashesFrom_eq_ok {fuel numHashes : ℕ} (hpos : 0 < height) (hle : height + numHashes ≤ blocks.length + 1)
    (hfu : numHashes ≤ fuel) :
    readHashesFrom disk fuel height numHashes =
      .ok (((blocks.drop (height - 1)).take numHashes).map (·.entityHash)) := by
  induction fuel generalizing height numHashes with
  | zero =>
    obtain rfl := Nat.le_zero.mp hfu
    rfl
  | succ fuel ih =>
    rw [readHashesFrom]
    by_cases hz : numHashes = 0
    · rw [hz]
      rfl
    rw [if_neg hz]
    have hidx : indexAt height < filesPerDirectory := Nat.mod_lt _ (by decide)
    set count := min numHashes (filesPerDirectory - indexAt height) with hcnt
    obtain ⟨content, hfi, hlen, hs⟩ := slice_hashes h hlengths count hpos (by omega) (by omega) (by omega)
    have ho : RawFile.openReadOnly (chunkPath height .hashesDat) disk =
        .ok ⟨chunkPath height .hashesDat, content.length, 0⟩ := by
      simp [RawFile.openReadOnly, hfi]
    have hsz : requireHashes height content.length = .ok () := by
      refine if_neg ?_
      rintro ⟨hf, hsh⟩
      obtain ⟨content', hfi', hlen'⟩ := h.hashes rfl
      rw [chunkPath, directoryIdAt, Nat.div_eq_of_lt hf, hfi'] at hfi
      cases hfi
      omega
    have hse : RawFile.seek ⟨chunkPath height .hashesDat, content.length, 0⟩ (indexAt height * 32) =
        .ok ⟨chunkPath height .hashesDat, content.length, indexAt height * 32⟩ :=
      if_neg (by simp only; omega)
    have hd : ((content.drop (indexAt height * 32)).take (count * 32)).length = count * 32 := by
      rw [length_take, length_drop]
      omega
    have hr : RawFile.read ⟨chunkPath height .hashesDat, content.length, indexAt height * 32⟩ (count * 32) disk =
        .ok ((content.drop (indexAt height * 32)).take (count * 32),
          ⟨chunkPath height .hashesDat, content.length, indexAt height * 32 + count * 32⟩) := by
      simp only [RawFile.read, hfi, Option.getD_some, hd, if_true]
    have hre : readHashesFrom disk fuel (height + count) (numHashes - count) =
        .ok (((blocks.drop (height + count - 1)).take (numHashes - count)).map (·.entityHash)) :=
      ih (by omega) (by omega) (by omega)
    rw [ho]
    simp only [Bind.bind, Except.bind, hsz, hse, hr, hre, Pure.pure, Except.pure, hs, Except.ok.injEq]
    rw [← map_append]
    congr 1
    have hdr : height + count - 1 = height - 1 + count := by omega
    rw [hdr, ← drop_drop, ← take_add]
    congr 1
    omega

end

structure Loads (transactionCount : Bytes → ℕ) (mode : FileBlockStorageMode) (disk : Disk)
    (blocks : List BlockElement) : Prop where
  chainHeight : chainHeight disk = .ok blocks.length
  block : ∀ height element, BlockAt blocks height element → loadBlock height disk = .ok element.block
  blockElement : ∀ height element, BlockAt blocks height element →
    loadBlockElement transactionCount height disk = .ok element
  blockStatementData : ∀ height element, BlockAt blocks height element →
    loadBlockStatementData height disk = .ok (statementData element, element.optionalStatement.isSome)
  hashes : mode = .hashIndex → ∀ (storage : FileBlockStorage) height maxHashes, storage.mode = mode → 0 < height →
    height ≤ blocks.length →
    storage.loadHashesFrom height maxHashes disk = .ok (((blocks.drop (height - 1)).take maxHashes).map (·.entityHash))

theorem Holds.loads (h : Holds transactionCount mode disk blocks) : Loads transactionCount mode disk blocks := by
  obtain ⟨⟨entries, hk⟩, hidx, hval⟩ := h
  have hht : ∀ height element message, BlockAt blocks height element → requireHeight height message disk = .ok () := by
    intro height element message hblk
    rw [requireHeight, hidx.chainHeight_eq]
    exact if_pos hblk.le_length
  have hv : ∀ height element, BlockAt blocks height element → element.Valid transactionCount :=
    fun height element hblk => hval element (mem_of_getElem? hblk.2)
  refine ⟨hidx.chainHeight_eq, ?_, ?_, ?_, ?_⟩
  · intro height element hblk
    exact loadBlock_eq_ok hk hblk (fun message => hht height element message hblk) (hv height element hblk)
  · intro height element hblk
    exact loadBlockElement_eq_ok hk hblk (fun message => hht height element message hblk) (hv height element hblk)
  · intro height element hblk
    exact loadBlockStatementData_eq_ok hk hblk fun message => hht height element message hblk
  · rintro rfl storage height maxHashes hm hpos hle
    rw [loadHashesFrom, hm, hidx.chainHeight_eq]
    change (if height = 0 ∨ blocks.length < height then _ else _) = _
    rw [if_neg (by omega)]
    rw [readHashesFrom_eq_ok hk (fun element hmem => (hval element hmem).entityHash) hpos (by omega) le_rfl]
    congr 2
    rw [← take_take, take_of_length_le (i := blocks.length - height + 1)]
    rw [length_drop]
    omega

end XpxChain.BlockStorage
