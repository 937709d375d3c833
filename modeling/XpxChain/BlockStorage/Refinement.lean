import XpxChain.BlockStorage.Recovery

/-! The storage is a list of blocks, also when a rollback is stopped. -/

namespace XpxChain.BlockStorage

open Library BinaryFormats DurablePrograms OrderedContainers

section

variable {transactionCount : Bytes → ℕ}

inductive Call (transactionCount : Bytes → ℕ)
  | saveBlock (element : { element : BlockElement // element.Valid transactionCount })
  | dropBlocksAfter (environment : Environment) (height : ℕ)
  | reopen (environment : Environment)

def Call.apply (blocks : List BlockElement) : Call transactionCount → List BlockElement
  | .saveBlock element => blocks ++ [element.1]
  | .dropBlocksAfter _ height => blocks.take height
  | .reopen _ => blocks

def Call.Admissible (disk : Disk) (blocks : List BlockElement) : Call transactionCount → Prop
  | .saveBlock element => element.1.height = blocks.length + 1 ∧ FitsInChunk disk element.1
  | .dropBlocksAfter _ height => height ≤ blocks.length
  | .reopen _ => True

instance (disk : Disk) (blocks : List BlockElement) :
    (call : Call transactionCount) → Decidable (call.Admissible disk blocks)
  | .saveBlock _ => inferInstanceAs (Decidable (_ ∧ _))
  | .dropBlocksAfter _ _ => inferInstanceAs (Decidable (_ ≤ _))
  | .reopen _ => isTrue trivial

namespace FileBlockStorage

def perform (storage : FileBlockStorage) : Call transactionCount → StorageProgram FileBlockStorage
  | .saveBlock element => storage.saveBlock element.1
  | .dropBlocksAfter environment height => storage.dropBlocksAfter environment height
  | .reopen environment => create environment storage.mode

def run (storage : FileBlockStorage) (calls : List (Call transactionCount)) : StorageProgram FileBlockStorage :=
  calls.foldlM perform storage

def AdmissibleRun (storage : FileBlockStorage) (disk : Disk) (blocks : List BlockElement) :
    List (Call transactionCount) → Prop
  | [] => True
  | call :: calls => call.Admissible disk blocks ∧
    match (storage.perform call disk).result with
    | .ok storage' => storage'.AdmissibleRun (storage.perform call disk).state (call.apply blocks) calls
    | .error _ => True

instance decidableAdmissibleRun (storage : FileBlockStorage) (disk : Disk) (blocks : List BlockElement) :
    (calls : List (Call transactionCount)) → Decidable (storage.AdmissibleRun disk blocks calls)
  | [] => isTrue trivial
  | call :: calls =>
    let _ : Decidable (match (storage.perform call disk).result with
        | .ok storage' => storage'.AdmissibleRun (storage.perform call disk).state (call.apply blocks) calls
        | .error _ => True) :=
      match (storage.perform call disk).result with
      | .ok storage' => storage'.decidableAdmissibleRun (storage.perform call disk).state (call.apply blocks) calls
      | .error _ => isTrue trivial
    inferInstanceAs (Decidable (_ ∧ _))

end FileBlockStorage

def blocksAfter (calls : List (Call transactionCount)) : List BlockElement := calls.foldl Call.apply []

end

structure WithoutBlocks (mode : FileBlockStorageMode) (disk : Disk) : Prop where
  index : IndexHolds disk 0
  journal : disk.file .rollbackJournal = none
  temporary : NoTemporaryJournal disk
  hashes : HashesReady mode disk

variable {transactionCount : Bytes → ℕ} {mode : FileBlockStorageMode} {storage : FileBlockStorage} {disk : Disk}
  {blocks : List BlockElement} {entries : ℕ → BlockChunkIndexEntry} {target : ℕ} {environment : Environment}

lemma Usable.atRest (h : Usable transactionCount storage disk blocks) :
    ∃ entries, AtRest storage.mode blocks entries disk := by
  obtain ⟨entries, hk⟩ := h.keeps
  exact ⟨entries, hk, h.index, h.journal⟩

lemma AtRest.usable (h : AtRest mode blocks entries disk) (htmp : NoTemporaryJournal disk)
    (hval : ∀ element ∈ blocks, element.Valid transactionCount) : Usable transactionCount { mode } disk blocks where
  keeps := ⟨entries, h.keeps⟩
  index := h.index
  valid := hval
  journal := h.journal
  temporary := htmp
  hashFile := by simp [HashFile.Consistent]
  chunkWriter := by simp [ChunkWriter.Consistent]

lemma Stopped.meets_create (h : Stopped mode blocks entries target disk) (hle : target ≤ blocks.length)
    (hlen : blocks.length < 2 ^ 64) (environment : Environment) :
    Meets (FileBlockStorage.create environment mode) (Stopped mode blocks entries target) (fun storage' d =>
      storage' = { mode } ∧
      (AtRest mode blocks entries d ∨ AtRest mode (blocks.take target) entries d) ∧ NoTemporaryJournal d) disk :=
  Meets.bind ((h.meets_recoverUnfinishedRollback hle hlen).mono fun _ _ hd => Meets.pure ⟨rfl, hd⟩)

lemma meets_perform (h : Usable transactionCount storage disk blocks) {call : Call transactionCount}
    (hc : call.Admissible disk blocks) : Meets (storage.perform call) (fun _ => True)
      (fun storage' d => storage'.mode = storage.mode ∧
        Usable transactionCount storage' d (call.apply blocks)) disk := by
  obtain ⟨entries, hr⟩ := h.atRest
  cases call with
  | saveBlock element => exact meets_saveBlock h element.2 hc.1 hc.2
  | dropBlocksAfter environment height =>
    refine ((hr.meets_dropBlocksAfter rfl hc h.temporary).weaken fun _ _ => trivial).mono ?_
    rintro storage' d ⟨rfl, hd, htmp⟩
    exact ⟨rfl, hd.usable htmp fun element hmem => h.valid element (List.mem_of_mem_take hmem)⟩
  | reopen environment =>
    have hs : Stopped storage.mode blocks entries blocks.length disk := .inl hr
    refine ((hs.meets_create le_rfl hr.length_lt environment).weaken fun _ _ => trivial).mono ?_
    rintro storage' d ⟨rfl, hd, htmp⟩
    rw [List.take_length, or_self] at hd
    exact ⟨rfl, hd.usable htmp h.valid⟩

lemma meets_run (h : Usable transactionCount storage disk blocks) {calls : List (Call transactionCount)}
    (hc : storage.AdmissibleRun disk blocks calls) : Meets (storage.run calls) (fun _ => True)
      (fun storage' d => storage'.mode = storage.mode ∧
        Usable transactionCount storage' d (calls.foldl Call.apply blocks)) disk := by
  induction calls generalizing storage disk blocks with
  | nil => exact Meets.pure ⟨rfl, h⟩
  | cons call calls ih =>
    obtain ⟨hca, hc⟩ := hc
    obtain ⟨hs, storage', hres, hm, hu⟩ := meets_perform h hca
    rw [hres] at hc
    exact Meets.bind ⟨hs, storage', hres, (ih hu hc).mono fun _ _ hd => ⟨hd.1.trans hm, hd.2⟩⟩

lemma WithoutBlocks.usable (h : WithoutBlocks mode disk) : Usable transactionCount { mode } disk [] := by
  have hn : ∀ height element, ¬ BlockAt [] height element := fun height element hblk => by simp [BlockAt] at hblk
  have hk : Keeps mode disk [] fun _ => ⟨0, 0, 0, 0⟩ := by
    refine ⟨⟨?_, ?_, ?_, ?_, ?_⟩, fun height element hblk => absurd hblk (hn height element), h.hashes⟩
    all_goals first
      | exact fun height element hblk => absurd hblk (hn height element)
      | exact fun height later hpos hlt hle => absurd hle (by simp; omega)
  exact AtRest.usable ⟨hk, h.index, h.journal⟩ h.temporary (by simp)

/-- No call throws, and what is loaded afterwards is what a list of blocks has. -/
theorem file_block_storage_refines_block_list (hstart : WithoutBlocks mode disk) {calls : List (Call transactionCount)}
    (hcalls : ({ mode } : FileBlockStorage).AdmissibleRun disk [] calls) :
    ∃ storage, (({ mode } : FileBlockStorage).run calls disk).result = .ok storage ∧ storage.mode = mode ∧
      Loads transactionCount mode (({ mode } : FileBlockStorage).run calls disk).state (blocksAfter calls) := by
  obtain ⟨-, storage, hresult, hmode, husable⟩ := meets_run hstart.usable hcalls
  refine ⟨storage, hresult, hmode, ?_⟩
  have hloads := husable.toHolds.loads
  rwa [hmode] at hloads

section

def sampleElement (height : ℕ) (hash : Byte) (optionalStatement : Option BlockStatement) : BlockElement where
  block := littleEndian 4 114 ++ List.replicate 102 0 ++ littleEndian 8 height
  entityHash := List.replicate 32 hash
  generationHash := List.replicate 32 0
  transactions := []
  subCacheMerkleRoots := []
  optionalStatement := optionalStatement

def emptyStatement : BlockStatement := ⟨[], [], [], []⟩

lemma valid_sampleElement (height : ℕ) (hash : Byte) (optionalStatement : Option BlockStatement)
    (h : optionalStatement = none ∨ optionalStatement = some emptyStatement) :
    (sampleElement height hash optionalStatement).Valid fun _ => 0 where
  block := by
    have hlen : (sampleElement height hash optionalStatement).block.length = 114 := by simp [sampleElement]
    refine ⟨by omega, by omega, ?_⟩
    rfl
  header := by simp [sampleElement]
  entityHash := by simp [sampleElement]
  generationHash := by simp [sampleElement]
  transactions := rfl
  transactions_few := by simp [sampleElement]
  transactionHashes := by simp [sampleElement]
  roots_few := by simp [sampleElement]
  roots := by simp [sampleElement]
  statement := by
    rcases h with rfl | rfl
    · simp [sampleElement]
    · rintro statement hs
      cases hs
      constructor <;> constructor <;> simp [emptyStatement]

def sampleEnvironment : Environment := ⟨id, fun _ => .refl _, id, fun _ => .refl _, 0, true⟩

def sampleDisk : Disk := (({} : Disk).createDirectory 0).put (.inChunk 0 .hashesDat) (List.replicate 64 0)

lemma withoutBlocks_sampleDisk : WithoutBlocks .hashIndex sampleDisk where
  index := .inr ⟨.inl (by decide +kernel), rfl⟩
  journal := by decide +kernel
  temporary name := by
    rw [sampleDisk, Disk.file_put, Disk.file_createDirectory]
    simp [Disk.file]
  hashes _ := ⟨List.replicate 64 0, by decide +kernel, by decide⟩

def sampleCalls : List (Call fun _ => 0) :=
  [.saveBlock ⟨sampleElement 1 1 (some emptyStatement), valid_sampleElement _ _ _ (.inr rfl)⟩,
    .saveBlock ⟨sampleElement 2 2 none, valid_sampleElement _ _ _ (.inl rfl)⟩,
    .dropBlocksAfter sampleEnvironment 1,
    .reopen sampleEnvironment,
    .saveBlock ⟨sampleElement 2 3 (some emptyStatement), valid_sampleElement _ _ _ (.inr rfl)⟩]

end

theorem file_block_storage_refines_block_list_sample :
    Loads (fun _ => 0) .hashIndex (({ mode := .hashIndex } : FileBlockStorage).run sampleCalls sampleDisk).state
      [sampleElement 1 1 (some emptyStatement), sampleElement 2 3 (some emptyStatement)] := by
  have hcalls : ({ mode := .hashIndex } : FileBlockStorage).AdmissibleRun sampleDisk [] sampleCalls := by decide +kernel
  obtain ⟨_, -, -, hloads⟩ := file_block_storage_refines_block_list withoutBlocks_sampleDisk hcalls
  exact hloads

def RestartedAndStopped (mode : FileBlockStorageMode) (disk disk' : Disk) : Prop :=
  ∃ environment, disk' ∈ (FileBlockStorage.create environment mode).stops disk

lemma Stopped.restarts (h : Stopped mode blocks entries target disk) (hle : target ≤ blocks.length)
    (hlen : blocks.length < 2 ^ 64) {disk' : Disk} (hr : Relation.ReflTransGen (RestartedAndStopped mode) disk disk') :
    Stopped mode blocks entries target disk' := by
  induction hr with
  | refl => exact h
  | tail _ hs ih =>
    obtain ⟨environment, hst⟩ := hs
    exact (ih.meets_create hle hlen environment).stops ih _ hst

theorem interrupted_rollback_is_atomic (hstart : WithoutBlocks mode disk) {calls : List (Call transactionCount)}
    (hcalls : ({ mode } : FileBlockStorage).AdmissibleRun disk [] calls)
    (hreached : (({ mode } : FileBlockStorage).run calls disk).result = .ok storage)
    (htarget : target < (blocksAfter calls).length) {stopped last : Disk}
    (hstop : stopped ∈ (storage.dropBlocksAfter environment target).stops
      (({ mode } : FileBlockStorage).run calls disk).state)
    (hrestarts : Relation.ReflTransGen (RestartedAndStopped mode) stopped last) (environment' : Environment) :
    ∃ storage', (FileBlockStorage.create environment' mode last).result = .ok storage' ∧ storage'.mode = mode ∧
      (FileBlockStorage.create environment' mode last).state.file .rollbackJournal = none ∧
      NoTemporaryJournal (FileBlockStorage.create environment' mode last).state ∧
      (Loads transactionCount mode (FileBlockStorage.create environment' mode last).state (blocksAfter calls) ∨
        Loads transactionCount mode (FileBlockStorage.create environment' mode last).state
          ((blocksAfter calls).take target)) := by
  obtain ⟨-, storage₁, hresult, hmode, husable⟩ := meets_run hstart.usable hcalls
  obtain rfl : storage₁ = storage := by
    rw [hreached] at hresult
    exact (Except.ok.inj hresult).symm
  obtain ⟨entries, hrest⟩ := husable.atRest
  rw [hmode] at hrest
  have hstopped : Stopped mode (blocksAfter calls) entries target stopped :=
    (hrest.meets_dropBlocksAfter hmode htarget.le husable.temporary).stops (.inl hrest) _ hstop
  have hlast := hstopped.restarts htarget.le hrest.length_lt hrestarts
  obtain ⟨-, storage', hcreated, rfl, hd, htemporary⟩ := hlast.meets_create htarget.le hrest.length_lt environment'
  refine ⟨_, hcreated, rfl, hd.elim (·.journal) (·.journal), htemporary, ?_⟩
  exact hd.imp (fun hd => (hd.usable htemporary husable.valid).toHolds.loads) fun hd =>
    (hd.usable htemporary fun element hmem => husable.valid element (List.mem_of_mem_take hmem)).toHolds.loads

section

def rolledDisk : Disk := (({ mode := .hashIndex } : FileBlockStorage).run sampleCalls sampleDisk).state

def rollingStorage : FileBlockStorage :=
  (({ mode := .hashIndex } : FileBlockStorage).run sampleCalls sampleDisk).result.toOption.getD { mode := .hashIndex }

def firstStop : Disk :=
  ((rollingStorage.dropBlocksAfter sampleEnvironment 1).stops rolledDisk).get ⟨3, by decide +kernel⟩

def secondStop : Disk :=
  ((FileBlockStorage.create sampleEnvironment .hashIndex).stops firstStop).get ⟨2, by decide +kernel⟩

end

theorem interrupted_rollback_is_atomic_sample : secondStop.file .rollbackJournal ≠ none ∧
    ∃ storage', (FileBlockStorage.create sampleEnvironment .hashIndex secondStop).result = .ok storage' ∧
      storage'.mode = .hashIndex ∧
      (FileBlockStorage.create sampleEnvironment .hashIndex secondStop).state.file .rollbackJournal = none ∧
      NoTemporaryJournal (FileBlockStorage.create sampleEnvironment .hashIndex secondStop).state ∧
      (Loads (fun _ => 0) .hashIndex (FileBlockStorage.create sampleEnvironment .hashIndex secondStop).state
        (blocksAfter sampleCalls) ∨
        Loads (fun _ => 0) .hashIndex (FileBlockStorage.create sampleEnvironment .hashIndex secondStop).state
          ((blocksAfter sampleCalls).take 1)) := by
  have hcalls : ({ mode := .hashIndex } : FileBlockStorage).AdmissibleRun sampleDisk [] sampleCalls := by decide +kernel
  have hreached : (({ mode := .hashIndex } : FileBlockStorage).run sampleCalls sampleDisk).result =
      .ok rollingStorage := by
    decide +kernel
  refine ⟨by decide +kernel, ?_⟩
  exact interrupted_rollback_is_atomic withoutBlocks_sampleDisk hcalls hreached (by decide) (List.get_mem _ _)
    (.single ⟨sampleEnvironment, List.get_mem _ _⟩) sampleEnvironment

end XpxChain.BlockStorage
