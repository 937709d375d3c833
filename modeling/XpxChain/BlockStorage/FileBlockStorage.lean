import XpxChain.BlockStorage.RollbackJournal

/-! The storage of blocks in chunk files. -/

namespace XpxChain.BlockStorage

open Std Library OrderedContainers BinaryFormats DurablePrograms

section

structure HashFile where
  cached : Option (ℕ × RawFile) := none
deriving DecidableEq

structure CachedChunk where
  directoryId : ℕ
  blocksFile : RawFile
  stmtFile : RawFile
  idxFile : RawFile
deriving DecidableEq

structure ChunkWriter where
  cached : Option CachedChunk := none
deriving DecidableEq

def createDirectories (height : ℕ) : StorageProgram Unit := do
  let exists' ← Program.query fun disk => .ok (decide (directoryIdAt height ∈ disk.directories))
  if exists' then pure () else Program.change (Disk.createDirectory (directoryIdAt height))

def requireHashes (height size : ℕ) : Except StorageError Unit :=
  if height < filesPerDirectory ∧ size < 32 * 2 then .error (.runtimeError "hashes.dat has invalid size" size)
  else .ok ()

def openHashFile (height : ℕ) : StorageProgram RawFile := do
  createDirectories height
  let file ← RawFile.openReadAppend (chunkPath height .hashesDat)
  Program.query fun _ => requireHashes height file.fileSize
  return file

def HashFile.openAt (hashFile : HashFile) (height : ℕ) : StorageProgram RawFile :=
  match hashFile.cached with
  | some (directoryId, file) => if directoryId = directoryIdAt height then pure file else openHashFile height
  | none => openHashFile height

def HashFile.save (hashFile : HashFile) (height : ℕ) (hash : Hash256) : StorageProgram HashFile := do
  let file ← hashFile.openAt height
  let file ← Program.query fun _ => file.seek (indexAt height * 32)
  let file ← file.write hash
  return ⟨some (directoryIdAt height, file)⟩

def openChunk (height : ℕ) : StorageProgram CachedChunk := do
  createDirectories height
  let blocksFile ← RawFile.openReadAppend (chunkPath height .blocksDat)
  let stmtFile ← RawFile.openReadAppend (chunkPath height .statementsDat)
  let idxFile ← RawFile.openReadAppend (chunkPath height .blocksIdx)
  return ⟨directoryIdAt height, blocksFile, stmtFile, idxFile⟩

def ChunkWriter.openAt (writer : ChunkWriter) (height : ℕ) : StorageProgram CachedChunk :=
  match writer.cached with
  | some chunk => if chunk.directoryId = directoryIdAt height then pure chunk else openChunk height
  | none => openChunk height

def checkSize (size : ℕ) (message : String) (height : ℕ) : Except StorageError Unit :=
  if 2 ^ 32 - 1 < size then .error (.runtimeError message height) else .ok ()

/-- Data is written to the end of a file, whose size must stay below 4 GB. -/
def appendData (file : RawFile) (data : Bytes) (height : ℕ) (message : String) : StorageProgram RawFile := do
  let file ← Program.query fun _ => file.seek file.fileSize
  let written ← file.write data
  Program.query fun _ => checkSize (written.fileSize - file.fileSize) message height
  return written

def appendStatement (file : RawFile) (statement : Option BlockStatement) (height : ℕ) : StorageProgram RawFile :=
  match statement with
  | none => pure file
  | some statement => appendData file (writeBlockStatement statement) height "statement size exceeded 4GB at height"

def padIndex (file : RawFile) (targetOffset : ℕ) : StorageProgram RawFile :=
  if file.fileSize < targetOffset then do
    let padded ← Program.query fun _ => file.seek file.fileSize
    padded.write (List.replicate (targetOffset - file.fileSize) 0)
  else pure file

def writeIndexEntry (file : RawFile) (height : ℕ) (entry : BlockChunkIndexEntry) : StorageProgram RawFile := do
  let file ← padIndex file (indexAt height * BlockChunkIndexEntry.size)
  let file ← Program.query fun _ => file.seek (indexAt height * BlockChunkIndexEntry.size)
  file.write entry.toBytes

def ChunkWriter.save (writer : ChunkWriter) (height : ℕ) (element : BlockElement) : StorageProgram ChunkWriter := do
  let chunk ← writer.openAt height
  Program.query fun _ => checkSize chunk.blocksFile.fileSize "blocks.dat exceeded 4GB for directory at height" height
  let blocksFile ← appendData chunk.blocksFile (writeBlockElement element) height "block size exceeded 4GB at height"
  Program.query fun _ => checkSize chunk.stmtFile.fileSize "statements.dat exceeded 4GB for directory at height" height
  let stmtFile ← appendStatement chunk.stmtFile element.optionalStatement height
  let idxFile ← writeIndexEntry chunk.idxFile height
    { blockOffset := chunk.blocksFile.fileSize
      blockSize := blocksFile.fileSize - chunk.blocksFile.fileSize
      stmtOffset := chunk.stmtFile.fileSize
      stmtSize := stmtFile.fileSize - chunk.stmtFile.fileSize }
  return ⟨some ⟨chunk.directoryId, blocksFile, stmtFile, idxFile⟩⟩

end

structure FileBlockStorage where
  mode : FileBlockStorageMode
  hashFile : HashFile := {}
  chunkWriter : ChunkWriter := {}
deriving DecidableEq

namespace FileBlockStorage

variable (storage : FileBlockStorage) (transactionCount : Bytes → ℕ)

def create (environment : Environment) (mode : FileBlockStorageMode) : StorageProgram FileBlockStorage := do
  recoverUnfinishedRollback environment
  return { mode }

def saveHash (height : ℕ) (hash : Hash256) : StorageProgram HashFile :=
  match storage.mode with
  | .hashIndex => storage.hashFile.save height hash
  | .none => pure storage.hashFile

def cannotSave : StorageError := .invalidArgument "cannot save block with height "

def saveBlock (element : BlockElement) : StorageProgram FileBlockStorage := do
  let currentHeight ← Program.query chainHeight
  let height := element.height
  if height ≠ (currentHeight + 1) % 2 ^ 64 then Program.fail cannotSave
  else
    let chunkWriter ← storage.chunkWriter.save height element
    let hashFile ← storage.saveHash height element.entityHash
    if currentHeight < height then IndexFile.set height else pure ()
    return { storage with hashFile, chunkWriter }

def rollbackHeader (height currentHeight : ℕ) (disk : Disk) : Except StorageError RollbackJournalHeader :=
  if height ≠ 0 ∧ indexAt height < filesPerDirectory - 1 then
    match hasChunkIndexEntry height disk with
    | none => .error (.invalidArgument "cannot rollback: retained block index entry missing at height ")
    | some retainedEntry => .ok
      { targetHeight := height
        previousHeight := currentHeight
        targetBlockEnd := retainedEntry.blockEnd
        targetStmtEnd := lastStatementEnd (directoryIdAt height) disk height
        targetIndex := expectedTargetIndex height }
  else .ok
    { targetHeight := height
      previousHeight := currentHeight
      targetBlockEnd := 0
      targetStmtEnd := 0
      targetIndex := expectedTargetIndex height }

def rollBack (environment : Environment) (height currentHeight : ℕ) : StorageProgram Unit := do
  let header ← Program.query (rollbackHeader height currentHeight)
  writeRollbackJournal environment header
  applyRollbackOperations environment header
  removeJournal

def dropBlocksAfter (environment : Environment) (height : ℕ) : StorageProgram FileBlockStorage := do
  acquireRollbackLock
  let journal ← Program.query fun disk => .ok (isRegularFile .rollbackJournal disk)
  if journal then Program.fail rollbackInProgress
  else
    let currentHeight ← Program.query chainHeight
    if currentHeight = 0 ∧ height ≠ 0 then IndexFile.set height
    else if currentHeight ≤ height ∧ height ≠ 0 then pure ()
    else rollBack environment height currentHeight
    return { mode := storage.mode }

def requireHeight (height : ℕ) (message : String) (disk : Disk) : Except StorageError Unit := do
  let currentHeight ← chainHeight disk
  if height ≤ currentHeight then .ok () else .error (.invalidArgument message)

def readBlockAt (path : Path) (offset : ℕ) (disk : Disk) : Except StorageError Bytes := do
  let size ← readAt path offset 4 disk
  readAt path offset (valueOf size) disk

def loadBlock (height : ℕ) (disk : Disk) : Except StorageError Bytes := do
  requireHeight height "cannot load block at height" disk
  match hasChunkIndexEntry height disk with
  | some entry => readBlockAt (chunkPath height .blocksDat) entry.blockOffset disk
  | none =>
    if isRegularFile (chunkPath height (.block (indexAt height))) disk then
      readBlockAt (chunkPath height (.block (indexAt height))) 0 disk
    else .error (.runtimeError "block not found at height" height)

def readAllOf {α : Type} (reader : Reader α) (data : Bytes) (message : String) (height : ℕ) : Except StorageError α :=
  match reader.run data with
  | none => .error (.fileIoError "couldn't read from file")
  | some (a, []) => .ok a
  | some (_, _ :: _) => .error (.runtimeError message height)

def loadStatement (height : ℕ) (entry : BlockChunkIndexEntry) (disk : Disk) :
    Except StorageError (Option BlockStatement) :=
  if 0 < entry.stmtSize then do
    let data ← readAt (chunkPath height .statementsDat) entry.stmtOffset entry.stmtSize disk
    let statement ← readAllOf readBlockStatement data "additional data after block statement at height" height
    return some statement
  else .ok none

def loadBlockElement (height : ℕ) (disk : Disk) : Except StorageError BlockElement := do
  requireHeight height "cannot load block element at height" disk
  match hasChunkIndexEntry height disk with
  | some entry => do
    let data ← readAt (chunkPath height .blocksDat) entry.blockOffset entry.blockSize disk
    let element ← readAllOf (readBlockElement transactionCount) data "additional data after block at height" height
    let optionalStatement ← loadStatement height entry disk
    return { element with optionalStatement }
  | none =>
    match disk.file (chunkPath height (.block (indexAt height))) with
    | some data => readAllOf (readBlockElement transactionCount) data "additional data after block at height" height
    | none => .error (.runtimeError "block element not found at height" height)

def loadBlockStatementData (height : ℕ) (disk : Disk) : Except StorageError (Bytes × Bool) := do
  requireHeight height "cannot load block statement data at height" disk
  match hasChunkIndexEntry height disk with
  | some entry =>
    if entry.stmtSize = 0 then return ([], false)
    else do
      let data ← readAt (chunkPath height .statementsDat) entry.stmtOffset entry.stmtSize disk
      return (data, true)
  | none =>
    match disk.file (chunkPath height (.blockStatement (indexAt height))) with
    | some data => return (data, true)
    | none => return ([], false)

def splitHashes (data : Bytes) (count : ℕ) : List Hash256 :=
  (List.range count).map fun i => (data.drop (i * 32)).take 32

def readHashesFrom (disk : Disk) (fuel height numHashes : ℕ) : Except StorageError (List Hash256) :=
  match fuel with
  | 0 => .ok []
  | fuel + 1 =>
    if numHashes = 0 then .ok []
    else do
      let file ← RawFile.openReadOnly (chunkPath height .hashesDat) disk
      requireHashes height file.fileSize
      let file ← file.seek (indexAt height * 32)
      let count := min numHashes (filesPerDirectory - indexAt height)
      let (data, _) ← file.read (count * 32) disk
      let hashes ← readHashesFrom disk fuel (height + count) (numHashes - count)
      return splitHashes data count ++ hashes

def loadHashesFrom (height maxHashes : ℕ) (disk : Disk) : Except StorageError (List Hash256) :=
  match storage.mode with
  | .none => .error (.invalidArgument "loadHashesFrom is not supported when Hash_Index mode is disabled")
  | .hashIndex => do
    let currentHeight ← chainHeight disk
    if height = 0 ∨ currentHeight < height then return []
    else
      let numHashes := min maxHashes (currentHeight - height + 1)
      readHashesFrom disk numHashes height numHashes

end FileBlockStorage

end XpxChain.BlockStorage
