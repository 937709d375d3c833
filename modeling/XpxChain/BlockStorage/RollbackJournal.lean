import XpxChain.BlockStorage.ChunkFiles

/-! The rollback journal, and what a rollback does to the chunk files. -/

namespace XpxChain.BlockStorage

open Std Library OrderedContainers BinaryFormats DurablePrograms

section

structure RollbackJournalHeader where
  magic : ℕ := 0x5349524A
  version : ℕ := 1
  targetHeight : ℕ
  previousHeight : ℕ
  targetBlockEnd : ℕ
  targetStmtEnd : ℕ
  targetIndex : ℕ
  padding : ℕ := 0
deriving DecidableEq, Repr

namespace RollbackJournalHeader

def size : ℕ := 48

def toBytes (header : RollbackJournalHeader) : Bytes :=
  littleEndian 4 header.magic ++ (littleEndian 4 header.version ++ (littleEndian 8 header.targetHeight ++
    (littleEndian 8 header.previousHeight ++
      (littleEndian 8 header.targetBlockEnd ++ (littleEndian 8 header.targetStmtEnd ++
      (littleEndian 4 header.targetIndex ++ littleEndian 4 header.padding))))))

def ofBytes (bytes : Bytes) : RollbackJournalHeader where
  magic := valueOf (bytes.take 4)
  version := valueOf ((bytes.drop 4).take 4)
  targetHeight := valueOf ((bytes.drop 8).take 8)
  previousHeight := valueOf ((bytes.drop 16).take 8)
  targetBlockEnd := valueOf ((bytes.drop 24).take 8)
  targetStmtEnd := valueOf ((bytes.drop 32).take 8)
  targetIndex := valueOf ((bytes.drop 40).take 4)
  padding := valueOf ((bytes.drop 44).take 4)

end RollbackJournalHeader

def require (condition : Prop) [Decidable condition] (message : String) : Except StorageError Unit :=
  if condition then .ok () else .error (.fileIoError message)

def fileSize (path : Path) (disk : Disk) : ℕ := ((disk.file path).getD []).length

def isRegularFile (path : Path) (disk : Disk) : Bool := (disk.file path).isSome

def expectedTargetIndex (height : ℕ) : ℕ := if height = 0 then 0 else indexAt height + 1

def validateRetainedChunk (header : RollbackJournalHeader) (retainedEntry : BlockChunkIndexEntry) (disk : Disk) :
    Except StorageError Unit := do
  let height := header.targetHeight
  require (header.targetBlockEnd ≤ fileSize (chunkPath height .blocksDat) disk)
    "corrupted rollback.journal: targetBlockEnd exceeds actual blocks.dat size"
  require (header.targetBlockEnd = retainedEntry.blockEnd)
    "corrupted rollback.journal: targetBlockEnd does not match index entry"
  require (header.targetStmtEnd = lastStatementEnd (directoryIdAt height) disk height)
    "corrupted rollback.journal: targetStmtEnd does not match index entries"
  if 0 < header.targetStmtEnd then
    require (isRegularFile (chunkPath height .statementsDat) disk)
      "missing statements.dat during rollback when targetStmtEnd > 0"
    require (header.targetStmtEnd ≤ fileSize (chunkPath height .statementsDat) disk)
      "corrupted rollback.journal: targetStmtEnd exceeds actual statements.dat size"

def validateRollbackJournal (header : RollbackJournalHeader) (disk : Disk) : Except StorageError Unit := do
  require (header.magic = 0x5349524A ∧ header.version = 1) "corrupted rollback.journal: invalid magic or version"
  require (header.targetHeight ≤ header.previousHeight)
    "corrupted rollback.journal: targetHeight is greater than previousHeight"
  require (header.targetIndex = expectedTargetIndex header.targetHeight)
    "corrupted rollback.journal: targetIndex does not match targetHeight"
  let currentHeight ← chainHeight disk
  require (currentHeight = header.previousHeight ∨ currentHeight = header.targetHeight)
    "corrupted rollback.journal: index.dat height does not match journal state"
  let height := header.targetHeight
  if height = 0 then
    require (header.targetBlockEnd = 0 ∧ header.targetStmtEnd = 0)
      "corrupted rollback.journal: targetBlockEnd or targetStmtEnd must be 0 for targetHeight 0"
  else
    require (isRegularFile (chunkPath height .blocksDat) disk) "missing blocks.dat during rollback"
    require (isRegularFile (chunkPath height .blocksIdx) disk) "missing blocks.idx during rollback"
    match hasChunkIndexEntry height disk with
    | none => throw (.fileIoError "missing retained block index entry during rollback")
    | some retainedEntry =>
      if indexAt height = filesPerDirectory - 1 then
        require (header.targetBlockEnd = 0 ∧ header.targetStmtEnd = 0)
          "corrupted rollback.journal: boundary targetBlockEnd or targetStmtEnd must be 0"
      else validateRetainedChunk header retainedEntry disk

end

/-- What a call finds outside of the storage: the order in which directories are listed, the name of the temporary
journal and whether the file system has hard links. -/
structure Environment where
  listDirectories : List ℕ → List ℕ
  listDirectories_perm : ∀ l, (listDirectories l).Perm l
  listFiles : List Path → List Path
  listFiles_perm : ∀ l, (listFiles l).Perm l
  temporaryName : ℕ
  hardLinks : Bool

section

def Path.isInDirectory (directoryId : ℕ) : Path → Bool
  | .inChunk id _ => id = directoryId
  | _ => false

def Path.isTemporaryJournal : Path → Bool
  | .temporaryJournal _ => true
  | _ => false

def removeAll (environment : Environment) (directoryId : ℕ) : StorageProgram Unit := do
  let paths ← Program.query fun disk =>
    .ok (environment.listFiles (disk.files.keys.filter (·.isInDirectory directoryId)))
  paths.forM fun path => Program.change (Disk.delete path)
  Program.change (Disk.removeDirectory directoryId)

/-- `TryGetChunkId` knows only names of five digits. -/
def isFutureChunk (retainedChunkId directoryId : ℕ) : Bool := directoryId < 100000 ∧ retainedChunkId < directoryId

def purgeFutureChunks (environment : Environment) (retainedChunkId : ℕ) : StorageProgram Unit := do
  let directories ← Program.query fun disk => .ok (environment.listDirectories (ascending disk.directories))
  (directories.filter (isFutureChunk retainedChunkId)).forM (removeAll environment)

def clearFile (path : Path) (message : String) : StorageProgram Unit := do
  let isFile ← Program.query fun disk => .ok (isRegularFile path disk)
  if isFile then resizeFile path 0 message else pure ()

def zeroIndexFrom (path : Path) (targetOffset : ℕ) : StorageProgram Unit := do
  let file ← RawFile.openReadAppend path
  if targetOffset < file.fileSize then
    let zeroed ← Program.query fun _ => file.seek targetOffset
    let _ ← zeroed.write (List.replicate (file.fileSize - targetOffset) 0)
  else pure ()

def truncateStatements (height targetStmtEnd : ℕ) : StorageProgram Unit :=
  if 0 < targetStmtEnd then
    resizeFile (chunkPath height .statementsDat) targetStmtEnd "failed to resize statements.dat: "
  else clearFile (chunkPath height .statementsDat) "failed to resize statements.dat: "

def truncateRetainedChunk (header : RollbackJournalHeader) : StorageProgram Unit :=
  let height := header.targetHeight
  if height = 0 then do
    clearFile (chunkPath 0 .blocksDat) "failed to resize blocks.dat at height 0: "
    clearFile (chunkPath 0 .statementsDat) "failed to resize statements.dat at height 0: "
    clearFile (chunkPath 0 .blocksIdx) "failed to resize blocks.idx at height 0: "
  else if indexAt height < filesPerDirectory - 1 then do
    resizeFile (chunkPath height .blocksDat) header.targetBlockEnd "failed to resize blocks.dat: "
    truncateStatements height header.targetStmtEnd
    zeroIndexFrom (chunkPath height .blocksIdx) (header.targetIndex * BlockChunkIndexEntry.size)
  else pure ()

def applyRollbackOperations (environment : Environment) (header : RollbackJournalHeader) : StorageProgram Unit := do
  Program.query (validateRollbackJournal header)
  truncateRetainedChunk header
  IndexFile.set header.targetHeight
  purgeFutureChunks environment (directoryIdAt header.targetHeight)

def rollbackInProgress : StorageError := .fileIoError "rollback already in progress; recover rollback.journal first"

def publishJournal (environment : Environment) (header : RollbackJournalHeader) : StorageProgram Unit :=
  let path := Path.temporaryJournal environment.temporaryName
  if environment.hardLinks then do
    Program.change (Disk.put .rollbackJournal header.toBytes)
    Program.change (Disk.delete path)
  else Program.change fun disk => (disk.put .rollbackJournal header.toBytes).delete path

def writeRollbackJournal (environment : Environment) (header : RollbackJournalHeader) : StorageProgram Unit := do
  let exists' ← Program.query fun disk => .ok (isRegularFile .rollbackJournal disk)
  if exists' then Program.fail rollbackInProgress
  else
    Program.change (Disk.put (.temporaryJournal environment.temporaryName) [])
    Program.change (Disk.put (.temporaryJournal environment.temporaryName) header.toBytes)
    publishJournal environment header

def acquireRollbackLock : StorageProgram Unit := do
  let exists' ← Program.query fun disk => .ok (isRegularFile .rollbackLock disk)
  if exists' then pure () else Program.change (Disk.put .rollbackLock [])

def removeJournal : StorageProgram Unit := Program.change (Disk.delete .rollbackJournal)

def removeTemporaryJournals (environment : Environment) : StorageProgram Unit := do
  let paths ← Program.query fun disk => .ok (environment.listFiles (disk.files.keys.filter (·.isTemporaryJournal)))
  paths.forM fun path => Program.change (Disk.delete path)

def finishRollback (environment : Environment) (content : Bytes) : StorageProgram Unit := do
  Program.query fun _ =>
    require (content.length = RollbackJournalHeader.size) "corrupted rollback.journal: invalid header size"
  applyRollbackOperations environment (RollbackJournalHeader.ofBytes content)
  removeJournal

def recoverUnfinishedRollback (environment : Environment) : StorageProgram Unit := do
  let unfinished ← Program.query fun disk => .ok
    (isRegularFile .rollbackJournal disk || disk.files.keys.any (·.isTemporaryJournal))
  if unfinished then
    acquireRollbackLock
    removeTemporaryJournals environment
    let journal ← Program.query fun disk => .ok (disk.file .rollbackJournal)
    match journal with
    | none => pure ()
    | some content => finishRollback environment content
  else pure ()

end

end XpxChain.BlockStorage
