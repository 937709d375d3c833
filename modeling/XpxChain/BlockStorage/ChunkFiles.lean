import XpxChain.Library.DurablePrograms
import XpxChain.Library.OrderedContainers
import XpxChain.Library.BinaryFormats
import XpxChain.BlockStorage.Serializers

/-! The disk, the files on it and the index entries of chunks. -/

namespace XpxChain.BlockStorage

open Std Library OrderedContainers BinaryFormats DurablePrograms

inductive ChunkFile
  | blocksDat
  | statementsDat
  | blocksIdx
  | hashesDat
  | block (index : ℕ)
  | blockStatement (index : ℕ)
deriving DecidableEq

inductive Path
  | indexDat
  | rollbackJournal
  | rollbackLock
  | temporaryJournal (name : ℕ)
  | inChunk (directoryId : ℕ) (file : ChunkFile)
deriving DecidableEq

def ChunkFile.code : ChunkFile → List ℕ
  | .blocksDat => [0]
  | .statementsDat => [1]
  | .blocksIdx => [2]
  | .hashesDat => [3]
  | .block index => [4, index]
  | .blockStatement index => [5, index]

def Path.code : Path → List ℕ
  | .indexDat => [0]
  | .rollbackJournal => [1]
  | .rollbackLock => [2]
  | .temporaryJournal name => [3, name]
  | .inChunk directoryId file => 4 :: directoryId :: file.code

lemma ChunkFile.code_injective : Function.Injective ChunkFile.code := by
  intro a b h
  cases a <;> cases b <;> simp_all [ChunkFile.code]

lemma Path.code_injective : Function.Injective Path.code := by
  intro a b h
  cases a <;> cases b <;> simp_all [Path.code]
  exact ChunkFile.code_injective h.2

instance : Ord Path := ⟨compareOn Path.code⟩

instance : TransOrd Path := inferInstanceAs (TransCmp (compareOn Path.code))

instance : LawfulEqOrd Path where
  eq_of_compare h := Path.code_injective (LawfulEqOrd.eq_of_compare (α := List ℕ) h)
  compare_self := ReflOrd.compare_self (α := List ℕ)

structure Disk where
  directories : Finset ℕ := ∅
  files : ExtTreeMap Path Bytes := ∅

namespace Disk

def file (disk : Disk) (path : Path) : Option Bytes := disk.files[path]?

def put (path : Path) (content : Bytes) (disk : Disk) : Disk := { disk with files := disk.files.insert path content }

def delete (path : Path) (disk : Disk) : Disk := { disk with files := disk.files.erase path }

def createDirectory (directoryId : ℕ) (disk : Disk) : Disk :=
  { disk with directories := insert directoryId disk.directories }

def removeDirectory (directoryId : ℕ) (disk : Disk) : Disk :=
  { disk with directories := disk.directories.erase directoryId }

variable (disk : Disk) (path other : Path) (content : Bytes) (directoryId : ℕ)

@[simp] lemma file_put :
    (disk.put path content).file other = if path = other then some content else disk.file other := by
  simp [put, file, ExtTreeMap.getElem?_insert]

@[simp] lemma file_delete : (disk.delete path).file other = if path = other then none else disk.file other := by
  simp [delete, file, ExtTreeMap.getElem?_erase]

@[simp] lemma file_createDirectory : (disk.createDirectory directoryId).file other = disk.file other := rfl

end Disk

inductive StorageError
  | fileIoError (message : String)
  | invalidArgument (message : String)
  | runtimeError (message : String) (height : ℕ)
deriving DecidableEq, Repr

abbrev StorageProgram (α : Type) := Program Disk StorageError α

structure RawFile where
  path : Path
  fileSize : ℕ
  position : ℕ := 0
deriving DecidableEq

def Disk.hasParent (disk : Disk) : Path → Bool
  | .inChunk directoryId _ => directoryId ∈ disk.directories
  | _ => true

def overwrite (content : Bytes) (position : ℕ) (data : Bytes) : Bytes :=
  content.take position ++ data ++ content.drop (position + data.length)

namespace RawFile

def couldNotOpen : StorageError := .fileIoError "couldn't open the file"

def openReadOnly (path : Path) (disk : Disk) : Except StorageError RawFile :=
  match disk.file path with
  | some content => .ok { path, fileSize := content.length }
  | none => .error couldNotOpen

def openReadAppend (path : Path) : StorageProgram RawFile := do
  let content ← Program.query fun disk => .ok (disk.file path)
  match content with
  | some content => return { path, fileSize := content.length }
  | none =>
    let hasParent ← Program.query fun disk => .ok (disk.hasParent path)
    if hasParent then
      Program.change (Disk.put path [])
      return { path, fileSize := 0 }
    else Program.fail couldNotOpen

variable (file : RawFile)

def seek (position : ℕ) : Except StorageError RawFile :=
  if file.fileSize < position then .error (.fileIoError "couldn't seek past end of file")
  else .ok { file with position }

def read (size : ℕ) (disk : Disk) : Except StorageError (Bytes × RawFile) :=
  let data := (((disk.file file.path).getD []).drop file.position).take size
  if data.length = size then .ok (data, { file with position := file.position + size })
  else .error (.fileIoError "couldn't read from file")

def writeContent (data : Bytes) (disk : Disk) : Disk :=
  match disk.file file.path with
  | some content => disk.put file.path (overwrite content file.position data)
  | none => disk

def write (data : Bytes) : StorageProgram RawFile := do
  Program.change (file.writeContent data)
  return { file with
    position := file.position + data.length
    fileSize := max file.fileSize (file.position + data.length) }

end RawFile

def readAt (path : Path) (offset size : ℕ) (disk : Disk) : Except StorageError Bytes := do
  let file ← RawFile.openReadOnly path disk
  let file ← file.seek offset
  let (data, _) ← file.read size disk
  return data

/-- `resize_file` cuts a file off or fills it up with zeros. -/
def resized (content : Bytes) (size : ℕ) : Bytes := content.take size ++ List.replicate (size - content.length) 0

def resizeFile (path : Path) (size : ℕ) (message : String) : StorageProgram Unit := do
  let content ← Program.query fun disk => .ok (disk.file path)
  match content with
  | some content => Program.change (Disk.put path (resized content size))
  | none => Program.fail (.fileIoError message)

def filesPerDirectory : ℕ := 65536

inductive FileBlockStorageMode
  | none
  | hashIndex
deriving DecidableEq, Repr

section

variable (height : ℕ)

def directoryIdAt : ℕ := height / filesPerDirectory

def indexAt : ℕ := height % filesPerDirectory

def chunkPath (file : ChunkFile) : Path := .inChunk (directoryIdAt height) file

end

structure BlockChunkIndexEntry where
  blockOffset : ℕ
  blockSize : ℕ
  stmtOffset : ℕ
  stmtSize : ℕ
deriving DecidableEq, Repr

namespace BlockChunkIndexEntry

def size : ℕ := 16

def toBytes (entry : BlockChunkIndexEntry) : Bytes :=
  littleEndian 4 entry.blockOffset ++ (littleEndian 4 entry.blockSize ++
    (littleEndian 4 entry.stmtOffset ++ littleEndian 4 entry.stmtSize))

def ofBytes (bytes : Bytes) : BlockChunkIndexEntry where
  blockOffset := valueOf (bytes.take 4)
  blockSize := valueOf ((bytes.drop 4).take 4)
  stmtOffset := valueOf ((bytes.drop 8).take 4)
  stmtSize := valueOf ((bytes.drop 12).take 4)

def blockEnd (entry : BlockChunkIndexEntry) : ℕ := entry.blockOffset + entry.blockSize

def stmtEnd (entry : BlockChunkIndexEntry) : ℕ := entry.stmtOffset + entry.stmtSize

end BlockChunkIndexEntry

/-- An entry of zeros stands for no block. -/
def hasChunkIndexEntry (height : ℕ) (disk : Disk) : Option BlockChunkIndexEntry :=
  match disk.file (chunkPath height .blocksIdx) with
  | none => none
  | some content =>
    if content.length < (indexAt height + 1) * BlockChunkIndexEntry.size then none
    else
      let entry := BlockChunkIndexEntry.ofBytes
        ((content.drop (indexAt height * BlockChunkIndexEntry.size)).take BlockChunkIndexEntry.size)
      if 0 < entry.blockSize then some entry else none

def lastStatementEnd (directoryId : ℕ) (disk : Disk) : ℕ → ℕ
  | 0 => 0
  | height + 1 =>
    if directoryIdAt (height + 1) ≠ directoryId then 0
    else match hasChunkIndexEntry (height + 1) disk with
      | some entry => if 0 < entry.stmtSize then entry.stmtEnd else lastStatementEnd directoryId disk height
      | none => lastStatementEnd directoryId disk height

section

def IndexFile.exists (disk : Disk) : Bool := (disk.file .indexDat).isSome

def IndexFile.get (disk : Disk) : Except StorageError ℕ := do
  let file ← RawFile.openReadOnly .indexDat disk
  if file.fileSize = 8 then
    let (bytes, _) ← file.read 8 disk
    return valueOf bytes
  else return 0

def IndexFile.set (value : ℕ) : StorageProgram Unit := do
  let file ← RawFile.openReadAppend .indexDat
  let file ← Program.query fun _ => file.seek 0
  let _ ← file.write (littleEndian 8 value)

def chainHeight (disk : Disk) : Except StorageError ℕ := if IndexFile.exists disk then IndexFile.get disk else .ok 0

end

end XpxChain.BlockStorage
