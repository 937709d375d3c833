import XpxChain.Library.BinaryFormats
import XpxChain.Library.SortedTables

/-! What is stored of a block: the block element with its hashes, and the block statement. -/

namespace XpxChain.BlockStorage

open Library BinaryFormats Reads List

abbrev ReceiptSource := ℕ ×ₗ ℕ

abbrev Receipt := Bytes

def Receipt.type (receipt : Receipt) : ℕ := valueOf ((receipt.drop 8).take 2)

structure ResolutionEntry where
  resolvedValue : Bytes
  source : ReceiptSource
deriving DecidableEq

structure BlockStatement where
  transactionStatements : List (ReceiptSource × List Receipt) := []
  addressResolutionStatements : List (Bytes × List ResolutionEntry) := []
  mosaicResolutionStatements : List (ℕ × List ResolutionEntry) := []
  publicKeyStatements : List (ReceiptSource × List Receipt) := []
deriving DecidableEq

abbrev Hash256 := Bytes

structure BlockElement where
  block : Bytes
  entityHash : Hash256
  generationHash : Hash256
  transactions : List (Hash256 × Hash256)
  subCacheMerkleRoots : List Hash256
  optionalStatement : Option BlockStatement
deriving DecidableEq

/-- The height is behind the size, the signature, the signer, the version and the type of the entity. -/
def BlockElement.height (element : BlockElement) : ℕ := valueOf ((element.block.drop 106).take 8)

section

def addReceipt (receipts : List Receipt) (receipt : Receipt) : Option (List Receipt) :=
  some (SortedTables.emplace Receipt.type receipt receipts)

def addResolution (entries : List ResolutionEntry) (entry : ResolutionEntry) : Option (List ResolutionEntry) :=
  match entries.getLast? with
  | none => some [entry]
  | some last =>
    if entry.source < last.source then none
    else if entry.resolvedValue = last.resolvedValue then some entries
    else some (entries ++ [entry])

def SortedByType (receipts : List Receipt) : Prop := receipts.Pairwise fun before after => before.type ≤ after.type

def InSourceOrder (entries : List ResolutionEntry) : Prop :=
  entries.IsChain fun before after => before.source ≤ after.source ∧ after.resolvedValue ≠ before.resolvedValue

lemma foldlM_addReceipt {l t : List Receipt} (h : SortedByType (t ++ l)) :
    l.foldlM BlockStorage.addReceipt t = some (t ++ l) := by
  induction l generalizing t with
  | nil => simp
  | cons receipt l ih =>
    have hl : ∀ before ∈ t, before.type ≤ receipt.type := fun before hbef =>
      (pairwise_append.mp h).2.2 before hbef receipt mem_cons_self
    rw [foldlM_cons, BlockStorage.addReceipt, SortedTables.emplace_of_le hl, Option.bind_eq_bind, Option.bind_some, ih]
    · simp
    · simpa using h

lemma foldlM_addResolution {l t : List ResolutionEntry} (h : InSourceOrder (t ++ l)) :
    l.foldlM BlockStorage.addResolution t = some (t ++ l) := by
  induction l generalizing t with
  | nil => simp
  | cons entry l ih =>
    have hadd : BlockStorage.addResolution t entry = some (t ++ [entry]) := by
      unfold BlockStorage.addResolution
      cases hl : t.getLast? with
      | none =>
        rw [getLast?_eq_none_iff.mp hl]
        rfl
      | some last =>
        obtain ⟨hs, hv⟩ := (isChain_append.mp h).2.2 last hl entry rfl
        simp only [if_neg hs.not_gt, if_neg hv]
    rw [foldlM_cons, hadd, Option.bind_eq_bind, Option.bind_some, ih]
    · simp
    · simpa using h

def writeSource (source : ReceiptSource) : Bytes :=
  littleEndian 4 (ofLex source).1 ++ littleEndian 4 (ofLex source).2

def readSource : Reader ReceiptSource := do
  let primaryId ← readNumber 4
  let secondaryId ← readNumber 4
  return toLex (primaryId, secondaryId)

def readSizePrefixed : Reader Bytes := do
  let size ← readNumber 4
  let data ← takeBytes (size - 4)
  return littleEndian 4 size ++ data

def readEntry (size : ℕ) : Reader ResolutionEntry := do
  let resolvedValue ← takeBytes size
  let source ← readSource
  return ⟨resolvedValue, source⟩

def writeEntry (entry : ResolutionEntry) : Bytes := entry.resolvedValue ++ writeSource entry.source

variable {κ ι : Type} [LinearOrder κ]

def writeStatements (writeKey : κ → Bytes) (writeItem : ι → Bytes) (statements : List (κ × List ι)) : Bytes :=
  littleEndian 4 statements.length ++
    statements.flatMap fun statement =>
      writeKey statement.1 ++ (littleEndian 4 statement.2.length ++ statement.2.flatMap writeItem)

def readItem (reader : Reader ι) (add : List ι → ι → Option (List ι)) (items : List ι) : Reader (List ι) := do
  let item ← reader
  liftM (add items item)

def readStatement (readKey : Reader κ) (reader : Reader ι) (add : List ι → ι → Option (List ι))
    (statements : List (κ × List ι)) : Reader (List (κ × List ι)) := do
  let key ← readKey
  let numItems ← readNumber 4
  let items ← repeatRead (readItem reader add) numItems []
  return SortedTables.emplaceNew Prod.fst (key, items) statements

def readStatements (readKey : Reader κ) (reader : Reader ι)
    (add : List ι → ι → Option (List ι)) : Reader (List (κ × List ι)) := do
  let numStatements ← readNumber 4
  repeatRead (readStatement readKey reader add) numStatements []

structure ValidStatements (ValidKey : κ → Prop) (ValidItem : ι → Prop) (Ordered : List ι → Prop)
    (statements : List (κ × List ι)) : Prop where
  few : statements.length < 2 ^ 32
  ascending : statements.Pairwise fun before after => before.1 < after.1
  key : ∀ statement ∈ statements, ValidKey statement.1
  items_few : ∀ statement ∈ statements, statement.2.length < 2 ^ 32
  items : ∀ statement ∈ statements, ∀ item ∈ statement.2, ValidItem item
  ordered : ∀ statement ∈ statements, Ordered statement.2

variable {ValidKey : κ → Prop} {ValidItem : ι → Prop} {Ordered : List ι → Prop} {add : List ι → ι → Option (List ι)}
  {writeKey : κ → Bytes} {writeItem : ι → Bytes} {readKey : Reader κ} {reader : Reader ι}
    {statements : List (κ × List ι)}

lemma reads_statement (hkey : ∀ key, ValidKey key → Reads readKey (writeKey key) key)
    (hie : ∀ item, ValidItem item → Reads reader (writeItem item) item) {statement : κ × List ι}
    (hval : ValidKey statement.1) (hfew : statement.2.length < 2 ^ 32) (hi : ∀ item ∈ statement.2, ValidItem item)
    (ha : statement.2.foldlM add [] = some statement.2) (statements : List (κ × List ι)) :
    Reads (readStatement readKey reader add statements)
      (writeKey statement.1 ++ (littleEndian 4 statement.2.length ++ statement.2.flatMap writeItem))
      (SortedTables.emplaceNew Prod.fst statement statements) := by
  refine (hkey _ hval).bind ((readNumber hfew).bind (bind_done ?_ (.pure _)))
  refine repeatRead (fun item hmem b b' hadd => ?_) ha
  exact (hie item (hi item hmem)).bind_done (.lift hadd)

lemma foldl_emplaceNew {l t : List (κ × List ι)} (h : (t ++ l).Pairwise fun before after => before.1 < after.1) :
    l.foldlM (fun t statement => some (SortedTables.emplaceNew Prod.fst statement t)) t = some (t ++ l) := by
  induction l generalizing t with
  | nil => simp
  | cons statement l ih =>
    have hl : ∀ before ∈ t, before.1 < statement.1 := fun before hbef =>
      (pairwise_append.mp h).2.2 before hbef statement mem_cons_self
    rw [foldlM_cons, SortedTables.emplaceNew_of_lt hl, Option.bind_eq_bind, Option.bind_some, ih]
    · simp
    · simpa using h

lemma reads_statements (hkey : ∀ key, ValidKey key → Reads readKey (writeKey key) key)
    (hi : ∀ item, ValidItem item → Reads reader (writeItem item) item)
    (hadd : ∀ items, Ordered items → items.foldlM add [] = some items)
    (h : ValidStatements ValidKey ValidItem Ordered statements) :
    Reads (readStatements readKey reader add) (writeStatements writeKey writeItem statements) statements := by
  refine (readNumber h.few).bind ?_
  refine repeatRead ?_ (foldl_emplaceNew h.ascending)
  intro statement hmem t t' ht
  cases ht
  exact reads_statement hkey hi (h.key statement hmem) (h.items_few statement hmem) (h.items statement hmem)
    (hadd _ (h.ordered statement hmem)) t

end

section

def ReceiptSource.Valid (source : ReceiptSource) : Prop := (ofLex source).1 < 2 ^ 32 ∧ (ofLex source).2 < 2 ^ 32

def SizePrefixed (data : Bytes) : Prop :=
  4 ≤ data.length ∧ data.length < 2 ^ 32 ∧ data.take 4 = littleEndian 4 data.length

def ResolutionEntry.Valid (size : ℕ) (entry : ResolutionEntry) : Prop :=
  entry.resolvedValue.length = size ∧ ReceiptSource.Valid entry.source

structure BlockStatement.Valid (statement : BlockStatement) : Prop where
  transactionStatements :
    ValidStatements ReceiptSource.Valid SizePrefixed SortedByType statement.transactionStatements
  addressResolutionStatements :
    ValidStatements (fun key : Bytes => key.length = 25) (ResolutionEntry.Valid 25) InSourceOrder
      statement.addressResolutionStatements
  mosaicResolutionStatements :
    ValidStatements (fun key : ℕ => key < 2 ^ 64) (ResolutionEntry.Valid 8) InSourceOrder
      statement.mosaicResolutionStatements
  publicKeyStatements :
    ValidStatements ReceiptSource.Valid SizePrefixed SortedByType statement.publicKeyStatements

def writeBlockStatement (statement : BlockStatement) : Bytes :=
  writeStatements writeSource id statement.transactionStatements ++
    (writeStatements id writeEntry statement.addressResolutionStatements ++
      (writeStatements (littleEndian 8) writeEntry statement.mosaicResolutionStatements ++
        writeStatements writeSource id statement.publicKeyStatements))

def readBlockStatement : Reader BlockStatement := do
  let transactionStatements ← readStatements readSource readSizePrefixed addReceipt
  let addressResolutionStatements ← readStatements (takeBytes 25) (readEntry 25) addResolution
  let mosaicResolutionStatements ← readStatements (readNumber 8) (readEntry 8) addResolution
  let publicKeyStatements ← readStatements readSource readSizePrefixed addReceipt
  return ⟨transactionStatements, addressResolutionStatements, mosaicResolutionStatements, publicKeyStatements⟩

lemma reads_source (source : ReceiptSource) (h : ReceiptSource.Valid source) :
    Reads readSource (writeSource source) source :=
  (readNumber h.1).bind ((readNumber h.2).bind_done (.pure _))

lemma reads_sizePrefixed (data : Bytes) (h : SizePrefixed data) : Reads readSizePrefixed data data := by
  obtain ⟨hlen, hlt, ht⟩ := h
  have hr : Reads readSizePrefixed (littleEndian 4 data.length ++ data.drop 4)
      (littleEndian 4 data.length ++ data.drop 4) :=
    (readNumber hlt).bind ((takeBytes length_drop).bind_done (.pure _))
  rwa [← ht, take_append_drop] at hr

lemma reads_entry (size : ℕ) (entry : ResolutionEntry) (h : entry.Valid size) :
    Reads (readEntry size) (writeEntry entry) entry :=
  (takeBytes h.1).bind ((reads_source _ h.2).bind_done (.pure _))

lemma reads_blockStatement {statement : BlockStatement} (h : statement.Valid) :
    Reads readBlockStatement (writeBlockStatement statement) statement := by
  have hr : ∀ receipts, SortedByType receipts → receipts.foldlM addReceipt [] = some receipts := fun _ h =>
    foldlM_addReceipt h
  have he : ∀ entries, InSourceOrder entries → entries.foldlM addResolution [] = some entries := fun _ h =>
    foldlM_addResolution h
  refine (reads_statements reads_source reads_sizePrefixed hr h.transactionStatements).bind ?_
  refine (reads_statements (fun _ h => .takeBytes h) (reads_entry 25) he h.addressResolutionStatements).bind ?_
  refine (reads_statements (fun _ h => .readNumber h) (reads_entry 8) he h.mosaicResolutionStatements).bind ?_
  exact (reads_statements reads_source reads_sizePrefixed hr h.publicKeyStatements).bind_done (.pure _)

lemma length_writeBlockStatement (statement : BlockStatement) : 0 < (writeBlockStatement statement).length := by
  simp only [writeBlockStatement, writeStatements, length_append, length_littleEndian]
  omega

end

section

def writeBlockElement (element : BlockElement) : Bytes :=
  element.block ++ (element.entityHash ++ (element.generationHash ++
    (littleEndian 4 element.transactions.length ++ (element.transactions.flatMap (fun hashes => hashes.1 ++ hashes.2) ++
      (littleEndian 4 element.subCacheMerkleRoots.length ++ element.subCacheMerkleRoots.flatMap id)))))

def readHash : Reader Hash256 := takeBytes 32

def readTransactionHashes (numBlockTransactions : ℕ) : Reader (List (Hash256 × Hash256)) := do
  let numTransactions ← readNumber 4
  let hashes ← repeatRead (fun hashes => do
    let entityHash ← readHash
    let merkleComponentHash ← readHash
    return hashes ++ [(entityHash, merkleComponentHash)]) numTransactions []
  liftM (if numBlockTransactions ≤ hashes.length then some (hashes.take numBlockTransactions) else none)

def readSubCacheMerkleRoots : Reader (List Hash256) := do
  let numHashes ← readNumber 4
  repeatRead (fun hashes => do
    let hash ← readHash
    return hashes ++ [hash]) numHashes []

/-- The number of transactions that are in the bytes of a block is a parameter. -/
def readBlockElement (transactionCount : Bytes → ℕ) : Reader BlockElement := do
  let block ← readSizePrefixed
  let entityHash ← readHash
  let generationHash ← readHash
  let transactions ← readTransactionHashes (transactionCount block)
  let subCacheMerkleRoots ← readSubCacheMerkleRoots
  return ⟨block, entityHash, generationHash, transactions, subCacheMerkleRoots, none⟩

/-- The block has its size in front, there is a transaction element for each of its transactions, hashes have their
length and the numbers of elements fit. -/
structure BlockElement.Valid (transactionCount : Bytes → ℕ) (element : BlockElement) : Prop where
  block : SizePrefixed element.block
  header : 114 ≤ element.block.length
  entityHash : element.entityHash.length = 32
  generationHash : element.generationHash.length = 32
  transactions : element.transactions.length = transactionCount element.block
  transactions_few : element.transactions.length < 2 ^ 32
  transactionHashes : ∀ hashes ∈ element.transactions, hashes.1.length = 32 ∧ hashes.2.length = 32
  roots_few : element.subCacheMerkleRoots.length < 2 ^ 32
  roots : ∀ hash ∈ element.subCacheMerkleRoots, hash.length = 32
  statement : ∀ statement ∈ element.optionalStatement, statement.Valid

variable {transactionCount : Bytes → ℕ} {element : BlockElement}

lemma reads_blockElement (h : element.Valid transactionCount) :
    Reads (readBlockElement transactionCount) (writeBlockElement element)
      { element with optionalStatement := none } := by
  have ht : Reads (readTransactionHashes (transactionCount element.block))
      (littleEndian 4 element.transactions.length ++ element.transactions.flatMap fun hashes => hashes.1 ++ hashes.2)
      element.transactions := by
    refine (readNumber h.transactions_few).bind (bind_done (a := element.transactions) ?_ (.lift ?_))
    · apply repeatRead_append
      intro hashes hmem t
      obtain ⟨he, hm⟩ := h.transactionHashes hashes hmem
      exact (takeBytes he).bind ((takeBytes hm).bind_done (.pure _))
    · rw [← h.transactions, if_pos le_rfl, take_length]
  have hr : Reads readSubCacheMerkleRoots
      (littleEndian 4 element.subCacheMerkleRoots.length ++ element.subCacheMerkleRoots.flatMap id)
      element.subCacheMerkleRoots := by
    refine (readNumber h.roots_few).bind ?_
    apply repeatRead_append
    intro hash hmem t
    exact (takeBytes (h.roots hash hmem)).bind_done (.pure _)
  refine (reads_sizePrefixed _ h.block).bind ((takeBytes h.entityHash).bind ((takeBytes h.generationHash).bind ?_))
  exact ht.bind (hr.bind_done (.pure _))

end

end XpxChain.BlockStorage
