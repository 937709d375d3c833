import XpxChain.Types
import XpxChain.Library.BoundedPaths
import XpxChain.Library.Exceptions

/-! Multisig accounts: the cache, the validators of a modification and its observers. -/

namespace XpxChain.Multisig

open Std Library Exceptions

abbrev KeySet := ExtTreeSet Key

structure CosignatorySettings where
  cosignatories : KeySet := ∅
  minApproval : ℕ := 0
  minRemoval : ℕ := 0

structure MultisigEntry extends CosignatorySettings where
  multisigAccounts : KeySet := ∅

abbrev MultisigCache := ExtTreeMap Key MultisigEntry

structure MultisigConfiguration where
  maxMultisigDepth : ℕ
  maxCosignersPerAccount : ℕ
  maxCosignersPerAccount_lt : maxCosignersPerAccount < 2 ^ 8
  maxCosignedAccountsPerAccount : ℕ

inductive CosignatoryModificationType
  | add
  | del
  | unknown (value : ℕ)
deriving DecidableEq

structure CosignatoryModification where
  modificationType : CosignatoryModificationType
  cosignatoryPublicKey : Key
deriving DecidableEq

/-- The number of modifications is an 8-bit field. -/
structure ModifyMultisigAccount where
  signer : Key
  minRemovalDelta : ℤ
  minApprovalDelta : ℤ
  modifications : List CosignatoryModification
  modificationsCount_lt : modifications.length < 2 ^ 8
  allowMultipleRemove : Bool

inductive MultisigError
  | maxCosignedAccounts
  | maxMultisigDepth
  | loop
  | unsupportedModificationType
  | accountInBothSets
  | multipleDeletes
  | redundantModifications
  | maxCosigners
  | unknownMultisigAccount
  | notACosigner
  | alreadyACosigner
  | minSettingOutOfRange
  | minSettingLargerThanNumCosignatories
  /-- A lookup of an entry that is not there. -/
  | notFound
  /-- The recursion went deeper than the model follows it. -/
  | recursionTooDeep
deriving DecidableEq

def MultisigError.IsRejection : MultisigError → Prop
  | .notFound | .recursionTooDeep => False
  | _ => True

def findAll (links : MultisigEntry → KeySet) (cache : MultisigCache) :
    ℕ → Key → KeySet → Except MultisigError (ℕ × KeySet)
  | 0, _, _ => .error .recursionTooDeep
  | fuel + 1, publicKey, keySet =>
    match cache[publicKey]? with
    | none => .ok (0, keySet)
    | some entry =>
      (links entry).toList.foldlM
        (fun found linkedKey => do
          let deeper ← findAll links cache fuel linkedKey (found.2.insert linkedKey)
          return (max found.1 (deeper.1 + 1), deeper.2))
        (0, keySet)

def findAncestors : MultisigCache → ℕ → Key → KeySet → Except MultisigError (ℕ × KeySet) :=
  findAll MultisigEntry.multisigAccounts

def findDescendants : MultisigCache → ℕ → Key → KeySet → Except MultisigError (ℕ × KeySet) :=
  findAll fun entry => entry.cosignatories

section

variable (config : MultisigConfiguration) (cache : MultisigCache)

def validateMaxCosignedAccounts (cosignatoryKey : Key) : Except MultisigError Unit :=
  match cache[cosignatoryKey]? with
  | none => .ok ()
  | some entry =>
    if config.maxCosignedAccountsPerAccount ≤ entry.multisigAccounts.size then .error .maxCosignedAccounts else .ok ()

def validateLoopAndLevel (fuel : ℕ) (topKey bottomKey : Key) : Except MultisigError Unit := do
  let (numTopLevels, ancestorKeys) ← findAncestors cache fuel topKey ((∅ : KeySet).insert topKey)
  let (numBottomLevels, descendantKeys) ← findDescendants cache fuel bottomKey ((∅ : KeySet).insert bottomKey)
  if config.maxMultisigDepth < numTopLevels + numBottomLevels + 1 then .error .maxMultisigDepth
  else if ancestorKeys.toList.any fun key => descendantKeys.contains key then .error .loop
  else .ok ()

def validateNewCosigner (fuel : ℕ) (multisigAccountKey cosignatoryKey : Key) : Except MultisigError Unit := do
  validateMaxCosignedAccounts config cache cosignatoryKey
  validateLoopAndLevel config cache fuel multisigAccountKey cosignatoryKey

def collectModifications (added removed : Finset Key) :
    List CosignatoryModification → Except MultisigError (Finset Key × Finset Key)
  | [] => .ok (added, removed)
  | ⟨.add, key⟩ :: modifications =>
    if key ∈ removed then .error .accountInBothSets else collectModifications (insert key added) removed modifications
  | ⟨.del, key⟩ :: modifications =>
    if key ∈ added then .error .accountInBothSets else collectModifications added (insert key removed) modifications
  | ⟨.unknown _, _⟩ :: _ => .error .unsupportedModificationType

def validateCosigners (transaction : ModifyMultisigAccount) : Except MultisigError Unit := do
  let (added, removed) ← collectModifications ∅ ∅ transaction.modifications
  if 1 < removed.card ∧ transaction.allowMultipleRemove = false then .error .multipleDeletes
  else if transaction.modifications.length ≠ added.card + removed.card then .error .redundantModifications
  else .ok ()

def isAdd (modification : CosignatoryModification) : Bool := modification.modificationType = .add

/-- The counter is an unsigned number of 64 bits. -/
def countCosignatories (numCosignatories : ℕ) (modifications : List CosignatoryModification) : ℕ :=
  modifications.foldl (fun n modification => if isAdd modification then (n + 1) % 2 ^ 64 else sizeSub n 1)
    numCosignatories

def cosignatoriesOf (key : Key) : KeySet := (cache[key]?).elim ∅ fun entry => entry.cosignatories

def validateMaxCosigners (transaction : ModifyMultisigAccount) : Except MultisigError Unit :=
  if config.maxCosignersPerAccount <
    countCosignatories (cosignatoriesOf cache transaction.signer).size transaction.modifications then
    .error .maxCosigners
  else .ok ()

def validateInvalidCosigners (transaction : ModifyMultisigAccount) : Except MultisigError Unit :=
  match cache[transaction.signer]? with
  | none =>
    if ∃ modification ∈ transaction.modifications, modification.modificationType =
      .del then .error .unknownMultisigAccount
    else .ok ()
  | some entry =>
    transaction.modifications.forM fun modification =>
      if ¬isAdd modification ∧ modification.cosignatoryPublicKey ∉ entry.cosignatories then .error .notACosigner
      else if isAdd modification ∧ modification.cosignatoryPublicKey ∈ entry.cosignatories then .error .alreadyACosigner
      else .ok ()

def validateSettings (transaction : ModifyMultisigAccount) : Except MultisigError Unit :=
  match cache[transaction.signer]? with
  | none =>
    if transaction.minRemovalDelta ≠ transaction.minApprovalDelta then .error .minSettingOutOfRange else .ok ()
  | some entry =>
    if entry.minRemoval + transaction.minRemovalDelta < 0 ∨ entry.minApproval + transaction.minApprovalDelta < 0 ∨
        entry.cosignatories.isEmpty = false ∧
          (entry.minRemoval + transaction.minRemovalDelta = 0 ∨
            entry.minApproval + transaction.minApprovalDelta = 0) then
      .error .minSettingOutOfRange
    else if (entry.cosignatories.size : ℤ) < entry.minRemoval + transaction.minRemovalDelta ∨
        (entry.cosignatories.size : ℤ) < entry.minApproval + transaction.minApprovalDelta then
      .error .minSettingLargerThanNumCosignatories
    else .ok ()

end

section

def modify (key : Key) (change : MultisigEntry → MultisigEntry) (cache : MultisigCache) : MultisigCache :=
  match cache[key]? with
  | none => cache
  | some entry => cache.insert key (change entry)

def getMultisigEntry (key : Key) (cache : MultisigCache) : MultisigCache :=
  if key ∈ cache then cache else cache.insert key {}

def removeIfEmpty (key : Key) (cache : MultisigCache) : MultisigCache :=
  match cache[key]? with
  | none => cache
  | some entry => if entry.cosignatories.isEmpty && entry.multisigAccounts.isEmpty then cache.erase key else cache

def addCosignatory (multisigAccountKey cosignatoryKey : Key) (cache : MultisigCache) : MultisigCache :=
  modify multisigAccountKey
    (fun entry => { entry with cosignatories := entry.cosignatories.insert cosignatoryKey })
    (modify cosignatoryKey
      (fun entry => { entry with multisigAccounts := entry.multisigAccounts.insert multisigAccountKey })
      (getMultisigEntry cosignatoryKey cache))

def eraseCosignatory (multisigAccountKey cosignatoryKey : Key) : MultisigCache → MultisigCache :=
  modify multisigAccountKey fun entry => { entry with cosignatories := entry.cosignatories.erase cosignatoryKey }

def removeCosignatory (multisigAccountKey cosignatoryKey : Key) (cache : MultisigCache) :
    Except MultisigError MultisigCache :=
  if cosignatoryKey ∈ eraseCosignatory multisigAccountKey cosignatoryKey cache then
    .ok (removeIfEmpty cosignatoryKey
      (modify cosignatoryKey (fun entry =>
        { entry with multisigAccounts := entry.multisigAccounts.erase multisigAccountKey })
        (eraseCosignatory multisigAccountKey cosignatoryKey cache)))
  else .error .notFound

def applyModification (signer : Key) (cache : MultisigCache) (modification : CosignatoryModification) :
    Except MultisigError MultisigCache :=
  if isAdd modification then .ok (addCosignatory signer modification.cosignatoryPublicKey cache)
  else removeCosignatory signer modification.cosignatoryPublicKey cache

def modifyCosigners (transaction : ModifyMultisigAccount) (cache : MultisigCache) :
    Except MultisigError MultisigCache := do
  let cache ← transaction.modifications.foldlM (applyModification transaction.signer)
    (getMultisigEntry transaction.signer cache)
  return removeIfEmpty transaction.signer cache

def addDelta (value : ℕ) (delta : ℤ) : ℕ := ((value + delta) % 2 ^ 8).toNat

def modifySettings (transaction : ModifyMultisigAccount) : MultisigCache → MultisigCache :=
  modify transaction.signer fun entry =>
    { entry with
      minApproval := addDelta entry.minApproval transaction.minApprovalDelta
      minRemoval := addDelta entry.minRemoval transaction.minRemovalDelta }

end

section

variable (config : MultisigConfiguration) (fuel : ℕ)

def executeCosigners (transaction : ModifyMultisigAccount) (cache : MultisigCache) :
    Except MultisigError MultisigCache := do
  (transaction.modifications.filter isAdd).forM fun modification =>
    validateNewCosigner config cache fuel transaction.signer modification.cosignatoryPublicKey
  validateCosigners transaction
  validateMaxCosigners config cache transaction
  validateInvalidCosigners cache transaction
  modifyCosigners transaction cache

def executeModifications (transaction : ModifyMultisigAccount) (cache : MultisigCache) :
    Except MultisigError MultisigCache :=
  if transaction.modifications = [] then .ok cache else executeCosigners config fuel transaction cache

def execute (cache : MultisigCache) (transaction : ModifyMultisigAccount) : Except MultisigError MultisigCache := do
  let cache ← executeModifications config fuel transaction cache
  validateSettings cache transaction
  return modifySettings transaction cache

end

inductive OperationType
  | normal
  | removal
  | max
deriving DecidableEq

def getMinRequiredCosigners (entry : MultisigEntry) : OperationType → ℕ
  | .max => Max.max entry.minRemoval entry.minApproval
  | .removal => entry.minRemoval
  | .normal => entry.minApproval

def isSatisfied (cache : MultisigCache) (cosigners : Finset Key) (operationType : OperationType) :
    ℕ → Key → Except MultisigError Bool
  | 0, _ => .error .recursionTooDeep
  | fuel + 1, publicKey =>
    match cache[publicKey]? with
    | none => .ok (publicKey ∈ cosigners)
    | some entry =>
      if entry.cosignatories.isEmpty then .ok (publicKey ∈ cosigners)
      else do
        let numApprovers ← entry.cosignatories.toList.foldlM
          (fun numApprovers cosignatoryPublicKey => do
            let satisfied ← isSatisfied cache cosigners operationType fuel cosignatoryPublicKey
            return numApprovers + if satisfied then 1 else 0)
          0
        return getMinRequiredCosigners entry operationType ≤ numApprovers

def findEligibleCosigners (cache : MultisigCache) : ℕ → Key → Finset Key → Except MultisigError (Finset Key)
  | 0, _, _ => .error .recursionTooDeep
  | fuel + 1, publicKey, eligible =>
    match cache[publicKey]? with
    | none => .ok (insert publicKey eligible)
    | some entry =>
      if entry.cosignatories.isEmpty then .ok (insert publicKey eligible)
      else entry.cosignatories.toList.foldlM
        (fun eligible cosignatoryPublicKey => findEligibleCosigners cache fuel cosignatoryPublicKey eligible) eligible

end XpxChain.Multisig
