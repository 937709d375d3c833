import XpxChain.Caches.NamespaceCache

/-! Metadata entries, and the plain and the extended transactions, which have different validators and observers but the
same entries. -/

namespace XpxChain.Metadata

open Std Accounts Caches List

inductive MetadataType
  | account
  | mosaic
  | rootOrChildNamespace
deriving DecidableEq

structure MetadataTarget where
  type : MetadataType
  id : Fin (2 ^ 64)
deriving DecidableEq

structure PartialMetadataKey where
  sourceAddress : Address
  targetKey : Key
  scopedMetadataKey : Fin (2 ^ 64)
deriving DecidableEq

structure MetadataKey extends PartialMetadataKey where
  targetId : Fin (2 ^ 64)
  metadataType : MetadataType
deriving DecidableEq

def resolveMetadataKey (resolve : UnresolvedMosaicId → MosaicId) (partialKey : PartialMetadataKey)
    (target : MetadataTarget) : MetadataKey :=
  match target.type with
  | .account => { partialKey with targetId := 0, metadataType := .account }
  | .mosaic => { partialKey with targetId := resolve target.id, metadataType := .mosaic }
  | .rootOrChildNamespace => { partialKey with targetId := target.id, metadataType := .rootOrChildNamespace }

abbrev MetadataValue := List UInt8

namespace MetadataValue

def resize (value : MetadataValue) (size : ℕ) : MetadataValue :=
  value.take size ++ List.replicate (size - value.length) 0

def canTrim (value buffer : List UInt8) (count : ℕ) : Bool :=
  value.length = buffer.length && count ≤ value.length &&
    value.drop (buffer.length - count) = buffer.drop (buffer.length - count)

def update (value buffer : List UInt8) : MetadataValue := List.zipWith (· ^^^ ·) (resize value buffer.length) buffer

variable {value buffer : List UInt8} {size i : ℕ}

lemma getElem?_resize : (resize value size)[i]? = if i < size then some (value[i]?.getD 0) else none := by
  rw [resize, getElem?_append, length_take, getElem?_take, getElem?_replicate]
  by_cases hi : i < size
  · by_cases hlen : i < value.length
    · rw [if_pos (lt_min hi hlen), if_pos hi, if_pos hi, getElem?_eq_getElem hlen]
      rfl
    · rw [if_neg (by omega), if_pos (by omega), if_pos hi, getElem?_eq_none (by omega)]
      rfl
  · rw [if_neg (by omega), if_neg (by omega), if_neg hi]

lemma getElem?_update : (update value buffer)[i]? = buffer[i]?.map (value[i]?.getD 0 ^^^ ·) := by
  rw [update, getElem?_zipWith, getElem?_resize]
  by_cases hi : i < buffer.length
  · rw [if_pos hi, getElem?_eq_getElem hi]
    rfl
  · rw [if_neg hi, getElem?_eq_none (by omega)]
    rfl

@[simp] lemma length_update : (update value buffer).length = buffer.length := by
  rw [update, length_zipWith, resize, length_append, length_take, length_replicate]
  omega

lemma update_nil : update [] buffer = buffer := by
  apply ext_getElem?
  intro i
  rw [getElem?_update]
  cases buffer[i]? <;> simp

lemma update_take_update (hv : value.length = size) (hsz : size ≤ buffer.length) :
    update (update value buffer) (buffer.take size) = value := by
  apply ext_getElem?
  intro i
  rw [getElem?_update, getElem?_update, getElem?_take]
  by_cases hi : i < size
  · rw [if_pos hi, getElem?_eq_getElem (by omega : i < buffer.length),
      getElem?_eq_getElem (by omega : i < value.length)]
    simp [UInt8.xor_assoc]
  · rw [if_neg hi, getElem?_eq_none (by omega : value.length ≤ i)]
    rfl

lemma update_update_take (hv : value.length = buffer.length) (hsz : size ≤ buffer.length)
    (ht : value.drop size = buffer.drop size) : update (update value (buffer.take size)) buffer = value := by
  apply ext_getElem?
  intro i
  rw [getElem?_update, getElem?_update, getElem?_take]
  by_cases hi : i < size
  · rw [if_pos hi, getElem?_eq_getElem (by omega : i < buffer.length),
      getElem?_eq_getElem (by omega : i < value.length)]
    simp [UInt8.xor_assoc]
  · have hs : value[i]? = buffer[i]? := by
      have hd := congrArg (·[i - size]?) ht
      simp only [getElem?_drop] at hd
      rwa [Nat.add_sub_cancel' (by omega)] at hd
    rw [if_neg hi, hs]
    cases buffer[i]? <;> simp

end MetadataValue

structure MetadataEntry where
  key : MetadataKey
  value : MetadataValue
  immutable : Bool
  version : ℕ
deriving DecidableEq

abbrev MetadataCache := ExtTreeMap Hash256 MetadataEntry

/-- The sizes are fields of 16 bits, the change of the size is signed. -/
structure MetadataNotification where
  partialMetadataKey : PartialMetadataKey
  metadataTarget : MetadataTarget
  valueSizeDelta : ℤ
  value : List UInt8
  le_valueSizeDelta : -2 ^ 15 ≤ valueSizeDelta
  valueSizeDelta_lt : valueSizeDelta < 2 ^ 15
  valueSize_lt : value.length < 2 ^ 16

inductive MetadataTransaction
  | plain (notification : MetadataNotification)
  | extended (notification : MetadataNotification) (isValueImmutable : Bool)

def MetadataTransaction.notification : MetadataTransaction → MetadataNotification
  | .plain notification | .extended notification _ => notification

inductive ValidationResult
  | success
  | valueSizeDeltaMismatch
  | valueChangeIrreversible
  | valueIsImmutable
  | valueTooSmall
  | valueSizeDeltaTooLarge
  | valueTooLarge
deriving DecidableEq

inductive NotifyMode
  | commit
  | rollback
deriving DecidableEq

/-- What a transaction is executed with. The constructor of an entry does not initialize the flag, so an entry that a
plain transaction creates has any flag. -/
structure MetadataContext where
  maxValueSize : ℕ
  resolve : UnresolvedMosaicId → MosaicId
  uninitializedImmutable : Bool

section

variable (maxValueSize : ℕ) (cache : MetadataCache) (key : Hash256) (notification : MetadataNotification)

def validateMetadataSizes : ValidationResult :=
  if notification.value.length = 0 then .valueTooSmall
  else if notification.value.length < |notification.valueSizeDelta| then .valueSizeDeltaTooLarge
  else if maxValueSize < notification.value.length then .valueTooLarge
  else .success

def validateMetadataValue : ValidationResult :=
  match cache[key]? with
  | none => if notification.valueSizeDelta = notification.value.length then .success else .valueSizeDeltaMismatch
  | some entry =>
    let expectedCacheValueSize : ℤ :=
      if 0 < notification.valueSizeDelta then (notification.value.length - notification.valueSizeDelta) % 2 ^ 16
      else notification.value.length
    if expectedCacheValueSize ≠ entry.value.length then .valueSizeDeltaMismatch
    else if 0 ≤ notification.valueSizeDelta then .success
    else if MetadataValue.canTrim entry.value notification.value (-notification.valueSizeDelta).toNat then .success
    else .valueChangeIrreversible

def validateExtendedMetadataValue : ValidationResult :=
  if cache[key]?.any MetadataEntry.immutable then .valueIsImmutable else .success

end

def MetadataTransaction.uniqueKey (generateUniqueKey : MetadataKey → Hash256) (context : MetadataContext)
    (transaction : MetadataTransaction) : Hash256 :=
  generateUniqueKey (resolveMetadataKey context.resolve transaction.notification.partialMetadataKey
    transaction.notification.metadataTarget)

def MetadataTransaction.Accepted (generateUniqueKey : MetadataKey → Hash256) (context : MetadataContext)
    (cache : MetadataCache) (transaction : MetadataTransaction) : Prop :=
  validateMetadataSizes context.maxValueSize transaction.notification = .success ∧
    validateMetadataValue cache (transaction.uniqueKey generateUniqueKey context) transaction.notification = .success ∧
    match transaction with
    | .plain _ => True
    | .extended _ _ =>
      validateExtendedMetadataValue cache (transaction.uniqueKey generateUniqueKey context) = .success

instance (generateUniqueKey : MetadataKey → Hash256) (context : MetadataContext) (cache : MetadataCache)
    (transaction : MetadataTransaction) : Decidable (transaction.Accepted generateUniqueKey context cache) :=
  match transaction with
  | .plain _ | .extended _ _ => inferInstanceAs (Decidable (_ ∧ _ ∧ _))

section

/-- A size below zero does not occur, as the size is not below the change of an accepted transaction. -/
def MetadataNotification.effectiveValueSize (notification : MetadataNotification) : NotifyMode → ℕ
  | .commit =>
    if notification.valueSizeDelta < 0 then (notification.value.length + notification.valueSizeDelta).toNat
    else notification.value.length
  | .rollback =>
    if 0 < notification.valueSizeDelta then (notification.value.length - notification.valueSizeDelta).toNat
    else notification.value.length

def MetadataTransaction.newEntry (context : MetadataContext) (transaction : MetadataTransaction) : MetadataEntry :=
  let key :=
    resolveMetadataKey context.resolve transaction.notification.partialMetadataKey
    transaction.notification.metadataTarget
  match transaction with
  | .plain _ => { key, value := [], immutable := context.uninitializedImmutable, version := 1 }
  | .extended _ isValueImmutable => { key, value := [], immutable := isValueImmutable, version := 2 }

def updateCache (cache : MetadataCache) (key : Hash256) (newEntry : MetadataEntry)
    (valueBuffer : List UInt8) : MetadataCache :=
  match cache[key]? with
  | none => cache.insert key { newEntry with value := MetadataValue.update newEntry.value valueBuffer }
  | some entry =>
    if valueBuffer.length = 0 then cache.erase key
    else cache.insert key { entry with value := MetadataValue.update entry.value valueBuffer }

def MetadataTransaction.observe (generateUniqueKey : MetadataKey → Hash256) (context : MetadataContext)
    (mode : NotifyMode) (transaction : MetadataTransaction) (cache : MetadataCache) : MetadataCache :=
  updateCache cache (transaction.uniqueKey generateUniqueKey context) (transaction.newEntry context)
    (transaction.notification.value.take (transaction.notification.effectiveValueSize mode))

end

end XpxChain.Metadata
