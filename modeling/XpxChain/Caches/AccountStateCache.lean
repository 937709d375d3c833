import XpxChain.DeltaSet.BaseSetDelta
import XpxChain.Accounts.Balances

/-! The delta of the account state cache. -/

namespace XpxChain.Caches

open Std DeltaSet Accounts

abbrev Address := Fin (2 ^ 200)

instance transOrd200 : TransOrd Address := inferInstance
instance neZero200 : NeZero (2 ^ 200) := inferInstance

structure AccountState where
  address : Address
  addressHeight : Height
  publicKey : Key := 0
  publicKeyHeight : Height := 0
  balances : AccountBalances := 0

structure AccountStateCacheDelta where
  stateByAddress : BaseSetDelta Address AccountState
  keyToAddress : BaseSetDelta Key Address
  queuedRemoveByAddress : List (Height × Address) := []
  queuedRemoveByPublicKey : List (Height × Key) := []

inductive AccountOperation
  | addAddress (address : Address) (height : Height)
  | addPublicKey (publicKey : Key) (height : Height)
  | addAccount (accountState : AccountState)
  | find (address : Address) (change : AccountState → AccountState)
  | findByKey (publicKey : Key) (change : AccountState → AccountState)
  | removeAddress (address : Address) (height : Height)
  | removePublicKey (publicKey : Key) (height : Height)
  | queueRemoveAddress (address : Address) (height : Height)
  | queueRemovePublicKey (publicKey : Key) (height : Height)
  | commitRemovals

namespace AccountStateCacheDelta

variable (publicKeyToAddress : Key → Address) (cache : AccountStateCacheDelta)

def lookup (address : Address) : Option AccountState := cache.stateByAddress.findConst address

def lookupByKey (publicKey : Key) : Option AccountState :=
  match cache.keyToAddress.findConst publicKey with
  | some address => cache.stateByAddress.findConst address
  | none => none

def contains (address : Address) : Bool := cache.stateByAddress.contains address

def containsKey (publicKey : Key) : Bool :=
  cache.keyToAddress.contains publicKey &&
    match cache.keyToAddress.findConst publicKey with
    | some address => cache.stateByAddress.contains address
    | none => false

def size : ℕ := cache.stateByAddress.size

def getAddress (publicKey : Key) : AccountStateCacheDelta × Address :=
  match cache.keyToAddress.findConst publicKey with
  | some address => (cache, address)
  | none =>
    let address := publicKeyToAddress publicKey
    ({ cache with keyToAddress := (cache.keyToAddress.insertImmutable publicKey address).1 }, address)

def find (address : Address) (change : AccountState → AccountState) : AccountStateCacheDelta :=
  { cache with stateByAddress := (cache.stateByAddress.find address change).1 }

def findByKey (publicKey : Key) (change : AccountState → AccountState) : AccountStateCacheDelta :=
  match cache.keyToAddress.findConst publicKey with
  | some address => cache.find address change
  | none => cache

def addAccount (accountState : AccountState) : AccountStateCacheDelta :=
  if cache.contains accountState.address then cache
  else
    let keyToAddress :=
      if accountState.publicKeyHeight ≠ 0 then
        (cache.keyToAddress.insertImmutable accountState.publicKey accountState.address).1
      else cache.keyToAddress
    { cache with
      keyToAddress
      stateByAddress := (cache.stateByAddress.insert accountState.address accountState).1 }

def addAddress (address : Address) (height : Height) : AccountStateCacheDelta :=
  if cache.contains address then cache else cache.addAccount { address, addressHeight := height }

def addPublicKey (publicKey : Key) (height : Height) : AccountStateCacheDelta :=
  let (cache, address) := cache.getAddress publicKeyToAddress publicKey
  let cache := cache.addAddress address height
  match cache.lookup address with
  | none => cache
  | some accountState =>
    if accountState.publicKeyHeight ≠ 0 then cache
    else cache.find address fun accountState => { accountState with publicKey, publicKeyHeight := height }

def removeAddress (address : Address) (height : Height) : AccountStateCacheDelta :=
  let (stateByAddress, found) := cache.stateByAddress.find address id
  let cache := { cache with stateByAddress }
  match found with
  | none => cache
  | some accountState =>
    if height ≠ accountState.addressHeight then cache
    else
      let keyToAddress :=
        if accountState.publicKeyHeight ≠ 0 then (cache.keyToAddress.removeImmutable accountState.publicKey).1
        else cache.keyToAddress
      { cache with keyToAddress, stateByAddress := (cache.stateByAddress.remove address).1 }

def removePublicKey (publicKey : Key) (height : Height) : AccountStateCacheDelta :=
  let cache := cache.findByKey publicKey id
  match cache.lookupByKey publicKey with
  | none => cache
  | some accountState =>
    if height ≠ accountState.publicKeyHeight then cache
    else
      let cache := { cache with keyToAddress := (cache.keyToAddress.removeImmutable accountState.publicKey).1 }
      if accountState.publicKeyHeight = accountState.addressHeight then
        { cache with stateByAddress := (cache.stateByAddress.remove accountState.address).1 }
      else cache.find accountState.address fun accountState =>
        { accountState with publicKey := 0, publicKeyHeight := 0 }

def commitRemovals : AccountStateCacheDelta :=
  let cache := cache.queuedRemoveByAddress.foldl (fun cache pair => cache.removeAddress pair.2 pair.1) cache
  let cache := cache.queuedRemoveByPublicKey.foldl (fun cache pair => cache.removePublicKey pair.2 pair.1) cache
  { cache with queuedRemoveByAddress := [], queuedRemoveByPublicKey := [] }

def apply : AccountOperation → AccountStateCacheDelta
  | .addAddress address height => cache.addAddress address height
  | .addPublicKey publicKey height => cache.addPublicKey publicKeyToAddress publicKey height
  | .addAccount accountState => cache.addAccount accountState
  | .find address change => cache.find address change
  | .findByKey publicKey change => cache.findByKey publicKey change
  | .removeAddress address height => cache.removeAddress address height
  | .removePublicKey publicKey height => cache.removePublicKey publicKey height
  | .queueRemoveAddress address height =>
    { cache with queuedRemoveByAddress := (height, address) :: cache.queuedRemoveByAddress }
  | .queueRemovePublicKey publicKey height =>
    { cache with queuedRemoveByPublicKey := (height, publicKey) :: cache.queuedRemoveByPublicKey }
  | .commitRemovals => cache.commitRemovals

def backupChanges (replace : Bool) : AccountStateCacheDelta :=
  { cache with stateByAddress := cache.stateByAddress.backupChanges replace }

def restoreChanges : AccountStateCacheDelta := { cache with stateByAddress := cache.stateByAddress.restoreChanges }

end AccountStateCacheDelta

end XpxChain.Caches
