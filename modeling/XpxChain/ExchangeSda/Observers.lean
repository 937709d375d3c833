import XpxChain.ExchangeSda.OfferGroups

/-! The offers of one mosaic for another, and the validators and observers that place, remove and clean them up. -/

namespace XpxChain.ExchangeSda

open Std Accounts Library OrderedContainers

variable [Sha3]

open SdaOfferGroupVector

variable (context : Context)

section

inductive ValidationResult
  | success
  | noOffers
  | exchangingSameUnitsIsNotAllowed
  | duplicatedOfferInRequest
  | zeroOfferDuration
  | offerDurationTooLarge
  | zeroAmount
  | zeroPrice
  | offerExists
  | noOfferedMosaicsToRemove
  | accountDoesntHaveAnyOffer
  | offerDoesntExist
  | offerExpired
  | cantRemoveOfferAtHeight
deriving DecidableEq

def validateOffers (signer : Key) : List MosaicsPair → List SdaOfferWithDuration → ValidationResult
  | _, [] => .success
  | seen, offer :: offers =>
    if offer.mosaics.mosaicIdGive = offer.mosaics.mosaicIdGet then .exchangingSameUnitsIsNotAllowed
    else if offer.mosaics ∈ seen then .duplicatedOfferInRequest
    else if offer.duration = 0 then .zeroOfferDuration
    else if offer.duration > context.maxOfferDuration ∧ signer ≠ context.longOfferKey then .offerDurationTooLarge
    else if offer.amountGive = 0 then .zeroAmount
    else if offer.amountGet = 0 then .zeroPrice
    else validateOffers signer (offer.mosaics :: seen) offers

def placeValidator (s : State) (signer : Key) (offers : List SdaOfferWithDuration) : ValidationResult :=
  if offers = [] then .noOffers
  else
    match validateOffers context signer [] offers with
    | .success =>
      match s.exchange[signer]? with
      | none => .success
      | some entry => if offers.any fun offer => offer.mosaics ∈ entry.sdaOfferBalances then .offerExists else .success
    | failure => failure

def validateRemovals (entry : SdaExchangeEntry) : List MosaicsPair → List MosaicsPair → ValidationResult
  | _, [] => .success
  | seen, pair :: pairs =>
    if pair ∈ seen then .duplicatedOfferInRequest
    else
      match entry.sdaOfferBalances[pair]? with
      | none => .offerDoesntExist
      | some offer =>
        if offer.deadline ≤ context.height then .offerExpired
        else if pair ∈ entry.expiredSdaOfferBalances.getD context.height ∅ then .cantRemoveOfferAtHeight
        else validateRemovals entry (pair :: seen) pairs

def removeValidator (s : State) (owner : Key) (pairs : List MosaicsPair) : ValidationResult :=
  if pairs = [] then .noOfferedMosaicsToRemove
  else
    match s.exchange[owner]? with
    | none => .accountDoesntHaveAnyOffer
    | some entry => validateRemovals context entry [] pairs

end

section

def getOfferDeadline (duration : ℕ) (currentHeight : Height) : Height :=
  let maxDeadline := 2 ^ 64 - 1
  if duration < maxDeadline - currentHeight then currentHeight + duration else maxDeadline

def saveOffer (signer : Key) (s : State) (offer : SdaOfferWithDuration) : Except SdaError State := do
  let entry ← s.getEntry signer
  let deadline := getOfferDeadline offer.duration context.height
  let groupHash ← calculateGroupHash offer.mosaics offer.amountGive offer.amountGet
  let group := (s.groups groupHash).getD []
  return (s.setEntry (entry.addOffer offer deadline)).setGroup groupHash
    (group.addSdaOfferToGroup offer signer deadline)

def changeOffer (entry : SdaExchangeEntry) (pair : MosaicsPair) (offer : SdaOfferBalance) (groupHash : GroupHash)
    (amount : ℕ) (s : State) : State :=
  (s.setEntry (entry.setOffer pair offer)).modifyGroup groupHash fun group =>
    group.updateSdaOfferGroup entry.owner amount

def closeOffer (owner : Key) (pair : MosaicsPair) (groupHash : GroupHash) (s : State) : Except SdaError State := do
  let entry ← s.getEntry owner
  let entry ← entry.expireOffer pair context.height
  return (s.setEntry entry).modifyGroup groupHash (removeSdaOfferFromGroup owner)

def SdaOfferBalance.usedUp (offer : SdaOfferBalance) : Bool := offer.currentMosaicGive = 0 ∧ offer.currentMosaicGet = 0

def closeIfUsedUp (owner : Key) (pair : MosaicsPair) (groupHash : GroupHash) (offer : SdaOfferBalance) (s : State) :
    Except SdaError State :=
  if offer.usedUp then closeOffer context owner pair groupHash s else .ok s

/-- Exchanges an offer of the signer with one of another owner; the flag says that the signer's offer is used up. The
group of the existing offer is given what that offer still gets, as the source has it. -/
def exchangeWith (signer : Key) (pair : MosaicsPair) (groupHash existingGroupHash : GroupHash) (s : State)
    (info : SdaOfferBasicInfo) : Except SdaError (State × Bool) :=
  if info.owner = signer then .ok (s, false)
  else do
    let existingOffer ← s.getEntry info.owner
    let entry ← s.getEntry signer
    let offerExchange ← entry.getOffer pair
    let offer ← existingOffer.getOffer pair.swap
    let mosaicExchange1 := min offerExchange.currentMosaicGet offer.currentMosaicGive
    let mosaicExchange2 := min offerExchange.currentMosaicGive offer.currentMosaicGet
    let offerExchange := { offerExchange with
      currentMosaicGive := offerExchange.currentMosaicGive - mosaicExchange2
      currentMosaicGet := offerExchange.currentMosaicGet - mosaicExchange1 }
    let offer := { offer with
      currentMosaicGive := offer.currentMosaicGive - mosaicExchange1
      currentMosaicGet := offer.currentMosaicGet - mosaicExchange2 }
    let s := { s with exchanged := s.exchanged ++ [(offer, offerExchange)] }
    let s := changeOffer existingOffer pair.swap offer existingGroupHash offer.currentMosaicGet s
    let s := changeOffer entry pair offerExchange groupHash offerExchange.currentMosaicGive s
    let s ← s.creditAccount context info.owner pair.mosaicIdGive mosaicExchange2
    let s ← s.creditAccount context signer pair.mosaicIdGet mosaicExchange1
    let s ← closeIfUsedUp context info.owner pair.swap existingGroupHash offer s
    let s ← closeIfUsedUp context signer pair groupHash offerExchange s
    let existingOffer ← s.getEntry info.owner
    return (s.updateExpiry existingOffer, offerExchange.usedUp)

def exchangeWithAll (signer : Key) (pair : MosaicsPair) (groupHash existingGroupHash : GroupHash) :
    List SdaOfferBasicInfo → State → Except SdaError State
  | [], s => .ok s
  | info :: arrangedOffers, s => do
    let (s, usedUp) ← exchangeWith context signer pair groupHash existingGroupHash s info
    if usedUp then .ok s else exchangeWithAll signer pair groupHash existingGroupHash arrangedOffers s

def exchangeOffer (signer : Key) (s : State) (current : MosaicsPair × SdaOfferBalance) : Except SdaError State := do
  let groupHash ← calculateGroupHash current.1 current.2.initialMosaicGive current.2.initialMosaicGet
  if s.groups groupHash = none then throw .groupNotFound
  let existingGroupHash ← calculateGroupHash current.1.swap current.2.initialMosaicGet current.2.initialMosaicGive
  match s.groups existingGroupHash with
  | none => .ok s
  | some offers =>
    let arrangedOffers := context.arrange current.2.currentMosaicGet offers
    exchangeWithAll context signer current.1 groupHash existingGroupHash arrangedOffers
      (s.setGroup existingGroupHash arrangedOffers)

def placeObserver (signer : Key) (offers : List SdaOfferWithDuration) (s : State) : Except SdaError State := do
  let s := if signer ∈ s.exchange then s else s.setEntry ⟨signer, ∅, ∅⟩
  let s ← offers.foldlM (saveOffer context signer) s
  let currentOffers := (← s.getEntry signer).sdaOfferBalances
  let s ← currentOffers.toList.foldlM (exchangeOffer context signer) s
  let entry ← s.getEntry signer
  return s.updateExpiry entry

end

section

def removeOffer (owner : Key) (s : State) (pair : MosaicsPair) : Except SdaError State := do
  let entry ← s.getEntry owner
  let offer ← entry.getOffer pair
  let groupHash ← calculateGroupHash pair offer.initialMosaicGive offer.initialMosaicGet
  if s.groups groupHash = none then return s
  let s ← s.creditAccount context owner pair.mosaicIdGive offer.currentMosaicGive
  closeOffer context owner pair groupHash s

def removeObserver (owner : Key) (pairs : List MosaicsPair) (s : State) : Except SdaError State := do
  let s ← pairs.foldlM (removeOffer context owner) s
  let entry ← s.getEntry owner
  let s := s.updateExpiry entry
  return if entry.empty then { s with exchange := s.exchange.erase owner } else s

end

section

def expireIfDue (owner : Key) (s : State) (current : MosaicsPair × SdaOfferBalance) : Except SdaError State :=
  if current.2.deadline = context.height then do
    let entry ← s.getEntry owner
    let entry ← entry.expireOffer current.1 context.height
    (s.setEntry entry).creditAccount context owner current.1.mosaicIdGive current.2.currentMosaicGive
  else .ok s

def removeExpired (owner : Key) (s : State) (expired : MosaicsPair × SdaOfferBalance) : Except SdaError State := do
  let groupHash ← calculateGroupHash expired.1 expired.2.initialMosaicGive expired.2.initialMosaicGet
  match s.groups groupHash with
  | none => .ok s
  | some group =>
    let group := removeSdaOfferFromGroup owner group
    .ok (s.setGroup groupHash (if group = [] then none else some group))

def cleanupOwner (s : State) (owner : Key) : Except SdaError State :=
  match s.exchange[owner]? with
  | none => .ok s
  | some entry => do
    let s ← entry.sdaOfferBalances.toList.foldlM (expireIfDue context owner) s
    let entry ← s.getEntry owner
    let s ← (entry.expiredSdaOfferBalances.getD context.height ∅).toList.foldlM (removeExpired owner) s
    let entry := { entry with expiredSdaOfferBalances := entry.expiredSdaOfferBalances.erase context.height }
    let s := (s.setEntry entry).removeExpiryHeight owner context.height
    let s := if entry.empty then { s with exchange := s.exchange.erase owner } else s
    return s.updateExpiry entry

def cleanupObserver (s : State) : Except SdaError State :=
  (ascending (s.expiringOfferOwners context.height)).foldlM (cleanupOwner context) s

end

section

/-- The deposits of a transaction by mosaic, summed up in 64 bits. -/
def lockAmount (offers : List SdaOfferWithDuration) : ExtTreeMap MosaicId ℕ :=
  offers.foldl (fun locks offer =>
    locks.insert offer.mosaics.mosaicIdGive (addAmount (locks.getD offer.mosaics.mosaicIdGive 0) offer.amountGive)) ∅

def lockDeposit (signer : Key) (s : State) (lock : MosaicId × ℕ) : Except SdaError State :=
  if lock.2 = 0 then .ok s
  else do
    let accounts ← (s.accounts.debit signer lock.1 lock.2 context.height).mapError .account
    return { s with accounts }

inductive Event
  | place (signer : Key) (offers : List SdaOfferWithDuration)
  | remove (owner : Key) (pairs : List MosaicsPair)
  | cleanup

def Event.accepted (s : State) : Event → Bool
  | .place signer offers => placeValidator context s signer offers = .success
  | .remove owner pairs => removeValidator context s owner pairs = .success
  | .cleanup => true

def observe (s : State) : Event → Except SdaError State
  | .place signer offers => placeObserver context signer offers s
  | .remove owner pairs => removeObserver context owner pairs s
  | .cleanup => cleanupObserver context s

def settle (s : State) : Event → Except SdaError State
  | .place signer offers => (lockAmount offers).toList.foldlM (lockDeposit context signer) s
  | .remove _ _ | .cleanup => .ok s

end

def next (s : State) (x : Context × Event) : State :=
  if x.2.accepted x.1 s then
    match observe x.1 s x.2 with
    | .error _ => s
    | .ok s' =>
      match settle x.1 s' x.2 with
      | .error _ => s
      | .ok s'' => s''
  else s

end XpxChain.ExchangeSda
