import XpxChain.Accounts.Balances

/-! The offers of SDA-SDA exchanges, and the groups that list them. -/

namespace XpxChain.ExchangeSda

open Std Accounts Library OrderedContainers

structure MosaicsPair where
  mosaicIdGive : MosaicId
  mosaicIdGet : MosaicId
deriving DecidableEq

namespace MosaicsPair

def swap (pair : MosaicsPair) : MosaicsPair := ⟨pair.mosaicIdGet, pair.mosaicIdGive⟩

instance : Ord MosaicsPair := ⟨compareLex (compareOn mosaicIdGive) (compareOn mosaicIdGet)⟩

instance : TransOrd MosaicsPair :=
  inferInstanceAs (TransCmp (compareLex (compareOn mosaicIdGive) (compareOn mosaicIdGet)))

instance : LawfulEqOrd MosaicsPair where
  compare_self := ReflCmp.compare_self
  eq_of_compare {a b} h := by
    change (compareOn mosaicIdGive a b).then (compareOn mosaicIdGet a b) = .eq at h
    rw [Ordering.then_eq_eq] at h
    obtain ⟨x, y⟩ := a
    obtain ⟨x', y'⟩ := b
    rw [mk.injEq]
    exact ⟨LawfulEqOrd.eq_of_compare h.1, LawfulEqOrd.eq_of_compare h.2⟩

end MosaicsPair

structure SdaOfferBalance where
  currentMosaicGive : ℕ
  currentMosaicGet : ℕ
  initialMosaicGive : ℕ
  initialMosaicGet : ℕ
  deadline : Height
deriving DecidableEq

structure SdaOfferWithDuration where
  mosaics : MosaicsPair
  amountGive : ℕ
  amountGet : ℕ
  duration : ℕ
deriving DecidableEq

inductive SdaError
  | divisionByZero
  | offerNotFound (pair : MosaicsPair)
  | offerAlreadyExpired (pair : MosaicsPair) (height : Height)
  | entryNotFound (owner : Key)
  | groupNotFound
  | account (error : AccountError)
deriving DecidableEq

abbrev SdaOfferBalanceMap := ExtTreeMap MosaicsPair SdaOfferBalance

structure SdaExchangeEntry where
  owner : Key
  sdaOfferBalances : SdaOfferBalanceMap := ∅
  expiredSdaOfferBalances : ExtTreeMap Height SdaOfferBalanceMap := ∅

namespace SdaExchangeEntry

variable (entry : SdaExchangeEntry) (pair : MosaicsPair) (height : Height)

def minExpiryHeight : Height :=
  if entry.sdaOfferBalances.isEmpty then 0
  else entry.sdaOfferBalances.foldl (fun expiryHeight _ offer => min expiryHeight offer.deadline) (2 ^ 64 - 1)

def minPruneHeight : Height := entry.expiredSdaOfferBalances.keys.head?.getD 0

def empty : Bool := entry.sdaOfferBalances.isEmpty ∧ entry.expiredSdaOfferBalances.isEmpty

/-- `SdaOfferBalanceMap::at`. -/
def getOffer : Except SdaError SdaOfferBalance :=
  match entry.sdaOfferBalances[pair]? with
  | some offer => .ok offer
  | none => .error (.offerNotFound pair)

def addOffer (offer : SdaOfferWithDuration) (deadline : Height) : SdaExchangeEntry :=
  if offer.mosaics ∈ entry.sdaOfferBalances then entry
  else { entry with
    sdaOfferBalances := entry.sdaOfferBalances.insert offer.mosaics
      ⟨offer.amountGive, offer.amountGet, offer.amountGive, offer.amountGet, deadline⟩ }

def setOffer (offer : SdaOfferBalance) : SdaExchangeEntry :=
  { entry with sdaOfferBalances := entry.sdaOfferBalances.insert pair offer }

/-- Moves an offer to the buffer of the expired offers, in which the same pair must not be at that height. -/
def expireOffer : Except SdaError SdaExchangeEntry := do
  let offer ← entry.getOffer pair
  let expiredOffersAtHeight := entry.expiredSdaOfferBalances.getD height ∅
  if pair ∈ expiredOffersAtHeight then throw (.offerAlreadyExpired pair height)
  return { entry with
    sdaOfferBalances := entry.sdaOfferBalances.erase pair
    expiredSdaOfferBalances := entry.expiredSdaOfferBalances.insert height (expiredOffersAtHeight.insert pair offer) }

end SdaExchangeEntry

section

/-- `static_cast<int>` of a 64-bit amount. -/
def toInt (amount : ℕ) : ℤ := (amount : ℤ).bmod (2 ^ 32)

def denominator (mosaicGive mosaicGet : ℤ) : ℤ :=
  if _h : mosaicGet = 0 then mosaicGive else denominator mosaicGet (mosaicGive.tmod mosaicGet)
termination_by mosaicGet.natAbs
decreasing_by
  rw [Int.natAbs_tmod]
  exact Nat.mod_lt _ (Int.natAbs_pos.mpr _h)

/-- The two numbers of the fraction, of which the source makes a string. -/
def reducedFraction (mosaicGiveAmount mosaicGetAmount : ℕ) : Except SdaError (ℤ × ℤ) :=
  let denom := denominator (toInt mosaicGiveAmount) (toInt mosaicGetAmount)
  if denom = 0 then .error .divisionByZero
  else .ok ((toInt mosaicGiveAmount).tdiv denom, (toInt mosaicGetAmount).tdiv denom)

/-- The data that the hash of a group is computed of. -/
structure GroupKey where
  mosaics : MosaicsPair
  reduced : ℤ × ℤ
deriving DecidableEq

class Sha3 where
  Hash : Type
  [decidableEq : DecidableEq Hash]
  hash : GroupKey → Hash

end

variable [Sha3]

abbrev GroupHash := Sha3.Hash

instance : DecidableEq GroupHash := Sha3.decidableEq

def calculateGroupHash (pair : MosaicsPair) (mosaicGiveAmount mosaicGetAmount : ℕ) : Except SdaError GroupHash := do
  let reduced ← reducedFraction mosaicGiveAmount mosaicGetAmount
  return Sha3.hash ⟨pair, reduced⟩

structure SdaOfferBasicInfo where
  owner : Key
  mosaicGive : ℕ
  deadline : Height
deriving DecidableEq

abbrev SdaOfferGroupVector := List SdaOfferBasicInfo

namespace SdaOfferGroupVector

section

variable (sort : (SdaOfferBasicInfo → SdaOfferBasicInfo → Bool) → SdaOfferGroupVector → SdaOfferGroupVector)
  (group : SdaOfferGroupVector)

def smallToBig : SdaOfferGroupVector := sort (fun a b => a.mosaicGive < b.mosaicGive) group

def smallToBigSortedByEarliestExpiry : SdaOfferGroupVector :=
  sort (fun a b => a.deadline < b.deadline ∨ a.deadline = b.deadline ∧ a.mosaicGive < b.mosaicGive) group

def bigToSmall : SdaOfferGroupVector := sort (fun a b => b.mosaicGive < a.mosaicGive) group

def bigToSmallSortedByEarliestExpiry : SdaOfferGroupVector :=
  sort (fun a b => a.deadline < b.deadline ∨ a.deadline = b.deadline ∧ b.mosaicGive < a.mosaicGive) group

/-- The distances are those of the amounts as signed 64-bit numbers. -/
def exactOrClosest (offerTarget : ℕ) : SdaOfferGroupVector :=
  let distance (info : SdaOfferBasicInfo) :=
    ((offerTarget : ℤ).bmod (2 ^ 64) - (info.mosaicGive : ℤ).bmod (2 ^ 64)).natAbs
  sort (fun a b => distance a < distance b) group

end

def addSdaOfferToGroup (group : SdaOfferGroupVector) (offer : SdaOfferWithDuration) (owner : Key) (deadline : Height) :
    SdaOfferGroupVector :=
  group ++ [⟨owner, offer.amountGive, deadline⟩]

def updateSdaOfferGroup (group : SdaOfferGroupVector) (owner : Key) (newMosaicGiveAmount : ℕ) : SdaOfferGroupVector :=
  group.map fun info => if info.owner = owner then { info with mosaicGive := newMosaicGiveAmount } else info

/-- The loop goes on after the offer that follows a removed one. -/
def removeSdaOfferFromGroup (owner : Key) : SdaOfferGroupVector → SdaOfferGroupVector
  | [] => []
  | [info] => if info.owner = owner then [] else [info]
  | info :: next :: group =>
    if info.owner = owner then next :: removeSdaOfferFromGroup owner group
    else info :: removeSdaOfferFromGroup owner (next :: group)

end SdaOfferGroupVector

open SdaOfferGroupVector

inductive SortPolicy
  | default
  | smallToBig
  | smallToBigSortedByEarliestExpiry
  | bigToSmall
  | bigToSmallSortedByEarliestExpiry
  | exactOrClosest
deriving DecidableEq

/-- The height and the configuration. Of `std::sort` it is known that it permutes the offers. -/
structure Context where
  height : Height
  maxOfferDuration : ℕ
  longOfferKey : Key
  offerSortPolicy : SortPolicy
  sort : (SdaOfferBasicInfo → SdaOfferBasicInfo → Bool) → SdaOfferGroupVector → SdaOfferGroupVector
  sort_perm : ∀ less group, (sort less group).Perm group

def Context.arrange (context : Context) (offerTarget : ℕ) (offers : SdaOfferGroupVector) : SdaOfferGroupVector :=
  match context.offerSortPolicy with
  | .default => offers
  | .smallToBig => smallToBig context.sort offers
  | .smallToBigSortedByEarliestExpiry => smallToBigSortedByEarliestExpiry context.sort offers
  | .bigToSmall => bigToSmall context.sort offers
  | .bigToSmallSortedByEarliestExpiry => bigToSmallSortedByEarliestExpiry context.sort offers
  | .exactOrClosest => exactOrClosest context.sort offers offerTarget

/-- The last field records the two offers of every exchange as it has left them (`SdaOfferBalanceResult::OfferPair`). -/
structure State where
  exchange : ExtTreeMap Key SdaExchangeEntry := ∅
  heightGrouping : ExtTreeMap Height (Finset Key) := ∅
  groups : GroupHash → Option SdaOfferGroupVector := fun _ => none
  accounts : AccountStateCache := ∅
  exchanged : List (SdaOfferBalance × SdaOfferBalance) := []

namespace State

variable (s : State)

def getEntry (owner : Key) : Except SdaError SdaExchangeEntry :=
  match s.exchange[owner]? with
  | some entry => .ok entry
  | none => .error (.entryNotFound owner)

def setEntry (entry : SdaExchangeEntry) : State := { s with exchange := s.exchange.insert entry.owner entry }

def expiringOfferOwners (height : Height) : Finset Key := s.heightGrouping.getD height ∅

def addExpiryHeight (owner : Key) (height : Height) : State :=
  if height = 0 then s
  else { s with heightGrouping := s.heightGrouping.insert height (insert owner (s.expiringOfferOwners height)) }

def removeExpiryHeight (owner : Key) (height : Height) : State :=
  if height = 0 then s
  else
    let owners := (s.expiringOfferOwners height).erase owner
    { s with
      heightGrouping := if owners = ∅ then s.heightGrouping.erase height else s.heightGrouping.insert height owners }

/-- What `SdaOfferExpiryUpdater` does when it is destroyed. -/
def updateExpiry (entry : SdaExchangeEntry) : State :=
  (s.addExpiryHeight entry.owner entry.minPruneHeight).addExpiryHeight entry.owner entry.minExpiryHeight

def setGroup (hash : GroupHash) (group : Option SdaOfferGroupVector) : State :=
  { s with groups := Function.update s.groups hash group }

def modifyGroup (hash : GroupHash) (change : SdaOfferGroupVector → SdaOfferGroupVector) : State :=
  s.setGroup hash ((s.groups hash).map change)

def creditAccount (context : Context) (owner : Key) (mosaicId : MosaicId) (amount : ℕ) : Except SdaError State :=
  if amount = 0 then .ok s
  else do
    let accounts ← (s.accounts.credit owner mosaicId amount context.height).mapError .account
    return { s with accounts }

end State

end XpxChain.ExchangeSda
