import XpxChain.Accounts.Balances

/-! Exchange offers, live and expired, of one owner. -/

namespace XpxChain.Exchange

open Std Accounts

inductive OfferType
  | sell
  | buy
  | unnamed (value : Fin 256)
deriving DecidableEq, Repr

structure UnresolvedMosaic where
  mosaicId : UnresolvedMosaicId
  amount : ℕ
deriving DecidableEq, Repr

structure Offer where
  mosaic : UnresolvedMosaic
  cost : ℕ
  type : OfferType
deriving DecidableEq, Repr

structure OfferWithDuration extends Offer where
  duration : ℕ
deriving DecidableEq, Repr

inductive ValidationResult
  | success
  | noOffers
  | duplicatedOfferInRequest
  | incorrectOfferType
  | zeroOfferDuration
  | offerDurationTooLarge
  | mosaicDoesNotExist
  | offerDurationExceedsMosaicDuration
  | zeroAmount
  | zeroPrice
  | mosaicNotAllowed
  | offerExists
deriving DecidableEq, Repr

inductive ExchangeError
  | mosaicNotFound (mosaicId : MosaicId)
  | entryNotFound (owner : Key)
deriving DecidableEq, Repr

inductive NotifyMode
  | commit
  | rollback
deriving DecidableEq, Repr

structure OfferBase where
  amount : ℕ
  initialAmount : ℕ
  initialCost : ℕ
  deadline : Height
deriving DecidableEq, Repr

structure SellOffer extends OfferBase
deriving DecidableEq, Repr

structure BuyOffer extends OfferBase where
  residualCost : ℕ
deriving DecidableEq, Repr

/-- What the templates of the source use of an offer. -/
class IsOffer (α : Type) where
  base : α → OfferBase

instance : IsOffer SellOffer := ⟨SellOffer.toOfferBase⟩

instance : IsOffer BuyOffer := ⟨BuyOffer.toOfferBase⟩

abbrev OfferMap (α : Type) := ExtTreeMap MosaicId α

structure OfferBook (α : Type) where
  offers : OfferMap α := ∅
  expiredOffers : ExtTreeMap Height (OfferMap α) := ∅

def OfferBook.empty {α : Type} (book : OfferBook α) : Prop := book.offers.isEmpty ∧ book.expiredOffers.isEmpty
deriving Decidable

structure ExchangeEntry where
  owner : Key
  version : ℕ
  sell : OfferBook SellOffer := {}
  buy : OfferBook BuyOffer := {}

namespace ExchangeEntry

variable (entry : ExchangeEntry)

/-- The buy offers for the type `buy`, and the sell offers for every other value. -/
def onBook {β : Type} (type : OfferType) (f : {α : Type} → [IsOffer α] → OfferBook α → β) : β :=
  if type = .buy then f entry.buy else f entry.sell

def offerExists (type : OfferType) (mosaicId : MosaicId) : Prop :=
  entry.onBook type fun book => mosaicId ∈ book.offers
deriving Decidable

def addOffer (mosaicId : MosaicId) (offer : OfferWithDuration) (deadline : Height) : ExchangeEntry :=
  let base := ⟨offer.mosaic.amount, offer.mosaic.amount, offer.cost, deadline⟩
  if offer.type = .buy then
    { entry with buy.offers := entry.buy.offers.insertIfNew mosaicId ⟨base, offer.cost⟩ }
  else { entry with sell.offers := entry.sell.offers.insertIfNew mosaicId ⟨base⟩ }

def removeOffer (type : OfferType) (mosaicId : MosaicId) : ExchangeEntry :=
  if type = .buy then { entry with buy.offers := entry.buy.offers.erase mosaicId }
  else { entry with sell.offers := entry.sell.offers.erase mosaicId }

def empty : Prop := entry.buy.empty ∧ entry.sell.empty
deriving Decidable

def minExpiryHeight : Height :=
  if entry.buy.offers.isEmpty ∧ entry.sell.offers.isEmpty then 0
  else
    let expiryHeight := entry.sell.offers.foldl (fun height _ offer => min height offer.deadline) (2 ^ 64 - 1)
    entry.buy.offers.foldl (fun height _ offer => min height offer.deadline) expiryHeight

def minPruneHeight : Height :=
  match entry.buy.expiredOffers.keys.head?, entry.sell.expiredOffers.keys.head? with
  | none, none => 0
  | some height, none => height
  | none, some height => height
  | some buyHeight, some sellHeight => min buyHeight sellHeight

end ExchangeEntry

end XpxChain.Exchange
