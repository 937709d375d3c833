import XpxChain.Accounts.Balances
import XpxChain.Library.Runs

/-! The exchange of mosaics for currency with a liquidity provider. -/

namespace XpxChain.LiquidityProvider

open Std Accounts Library Exceptions

structure ExchangeRate where
  currencyAmount : ℕ := 0
  mosaicAmount : ℕ := 0
deriving DecidableEq, Repr

/-- The products of 64-bit amounts fit the 128 bits of the source. -/
def ExchangeRate.isLess (a b : ExchangeRate) : Bool :=
  a.currencyAmount * b.mosaicAmount < b.currencyAmount * a.mosaicAmount

structure HistoryObservation where
  rate : ExchangeRate := {}
  turnover : ℕ := 0
deriving DecidableEq, Repr

structure LiquidityProviderEntry where
  providerKey : Key
  owner : Key
  slashingAccount : Key
  additionallyMinted : ℕ := 0
  slashingPeriod : ℕ
  windowSize : ℕ
  creationHeight : Height
  alpha : ℕ
  beta : ℕ
  turnoverHistory : List HistoryObservation := []
  recentTurnover : HistoryObservation
deriving DecidableEq, Repr

def LiquidityProviderEntry.minted (lpEntry : LiquidityProviderEntry) (mosaicBalance : ℕ) : ℕ :=
  addAmount mosaicBalance lpEntry.additionallyMinted

def LiquidityProviderEntry.addTurnover (lpEntry : LiquidityProviderEntry) (amount : ℕ) : LiquidityProviderEntry :=
  { lpEntry with
    recentTurnover := { lpEntry.recentTurnover with turnover := addAmount lpEntry.recentTurnover.turnover amount } }

abbrev LiquidityProviderCache := ExtTreeMap MosaicId LiquidityProviderEntry

def LiquidityProviderEntry.mint (lpEntry : LiquidityProviderEntry)
    (mosaicAmount currencyAmount : ℕ) : LiquidityProviderEntry :=
  { lpEntry with additionallyMinted := addAmount lpEntry.additionallyMinted mosaicAmount }.addTurnover currencyAmount

def LiquidityProviderEntry.burn (lpEntry : LiquidityProviderEntry)
    (mosaicAmount currencyAmount : ℕ) : LiquidityProviderEntry :=
  { lpEntry with additionallyMinted := sizeSub lpEntry.additionallyMinted mosaicAmount }.addTurnover currencyAmount

inductive Failure
  | reservedMosaicId
  | liquidityProviderAlreadyExists
  | invalidOwner
  | invalidSlashingPeriod
  | invalidWindowSize
  | invalidExchangeRate
  | liquidityProviderIsNotRegistered
  | invalidMosaicAmount
  | invalidCurrencyAmount
  | insufficientCurrency
  | insufficientMosaic
  | coreInsufficientBalance
deriving DecidableEq, Repr

inductive ExchangeError
  | failure (result : Failure)
  | providerNotFound (mosaicId : MosaicId)
  | divisionByZero
  | invalidAmount
  | emptyTurnoverHistory
  | account (error : AccountError)
deriving DecidableEq, Repr

/-- `static_cast<uint64_t>(100) * pow(10, percentsDigitAfterDot)`. -/
def percentUnit (percentsDigitsAfterDot : ℕ) : ℕ := 100 * 10 ^ percentsDigitsAfterDot % 2 ^ 64

def isValidAmount (value : ℕ) : Bool := value < 2 ^ 64

def ceilDivision (numerator denominator : ℕ) : Except ExchangeError ℕ :=
  if numerator = 0 then .ok 0
  else if denominator = 0 then .error .divisionByZero
  else .ok ((numerator - 1) / denominator + 1)

def floorDivision (numerator denominator : ℕ) : Except ExchangeError ℕ :=
  if denominator = 0 then .error .divisionByZero else .ok (numerator / denominator)

def computeCreditCurrencyAmount (lpEntry : LiquidityProviderEntry) (currencyBalance mosaicBalance mosaicAmount : ℕ)
    (percentsDigitsAfterDot : ℕ) : Except ExchangeError (Option ℕ) := do
  let unit := percentUnit percentsDigitsAfterDot
  let numerator := mosaicAmount * currencyBalance * addAmount unit lpEntry.alpha
  let denominator := unit * lpEntry.minted mosaicBalance
  let amount ← ceilDivision numerator denominator
  return if isValidAmount amount then some amount else none

def computeDebitCurrencyAmount (lpEntry : LiquidityProviderEntry) (currencyBalance mosaicBalance mosaicAmount : ℕ)
    (percentsDigitsAfterDot : ℕ) : Except ExchangeError ℕ := do
  let unit := percentUnit percentsDigitsAfterDot
  let numerator := mosaicAmount * currencyBalance * sizeSub unit lpEntry.beta
  let denominator := unit * lpEntry.minted mosaicBalance
  let amount ← floorDivision numerator denominator
  return amount % 2 ^ 64

structure Market where
  accounts : AccountStateCache
  providers : LiquidityProviderCache

namespace Market

def findProvider (market : Market) (mosaicId : MosaicId) : Except ExchangeError LiquidityProviderEntry :=
  match market.providers[mosaicId]? with
  | some lpEntry => .ok lpEntry
  | none => .error (.providerNotFound mosaicId)

def findAccount (market : Market) (key : Key) : Except ExchangeError AccountBalances :=
  match market.accounts[key]? with
  | some balances => .ok balances
  | none => .error (.account (.accountNotFound key))

def credit (market : Market) (key : Key) (mosaicId : MosaicId) (amount : ℕ) : Except ExchangeError Market := do
  let accounts ← (market.accounts.internalCredit key mosaicId amount).mapError .account
  return { market with accounts }

def debit (market : Market) (key : Key) (mosaicId : MosaicId) (amount : ℕ) : Except ExchangeError Market := do
  let accounts ← (market.accounts.internalDebit key mosaicId amount).mapError .account
  return { market with accounts }

variable (currencyMosaicId : MosaicId) (percentsDigitsAfterDot : ℕ)

def validateCreditMosaics (market : Market) (currencyDebtor : Key) (mosaicId : MosaicId) (mosaicAmount : ℕ) :
    Except ExchangeError Unit := do
  match market.providers[mosaicId]? with
  | none => throw (.failure .liquidityProviderIsNotRegistered)
  | some lpEntry =>
    let lpAccount ← market.findAccount lpEntry.providerKey
    if ¬ isValidAmount (lpAccount mosaicId + lpEntry.additionallyMinted + mosaicAmount) then
      throw (.failure .invalidMosaicAmount)
    match ← computeCreditCurrencyAmount lpEntry (lpAccount currencyMosaicId) (lpAccount mosaicId) mosaicAmount
      percentsDigitsAfterDot with
    | none => throw (.failure .invalidCurrencyAmount)
    | some currencyAmount =>
      match market.accounts[currencyDebtor]? with
      | none => throw (.failure .insufficientCurrency)
      | some debtorAccount =>
        if debtorAccount currencyMosaicId < currencyAmount then throw (.failure .insufficientCurrency)

def validateDebitMosaics (market : Market) (mosaicDebtor : Key) (mosaicId : MosaicId)
    (mosaicAmount : ℕ) : Except ExchangeError Unit :=
  match market.providers[mosaicId]? with
  | none => throw (.failure .liquidityProviderIsNotRegistered)
  | some _ =>
    match market.accounts[mosaicDebtor]? with
    | none => throw (.failure .insufficientMosaic)
    | some debtorAccount =>
      if debtorAccount mosaicId < mosaicAmount then throw (.failure .insufficientMosaic) else .ok ()

def creditMosaics (market : Market) (currencyDebtor mosaicCreditor : Key) (mosaicId : MosaicId) (mosaicAmount : ℕ) :
    Except ExchangeError Market := do
  let lpEntry ← market.findProvider mosaicId
  let lpAccount ← market.findAccount lpEntry.providerKey
  match ← computeCreditCurrencyAmount lpEntry (lpAccount currencyMosaicId) (lpAccount mosaicId) mosaicAmount
    percentsDigitsAfterDot with
  | none => throw .invalidAmount
  | some currencyAmount =>
    let debtorAccount ← market.findAccount currencyDebtor
    if debtorAccount currencyMosaicId < currencyAmount then return market
    let market ← market.debit currencyDebtor currencyMosaicId currencyAmount
    let market ← market.credit lpEntry.providerKey currencyMosaicId currencyAmount
    let market ← market.credit mosaicCreditor mosaicId mosaicAmount
    return { market with providers := market.providers.insert mosaicId (lpEntry.mint mosaicAmount currencyAmount) }

def debitMosaics (market : Market) (mosaicDebtor currencyCreditor : Key) (mosaicId : MosaicId) (mosaicAmount : ℕ) :
    Except ExchangeError Market := do
  let lpEntry ← market.findProvider mosaicId
  let lpAccount ← market.findAccount lpEntry.providerKey
  let currencyAmount ← computeDebitCurrencyAmount lpEntry (lpAccount currencyMosaicId) (lpAccount mosaicId) mosaicAmount
    percentsDigitsAfterDot
  if lpAccount currencyMosaicId < currencyAmount then return market
  let debtorAccount ← market.findAccount mosaicDebtor
  if debtorAccount mosaicId < mosaicAmount then return market
  let market ← market.credit currencyCreditor currencyMosaicId currencyAmount
  let market ← market.debit lpEntry.providerKey currencyMosaicId currencyAmount
  let market ← market.debit mosaicDebtor mosaicId mosaicAmount
  return { market with providers := market.providers.insert mosaicId (lpEntry.burn mosaicAmount currencyAmount) }

end Market

end XpxChain.LiquidityProvider
