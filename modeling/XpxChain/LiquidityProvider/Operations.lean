import XpxChain.LiquidityProvider.CurrencyExchange

/-! The other operations on liquidity providers: creation, manual changes of the rate and slashing. -/

namespace XpxChain.LiquidityProvider

open Std Accounts Library Exceptions

abbrev Amount := Fin (2 ^ 64)

structure Configuration where
  currencyMosaicId : MosaicId
  percentsDigitsAfterDot : ℕ
  managerPublicKeys : Finset Key
  maxWindowSize : ℕ

/-- `CreateLiquidityProviderTransaction`. The provider key is the hash of the transaction. -/
structure Creation where
  providerKey : Key
  owner : Key
  providerMosaicId : MosaicId
  currencyDeposit : Amount
  initialMosaicsMinting : Amount
  slashingPeriod : Fin (2 ^ 32)
  windowSize : Fin (2 ^ 16)
  slashingAccount : Key
  alpha : Fin (2 ^ 32)
  beta : Fin (2 ^ 32)

structure RateChange where
  signer : Key
  providerMosaicId : MosaicId
  currencyBalanceIncrease : Bool
  currencyBalanceChange : Amount
  mosaicBalanceIncrease : Bool
  mosaicBalanceChange : Amount

def LiquidityProviderEntry.restart (entry : LiquidityProviderEntry) (height : Height)
    (rate : ExchangeRate) : LiquidityProviderEntry :=
  { entry with creationHeight := height, turnoverHistory := [], recentTurnover := ⟨rate, 0⟩ }

namespace Market

variable (config : Configuration) (height : Height) (market : Market)

def addAccount (key : Key) : Market := { market with accounts := market.accounts.insertIfNew key fun _ => 0 }

def validateCreation (tx : Creation) : Except ExchangeError Unit :=
  if tx.providerMosaicId = 0 then .error (.failure .reservedMosaicId)
  else if tx.providerMosaicId = config.currencyMosaicId then .error (.failure .reservedMosaicId)
  else if tx.providerMosaicId ∈ market.providers then .error (.failure .liquidityProviderAlreadyExists)
  else if tx.owner ∉ config.managerPublicKeys then .error (.failure .invalidOwner)
  else if tx.slashingPeriod = 0 then .error (.failure .invalidSlashingPeriod)
  else if tx.windowSize.val < 1 ∨ config.maxWindowSize < tx.windowSize then .error (.failure .invalidWindowSize)
  else if tx.currencyDeposit = 0 then .error (.failure .invalidExchangeRate)
  else if tx.initialMosaicsMinting = 0 then .error (.failure .invalidExchangeRate)
  else .ok ()

def createdEntry (tx : Creation) : LiquidityProviderEntry where
  providerKey := tx.providerKey
  owner := tx.owner
  slashingAccount := tx.slashingAccount
  slashingPeriod := tx.slashingPeriod
  windowSize := tx.windowSize
  creationHeight := height
  alpha := tx.alpha
  beta := tx.beta
  recentTurnover := ⟨⟨tx.currencyDeposit, tx.initialMosaicsMinting⟩, 0⟩

/-- The notifications of the transaction in their order: the two accounts, the provider, the transfer of the deposit and
the minting. -/
def create (tx : Creation) : Except ExchangeError Market := do
  let market := (market.addAccount tx.providerKey).addAccount tx.slashingAccount
  market.validateCreation config tx
  let providers := market.providers.insert tx.providerMosaicId (createdEntry height tx)
  if market.accounts.balance tx.owner config.currencyMosaicId < tx.currencyDeposit then
    throw (.failure .coreInsufficientBalance)
  let accounts ← (market.accounts.debit tx.owner config.currencyMosaicId tx.currencyDeposit height).mapError .account
  let accounts ← (accounts.credit tx.providerKey config.currencyMosaicId tx.currencyDeposit height).mapError .account
  let accounts ← (accounts.credit tx.providerKey tx.providerMosaicId tx.initialMosaicsMinting height).mapError .account
  return { accounts, providers }

def creditOperation (debtor creditor : Key) (mosaicId : MosaicId) (amount : Amount) : Except ExchangeError Market := do
  market.validateCreditMosaics config.currencyMosaicId config.percentsDigitsAfterDot debtor mosaicId amount
  market.creditMosaics config.currencyMosaicId config.percentsDigitsAfterDot debtor creditor mosaicId amount

def debitOperation (debtor creditor : Key) (mosaicId : MosaicId) (amount : Amount) : Except ExchangeError Market := do
  market.validateDebitMosaics debtor mosaicId amount
  market.debitMosaics config.currencyMosaicId config.percentsDigitsAfterDot debtor creditor mosaicId amount

def validateRateChange (tx : RateChange) : Except ExchangeError Unit :=
  match market.providers[tx.providerMosaicId]? with
  | none => .error (.failure .liquidityProviderIsNotRegistered)
  | some entry => do
    if tx.signer ≠ entry.owner then throw (.failure .invalidOwner)
    let lpAccount ← market.findAccount entry.providerKey
    let ownerAccount ← market.findAccount entry.owner
    if tx.currencyBalanceIncrease ∧ ownerAccount config.currencyMosaicId < tx.currencyBalanceChange then
      throw (.failure .insufficientCurrency)
    if ¬ tx.currencyBalanceIncrease ∧ lpAccount config.currencyMosaicId ≤ tx.currencyBalanceChange then
      throw (.failure .invalidExchangeRate)
    if ¬ tx.mosaicBalanceIncrease ∧ lpAccount tx.providerMosaicId ≤ tx.mosaicBalanceChange then
      throw (.failure .invalidExchangeRate)

def changeCurrencyBalance (entry : LiquidityProviderEntry) (increase : Bool)
    (amount : ℕ) : Except ExchangeError Market :=
  if increase then do
    let market ← market.debit entry.owner config.currencyMosaicId amount
    market.credit entry.providerKey config.currencyMosaicId amount
  else do
    let market ← market.debit entry.providerKey config.currencyMosaicId amount
    market.credit entry.slashingAccount config.currencyMosaicId amount

def changeMosaicBalance (entry : LiquidityProviderEntry) (mosaicId : MosaicId) (increase : Bool) (amount : ℕ) :
    Except ExchangeError Market :=
  if increase then market.credit entry.providerKey mosaicId amount
  else market.debit entry.providerKey mosaicId amount

def currentRate (entry : LiquidityProviderEntry) (mosaicId : MosaicId) : ExchangeRate where
  currencyAmount := market.accounts.balance entry.providerKey config.currencyMosaicId
  mosaicAmount := entry.minted (market.accounts.balance entry.providerKey mosaicId)

def changeRate (tx : RateChange) : Except ExchangeError Market := do
  market.validateRateChange config tx
  let entry ← market.findProvider tx.providerMosaicId
  let _ ← market.findAccount entry.slashingAccount
  let market ← market.changeCurrencyBalance config entry tx.currencyBalanceIncrease tx.currencyBalanceChange
  let market ← market.changeMosaicBalance entry tx.providerMosaicId tx.mosaicBalanceIncrease tx.mosaicBalanceChange
  let entry := entry.restart height (market.currentRate config entry tx.providerMosaicId)
  return { market with providers := market.providers.insert tx.providerMosaicId entry }

end Market

/-- The loop of `sqrt`, whose interval shrinks in every round. -/
def sqrtLoop (value : ℕ) : ℕ → ℕ → ℕ → ℕ
  | 0, left, _ => left
  | fuel + 1, left, right =>
    if left + 1 < right then
      let m := (left + right) / 2
      if m * m ≤ value then sqrtLoop value fuel m right else sqrtLoop value fuel left m
    else left

def sqrt (value : ℕ) : ℕ :=
  let right := min value 4294967295 + 1
  sqrtLoop value right 0 right

def slashingSearch (randomMoves : ℕ → Bool) : ℕ → ℕ → ℕ → ℕ → Except ExchangeError ℕ
  | 0, _, left, _ => .ok left
  | steps + 1, i, left, right =>
    if left + 1 < right then do
      let leftSqrt := sqrt left
      let rightSqrt := sqrt right
      let m ← floorDivision (right * leftSqrt + left * rightSqrt) (leftSqrt + rightSqrt)
      let m := max (m % 2 ^ 64) left
      if randomMoves i then slashingSearch randomMoves steps (i + 1) left m
      else slashingSearch randomMoves steps (i + 1) m right
    else .ok left

namespace LiquidityProviderEntry

def pushTurnover (entry : LiquidityProviderEntry) : List HistoryObservation :=
  let history := entry.turnoverHistory ++ [entry.recentTurnover]
  if entry.windowSize < history.length then history.tail else history

def observe (entry : LiquidityProviderEntry) (rate : ExchangeRate) : LiquidityProviderEntry :=
  { entry with turnoverHistory := entry.pushTurnover, recentTurnover := ⟨rate, 0⟩ }

/-- `std::max_element` by turnover: the first of the largest ones. -/
def bestObservation : List HistoryObservation → Option HistoryObservation
  | [] => none
  | observation :: history =>
    some (history.foldl (fun best observation => if best.turnover < observation.turnover then observation else best)
      observation)

def isDue (entry : LiquidityProviderEntry) (height : Height) : Bool :=
  sizeSub height entry.creationHeight % entry.slashingPeriod = 0

end LiquidityProviderEntry

namespace Market

variable (config : Configuration) (randomMoves : Height → MosaicId → ℕ → Bool) (height : Height) (market : Market)

def slashedCurrency (mosaicId : MosaicId) (best current : ExchangeRate) : Except ExchangeError ℕ := do
  let leftNumerator := best.currencyAmount * best.currencyAmount * current.mosaicAmount * current.mosaicAmount
  let leftDenominator := best.mosaicAmount * best.mosaicAmount * current.currencyAmount
  let left ← floorDivision leftNumerator leftDenominator
  slashingSearch (randomMoves height mosaicId) 256 0 (left % 2 ^ 64) (addAmount current.currencyAmount 1)

def slashAccount (entry : LiquidityProviderEntry) (mosaicId : MosaicId)
    (best current : ExchangeRate) : Except ExchangeError Market :=
  if best.isLess current then do
    let left ← slashedCurrency randomMoves height mosaicId best current
    let slashAmount := sizeSub current.currencyAmount left
    let accounts ← (market.accounts.credit entry.slashingAccount config.currencyMosaicId slashAmount height).mapError
      .account
    let accounts ← (accounts.debit entry.providerKey config.currencyMosaicId slashAmount height).mapError .account
    return { market with accounts }
  else .ok market

/-- The observer of a block for one provider. The random moves come from a generator that is seeded with a hash of the
height and the mosaic. -/
def slashProvider (mosaicId : MosaicId) : Except ExchangeError Market := do
  let entry ← market.findProvider mosaicId
  if entry.slashingPeriod = 0 then throw .divisionByZero
  if ¬ entry.isDue height then return market
  match LiquidityProviderEntry.bestObservation entry.pushTurnover with
  | none => throw .emptyTurnoverHistory
  | some best =>
    let _ ← market.findAccount entry.providerKey
    let current := market.currentRate config entry mosaicId
    let market ← market.slashAccount config randomMoves height entry mosaicId best.rate current
    let finalRate :=
      { current with currencyAmount := market.accounts.balance entry.providerKey config.currencyMosaicId }
    return { market with providers := market.providers.insert mosaicId (entry.observe finalRate) }

def slash (keys : List MosaicId) : Except ExchangeError Market :=
  keys.foldlM (fun market mosaicId => market.slashProvider config randomMoves height mosaicId) market

end Market

inductive Operation
  | creation (tx : Creation)
  | credit (debtor creditor : Key) (mosaicId : MosaicId) (amount : Amount)
  | debit (debtor creditor : Key) (mosaicId : MosaicId) (amount : Amount)
  | rateChange (tx : RateChange)
  | block (keys : List MosaicId) (distinct : keys.Nodup)

variable (config : Configuration) (randomMoves : Height → MosaicId → ℕ → Bool)

def apply (market : Market) (op : Height × Operation) : Except ExchangeError Market :=
  match op.2 with
  | .creation tx => market.create config op.1 tx
  | .credit debtor creditor mosaicId amount => market.creditOperation config debtor creditor mosaicId amount
  | .debit debtor creditor mosaicId amount => market.debitOperation config debtor creditor mosaicId amount
  | .rateChange tx => market.changeRate config op.1 tx
  | .block keys _ => market.slash config randomMoves op.1 keys

def next (market : Market) (op : Height × Operation) : Market :=
  match apply config randomMoves market op with
  | .ok market' => market'
  | .error _ => market

end XpxChain.LiquidityProvider
