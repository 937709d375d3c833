import XpxChain.Accounts.Balances
import XpxChain.Library.StepRecords

/-! The balances of one account with the snapshots of its tracked mosaic, from which its effective balance is read. -/

namespace XpxChain.Accounts

structure BalanceSnapshot where
  amount : ℕ
  balanceHeight : ℕ
deriving DecidableEq, Repr

inductive SnapshotError
  | account (error : AccountError)
  | noAccount
  | snapshotBelowAccount (balanceHeight addressHeight : Height)
deriving DecidableEq, Repr

structure SnapshotConfiguration where
  importanceGrouping : ℕ
  maxRollbackBlocks : ℕ

def SnapshotConfiguration.unstableHeight (config : SnapshotConfiguration) : ℕ :=
  addAmount config.importanceGrouping config.maxRollbackBlocks

structure TrackedBalances where
  balances : AccountBalances
  trackedMosaicId : MosaicId
  addressHeight : Option Height
  localSnapshots : List BalanceSnapshot := []
  remoteSnapshots : List BalanceSnapshot := []

def minElement {α : Type} (less : α → α → Bool) : List α → Option α
  | [] => none
  | first :: rest => some (rest.foldl (fun smallest x => if less x smallest then x else smallest) first)

def effectiveHeight (height : Height) (importanceGrouping : ℕ) : Height :=
  if importanceGrouping < height then height - importanceGrouping else 0

def minSnapshot (snapshots : List BalanceSnapshot) (height : Height)
    (importanceGrouping : ℕ) : Option BalanceSnapshot :=
  minElement (fun l r => l.balanceHeight ≤ effectiveHeight height importanceGrouping || l.amount < r.amount) snapshots

namespace TrackedBalances

variable (s : TrackedBalances)

def balance : ℕ := s.balances s.trackedMosaicId

def pushSnapshot (snapshot : BalanceSnapshot) (committed : Bool) : Except SnapshotError TrackedBalances :=
  match s.addressHeight with
  | none => .error .noAccount
  | some addressHeight =>
    if addAmount snapshot.balanceHeight 1 < addressHeight then
      .error (.snapshotBelowAccount snapshot.balanceHeight addressHeight)
    else if committed then .ok { s with localSnapshots := s.localSnapshots ++ [snapshot] }
    else .ok { s with remoteSnapshots := s.remoteSnapshots ++ [snapshot] }

def maybePushSnapshot (mosaicId : MosaicId) (amount : ℕ) (height : Height) : Except SnapshotError TrackedBalances :=
  if mosaicId ≠ s.trackedMosaicId ∨ height = 0 ∨ height = 2 ^ 64 - 1 then .ok s
  else
    { s with
      remoteSnapshots := s.remoteSnapshots.rdropWhile fun snapshot => height ≤ snapshot.balanceHeight }.pushSnapshot
      ⟨amount, height⟩ false

def pushBase (mosaicId : MosaicId) (height : Height) : Except SnapshotError TrackedBalances :=
  if s.remoteSnapshots = [] ∧ s.localSnapshots = [] then
    s.maybePushSnapshot mosaicId (s.balances mosaicId) (sizeSub height 1)
  else .ok s

def internalCredit (mosaicId : MosaicId) (amount : ℕ) (height : Height) : Except SnapshotError TrackedBalances :=
  if amount = 0 then .ok s
  else do
    let s ← s.pushBase mosaicId height
    let balances := s.balances.internalCredit mosaicId amount
    { s with balances }.maybePushSnapshot mosaicId (balances mosaicId) height

def internalDebit (mosaicId : MosaicId) (amount : ℕ) (height : Height) : Except SnapshotError TrackedBalances :=
  if amount = 0 then .ok s
  else do
    let balances ← (s.balances.internalDebit mosaicId amount).mapError .account
    { s with balances }.maybePushSnapshot mosaicId (balances mosaicId) height

def credit (mosaicId : MosaicId) (amount : ℕ) (height : Height) : Except SnapshotError TrackedBalances :=
  if height = 0 then .error (.account .zeroHeight) else s.internalCredit mosaicId amount height

def debit (mosaicId : MosaicId) (amount : ℕ) (height : Height) : Except SnapshotError TrackedBalances :=
  if height = 0 then .error (.account .zeroHeight) else s.internalDebit mosaicId amount height

/-- Local snapshots that are not older than the remote ones go, and so do the remote ones that repeat the last local
amount. -/
def commitSnapshots : TrackedBalances :=
  match s.remoteSnapshots with
  | [] => s
  | front :: _ =>
    let localSnapshots := s.localSnapshots.rdropWhile fun snapshot => front.balanceHeight ≤ snapshot.balanceHeight
    let remoteSnapshots :=
      match localSnapshots.getLast? with
      | none => s.remoteSnapshots
      | some back => s.remoteSnapshots.dropWhile fun snapshot => back.amount = snapshot.amount
    { s with localSnapshots := localSnapshots ++ remoteSnapshots, remoteSnapshots := [] }

def maybeCleanUpSnapshots (height : Height) (config : SnapshotConfiguration) : TrackedBalances :=
  if height ≤ config.unstableHeight then s
  else
    { s with
      localSnapshots :=
        s.localSnapshots.dropWhile fun snapshot => snapshot.balanceHeight ≤ height - config.unstableHeight }

def getEffectiveBalance (height : Height) (importanceGrouping : ℕ) : ℕ :=
  match minSnapshot s.localSnapshots height importanceGrouping,
    minSnapshot s.remoteSnapshots height importanceGrouping with
  | none, none => s.balance
  | some l, none => l.amount
  | none, some r => r.amount
  | some l, some r => min l.amount r.amount

end TrackedBalances

/-! Credits and debits of the blocks of a chain, with the end-of-block balances of the tracked mosaic on the side. -/

structure TrackedLedger where
  account : TrackedBalances
  height : ℕ
  past : ℕ → ℕ

namespace TrackedLedger

variable (s : TrackedLedger) (config : SnapshotConfiguration)

def start (balances : AccountBalances) (trackedMosaicId : MosaicId)
    (addressHeight height : Height) : TrackedLedger where
  account := { balances, trackedMosaicId, addressHeight := some addressHeight }
  height
  past _ := balances trackedMosaicId

def endOfBlockBalance (h : ℕ) : ℕ := if h < s.height then s.past h else s.account.balance

def effectiveBalance : ℕ := s.account.getEffectiveBalance s.height config.importanceGrouping

inductive Event
  | credit (mosaicId : MosaicId) (amount : ℕ)
  | debit (mosaicId : MosaicId) (amount : ℕ)
  | cleanUp
  | endBlock (commit : Bool)

def withAccount (account : TrackedBalances) : TrackedLedger := { s with account }

def next : Event → Except SnapshotError TrackedLedger
  | .credit mosaicId amount => do
    let account ← s.account.credit mosaicId amount s.height
    return s.withAccount account
  | .debit mosaicId amount => do
    let account ← s.account.debit mosaicId amount s.height
    return s.withAccount account
  | .cleanUp => .ok (s.withAccount (s.account.maybeCleanUpSnapshots s.height config))
  | .endBlock commit => .ok
    { account := if commit then s.account.commitSnapshots else s.account
      height := s.height + 1
      past := Function.update s.past s.height s.account.balance }

end TrackedLedger

end XpxChain.Accounts
