import XpxChain.Accounts.Balances

/-! Transfers of mosaics that carry a levy. -/

namespace XpxChain.Accounts

open Library Exceptions AccountBalances

variable {Address : Type} [DecidableEq Address]

/-- A levy with the amount that its calculator gives for a transferred amount. -/
structure LevyEntryData (Address : Type) where
  mosaicId : MosaicId
  recipient : Address
  levyAmount : ℕ → ℕ

structure BalanceTransferNotification (Address : Type) where
  sender : Key
  recipient : Address
  mosaicId : Fin (2 ^ 64)
  amount : ℕ

structure Resolvers where
  mosaic : Fin (2 ^ 64) → MosaicId
  amount : ℕ → ℕ

inductive LevyResult
  | success
  | insufficientBalance
  | levyNotFoundOrExpired
  | insufficientLevyBalance
deriving DecidableEq

inductive LevyError
  | senderNotFound
  | recipientNotFound
  | balances (error : AccountError)
deriving DecidableEq

structure LevyState (Address : Type) where
  publicKeyToAddress : Key → Address
  keyToAddress : Key → Option Address
  accounts : Address → Option AccountBalances
  levies : MosaicId → Option (LevyEntryData Address)
  isMosaicIdValid : MosaicId → Bool
  height : Height

namespace LevyState

variable (resolvers : Resolvers) (s : LevyState Address) (notification : BalanceTransferNotification Address)

def findByKey (publicKey : Key) : Option (Address × AccountBalances) :=
  (s.keyToAddress publicKey).bind fun address => (s.accounts address).map (address, ·)

/-- An account that is not found by its key is searched for by its address. -/
def findAccountBalance (publicKey : Key) (mosaicId : MosaicId) : Option ℕ :=
  (((s.findByKey publicKey).map (·.2)).or (s.accounts (s.publicKeyToAddress publicKey))).map (· mosaicId)

def balanceTransferValidator : LevyResult :=
  if (s.findAccountBalance notification.sender (resolvers.mosaic notification.mosaicId)).any
    (resolvers.amount notification.amount ≤ ·) then .success
  else .insufficientBalance

/-- Whether the transfer and the levy draw on one balance is decided on the unresolved id. -/
def levyTransferValidator : LevyResult :=
  match s.levies (resolvers.mosaic notification.mosaicId) with
  | none => .success
  | some levy =>
    if s.isMosaicIdValid levy.mosaicId = false then .levyNotFoundOrExpired
    else
      let levyAmount := levy.levyAmount notification.amount
      let requiredAmount :=
        if notification.mosaicId = levy.mosaicId then addAmount levyAmount notification.amount else levyAmount
      if (s.findAccountBalance notification.sender levy.mosaicId).any (requiredAmount ≤ ·) then .success
      else .insufficientLevyBalance

def set (address : Address) (balances : AccountBalances) : LevyState Address :=
  { s with accounts := Function.update s.accounts address (some balances) }

def transfer (sender : Key) (recipient : Address) (mosaicId : MosaicId) (amount : ℕ) :
    Except LevyError (LevyState Address) :=
  match s.findByKey sender, s.accounts recipient with
  | none, _ => .error .senderNotFound
  | some _, none => .error .recipientNotFound
  | some (address, balances), some recipientBalances => do
    let debited ← (balances.debit mosaicId amount s.height).mapError .balances
    let credited ← ((if recipient = address then debited else recipientBalances).credit mosaicId amount
      s.height).mapError .balances
    return (s.set address debited).set recipient credited

def balanceTransferObserver : Except LevyError (LevyState Address) :=
  s.transfer notification.sender notification.recipient (resolvers.mosaic notification.mosaicId)
    (resolvers.amount notification.amount)

def levyBalanceTransferObserver : Except LevyError (LevyState Address) :=
  match s.levies (resolvers.mosaic notification.mosaicId) with
  | none => .ok s
  | some levy => s.transfer notification.sender levy.recipient levy.mosaicId (levy.levyAmount notification.amount)

def observe : Except LevyError (LevyState Address) := do
  let s ← s.balanceTransferObserver resolvers notification
  s.levyBalanceTransferObserver resolvers notification

/-- What is left to require once both validators accept: where the levy is taken in the resolved mosaic and the transfer
leaves the account, the balance covers both, and where the sum of the levy validator wraps, it covers the levy. -/
def CoversLevy (address : Address) (balances : AccountBalances) : Prop :=
  s.accounts notification.recipient ≠ none → ∀ levy ∈ s.levies (resolvers.mosaic notification.mosaicId),
    s.accounts levy.recipient ≠ none →
    (levy.mosaicId = resolvers.mosaic notification.mosaicId ∧ notification.recipient ≠ address →
      levy.levyAmount notification.amount + resolvers.amount notification.amount ≤ balances levy.mosaicId) ∧
    (notification.mosaicId = levy.mosaicId ∧ 2 ^ 64 ≤ levy.levyAmount notification.amount + notification.amount →
      levy.levyAmount notification.amount ≤ balances levy.mosaicId)

variable {resolvers s notification} {sender : Key} {recipient address : Address} {mosaicId : MosaicId} {amount : ℕ}
  {balances : AccountBalances}

section

variable (hfind : s.findByKey sender = some (address, balances))
include hfind

lemma transfer_of_recipient_none (hrecipient : s.accounts recipient = none) :
    s.transfer sender recipient mosaicId amount = .error .recipientNotFound := by
  simp only [transfer, hfind, hrecipient]

lemma transfer_of_lt (hheight : s.height ≠ 0) (hrecipient : s.accounts recipient ≠ none)
    (hlt : balances mosaicId < amount) :
    ∃ error, s.transfer sender recipient mosaicId amount = .error (.balances error) := by
  obtain ⟨recipientBalances, hr⟩ := Option.ne_none_iff_exists'.mp hrecipient
  refine ⟨.insufficientBalance amount (balances mosaicId) mosaicId, ?_⟩
  simp only [transfer, hfind, hr, debit, internalDebit, if_neg hheight, if_pos hlt, if_neg (by omega : ¬ amount = 0)]
  rfl

lemma transfer_of_le (hheight : s.height ≠ 0) (hrecipient : s.accounts recipient ≠ none)
    (hle : amount ≤ balances mosaicId) (hlt : balances mosaicId < 2 ^ 64) :
    ∃ s' balances', s.transfer sender recipient mosaicId amount = .ok s' ∧ s'.height = s.height ∧ s'.levies = s.levies ∧
      s'.findByKey sender = some (address, balances') ∧ (∀ a, s'.accounts a = none ↔ s.accounts a = none) ∧
      ∀ m, balances' m + (if m = mosaicId ∧ recipient ≠ address then amount else 0) = balances m := by
  obtain ⟨recipientBalances, hr⟩ := Option.ne_none_iff_exists'.mp hrecipient
  obtain ⟨hkey, ha⟩ : s.keyToAddress sender = some address ∧ s.accounts address = some balances := by
    simp only [findByKey, Option.bind_eq_some_iff, Option.map_eq_some_iff, Prod.mk.injEq] at hfind
    obtain ⟨_, hkey, _, ha, rfl, rfl⟩ := hfind
    exact ⟨hkey, ha⟩
  obtain ⟨debited, hdebit⟩ : ∃ debited, balances.internalDebit mosaicId amount = .ok debited := by
    simp only [internalDebit, Nat.not_lt.mpr hle, if_false]
    split_ifs <;> exact ⟨_, rfl⟩
  have hd := internalDebit_add hdebit
  refine ⟨(s.set address debited).set recipient
    ((if recipient = address then debited else recipientBalances).internalCredit mosaicId amount),
    if recipient = address then debited.internalCredit mosaicId amount else debited, ?_, rfl, rfl, ?_, fun a => ?_,
    fun m => ?_⟩
  · simp only [transfer, hfind, hr, debit, credit, if_neg hheight, hdebit]
    rfl
  · by_cases h : recipient = address
    · simp [findByKey, set, hkey, h]
    · simp [findByKey, set, hkey, h, Ne.symm h]
  · simp only [set, Function.update_apply]
    split_ifs with h h'
    · simp [h, hr]
    · simp [h', ha]
    · rfl
  · have hm := hd m
    have hself := hd mosaicId
    rw [if_pos rfl] at hself
    by_cases h : recipient = address
    · rw [if_pos h, internalCredit_of_lt (by omega), hm]
      simp [h]
    · simpa [h] using hm

lemma transfer_covered_iff (hheight : s.height ≠ 0) (hlt : balances mosaicId < 2 ^ 64) :
    (s.transfer sender recipient mosaicId amount = .error .recipientNotFound ∨
      ∃ s', s.transfer sender recipient mosaicId amount = .ok s') ↔
    (s.accounts recipient ≠ none → amount ≤ balances mosaicId) := by
  by_cases hrecipient : s.accounts recipient = none
  · exact iff_of_true (.inl (transfer_of_recipient_none hfind hrecipient)) fun h => absurd hrecipient h
  · by_cases hle : amount ≤ balances mosaicId
    · obtain ⟨s', _, hok, -⟩ := transfer_of_le hfind hheight hrecipient hle hlt
      exact iff_of_true (.inr ⟨s', hok⟩) fun _ => hle
    · obtain ⟨error, herror⟩ := transfer_of_lt hfind hheight hrecipient (Nat.lt_of_not_le hle)
      refine iff_of_false ?_ fun h => hle (h hrecipient)
      rw [herror]
      rintro (h | ⟨_, h⟩) <;> cases h

end

/-- With the balances that the transfer leaves, it is the levy alone that is to be covered. -/
lemma coversLevy_iff {levy : LevyEntryData Address} {balances' : AccountBalances}
    (hentry : s.levies (resolvers.mosaic notification.mosaicId) = some levy)
    (hrecipient : s.accounts notification.recipient ≠ none)
    (hfound : s.findAccountBalance notification.sender levy.mosaicId = some (balances levy.mosaicId))
    (hlevy : s.levyTransferValidator resolvers notification = .success)
    (hleft : balances' levy.mosaicId + (if levy.mosaicId = resolvers.mosaic notification.mosaicId ∧
      notification.recipient ≠ address then resolvers.amount notification.amount else 0) = balances levy.mosaicId) :
    CoversLevy resolvers s notification address balances ↔
      (s.accounts levy.recipient ≠ none → levy.levyAmount notification.amount ≤ balances' levy.mosaicId) := by
  rw [CoversLevy, hentry]
  simp only [Option.mem_some_iff, forall_eq', ne_eq, hrecipient, not_false_eq_true, true_imp_iff]
  refine imp_congr_right fun _ => ?_
  simp only [levyTransferValidator, hentry, hfound, Option.any_some, addAmount] at hlevy
  split_ifs at hlevy hleft <;> grind

theorem levy_payments_covered_iff (resolvers : Resolvers) (s : LevyState Address)
    (notification : BalanceTransferNotification Address) (hheight : s.height ≠ 0)
    (hbalances : ∀ address balances, s.findByKey notification.sender = some (address, balances) →
      ∀ m, balances m < 2 ^ 64)
    (hbalance : s.balanceTransferValidator resolvers notification = .success)
    (hlevy : s.levyTransferValidator resolvers notification = .success) :
    (s.observe resolvers notification = .error .recipientNotFound ∨ ∃ s', s.observe resolvers notification = .ok s') ↔
      ∃ address balances, s.findByKey notification.sender = some (address, balances) ∧
        CoversLevy resolvers s notification address balances := by
  cases hfind : s.findByKey notification.sender with
  | none => simp [observe, balanceTransferObserver, transfer, hfind, bind, Except.bind]
  | some found =>
    obtain ⟨address, balances⟩ := found
    have hfound : ∀ m, s.findAccountBalance notification.sender m = some (balances m) := by
      simp [findAccountBalance, hfind]
    have hle : resolvers.amount notification.amount ≤ balances (resolvers.mosaic notification.mosaicId) := by
      simpa [balanceTransferValidator, hfound] using hbalance
    have hlt := hbalances address balances hfind
    have hunique : (∃ address' balances', some (address, balances) = some (address', balances') ∧
        CoversLevy resolvers s notification address' balances') ↔
          CoversLevy resolvers s notification address balances := by
      simp
    rw [hunique, observe, balanceTransferObserver]
    by_cases hrecipient : s.accounts notification.recipient = none
    · rw [transfer_of_recipient_none hfind hrecipient]
      exact iff_of_true (.inl rfl) fun h => absurd hrecipient h
    · obtain ⟨s', balances', htransfer, hheight', hlevies, hfind', hnone, hm⟩ :=
        transfer_of_le hfind hheight hrecipient hle (hlt _)
      rw [htransfer]
      change s'.levyBalanceTransferObserver resolvers notification = _ ∨
        (∃ s'', s'.levyBalanceTransferObserver resolvers notification = _) ↔ _
      rw [levyBalanceTransferObserver, hlevies]
      cases hentry : s.levies (resolvers.mosaic notification.mosaicId) with
      | none => exact iff_of_true (.inr ⟨s', rfl⟩) fun _ levy hl => by rw [hentry] at hl; cases hl
      | some levy =>
        have hleft := hm levy.mosaicId
        have hsmall : balances' levy.mosaicId < 2 ^ 64 :=
          Nat.lt_of_le_of_lt (hleft ▸ Nat.le_add_right _ _) (hlt levy.mosaicId)
        rw [coversLevy_iff hentry hrecipient (hfound _) hlevy hleft, ne_eq, ← hnone levy.recipient]
        exact transfer_covered_iff hfind' (hheight' ▸ hheight) hsmall

/-- A transfer of the whole balance by an alias of the mosaic that the levy is taken in. -/
def aliasTransfer : LevyState Bool where
  publicKeyToAddress _ := true
  keyToAddress _ := some true
  accounts address := some fun _ => if address then 10 else 0
  levies _ := some ⟨7, false, fun _ => 5⟩
  isMosaicIdValid _ := true
  height := 1

theorem levy_payments_covered_self :
    aliasTransfer.observe ⟨fun _ => 7, id⟩ ⟨1, true, 99, 10⟩ = .error .recipientNotFound ∨
    ∃ s', aliasTransfer.observe ⟨fun _ => 7, id⟩ ⟨1, true, 99, 10⟩ = .ok s' :=
  (levy_payments_covered_iff ⟨fun _ => 7, id⟩ aliasTransfer ⟨1, true, 99, 10⟩ (by decide)
    (fun _ _ hfind _ => by cases hfind; simp) (by decide +kernel) (by decide +kernel)).mpr
    ⟨true, fun _ => 10, rfl, fun _ levy hlevy _ => by cases hlevy; simp⟩

theorem levy_by_alias_not_covered :
    aliasTransfer.balanceTransferValidator ⟨fun _ => 7, id⟩ ⟨1, false, 99, 10⟩ = .success ∧
    aliasTransfer.levyTransferValidator ⟨fun _ => 7, id⟩ ⟨1, false, 99, 10⟩ = .success ∧
    (aliasTransfer.observe ⟨fun _ => 7, id⟩ ⟨1, false, 99, 10⟩).map (fun _ => ()) =
      .error (.balances (.insufficientBalance 5 0 7)) := by
  decide +kernel

end LevyState

end XpxChain.Accounts
