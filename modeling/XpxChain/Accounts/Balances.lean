import XpxChain.Library.Exceptions
import XpxChain.Library.OrderedContainers
import XpxChain.Types

/-! The mosaic balances of accounts. -/

namespace XpxChain.Accounts

open Std

abbrev MosaicId := Fin (2 ^ 64)
abbrev UnresolvedMosaicId := Fin (2 ^ 64)

def addAmount (a b : ℕ) : ℕ := (a + b) % 2 ^ 64

lemma addAmount_of_lt {a b : ℕ} (h : a + b < 2 ^ 64) : addAmount a b = a + b := Nat.mod_eq_of_lt h

inductive AccountError
  | zeroHeight
  | insufficientBalance (amount currentBalance : ℕ) (mosaicId : MosaicId)
  | accountNotFound (key : Key)
deriving DecidableEq, Repr

/-- A mosaic that is not in the account has the balance zero. -/
abbrev AccountBalances := MosaicId → ℕ

namespace AccountBalances

variable (balances : AccountBalances) (mosaicId : MosaicId) (amount : ℕ) (height : Height)

def internalCredit : AccountBalances :=
  if amount = 0 then balances else Function.update balances mosaicId (addAmount (balances mosaicId) amount)

def internalDebit : Except AccountError AccountBalances :=
  if amount = 0 then .ok balances
  else if balances mosaicId < amount then .error (.insufficientBalance amount (balances mosaicId) mosaicId)
  else .ok (Function.update balances mosaicId (balances mosaicId - amount))

def credit : Except AccountError AccountBalances :=
  if height = 0 then .error .zeroHeight else .ok (balances.internalCredit mosaicId amount)

def debit : Except AccountError AccountBalances :=
  if height = 0 then .error .zeroHeight else balances.internalDebit mosaicId amount

variable {balances mosaicId amount height} {balances' : AccountBalances} {m : MosaicId}

lemma internalCredit_of_ne (hm : m ≠ mosaicId) : balances.internalCredit mosaicId amount m = balances m := by
  unfold internalCredit
  split_ifs with h
  · rfl
  · exact Function.update_of_ne hm _ _

lemma internalCredit_of_lt (hlt : balances mosaicId + amount < 2 ^ 64) (m : MosaicId) :
    balances.internalCredit mosaicId amount m = balances m + if m = mosaicId then amount else 0 := by
  by_cases hm : m = mosaicId
  · subst hm
    rw [if_pos rfl, internalCredit]
    split_ifs with h
    · rw [h, add_zero]
    · rw [Function.update_self, addAmount_of_lt hlt]
  · rw [internalCredit_of_ne hm, if_neg hm, add_zero]

lemma internalDebit_add (h : balances.internalDebit mosaicId amount = .ok balances') (m : MosaicId) :
    balances' m + (if m = mosaicId then amount else 0) = balances m := by
  unfold internalDebit at h
  split_ifs at h with h0 hlt
  · cases h
    simp [h0]
  · cases h
    by_cases hm : m = mosaicId
    · subst hm
      rw [Function.update_self, if_pos rfl, Nat.sub_add_cancel (Nat.not_lt.mp hlt)]
    · rw [Function.update_of_ne hm, if_neg hm, add_zero]

end AccountBalances

abbrev AccountStateCache := ExtTreeMap Key AccountBalances

namespace AccountStateCache

variable (accounts : AccountStateCache) (key : Key) (mosaicId : MosaicId) (amount : ℕ) (height : Height)

def balance : ℕ := accounts[key]?.elim 0 (· mosaicId)

def modify (change : AccountBalances → Except AccountError AccountBalances) : Except AccountError AccountStateCache :=
  match accounts[key]? with
  | none => .error (.accountNotFound key)
  | some balances => do
    let balances ← change balances
    return accounts.insert key balances

def credit : Except AccountError AccountStateCache :=
  modify accounts key fun balances => balances.credit mosaicId amount height

def debit : Except AccountError AccountStateCache :=
  modify accounts key fun balances => balances.debit mosaicId amount height

def internalCredit : Except AccountError AccountStateCache :=
  modify accounts key fun balances => .ok (balances.internalCredit mosaicId amount)

def internalDebit : Except AccountError AccountStateCache :=
  modify accounts key fun balances => balances.internalDebit mosaicId amount

variable {accounts key mosaicId amount height} {accounts' : AccountStateCache}

lemma modify_eq_ok {change : AccountBalances → Except AccountError AccountBalances} :
    modify accounts key change = .ok accounts' ↔
      ∃ balances balances', accounts[key]? = some balances ∧ change balances = .ok balances' ∧
        accounts' = accounts.insert key balances' := by
  unfold modify
  cases accounts[key]? with
  | none => simp
  | some balances =>
    cases hc : change balances with
    | error e => simp [hc]
    | ok balances' => simp [hc, eq_comm]

lemma balance_insert {balances : AccountBalances} (k : Key) (m : MosaicId) :
    balance (accounts.insert key balances) k m = if k = key then balances m else accounts.balance k m := by
  by_cases hk : k = key
  · simp [balance, hk]
  · simp [balance, ExtTreeMap.getElem?_insert, hk, Ne.symm hk]

lemma balance_of_getElem? {balances : AccountBalances} (h : accounts[key]? = some balances) (m : MosaicId) :
    accounts.balance key m = balances m := by
  rw [balance, h, Option.elim_some]

lemma credit_eq_ok : accounts.credit key mosaicId amount height = .ok accounts' ↔
    height ≠ 0 ∧ accounts.internalCredit key mosaicId amount = .ok accounts' := by
  by_cases h : height = 0 <;> simp [credit, internalCredit, modify_eq_ok, AccountBalances.credit, h]

lemma debit_eq_ok : accounts.debit key mosaicId amount height = .ok accounts' ↔
    height ≠ 0 ∧ accounts.internalDebit key mosaicId amount = .ok accounts' := by
  by_cases h : height = 0 <;> simp [debit, internalDebit, modify_eq_ok, AccountBalances.debit, h]

open AccountBalances

lemma balance_internalCredit_of_ne (h : accounts.internalCredit key mosaicId amount = .ok accounts') {k : Key}
    {m : MosaicId} (hne : k ≠ key ∨ m ≠ mosaicId) : accounts'.balance k m = accounts.balance k m := by
  obtain ⟨balances, _, hb, hc, rfl⟩ := modify_eq_ok.mp h
  cases hc
  rw [balance_insert]
  by_cases hk : k = key
  · subst hk
    rw [if_pos rfl, internalCredit_of_ne (hne.resolve_left (not_not_intro rfl)), balance_of_getElem? hb]
  · rw [if_neg hk]

lemma balance_internalCredit (h : accounts.internalCredit key mosaicId amount = .ok accounts')
    (hlt : accounts.balance key mosaicId + amount < 2 ^ 64) (k : Key) (m : MosaicId) :
    accounts'.balance k m = accounts.balance k m + if k = key ∧ m = mosaicId then amount else 0 := by
  obtain ⟨balances, _, hb, hc, rfl⟩ := modify_eq_ok.mp h
  cases hc
  rw [balance_of_getElem? hb] at hlt
  rw [balance_insert]
  by_cases hk : k = key
  · subst hk
    rw [internalCredit_of_lt hlt, balance_of_getElem? hb]
    simp
  · simp [hk]

lemma balance_internalDebit (h : accounts.internalDebit key mosaicId amount = .ok accounts') (k : Key) (m : MosaicId) :
    accounts'.balance k m + (if k = key ∧ m = mosaicId then amount else 0) = accounts.balance k m := by
  obtain ⟨balances, balances', hb, hc, rfl⟩ := modify_eq_ok.mp h
  rw [balance_insert]
  by_cases hk : k = key
  · subst hk
    rw [balance_of_getElem? hb, ← internalDebit_add hc]
    simp
  · simp [hk]

end AccountStateCache

end XpxChain.Accounts
