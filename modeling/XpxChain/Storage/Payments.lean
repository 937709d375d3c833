import XpxChain.Storage.DownloadPayments

/-! The payments of a download channel match the amounts that it records. -/

namespace XpxChain.Storage

open Std Library OrderedContainers Runs List

variable {channel : DownloadChannelEntry} {notification : DownloadApprovalPayment} {payments : List (Key × ℕ)}

/-- The units that were paid, and the bytes of each payment beyond its whole units. -/
structure PaymentLedger where
  channel : DownloadChannelEntry
  units : Key → ℕ
  fractions : Key → ℕ

namespace PaymentLedger

def pay (s : PaymentLedger) (p : Key × ℕ) : PaymentLedger where
  channel := s.channel.record p
  units := Function.update s.units p.1 (s.units p.1 + p.2 / 2 ^ 20)
  fractions := Function.update s.fractions p.1 (s.fractions p.1 + p.2 % 2 ^ 20)

def next (s : PaymentLedger) (notification : DownloadApprovalPayment) : PaymentLedger :=
  ((s.channel.payments notification).getD []).foldl pay s

structure Balanced (s : PaymentLedger) (k : Key) (c : ℕ) : Prop where
  bytes : c = s.units k * 2 ^ 20 + s.fractions k
  lt : c < 2 ^ 64

def Recorded (s : PaymentLedger) : Prop := ∀ k c, s.channel.cumulativePayments[k]? = some c → s.Balanced k c

variable {s : PaymentLedger} {p : Key × ℕ}

lemma getElem?_pay (k : Key) : (s.pay p).channel.cumulativePayments[k]? = if k = p.1 then
    s.channel.cumulativePayments[k]?.map fun c => (c + p.2) % 2 ^ 64 else s.channel.cumulativePayments[k]? := by
  change (s.channel.cumulativePayments.modify p.1 _)[k]? = _
  rw [ExtTreeMap.getElem?_modify]
  by_cases hk : k = p.1
  · simp [hk]
  · rw [if_neg hk, if_neg (by simpa using Ne.symm hk)]

lemma Recorded.pay (h : s.Recorded) (hfits : ∀ c ∈ s.channel.cumulativePayments[p.1]?, c + p.2 < 2 ^ 64) :
    (s.pay p).Recorded := by
  intro k c hc
  rw [getElem?_pay] at hc
  split_ifs at hc with hk
  · subst hk
    obtain ⟨old, hold, rfl⟩ := Option.map_eq_some_iff.mp hc
    have hb := (h _ _ hold).bytes
    have hlt := hfits old hold
    refine ⟨?_, Nat.mod_lt _ (by decide)⟩
    rw [Nat.mod_eq_of_lt hlt]
    simp only [PaymentLedger.pay, Function.update_self]
    omega
  · obtain ⟨hb, hlt⟩ := h k c hc
    exact ⟨by simpa only [PaymentLedger.pay, Function.update_of_ne hk] using hb, hlt⟩

lemma recorded_foldl (hnd : (payments.map (·.1)).Nodup)
    (hf : ∀ p ∈ payments, ∀ c ∈ s.channel.cumulativePayments[p.1]?, c + p.2 < 2 ^ 64) (h : s.Recorded) :
    (payments.foldl PaymentLedger.pay s).Recorded := by
  induction payments generalizing s with
  | nil => exact h
  | cons p payments ih =>
    rw [map_cons, nodup_cons] at hnd
    refine ih hnd.2 (fun q hq c hc => ?_) (h.pay (hf p mem_cons_self))
    have hne : q.1 ≠ p.1 := fun heq => hnd.1 (heq ▸ mem_map_of_mem hq)
    rw [getElem?_pay, if_neg hne] at hc
    exact hf q (mem_cons_of_mem _ hq) c hc

lemma nodup_payments (h : channel.payments notification = some payments) : (payments.map (·.1)).Nodup := by
  obtain ⟨full, hfull, -⟩ := Option.bind_eq_some_iff.mp h
  rw [DownloadChannelEntry.payments_eq_map hfull h, map_map]
  refine ((DownloadChannelEntry.perm_fullPayments hfull).map _).nodup_iff.mpr ?_
  rw [map_map]
  exact (map_id _).symm ▸ Finset.nodup_toList _

lemma median_lt {opinions : List ℕ} (h : ∀ n ∈ opinions, n < 2 ^ 64) : median opinions < 2 ^ 64 := by
  have hget : ∀ i, (opinions.insertionSort (· ≤ ·)).getD i 0 < 2 ^ 64 := by
    intro i
    rw [getD_eq_getElem?_getD]
    cases hi : (opinions.insertionSort (· ≤ ·))[i]? with
    | none => decide
    | some n => exact h n ((perm_insertionSort _ _).mem_iff.mp (mem_of_getElem? hi))
  unfold median
  simp only
  split_ifs
  · exact hget _
  · exact (Nat.div_le_self _ _).trans_lt (Nat.mod_lt _ (by decide))

lemma Recorded.payment_fits (h : s.Recorded) (hp : s.channel.payments notification = some payments) :
    ∀ p ∈ payments, ∀ c ∈ s.channel.cumulativePayments[p.1]?, c + p.2 < 2 ^ 64 := by
  intro p hmem c hc
  have hle := DownloadChannelEntry.payment_le hp p hmem
  have hc' : s.channel.cumulativePayments.getD p.1 0 = c := by
    rw [ExtTreeMap.getD_eq_getD_getElem?, hc]
    rfl
  have hopinions : ∀ n ∈ s.channel.opinionsOn notification notification.opinionsCount p.1, n < 2 ^ 64 := by
    intro n hn
    obtain ⟨index, -, rfl⟩ := mem_map.mp hn
    unfold DownloadChannelEntry.opinionAt
    split_ifs
    · exact Fin.isLt _
    · rw [ExtTreeMap.getD_eq_getD_getElem?]
      cases hi : s.channel.cumulativePayments[notification.judgedKey index]? with
      | none => decide
      | some n => exact (h _ _ hi).lt
  have hmedian := median_lt hopinions
  have hlt := (h _ _ hc).lt
  rw [DownloadChannelEntry.medianPayment, hc'] at hle
  omega

lemma Recorded.next (h : s.Recorded) : (s.next notification).Recorded := by
  unfold PaymentLedger.next
  cases hp : s.channel.payments notification with
  | none => exact h
  | some payments => exact recorded_foldl (nodup_payments hp) (h.payment_fits hp) h

/-- Each payment is rounded down to megabytes by itself, but recorded in bytes. -/
theorem payments_match_records_iff (hfresh : ∀ p ∈ channel.cumulativePayments.toList, p.2 = 0)
    (inputs : List DownloadApprovalPayment) :
    let s := run next ⟨channel, 0, 0⟩ inputs
    (∀ k c, s.channel.cumulativePayments[k]? = some c → c < s.units k * 2 ^ 20 + 2 ^ 20 ∧
      s.units k * 2 ^ 20 < c + 2 ^ 20) ↔ ∀ p ∈ s.channel.cumulativePayments.toList, s.fractions p.1 < 2 ^ 20 := by
  intro s
  have hstart : Recorded ⟨channel, 0, 0⟩ := by
    intro k c hc
    obtain rfl : c = 0 := hfresh (k, c) (ExtTreeMap.mem_toList_iff_getElem?_eq_some.mpr hc)
    exact ⟨by simp, by decide⟩
  have hrecorded : s.Recorded :=
    invariant_run (fun _ => Recorded) hstart (C := fun _ _ _ => True) (fun _ t i ht _ => ht.next) fun _ _ _ _ => trivial
  constructor
  · intro h p hp
    have hc := ExtTreeMap.mem_toList_iff_getElem?_eq_some.mp hp
    have hb := (hrecorded _ _ hc).bytes
    have hlt := (h _ _ hc).1
    omega
  · intro h k c hc
    have hb := (hrecorded _ _ hc).bytes
    have hlt : s.fractions k < 2 ^ 20 := h (k, c) (ExtTreeMap.mem_toList_iff_getElem?_eq_some.mpr hc)
    omega

theorem payments_match_records_twice :
    let s := run next ⟨pairChannel, 0, 0⟩ [onePerKey (2 ^ 20 + 5), onePerKey (2 ^ 20 + 9)]
    2 ^ 20 + 9 < s.units 10 * 2 ^ 20 + 2 ^ 20 ∧ s.units 10 * 2 ^ 20 < 2 ^ 20 + 9 + 2 ^ 20 :=
  (payments_match_records_iff (by decide +kernel) _).mpr (by decide +kernel) 10 _ (by decide +kernel)

theorem payments_leak :
    let s := run next ⟨pairChannel, 0, 0⟩ [onePerKey (2 ^ 20 - 1), onePerKey (2 ^ 21 - 2)]
    s.channel.cumulativePayments[(10 : Key)]? = some (2 ^ 21 - 2) ∧ s.units 10 = 0 := by
  decide +kernel

end PaymentLedger

end XpxChain.Storage
