import XpxChain.Accounts.Snapshots

/-! What the operations on balances do to the snapshots, and which snapshots the effective balance is read from. -/

namespace XpxChain.Accounts

open Library StepRecords Exceptions List

abbrev Increasing (snapshots : List BalanceSnapshot) : Prop :=
  StepRecords.Increasing BalanceSnapshot.balanceHeight snapshots

abbrev Relevant (snapshots : List BalanceSnapshot) (height : ℕ) (x : BalanceSnapshot) : Prop :=
  StepRecords.Relevant BalanceSnapshot.balanceHeight snapshots height x

abbrev Reads (snapshots : List BalanceSnapshot) (height amount : ℕ) : Prop :=
  StepRecords.Reads BalanceSnapshot.balanceHeight BalanceSnapshot.amount snapshots height amount

lemma effectiveHeight_eq (height importanceGrouping : ℕ) :
    effectiveHeight height importanceGrouping = height - importanceGrouping := by
  unfold effectiveHeight
  split_ifs with h
  · rfl
  · exact (Nat.sub_eq_zero_of_le (Nat.not_lt.mp h)).symm

lemma minSnapshot_spec {snapshots : List BalanceSnapshot} (hs : Increasing snapshots) (hne : snapshots ≠ [])
    (height importanceGrouping : ℕ) :
    ∃ r, minSnapshot snapshots height importanceGrouping = some r ∧ Relevant snapshots (height - importanceGrouping) r ∧
      ∀ y, Relevant snapshots (height - importanceGrouping) y → r.amount ≤ y.amount := by
  obtain ⟨first, rest, rfl⟩ := exists_cons_of_ne_nil hne
  simp only [minSnapshot, minElement, effectiveHeight_eq]
  clear hne
  induction rest using reverseRecOn with
  | nil =>
    refine ⟨first, rfl, ⟨mem_cons_self, ?_⟩, ?_⟩
    · intro y hy hlt
      exact absurd hlt (mem_singleton.mp hy ▸ lt_irrefl _)
    · rintro y ⟨hy, -⟩
      rw [mem_singleton.mp hy]
  | append_singleton rest x ih =>
    obtain ⟨r, hr, hrel, hmin⟩ := ih (hs.sublist ((sublist_append_left rest [x]).cons_cons first))
    rw [Option.some.injEq] at hr
    rw [foldl_append, hr, ← cons_append]
    have hx : x ∈ [x] := mem_singleton_self x
    by_cases hlow : x.balanceHeight ≤ height - importanceGrouping
    · refine ⟨x, by simp [hlow], ⟨mem_append_right _ hx, ?_⟩, ?_⟩
      · intro y hy hlt
        rcases mem_append.mp hy with hy | hy
        · exact absurd (hs.lt_of_append hy hx) hlt.not_gt
        · exact absurd hlt (mem_singleton.mp hy ▸ lt_irrefl _)
      · intro y hy
        rcases mem_append.mp hy.1 with hyl | hyx
        · exact absurd hy (not_relevant_append hs hyl hx hlow)
        · rw [mem_singleton.mp hyx]
    · have haf : ∀ y ∈ [x], height - importanceGrouping < y.balanceHeight := by
        intro y hy
        rw [mem_singleton.mp hy]
        exact Nat.not_le.mp hlow
      have hxr : Relevant ((first :: rest) ++ [x]) (height - importanceGrouping) x :=
        ⟨mem_append_right _ hx, fun y hy hlt => (Nat.not_le.mp hlow).trans hlt⟩
      have hc : ∀ y, Relevant ((first :: rest) ++ [x]) (height - importanceGrouping) y →
          y = x ∨ Relevant (first :: rest) (height - importanceGrouping) y := by
        intro y hy
        rcases mem_append.mp hy.1 with hyl | hyx
        · exact .inr ((relevant_append_left hyl haf).mp hy)
        · exact .inl (mem_singleton.mp hyx)
      by_cases hl : x.amount < r.amount
      · refine ⟨x, by simp [hl], hxr, ?_⟩
        intro y hy
        rcases hc y hy with rfl | hy
        · exact le_rfl
        · exact hl.le.trans (hmin y hy)
      · refine ⟨r, by simp [hlow, hl], (relevant_append_left hrel.1 haf).mpr hrel, ?_⟩
        intro y hy
        rcases hc y hy with rfl | hy
        · exact Nat.not_lt.mp hl
        · exact hmin y hy

lemma relevant_max_one {snapshots : List BalanceSnapshot} (hpos : ∀ y ∈ snapshots, 0 < y.balanceHeight) {e : ℕ}
    {x : BalanceSnapshot} :
    Relevant snapshots (max 1 e) x ↔ Relevant snapshots e x := by
  constructor
  · rintro ⟨hx, hl⟩
    exact ⟨hx, fun y hy hlt => (le_max_right 1 e).trans_lt (hl y hy hlt)⟩
  · rintro ⟨hx, hl⟩
    refine ⟨hx, fun y hy hlt => max_lt ?_ (hl y hy hlt)⟩
    have := hpos x hx
    omega

lemma rdropWhile_spec {snapshots : List BalanceSnapshot} (hs : Increasing snapshots) (height : ℕ) :
    ∃ popped, snapshots = (snapshots.rdropWhile fun x => decide (height ≤ x.balanceHeight)) ++ popped ∧
      (∀ y ∈ popped, height ≤ y.balanceHeight) ∧
      ∀ y ∈ snapshots.rdropWhile fun x => decide (height ≤ x.balanceHeight), y.balanceHeight < height := by
  induction snapshots using reverseRecOn with
  | nil => exact ⟨[], by simp⟩
  | append_singleton l x ih =>
    have hx : x ∈ [x] := mem_singleton_self x
    rw [rdropWhile_concat]
    by_cases h : height ≤ x.balanceHeight
    · obtain ⟨popped, hl, hpop, hk⟩ := ih (hs.sublist (sublist_append_left l [x]))
      rw [if_pos (by simpa using h)]
      refine ⟨popped ++ [x], by rw [← append_assoc, ← hl], ?_, hk⟩
      intro y hy
      rcases mem_append.mp hy with hy | hy
      · exact hpop y hy
      · rwa [mem_singleton.mp hy]
    · rw [if_neg (by simpa using h)]
      refine ⟨[], by simp, by simp, ?_⟩
      intro y hy
      rcases mem_append.mp hy with hy | hy
      · exact (hs.lt_of_append hy hx).trans (Nat.not_le.mp h)
      · rw [mem_singleton.mp hy]
        exact Nat.not_le.mp h

namespace TrackedBalances

variable {s s' : TrackedBalances} {mosaicId : MosaicId} {amount : ℕ} {height addressHeight : ℕ}

def snapshots (s : TrackedBalances) : List BalanceSnapshot := s.localSnapshots ++ s.remoteSnapshots

lemma exists_least (hs : Increasing s.snapshots) (hne : s.snapshots ≠ []) {importanceGrouping : ℕ}
    (hf : s.localSnapshots = [] ∨ ∀ x ∈ s.remoteSnapshots, height - importanceGrouping < x.balanceHeight) :
    ∃ r, Relevant s.snapshots (height - importanceGrouping) r ∧
      (∀ y, Relevant s.snapshots (height - importanceGrouping) y → r.amount ≤ y.amount) ∧
      s.getEffectiveBalance height importanceGrouping = r.amount := by
  by_cases hl : s.localSnapshots = []
  · rw [snapshots, hl, nil_append] at hs hne ⊢
    obtain ⟨r, hr, hrel, hmin⟩ := minSnapshot_spec hs hne height importanceGrouping
    exact ⟨r, hrel, hmin, by rw [getEffectiveBalance, hl, hr]; rfl⟩
  · obtain ⟨l, hm, hre, hll⟩ := minSnapshot_spec (pairwise_append.mp hs).1 hl height importanceGrouping
    by_cases hr : s.remoteSnapshots = []
    · rw [snapshots, hr, append_nil]
      exact ⟨l, hre, hll, by rw [getEffectiveBalance, hr, hm]; rfl⟩
    · obtain ⟨r, hmi, hrl, hlr⟩ := minSnapshot_spec (pairwise_append.mp hs).2.1 hr height importanceGrouping
      have haf := hf.resolve_left hl
      have heff : s.getEffectiveBalance height importanceGrouping = min l.amount r.amount := by
        simp [getEffectiveBalance, hm, hmi]
      have hb : ∀ y, Relevant s.snapshots (height - importanceGrouping) y → min l.amount r.amount ≤ y.amount := by
        intro y hy
        rcases mem_append.mp hy.1 with hyl | hyr
        · exact (min_le_left _ _).trans (hll y ((relevant_append_left hyl haf).mp hy))
        · exact (min_le_right _ _).trans (hlr y ((relevant_append_right hs hyr).mp hy))
      rcases le_total l.amount r.amount with h | h
      · rw [min_eq_left h] at heff hb
        exact ⟨l, (relevant_append_left hre.1 haf).mpr hre, hb, heff⟩
      · rw [min_eq_right h] at heff hb
        exact ⟨r, (relevant_append_right hs hrl.1).mpr hrl, hb, heff⟩

def pushed (snapshots : List BalanceSnapshot) (amount height : ℕ) : List BalanceSnapshot :=
  (snapshots.rdropWhile fun x => decide (height ≤ x.balanceHeight)) ++ [⟨amount, height⟩]

section

variable {front base : List BalanceSnapshot} {x : BalanceSnapshot} {g : ℕ}

lemma mem_pushed (hx : x ∈ pushed base amount height) : x ∈ base ∨ x = ⟨amount, height⟩ :=
  (mem_append.mp hx).imp (fun h => IsPrefix.mem h <| rdropWhile_prefix _ _) mem_singleton.mp

lemma pushed_le (hbase : Increasing base) (hx : x ∈ pushed base amount height) : x.balanceHeight ≤ height := by
  obtain ⟨popped, -, -, hkept⟩ := rdropWhile_spec hbase height
  rcases mem_append.mp hx with hx | hx
  · exact (hkept x hx).le
  · rw [mem_singleton.mp hx]

lemma increasing_pushed (hinc : Increasing (front ++ base)) (hfront : ∀ x ∈ front, x.balanceHeight < height) :
    Increasing (front ++ pushed base amount height) := by
  obtain ⟨popped, hbase, -, hkept⟩ := rdropWhile_spec (pairwise_append.mp hinc).2.1 height
  rw [pushed, ← append_assoc]
  have hkeep := IsPrefix.sublist <| rdropWhile_prefix (height ≤ ·.balanceHeight) base
  refine pairwise_append.mpr ⟨hinc.sublist (hkeep.append_left front), pairwise_singleton _ _, ?_⟩
  intro x hx y hy
  rw [mem_singleton.mp hy]
  exact (mem_append.mp hx).elim (hfront x) (hkept x)

lemma reads_pushed_last (hinc : Increasing (front ++ pushed base amount height)) :
    Reads (front ++ pushed base amount height) height amount := by
  rw [pushed, ← append_assoc] at hinc ⊢
  exact reads_last hinc rfl

/-- What is read before the height of the push stays, if an older snapshot stays or the new one is not above it. -/
lemma reads_pushed {v : ℕ} (hread : Reads (front ++ base) g v) (hbase : Increasing base) (hg : g < height)
    (hh : (∃ x ∈ front ++ base, x.balanceHeight < height) ∨ amount ≤ v) :
    Reads (front ++ pushed base amount height) g v := by
  obtain ⟨popped, hpopped, hlate, -⟩ := rdropWhile_spec hbase height
  rw [hpopped, ← append_assoc] at hread hh
  rw [pushed, ← append_assoc]
  refine hread.replace_last (fun y hy => hg.trans_le (hlate y hy)) (by simpa using hg) ?_
  rcases hh with ⟨x, hx, hlt⟩ | hle
  · refine .inl (ne_nil_of_mem ((mem_append.mp hx).resolve_right fun hx => ?_))
    exact absurd hlt (hlate x hx).not_gt
  · exact .inr (by simpa using hle)

end

lemma maybePushSnapshot_tracked (ha : s.addressHeight = some addressHeight) (hle : addressHeight ≤ height + 1)
    (h0 : height ≠ 0) (hlt : height < 2 ^ 64 - 1) : s.maybePushSnapshot s.trackedMosaicId amount height =
      .ok { s with remoteSnapshots := pushed s.remoteSnapshots amount height } := by
  have hadd : addAmount height 1 = height + 1 := addAmount_of_lt (by omega)
  rw [maybePushSnapshot, if_neg (by simpa using ⟨h0, hlt.ne⟩)]
  simp [pushSnapshot, ha, hadd, pushed, Nat.not_lt.mpr hle]

lemma maybePushSnapshot_other (h : mosaicId ≠ s.trackedMosaicId) : s.maybePushSnapshot mosaicId amount height = .ok s :=
  if_pos (.inl h)

def based (s : TrackedBalances) (height : ℕ) : List BalanceSnapshot :=
  if s.snapshots = [] ∧ 1 < height then [⟨s.balance, height - 1⟩] else s.remoteSnapshots

lemma snapshots_eq_nil : s.snapshots = [] ↔ s.remoteSnapshots = [] ∧ s.localSnapshots = [] := by
  rw [snapshots, append_eq_nil_iff, and_comm]

section

variable (ha : s.addressHeight = some addressHeight) (hle : addressHeight ≤ height) (h0 : height ≠ 0)
  (hlt : height < 2 ^ 64 - 1)
include ha hle h0 hlt

lemma pushBase_tracked : s.pushBase s.trackedMosaicId height = .ok { s with remoteSnapshots := s.based height } := by
  have hsub : sizeSub height 1 = height - 1 := sizeSub_of_le (Nat.one_le_iff_ne_zero.mpr h0)
  simp only [pushBase, based, snapshots_eq_nil, hsub]
  by_cases hemp : s.remoteSnapshots = [] ∧ s.localSnapshots = []
  · rw [if_pos hemp]
    by_cases h1 : 1 < height
    · rw [if_pos ⟨hemp, h1⟩]
      rw [maybePushSnapshot_tracked ha (by omega : addressHeight ≤ height - 1 + 1) (by omega) (by omega)]
      simp [pushed, hemp.1, balance]
    · rw [if_neg fun h => h1 h.2, maybePushSnapshot, if_pos (.inr (.inl (Nat.sub_eq_zero_of_le (Nat.not_lt.mp h1))))]
  · rw [if_neg hemp, if_neg fun h => hemp h.1]

lemma credit_tracked (hamt : amount ≠ 0) : s.credit s.trackedMosaicId amount height = .ok { s with
      balances := s.balances.internalCredit s.trackedMosaicId amount
      remoteSnapshots :=
        pushed (s.based height) (s.balances.internalCredit s.trackedMosaicId amount s.trackedMosaicId) height } := by
  rw [credit, if_neg h0, internalCredit, if_neg hamt, pushBase_tracked ha hle h0 hlt]
  exact maybePushSnapshot_tracked
    (s := { s with remoteSnapshots := s.based height, balances := s.balances.internalCredit s.trackedMosaicId amount })
    ha (by omega) h0 hlt

end

lemma credit_other (h0 : height ≠ 0) (h : mosaicId ≠ s.trackedMosaicId ∨ amount = 0) :
    s.credit mosaicId amount height = .ok { s with balances := s.balances.internalCredit mosaicId amount } := by
  rw [credit, if_neg h0, internalCredit]
  by_cases hamt : amount = 0
  · simp [hamt, AccountBalances.internalCredit]
  · have hm := h.resolve_right hamt
    rw [if_neg hamt, pushBase, maybePushSnapshot_other hm, ite_self]
    exact maybePushSnapshot_other hm

lemma debit_tracked (ha : s.addressHeight = some addressHeight) (hle : addressHeight ≤ height) (h0 : height ≠ 0)
    (hlt : height < 2 ^ 64 - 1) (hamt : amount ≠ 0) (hbal : amount ≤ s.balance) :
    s.debit s.trackedMosaicId amount height = .ok { s with
      balances := Function.update s.balances s.trackedMosaicId (s.balance - amount)
      remoteSnapshots := pushed s.remoteSnapshots (s.balance - amount) height } := by
  have hd : s.balances.internalDebit s.trackedMosaicId amount =
      .ok (Function.update s.balances s.trackedMosaicId (s.balance - amount)) := by
    rw [AccountBalances.internalDebit, if_neg hamt]
    exact if_neg (Nat.not_lt.mpr hbal)
  rw [debit, if_neg h0, internalDebit, if_neg hamt, hd]
  refine (maybePushSnapshot_tracked
    (s := { s with balances := Function.update s.balances s.trackedMosaicId (s.balance - amount) }) ha
      (by omega) h0 hlt).trans ?_
  simp

lemma debit_other (h0 : height ≠ 0) (h : mosaicId ≠ s.trackedMosaicId ∨ amount = 0)
    (hbal : amount ≤ s.balances mosaicId) :
    s.debit mosaicId amount height = .ok { s with
      balances :=
        if amount = 0 then s.balances else Function.update s.balances mosaicId (s.balances mosaicId - amount) } := by
  rw [debit, if_neg h0, internalDebit]
  by_cases hamt : amount = 0
  · simp [hamt]
  · have hm := h.resolve_right hamt
    rw [if_neg hamt, if_neg hamt, AccountBalances.internalDebit, if_neg hamt, if_neg (Nat.not_lt.mpr hbal)]
    exact maybePushSnapshot_other
      (s := { s with balances := Function.update s.balances mosaicId (s.balances mosaicId - amount) }) hm

def droppedSnapshots (s : TrackedBalances) (height : ℕ) (config : SnapshotConfiguration) : List BalanceSnapshot :=
  if height ≤ config.unstableHeight then []
  else s.localSnapshots.takeWhile fun snapshot => snapshot.balanceHeight ≤ height - config.unstableHeight

lemma droppedSnapshots_append (s : TrackedBalances) (height : ℕ) (config : SnapshotConfiguration) :
    s.droppedSnapshots height config ++ (s.maybeCleanUpSnapshots height config).snapshots = s.snapshots := by
  unfold droppedSnapshots maybeCleanUpSnapshots snapshots
  split_ifs
  · rfl
  · rw [← append_assoc, takeWhile_append_dropWhile]

lemma droppedSnapshots_le {config : SnapshotConfiguration} {x : BalanceSnapshot}
    (hsum : config.importanceGrouping + config.maxRollbackBlocks < 2 ^ 64) (hx : x ∈ s.droppedSnapshots height config) :
    x.balanceHeight ≤ height - config.importanceGrouping ∧ config.importanceGrouping < height := by
  have hu : config.unstableHeight = config.importanceGrouping + config.maxRollbackBlocks := addAmount_of_lt hsum
  unfold droppedSnapshots at hx
  split_ifs at hx with h
  · simp at hx
  · have hle : x.balanceHeight ≤ height - config.unstableHeight := by simpa using mem_takeWhile_imp hx
    omega

lemma maybeCleanUpSnapshots_same (s : TrackedBalances) (height : ℕ) (config : SnapshotConfiguration) :
    (s.maybeCleanUpSnapshots height config).addressHeight = s.addressHeight ∧
      (s.maybeCleanUpSnapshots height config).remoteSnapshots = s.remoteSnapshots ∧
      (s.maybeCleanUpSnapshots height config).balance = s.balance ∧
      (s.maybeCleanUpSnapshots height config).localSnapshots.Sublist s.localSnapshots := by
  unfold maybeCleanUpSnapshots
  split_ifs
  · exact ⟨rfl, rfl, rfl, List.Sublist.refl _⟩
  · exact ⟨rfl, rfl, rfl, dropWhile_sublist _⟩

@[simp] lemma commitSnapshots_balance : s.commitSnapshots.balance = s.balance := by
  unfold commitSnapshots
  split <;> rfl

@[simp] lemma commitSnapshots_addressHeight : s.commitSnapshots.addressHeight = s.addressHeight := by
  unfold commitSnapshots
  split <;> rfl

lemma commitSnapshots_snapshots (hs : Increasing s.snapshots) :
    s.commitSnapshots.remoteSnapshots = [] ∧ (s.commitSnapshots.localSnapshots = s.snapshots ∨ ∃ l back repeated kept,
      s.localSnapshots = l ++ [back] ∧ s.remoteSnapshots = repeated ++ kept ∧ (∀ x ∈ repeated, x.amount = back.amount) ∧
        s.commitSnapshots.localSnapshots = (l ++ [back]) ++ kept) := by
  cases hr : s.remoteSnapshots with
  | nil => simp [commitSnapshots, hr, snapshots]
  | cons front rest =>
    have hk : (s.localSnapshots.rdropWhile fun x => decide (front.balanceHeight ≤ x.balanceHeight)) =
        s.localSnapshots := by
      rcases eq_nil_or_concat s.localSnapshots with hnil | ⟨l, back, hl⟩
      · rw [hnil, rdropWhile_nil]
      · have hb : back.balanceHeight < front.balanceHeight := by
          refine hs.lt_of_append ?_ ?_
          · simp [hl]
          · simp [hr]
        rw [hl, concat_eq_append, rdropWhile_concat, if_neg (by simpa using hb)]
    refine ⟨by simp [commitSnapshots, hr], ?_⟩
    rcases eq_nil_or_concat s.localSnapshots with hnil | ⟨l, back, hl⟩
    · left
      simp only [commitSnapshots, hr, hk, snapshots]
      simp [hnil]
    · right
      rw [concat_eq_append] at hl
      refine ⟨l, back, (front :: rest).takeWhile fun x => decide (back.amount = x.amount),
        (front :: rest).dropWhile fun x => decide (back.amount = x.amount), hl, ?_, ?_, ?_⟩
      · rw [takeWhile_append_dropWhile]
      · intro x hx
        have heq : back.amount = x.amount := by simpa using mem_takeWhile_imp hx
        exact heq.symm
      · simp only [commitSnapshots, hr, hk]
        simp [hl]

end TrackedBalances

end XpxChain.Accounts

