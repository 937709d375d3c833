import XpxChain.Accounts.SnapshotOperations
import XpxChain.Library.SortedTables

/-! The end-of-block balances of the importance window, and the snapshots that describe them. -/

namespace XpxChain.Accounts

open Library StepRecords Exceptions List Function

namespace TrackedLedger

open TrackedBalances

variable (s : TrackedLedger) (config : SnapshotConfiguration)

/-- The amounts fit: a credit into 64 bits, a debit into the balance. -/
def Valid : Event → Prop
  | .credit mosaicId amount => s.account.balances mosaicId + amount < 2 ^ 64
  | .debit mosaicId amount => amount ≤ s.account.balances mosaicId
  | _ => True

/-- The snapshot is not after the height up to which a clean-up drops the committed ones. -/
def Stable (x : BalanceSnapshot) : Prop :=
  config.unstableHeight < s.height ∧ x.balanceHeight ≤ s.height - config.unstableHeight
deriving Decidable

/-- No step loses the snapshot that the window starts from. A credit of the tracked mosaic does not replace the only
snapshot; at a clean-up the first snapshot after the stable committed ones is not above the last of these, unless the
window starts after it; and the uncommitted snapshots are not older than the window, unless there are no others. -/
def KeepsBase : Event → Prop
  | .credit mosaicId amount =>
    mosaicId = s.account.trackedMosaicId → amount ≠ 0 →
      s.account.snapshots = [] ∨ s.height = 1 ∨ ∃ x ∈ s.account.snapshots, x.balanceHeight < s.height
  | .debit _ _ => True
  | .cleanUp =>
    ∀ kept ∈ (s.account.localSnapshots.filter (¬s.Stable config ·) ++ s.account.remoteSnapshots).head?,
      ∀ dropped ∈ (s.account.localSnapshots.filter (s.Stable config ·)).getLast?,
        kept.balanceHeight ≤ s.height - config.importanceGrouping ∨ kept.amount ≤ dropped.amount
  | .endBlock commit =>
    s.height + 1 < 2 ^ 64 - 1 ∧ (commit = false → s.account.localSnapshots = [] ∨
      ∀ x ∈ s.account.remoteSnapshots.head?, s.height + 1 - config.importanceGrouping < x.balanceHeight)

def KeepsBaseAlong : List Event → TrackedLedger → Prop
  | [], _ => True
  | e :: rest, s => s.Valid e ∧ s.KeepsBase config e ∧ ∀ s', s.next config e = .ok s' → KeepsBaseAlong rest s'

/-- The grouping is positive, and its sum with the rollback limit fits into 64 bits. -/
def Sane (config : SnapshotConfiguration) : Prop :=
  0 < config.importanceGrouping ∧ config.importanceGrouping + config.maxRollbackBlocks < 2 ^ 64

def windowStart : ℕ := max 1 (s.height - config.importanceGrouping)

structure Describes : Prop where
  height_ne : s.height ≠ 0
  increasing : Increasing s.account.snapshots
  positive : ∀ x ∈ s.account.snapshots, 0 < x.balanceHeight
  snapshot_le : ∀ x ∈ s.account.snapshots, x.balanceHeight ≤ s.height
  fresh : s.account.localSnapshots = [] ∨
    ∀ x ∈ s.account.remoteSnapshots, s.height - config.importanceGrouping < x.balanceHeight
  reads : ∀ h, s.windowStart config ≤ h → h ≤ s.height → Reads s.account.snapshots h (s.endOfBlockBalance h)
  unchanged : s.account.snapshots = [] → ∀ h, s.windowStart config ≤ h → h ≤ s.height →
    s.endOfBlockBalance h = s.account.balance

structure Tracks : Prop extends s.Describes config where
  account : ∃ a, s.account.addressHeight = some a ∧ a ≤ s.height
  height_lt : s.height < 2 ^ 64 - 1
  local_lt : ∀ x ∈ s.account.localSnapshots, x.balanceHeight < s.height

variable {s config} {s' : TrackedLedger} {e : Event}

lemma windowStart_le (config : SnapshotConfiguration) (h : s.height ≠ 0) : s.windowStart config ≤ s.height :=
  max_le (Nat.one_le_iff_ne_zero.mpr h) (Nat.sub_le _ _)

@[simp] lemma endOfBlockBalance_height : s.endOfBlockBalance s.height = s.account.balance := if_neg (lt_irrefl _)

theorem Describes.isLeast (h : s.Describes config) :
    IsLeast (s.endOfBlockBalance '' Set.Icc (s.windowStart config) s.height) (s.effectiveBalance config) := by
  have hwin := windowStart_le config h.height_ne
  by_cases hne : s.account.snapshots = []
  · obtain ⟨hr, hl⟩ := snapshots_eq_nil.mp hne
    have heff : s.effectiveBalance config = s.account.balance := by
      rw [effectiveBalance, getEffectiveBalance, hr, hl]
      rfl
    rw [heff]
    constructor
    · exact ⟨s.height, ⟨hwin, le_rfl⟩, endOfBlockBalance_height⟩
    · rintro _ ⟨g, ⟨hlo, hhi⟩, rfl⟩
      exact (h.unchanged hne g hlo hhi).ge
  · obtain ⟨r, hrel, hmin, heff⟩ := exists_least h.increasing hne h.fresh
    rw [effectiveBalance, heff]
    exact isLeast_of_reads h.increasing h.reads hwin h.snapshot_le ((relevant_max_one h.positive).mpr hrel)
      fun y hy => hmin y ((relevant_max_one h.positive).mp hy)

variable {account : TrackedBalances} {g amount : ℕ} {mosaicId : MosaicId}

lemma endOfBlockBalance_withAccount (hg : g < s.height) :
    (s.withAccount account).endOfBlockBalance g = s.endOfBlockBalance g :=
  (if_pos hg).trans (if_pos hg).symm

lemma endOfBlockBalance_eq (hbal : account.balance = s.account.balance) :
    (s.withAccount account).endOfBlockBalance = s.endOfBlockBalance := by
  funext g
  exact congrArg (fun b => if g < s.height then s.past g else b) hbal

lemma Tracks.withAccount_of_eq (h : s.Tracks config)
    (ha : account.addressHeight = s.account.addressHeight) (hl : account.localSnapshots = s.account.localSnapshots)
    (hr : account.remoteSnapshots = s.account.remoteSnapshots) (hbal : account.balance = s.account.balance) :
    (s.withAccount account).Tracks config := by
  have hs : account.snapshots = s.account.snapshots := by rw [snapshots, snapshots, hl, hr]
  have hend := endOfBlockBalance_eq hbal
  exact {
    account := ha ▸ h.account
    height_ne := h.height_ne
    height_lt := h.height_lt
    increasing := hs ▸ h.increasing
    positive := hs ▸ h.positive
    local_lt := hl ▸ h.local_lt
    snapshot_le := hs ▸ h.snapshot_le
    fresh := hl ▸ hr ▸ h.fresh
    reads := by
      rw [hend]
      exact hs ▸ h.reads
    unchanged := by
      intro hnil g hlo hhi
      rw [hend]
      exact (h.unchanged (hs ▸ hnil) g hlo hhi).trans hbal.symm }

lemma Tracks.push (h : s.Tracks config) (hc : Sane config) (base : List BalanceSnapshot)
    (ha : account.addressHeight = s.account.addressHeight) (hl : account.localSnapshots = s.account.localSnapshots)
    (hr : account.remoteSnapshots = pushed base amount s.height) (hbal : account.balance = amount)
    (hinc : Increasing (s.account.localSnapshots ++ base)) (hpos : ∀ x ∈ base, 0 < x.balanceHeight)
    (hfr : s.account.localSnapshots = [] ∨ ∀ x ∈ base, s.height - config.importanceGrouping < x.balanceHeight)
    (hre : ∀ g, s.windowStart config ≤ g → g < s.height →
      Reads (s.account.localSnapshots ++ base) g (s.endOfBlockBalance g))
    (hh : (∃ x ∈ s.account.localSnapshots ++ base, x.balanceHeight < s.height) ∨ ∀ g, s.windowStart config ≤ g →
      g < s.height → amount ≤ s.endOfBlockBalance g) : (s.withAccount account).Tracks config := by
  have hs : account.snapshots = s.account.localSnapshots ++ pushed base amount s.height := by rw [snapshots, hl, hr]
  have hi : Increasing (s.account.localSnapshots ++ pushed base amount s.height) := increasing_pushed hinc h.local_lt
  have hend : (s.withAccount account).endOfBlockBalance s.height = amount := endOfBlockBalance_height.trans hbal
  refine {
    account := ha ▸ h.account
    height_ne := h.height_ne
    height_lt := h.height_lt
    increasing := hs ▸ hi
    positive := ?_
    local_lt := hl ▸ h.local_lt
    snapshot_le := ?_
    fresh := ?_
    reads := ?_
    unchanged := fun hnil => absurd (hs.symm.trans hnil) (by simp [pushed]) }
  · intro x hx
    rcases mem_append.mp (hs ▸ hx) with hx | hx
    · exact h.positive x (mem_append_left _ hx)
    · rcases mem_pushed hx with hx | rfl
      · exact hpos x hx
      · exact Nat.pos_of_ne_zero h.height_ne
  · intro x hx
    rcases mem_append.mp (hs ▸ hx) with hx | hx
    · exact (h.local_lt x hx).le
    · exact pushed_le (pairwise_append.mp hinc).2.1 hx
  · change account.localSnapshots = [] ∨
      ∀ x ∈ account.remoteSnapshots, s.height - config.importanceGrouping < x.balanceHeight
    rw [hl, hr]
    refine hfr.imp_right fun hf x hx => ?_
    rcases mem_pushed hx with hx | rfl
    · exact hf x hx
    · exact Nat.sub_lt (Nat.pos_of_ne_zero h.height_ne) hc.1
  · intro g hlo hhi
    change Reads account.snapshots g _
    rw [hs]
    rcases Nat.lt_or_ge g s.height with hg | hg
    · rw [endOfBlockBalance_withAccount hg]
      exact reads_pushed (hre g hlo hg) (pairwise_append.mp hinc).2.1 hg (hh.imp_right fun hamt => hamt g hlo hg)
    · obtain rfl : g = s.height := le_antisymm hhi hg
      rw [hend]
      exact reads_pushed_last hi

lemma next_credit (h : s.account.credit mosaicId amount s.height = .ok account) :
    s.next config (.credit mosaicId amount) = .ok (s.withAccount account) :=
  bind_eq_ok.mpr ⟨account, h, rfl⟩

lemma next_debit (h : s.account.debit mosaicId amount s.height = .ok account) :
    s.next config (.debit mosaicId amount) = .ok (s.withAccount account) :=
  bind_eq_ok.mpr ⟨account, h, rfl⟩

lemma Tracks.credit (h : s.Tracks config) (hc : Sane config) (hba : s.KeepsBase config (.credit mosaicId amount)) :
    ∃ s', s.next config (.credit mosaicId amount) = .ok s' ∧ s'.Tracks config ∧ s'.height = s.height := by
  obtain ⟨a, ha, hle⟩ := h.account
  by_cases hoth : mosaicId ≠ s.account.trackedMosaicId ∨ amount = 0
  · refine ⟨_, next_credit (credit_other h.height_ne hoth), h.withAccount_of_eq rfl rfl rfl ?_, rfl⟩
    rcases hoth with hm | rfl
    · exact AccountBalances.internalCredit_of_ne hm.symm
    · rfl
  · obtain ⟨hm, hamt⟩ : mosaicId = s.account.trackedMosaicId ∧ amount ≠ 0 := by simpa [not_or] using hoth
    subst hm
    refine ⟨_, next_credit (credit_tracked ha hle h.height_ne h.height_lt hamt), ?_, rfl⟩
    by_cases hnew : s.account.snapshots = [] ∧ 1 < s.height
    · obtain ⟨hnil, h1⟩ := hnew
      have hl := (snapshots_eq_nil.mp hnil).2
      have hb : s.account.based s.height = [⟨s.account.balance, s.height - 1⟩] := if_pos ⟨hnil, h1⟩
      refine h.push hc (s.account.based s.height) rfl rfl rfl rfl ?_ ?_ (.inl hl) ?_ (.inl ?_) <;> rw [hb]
      · rw [hl]
        exact pairwise_singleton _ _
      · intro x hx
        rw [mem_singleton.mp hx]
        exact Nat.sub_pos_of_lt h1
      · intro g hlo hg
        rw [h.unchanged hnil g hlo hg.le, hl]
        exact reads_of_forall_eq fun y hy => by rw [mem_singleton.mp hy]
      · exact ⟨_, mem_append_right _ (mem_singleton_self _), Nat.sub_lt (Nat.pos_of_ne_zero h.height_ne) one_pos⟩
    · have hb : s.account.based s.height = s.account.remoteSnapshots := if_neg hnew
      have hh : (∃ x ∈ s.account.snapshots, x.balanceHeight < s.height) ∨ ∀ g, s.windowStart config ≤ g →
          ¬g < s.height := by
        rcases Nat.lt_or_ge 1 s.height with h1 | h1
        · exact .inl (((hba rfl hamt).resolve_left fun hnil => hnew ⟨hnil, h1⟩).resolve_left h1.ne')
        · exact .inr fun g hlo hg => h1.not_gt (((le_max_left 1 _).trans hlo).trans_lt hg)
      refine h.push hc (s.account.based s.height) rfl rfl rfl rfl ?_ ?_ ?_ ?_ ?_
      · exact hb ▸ h.increasing
      · exact hb ▸ fun x hx => h.positive x (mem_append_right _ hx)
      · exact hb ▸ h.fresh
      · exact hb ▸ fun g hlo hg => h.reads g hlo hg.le
      · rw [hb]
        exact hh.imp_right fun hn g hlo hg => absurd hg (hn g hlo)

lemma Tracks.balance_le (h : s.Tracks config) (hn : ¬∃ x ∈ s.account.snapshots, x.balanceHeight < s.height)
    (hlo : s.windowStart config ≤ g) (hg : g < s.height) : s.account.balance ≤ s.endOfBlockBalance g := by
  cases hs : s.account.snapshots with
  | nil => exact (h.unchanged hs g hlo hg.le).ge
  | cons x rest =>
    have hmem : x ∈ s.account.snapshots := by simp [hs]
    have hh : x ∈ s.account.snapshots.head? := by simp [hs]
    have hx : s.height ≤ x.balanceHeight := Nat.not_lt.mp fun hlt => hn ⟨x, hmem, hlt⟩
    have hrel : Relevant s.account.snapshots s.height x := ⟨hmem, fun y _ hlt => hx.trans_lt hlt⟩
    have hr := (h.reads s.height (hlo.trans hg.le) le_rfl).1 x hrel (h.snapshot_le x hmem)
    rw [endOfBlockBalance_height] at hr
    rw [hr]
    exact (h.reads g hlo hg.le).2 x hh (hg.trans_le hx)

lemma Tracks.debit (h : s.Tracks config) (hc : Sane config) (hval : s.Valid (.debit mosaicId amount)) :
    ∃ s', s.next config (.debit mosaicId amount) = .ok s' ∧ s'.Tracks config ∧ s'.height = s.height := by
  obtain ⟨a, ha, hle⟩ := h.account
  by_cases hoth : mosaicId ≠ s.account.trackedMosaicId ∨ amount = 0
  · refine ⟨_, next_debit (debit_other h.height_ne hoth hval), h.withAccount_of_eq rfl rfl rfl ?_, rfl⟩
    split_ifs with h0
    · rfl
    · exact update_of_ne (hoth.resolve_right h0).symm _ _
  · obtain ⟨hm, hamt⟩ : mosaicId = s.account.trackedMosaicId ∧ amount ≠ 0 := by simpa [not_or] using hoth
    subst hm
    refine ⟨_, next_debit (debit_tracked ha hle h.height_ne h.height_lt hamt hval), ?_, rfl⟩
    refine h.push hc s.account.remoteSnapshots rfl rfl rfl (update_self _ _ _) h.increasing
      (fun x hx => h.positive x (mem_append_right _ hx)) h.fresh (fun g hlo hg => h.reads g hlo hg.le) ?_
    by_cases hx : ∃ x ∈ s.account.snapshots, x.balanceHeight < s.height
    · exact .inl hx
    · exact .inr fun g hlo hg => (Nat.sub_le _ _).trans (h.balance_le hx hlo hg)

end TrackedLedger

end XpxChain.Accounts
