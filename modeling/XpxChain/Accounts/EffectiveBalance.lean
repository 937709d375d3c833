import XpxChain.Accounts.BalanceWindow

/-! The effective balance is the least end-of-block balance of the importance window, as long as no snapshot that the
window starts from is lost. -/

namespace XpxChain.Accounts

open Library StepRecords Exceptions List Function

namespace TrackedLedger

open TrackedBalances

variable (s : TrackedLedger) (config : SnapshotConfiguration)

variable {s config} {s' : TrackedLedger} {e : Event}

variable {account : TrackedBalances} {g amount : ℕ} {mosaicId : MosaicId}

lemma cleanUp_snapshots (config : SnapshotConfiguration) (h : Increasing s.account.snapshots) :
    s.account.droppedSnapshots s.height config = s.account.localSnapshots.filter (s.Stable config ·) ∧
      (s.account.maybeCleanUpSnapshots s.height config).snapshots =
        s.account.localSnapshots.filter (¬s.Stable config ·) ++ s.account.remoteSnapshots := by
  unfold droppedSnapshots maybeCleanUpSnapshots
  split_ifs with hlow
  · have hnot : ∀ x, ¬s.Stable config x := fun x hx => hlow.not_gt hx.1
    simp [hnot, snapshots]
  · have hst : ∀ x, s.Stable config x ↔ x.balanceHeight ≤ s.height - config.unstableHeight :=
      fun x => and_iff_right (Nat.lt_of_not_le hlow)
    have hl := (pairwise_append.mp h).1.imp
      (S := fun a b => decide (b.balanceHeight ≤ s.height - config.unstableHeight) →
        decide (a.balanceHeight ≤ s.height - config.unstableHeight))
      fun hab hb => decide_eq_true (hab.le.trans (of_decide_eq_true hb))
    simp only [hst, snapshots, SortedTables.takeWhile_eq_filter_of_pairwise hl,
      SortedTables.dropWhile_eq_filter_of_pairwise hl, decide_not, true_and]

/-- A dropped snapshot lies before the window, so the last one is what is read before the snapshots that stay. -/
lemma Tracks.endOfBlockBalance_eq_dropped (h : s.Tracks config) (hc : Sane config) {dropped : BalanceSnapshot}
    (hd : dropped ∈ (s.account.droppedSnapshots s.height config).getLast?) (hlo : s.windowStart config ≤ g)
    (hhi : g ≤ s.height)
    (haf : ∀ x ∈ (s.account.maybeCleanUpSnapshots s.height config).snapshots, g < x.balanceHeight) :
    s.endOfBlockBalance g = dropped.amount := by
  have ha := droppedSnapshots_append s.account s.height config
  have hinc := ha ▸ h.increasing
  obtain ⟨older, ho⟩ := getLast?_eq_some_iff.mp hd
  have hmem : dropped ∈ s.account.droppedSnapshots s.height config := by simp [ho]
  obtain ⟨hle, hlt⟩ := droppedSnapshots_le hc.2 hmem
  have hg : dropped.balanceHeight ≤ g := hle.trans ((le_max_right 1 _).trans hlo)
  refine (h.reads g hlo hhi).1 dropped ?_ hg
  rw [← ha]
  refine (relevant_append_left hmem haf).mpr ⟨hmem, fun y hy hlty => ?_⟩
  rw [ho] at hy hinc
  rcases mem_append.mp hy with hy | hy
  · exact absurd ((pairwise_append.mp (pairwise_append.mp hinc).1).2.2 y hy dropped (mem_singleton_self _)) hlty.not_gt
  · exact absurd hlty (mem_singleton.mp hy ▸ lt_irrefl _)

lemma Tracks.cleanUp (h : s.Tracks config) (hc : Sane config) (hb : s.KeepsBase config .cleanUp) :
    (s.withAccount (s.account.maybeCleanUpSnapshots s.height config)).Tracks config := by
  set account := s.account.maybeCleanUpSnapshots s.height config
  obtain ⟨had, hr, hbal, hlc⟩ := maybeCleanUpSnapshots_same s.account s.height config
  have ha := droppedSnapshots_append s.account s.height config
  obtain ⟨hdropped, hkept⟩ := cleanUp_snapshots config h.increasing
  have hinc : Increasing (s.account.droppedSnapshots s.height config ++ account.snapshots) := ha ▸ h.increasing
  have hsub : account.snapshots.Sublist s.account.snapshots := ha ▸ sublist_append_right _ _
  have hend := endOfBlockBalance_eq hbal
  refine {
    account := had ▸ h.account
    height_ne := h.height_ne
    height_lt := h.height_lt
    increasing := h.increasing.sublist hsub
    positive := fun x hx => h.positive x (hsub.subset hx)
    local_lt := fun x hx => h.local_lt x (hlc.subset hx)
    snapshot_le := fun x hx => h.snapshot_le x (hsub.subset hx)
    fresh := ?_
    reads := ?_
    unchanged := ?_ }
  · refine h.fresh.imp (fun hl => ?_) (fun hf => hr ▸ hf)
    exact sublist_nil.mp (hl ▸ hlc)
  · intro g hlo hhi
    rw [hend]
    have hre := h.reads g hlo hhi
    rw [← ha] at hre
    cases hd : (s.account.droppedSnapshots s.height config).getLast? with
    | none =>
      rw [getLast?_eq_none_iff.mp hd] at hre
      exact hre
    | some dropped =>
      refine hre.drop_oldest hinc fun kept hk => ?_
      rcases Nat.lt_or_ge g kept.balanceHeight with hlt | hge
      · right
        have haf : ∀ x ∈ account.snapshots, g < x.balanceHeight := by
          intro x hx
          obtain ⟨rest, hrs⟩ := head?_eq_some_iff.mp hk
          have hki := h.increasing.sublist hsub
          rw [hrs] at hx hki
          rcases mem_cons.mp hx with rfl | hx
          · exact hlt
          · exact hlt.trans ((pairwise_cons.mp hki).1 x hx)
        rw [h.endOfBlockBalance_eq_dropped hc hd hlo hhi haf]
        rw [hkept] at hk
        rw [hdropped] at hd
        refine (hb kept hk dropped hd).resolve_left fun hle => ?_
        exact absurd (hle.trans ((le_max_right 1 _).trans hlo)) hlt.not_ge
      · exact .inl hge
  · intro hnil g hlo hhi
    rw [hend]
    change account.snapshots = [] at hnil
    change _ = account.balance
    rw [hbal]
    have haf : ∀ g, ∀ x ∈ account.snapshots, g < x.balanceHeight := by simp [hnil]
    cases hd : (s.account.droppedSnapshots s.height config).getLast? with
    | none =>
      rw [getLast?_eq_none_iff.mp hd, hnil] at ha
      exact h.unchanged ha.symm g hlo hhi
    | some dropped =>
      rw [h.endOfBlockBalance_eq_dropped hc hd hlo hhi (haf g), ← h.endOfBlockBalance_eq_dropped hc hd
        (windowStart_le config h.height_ne) le_rfl (haf _), endOfBlockBalance_height]

lemma Describes.commitSnapshots (h : s.Describes config) :
    (s.withAccount s.account.commitSnapshots).Describes config := by
  obtain ⟨hre, hlc⟩ := commitSnapshots_snapshots h.increasing
  have hs : s.account.commitSnapshots.snapshots = s.account.commitSnapshots.localSnapshots := by
    rw [snapshots, hre, append_nil]
  have hbal := commitSnapshots_balance (s := s.account)
  have hend := endOfBlockBalance_eq hbal
  have hsub : s.account.commitSnapshots.snapshots.Sublist s.account.snapshots := by
    rw [hs]
    rcases hlc with hl | ⟨l, back, repeated, kept, hl, hr, -, hcom⟩
    · exact hl ▸ List.Sublist.refl _
    · rw [hcom, snapshots, hl, hr]
      exact (sublist_append_right repeated kept).append_left _
  exact {
    height_ne := h.height_ne
    increasing := h.increasing.sublist hsub
    positive := fun x hx => h.positive x (hsub.subset hx)
    snapshot_le := fun x hx => h.snapshot_le x (hsub.subset hx)
    fresh := .inr (by simp [withAccount, hre])
    reads := by
      intro g hlo hhi
      rw [hend]
      change Reads s.account.commitSnapshots.snapshots g _
      have hra := h.reads g hlo hhi
      have hinc := h.increasing
      rw [hs]
      rcases hlc with hl | ⟨l, back, repeated, kept, hl, hr, hrp, hcom⟩
      · exact hl ▸ hra
      · rw [snapshots, hl, hr] at hra hinc
        exact hcom ▸ hra.erase_repeated hinc hrp
    unchanged := by
      intro hnil g hlo hhi
      rw [hend]
      change s.account.commitSnapshots.snapshots = [] at hnil
      change _ = s.account.commitSnapshots.balance
      rw [hbal]
      refine h.unchanged ?_ g hlo hhi
      rw [hs] at hnil
      rcases hlc with hl | ⟨l, back, repeated, kept, -, -, -, hcom⟩
      · exact hl ▸ hnil
      · simp [hcom] at hnil }

lemma Describes.advance (h : s.Describes config) (hac : ∃ a, s.account.addressHeight = some a ∧ a ≤ s.height)
    (hlt : s.height + 1 < 2 ^ 64 - 1) (hf : s.account.localSnapshots = [] ∨
      ∀ x ∈ s.account.remoteSnapshots, s.height + 1 - config.importanceGrouping < x.balanceHeight) :
    Tracks { s with height := s.height + 1, past := Function.update s.past s.height s.account.balance } config := by
  have hold : ∀ g, g ≤ s.height →
      endOfBlockBalance { s with height := s.height + 1, past := update s.past s.height s.account.balance } g =
        s.endOfBlockBalance g := by
    intro g hg
    refine (if_pos (Nat.lt_succ_of_le hg)).trans ?_
    rcases hg.lt_or_eq with hg | rfl
    · exact (update_of_ne hg.ne _ _).trans (if_pos hg).symm
    · exact (update_self _ _ _).trans endOfBlockBalance_height.symm
  have hnew : endOfBlockBalance { s with height := s.height + 1, past := update s.past s.height s.account.balance }
      (s.height + 1) = s.account.balance := if_neg (lt_irrefl _)
  have hs : s.windowStart config ≤
      windowStart { s with height := s.height + 1, past := update s.past s.height s.account.balance } config :=
    max_le_max_left 1 (Nat.sub_le_sub_right (Nat.le_succ _) _)
  obtain ⟨a, ha, hle⟩ := hac
  exact {
    account := ⟨a, ha, hle.trans (Nat.le_succ _)⟩
    height_lt := hlt
    local_lt := fun x hx => Nat.lt_succ_of_le (h.snapshot_le x (mem_append_left _ hx))
    height_ne := Nat.succ_ne_zero _
    increasing := h.increasing
    positive := h.positive
    snapshot_le := fun x hx => (h.snapshot_le x hx).trans (Nat.le_succ _)
    fresh := hf
    reads := by
      intro g hlo hhi
      rcases Nat.lt_or_ge s.height g with hg | hg
      · obtain rfl : g = s.height + 1 := le_antisymm hhi hg
        rw [hnew, ← endOfBlockBalance_height]
        exact (h.reads s.height (windowStart_le config h.height_ne) le_rfl).extend h.snapshot_le (Nat.le_succ _)
      · rw [hold g hg]
        exact h.reads g (hs.trans hlo) hg
    unchanged := by
      intro hnil g hlo hhi
      rcases Nat.lt_or_ge s.height g with hg | hg
      · obtain rfl : g = s.height + 1 := le_antisymm hhi hg
        exact hnew
      · rw [hold g hg]
        exact h.unchanged hnil g (hs.trans hlo) hg }

lemma Tracks.endBlock (h : s.Tracks config) {commit : Bool} (hb : s.KeepsBase config (.endBlock commit)) :
    ∃ s', s.next config (.endBlock commit) = .ok s' ∧ s'.Tracks config := by
  refine ⟨_, rfl, ?_⟩
  cases commit with
  | true =>
    have hcom := h.toDescribes.commitSnapshots
    have hre := (commitSnapshots_snapshots h.increasing).1
    have hn := hcom.advance (by simpa [withAccount] using h.account) hb.1 (.inr (by simp [withAccount, hre]))
    rw [← commitSnapshots_balance]
    exact hn
  | false =>
    refine h.toDescribes.advance h.account hb.1 ((hb.2 rfl).imp_right fun hh x hx => ?_)
    obtain ⟨front, hf⟩ : ∃ front, front ∈ s.account.remoteSnapshots.head? := by
      cases hr : s.account.remoteSnapshots with
      | nil => simp [hr] at hx
      | cons front rest => exact ⟨front, rfl⟩
    obtain ⟨rest, hrs⟩ := head?_eq_some_iff.mp hf
    have hinc := (pairwise_append.mp h.increasing).2.1
    rw [hrs] at hx hinc
    rcases mem_cons.mp hx with rfl | hx
    · exact hh x hf
    · exact (hh front hf).trans ((pairwise_cons.mp hinc).1 x hx)

lemma Tracks.step (h : s.Tracks config) (hc : Sane config) (hval : s.Valid e) (hb : s.KeepsBase config e) :
    ∃ s', s.next config e = .ok s' ∧ s'.Tracks config := by
  cases e with
  | credit mosaicId amount =>
    obtain ⟨s', hs', ht, -⟩ := h.credit hc hb
    exact ⟨s', hs', ht⟩
  | debit mosaicId amount =>
    obtain ⟨s', hs', ht, -⟩ := h.debit hc hval
    exact ⟨s', hs', ht⟩
  | cleanUp => exact ⟨_, rfl, h.cleanUp hc hb⟩
  | endBlock commit => exact h.endBlock hb

lemma Tracks.run (h : s.Tracks config) (hc : Sane config) {events : List Event} (hsa : KeepsBaseAlong config events s) :
    ∃ s', events.foldlM (next · config) s = .ok s' ∧ s'.Tracks config := by
  induction events generalizing s with
  | nil => exact ⟨s, rfl, h⟩
  | cons e rest ih =>
    obtain ⟨hval, hb, hr⟩ := hsa
    obtain ⟨t, ht, htr⟩ := h.step hc hval hb
    obtain ⟨s', hs', hs'tracks⟩ := ih htr (hr t ht)
    exact ⟨s', by rw [foldlM_cons]; exact bind_eq_ok.mpr ⟨t, ht, hs'⟩, hs'tracks⟩

lemma tracks_start {balances : AccountBalances} {trackedMosaicId : MosaicId} {addressHeight height : ℕ}
    (ha : addressHeight ≤ height) (h0 : height ≠ 0) (hlt : height < 2 ^ 64 - 1) :
    (start balances trackedMosaicId addressHeight height).Tracks config where
  account := ⟨addressHeight, rfl, ha⟩
  height_ne := h0
  height_lt := hlt
  increasing := List.Pairwise.nil
  positive := by simp [start, snapshots]
  snapshot_le := by simp [start, snapshots]
  local_lt := by simp [start]
  fresh := .inl rfl
  reads := fun _ _ _ => reads_of_forall_eq (by simp [start, snapshots])
  unchanged := fun _ _ _ _ => ite_self _

/-- In every run that keeps the base of the window the effective balance is the least end-of-block balance of the
window. -/
theorem effective_balance_is_window_minimum (config : SnapshotConfiguration) (hconfig : Sane config)
    (balances : AccountBalances) (trackedMosaicId : MosaicId) (addressHeight height : ℕ)
    (haddress : addressHeight ≤ height) (h0 : height ≠ 0) (hlt : height < 2 ^ 64 - 1) (events : List Event)
    (hsafe : KeepsBaseAlong config events (start balances trackedMosaicId addressHeight height)) :
    ∃ s, events.foldlM (next · config) (start balances trackedMosaicId addressHeight height) = .ok s ∧
      IsLeast (s.endOfBlockBalance '' Set.Icc (max 1 (s.height - config.importanceGrouping)) s.height)
        (s.effectiveBalance config) ∧
      (s.withAccount s.account.commitSnapshots).effectiveBalance config = s.effectiveBalance config ∧
        (s.KeepsBase config .cleanUp →
        (s.withAccount (s.account.maybeCleanUpSnapshots s.height config)).effectiveBalance config =
          s.effectiveBalance config) := by
  obtain ⟨s, hs, htracks⟩ := (tracks_start haddress h0 hlt).run hconfig hsafe
  have hsame : ∀ account : TrackedBalances, (s.withAccount account).Describes config →
      account.balance = s.account.balance →
      (s.withAccount account).effectiveBalance config = s.effectiveBalance config := by
    intro account hdescribes hbalance
    have hleast := hdescribes.isLeast
    rw [endOfBlockBalance_eq hbalance] at hleast
    exact hleast.unique htracks.isLeast
  exact ⟨s, hs, htracks.isLeast, hsame _ htracks.commitSnapshots commitSnapshots_balance,
    fun hbase => hsame _ (htracks.cleanUp hconfig hbase).toDescribes (maybeCleanUpSnapshots_same _ _ _).2.2.1⟩

instance (s : TrackedLedger) (e : Event) : Decidable (s.Valid e) := by
  cases e <;> unfold Valid <;> infer_instance

instance (s : TrackedLedger) (config : SnapshotConfiguration) (e : Event) : Decidable (s.KeepsBase config e) := by
  cases e <;> unfold KeepsBase <;> infer_instance

instance decidableKeepsBaseAlong (config : SnapshotConfiguration) : (events : List Event) → (s : TrackedLedger) →
    Decidable (KeepsBaseAlong config events s)
  | [], _ => isTrue trivial
  | e :: rest, s =>
    have := decidableKeepsBaseAlong config rest
    inferInstanceAs (Decidable (s.Valid e ∧ s.KeepsBase config e ∧ ∀ s', s.next config e = .ok s' →
      KeepsBaseAlong config rest s'))

def twoChanges (second : Event) : List Event :=
  [.credit 0 20] ++ List.replicate 8 (.endBlock true) ++ [second, .endBlock true, .cleanUp]

theorem effective_balance_is_window_minimum_example :
    ∃ s, (twoChanges (.debit 0 15)).foldlM (next · ⟨5, 2⟩) (start (fun _ => 0) 0 1 1) = .ok s ∧
      IsLeast (s.endOfBlockBalance '' Set.Icc (max 1 (s.height - 5)) s.height) (s.effectiveBalance ⟨5, 2⟩) := by
  obtain ⟨s, hs, hleast, -⟩ :=
    effective_balance_is_window_minimum ⟨5, 2⟩ ⟨by decide, by decide⟩ (fun _ => 0) 0 1 1 (by decide)
    (by decide) (by decide) (twoChanges (.debit 0 15)) (by decide +kernel)
  exact ⟨s, hs, hleast⟩

/-- The clean-up at height 10 drops the snapshot of height 1, which gives the balance of heights 5 to 8. -/
theorem effective_balance_above_window_minimum :
    ∃ s, (twoChanges (.credit 0 15)).foldlM (next · ⟨5, 2⟩) (start (fun _ => 0) 0 1 1) = .ok s ∧
      s.height = 10 ∧ s.endOfBlockBalance 5 = 20 ∧ s.effectiveBalance ⟨5, 2⟩ = 35 ∧
      ¬IsLeast (s.endOfBlockBalance '' Set.Icc (max 1 (s.height - 5)) s.height) (s.effectiveBalance ⟨5, 2⟩) := by
  have hrun : ((twoChanges (.credit 0 15)).foldlM (next · ⟨5, 2⟩) (start (fun _ => 0) 0 1 1)).toOption.map
      (fun s => (s.height, s.endOfBlockBalance 5, s.effectiveBalance ⟨5, 2⟩)) = some (10, 20, 35) := by decide +kernel
  cases hs : (twoChanges (.credit 0 15)).foldlM (next · ⟨5, 2⟩) (start (fun _ => 0) 0 1 1) with
  | error e =>
    rw [hs] at hrun
    cases hrun
  | ok s =>
    rw [hs] at hrun
    obtain ⟨hheight, hpast, heff⟩ : s.height = 10 ∧ s.endOfBlockBalance 5 = 20 ∧ s.effectiveBalance ⟨5, 2⟩ = 35 := by
      simpa using Option.some.inj hrun
    refine ⟨s, rfl, hheight, hpast, heff, fun hleast => ?_⟩
    have hle := hleast.2 ⟨5, ⟨by omega, by omega⟩, hpast⟩
    omega

-- The same happens without a clean-up: a debit that finds no snapshot leaves no base for a later credit of its block,
example :
    (([.endBlock true, .debit 0 1, .credit 0 9] : List Event).foldlM (next · ⟨5, 2⟩)
      (start (fun _ => 10) 0 1 1)).toOption.map
    (fun s => (s.endOfBlockBalance 1, s.effectiveBalance ⟨5, 2⟩)) = some (10, 18) := by decide +kernel

-- and the last committed snapshot still counts when an uncommitted one is older than the window.
example :
    (([.credit 0 20, .endBlock true, .credit 0 15] ++ List.replicate 6 (.endBlock false) : List Event).foldlM
      (next · ⟨5, 2⟩)
    (start (fun _ => 0) 0 1 1)).toOption.map
    (fun s => (s.height - 5, s.endOfBlockBalance 3, s.effectiveBalance ⟨5, 2⟩)) = some (3, 35, 20) := by decide +kernel

end TrackedLedger

end XpxChain.Accounts
