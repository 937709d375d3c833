import XpxChain.Storage.StartDriveVerification

/-! When the verifications that a block starts do not depend on the local node. -/

namespace XpxChain.Storage.VerificationContext

open Std Library.OrderedContainers Option

variable {G : Type} (context : VerificationContext G)

def NothingDue (fuel : ℕ) (root : Key) (totalDrives : ℕ) : ℕ → BcDriveCache → G → Prop
  | 0, _, _ => True
  | n + 1, driveCache, g => match context.turn fuel root totalDrives driveCache g with
    | some (none, driveCache, g) => NothingDue fuel root totalDrives n driveCache g
    | _ => False

def NodesAgree (fuel : ℕ) (root : Key) (totalDrives : ℕ) (key₁ key₂ : Key) : ℕ → BcDriveCache → G → Prop
  | 0, _, _ => True
  | n + 1, driveCache, g => match context.turn fuel root totalDrives driveCache g with
    | some (none, driveCache, g) => NodesAgree fuel root totalDrives key₁ key₂ n driveCache g
    | some (some driveReplicators, driveCache, g) =>
      (key₁ ∈ driveReplicators → key₂ ∈ driveReplicators → NodesAgree fuel root totalDrives key₁ key₂ n driveCache g) ∧
        (¬ (key₁ ∈ driveReplicators ↔ key₂ ∈ driveReplicators) →
          context.NothingDue fuel root totalDrives n driveCache g)
    | none => True

def InProgress (driveCache : BcDriveCache) (driveKey : Key) : Prop :=
  ∃ driveEntry verification, driveCache[driveKey]? = some driveEntry ∧ driveEntry.verification = some verification ∧
    ¬ verification.expired context.timestamp

variable {context} {fuel totalDrives n : ℕ} {root key key₁ key₂ driveKey : Key} {driveCache driveCache' : BcDriveCache}
  {g g' : G}

lemma turn_none (h : context.turn fuel root totalDrives driveCache g = some (none, driveCache', g')) :
    driveCache' = driveCache := by
  simp only [turn, bind_eq_bind, bind_eq_some_iff] at h
  obtain ⟨_, -, driveEntry, -, h⟩ := h
  split at h
  · obtain ⟨_, -, h⟩ := bind_eq_some_iff.mp h
    simp at h
  · simp only [some.injEq, Prod.mk.injEq, true_and] at h
    exact h.1.symm

lemma turn_some (htimeout : ∀ gigabytes, context.timestamp < context.expiration gigabytes)
    {driveReplicators : Finset Key}
    (h : context.turn fuel root totalDrives driveCache g = some (some driveReplicators, driveCache', g')) :
    ∃ driveKey, ¬ context.InProgress driveCache driveKey ∧ context.InProgress driveCache' driveKey ∧
      ∀ key ≠ driveKey, driveCache'[key]? = driveCache[key]? := by
  simp only [turn, bind_eq_bind, bind_eq_some_iff] at h
  obtain ⟨driveKey, -, driveEntry, hent, h⟩ := h
  split at h
  · next hdue =>
    obtain ⟨⟨started, _⟩, hs, h⟩ := bind_eq_some_iff.mp h
    obtain ⟨-, rfl, -⟩ := h
    refine ⟨driveKey, ?_, ?_, fun key hkey => ?_⟩
    · rintro ⟨_, verification, hent', hv, hexp⟩
      obtain rfl := some.inj (hent.symm.trans hent')
      exact hexp (hdue.2.1 verification hv)
    · simp only [startVerification, bind_eq_bind, bind_eq_some_iff] at hs
      obtain ⟨_, -, hs⟩ := hs
      obtain ⟨rfl, -⟩ := Prod.mk.inj (some.inj hs)
      refine ⟨_, _, ExtTreeMap.getElem?_insert_self, rfl, ?_⟩
      exact Nat.not_le.mpr (htimeout _)
    · rw [getElem?_insert_eq, if_neg hkey]
  · simp at h

lemma verifyDrives_of_nothingDue (h : context.NothingDue fuel root totalDrives n driveCache g) :
    context.verifyDrives fuel root totalDrives key n driveCache g = some driveCache := by
  induction n generalizing driveCache g with
  | zero => rfl
  | succ n ih =>
    rw [NothingDue] at h
    rw [verifyDrives]
    split at h
    · next driveCache' g' ht =>
      obtain rfl := turn_none ht
      rw [ht]
      exact ih h
    · exact h.elim

section

variable (htimeout : ∀ gigabytes, context.timestamp < context.expiration gigabytes)
include htimeout

lemma verifyDrives_inProgress (h : context.verifyDrives fuel root totalDrives key n driveCache g = some driveCache')
    (hin : context.InProgress driveCache driveKey) : context.InProgress driveCache' driveKey := by
  induction n generalizing driveCache g with
  | zero =>
    cases h
    exact hin
  | succ n ih =>
    rw [verifyDrives, bind_eq_bind, bind_eq_some_iff] at h
    obtain ⟨⟨_ | driveReplicators, driveCache₁, g₁⟩, ht, h⟩ := h
    · obtain rfl := turn_none ht
      exact ih h hin
    · obtain ⟨startedKey, hnot, hs, hsa⟩ := turn_some htimeout ht
      have hin₁ : context.InProgress driveCache₁ driveKey := by
        rcases eq_or_ne driveKey startedKey with rfl | hne
        · exact hs
        · obtain ⟨driveEntry, verification, hent, hr⟩ := hin
          exact ⟨driveEntry, verification, (hsa driveKey hne).trans hent, hr⟩
      dsimp only at h
      split at h
      · cases h
        exact hin₁
      · exact ih h hin₁

lemma nothingDue_of_verifyDrives (h : context.verifyDrives fuel root totalDrives key n driveCache g = some driveCache) :
    context.NothingDue fuel root totalDrives n driveCache g := by
  induction n generalizing g with
  | zero => trivial
  | succ n ih =>
    rw [verifyDrives, bind_eq_bind, bind_eq_some_iff] at h
    obtain ⟨⟨_ | driveReplicators, driveCache₁, g₁⟩, ht, h⟩ := h
    · obtain rfl := turn_none ht
      rw [NothingDue, ht]
      exact ih h
    · obtain ⟨startedKey, hnot, hs, -⟩ := turn_some htimeout ht
      refine absurd ?_ hnot
      dsimp only at h
      split at h
      · cases h
        exact hs
      · exact verifyDrives_inProgress htimeout h hs

lemma verifyDrives_eq_iff : context.verifyDrives fuel root totalDrives key₁ n driveCache g =
    context.verifyDrives fuel root totalDrives key₂ n driveCache g ↔
      context.NodesAgree fuel root totalDrives key₁ key₂ n driveCache g := by
  induction n generalizing driveCache g with
  | zero => exact iff_of_true rfl trivial
  | succ n ih =>
    rw [verifyDrives, verifyDrives, NodesAgree]
    rcases ht : context.turn fuel root totalDrives driveCache g with _ | ⟨_ | driveReplicators, driveCache₁, g₁⟩
    · exact iff_of_true rfl trivial
    · exact ih
    · have hr : ∀ key, context.verifyDrives fuel root totalDrives key n driveCache₁ g₁ = some driveCache₁ ↔
          context.NothingDue fuel root totalDrives n driveCache₁ g₁ := fun key =>
        ⟨nothingDue_of_verifyDrives htimeout, verifyDrives_of_nothingDue⟩
      by_cases h₁ : key₁ ∈ driveReplicators <;> by_cases h₂ : key₂ ∈ driveReplicators
      · simpa [h₁, h₂] using ih
      · simpa [h₁, h₂] using hr key₁
      · simpa [h₁, h₂, eq_comm] using hr key₂
      · simp [h₁, h₂]

end

def BlockAgrees (context : VerificationContext G) (fuel : ℕ) (root : Key) (key₁ key₂ : Key)
    (driveCache : BcDriveCache) : Prop :=
  context.enabled → 2 ≤ context.height → context.rollback = false →
    ∀ totalDrives ∈ (verificationsTree root driveCache).size, totalDrives ≠ 0 →
      context.NodesAgree fuel root totalDrives key₁ key₂ (context.drivesToVerify totalDrives).1 driveCache
        (context.drivesToVerify totalDrives).2

theorem observe_eq_iff (htimeout : ∀ gigabytes, context.timestamp < context.expiration gigabytes) :
    context.observe fuel root key₁ driveCache = context.observe fuel root key₂ driveCache ↔
      context.BlockAgrees fuel root key₁ key₂ driveCache := by
  simp only [observe, BlockAgrees]
  by_cases hskip : ¬ context.enabled ∨ context.height < 2
  · rw [if_pos hskip, if_pos hskip]
    refine iff_of_true rfl fun henabled hheight => absurd hskip ?_
    rw [not_or, not_not, Nat.not_lt]
    exact ⟨henabled, hheight⟩
  · rw [if_neg hskip, if_neg hskip]
    obtain ⟨henabled, hheight⟩ : context.enabled ∧ 2 ≤ context.height := by rwa [not_or, not_not, Nat.not_lt] at hskip
    cases hrollback : context.rollback with
    | true => simp
    | false =>
      simp only [henabled, hheight, Bool.false_eq_true, if_false, mem_def, true_imp_iff]
      rcases (verificationsTree root driveCache).size with _ | totalDrives
      · simp
      · rcases Nat.eq_zero_or_pos totalDrives with rfl | hpos
        · simp
        · simpa [hpos.ne'] using verifyDrives_eq_iff htimeout

section

def countingEngine : RandomEngine ℕ where
  seed _ := 0
  next g := (g, g + 1)
  shuffle l g := (l, g)
  sample l n g := (l.take n, g)
  shuffle_perm _ _ := .refl _
  sample_sublist l n _ := List.take_sublist n l
  sample_length _ _ _ := List.length_take

def twoPicks : VerificationContext ℕ where
  rng := countingEngine
  enabled := true
  rollback := false
  height := 10
  timestamp := 100000
  lastBlockTimestamp := 85000
  generationHash := 0
  getVerificationEventHash _ _ := 11
  verificationInterval := 15
  minReplicatorCount := 1
  shardSize := 20
  timeoutMinutes _ := 10

def storedSince (replicatorKey : Key) (timestamp : Timestamp) : ExtTreeMap Key ConfirmedStorageInfo :=
  (∅ : ExtTreeMap Key ConfirmedStorageInfo).insert replicatorKey ⟨0, some timestamp⟩

def firstDrive : BcDriveEntry where
  key := 1
  rootHash := 5
  replicators := {7}
  confirmedStorageInfos := storedSince 7 90000
  verificationNode := ⟨0, 2, 2, 2⟩

def secondDrive : BcDriveEntry where
  key := 2
  rootHash := 6
  replicators := {8}
  confirmedStorageInfos := storedSince 8 90000

def twoDrives : BcDriveCache := ((∅ : BcDriveCache).insert 1 firstDrive).insert 2 secondDrive

/-- A block that picks one drive starts the same verification on all nodes. -/
theorem observe_eq_iff_onePick :
    let context := { twoPicks with verificationInterval := 30 }
    (context.drivesToVerify 2).1 = 1 ∧ context.observe 64 1 8 twoDrives = context.observe 64 1 7 twoDrives := by
  intro context
  have hpicks : (context.drivesToVerify 2).1 = 1 := by decide +kernel
  have hsize : (verificationsTree 1 twoDrives).size = some 2 := by decide +kernel
  refine ⟨hpicks, (observe_eq_iff fun _ => (by decide : 100000 < (100000 + 10 * 60 * 1000) % 2 ^ 64)).mpr ?_⟩
  rintro - - - totalDrives hdrives -
  obtain rfl := Option.some.inj (hsize.symm.trans hdrives)
  rw [hpicks, NodesAgree]
  split <;> simp [NodesAgree, NothingDue]

/-- The node of the first drive's replicator starts the verification of the second drive only. -/
theorem not_observe_eq : twoPicks.observe 64 1 8 twoDrives ≠ twoPicks.observe 64 1 7 twoDrives := by
  intro h
  have hstarted := congrArg (Option.map fun driveCache : BcDriveCache =>
    (driveCache[(1 : Key)]?.bind (·.verification)).isSome) h
  revert hstarted
  decide +kernel

end

end XpxChain.Storage.VerificationContext
