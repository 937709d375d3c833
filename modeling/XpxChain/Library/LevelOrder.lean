import Mathlib

/-! Complete `k`-ary trees stored level by level: the children of node `i` are the nodes
`k * i + 1`, ..., `k * i + k`. -/

namespace XpxChain.Library.LevelOrder

def parentIndex (k i : ℕ) : ℕ := (i - 1) / k

inductive Descends (k i : ℕ) : ℕ → Prop
  | self : Descends k i i
  | child {j : ℕ} : 0 < j → Descends k i (parentIndex k j) → Descends k i j

def position (k : ℕ) : ℕ → ℕ × ℕ
  | 0 => (0, 1)
  | i + 1 => ((position k (i / k)).1 * k + i % k, (position k (i / k)).2 * k)
termination_by i => i
decreasing_by all_goals exact Nat.lt_succ_of_le (Nat.div_le_self i k)

variable {k i j : ℕ}

lemma parentIndex_le : parentIndex k i ≤ i := (Nat.div_le_self _ _).trans (Nat.sub_le _ _)

lemma Descends.le (h : Descends k i j) : i ≤ j := by
  induction h with
  | self => exact le_rfl
  | child _ _ ih => exact ih.trans parentIndex_le

lemma Descends.parent (hi : 0 < i) (h : Descends k i j) : Descends k (parentIndex k i) j := by
  induction h with
  | self => exact .child hi .self
  | child hj _ ih => exact .child hj ih

lemma position_zero : position k 0 = (0, 1) := by rw [position]

lemma position_add_one : position k (i + 1) = ((position k (i / k)).1 * k + i % k, (position k (i / k)).2 * k) := by
  rw [position]

lemma position_fst_lt_snd (hk : 0 < k) (i : ℕ) : (position k i).1 < (position k i).2 := by
  induction i using Nat.strongRecOn with
  | ind i ih =>
    cases i with
    | zero => simp [position_zero]
    | succ i =>
      have hlt := ih (i / k) (Nat.lt_succ_of_le (Nat.div_le_self i k))
      rw [position_add_one]
      calc (position k (i / k)).1 * k + i % k < (position k (i / k)).1 * k + k := by
            have := Nat.mod_lt i hk
            omega
        _ = ((position k (i / k)).1 + 1) * k := by ring
        _ ≤ (position k (i / k)).2 * k := Nat.mul_le_mul_right k hlt

def nextPosition (k : ℕ) (q : ℕ × ℕ) : ℕ × ℕ :=
  if q.2 ≤ q.1 + 1 then (0, q.2 * k) else (q.1 + 1, q.2)

theorem position_succ (hk : 0 < k) (i : ℕ) : position k (i + 1) = nextPosition k (position k i) := by
  induction i using Nat.strongRecOn with
  | ind i ih =>
    cases i with
    | zero => simp [position_add_one, position_zero, nextPosition]
    | succ i =>
      have hpar := ih (i / k) (Nat.lt_succ_of_le (Nat.div_le_self i k))
      have hlt := position_fst_lt_snd hk (i / k)
      rw [position_add_one, position_add_one, nextPosition]
      generalize hq : position k (i / k) = q at hpar hlt
      have hrow : q.1 * k + k ≤ q.2 * k := by
        calc q.1 * k + k = (q.1 + 1) * k := by ring
          _ ≤ q.2 * k := Nat.mul_le_mul_right k hlt
      have hs : i + 1 = k * (i / k) + (i % k + 1) := by
        rw [← Nat.add_assoc, Nat.div_add_mod]
      have hmod := Nat.mod_lt i hk
      rcases Nat.lt_or_ge (i % k + 1) k with hc | hc
      · -- the next node has the same parent
        have hdiv : (i + 1) / k = i / k := by
          rw [hs, Nat.mul_add_div hk, Nat.div_eq_of_lt hc, Nat.add_zero]
        have hr : (i + 1) % k = i % k + 1 := by
          rw [hs, Nat.mul_add_mod, Nat.mod_eq_of_lt hc]
        rw [hdiv, hr, hq, if_neg (by omega), Nat.add_assoc]
      · -- the next node is the first child of the next node in the level above
        have hc : i % k + 1 = k := by omega
        have hdiv : (i + 1) / k = i / k + 1 := by
          rw [hs, Nat.mul_add_div hk, hc, Nat.div_self hk]
        have hr : (i + 1) % k = 0 := by
          rw [hs, Nat.mul_add_mod, hc, Nat.mod_self]
        rw [hdiv, hr, hpar, nextPosition]
        have hl : q.2 * k ≤ q.1 * k + i % k + 1 ↔ q.2 ≤ q.1 + 1 := by
          rw [Nat.add_assoc, hc, ← Nat.succ_mul]
          exact Nat.mul_le_mul_right_iff hk
        simp only [hl]
        split_ifs
        · simp
        · simp only [Prod.mk.injEq, and_true]
          rw [Nat.add_assoc, hc]
          ring

lemma position_fst_le (hk : 0 < k) (i : ℕ) : (position k i).1 ≤ i := by
  induction i with
  | zero => simp [position_zero]
  | succ i ih =>
    rw [position_succ hk, nextPosition]
    split_ifs
    · exact Nat.zero_le _
    · exact Nat.succ_le_succ ih

lemma position_add (hk : 0 < k) {t : ℕ} (h : (position k i).1 + t < (position k i).2) :
    position k (i + t) = ((position k i).1 + t, (position k i).2) := by
  induction t with
  | zero => rfl
  | succ t ih =>
    rw [← Nat.add_assoc, position_succ hk, ih (by omega), nextPosition, if_neg (by simp only; omega)]
    rfl

def levelEnd (k i : ℕ) : ℕ := i - (position k i).1 + (position k i).2

lemma lt_levelEnd (hk : 0 < k) (i : ℕ) : i < levelEnd k i := by
  have hlt := position_fst_lt_snd hk i
  rw [levelEnd]
  omega

lemma position_levelEnd_sub_one (hk : 0 < k) (i : ℕ) :
    position k (levelEnd k i - 1) = ((position k i).2 - 1, (position k i).2) := by
  have hlt := position_fst_lt_snd hk i
  have hle := position_fst_le hk i
  have hl : levelEnd k i - 1 = i + ((position k i).2 - 1 - (position k i).1) := by
    rw [levelEnd]
    omega
  rw [hl, position_add hk (by omega), Nat.add_sub_cancel' (by omega)]

theorem position_injective (hk : 1 < k) : Function.Injective (position k) := by
  intro i
  induction i using Nat.strongRecOn with
  | ind i ih =>
    intro j h
    have hpos : ∀ n, 0 < (position k n).2 := fun n => Nat.zero_lt_of_lt (position_fst_lt_snd (by omega) n)
    have hr : ∀ n, position k 0 ≠ position k (n + 1) := by
      intro n h
      rw [position_zero, position_add_one, Prod.mk.injEq] at h
      have := Nat.mul_le_mul (hpos (n / k)) hk
      omega
    cases i with
    | zero =>
      cases j with
      | zero => rfl
      | succ j => exact absurd h (hr j)
    | succ i =>
      cases j with
      | zero => exact absurd h.symm (hr i)
      | succ j =>
        rw [position_add_one, position_add_one, Prod.mk.injEq] at h
        obtain ⟨hidx, hcnt⟩ := h
        have hdiv := congrArg (· / k) hidx
        have hmod := congrArg (· % k) hidx
        simp only [Nat.mul_comm _ k, Nat.mul_add_div (by omega : 0 < k), Nat.mul_add_mod, Nat.mod_mod,
          Nat.div_eq_of_lt (Nat.mod_lt _ (by omega : 0 < k)), Nat.add_zero] at hdiv hmod
        have hpar : i / k = j / k :=
          ih (i / k) (Nat.lt_succ_of_le (Nat.div_le_self i k))
            (Prod.ext hdiv (Nat.eq_of_mul_eq_mul_right (by omega) hcnt))
        rw [← Nat.div_add_mod i k, ← Nat.div_add_mod j k, hpar, hmod]

lemma exists_pow_of_le (hk : 0 < k) (h : i ≤ j) : ∃ d, (position k j).2 = (position k i).2 * k ^ d := by
  induction j, h using Nat.le_induction with
  | base => exact ⟨0, by simp⟩
  | succ j h ih =>
    obtain ⟨d, hd⟩ := ih
    rw [position_succ hk, nextPosition]
    split_ifs
    · exact ⟨d + 1, by rw [hd, pow_succ, Nat.mul_assoc]⟩
    · exact ⟨d, hd⟩

lemma exists_pow_of_descends (hk : 0 < k) (h : Descends k i j) :
    ∃ d, (position k j).2 = (position k i).2 * k ^ d ∧ (position k j).1 / k ^ d = (position k i).1 := by
  induction h with
  | self => exact ⟨0, by simp, by simp⟩
  | @child j hj _ ih =>
    obtain ⟨d, hcnt, hidx⟩ := ih
    obtain ⟨j, rfl⟩ := Nat.exists_eq_succ_of_ne_zero hj.ne'
    rw [parentIndex, Nat.succ_sub_one] at hcnt hidx
    refine ⟨d + 1, ?_, ?_⟩
    · rw [position_add_one, hcnt, pow_succ, Nat.mul_assoc]
    · rw [position_add_one, pow_succ', ← Nat.div_div_eq_div_mul, Nat.mul_comm _ k, Nat.mul_add_div hk,
        Nat.div_eq_of_lt (Nat.mod_lt _ hk), Nat.add_zero, hidx]

lemma descends_of_pow (hk : 1 < k) {d : ℕ} (hcnt : (position k j).2 = (position k i).2 * k ^ d)
    (hidx : (position k j).1 / k ^ d = (position k i).1) : Descends k i j := by
  induction d generalizing j with
  | zero =>
    have : j = i := position_injective hk (Prod.ext (by simpa using hidx) (by simpa using hcnt))
    exact this ▸ .self
  | succ d ih =>
    have hpos : 0 < k := by omega
    cases j with
    | zero =>
      have hl :=
        Nat.mul_le_mul (Nat.zero_lt_of_lt (position_fst_lt_snd hpos i)) (Nat.one_lt_pow (Nat.succ_ne_zero d) hk)
      rw [← hcnt, position_zero] at hl
      exact absurd hl (by decide)
    | succ j =>
      refine .child (Nat.succ_pos j) (ih ?_ ?_)
      · rw [position_add_one, pow_succ, ← Nat.mul_assoc] at hcnt
        exact Nat.eq_of_mul_eq_mul_right hpos hcnt
      · rw [position_add_one, pow_succ', ← Nat.div_div_eq_div_mul, Nat.mul_comm _ k, Nat.mul_add_div hpos,
          Nat.div_eq_of_lt (Nat.mod_lt _ hpos), Nat.add_zero] at hidx
        exact hidx

theorem descends_iff_scaled (hk : 1 < k) (h : i ≤ j) :
    Descends k i j ↔ (position k j).1 * (position k i).2 / (position k j).2 = (position k i).1 := by
  have hpos : 0 < k := by omega
  have hs : ∀ d, (position k j).2 = (position k i).2 * k ^ d →
      (position k j).1 * (position k i).2 / (position k j).2 = (position k j).1 / k ^ d := by
    intro d hd
    rw [hd, Nat.mul_comm (position k j).1, Nat.mul_div_mul_left _ _ (Nat.zero_lt_of_lt (position_fst_lt_snd hpos i))]
  constructor
  · intro hde
    obtain ⟨d, hcnt, hidx⟩ := exists_pow_of_descends hpos hde
    rw [hs d hcnt, hidx]
  · intro hidx
    obtain ⟨d, hcnt⟩ := exists_pow_of_le hpos h
    rw [hs d hcnt] at hidx
    exact descends_of_pow hk hcnt hidx

lemma Descends.levelEnd_le (hk : 1 < k) (h : Descends k i j) (hne : i ≠ j) : levelEnd k i ≤ j := by
  have hpos : 0 < k := by omega
  have hle := position_fst_le hpos i
  by_contra hj
  rw [levelEnd] at hj
  obtain ⟨t, rfl⟩ := Nat.exists_eq_add_of_le h.le
  have hs := (descends_iff_scaled hk h.le).mp h
  rw [position_add hpos (by omega), Nat.mul_div_cancel _ (by omega)] at hs
  omega

lemma Descends.scaled_parent (hk : 1 < k) (h : Descends k i j) :
    (position k j).1 * ((position k i).2 / k) / (position k j).2 = (position k i).1 / k := by
  cases i with
  | zero => simp [position_zero, Nat.div_eq_of_lt hk]
  | succ i =>
    have hpos : 0 < k := by omega
    have hs := (descends_iff_scaled hk (h.parent i.succ_pos).le).mp (h.parent i.succ_pos)
    rw [parentIndex, Nat.succ_sub_one] at hs
    rw [position_add_one, Nat.mul_div_cancel _ hpos, hs, Nat.mul_comm _ k, Nat.mul_add_div hpos,
      Nat.div_eq_of_lt (Nat.mod_lt _ hpos), Nat.add_zero]

lemma Descends.trans {l : ℕ} (h : Descends k i j) (hl : Descends k j l) : Descends k i l := by
  induction hl with
  | self => exact h
  | child hp _ ih => exact .child hp ih

lemma Descends.comparable {l : ℕ} (hi : Descends k i l) (hj : Descends k j l) : Descends k i j ∨ Descends k j i := by
  induction hi with
  | self => exact .inr hj
  | child hp hi ih =>
    cases hj with
    | self => exact .inl (.child hp hi)
    | child _ hj => exact ih hj

end XpxChain.Library.LevelOrder
