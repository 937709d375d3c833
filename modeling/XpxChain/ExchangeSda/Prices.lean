import XpxChain.ExchangeSda.Observers

/-! Prices and their reduced fractions, what an exchange leaves of two offers of one price, and the vector of a group.
-/

namespace XpxChain.ExchangeSda

open Std Accounts SdaOfferGroupVector Library OrderedContainers List

lemma toInt_of_lt {n : ℕ} (h : n < 2 ^ 31) : toInt n = n := by
  have hmod : (n : ℤ) % 4294967296 = n := by omega
  have hh : (n : ℤ) < (4294967296 + 1) / 2 := by omega
  change (n : ℤ).bmod 4294967296 = n
  rw [Int.bmod_def]
  change (if (n : ℤ) % 4294967296 < (4294967296 + 1) / 2 then _ else _) = _
  rw [if_pos (by rw [hmod]; exact hh)]
  exact hmod

lemma denominator_natCast (m n : ℕ) : denominator m n = (Nat.gcd m n : ℕ) := by
  induction n using Nat.strong_induction_on generalizing m with
  | _ n ih =>
    rw [denominator]
    split_ifs with h
    · obtain rfl : n = 0 := by exact_mod_cast h
      rw [Nat.gcd_zero_right]
    · have hpos : 0 < n := Nat.pos_of_ne_zero (by exact_mod_cast h)
      have hmod : (m : ℤ).tmod n = ((m % n : ℕ) : ℤ) := by
        rfl
      rw [hmod, ih (m % n) (Nat.mod_lt m hpos), Nat.gcd_comm n, ← Nat.gcd_rec, Nat.gcd_comm]

def groupOf (pair : MosaicsPair) (give get : ℕ) : GroupKey :=
  ⟨pair, ((give / give.gcd get : ℕ), (get / give.gcd get : ℕ))⟩

lemma groupOf_of_coprime (pair : MosaicsPair) {a b d : ℕ} (hab : a.Coprime b) (hd : 0 < d) :
    groupOf pair (a * d) (b * d) = ⟨pair, (a, b)⟩ := by
  have hgcd : (a * d).gcd (b * d) = d := by rw [Nat.gcd_mul_right, hab.gcd_eq_one, Nat.one_mul]
  rw [groupOf, hgcd, Nat.mul_div_cancel _ hd, Nat.mul_div_cancel _ hd]

lemma eq_of_cross_eq {a b a' b' : ℕ} (hab : a.Coprime b) (hab' : a'.Coprime b') (h : a * b' = b * a') : a = a' := by
  apply Nat.dvd_antisymm
  · apply hab.dvd_of_dvd_mul_left
    rw [← h]
    exact Dvd.intro _ rfl
  · apply hab'.dvd_of_dvd_mul_right
    rw [h]
    exact Dvd.intro_left _ rfl

lemma groupOf_eq_iff {pair pair' : MosaicsPair} {give get give' get' : ℕ} (hg : 0 < give) (hg' : 0 < give') :
    groupOf pair give get = groupOf pair' give' get' ↔ pair = pair' ∧ give * get' = get * give' := by
  have hd : 0 < give.gcd get := Nat.gcd_pos_of_pos_left get hg
  have hd' : 0 < give'.gcd get' := Nat.gcd_pos_of_pos_left get' hg'
  obtain ⟨a, b, hab, ha, hb⟩ := Nat.exists_coprime give get
  obtain ⟨a', b', hab', ha', hb'⟩ := Nat.exists_coprime give' get'
  generalize give.gcd get = d at *
  generalize give'.gcd get' = d' at *
  subst ha hb ha' hb'
  rw [groupOf_of_coprime pair hab hd, groupOf_of_coprime pair' hab' hd', GroupKey.mk.injEq, Prod.mk.injEq, Nat.cast_inj,
    Nat.cast_inj]
  constructor
  · rintro ⟨hp, rfl, rfl⟩
    exact ⟨hp, by ring⟩
  · rintro ⟨hp, hc⟩
    have hred : a * b' = b * a' := by
      apply Nat.eq_of_mul_eq_mul_left (Nat.mul_pos hd hd')
      calc d * d' * (a * b') = a * d * (b' * d') := by ring
        _ = b * d * (a' * d') := hc
        _ = d * d' * (b * a') := by ring
    exact ⟨hp, eq_of_cross_eq hab hab' hred, eq_of_cross_eq hab.symm hab'.symm hred.symm⟩

variable {g₁ t₁ G₁ T₁ g₂ t₂ G₂ T₂ : ℕ}

lemma cross_eq (hT : 0 < T₁) (h₁ : g₁ * T₁ = t₁ * G₁) (hr : G₁ * G₂ = T₁ * T₂) : g₁ * G₂ = t₁ * T₂ := by
  apply Nat.eq_of_mul_eq_mul_left hT
  calc T₁ * (g₁ * G₂) = g₁ * T₁ * G₂ := by ring
    _ = t₁ * (G₁ * G₂) := by rw [h₁]; ring
    _ = T₁ * (t₁ * T₂) := by rw [hr]; ring

section

variable (hT : 0 < T₁) (hG : 0 < G₂) (h₁ : g₁ * T₁ = t₁ * G₁) (h₂ : g₂ * T₂ = t₂ * G₂) (hr : G₁ * G₂ = T₁ * T₂)
include hT hG h₁ h₂ hr

lemma exchange_cases : min t₁ g₂ = t₁ ∧ min g₁ t₂ = g₁ ∨ min t₁ g₂ = g₂ ∧ min g₁ t₂ = t₂ := by
  have hc := cross_eq hT h₁ hr
  by_cases hle : t₁ ≤ g₂
  · left
    refine ⟨Nat.min_eq_left hle, Nat.min_eq_left ?_⟩
    apply Nat.le_of_mul_le_mul_right _ hG
    rw [hc, ← h₂]
    exact Nat.mul_le_mul_right _ hle
  · right
    refine ⟨Nat.min_eq_right (by omega), Nat.min_eq_right ?_⟩
    apply Nat.le_of_mul_le_mul_right _ hG
    rw [hc, ← h₂]
    exact Nat.mul_le_mul_right _ (by omega)

theorem exchange_fair :
    (g₁ - min g₁ t₂) * T₁ = (t₁ - min t₁ g₂) * G₁ ∧ (g₂ - min t₁ g₂) * T₂ = (t₂ - min g₁ t₂) * G₂ := by
  have hc := cross_eq hT h₁ hr
  have hc' : t₂ * T₁ = g₂ * G₁ := by
    apply Nat.eq_of_mul_eq_mul_left hG
    calc G₂ * (t₂ * T₁) = t₂ * G₂ * T₁ := by ring
      _ = g₂ * (T₁ * T₂) := by rw [← h₂]; ring
      _ = G₂ * (g₂ * G₁) := by rw [← hr]; ring
  obtain ⟨ht, hg⟩ | ⟨ht, hg⟩ := exchange_cases hT hG h₁ h₂ hr
  · rw [ht, hg, Nat.sub_self, Nat.sub_self, Nat.zero_mul, Nat.zero_mul, Nat.sub_mul, Nat.sub_mul, h₂, hc]
    exact ⟨rfl, rfl⟩
  · rw [ht, hg, Nat.sub_self, Nat.sub_self, Nat.zero_mul, Nat.zero_mul, Nat.sub_mul, Nat.sub_mul, h₁, hc']
    exact ⟨rfl, rfl⟩

end

section

variable {group : SdaOfferGroupVector} {k : Key} {amount : ℕ} {info : SdaOfferBasicInfo}

lemma map_owner_update : (group.updateSdaOfferGroup k amount).map (·.owner) = group.map (·.owner) := by
  rw [updateSdaOfferGroup, map_map]
  apply map_congr_left
  intro info _
  simp only [Function.comp_apply]
  split_ifs <;> rfl

lemma mem_update (h : info ∈ group.updateSdaOfferGroup k amount) :
    ∃ old ∈ group, info.owner = old.owner ∧ info.deadline = old.deadline ∧
      (info.owner = k → info.mosaicGive = amount) ∧ (info.owner ≠ k → info = old) := by
  obtain ⟨old, hold, rfl⟩ := mem_map.mp h
  refine ⟨old, hold, ?_⟩
  by_cases hk : old.owner = k <;> simp [hk]

lemma remove_eq_filter (h : (group.map (·.owner)).Nodup) :
    removeSdaOfferFromGroup k group = group.filter fun info => info.owner ≠ k := by
  induction group using removeSdaOfferFromGroup.induct k with
  | case1 => rfl
  | case2 info hk => simp [removeSdaOfferFromGroup, hk]
  | case3 info hk => simp [removeSdaOfferFromGroup, hk]
  | case4 info next group hk ih =>
    simp only [map_cons, nodup_cons, mem_cons, not_or] at h
    have hn : next.owner ≠ k := fun heq => h.1.1 (hk.trans heq.symm)
    rw [removeSdaOfferFromGroup, ih h.2.2]
    simp [hk, hn]
  | case5 info next group hk ih =>
    rw [map_cons, nodup_cons] at h
    rw [removeSdaOfferFromGroup, ih h.2]
    simp [hk]

end

end XpxChain.ExchangeSda
