import XpxChain.Types
import XpxChain.Library.Quorums

/-! Views of the DBRB system and their quorums. -/

namespace XpxChain.Dbrb

open Library

abbrev ProcessId := Key
abbrev ViewData := Finset ProcessId
abbrev DbrbTreeView := List ProcessId

def maxInvalidProcesses (viewSize : ℕ) : ℕ := sizeSub viewSize 1 / 3

def quorumSize (viewSize : ℕ) : ℕ := sizeSub viewSize (sizeSub viewSize 1 / 3)

@[ext] structure View where
  data : ViewData

namespace View

instance : DecidableEq View := fun v other => decidable_of_iff (v.data = other.data) View.ext_iff.symm

def isMember (v : View) (p : ProcessId) : Prop := p ∈ v.data
deriving Decidable

def quorumSize (v : View) : ℕ := Dbrb.quorumSize v.data.card

def merge (v other : View) : View := ⟨v.data ∪ other.data⟩

protected def lt (v other : View) : Prop := v ≠ other ∧ v.data ⊆ other.data

protected def gt (v other : View) : Prop := v ≠ other ∧ other.data ⊆ v.data

protected def le (v other : View) : Prop := v.lt other ∨ v = other

deriving instance Decidable for View.lt, View.gt, View.le

lemma le_iff {v other : View} : v.le other ↔ v.data ⊆ other.data := by
  constructor
  · rintro (⟨-, h⟩ | rfl)
    · exact h
    · exact Finset.Subset.refl _
  · intro h
    by_cases he : v = other
    · exact Or.inr he
    · exact Or.inl ⟨he, h⟩

/-- The keys that an ordered map with this comparison takes for the same. -/
def equivalent (v other : View) : Prop := ¬v.lt other ∧ ¬other.lt v
deriving Decidable

/-- The comparison of `std::pair`, for the maps with a process in the key. -/
def pairLt (a b : View × ProcessId) : Prop := a.1.lt b.1 ∨ ¬b.1.lt a.1 ∧ a.2 < b.2

section

variable {views : Set View} {u v w : View}

protected lemma lt_trans (huv : u.lt v) (hvw : v.lt w) : u.lt w := by
  refine ⟨?_, huv.2.trans hvw.2⟩
  rintro rfl
  exact huv.1 (View.ext (huv.2.antisymm hvw.2))

lemma eq_of_equivalent (hcomparable : v.data ⊆ w.data ∨ w.data ⊆ v.data) (h : v.equivalent w) : v = w := by
  by_contra hne
  rcases hcomparable with hle | hle
  · exact h.1 ⟨hne, hle⟩
  · exact h.2 ⟨Ne.symm hne, hle⟩

/-- The maps need that of any two of their views one is contained in the other, and no more than that. -/
theorem lt_strictWeakOrder_iff : ((∀ v ∈ views, ¬v.lt v) ∧
    (∀ u ∈ views, ∀ v ∈ views, ∀ w ∈ views, u.lt v → v.lt w → u.lt w) ∧
    (∀ u ∈ views, ∀ v ∈ views, ∀ w ∈ views, u.equivalent v → v.equivalent w → u.equivalent w) ∧
    (∀ v ∈ views, ∀ w ∈ views, v.equivalent w → v = w) ∧ ∀ v ∈ views, ∀ w ∈ views, ∀ p q,
      ¬pairLt (v, p) (w, q) → ¬pairLt (w, q) (v, p) → (v, p) = (w, q)) ↔
    ∀ v ∈ views, ∀ w ∈ views, v.data ⊆ w.data ∨ w.data ⊆ v.data := by
  constructor
  · rintro ⟨-, -, -, heq, -⟩ v hv w hw
    by_contra hne
    rw [not_or] at hne
    obtain rfl := heq v hv w hw ⟨fun h => hne.1 h.2, fun h => hne.2 h.2⟩
    exact hne.1 (Finset.Subset.refl _)
  · intro hcomparable
    refine ⟨fun v _ h => h.1 rfl, fun u _ v _ w _ => View.lt_trans, fun u hu v hv w _ huv hvw => ?_,
      fun v hv w hw => eq_of_equivalent (hcomparable v hv w hw), fun v hv w hw p q hpq hqp => ?_⟩
    · rw [eq_of_equivalent (hcomparable u hu v hv) huv]
      exact hvw
    · rw [pairLt, not_or] at hpq hqp
      obtain rfl := eq_of_equivalent (hcomparable v hv w hw) ⟨hpq.1, hqp.1⟩
      have hp : ¬p < q := fun h => hpq.2 ⟨hqp.1, h⟩
      have hq : ¬q < p := fun h => hqp.2 ⟨hpq.1, h⟩
      rw [le_antisymm (not_lt.mp hq) (not_lt.mp hp)]

end

theorem lt_strictWeakOrder_grown : View.equivalent ⟨{1}⟩ ⟨{1, 2}⟩ → (⟨{1}⟩ : View) = ⟨{1, 2}⟩ := by
  have h := (@lt_strictWeakOrder_iff {⟨{1}⟩, ⟨{1, 2}⟩}).mpr (by rintro v (rfl | rfl) w (rfl | rfl) <;> decide)
  exact h.2.2.2.1 _ (by simp) _ (by simp)

theorem equivalent_views_differ :
    View.equivalent ⟨{1}⟩ ⟨{2}⟩ ∧ View.equivalent ⟨{2}⟩ ⟨{1, 3}⟩ ∧ ¬View.equivalent ⟨{1}⟩ ⟨{1, 3}⟩ := by
  decide

@[simp] lemma isMember_iff {v : View} {p : ProcessId} : v.isMember p ↔ p ∈ v.data := Iff.rfl

end View

lemma maxInvalidProcesses_of_pos {n : ℕ} (h : 0 < n) : maxInvalidProcesses n = (n - 1) / 3 := by
  rw [maxInvalidProcesses, sizeSub_of_le h]

lemma quorumSize_of_pos {n : ℕ} (h : 0 < n) : quorumSize n = n - (n - 1) / 3 := by
  rw [quorumSize, sizeSub_of_le h, sizeSub_of_le (by omega)]

lemma quorumSize_pos {n : ℕ} : 0 < quorumSize n := by
  rcases Nat.eq_zero_or_pos n with rfl | hn
  · decide
  · rw [quorumSize_of_pos hn]
    omega

theorem View.quorum_intersection {v : View} {A B correct : Finset ProcessId} (hv : v.data.Nonempty)
    (hA : A ⊆ v.data) (hB : B ⊆ v.data) (hqA : v.quorumSize ≤ A.card) (hqB : v.quorumSize ≤ B.card)
    (hf : (v.data \ correct).card ≤ maxInvalidProcesses v.data.card) : ∃ p ∈ A, p ∈ B ∧ p ∈ correct := by
  have hpos : 0 < v.data.card := Finset.card_pos.mpr hv
  rw [maxInvalidProcesses_of_pos hpos] at hf
  rw [View.quorumSize, quorumSize_of_pos hpos] at hqA hqB
  apply Quorums.exists_mem_inter_mem hA hB
  omega

end XpxChain.Dbrb
