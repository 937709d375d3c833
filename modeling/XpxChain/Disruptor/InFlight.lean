import XpxChain.Disruptor.Positions

/-! The elements that are still being worked on stay in their slots. -/

namespace XpxChain.Disruptor

open Library

lemma eq_of_mod_eq {q q' size : ℕ} (h : q % size = q' % size) (hle : q ≤ q') (hlt : q' < q + size) : q = q' := by
  have hdvd : size ∣ q' - q := Nat.dvd_of_mod_eq_zero (Nat.sub_mod_eq_zero_of_mod_eq h.symm)
  have hz := Nat.eq_zero_of_dvd_of_lt hdvd (by omega)
  omega

variable {ι : Type}

def Stage.Returned : Stage → Prop
  | .marking _ | .advancing => True
  | _ => False

namespace ConsumerDispatcher

variable {o : Options ι} {s s' : ConsumerDispatcher ι} {level k q q' : ℕ}

def InFlight (s : ConsumerDispatcher ι) (q : ℕ) : Prop := s.completed.length ≤ q ∧ q < s.allElementsCount

namespace Positioned

variable (h : s.Positioned o)
include h

lemma count_le : s.allElementsCount ≤ o.disruptorSize + s.completed.length := by
  have hr := h.room
  have hd := h.completed_length
  have hle : (s.stage o.lastLevel).uncompleted ≤ 1 := by
    cases s.stage o.lastLevel <;> simp [Stage.uncompleted]
  omega

lemma inFlight_inj (hq : s.InFlight q) (hq' : s.InFlight q')
    (hmod : q % o.disruptorSize = q' % o.disruptorSize) : q = q' := by
  have hcnt := h.count_le
  obtain ⟨hq₁, hq₂⟩ := hq
  obtain ⟨hq'₁, hq'₂⟩ := hq'
  rcases Nat.le_total q q' with hle | hle
  · exact eq_of_mod_eq hmod hle (by omega)
  · exact (eq_of_mod_eq hmod.symm hle (by omega)).symm

lemma mod_ne_of_adding {input : ι} (ha : s.adder = .adding input) (hq : s.InFlight q) :
    q % o.disruptorSize ≠ s.allElementsCount % o.disruptorSize := by
  intro hmod
  have hr := h.hasRoom
  rw [ha] at hr
  simp only [AdderStage.HasRoom] at hr
  have hd := h.completed_length
  have hle : (s.stage o.lastLevel).uncompleted ≤ 1 := by
    cases s.stage o.lastLevel <;> simp [Stage.uncompleted]
  obtain ⟨hq₁, hq₂⟩ := hq
  exact absurd (eq_of_mod_eq hmod hq₂.le (by omega)) (by omega)

lemma inFlight_position (hk : k ≤ o.lastLevel) (hlt : s.position k < s.barriers k) : s.InFlight (s.position k) :=
  ⟨h.completed_le_position hk, Nat.lt_of_lt_of_le hlt (h.barrier_le_count hk)⟩

lemma position_ne_of_lt {j k : ℕ} (hj : j ≤ o.lastLevel) (hk : k ≤ o.lastLevel) (hjk : j ≠ k)
    (hltj : s.position j < s.barriers j) (hltk : s.position k < s.barriers k) : s.position j ≠ s.position k := by
  have hba : ∀ a b, a < b → b ≤ o.lastLevel → s.barriers b ≤ s.position a := by
    intro a b hab hb
    obtain ⟨c, rfl⟩ : ∃ c, b = c + 1 := ⟨b - 1, by omega⟩
    rw [h.barrier_succ c (by omega)]
    exact h.position_antitone (by omega) (by omega)
  rcases Nat.lt_or_gt_of_ne hjk with hlt | hlt
  · have := hba j k hlt hk
    omega
  · have := hba k j hlt hj
    omega

end Positioned

variable {element : DisruptorElement ι} {input : ι}

lemma elementAt_setElement_self : (s.setElement o q element).elementAt o q = element :=
  Function.update_self _ _ _

lemma elementAt_setElement_of_ne (h : q % o.disruptorSize ≠ q' % o.disruptorSize) :
    (s.setElement o q' element).elementAt o q = s.elementAt o q :=
  Function.update_of_ne h _ _

lemma InFlight.of_pushBack (h : (s.pushBack o input).InFlight q) : s.InFlight q ∨ q = s.allElementsCount := by
  rcases Nat.lt_succ_iff_lt_or_eq.mp h.2 with hlt | heq
  · exact Or.inl ⟨h.1, hlt⟩
  · exact Or.inr heq

lemma Positioned.elementAt_pushBack (h : s.Positioned o) (ha : s.adder = .adding input) (hq : s.InFlight q) :
    (s.pushBack o input).elementAt o q = s.elementAt o q :=
  elementAt_setElement_of_ne (h.mod_ne_of_adding ha hq)

structure Stored (o : Options ι) (s : ConsumerDispatcher ι) : Prop where
  input : ∀ q, s.InFlight q → (s.elementAt o q).input = s.accepted[q]?
  id : ∀ q, s.InFlight q → (s.elementAt o q).id = q + 1

namespace Stored

lemma congr (h : s.Stored o) (hcr : s'.container = s.container) (hacc : s'.accepted = s.accepted)
    (hcnt : s'.allElementsCount = s.allElementsCount)
    (hd : s.completed.length ≤ s'.completed.length) : s'.Stored o := by
  have hf : ∀ q, s'.InFlight q → s.InFlight q := fun q hq => ⟨hd.trans hq.1, hcnt ▸ hq.2⟩
  constructor
  · intro q hq
    rw [hacc, elementAt, hcr]
    exact h.input q (hf q hq)
  · intro q hq
    rw [elementAt, hcr]
    exact h.id q (hf q hq)

lemma setElement (h : s.Stored o) (hpos : s.Positioned o) (hq' : s.InFlight q')
    (hi : element.input = (s.elementAt o q').input) (hid : element.id = (s.elementAt o q').id) :
    (s.setElement o q' element).Stored o := by
  have hs : ∀ q, s.InFlight q → ((s.setElement o q' element).elementAt o q).input = (s.elementAt o q).input ∧
      ((s.setElement o q' element).elementAt o q).id = (s.elementAt o q).id := by
    intro q hq
    by_cases hmod : q % o.disruptorSize = q' % o.disruptorSize
    · obtain rfl := hpos.inFlight_inj hq hq' hmod
      rw [elementAt_setElement_self]
      exact ⟨hi, hid⟩
    · rw [elementAt_setElement_of_ne hmod]
      exact ⟨rfl, rfl⟩
  exact ⟨fun q hq => (hs q hq).1.trans (h.input q hq), fun q hq => (hs q hq).2.trans (h.id q hq)⟩

lemma pushBack (h : s.Stored o) (hpos : s.Positioned o) {input : ι} (ha : s.adder = .adding input) :
    (s.pushBack o input).Stored o := by
  have hnew : (s.pushBack o input).elementAt o s.allElementsCount =
      { input := some input, id := s.allElementsCount + 1 } :=
    elementAt_setElement_self
  constructor
  · intro q hq
    rcases hq.of_pushBack with hq | rfl
    · rw [hpos.elementAt_pushBack ha hq, h.input q hq]
      exact (List.getElem?_append_left (by rw [hpos.accepted_length]; exact hq.2)).symm
    · rw [hnew]
      change some input = (s.accepted ++ [input])[s.allElementsCount]?
      rw [← hpos.accepted_length, List.getElem?_concat_length]
  · intro q hq
    rcases hq.of_pushBack with hq | rfl
    · rw [hpos.elementAt_pushBack ha hq, h.id q hq]
    · rw [hnew]

end Stored

end ConsumerDispatcher

end XpxChain.Disruptor
