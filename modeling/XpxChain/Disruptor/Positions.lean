import XpxChain.Disruptor.Stages

/-! Where the threads of a dispatcher are relative to one another. -/

namespace XpxChain.Disruptor

open Library

variable {ι : Type}

namespace ConsumerDispatcher

variable (o : Options ι) (s : ConsumerDispatcher ι)

namespace Positioned

variable {o} {s} (h : s.Positioned o)
include h

variable {k level position : ℕ} {element : DisruptorElement ι}

lemma position_antitone {j : ℕ} (hjk : j ≤ k) (hk : k ≤ o.lastLevel) : s.position k ≤ s.position j := by
  induction k, hjk using Nat.le_induction with
  | base => exact le_rfl
  | succ k hjk ih =>
    have hle := h.position_le (k + 1) hk
    rw [h.barrier_succ k (by omega)] at hle
    exact hle.trans (ih (by omega))

lemma barrier_le_count (hk : k ≤ o.lastLevel) : s.barriers k ≤ s.allElementsCount := by
  have hz : s.barriers 0 ≤ s.allElementsCount := by
    rw [← h.barrier_zero]
    exact Nat.le_add_right _ _
  cases k with
  | zero => exact hz
  | succ k =>
    rw [h.barrier_succ k (by omega)]
    exact ((h.position_antitone (Nat.zero_le k) (by omega)).trans (h.position_le 0 (Nat.zero_le _))).trans hz

lemma position_le_count (hk : k ≤ o.lastLevel) : s.position k ≤ s.allElementsCount :=
  (h.position_le k hk).trans (h.barrier_le_count hk)

lemma completed_le_position (hk : k ≤ o.lastLevel) : s.completed.length ≤ s.position k := by
  have hl := h.completed_length
  have hle := h.position_antitone hk le_rfl
  omega

lemma setStage (hl : level ≤ o.lastLevel) {old stage : Stage} (hst : s.stage level = old)
    (hf : stage.Fits (level = o.lastLevel) (s.barriers level) (s.position level))
    (hi : stage.uninspected = old.uninspected) (hd : stage.uncompleted = old.uncompleted) :
    (s.setStage level stage).Positioned o :=
  { h with
    barrier_succ k hk := by rw [position_setStage]; exact h.barrier_succ k hk
    position_le k hk := by rw [position_setStage]; exact h.position_le k hk
    fits k hk := by
      rw [position_setStage, stage_setStage]
      split_ifs with hkl
      · subst hkl
        exact hf
      · exact h.fits k hk
    inspected_length := by
      rw [position_setStage, stage_setStage]
      split_ifs with hkl
      · rw [hi, ← hst, ← hkl]
        exact h.inspected_length
      · exact h.inspected_length
    completed_length := by
      rw [position_setStage, stage_setStage]
      split_ifs with hkl
      · rw [hd, ← hst, ← hkl]
        exact h.completed_length
      · exact h.completed_length
    room := by rw [position_setStage]; exact h.room
    hasRoom := by rw [position_setStage]; exact h.hasRoom }

lemma setAdder {old stage : AdderStage ι} (ha : s.adder = old) (hb : stage.behind = old.behind)
    (hc : stage.counted = old.counted)
    (hr : stage.HasRoom o.disruptorSize s.allElementsCount (s.position o.lastLevel)) :
    (s.setAdder stage).Positioned o :=
  { h with
    barrier_zero := (congrArg (s.barriers 0 + ·) (ha ▸ hb)).trans h.barrier_zero
    hasRoom := hr
    active := h.active.trans (congrArg (s.allElementsCount + ·) (ha ▸ hc.symm)) }

lemma recordFinished {result : ConsumerResult} : (s.recordFinished level result).Positioned o :=
  { h with }

lemma setElement : (s.setElement o position element).Positioned o :=
  { h with }

lemma processElement (input : ι) : (s.processElement o input).Positioned o := by
  rw [ConsumerDispatcher.processElement]
  split
  · rename_i ha
    split_ifs
    · exact h
    · exact h.setAdder ha rfl rfl trivial
  · exact h

lemma pushBack {input : ι} (ha : s.adder = .adding input) : ((s.pushBack o input).setAdder .advancing).Positioned o :=
  { h with
    barrier_zero := by
      have := h.barrier_zero
      rw [ha] at this
      exact congrArg (· + 1) this
    accepted_length := by
      simp [ConsumerDispatcher.pushBack, ConsumerDispatcher.setAdder, ConsumerDispatcher.setElement, h.accepted_length]
    room := by
      have := h.hasRoom
      rw [ha] at this
      exact this
    hasRoom := trivial
    active := by
      have := h.active
      rw [ha] at this
      exact this }

lemma advanceBarrierZero (ha : s.adder = .advancing) : ((s.advanceBarrier 0).setAdder .unlocking).Positioned o :=
  { h with
    barrier_succ k hk := (barriers_advanceBarrier_of_ne (Nat.succ_ne_zero k)).trans (h.barrier_succ k hk)
    barrier_zero := by
      have := h.barrier_zero
      rw [ha] at this
      simpa [ConsumerDispatcher.advanceBarrier, ConsumerDispatcher.setAdder, AdderStage.behind] using this
    position_le k hk := (h.position_le k hk).trans (s.barrier_le_advanceBarrier 0 k)
    fits k hk := (h.fits k hk).mono (s.barrier_le_advanceBarrier 0 k)
    hasRoom := trivial
    active := by
      have := h.active
      rw [ha] at this
      exact this }

lemma add : (s.add o).Positioned o := by
  have hr := h.hasRoom
  have hact := h.active
  rw [ConsumerDispatcher.add]
  split
  · exact h
  · rename_i input ha
    refine h.setAdder ha rfl rfl ?_
    exact (h.barrier_succ o.lastLevel le_rfl).le
  · rename_i input minPosition ha
    rw [ha] at hr
    split_ifs with hcan
    · refine h.setAdder ha rfl rfl ?_
      have hz := h.barrier_zero
      rw [ha] at hz
      have hle : s.position o.lastLevel ≤ s.barriers 0 :=
        (h.position_antitone (Nat.zero_le _) le_rfl).trans (h.position_le 0 (Nat.zero_le _))
      rw [canProcessNextElement, sizeSub_of_le (hr.trans hle)] at hcan
      simp only [AdderStage.HasRoom, AdderStage.behind] at hr hz ⊢
      omega
    · exact h.setAdder ha rfl rfl trivial
  · rename_i input ha
    rw [ha] at hr hact
    refine { h with barrier_zero := ?_, hasRoom := hr, active := ?_ }
    · have hz := h.barrier_zero
      rw [ha] at hz
      exact hz
    · simp only [ConsumerDispatcher.setAdder, AdderStage.counted] at hact ⊢
      omega
  · rename_i input ha
    exact h.pushBack ha
  · rename_i ha
    exact h.advanceBarrierZero ha
  · rename_i ha
    exact h.setAdder ha rfl rfl trivial

lemma advance (hl : level ≤ o.lastLevel) (hst : s.stage level = .advancing) :
    (((s.advancePosition level).advanceBarrier (level + 1)).setStage level
      (if level = o.lastLevel then .inspecting (s.position level) else .reading)).Positioned o := by
  have hf := h.fits level hl
  rw [hst] at hf
  generalize hnew : (if level = o.lastLevel then Stage.inspecting (s.position level) else .reading) = new
  have hla : s.position o.lastLevel ≤
      (if o.lastLevel = level then s.position o.lastLevel + 1 else s.position o.lastLevel) := by
    split_ifs
    · exact Nat.le_succ _
    · exact le_rfl
  refine ⟨?_, h.barrier_zero, h.accepted_length, ?_, ?_, ?_, ?_, ?_, ?_, h.active⟩
  · intro k hk
    rw [position_advance]
    by_cases hkl : k = level
    · subst hkl
      rw [if_pos rfl, ← h.barrier_succ k hk]
      exact Function.update_self _ _ _
    · rw [if_neg hkl, ← h.barrier_succ k hk]
      exact barriers_advanceBarrier_of_ne (by omega)
  · intro k hk
    rw [position_advance]
    by_cases hkl : k = level
    · subst hkl
      rw [if_pos rfl]
      exact le_trans hf ((s.advancePosition k).barrier_le_advanceBarrier (k + 1) k)
    · rw [if_neg hkl]
      exact (h.position_le k hk).trans ((s.advancePosition level).barrier_le_advanceBarrier (level + 1) k)
  · intro k hk
    rw [position_advance, stage_advance]
    by_cases hkl : k = level
    · subst hkl
      rw [if_pos rfl, if_pos rfl, ← hnew]
      split_ifs with hkl
      · exact ⟨hkl, rfl⟩
      · trivial
    · rw [if_neg hkl, if_neg hkl]
      exact (h.fits k hk).mono ((s.advancePosition level).barrier_le_advanceBarrier (level + 1) k)
  · rw [position_advance, stage_advance]
    have hlen := h.inspected_length
    by_cases hkl : o.lastLevel = level
    · subst hkl
      rw [hst] at hlen
      rw [if_pos rfl, if_pos rfl, ← hnew, if_pos rfl]
      exact congrArg (· + 1) hlen
    · rw [if_neg hkl, if_neg hkl]
      exact hlen
  · rw [position_advance, stage_advance]
    have hlen := h.completed_length
    by_cases hkl : o.lastLevel = level
    · subst hkl
      rw [hst] at hlen
      rw [if_pos rfl, if_pos rfl, ← hnew, if_pos rfl]
      exact congrArg (· + 1) hlen
    · rw [if_neg hkl, if_neg hkl]
      exact hlen
  · rw [position_advance]
    exact h.room.trans (Nat.add_le_add_left hla _)
  · rw [position_advance]
    exact h.hasRoom.mono hla

lemma setLastStage {stage : Stage} {inspected : List (Option ι × ConsumerCompletionResult)}
    {completed : List (ℕ × ConsumerCompletionResult)} {active : ℕ}
    (hf : stage.Fits (o.lastLevel = o.lastLevel) (s.barriers o.lastLevel) (s.position o.lastLevel))
    (hi : inspected.length + stage.uninspected = s.position o.lastLevel)
    (hd : completed.length + stage.uncompleted = s.position o.lastLevel)
    (hact : active + completed.length = s.allElementsCount + s.adder.counted) :
    (({ s with inspected, completed, numActiveElements := active } : ConsumerDispatcher ι).setStage o.lastLevel
      stage).Positioned o :=
  { h with
    barrier_succ k hk := by rw [position_setStage]; exact h.barrier_succ k hk
    position_le k hk := by rw [position_setStage]; exact h.position_le k hk
    fits k hk := by
      rw [position_setStage, stage_setStage]
      split_ifs with hkl
      · subst hkl
        exact hf
      · exact h.fits k hk
    inspected_length := by rw [position_setStage, stage_setStage_self]; exact hi
    completed_length := by rw [position_setStage, stage_setStage_self]; exact hd
    room := by rw [position_setStage]; exact h.room
    hasRoom := by rw [position_setStage]; exact h.hasRoom
    active := hact }

lemma inspect (hl : level ≤ o.lastLevel) (hst : s.stage level = .inspecting position) :
    ((s.recordInspected element).setStage level (.completing position)).Positioned o := by
  have hf := h.fits level hl
  rw [hst] at hf
  obtain ⟨rfl, hp⟩ := hf
  have hi := h.inspected_length
  have hd := h.completed_length
  rw [hst] at hi hd
  refine h.setLastStage ⟨rfl, hp⟩ ?_ hd h.active
  rw [List.length_append]
  exact hi

lemma leave {id : ℕ} {result : ConsumerCompletionResult} (hl : level ≤ o.lastLevel)
    (hst : s.stage level = .leaving id result) :
    ((s.recordCompleted id result).setStage level .reading).Positioned o := by
  have hf := h.fits level hl
  rw [hst] at hf
  obtain rfl : level = o.lastLevel := hf
  have hi := h.inspected_length
  have hd := h.completed_length
  have hact := h.active
  have hcnt := h.position_le_count le_rfl
  rw [hst] at hi hd
  simp only [Stage.uncompleted] at hd
  have hlen : (s.completed ++ [(id, result)]).length = s.completed.length + 1 := List.length_append
  refine h.setLastStage trivial hi (hlen.trans hd) ?_
  rw [hlen]
  omega

lemma consume (hl : level ≤ o.lastLevel) (result : ConsumerResult) : (s.consume o level result).Positioned o := by
  have hf := h.fits level hl
  cases hst : s.stage level with
  | reading =>
    simp only [ConsumerDispatcher.consume, hst]
    exact h.setStage hl hst ⟨h.position_le level hl, le_rfl⟩ rfl rfl
  | comparing barrierPosition =>
    rw [hst] at hf
    simp only [ConsumerDispatcher.consume, hst]
    split_ifs with heq hs
    · exact h.setStage hl hst trivial rfl rfl
    · exact h.setStage hl hst (Nat.lt_of_lt_of_le (Nat.lt_of_le_of_ne hf.1 heq) hf.2) rfl rfl
    · exact h.setStage hl hst (Nat.lt_of_lt_of_le (Nat.lt_of_le_of_ne hf.1 heq) hf.2) rfl rfl
  | consuming =>
    rw [hst] at hf
    simp only [ConsumerDispatcher.consume, hst]
    split_ifs with habt
    · exact h.recordFinished.setStage hl hst hf rfl rfl
    · exact h.recordFinished.setStage hl hst hf rfl rfl
  | marking code =>
    rw [hst] at hf
    simp only [ConsumerDispatcher.consume, hst]
    exact h.setElement.setStage hl hst hf rfl rfl
  | advancing =>
    simp only [ConsumerDispatcher.consume, hst]
    exact h.advance hl hst
  | inspecting position =>
    simp only [ConsumerDispatcher.consume, hst]
    exact h.inspect hl hst
  | completing position =>
    rw [hst] at hf
    simp only [ConsumerDispatcher.consume, hst]
    exact h.setStage hl hst hf.1 rfl rfl
  | leaving id result =>
    simp only [ConsumerDispatcher.consume, hst]
    exact h.leave hl hst

end Positioned

end ConsumerDispatcher

end XpxChain.Disruptor
