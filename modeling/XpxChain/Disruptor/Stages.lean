import XpxChain.Disruptor.Dispatcher

/-! How far the threads of a dispatcher are in handling an element. -/

namespace XpxChain.Disruptor

open Library

variable {ι : Type}

namespace AdderStage

def behind : AdderStage ι → ℕ
  | .advancing => 1
  | _ => 0

def counted : AdderStage ι → ℕ
  | .adding _ => 1
  | _ => 0

def HasRoom (size count last : ℕ) : AdderStage ι → Prop
  | .readMin _ minPosition => minPosition ≤ last
  | .accepting _ | .adding _ => count + 2 ≤ size + last
  | _ => True

lemma HasRoom.mono {size count last last' : ℕ} {stage : AdderStage ι} (h : stage.HasRoom size count last)
    (hle : last ≤ last') : stage.HasRoom size count last' := by
  cases stage with
  | readMin input minPosition => exact le_trans h hle
  | accepting input | adding input => exact le_trans h (Nat.add_le_add_left hle _)
  | unlocked | locked input | advancing | unlocking => trivial

end AdderStage

namespace Stage

def uninspected : Stage → ℕ
  | .inspecting _ => 1
  | _ => 0

def uncompleted : Stage → ℕ
  | .inspecting _ | .completing _ | .leaving _ _ => 1
  | _ => 0

def Fits (isLast : Prop) (barrier position : ℕ) : Stage → Prop
  | .reading => True
  | .comparing barrierPosition => position ≤ barrierPosition ∧ barrierPosition ≤ barrier
  | .consuming | .marking _ | .advancing => position < barrier
  | .inspecting passed | .completing passed => isLast ∧ passed + 1 = position
  | .leaving _ _ => isLast

lemma Fits.mono {isLast : Prop} {barrier barrier' position : ℕ} {stage : Stage} (h : stage.Fits isLast barrier position)
    (hle : barrier ≤ barrier') : stage.Fits isLast barrier' position := by
  cases stage with
  | reading => trivial
  | comparing barrierPosition => exact ⟨h.1, h.2.trans hle⟩
  | consuming | marking code | advancing => exact Nat.lt_of_lt_of_le h hle
  | inspecting passed | completing passed | leaving id result => exact h

end Stage

namespace ConsumerDispatcher

variable (o : Options ι) (s : ConsumerDispatcher ι)

structure Positioned : Prop where
  barrier_succ : ∀ k ≤ o.lastLevel, s.barriers (k + 1) = s.position k
  barrier_zero : s.barriers 0 + s.adder.behind = s.allElementsCount
  accepted_length : s.accepted.length = s.allElementsCount
  position_le : ∀ k ≤ o.lastLevel, s.position k ≤ s.barriers k
  fits : ∀ k ≤ o.lastLevel, (s.stage k).Fits (k = o.lastLevel) (s.barriers k) (s.position k)
  inspected_length : s.inspected.length + (s.stage o.lastLevel).uninspected = s.position o.lastLevel
  completed_length : s.completed.length + (s.stage o.lastLevel).uncompleted = s.position o.lastLevel
  room : s.allElementsCount + 1 ≤ o.disruptorSize + s.position o.lastLevel
  hasRoom : s.adder.HasRoom o.disruptorSize s.allElementsCount (s.position o.lastLevel)
  active : s.numActiveElements + s.completed.length = s.allElementsCount + s.adder.counted

section

variable {s} {level k : ℕ} {stage : Stage} {input : ι}

@[simp] lemma position_setStage : (s.setStage level stage).position k = s.position k := by
  by_cases h : k = level
  · subst h
    simp [position, setStage]
  · simp [position, setStage, h]

@[simp] lemma stage_setStage_self : (s.setStage level stage).stage level = stage := by
  simp [ConsumerDispatcher.stage, setStage]

lemma stage_setStage_of_ne (h : k ≠ level) : (s.setStage level stage).stage k = s.stage k := by
  simp [ConsumerDispatcher.stage, setStage, h]

lemma stage_setStage : (s.setStage level stage).stage k = if k = level then stage else s.stage k := by
  by_cases h : k = level
  · rw [if_pos h, h, stage_setStage_self]
  · rw [if_neg h, stage_setStage_of_ne h]

lemma position_advance : (((s.advancePosition level).advanceBarrier (level + 1)).setStage level stage).position k =
    if k = level then s.position k + 1 else s.position k := by
  rw [position_setStage]
  by_cases h : k = level
  · subst h
    simp [position, advanceBarrier, advancePosition]
  · simp [position, advanceBarrier, advancePosition, h]

lemma stage_advance : (((s.advancePosition level).advanceBarrier (level + 1)).setStage level stage).stage k =
    if k = level then stage else s.stage k := by
  by_cases h : k = level
  · subst h
    simp [ConsumerDispatcher.stage, setStage]
  · simp [ConsumerDispatcher.stage, setStage, advanceBarrier, advancePosition, h]

lemma barriers_advanceBarrier_of_ne (h : k ≠ level) : (s.advanceBarrier level).barriers k = s.barriers k := by
  simp [advanceBarrier, h]

lemma barrier_le_advanceBarrier (s : ConsumerDispatcher ι) (level k : ℕ) :
    s.barriers k ≤ (s.advanceBarrier level).barriers k := by
  by_cases h : k = level
  · subst h
    simp [advanceBarrier]
  · simp [advanceBarrier, h]

end

lemma positioned_start : ({} : ConsumerDispatcher ι).Positioned o where
  barrier_succ _ _ := rfl
  barrier_zero := rfl
  accepted_length := rfl
  position_le _ _ := le_rfl
  fits _ _ := trivial
  inspected_length := rfl
  completed_length := rfl
  room := o.disruptorSize_pos
  hasRoom := trivial
  active := rfl

end ConsumerDispatcher

end XpxChain.Disruptor
