import XpxChain.Types
import XpxChain.Library.FairRuns

/-! The consumer dispatcher: a ring of elements that a chain of consumer threads works through, one after the other. -/

namespace XpxChain.Disruptor

open Library

inductive CompletionStatus
  | aborted
  | normal
  | consumed
deriving DecidableEq

structure ConsumerResult where
  completionStatus : CompletionStatus
  completionCode : ℕ
deriving DecidableEq

structure ConsumerCompletionResult where
  completionStatus : CompletionStatus := .normal
  completionCode : ℕ := 0
  finalConsumerPosition : ℕ := 2 ^ 64 - 1
deriving DecidableEq

structure DisruptorElement (ι : Type) where
  input : Option ι := none
  id : ℕ := 2 ^ 64 - 1
  result : ConsumerCompletionResult := {}
deriving DecidableEq

namespace DisruptorElement

variable {ι : Type}

def isSkipped (element : DisruptorElement ι) : Prop := element.result.completionStatus = .aborted
deriving Decidable

def markSkipped (element : DisruptorElement ι) (position code : ℕ) : DisruptorElement ι :=
  { element with result := ⟨.aborted, code, position⟩ }

end DisruptorElement

/-- The consumers have the levels from zero to `lastLevel`, so there is at least one of them. -/
structure Options (ι : Type) where
  disruptorSize : ℕ
  disruptorSize_pos : 0 < disruptorSize
  lastLevel : ℕ
  isEmpty : ι → Bool

inductive AdderStage (ι : Type)
  | unlocked
  | locked (input : ι)
  | readMin (input : ι) (minPosition : ℕ)
  | accepting (input : ι)
  | adding (input : ι)
  | advancing
  | unlocking
deriving DecidableEq

inductive Stage
  | reading
  | comparing (barrierPosition : ℕ)
  | consuming
  | marking (code : ℕ)
  | advancing
  | inspecting (position : ℕ)
  | completing (position : ℕ)
  | leaving (id : ℕ) (result : ConsumerCompletionResult)
deriving DecidableEq

structure ConsumerThread where
  stage : Stage := .reading
  position : ℕ := 0
deriving DecidableEq

/-- The last four fields only record what has happened: the accepted inputs, what each consumer returned for which
position, what the inspector saw and what the completion handlers got, each when it has returned. -/
structure ConsumerDispatcher (ι : Type) where
  barriers : ℕ → ℕ := fun _ => 0
  container : ℕ → DisruptorElement ι := fun _ => {}
  allElementsCount : ℕ := 0
  numActiveElements : ℕ := 0
  adder : AdderStage ι := .unlocked
  consumers : ℕ → ConsumerThread := fun _ => {}
  accepted : List ι := []
  finished : ℕ → List (ℕ × ConsumerResult) := fun _ => []
  inspected : List (Option ι × ConsumerCompletionResult) := []
  completed : List (ℕ × ConsumerCompletionResult) := []

inductive Action (ι : Type)
  | processElement (input : ι)
  | add
  | consume (level : ℕ) (result : ConsumerResult)

namespace ConsumerDispatcher

variable {ι : Type} (o : Options ι) (s : ConsumerDispatcher ι)

def elementAt (position : ℕ) : DisruptorElement ι := s.container (position % o.disruptorSize)

def setElement (position : ℕ) (element : DisruptorElement ι) : ConsumerDispatcher ι :=
  { s with container := Function.update s.container (position % o.disruptorSize) element }

def advanceBarrier (level : ℕ) : ConsumerDispatcher ι :=
  { s with barriers := Function.update s.barriers level (s.barriers level + 1) }

def setAdder (stage : AdderStage ι) : ConsumerDispatcher ι := { s with adder := stage }

def setStage (level : ℕ) (stage : Stage) : ConsumerDispatcher ι :=
  { s with consumers := Function.update s.consumers level { s.consumers level with stage } }

def advancePosition (level : ℕ) : ConsumerDispatcher ι :=
  { s with consumers :=
      Function.update s.consumers level { s.consumers level with position := (s.consumers level).position + 1 } }

def pushBack (input : ι) : ConsumerDispatcher ι :=
  { s.setElement o s.allElementsCount { input := some input, id := s.allElementsCount + 1 } with
    allElementsCount := s.allElementsCount + 1
    accepted := s.accepted ++ [input] }

def recordFinished (level : ℕ) (result : ConsumerResult) : ConsumerDispatcher ι :=
  { s with
    finished := Function.update s.finished level (s.finished level ++ [((s.consumers level).position, result)]) }

def recordInspected (element : DisruptorElement ι) : ConsumerDispatcher ι :=
  { s with inspected := s.inspected ++ [(element.input, element.result)] }

def recordCompleted (id : ℕ) (result : ConsumerCompletionResult) : ConsumerDispatcher ι :=
  { s with
    numActiveElements := s.numActiveElements - 1
    completed := s.completed ++ [(id, result)] }

def canProcessNextElement (minPosition maxPosition : ℕ) : Prop :=
  sizeSub maxPosition minPosition + 1 + 1 ≤ o.disruptorSize
deriving Decidable

def processElement (input : ι) : ConsumerDispatcher ι :=
  match s.adder with
  | .unlocked => if o.isEmpty input then s else s.setAdder (.locked input)
  | _ => s

def add : ConsumerDispatcher ι :=
  match s.adder with
  | .unlocked => s
  | .locked input => s.setAdder (.readMin input (s.barriers (o.lastLevel + 1)))
  | .readMin input minPosition =>
    if canProcessNextElement o minPosition (s.barriers 0) then s.setAdder (.accepting input)
    else s.setAdder .unlocking
  | .accepting input => { s with numActiveElements := s.numActiveElements + 1 }.setAdder (.adding input)
  | .adding input => (s.pushBack o input).setAdder .advancing
  | .advancing => (s.advanceBarrier 0).setAdder .unlocking
  | .unlocking => s.setAdder .unlocked

def position (level : ℕ) : ℕ := (s.consumers level).position

def stage (level : ℕ) : Stage := (s.consumers level).stage

def consume (level : ℕ) (result : ConsumerResult) : ConsumerDispatcher ι :=
  match s.stage level with
  | .reading => s.setStage level (.comparing (s.barriers level))
  | .comparing barrierPosition =>
    if s.position level = barrierPosition then s.setStage level .reading
    else if (s.elementAt o (s.position level)).isSkipped then s.setStage level .advancing
    else s.setStage level .consuming
  | .consuming =>
    if result.completionStatus =
      .aborted then (s.recordFinished level result).setStage level (.marking result.completionCode)
    else (s.recordFinished level result).setStage level .advancing
  | .marking code =>
    (s.setElement o (s.position level)
      ((s.elementAt o (s.position level)).markSkipped (s.position level) code)).setStage level .advancing
  | .advancing =>
    ((s.advancePosition level).advanceBarrier (level + 1)).setStage level
      (if level = o.lastLevel then .inspecting (s.position level) else .reading)
  | .inspecting position => (s.recordInspected (s.elementAt o position)).setStage level (.completing position)
  | .completing position => s.setStage level (.leaving (s.elementAt o position).id (s.elementAt o position).result)
  | .leaving id result => (s.recordCompleted id result).setStage level .reading

def next : Action ι → ConsumerDispatcher ι
  | .processElement input => s.processElement o input
  | .add => s.add o
  | .consume level result => if level ≤ o.lastLevel then s.consume o level result else s

end ConsumerDispatcher

end XpxChain.Disruptor
