import XpxChain.Disruptor.Slots

/-! Every element goes through the consumers in their order and is inspected and completed once, in the order of
insertion. -/

namespace XpxChain.Disruptor

open Library Runs FairRuns List

variable {ι : Type}

namespace ConsumerDispatcher

variable {o : Options ι} {s : ConsumerDispatcher ι} {level k q : ℕ}

structure Logged (o : Options ι) (s : ConsumerDispatcher ι) : Prop where
  inspected : s.inspected.map Prod.fst = (s.accepted.take s.inspected.length).map some
  completed : s.completed.map Prod.fst = List.range' 1 s.completed.length
  leaving : ∀ id result, s.stage o.lastLevel = .leaving id result → id = s.position o.lastLevel

structure Coherent (o : Options ι) (s : ConsumerDispatcher ι) : Prop where
  positioned : s.Positioned o
  stored : s.Stored o
  clean : s.Clean o
  logged : s.Logged o

namespace Logged

section

variable (h : s.Logged o)
include h

lemma congr {s' : ConsumerDispatcher ι} (hi : s'.inspected = s.inspected)
    (hd : s'.completed = s.completed) (hacc : s'.accepted = s.accepted)
    (hcns : s'.consumers = s.consumers) : s'.Logged o := by
  constructor
  · rw [hi, hacc]
    exact h.inspected
  · rw [hd]
    exact h.completed
  · rw [stage, position, hcns]
    exact h.leaving

lemma setStage {stage : Stage}
    (hle : ∀ id result, stage = .leaving id result → level = o.lastLevel → id = s.position level) :
    (s.setStage level stage).Logged o := by
  refine ⟨h.inspected, h.completed, ?_⟩
  intro id result hst
  rw [position_setStage]
  rw [stage_setStage] at hst
  split_ifs at hst with hl
  · rw [hle id result hst hl.symm, hl]
  · exact h.leaving id result hst

lemma advance {stage : Stage} (hl : ∀ id result, stage ≠ .leaving id result) :
    (((s.advancePosition level).advanceBarrier (level + 1)).setStage level stage).Logged o := by
  refine ⟨h.inspected, h.completed, ?_⟩
  intro id result hat
  rw [stage_advance] at hat
  rw [position_advance]
  split_ifs at hat ⊢ with hle
  · exact absurd hat (hl id result)
  · exact h.leaving id result hat

lemma pushBack (hpos : s.Positioned o) {input : ι} : (s.pushBack o input).Logged o := by
  refine ⟨?_, h.completed, h.leaving⟩
  change s.inspected.map Prod.fst = ((s.accepted ++ [input]).take s.inspected.length).map some
  have hlen := hpos.inspected_length
  have hcnt := hpos.position_le_count le_rfl
  rw [take_append_of_le_length (by rw [hpos.accepted_length]; omega)]
  exact h.inspected

lemma inspect (hpos : s.Positioned o) (hs : s.Stored o) {position : ℕ}
    (hst : s.stage o.lastLevel = .inspecting position) : (s.recordInspected (s.elementAt o position)).Logged o := by
  have hfi := hpos.fits o.lastLevel le_rfl
  have hi := hpos.inspected_length
  have hd := hpos.completed_length
  have hcnt := hpos.position_le_count le_rfl
  rw [hst] at hfi hi hd
  simp only [Stage.uninspected, Stage.uncompleted] at hi hd
  obtain ⟨-, hp⟩ := hfi
  obtain rfl : position = s.inspected.length := by omega
  have hf : s.InFlight s.inspected.length := ⟨by omega, by omega⟩
  have hlt : s.inspected.length < s.accepted.length := by
    rw [hpos.accepted_length]
    exact hf.2
  refine ⟨?_, h.completed, h.leaving⟩
  change (s.inspected ++ [_]).map Prod.fst = (s.accepted.take (s.inspected ++ [_]).length).map some
  rw [map_append, length_append, length_singleton, take_succ_eq_append_getElem hlt, map_append,
    h.inspected, map_singleton, map_singleton, hs.input _ hf, getElem?_eq_getElem hlt]

lemma leave (hpos : s.Positioned o) {id : ℕ} {result : ConsumerCompletionResult}
    (hst : s.stage o.lastLevel = .leaving id result) : (s.recordCompleted id result).Logged o := by
  have hd := hpos.completed_length
  rw [hst] at hd
  refine ⟨h.inspected, ?_, h.leaving⟩
  change (s.completed ++ [(id, result)]).map Prod.fst = range' 1 (s.completed ++ [(id, result)]).length
  rw [map_append, length_append, length_singleton, range'_concat, h.completed, map_singleton,
    h.leaving id result hst, ← hd]
  simp [Stage.uncompleted, Nat.add_comm]

end

end Logged

namespace Coherent

lemma start : ({} : ConsumerDispatcher ι).Coherent o where
  positioned := positioned_start o
  stored := ⟨fun q hq => absurd hq.2 (Nat.not_lt_zero q), fun q hq => absurd hq.2 (Nat.not_lt_zero q)⟩
  clean := by
    refine ⟨?_, ?_, ?_, ?_⟩
    · intro k hk entry hent
      exact absurd hent not_mem_nil
    · intro q hq
      exact absurd hq.2 (Nat.not_lt_zero q)
    · intro q hq
      exact absurd hq.2 (Nat.not_lt_zero q)
    · intro k hk hst
      cases hst
  logged := ⟨rfl, rfl, fun id result hst => by cases hst⟩

variable (h : s.Coherent o)
include h

lemma of_positioned {s' : ConsumerDispatcher ι} (hpos : s'.Positioned o) (hcr : s'.container = s.container)
    (hcnt : s'.allElementsCount = s.allElementsCount) (hcns : s'.consumers = s.consumers)
    (hacc : s'.accepted = s.accepted) (hfin : s'.finished = s.finished) (hi : s'.inspected = s.inspected)
    (hd : s'.completed = s.completed) : s'.Coherent o where
  positioned := hpos
  stored := h.stored.congr hcr hacc hcnt (by rw [hd])
  clean := h.clean.congr hcr hfin hcns hcnt (by rw [hd])
  logged := h.logged.congr hi hd hacc hcns

lemma processElement (input : ι) : (s.processElement o input).Coherent o := by
  have hpos := h.positioned.processElement input
  rw [ConsumerDispatcher.processElement] at hpos ⊢
  split at hpos
  · split_ifs at hpos ⊢
    · exact h
    · exact h.of_positioned hpos rfl rfl rfl rfl rfl rfl rfl
  · exact h

lemma pushBack {input : ι} (ha : s.adder = .adding input) : ((s.pushBack o input).setAdder .advancing).Coherent o where
  positioned := h.positioned.pushBack ha
  stored := (h.stored.pushBack h.positioned ha).congr rfl rfl rfl le_rfl
  clean := (h.clean.pushBack h.positioned ha).congr rfl rfl rfl rfl le_rfl
  logged := (h.logged.pushBack h.positioned).congr rfl rfl rfl rfl

lemma add : (s.add o).Coherent o := by
  have hpos := h.positioned.add
  cases ha : s.adder with
  | adding input =>
    simp only [ConsumerDispatcher.add, ha]
    exact h.pushBack ha
  | readMin input minPosition =>
    simp only [ConsumerDispatcher.add, ha] at hpos ⊢
    split_ifs at hpos ⊢
    · exact h.of_positioned hpos rfl rfl rfl rfl rfl rfl rfl
    · exact h.of_positioned hpos rfl rfl rfl rfl rfl rfl rfl
  | unlocked | locked input | accepting input | advancing | unlocking =>
    simp only [ConsumerDispatcher.add, ha] at hpos ⊢
    exact h.of_positioned hpos rfl rfl rfl rfl rfl rfl rfl

lemma setStage {stage : Stage} (hpos : (s.setStage level stage).Positioned o) (hold : ¬(s.stage level).Returned)
    (ha : stage = .advancing → (s.elementAt o (s.position level)).isSkipped)
    (hc : stage = .consuming → ¬(s.elementAt o (s.position level)).isSkipped)
    (hl : ∀ id result, stage = .leaving id result → level = o.lastLevel → id = s.position level) :
    (s.setStage level stage).Coherent o where
  positioned := hpos
  stored := h.stored.congr rfl rfl rfl le_rfl
  clean := h.clean.setStage hold ha hc
  logged := h.logged.setStage hl

lemma consume (hle : level ≤ o.lastLevel) (result : ConsumerResult) : (s.consume o level result).Coherent o := by
  have hpos := h.positioned.consume hle result
  have hfi := h.positioned.fits level hle
  cases hst : s.stage level with
  | reading =>
    simp only [ConsumerDispatcher.consume, hst] at hpos ⊢
    exact h.setStage hpos (by rw [hst]; exact id) (by simp) (by simp) (by simp)
  | comparing barrierPosition =>
    simp only [ConsumerDispatcher.consume, hst] at hpos ⊢
    split_ifs at hpos ⊢ with heq hsk
    · exact h.setStage hpos (by rw [hst]; exact id) (by simp) (by simp) (by simp)
    · exact h.setStage hpos (by rw [hst]; exact id) (fun _ => hsk) (by simp) (by simp)
    · exact h.setStage hpos (by rw [hst]; exact id) (by simp) (fun _ => hsk) (by simp)
  | consuming =>
    have hl : (s.recordFinished level result).Logged o := h.logged.congr rfl rfl rfl rfl
    simp only [ConsumerDispatcher.consume, hst] at hpos ⊢
    split_ifs at hpos ⊢ with habt
    · exact ⟨hpos, h.stored.congr rfl rfl rfl le_rfl, h.clean.returns hst (fun _ => ⟨_, rfl⟩) (absurd habt),
        hl.setStage (by simp)⟩
    · exact ⟨hpos, h.stored.congr rfl rfl rfl le_rfl, h.clean.returns hst (absurd · habt) (fun _ => rfl),
        hl.setStage (by simp)⟩
  | marking code =>
    rw [hst] at hfi
    have hf := h.positioned.inFlight_position hle hfi
    simp only [ConsumerDispatcher.consume, hst] at hpos ⊢
    generalize hm : (s.elementAt o (s.position level)).markSkipped (s.position level) code = element at hpos ⊢
    have hs : (s.setElement o (s.position level) element).Stored o := by
      refine h.stored.setElement h.positioned hf ?_ ?_
      · rw [← hm]
        rfl
      · rw [← hm]
        rfl
    have hl : (s.setElement o (s.position level) element).Logged o := h.logged.congr rfl rfl rfl rfl
    exact ⟨hpos, hs.congr rfl rfl rfl le_rfl, h.clean.mark h.positioned hle hst (by rw [← hm]; rfl),
      hl.setStage (by simp)⟩
  | advancing =>
    simp only [ConsumerDispatcher.consume, hst] at hpos ⊢
    refine ⟨hpos, h.stored.congr rfl rfl rfl le_rfl, h.clean.advance hst ?_ ?_, h.logged.advance ?_⟩
    · split_ifs <;> exact id
    · split_ifs <;> exact (by simp)
    · split_ifs <;> exact (by simp)
  | inspecting position =>
    rw [hst] at hfi
    obtain ⟨rfl, hp⟩ := hfi
    have hc : (s.recordInspected (s.elementAt o position)).Clean o := h.clean.congr rfl rfl rfl rfl le_rfl
    have hold : ¬((s.recordInspected (s.elementAt o position)).stage o.lastLevel).Returned := by
      rw [show (s.recordInspected (s.elementAt o position)).stage o.lastLevel = _ from hst]
      exact id
    simp only [ConsumerDispatcher.consume, hst] at hpos ⊢
    exact ⟨hpos, h.stored.congr rfl rfl rfl le_rfl, hc.setStage hold (by simp) (by simp),
      (h.logged.inspect h.positioned h.stored hst).setStage (by simp)⟩
  | completing position =>
    rw [hst] at hfi
    obtain ⟨rfl, hp⟩ := hfi
    have hd := h.positioned.completed_length
    have hcnt := h.positioned.position_le_count le_rfl
    rw [hst] at hd
    simp only [Stage.uncompleted] at hd
    simp only [ConsumerDispatcher.consume, hst] at hpos ⊢
    refine h.setStage hpos (by rw [hst]; exact id) (by simp) (by simp) ?_
    intro id result heq _
    obtain ⟨rfl, -⟩ := Stage.leaving.inj heq
    rw [h.stored.id position ⟨by omega, by omega⟩, hp]
  | leaving id result =>
    rw [hst] at hfi
    obtain rfl : level = o.lastLevel := hfi
    have hlen : s.completed.length ≤ (s.completed ++ [(id, result)]).length := by simp
    have hc : (s.recordCompleted id result).Clean o := h.clean.congr rfl rfl rfl rfl hlen
    have hold : ¬((s.recordCompleted id result).stage o.lastLevel).Returned := by
      rw [show (s.recordCompleted id result).stage o.lastLevel = _ from hst]
      exact fun h => h
    simp only [ConsumerDispatcher.consume, hst] at hpos ⊢
    exact ⟨hpos, h.stored.congr rfl rfl rfl hlen, hc.setStage hold (by simp) (by simp),
      (h.logged.leave h.positioned hst).setStage (by simp)⟩

theorem next (action : Action ι) : (s.next o action).Coherent o := by
  cases action with
  | processElement input => exact h.processElement input
  | add => exact h.add
  | consume level result =>
    rw [ConsumerDispatcher.next]
    split_ifs with hl
    · exact h.consume hl result
    · exact h

end Coherent

/-- A consumer at work has an element that all consumers before it have finished and none of them has aborted. -/
def InOrder (o : Options ι) (s : ConsumerDispatcher ι) : Prop :=
  ∀ k ≤ o.lastLevel, s.stage k = .consuming →
    (s.elementAt o (s.position k)).input = s.accepted[s.position k]? ∧ s.position k < s.accepted.length ∧
    ∀ j < k, s.position k < s.position j ∧ (∃ result, (s.position k, result) ∈ s.finished j) ∧
      ∀ result, (s.position k, result) ∈ s.finished j → result.completionStatus ≠ .aborted

/-- The slot that is about to be filled only ever held elements whose inspector and completion handler have returned,
and all other elements are still in their slots. -/
def Preserved (o : Options ι) (s : ConsumerDispatcher ι) : Prop :=
  (∀ input, s.adder = .adding input → ∀ q < s.allElementsCount,
    q % o.disruptorSize = s.allElementsCount % o.disruptorSize → q < s.inspected.length ∧ q < s.completed.length) ∧
  ∀ q, s.InFlight q → (s.elementAt o q).input = s.accepted[q]? ∧ (s.elementAt o q).id = q + 1

def OncePerElement (s : ConsumerDispatcher ι) : Prop :=
  s.inspected.map Prod.fst = (s.accepted.take s.inspected.length).map some ∧
  s.completed.map Prod.fst = List.range' 1 s.completed.length ∧
  s.completed.length ≤ s.inspected.length ∧ s.inspected.length ≤ s.accepted.length

namespace Coherent

variable (h : s.Coherent o)
include h

lemma inOrder : s.InOrder o := by
  intro k hk hst
  have hfi := h.positioned.fits k hk
  rw [hst] at hfi
  have hf := h.positioned.inFlight_position hk hfi
  refine ⟨h.stored.input _ hf, by rw [h.positioned.accepted_length]; exact hf.2, fun j hj => ?_⟩
  have hs := h.clean.consuming k hk hst
  have hjl : j ≤ o.lastLevel := by omega
  have hlt : s.position k < s.position j := by
    obtain ⟨c, rfl⟩ : ∃ c, k = c + 1 := ⟨k - 1, by omega⟩
    rw [h.positioned.barrier_succ c (by omega)] at hfi
    exact Nat.lt_of_lt_of_le hfi (h.positioned.position_antitone (by omega) (by omega))
  obtain ⟨result, hres, -⟩ := h.clean.passed _ hf hs j hjl (Or.inl hlt)
  refine ⟨hlt, ⟨result, hres⟩, fun result' hres' habt => ?_⟩
  obtain ⟨heq, -⟩ := h.clean.unmarked _ hf hs j hjl result' hres' habt
  omega

lemma preserved : s.Preserved o := by
  constructor
  · intro input ha q hq hmod
    by_contra hc
    have hi := h.positioned.inspected_length
    have hd := h.positioned.completed_length
    have hle : (s.stage o.lastLevel).uninspected ≤ (s.stage o.lastLevel).uncompleted := by
      cases s.stage o.lastLevel <;> simp [Stage.uninspected, Stage.uncompleted]
    exact h.positioned.mod_ne_of_adding ha ⟨by omega, hq⟩ hmod
  · exact fun q hq => ⟨h.stored.input q hq, h.stored.id q hq⟩

lemma oncePerElement : s.OncePerElement := by
  have hi := h.positioned.inspected_length
  have hd := h.positioned.completed_length
  have hcnt := h.positioned.position_le_count le_rfl
  have hacc := h.positioned.accepted_length
  have hle : (s.stage o.lastLevel).uninspected ≤ (s.stage o.lastLevel).uncompleted := by
    cases s.stage o.lastLevel <;> simp [Stage.uninspected, Stage.uncompleted]
  exact ⟨h.logged.inspected, h.logged.completed, by omega, by omega⟩

end Coherent

lemma coherent_run (o : Options ι) (actions : List (Action ι)) : (run (next o) {} actions).Coherent o := by
  induction actions using reverseRecOn with
  | nil => exact Coherent.start
  | append_singleton actions action ih =>
    rw [run_snoc]
    exact ih.next action

theorem active_elements_counted (o : Options ι) (actions : List (Action ι)) :
    let s := run (next o) {} actions
    s.numActiveElements = s.accepted.length - s.completed.length + s.adder.counted ∧
      s.accepted.length < o.disruptorSize + s.position o.lastLevel := by
  have h := (coherent_run o actions).positioned
  have ha := h.active
  have hr := h.room
  have hd := h.completed_le_position le_rfl
  have hp := (h.position_le _ le_rfl).trans (h.barrier_le_count le_rfl)
  rw [← h.accepted_length] at ha hr hp
  exact ⟨by omega, hr⟩

end ConsumerDispatcher

end XpxChain.Disruptor

