import XpxChain.Disruptor.Pipeline

/-! Every accepted element is completed, as long as no thread stops for good. -/

namespace XpxChain.Disruptor

open Library Runs FairRuns Stage

variable {ι : Type}

def Stage.distance (position : ℕ) : Stage → ℕ
  | .inspecting _ => 9
  | .completing _ => 8
  | .leaving _ _ => 7
  | .comparing barrierPosition => if position = barrierPosition then 6 else 4
  | .reading => 5
  | .consuming => 3
  | .marking _ => 2
  | .advancing => 1

lemma Stage.distance_lt {position : ℕ} {stage : Stage} : stage.distance position < 10 := by
  cases stage with
  | comparing barrierPosition =>
    rw [distance]
    split_ifs <;> omega
  | reading | consuming | marking code | advancing | inspecting passed | completing passed | leaving id result =>
    simp [distance]

namespace ConsumerDispatcher

variable {o : Options ι} {s : ConsumerDispatcher ι} {level k p : ℕ} {result : ConsumerResult}

/-- The consumers that `kept` holds for stay as they are, and nothing moves back. -/
structure Grows (kept : ℕ → Prop) (s s' : ConsumerDispatcher ι) : Prop where
  consumers : ∀ k, kept k → s'.consumers k = s.consumers k
  barriers : ∀ k, s.barriers k ≤ s'.barriers k
  accepted : s.accepted.length ≤ s'.accepted.length

lemma grows_next (s : ConsumerDispatcher ι) (action : Action ι) :
    Grows (fun k => ∀ result, action ≠ .consume k result) s (s.next o action) := by
  cases action with
  | processElement input =>
    rw [next, processElement]
    split
    · split_ifs <;> exact ⟨fun _ _ => rfl, fun _ => le_rfl, le_rfl⟩
    · exact ⟨fun _ _ => rfl, fun _ => le_rfl, le_rfl⟩
  | add =>
    rw [next, add]
    split
    case h_3 => split_ifs <;> exact ⟨fun _ _ => rfl, fun _ => le_rfl, le_rfl⟩
    case h_5 => exact ⟨fun _ _ => rfl, fun _ => le_rfl, (List.sublist_append_left _ _).length_le⟩
    case h_6 => exact ⟨fun _ _ => rfl, s.barrier_le_advanceBarrier 0, le_rfl⟩
    all_goals exact ⟨fun _ _ => rfl, fun _ => le_rfl, le_rfl⟩
  | consume level result =>
    have hset : ∀ (consumers : ℕ → ConsumerThread) consumer k,
        (∀ result', Action.consume (ι := ι) level result ≠ .consume k result') →
        Function.update consumers level consumer k = consumers k := fun consumers consumer k hk =>
      Function.update_of_ne (fun heq => hk result (by rw [heq])) _ _
    rw [next]
    split_ifs
    · rw [consume]
      split
      case h_2 => split_ifs <;> exact ⟨hset _ _, fun _ => le_rfl, le_rfl⟩
      case h_3 => split_ifs <;> exact ⟨hset _ _, fun _ => le_rfl, le_rfl⟩
      case h_5 =>
        exact ⟨fun k hk => (hset _ _ k hk).trans (hset _ _ k hk),
          (s.advancePosition level).barrier_le_advanceBarrier (level + 1), le_rfl⟩
      all_goals exact ⟨hset _ _, fun _ => le_rfl, le_rfl⟩
    · exact ⟨fun _ _ => rfl, fun _ => le_rfl, le_rfl⟩

def remaining (k p : ℕ) (s : ConsumerDispatcher ι) : ℕ :=
  (p + 1 - s.position k) * 10 + (s.stage k).distance (s.position k)

lemma remaining_setStage_lt {t : ConsumerDispatcher ι} {stage : Stage} (hcns : t.consumers = s.consumers)
    (h : stage.distance (s.position level) < (s.stage level).distance (s.position level)) :
    remaining level p (t.setStage level stage) < remaining level p s := by
  have hp : t.position level = s.position level := by rw [position, position, hcns]
  rw [remaining, remaining, position_setStage, stage_setStage_self, hp]
  omega

lemma remaining_consume_lt (hb : p < s.barriers level) (hbe : ¬p < s.position level) :
    remaining level p (s.consume o level result) < remaining level p s := by
  cases hst : s.stage level with
  | reading =>
    simp only [consume, hst]
    apply remaining_setStage_lt rfl
    rw [hst, distance, if_neg (by omega), distance]
    decide
  | comparing barrierPosition =>
    simp only [consume, hst]
    split_ifs with heq hs
    · apply remaining_setStage_lt rfl
      rw [hst, distance, distance, if_pos heq]
      decide
    · apply remaining_setStage_lt rfl
      rw [hst, distance, distance, if_neg heq]
      decide
    · apply remaining_setStage_lt rfl
      rw [hst, distance, distance, if_neg heq]
      decide
  | consuming =>
    simp only [consume, hst]
    split_ifs <;>
    · apply remaining_setStage_lt (s := s) rfl
      rw [hst, distance, distance]
      decide
  | advancing =>
    simp only [consume, hst]
    rw [remaining, remaining, position_advance, if_pos rfl, stage_setStage_self, hst]
    have hlt : ∀ stage : Stage, stage.distance (s.position level + 1) < 10 := fun stage => distance_lt
    have := hlt (if level = o.lastLevel then .inspecting (s.position level) else .reading)
    omega
  | marking code | inspecting position | completing position | leaving id completion =>
    simp only [consume, hst]
    apply remaining_setStage_lt (s := s) rfl
    rw [hst, distance, distance]
    decide

lemma remaining_next_of_ne {action : Action ι} (h : ∀ result, action ≠ .consume k result) :
    remaining k p (s.next o action) = remaining k p s := by
  rw [remaining, position, stage, (grows_next s action).consumers k h]
  rfl

section

structure Fair (o : Options ι) (e : Execution (next o)) : Prop where
  consume : ∀ k ≤ o.lastLevel, e.InfinitelyOften fun action => ∃ result, action = .consume k result
  add : e.InfinitelyOften fun action => action = .add

variable {e : Execution (next o)} (hstart : e.states 0 = {}) (hfair : Fair o e) {t : ℕ}
include hstart

lemma coherent_states (t : ℕ) : (e.states t).Coherent o := by
  obtain ⟨actions, h⟩ := e.states_eq_run t
  rw [h, hstart]
  exact coherent_run o actions

include hfair

omit hstart in
lemma eventually_position (hk : k ≤ o.lastLevel) (h : p < (e.states t).barriers k) :
    ∃ t' ≥ t, p < (e.states t').position k := by
  have hinv : ∀ t' ≥ t, p < (e.states t').barriers k := fun t' ht' =>
    Execution.invariant (fun s : ConsumerDispatcher ι => p < s.barriers k)
      (fun s action hlt => Nat.lt_of_lt_of_le hlt ((grows_next s action).barriers _)) h ht'
  have hown : ∀ (s : ConsumerDispatcher ι) result, p < s.barriers k → ¬p < s.position k →
      remaining k p (s.next o (.consume k result)) < remaining k p s := by
    intro s result hb hbe
    rw [next, if_pos hk]
    exact remaining_consume_lt hb hbe
  refine Execution.eventually_of_decreasing (fun s => p < s.barriers k) (fun s => p < s.position k) (remaining k p)
    (hfair.consume k hk) hinv ?_ ?_
  · rintro s action hb hbe ⟨result, rfl⟩
    exact Or.inr (hown s result hb hbe)
  · intro s action hb hbe
    by_cases ha : ∃ result, action = .consume k result
    · obtain ⟨result, rfl⟩ := ha
      exact Or.inr (hown s result hb hbe).le
    · exact Or.inr (remaining_next_of_ne fun result hres => ha ⟨result, hres⟩).le

lemma eventually_position_of_accepted (h : p < (e.states t).barriers 0) (hk : k ≤ o.lastLevel) :
    ∃ t' ≥ t, p < (e.states t').position k := by
  induction k with
  | zero => exact eventually_position hfair hk h
  | succ k ih =>
    obtain ⟨t', ht', hlt⟩ := ih (by omega)
    rw [← (coherent_states hstart t').positioned.barrier_succ k (by omega)] at hlt
    obtain ⟨t'', ht'', hlt'⟩ := eventually_position hfair hk hlt
    exact ⟨t'', by omega, hlt'⟩

lemma eventually_completed (h : p < (e.states t).position o.lastLevel) :
    ∃ t' ≥ t, p < (e.states t').completed.length := by
  have hinv : ∀ t' ≥ t, (e.states t').Coherent o ∧ p < (e.states t').position o.lastLevel := by
    intro t' ht'
    have hc := coherent_states hstart
    rw [← (hc t).positioned.barrier_succ _ le_rfl] at h
    refine ⟨hc t', ?_⟩
    rw [← (hc t').positioned.barrier_succ _ le_rfl]
    exact Execution.invariant (fun s : ConsumerDispatcher ι => p < s.barriers (o.lastLevel + 1))
      (fun s action hlt => Nat.lt_of_lt_of_le hlt ((grows_next s action).barriers _)) h ht'
  have hown : ∀ (s : ConsumerDispatcher ι) result, s.Coherent o → p < s.position o.lastLevel → ¬p < s.completed.length →
      p < (s.next o (.consume o.lastLevel result)).completed.length ∨
        ((s.next o (.consume o.lastLevel result)).stage o.lastLevel).distance 0 < (s.stage o.lastLevel).distance 0 := by
    intro s result hs hp hg
    have hd := hs.positioned.completed_length
    rw [next, if_pos le_rfl]
    cases hst : s.stage o.lastLevel with
    | inspecting position | completing position =>
      right
      simp only [consume, hst, stage_setStage_self, distance]
      decide
    | leaving id completion =>
      rw [hst] at hd
      left
      simp only [consume, hst]
      change p < (s.completed ++ [(id, completion)]).length
      rw [List.length_append]
      exact hd ▸ hp
    | reading | comparing barrierPosition | consuming | marking code | advancing =>
      rw [hst] at hd
      exact absurd (Nat.lt_of_lt_of_eq hp hd.symm) hg
  refine Execution.eventually_of_decreasing (fun s => s.Coherent o ∧ p < s.position o.lastLevel)
    (fun s => p < s.completed.length) (fun s => (s.stage o.lastLevel).distance 0)
      (hfair.consume o.lastLevel le_rfl) hinv ?_ ?_
  · rintro s action ⟨hs, hp⟩ hg ⟨result, rfl⟩
    exact hown s result hs hp hg
  · rintro s action ⟨hs, hp⟩ hg
    by_cases ha : ∃ result, action = .consume o.lastLevel result
    · obtain ⟨result, rfl⟩ := ha
      exact (hown s result hs hp hg).imp_right le_of_lt
    · right
      rw [stage, (grows_next s action).consumers _ fun result hres => ha ⟨result, hres⟩]
      exact le_rfl

lemma eventually_barrier (h : p < (e.states t).accepted.length) : ∃ t' ≥ t, p < (e.states t').barriers 0 := by
  have hinv : ∀ t' ≥ t, (e.states t').Coherent o ∧ p < (e.states t').accepted.length := fun t' ht' =>
    ⟨coherent_states hstart t', Execution.invariant (fun s : ConsumerDispatcher ι => p < s.accepted.length)
      (fun s action hlt => Nat.lt_of_lt_of_le hlt (grows_next s action).accepted) h ht'⟩
  refine Execution.eventually_of_decreasing (fun s => s.Coherent o ∧ p < s.accepted.length) (fun s => p < s.barriers 0)
    (fun _ => 0) hfair.add hinv ?_ ?_
  · rintro s action ⟨hs, hacc⟩ hg rfl
    have hz := hs.positioned.barrier_zero
    rw [hs.positioned.accepted_length, ← hz] at hacc
    left
    cases ha : s.adder with
    | advancing =>
      simp only [next, add, ha, AdderStage.behind] at hacc ⊢
      simpa [advanceBarrier, setAdder] using hacc
    | unlocked | locked input | readMin input minPosition | accepting input | adding input | unlocking =>
      rw [ha] at hacc
      exact absurd hacc hg
  · intro s action _ _
    exact Or.inr le_rfl

end

/-- Whatever has been accepted is inspected and completed exactly once, in the order of insertion. -/
theorem dispatcher_processes_every_element (o : Options ι) :
    (∀ actions, (run (next o) {} actions).InOrder o ∧ (run (next o) {} actions).Preserved o ∧
      (run (next o) {} actions).OncePerElement) ∧ ∀ e : Execution (next o), e.states 0 = {} → Fair o e →
      ∀ t p, p < (e.states t).accepted.length → ∃ t' ≥ t, p < (e.states t').completed.length := by
  constructor
  · intro actions
    have hcoherent := coherent_run o actions
    exact ⟨hcoherent.inOrder, hcoherent.preserved, hcoherent.oncePerElement⟩
  · intro e hstart hfair t p h
    obtain ⟨t₁, ht₁, hbarrier⟩ := eventually_barrier hstart hfair h
    obtain ⟨t₂, ht₂, hposition⟩ := eventually_position_of_accepted hstart hfair hbarrier le_rfl
    obtain ⟨t₃, ht₃, hcompleted⟩ := eventually_completed hstart hfair hposition
    exact ⟨t₃, by omega, hcompleted⟩

def sampleOptions : Options Unit := ⟨3, by decide, 1, fun _ => false⟩

/-- Two consumers, of which the first one aborts the first element. -/
def sampleExecution : Execution (next sampleOptions) :=
  Execution.ofInputs _ {} fun t =>
    if t % 4 = 0 then .processElement ()
    else if t % 4 = 1 then .add
    else if t % 4 = 2 then .consume 0 ⟨if t < 50 then .aborted else .normal, 7⟩
    else .consume 1 ⟨.normal, 0⟩

lemma fair_sampleExecution : Fair sampleOptions sampleExecution where
  consume k hk t := by
    rcases Nat.le_one_iff_eq_zero_or_eq_one.mp hk with rfl | rfl
    · refine ⟨4 * t + 2, by omega, ⟨if 4 * t + 2 < 50 then .aborted else .normal, 7⟩, ?_⟩
      simp [sampleExecution, Execution.ofInputs]
    · refine ⟨4 * t + 3, by omega, ⟨.normal, 0⟩, ?_⟩
      simp [sampleExecution, Execution.ofInputs]
  add t := by
    refine ⟨4 * t + 1, by omega, ?_⟩
    simp [sampleExecution, Execution.ofInputs]

theorem dispatcher_processes_every_element_sample :
    ((sampleExecution.states 100).finished 0).any (fun p => p.2.completionStatus = .aborted) ∧
      1 < (sampleExecution.states 100).accepted.length ∧
      ∃ t' ≥ 100, 1 < (sampleExecution.states t').completed.length := by
  have haccepted : 1 < (sampleExecution.states 100).accepted.length := by decide +kernel
  exact ⟨by decide +kernel, haccepted,
    (dispatcher_processes_every_element sampleOptions).2 sampleExecution rfl fair_sampleExecution 100 1 haccepted⟩

end ConsumerDispatcher

end XpxChain.Disruptor
