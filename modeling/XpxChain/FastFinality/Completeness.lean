import XpxChain.Library.Runs
import XpxChain.FastFinality.MachineSteps

/-! The events that the actions raise are those that the transition table expects, but for two of `StartRound`. -/

namespace XpxChain.FastFinality

open Library Exceptions Runs WeightedVoting

lemma isSome_transition {state : State} (hs : state ≠ .roundStart) :
    ∀ event ∈ state.events, (transition state event).isSome := by
  cases state with
  | roundStart => exact absurd rfl hs
  | _ => decide

namespace Machine

variable {env : Environment} {events : List Event} {event : Event} {m m' : Machine}

def StaysInDbrbSystem (m : Machine) : Input → Prop
  | .run env => m.state = .roundStart → m.pending = .entry → env.isInDbrbSystem
  | _ => True

def Handles (m : Machine) : Prop :=
  m.stopWaiting ∧ ∀ event, m.pending = .posted event → (transition m.state event).isSome

structure Expects (m : Machine) : Prop where
  stopWaiting : m.stopWaiting
  events : ∀ event ∈ m.pending.events, (transition m.state event).isSome

lemma Expects.handles (h : m.Expects) : m.Handles := by
  refine ⟨h.stopWaiting, fun event he => h.events event ?_⟩
  rw [he]
  exact List.mem_cons_self

lemma Stays.expects (h : Stays events m m') (hm : m.stopWaiting)
    (he : ∀ event ∈ events, (transition m.state event).isSome) : m'.Expects := by
  refine ⟨h.stopWaiting.trans hm, fun event hev => ?_⟩
  rw [h.state]
  exact he event (h.events hev)

lemma expects_runEntryAction (h : m.runEntryAction env = .ok m') (hm : m.stopWaiting)
    (hin : m.state = .roundStart → env.isInDbrbSystem) : m'.Expects := by
  by_cases hs : m.state = .roundStart
  · rw [runEntryAction, hs] at h
    have hst := keepsRound_startRound h
    rw [if_pos (hin hs)] at hst
    exact hst.expects hm (by rw [hs]; decide)
  · exact (stays_runEntryAction h).expects hm (isSome_transition hs)

lemma expects_processEvent (h : m.processEvent env event = .ok m') (hm : m.stopWaiting)
    (hev : (transition m.state event).isSome) : m'.Expects := by
  unfold processEvent at h
  split at h
  next hn => simp [hn] at hev
  next state action _ =>
    obtain ⟨node, -, h⟩ := bind_eq_ok.mp h
    cases h
    exact ⟨hm, fun _ he => nomatch he⟩

lemma Expects.advance (hm : m.Expects) (h : m.advance env = .ok m')
    (hin : m.state = .roundStart → m.pending = .entry → env.isInDbrbSystem) : m'.Expects := by
  have he := hm.events
  cases hp : m.pending with
  | idle =>
    rw [Machine.advance, hp] at h
    cases h
    exact hm
  | entry =>
    rw [Machine.advance, hp] at h
    exact expects_runEntryAction h hm.stopWaiting fun hs => hin hs hp
  | waiting =>
    rw [Machine.advance, hp] at h
    rw [hp] at he
    cases h
    exact (stays_stopWaitForBlock env m).expects hm.stopWaiting he
  | delayed callback =>
    rw [Machine.advance, hp] at h
    rw [hp] at he
    exact (keepsRound_runCallback h).expects hm.stopWaiting he
  | posted event =>
    rw [Machine.advance, hp] at h
    rw [hp] at he
    exact expects_processEvent h hm.stopWaiting (he event List.mem_cons_self)

lemma Expects.step (hm : m.Expects) {input : Input} (hin : m.StaysInDbrbSystem input) : (m.step input).Expects := by
  apply step_induction hm
  · rintro env m' - rfl h
    exact hm.advance h hin
  · intro fault
    exact { hm with }
  · intro block
    exact { hm with }
  · intro payloadHash block accepted
    obtain ⟨_, _, hv⟩ := validateBlock_eq m payloadHash block accepted
    rw [hv]
    exact { hm with }
  · exact { hm with }

lemma expects_init (manager : WeightedVotingCommitteeManagerV3) : (init manager).Expects :=
  ⟨rfl, by simp [init, Pending.events, transition]⟩

theorem handles_raised (manager : WeightedVotingCommitteeManagerV3) (inputs : List Input)
    (h : Always step (init manager) (fun _ m input => m.StaysInDbrbSystem input) inputs) :
    (run step (init manager) inputs).Handles :=
  (invariant_run (fun _ (m : Machine) => m.Expects) (expects_init manager) (fun _ _ _ hm hin => hm.step hin) h).handles

instance (m : Machine) : (input : Input) → Decidable (m.StaysInDbrbSystem input)
  | .run env => inferInstanceAs (Decidable (m.state = .roundStart → m.pending = .entry → env.isInDbrbSystem))
  | .pushBlock _ | .validateBlock _ _ _ | .shutdown => isTrue trivial

def startingRun (isInDbrbSystem : Bool) : List Input :=
  let env := Environment.synchronized [1090, 1090, 1090]
  List.replicate 9 (.run env) ++ List.replicate 2 (.run { env with isInDbrbSystem })

theorem handles_raised_startingRun : (run step (init { accounts := ∅ }) (startingRun true)).Handles :=
  handles_raised _ _ (by decide +kernel)

theorem not_handles_raised : ¬ (run step (init { accounts := ∅ }) (startingRun false)).Handles := by
  rintro ⟨-, h⟩
  have hpending : (run step (init { accounts := ∅ }) (startingRun false)).pending =
      .posted .notRegisteredInDbrbSystem := by
    decide +kernel
  have hrow := h _ hpending
  exact absurd hrow (by decide)

end Machine

end XpxChain.FastFinality
