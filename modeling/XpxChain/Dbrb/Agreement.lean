import XpxChain.Dbrb.ProcessSteps
import XpxChain.Dbrb.ProcessInvariant
import XpxChain.Library.Runs

/-! A network of DBRB processes, some of which are Byzantine, and agreement on the payload of a view. -/

namespace XpxChain.Dbrb

open Library Runs DbrbProcess

structure Network where
  process : ProcessId → DbrbProcess
  log : List (ProcessId × Effect)

/-- One piece of work of a process. A message that it processes has come over the connection with
`connection`, whose key only the packet handler knows. -/
structure Action where
  process : ProcessId
  connection : ProcessId
  environment : Environment
  input : Input

namespace Network

def initial : Network := ⟨fun id => { id }, []⟩

def next (crypto : Crypto) (net : Network) (a : Action) : Network :=
  let (p, effects) := (net.process a.process).step crypto a.environment a.input
  { process := Function.update net.process a.process p
    log := net.log ++ effects.map (a.process, ·) }

def Sent (net : Network) (source target : ProcessId) (message : Message) : Prop :=
  ∃ e ∈ net.log, e.1 = source ∧
    match e.2 with
    | .disseminate m recipients => m = message ∧ target ∈ recipients
    | .deliver _ => False

instance (e : Effect) (message : Message) (target : ProcessId) : Decidable (match e with
    | .disseminate m recipients => m = message ∧ target ∈ recipients
    | .deliver _ => False) :=
  match e with
  | .disseminate _ _ => inferInstanceAs (Decidable (_ ∧ _))
  | .deliver _ => inferInstanceAs (Decidable False)

instance (net : Network) (source target : ProcessId) (message : Message) :
    Decidable (net.Sent source target message) :=
  inferInstanceAs (Decidable (∃ e ∈ net.log, _))

variable (correct : Finset ProcessId)

/-- Only correct processes run the code, and what arrives over the connection with a correct process has
been sent by it. Byzantine processes send whatever they want. -/
def Enabled (_past : List Action) (net : Network) (a : Action) : Prop :=
  a.process ∈ correct ∧
    ∀ m ∈ a.input.message?, a.connection ∈ correct → net.Sent a.connection a.process m
deriving Decidable

def OwnSender (_past : List Action) (_net : Network) (a : Action) : Prop :=
  a.connection ∉ correct → ∀ m ∈ a.input.message?, m.sender = a.connection
deriving Decidable

def Authentic (net : Network) (target : ProcessId) (m : Message) : Prop :=
  m.sender ∈ correct → net.Sent m.sender target m

structure NetworkInv (crypto : Crypto) (accepted : ProcessId → Hash256 → Prop) (net : Network) : Prop where
  id : ∀ p, (net.process p).id = p
  entries : ∀ p, (net.process p).AllEntries (EntryInv crypto (accepted p) (net.Authentic correct p))
  sender : ∀ p m recipients, (p, .disseminate m recipients) ∈ net.log → m.sender = p
  deliver : ∀ p m recipients, (p, .disseminate (.deliver m) recipients) ∈ net.log →
    accepted p m.payloadHash
  confirmDeliver : ∀ p m recipients, (p, .disseminate (.confirmDeliver m) recipients) ∈ net.log →
    m.view.data.Nonempty ∧ ∃ senders ⊆ m.view.data, m.view.quorumSize ≤ senders.card ∧
      ∀ q ∈ senders, net.Authentic correct p (.deliver ⟨q, m.payloadHash, m.view⟩)

variable {correct} {crypto : Crypto} {accepted : ProcessId → Hash256 → Prop} {net : Network} {a : Action}
  {past : List Action} {target source : ProcessId} {m : Message}

lemma sent_iff :
    net.Sent source target m ↔ ∃ recipients, (source, .disseminate m recipients) ∈ net.log ∧ target ∈ recipients := by
  constructor
  · rintro ⟨⟨_, _ | _⟩, he, rfl, h⟩
    · obtain ⟨rfl, ht⟩ := h
      exact ⟨_, he, ht⟩
    · contradiction
  · rintro ⟨recipients, he, ht⟩
    exact ⟨_, he, rfl, rfl, ht⟩

lemma Sent.next (h : net.Sent source target m) : (net.next crypto a).Sent source target m := by
  obtain ⟨e, he, hs⟩ := h
  exact ⟨e, List.mem_append_left _ he, hs⟩

lemma mem_log_next {p : ProcessId} {e : Effect} (h : (p, e) ∈ (net.next crypto a).log) : (p, e) ∈ net.log ∨
      p = a.process ∧ e ∈ ((net.process a.process).step crypto a.environment a.input).2 := by
  rcases List.mem_append.mp h with h | h
  · exact Or.inl h
  · obtain ⟨e', he, heq⟩ := List.mem_map.mp h
    obtain ⟨rfl, rfl⟩ := Prod.mk.inj heq
    exact Or.inr ⟨rfl, he⟩

lemma networkInv_initial : NetworkInv correct crypto accepted initial where
  id _ := rfl
  entries _ := allEntries_new
  sender := by simp [initial]
  deliver := by simp [initial]
  confirmDeliver := by simp [initial]

section

variable (hn : NetworkInv correct crypto accepted net) (he : Enabled correct past net a)
  (ho : OwnSender correct past net a)
include hn he ho

lemma NetworkInv.authentic (hm : a.input = .processMessage m) : net.Authentic correct a.process m := by
  intro hs
  have hmem : m ∈ a.input.message? := by simp [hm, Input.message?]
  by_cases hc : a.connection ∈ correct
  · have hse := he.2 m hmem hc
    obtain ⟨recipients, hlog, -⟩ := sent_iff.mp hse
    rwa [hn.sender _ _ _ hlog]
  · rw [ho hc m hmem] at hs
    contradiction

lemma NetworkInv.next_entries
    (ha : ∀ payload h, a.environment.validate payload h = .messageValid → accepted a.process h) (p : ProcessId) :
    ((net.next crypto a).process p).AllEntries
      (EntryInv crypto (accepted p) ((net.next crypto a).Authentic correct p)) := by
  have hmo : ∀ q h d, EntryInv crypto (accepted q) (net.Authentic correct q) h d →
      EntryInv crypto (accepted q) ((net.next crypto a).Authentic correct q) h d :=
    fun q h d hd => hd.mono fun m hm hs => (hm hs).next
  by_cases hp : p = a.process
  · subst hp
    have hst := step_entryInv (hn.entries a.process) ha fun m => hn.authentic he ho
    simpa [Network.next] using hst.mono (hmo a.process)
  · simpa [Network.next, hp] using (hn.entries p).mono (hmo p)

lemma NetworkInv.next (ha : ∀ payload h, a.environment.validate payload h = .messageValid → accepted a.process h) :
    NetworkInv correct crypto accepted (net.next crypto a) := by
  have hen := hn.next_entries he ho ha
  have hpo : ((net.next crypto a).process a.process) =
      ((net.process a.process).step crypto a.environment a.input).1 := by simp [Network.next]
  refine ⟨?_, hen, ?_, ?_, ?_⟩
  · intro p
    by_cases hp : p = a.process
    · rw [hp, hpo, step_id, hn.id]
    · simpa [Network.next, hp] using hn.id p
  · intro p m recipients h
    rcases mem_log_next h with h | ⟨rfl, hs⟩
    · exact hn.sender p m recipients h
    · rw [step_sender hs, hn.id]
  · intro p m recipients h
    rcases mem_log_next h with h | ⟨rfl, hs⟩
    · exact hn.deliver p m recipients h
    · generalize a.input = i at hs hpo
      cases step_effect hs with
      | opening ho => cases ho
      | deliver hc hr => exact (hen _ _ _ (hpo ▸ hr)).validated rfl
  · intro p m recipients h
    rcases mem_log_next h with h | ⟨rfl, hs⟩
    · obtain ⟨hv, senders, hsub, hq, hse⟩ := hn.confirmDeliver p m recipients h
      exact ⟨hv, senders, hsub, hq, fun q hq hc => (hse q hq hc).next⟩
    · generalize a.input = i at hs hpo
      cases step_effect hs with
      | opening ho => cases ho
      | confirmDeliver hm hv hq hr =>
        have hd := hen _ _ _ (hpo ▸ hr)
        refine ⟨⟨_, hm⟩, _, fun q hq => (hd.deliver _ q hq).1, ?_, fun q hq => (hd.deliver _ q hq).2⟩
        simpa only [hv] using hd.deliverQuorum hq

end

end Network

namespace Network

variable {crypto : Crypto} {correct : Finset ProcessId} {actions : List Action}

lemma networkInv_run (accepted : ProcessId → Hash256 → Prop) (hrun : Always (next crypto) initial
      (fun past net a => Enabled correct past net a ∧ OwnSender correct past net a) actions)
    (ha : ∀ a ∈ actions, ∀ payload h, a.environment.validate payload h = .messageValid → accepted a.process h) :
    NetworkInv correct crypto accepted (run (next crypto) initial actions) := by
  have hall : Always (next crypto) initial (fun past net a =>
      (Enabled correct past net a ∧ OwnSender correct past net a) ∧
        ∀ payload h, a.environment.validate payload h = .messageValid → accepted a.process h) actions :=
    fun past a rest hi => ⟨hrun past a rest hi, ha a (by simp [hi])⟩
  exact invariant_run (fun _ net => NetworkInv correct crypto accepted net) networkInv_initial
    (fun _ _ _ hn hs => hn.next hs.1.1 hs.1.2 hs.2) hall

theorem confirmDeliver_agreement {view : View} (accepted : ProcessId → Hash256)
    (hfaulty : (view.data \ correct).card ≤ maxInvalidProcesses view.data.card) (hrun : Always (next crypto) initial
      (fun past net a => Enabled correct past net a ∧ OwnSender correct past net a) actions)
    (haccept : ∀ a ∈ actions, ∀ payload h, a.environment.validate payload h = .messageValid → h = accepted a.process)
    {p q : ProcessId} {m m' : ConfirmDeliverMessage} {recipients recipients' : ViewData}
    (hp : (p, .disseminate (.confirmDeliver m) recipients) ∈ (run (next crypto) initial actions).log)
    (hq : (q, .disseminate (.confirmDeliver m') recipients') ∈ (run (next crypto) initial actions).log)
    (hm : m.view = view) (hm' : m'.view = view) : m.payloadHash = m'.payloadHash := by
  have hinv := networkInv_run (fun p h => h = accepted p) hrun haccept
  obtain ⟨hne, A, hA, hqA, hsA⟩ := hinv.confirmDeliver p m recipients hp
  obtain ⟨-, B, hB, hqB, hsB⟩ := hinv.confirmDeliver q m' recipients' hq
  rw [hm] at hne hA hqA
  rw [hm'] at hB hqB
  obtain ⟨s, hsA', hsB', hs⟩ := View.quorum_intersection hne hA hB hqA hqB hfaulty
  obtain ⟨_, hlog, -⟩ := sent_iff.mp (hsA s hsA' hs)
  obtain ⟨_, hlog', -⟩ := sent_iff.mp (hsB s hsB' hs)
  exact (hinv.deliver _ _ _ hlog).trans (hinv.deliver _ _ _ hlog').symm

def sampleEnvironment : Environment :=
  ⟨.running, fun _ h => if h = 263 then .messageValid else .messageInvalid, 0⟩

def sampleView : View := ⟨{1, 2, 3, 4}⟩

def work (process : ProcessId) (input : Input) : Action := ⟨process, process, sampleEnvironment, input⟩

def receive (process connection : ProcessId) (message : Message) : Action :=
  ⟨process, connection, sampleEnvironment, .processMessage message⟩

/-- Processes 1, 2 and 3 are correct and deliver a payload; process 4 sends what it likes. -/
def sampleRun : List Action :=
  let payload : Payload := ⟨.pushBlock, [7]⟩
  let signature (p : ProcessId) := Crypto.plain.sign p (.view payload sampleView)
  let certificate : CertificateType := [1, 2, 3].foldl (fun certificate p => certificate.insert p (signature p)) ∅
  [1, 2, 3].map (work · (.updateView ∅ sampleView.data)) ++ [work 1 (.broadcast payload sampleView.data)] ++
    [1, 2, 3].map (receive · 1 (.prepare ⟨1, payload, sampleView, sampleView⟩)) ++
    [1, 2, 3].map (fun p => receive 1 p (.acknowledged ⟨p, 263, sampleView, signature p⟩)) ++
    [receive 2 4 (.deliver ⟨4, 263, sampleView⟩)] ++
    [1, 2].flatMap fun q => [1, 2, 3].map (receive · q (.commit ⟨q, 263, certificate, sampleView⟩)) ++
      [1, 2, 3].map fun p => receive q p (.deliver ⟨p, 263, sampleView⟩)

lemma sampleRun_enabled : Always (next .plain) initial
    (fun past net a => Enabled {1, 2, 3} past net a ∧ OwnSender {1, 2, 3} past net a) sampleRun := by
  decide +kernel

lemma sampleRun_accepts : ∀ a ∈ sampleRun, ∀ payload h, a.environment.validate payload h = .messageValid → h = 263 := by
  have henv : ∀ a ∈ sampleRun, a.environment = sampleEnvironment := by
    simp [sampleRun, work, receive]
  intro a ha payload h hv
  by_contra hn
  simp [henv a ha, sampleEnvironment, hn] at hv

theorem confirmDeliver_agreement_sampleRun : ∃ m m' : ConfirmDeliverMessage,
    (1, .disseminate (.confirmDeliver m) sampleView.data) ∈ (run (next .plain) initial sampleRun).log ∧
      (2, .disseminate (.confirmDeliver m') sampleView.data) ∈ (run (next .plain) initial sampleRun).log ∧
      m.payloadHash = m'.payloadHash := by
  have h₁ : (1, .disseminate (.confirmDeliver ⟨1, 263, sampleView⟩) sampleView.data) ∈
      (run (next .plain) initial sampleRun).log := by decide +kernel
  have h₂ : (2, .disseminate (.confirmDeliver ⟨2, 263, sampleView⟩) sampleView.data) ∈
      (run (next .plain) initial sampleRun).log := by decide +kernel
  exact ⟨_, _, h₁, h₂,
    confirmDeliver_agreement (fun _ => 263) (by decide) sampleRun_enabled sampleRun_accepts h₁ h₂ rfl rfl⟩

def CountsSent (correct : Finset ProcessId) (net : Network) : Prop :=
  ∀ p ∈ correct, ∀ h d, (net.process p).broadcastData[h]? = some d → ∀ q ∈ correct, ∀ v,
    (q ∈ d.quorumManager.deliverQuorumCollectedProcesses v → net.Sent q p (.deliver ⟨q, h, v⟩)) ∧
      (q ∈ d.quorumManager.confirmedDeliverProcesses v → net.Sent q p (.confirmDeliver ⟨q, h, v⟩))

theorem counts_sent (hrun : Always (next crypto) initial
      (fun past net a => Enabled correct past net a ∧ OwnSender correct past net a) actions) :
    CountsSent correct (run (next crypto) initial actions) := by
  have hinv := networkInv_run (fun _ _ => True) hrun fun _ _ _ _ _ => trivial
  intro p _ h d hd q hq v
  have hentry := hinv.entries p h d hd
  exact ⟨fun hmem => (hentry.deliver v q hmem).2 hq, fun hmem => (hentry.confirm v q hmem).2 hq⟩

theorem counts_sent_sampleRun : ((run (next .plain) initial sampleRun).process 1).broadcastData[(263 : Hash256)]?.any
        (fun d => 2 ∈ d.quorumManager.deliverQuorumCollectedProcesses sampleView) ∧
      CountsSent {1, 2, 3} (run (next .plain) initial sampleRun) :=
  ⟨by decide +kernel, counts_sent sampleRun_enabled⟩

def forgedDeliver : List Action :=
  [work 1 (.updateView ∅ {1, 2, 3}), work 1 (.broadcast ⟨.pushBlock, [7]⟩ {1, 2, 3}),
    receive 1 2 (.deliver ⟨3, 263, ⟨{1, 2, 3}⟩⟩)]

theorem not_counts_sent : Always (next .plain) initial (Enabled {1, 3}) forgedDeliver ∧
    ¬ CountsSent {1, 3} (run (next .plain) initial forgedDeliver) := by
  refine ⟨by decide +kernel, fun h => ?_⟩
  have hcounted : ((run (next .plain) initial forgedDeliver).process 1).broadcastData[(263 : Hash256)]?.any
      fun d => 3 ∈ d.quorumManager.deliverQuorumCollectedProcesses ⟨{1, 2, 3}⟩ := by decide +kernel
  have hunsent : ¬ (run (next .plain) initial forgedDeliver).Sent 3 1 (.deliver ⟨3, 263, ⟨{1, 2, 3}⟩⟩) := by
    decide +kernel
  obtain ⟨d, hd, hmem⟩ := (Option.any_eq_true _ _).mp hcounted
  exact hunsent ((h 1 (by decide) 263 d hd 3 (by decide) _).1 (of_decide_eq_true hmem))

end Network

end XpxChain.Dbrb

