import XpxChain.Dbrb.ProcessSteps
import XpxChain.Dbrb.ProcessInvariant
import XpxChain.Library.Runs

/-! The certificates and the ConfirmDeliver messages behind what `DbrbProcess` sends and delivers. -/

namespace XpxChain.Dbrb

open Library Runs OrderedContainers Finset

section

variable {crypto : Crypto} {payload : Payload} {view : View} {certificate : CertificateType}

lemma mem_validSigners {q : ProcessId} : q ∈ validSigners crypto payload view certificate ↔
    q ∈ view.data ∧ ∃ s, certificate[q]? = some s ∧ crypto.verify q (.view payload view) s := by
  simp [validSigners, Option.any_eq_true]

lemma validSigners_subset : validSigners crypto payload view certificate ⊆ view.data ∩ keySet certificate := by
  intro q hq
  obtain ⟨hv, s, hs, -⟩ := mem_validSigners.mp hq
  exact mem_inter.mpr ⟨hv, mem_keySet_iff.mpr ⟨s, hs⟩⟩

lemma isQuorumCertificate_of_verified
    (hv : ∀ q s, certificate[q]? = some s → DbrbProcess.verify crypto q payload view s)
    (hq : view.quorumSize ≤ (view.data ∩ keySet certificate).card) :
    IsQuorumCertificate crypto payload view certificate := by
  refine hq.trans (card_le_card fun q hmem => ?_)
  obtain ⟨hvi, hkey⟩ := mem_inter.mp hmem
  obtain ⟨s, hs⟩ := mem_keySet_iff.mp hkey
  exact mem_validSigners.mpr ⟨hvi, s, hs, hv q s hs⟩

lemma IsQuorumCertificate.ne_empty (h : IsQuorumCertificate crypto payload view certificate) : certificate ≠ ∅ := by
  rintro rfl
  have hpos : 0 < view.quorumSize := quorumSize_pos
  have hle := h.trans (card_le_card validSigners_subset)
  rw [keySet_empty, inter_empty] at hle
  exact absurd hle hpos.not_ge

end

namespace DbrbProcess

variable (crypto : Crypto)

def Certified (r : DbrbProcess) (i : Input) (h : Hash256) (view : View) : Prop :=
  ∃ d, r.broadcastData[h]? = some d ∧ d.broadcastView = view ∧
    (IsQuorumCertificate crypto d.payload view d.certificate ∨
      ∃ m, i = .processMessage (.commit m) ∧ m.payloadHash = h ∧ m.view = view ∧
        IsQuorumCertificate crypto d.payload view m.certificate)

def SendsCertified (_past : List (Environment × Input)) (p : DbrbProcess) (x : Environment × Input) : Prop :=
  (∀ m recipients, .disseminate (.commit m) recipients ∈ (p.step crypto x.1 x.2).2 →
      Certified crypto (p.next crypto x) x.2 m.payloadHash m.view) ∧
    ∀ m recipients, .disseminate (.deliver m) recipients ∈ (p.step crypto x.1 x.2).2 →
      Certified crypto (p.next crypto x) x.2 m.payloadHash m.view

/-- A Commit message that passes the checks of its handler names a quorum of the view, unless the process
has already collected a certificate of its own. -/
def CommitsBacked (_past : List (Environment × Input)) (p : DbrbProcess) (x : Environment × Input) : Prop :=
  ∀ m d, x.2 = .processMessage (.commit m) → CommitAccepted crypto x.1 p m d →
    d.certificate ≠ ∅ ∨ m.view.quorumSize ≤ (m.view.data ∩ keySet m.certificate).card

variable {crypto} {env : Environment} {p : DbrbProcess} {x : Environment × Input}
  {past : List (Environment × Input)} {m : CommitMessage} {d : BroadcastData}
  {accepted : Hash256 → Prop} {received : Message → Prop}

lemma CommitAccepted.certified (hc : CommitAccepted crypto env p m d) {r : DbrbProcess}
    (hd : EntryInv crypto accepted received m.payloadHash d)
    (hr : r.broadcastData[m.payloadHash]? = some { d with
      payloadValidated := true, commitMessageDisseminated := true })
    (hq : d.certificate ≠ ∅ ∨ m.view.quorumSize ≤ (m.view.data ∩ keySet m.certificate).card) :
    Certified crypto r (.processMessage (.commit m)) m.payloadHash m.view := by
  refine ⟨_, hr, hc.located.view.symm, ?_⟩
  rcases hq with hq | hq
  · left
    rw [hc.located.view]
    exact hd.certificate hq
  · exact Or.inr ⟨m, rfl, rfl, rfl, isQuorumCertificate_of_verified hc.verified hq⟩

lemma sendsCertified_of_commitsBacked (hp : p.AllEntries (EntryInv crypto (fun _ => True) fun _ => True))
    (hx : CommitsBacked crypto past p x) : SendsCertified crypto past p x := by
  obtain ⟨env, i⟩ := x
  constructor
  · intro c recipients he
    cases step_effect he with
    | opening ho => cases ho
    | ownCommit hl hv hd₁ hq hr =>
      rename_i m d d₁
      have hd := (hp _ _ hl.entry).acknowledge rfl hl.view hl.sender hv
      have hvi : m.view = d₁.broadcastView := by
        rcases validated_cases hd₁ with ⟨rfl, _⟩ | ⟨rfl, _⟩ <;> exact hl.view
      refine ⟨_, hr, hvi.symm, Or.inl ?_⟩
      have hinv := hd.of_validated (fun _ => trivial) hd₁
      rw [hvi]
      exact hinv.collectCertificate rfl hvi hq
    | relayedCommit hc hr => exact hc.certified (hp _ _ hc.located.entry) hr (hx _ _ rfl hc)
  · intro c recipients he
    cases step_effect he with
    | opening ho => cases ho
    | deliver hc hr => exact hc.certified (hp _ _ hc.located.entry) hr (hx _ _ rfl hc)

lemma CommitAccepted.mem_effects (hc : CommitAccepted crypto env p m d) :
    .disseminate (.deliver ⟨p.id, m.payloadHash, m.view⟩) {m.sender} ∈ (p.onCommitMessageReceived crypto env m).2 := by
  have hall : (m.certificate.toList.all fun e => verify crypto e.1 d.payload m.view e.2) := by
    rw [List.all_eq_true]
    intro e he
    exact hc.verified e.1 e.2 (Std.ExtTreeMap.mem_toList_iff_getElem?_eq_some.mp he)
  rw [onCommitMessageReceived, handleEntry_eq hc.located (if_pos hall) hc.running hc.validated]
  exact List.mem_append_right _ (List.mem_singleton_self _)

lemma commitsBacked_of_sendsCertified (h : SendsCertified crypto past p x) : CommitsBacked crypto past p x := by
  obtain ⟨env, i⟩ := x
  rintro m d rfl hc
  have he := hc.mem_effects
  obtain ⟨d', hd', hv, hq⟩ := h.2 _ _ he
  have hent : (p.next crypto (env, .processMessage (.commit m))).broadcastData[m.payloadHash]? =
      some { d with payloadValidated := true, commitMessageDisseminated := true } := by
    cases step_effect (i := .processMessage (.commit m)) he with
    | opening ho => cases ho
    | deliver hc' hr =>
      obtain rfl := Option.some.inj (hc.located.entry.symm.trans hc'.located.entry)
      exact hr
  obtain rfl := Option.some.inj (hent.symm.trans hd')
  rcases hq with hq | ⟨c, heq, -, -, hq⟩
  · exact Or.inl (hq.ne_empty)
  · obtain rfl : m = c := by simpa using heq
    exact Or.inr (hq.trans (card_le_card validSigners_subset))

theorem sends_certified_iff {id : ProcessId} {inputs : List (Environment × Input)} :
    Always (next crypto) { id } (SendsCertified crypto) inputs ↔
      Always (next crypto) { id } (CommitsBacked crypto) inputs := by
  constructor
  · exact fun h => h.mono fun _ _ _ => commitsBacked_of_sendsCertified
  · refine always_of_invariant
      (fun _ p => p.AllEntries (EntryInv crypto (fun _ => True) fun _ => True)) allEntries_new ?_ ?_
    · exact fun _ _ _ hp _ => step_entryInv hp (fun _ _ _ => trivial) fun _ _ => trivial
    · exact fun _ _ _ hp hx => sendsCertified_of_commitsBacked hp hx

def preparedPayload : List (Environment × Input) :=
  [(.accepting, .updateView ∅ {1, 2, 3, 4}),
    (.accepting, .processMessage (.prepare ⟨2, ⟨.pushBlock, [7]⟩, ⟨{1, 2, 3, 4}⟩, ⟨{1, 2, 3, 4}⟩⟩))]

def emptyCommit : Environment × Input :=
  (.accepting, .processMessage (.commit ⟨2, 263, ∅, ⟨{1, 2, 3, 4}⟩⟩))

theorem not_sends_certified :
    ¬ Always (next .plain) { id := 1 } (SendsCertified .plain) (preparedPayload ++ [emptyCommit]) := by
  intro h
  obtain ⟨d, hd, -, hq⟩ :=
    (always_snoc.mp h).2.2 ⟨1, 263, ⟨{1, 2, 3, 4}⟩⟩ {2} (by decide +kernel)
  rcases hq with hq | ⟨m, hm, -, -, hq⟩
  · have hempty : ((next .plain (run (next .plain) { id := 1 } preparedPayload)
        emptyCommit).broadcastData[(263 : Hash256)]?).all fun d => d.certificate.isEmpty := by
      decide +kernel
    rw [hd] at hempty
    exact hq.ne_empty (Std.ExtTreeMap.isEmpty_iff.mp hempty)
  · obtain rfl : (⟨2, 263, ∅, ⟨{1, 2, 3, 4}⟩⟩ : CommitMessage) = m := by simpa [emptyCommit] using hm
    exact hq.ne_empty rfl

end DbrbProcess

namespace DbrbProcess

variable (crypto : Crypto)

def confirmDeliverSenders (inputs : List (Environment × Input)) (h : Hash256) (view : View) : ViewData :=
  (inputs.filterMap fun x =>
    match x.2 with
    | .processMessage (.confirmDeliver m) =>
      if m.payloadHash = h ∧ m.view = view then some m.sender else none
    | _ => none).toFinset

def DeliversConfirmed (past : List (Environment × Input)) (p : DbrbProcess) (x : Environment × Input) : Prop :=
  ∀ payload, .deliver payload ∈ (p.step crypto x.1 x.2).2 →
    ∃ d, (p.next crypto x).broadcastData[crypto.calculatePayloadHash payload]? = some d ∧
      d.payload = payload ∧
      d.bootstrapView.quorumSize ≤ (d.bootstrapView.data ∩ confirmDeliverSenders (past ++ [x])
        (crypto.calculatePayloadHash payload) d.broadcastView).card

/-- A ConfirmDeliver message that passes the checks of its handler comes from a bootstrap process. -/
def ConfirmsFromBootstrap (_past : List (Environment × Input)) (p : DbrbProcess) (x : Environment × Input) : Prop :=
  ∀ m d, x.2 = .processMessage (.confirmDeliver m) → Located p m.sender m.payloadHash m.view d →
    d.bootstrapView.isMember m.sender

variable {crypto} {p : DbrbProcess} {x : Environment × Input} {past : List (Environment × Input)}

def ReceivedIn (inputs : List (Environment × Input)) (m : Message) : Prop :=
  ∃ x ∈ inputs, x.2 = .processMessage m

lemma mem_confirmDeliverSenders {h : Hash256} {view : View} {q : ProcessId}
    (hr : ReceivedIn past (.confirmDeliver ⟨q, h, view⟩)) : q ∈ confirmDeliverSenders past h view := by
  obtain ⟨x, hx, hm⟩ := hr
  rw [confirmDeliverSenders, List.mem_toFinset, List.mem_filterMap]
  exact ⟨x, hx, by simp [hm]⟩

def BootstrapConfirmed (_ : Hash256) (d : BroadcastData) : Prop :=
  d.quorumManager.confirmedDeliverProcesses d.broadcastView ⊆ d.bootstrapView.data

lemma BootstrapConfirmed.step {env : Environment} {i : Input} {h : Hash256} {d d' : BroadcastData}
    (hx : ConfirmsFromBootstrap past p (env, i)) (hs : EntryStep crypto env p i h d d')
    (hd : BootstrapConfirmed h d) : BootstrapConfirmed h d' := by
  cases hs with
  | collectConfirmDeliver hl =>
    intro q hq
    rcases QuorumManager.mem_update_collect.mp hq with ⟨-, rfl⟩ | hq
    · exact hx _ d rfl hl
    · exact hd hq
  | _ => exact hd

structure ConfirmedEntry (crypto : Crypto) (past : List (Environment × Input)) (h : Hash256)
    (d : BroadcastData) : Prop where
  inv : EntryInv crypto (fun _ => True) (ReceivedIn past) h d
  bootstrap : BootstrapConfirmed h d

lemma next_confirmedEntry (hp : p.AllEntries (ConfirmedEntry crypto past)) (hx : ConfirmsFromBootstrap past p x) :
    (p.next crypto x).AllEntries (ConfirmedEntry crypto (past ++ [x])) := by
  have hinv : p.AllEntries (EntryInv crypto (fun _ => True) (ReceivedIn (past ++ [x]))) := by
    refine hp.mono fun h d hd => hd.inv.mono ?_
    rintro m ⟨y, hy, hm⟩
    exact ⟨y, List.mem_append_left _ hy, hm⟩
  have hr : ∀ m, x.2 = .processMessage m → ReceivedIn (past ++ [x]) m :=
    fun m hm => ⟨x, by simp, hm⟩
  intro h d hd
  refine ⟨step_entryInv hinv (fun _ _ _ => trivial) hr h d hd, ?_⟩
  refine step_allEntries (hp.mono fun _ _ hd => hd.bootstrap) ?_ (fun _ _ _ hs => .step hx hs) h d hd
  rintro h d ⟨-, -⟩
  exact empty_subset _

lemma delivers_of_confirmedEntry (hp : (p.next crypto x).AllEntries (ConfirmedEntry crypto (past ++ [x]))) :
    DeliversConfirmed crypto past p x := by
  obtain ⟨env, i⟩ := x
  intro payload he
  cases step_effect he with
  | opening ho => cases ho
  | delivered hq hd =>
    rename_i h d
    have hent := hp h d hd
    obtain rfl := hent.inv.hash
    refine ⟨d, hd, rfl, (hent.inv.confirmQuorum hq).trans (card_le_card ?_)⟩
    intro q hmem
    rw [mem_inter]
    exact ⟨hent.bootstrap hmem, mem_confirmDeliverSenders (hent.inv.confirm _ q hmem).2⟩

theorem delivers_confirmed {id : ProcessId} {inputs : List (Environment × Input)}
    (h : Always (next crypto) { id } ConfirmsFromBootstrap inputs) :
    Always (next crypto) { id } (DeliversConfirmed crypto) inputs := by
  refine always_of_invariant (fun past p => p.AllEntries (ConfirmedEntry crypto past)) allEntries_new
    (fun _ _ _ hp hx => next_confirmedEntry hp hx) ?_ h
  intro past p x hp hx
  exact delivers_of_confirmedEntry (next_confirmedEntry hp hx)

def openedBroadcast : List (Environment × Input) :=
  [(.accepting, .updateView {2} {1}), (.accepting, .broadcast ⟨.pushBlock, [7]⟩ {1, 2})]

def confirmation (sender : ProcessId) : Environment × Input :=
  (.accepting, .processMessage (.confirmDeliver ⟨sender, 263, ⟨{1, 2}⟩⟩))

theorem delivers_confirmed_openedBroadcast :
    .deliver ⟨.pushBlock, [7]⟩ ∈ ((run (next .plain) { id := 1 } openedBroadcast).step .plain
      (confirmation 1).1 (confirmation 1).2).2 ∧
    Always (next .plain) { id := 1 } (DeliversConfirmed .plain) (openedBroadcast ++ [confirmation 1]) := by
  refine ⟨by decide +kernel, delivers_confirmed (always_snoc.mpr ⟨?_, ?_⟩)⟩
  · intro past x rest hx m d hm
    have hmem : x ∈ openedBroadcast := by simp [hx]
    simp only [openedBroadcast, List.mem_cons, List.not_mem_nil, or_false] at hmem
    rcases hmem with rfl | rfl <;> contradiction
  · intro m d hm hl
    obtain rfl : m = ⟨1, 263, ⟨{1, 2}⟩⟩ := by simpa [confirmation, eq_comm] using hm
    have hb : ((run (next .plain) { id := 1 } openedBroadcast).broadcastData[(263 : Hash256)]?).all
        (fun d => d.bootstrapView.isMember 1) := by decide +kernel
    simpa [hl.entry] using hb

theorem not_delivers_confirmed : ¬ Always (next .plain) { id := 1 } (DeliversConfirmed .plain)
    (openedBroadcast ++ [confirmation 2]) := by
  intro h
  obtain ⟨d, hd, -, hq⟩ := (always_snoc.mp h).2 ⟨.pushBlock, [7]⟩ (by decide +kernel)
  have hcount : ((next .plain (run (next .plain) { id := 1 } openedBroadcast)
      (confirmation 2)).broadcastData[Crypto.plain.calculatePayloadHash ⟨.pushBlock, [7]⟩]?).all
        fun d => ¬ d.bootstrapView.quorumSize ≤ (d.bootstrapView.data ∩ confirmDeliverSenders
          (openedBroadcast ++ [confirmation 2]) (Crypto.plain.calculatePayloadHash ⟨.pushBlock, [7]⟩)
          d.broadcastView).card := by decide +kernel
  rw [hd] at hcount
  exact of_decide_eq_true hcount hq

end DbrbProcess

end XpxChain.Dbrb
