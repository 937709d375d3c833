import XpxChain.Dbrb.Messages

/-! The state machine of `DbrbProcess`, with the quorum counters and the broadcast data that it keeps for a payload. -/

namespace XpxChain.Dbrb

open Library OrderedContainers

structure QuorumManager where
  acknowledgedPayloads : View → Finset (ProcessId × Hash256) := fun _ => ∅
  deliverQuorumCollectedProcesses : View → ViewData := fun _ => ∅
  confirmedDeliverProcesses : View → ViewData := fun _ => ∅

namespace QuorumManager

def updateAcknowledged (q : QuorumManager) (message : AcknowledgedMessage) : QuorumManager × Bool :=
  let set := insert (message.sender, message.payloadHash) (q.acknowledgedPayloads message.view)
  let acknowledgedCount := (set.filter fun entry => entry.2 = message.payloadHash).card
  ({ q with acknowledgedPayloads := Function.update q.acknowledgedPayloads message.view set },
    acknowledgedCount == message.view.quorumSize)

def collect (set : ViewData) (sender : ProcessId) (quorumSize : ℕ) : ViewData × Bool :=
  if sender ∈ set then (set, false) else (insert sender set, (insert sender set).card == quorumSize)

def updateDeliver (q : QuorumManager) (message : DeliverMessage) : QuorumManager × Bool :=
  let (set, triggered) :=
    collect (q.deliverQuorumCollectedProcesses message.view) message.sender message.view.quorumSize
  ({ q with
      deliverQuorumCollectedProcesses :=
        Function.update q.deliverQuorumCollectedProcesses message.view set }, triggered)

def updateConfirmDeliver (q : QuorumManager) (message : ConfirmDeliverMessage)
    (bootstrapView : View) : QuorumManager × Bool :=
  let (set, triggered) :=
    collect (q.confirmedDeliverProcesses message.view) message.sender bootstrapView.quorumSize
  ({ q with
      confirmedDeliverProcesses := Function.update q.confirmedDeliverProcesses message.view set },
    triggered)

variable {set : ViewData} {sender : ProcessId} {n : ℕ}

@[simp] lemma collect_fst : (collect set sender n).1 = insert sender set := by
  by_cases h : sender ∈ set
  · simp [collect, h]
  · simp [collect, h]

lemma mem_update_collect {sets : View → ViewData} {v w : View} {q : ProcessId} :
    q ∈ Function.update sets v (collect (sets v) sender n).1 w ↔ w = v ∧ q = sender ∨ q ∈ sets w := by
  by_cases hw : w = v
  · subst hw
    simp
  · simp [hw]

lemma le_card_collect {collected : Bool} (hset : collected → n ≤ set.card)
    (h : (collected || (collect set sender n).2)) : n ≤ (collect set sender n).1.card := by
  rw [collect_fst]
  rcases Bool.or_eq_true _ _ ▸ h with h | h
  · exact (hset h).trans (Finset.card_le_card (Finset.subset_insert _ _))
  · by_cases hs : sender ∈ set
    · simp [collect, hs] at h
    · rw [collect, if_neg hs, beq_iff_eq] at h
      exact h.ge

end QuorumManager

structure BroadcastData where
  payload : Payload
  signatures : View → ProcessId → Option Signature := fun _ _ => none
  certificate : CertificateType := ∅
  broadcastView : View
  bootstrapView : View
  quorumManager : QuorumManager := {}
  begin : Timestamp
  payloadSignature : Signature
  payloadValidated : Bool := false
  acknowledgedQuorumCollected : Bool := false
  commitMessageDisseminated : Bool := false
  deliverQuorumCollected : Bool := false
  confirmDeliverMessageDisseminated : Bool := false
  confirmDeliverQuorumCollected : Bool := false
  delivered : Bool := false

namespace BroadcastData

def validated (data : BroadcastData) (env : Environment) (payloadHash : Hash256) : Option BroadcastData :=
  if data.payloadValidated then some data
  else if env.validate data.payload payloadHash = .messageValid then
    some { data with payloadValidated := true }
  else none

def acknowledge (data : BroadcastData) (message : AcknowledgedMessage) : BroadcastData :=
  let (quorumManager, quorumCollected) := data.quorumManager.updateAcknowledged message
  { data with
    signatures := Function.update data.signatures message.view
      (Function.update (data.signatures message.view) message.sender (some message.payloadSignature))
    quorumManager
    acknowledgedQuorumCollected := data.acknowledgedQuorumCollected || quorumCollected }

def collectDeliver (data : BroadcastData) (message : DeliverMessage) : BroadcastData :=
  let (quorumManager, quorumCollected) := data.quorumManager.updateDeliver message
  { data with quorumManager, deliverQuorumCollected := data.deliverQuorumCollected || quorumCollected }

def collectConfirmDeliver (data : BroadcastData) (message : ConfirmDeliverMessage) : BroadcastData :=
  let (quorumManager, quorumCollected) :=
    data.quorumManager.updateConfirmDeliver message data.bootstrapView
  { data with
    quorumManager
    confirmDeliverQuorumCollected := data.confirmDeliverQuorumCollected || quorumCollected }

def collectCertificate (data : BroadcastData) (message : AcknowledgedMessage) : CertificateType :=
  let acknowledgedSet := data.quorumManager.acknowledgedPayloads message.view
  let processes := (acknowledgedSet.filter fun entry => entry.2 = message.payloadHash).image Prod.fst
  (ascending processes).foldl (insertSome (data.signatures message.view)) data.certificate

end BroadcastData

structure DbrbProcess where
  id : ProcessId
  currentView : View := ⟨∅⟩
  bootstrapView : View := ⟨∅⟩
  broadcastData : Std.ExtTreeMap Hash256 BroadcastData := ∅

inductive Input
  | broadcast (payload : Payload) (recipients : ViewData)
  | processMessage (message : Message)
  | updateView (view bootstrapProcesses : ViewData)
  | maybeDeliver
  | clearData

def Input.message? : Input → Option Message
  | .processMessage message => some message
  | _ => none

namespace DbrbProcess

variable (crypto : Crypto) (env : Environment) (p : DbrbProcess)

def sign (payload : Payload) (view : View) : Signature := crypto.sign p.id (.view payload view)

def verify (signer : ProcessId) (payload : Payload) (view : View) (signature : Signature) : Bool :=
  crypto.verify signer (.view payload view) signature

def store (payloadHash : Hash256) (data : BroadcastData) : DbrbProcess :=
  { p with broadcastData := p.broadcastData.insert payloadHash data }

def erase (payloadHash : Hash256) : DbrbProcess :=
  { p with broadcastData := p.broadcastData.erase payloadHash }

def clearData : DbrbProcess := { p with broadcastData := ∅ }

def maybeDeliver : DbrbProcess × List Effect :=
  match p.broadcastData.toList with
  | [(payloadHash, data)] =>
    match data.validated env payloadHash with
    | none => (p.erase payloadHash, [])
    | some data =>
      if data.confirmDeliverQuorumCollected && !data.delivered then
        (p.store payloadHash { data with delivered := true }, [.deliver data.payload])
      else (p.store payloadHash data, [])
  | _ => (p, [])

def broadcast (payload : Payload) (recipients : ViewData) : DbrbProcess × List Effect :=
  let broadcastView : View := ⟨recipients⟩
  if broadcastView.data = ∅ then (p, [])
  else if ¬ broadcastView.le p.currentView then (p, [])
  else if ¬ p.bootstrapView.le broadcastView then (p, [])
  else if ¬ broadcastView.isMember p.id then (p, [])
  else
    let payloadHash := crypto.calculatePayloadHash payload
    let data : BroadcastData :=
      { payload, broadcastView, bootstrapView := p.bootstrapView, begin := env.now
        payloadSignature := p.sign crypto payload broadcastView }
    (p.clearData.store payloadHash data,
      [.disseminate (.prepare ⟨p.id, payload, broadcastView, data.bootstrapView⟩) broadcastView.data])

def onPrepareMessageReceived (message : PrepareMessage) : DbrbProcess × List Effect :=
  if ¬ message.view.le p.currentView then (p, [])
  else if ¬ message.view.isMember p.id then (p, [])
  else if ¬ message.view.isMember message.sender then (p, [])
  else if message.bootstrapView ≠ p.bootstrapView then (p, [])
  else
    let payloadHash := crypto.calculatePayloadHash message.payload
    let broadcastEnabled : Bool := env.mode = .running
    if broadcastEnabled ∧ env.validate message.payload payloadHash ≠ .messageValid then (p, [])
    else
      let acknowledge (data : BroadcastData) : List Effect :=
        if broadcastEnabled then
          [.disseminate (.acknowledged ⟨p.id, payloadHash, message.view, data.payloadSignature⟩)
            {message.sender}]
        else []
      match p.broadcastData[payloadHash]? with
      | some data => (p, acknowledge data)
      | none =>
        let data : BroadcastData :=
          { payload := message.payload, broadcastView := message.view
            bootstrapView := message.bootstrapView, begin := env.now
            payloadSignature := p.sign crypto message.payload message.view
            payloadValidated := broadcastEnabled }
        let prepare : List Effect :=
          if broadcastEnabled then
            [.disseminate (.prepare ⟨p.id, data.payload, data.broadcastView, data.bootstrapView⟩)
              data.broadcastView.data]
          else []
        (p.clearData.store payloadHash data, prepare ++ acknowledge data)

/-- The common course of the handlers of messages about a stored payload: the checks of the sender and
of the view, then what the handler records in the entry (`none` when it rejects the message), then,
unless the process is paused or the payload turns out to be invalid, what the handler sends. -/
def handleEntry (sender : ProcessId) (payloadHash : Hash256) (view : View)
    (record : BroadcastData → Option BroadcastData)
    (finish : BroadcastData → BroadcastData × List Effect) : DbrbProcess × List Effect :=
  if ¬ view.isMember p.id then (p, [])
  else if ¬ view.isMember sender then (p, [])
  else match p.broadcastData[payloadHash]? with
  | none => (p, [])
  | some data =>
    if view ≠ data.broadcastView then (p, [])
    else match record data with
    | none => (p, [])
    | some data =>
      if env.mode ≠ .running then (p.store payloadHash data, [])
      else match data.validated env payloadHash with
      | none => (p.erase payloadHash, [])
      | some data => (p.store payloadHash (finish data).1, (finish data).2)

def onAcknowledgedQuorumCollected (message : AcknowledgedMessage)
    (data : BroadcastData) : BroadcastData × List Effect :=
  let certificate := data.collectCertificate message
  if data.commitMessageDisseminated then ({ data with certificate }, [])
  else
    ({ data with certificate, commitMessageDisseminated := true },
      [.disseminate (.commit ⟨p.id, message.payloadHash, certificate, message.view⟩) message.view.data])

def onAcknowledgedMessageReceived (message : AcknowledgedMessage) : DbrbProcess × List Effect :=
  p.handleEntry env message.sender message.payloadHash message.view
    (fun data =>
      if verify crypto message.sender data.payload message.view message.payloadSignature then
        some (data.acknowledge message)
      else none)
    (fun data =>
      if data.acknowledgedQuorumCollected && data.certificate.isEmpty then
        p.onAcknowledgedQuorumCollected message data
      else (data, []))

def onCommitMessageReceived (message : CommitMessage) : DbrbProcess × List Effect :=
  p.handleEntry env message.sender message.payloadHash message.view
    (fun data =>
      if message.certificate.toList.all fun (signer, signature) =>
          verify crypto signer data.payload message.view signature then
        some data
      else none)
    (fun data =>
      let commit : List Effect :=
        if data.commitMessageDisseminated then []
        else
          [.disseminate (.commit ⟨p.id, message.payloadHash, message.certificate, message.view⟩)
            message.view.data]
      ({ data with commitMessageDisseminated := true },
        commit ++
          [.disseminate (.deliver ⟨p.id, message.payloadHash, message.view⟩) {message.sender}]))

def onDeliverMessageReceived (message : DeliverMessage) : DbrbProcess × List Effect :=
  p.handleEntry env message.sender message.payloadHash message.view
    (fun data => some (data.collectDeliver message))
    (fun data =>
      if data.deliverQuorumCollected ∧ ¬ data.confirmDeliverMessageDisseminated ∧
          data.bootstrapView.isMember p.id then
        ({ data with confirmDeliverMessageDisseminated := true },
          [.disseminate (.confirmDeliver ⟨p.id, message.payloadHash, message.view⟩) message.view.data])
      else (data, []))

def onConfirmDeliverMessageReceived (message : ConfirmDeliverMessage) : DbrbProcess × List Effect :=
  p.handleEntry env message.sender message.payloadHash message.view
    (fun data => some (data.collectConfirmDeliver message))
    (fun data =>
      if data.confirmDeliverQuorumCollected && !data.delivered then
        ({ data with delivered := true }, [.deliver data.payload])
      else (data, []))

def processMessage : Message → DbrbProcess × List Effect
  | .prepare message => p.onPrepareMessageReceived crypto env message
  | .acknowledgedDeclined _ => (p, [])
  | .acknowledged message => p.onAcknowledgedMessageReceived crypto env message
  | .commit message => p.onCommitMessageReceived crypto env message
  | .deliver message => p.onDeliverMessageReceived env message
  | .confirmDeliver message => p.onConfirmDeliverMessageReceived env message
  | .shardPrepare _ | .shardAcknowledged _ | .shardCommit _ | .shardDeliver _ => (p, [])

inductive UpdateViewError
  | bootstrapViewEmpty

def updateView (view bootstrapProcesses : ViewData) : Except UpdateViewError (DbrbProcess × Bool) :=
  if bootstrapProcesses = ∅ then .error .bootstrapViewEmpty
  else
    let bootstrapView : View := ⟨bootstrapProcesses⟩
    .ok ({ p with currentView := View.merge ⟨view⟩ bootstrapView, bootstrapView },
      decide (p.id ∈ view) || decide (bootstrapView.isMember p.id))

def step : Input → DbrbProcess × List Effect
  | .broadcast payload recipients => p.broadcast crypto env payload recipients
  | .processMessage message => p.processMessage crypto env message
  | .updateView view bootstrapProcesses =>
    match p.updateView view bootstrapProcesses with
    | .ok (updated, _) => (updated, [])
    | .error _ => (p, [])
  | .maybeDeliver => p.maybeDeliver env
  | .clearData => (p.clearData, [])

def next (p : DbrbProcess) (x : Environment × Input) : DbrbProcess := (p.step crypto x.1 x.2).1

end DbrbProcess

end XpxChain.Dbrb
