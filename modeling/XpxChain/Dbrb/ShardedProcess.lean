import XpxChain.Dbrb.Messages
import XpxChain.Dbrb.ShardMembers
import XpxChain.Dbrb.Tree

/-! The state machine of `ShardedDbrbProcess`. A certificate that is moved into a message leaves an empty
certificate behind. -/

namespace XpxChain.Dbrb

open Library OrderedContainers

structure DeliverCertificate where
  requested : Bool
  quorumCollected : Bool
  certificate : CertificateType

abbrev Recipients := Std.ExtTreeMap ProcessId DeliverCertificate

structure ShardBroadcastData where
  payload : Option Payload := none
  acknowledgeCertificate : CertificateType := ∅
  parentShardDeliverCertificate : CertificateType := ∅
  parentShardDeliverCertificateRecipients : Recipients := ∅
  childShardDeliverCertificate : CertificateType := ∅
  childShardDeliverCertificateRecipients : Recipients := ∅
  commitMessageSent : Bool := false
  acknowledged : Bool := false
  delivered : Bool := false
  begin : Timestamp := 0
  broadcaster : ProcessId := 0
  broadcastView : View := ⟨∅⟩
  tree : DbrbTreeView := []
  subTreeView : View := ⟨∅⟩
  shard : DbrbDoubleShard := {}
  networkQuorumSize : ℕ := 0
  parentShardQuorumSize : ℕ := 0
  childShardQuorumSize : ℕ := 0

structure ShardedDbrbProcess where
  id : ProcessId
  shardSize : ℕ
  currentView : View := ⟨∅⟩
  broadcastData : Std.ExtTreeMap Hash256 ShardBroadcastData := ∅

inductive ShardedError
  | tree (error : TreeError)
  | shard (error : ShardError)
  | invalidMessageType (type : PacketType)
  | noDbrbProcesses
  | outOfRange

structure ShardedOutcome where
  process : ShardedDbrbProcess
  effects : List Effect := []
  error : Option ShardedError := none

/-- The work that is posted to the strand of a process, with the nodes that a broadcast finds connected
and the views and the shard size that an update of the view reads. -/
inductive ShardedInput
  | broadcast (payload : Payload) (recipients connectedNodes : ViewData)
  | processMessage (message : Message)
  | updateView (view bootstrapProcesses : ViewData) (shardSize : ℕ)
  | clearData

namespace Recipients

def register (recipients : Recipients) (ids : ViewData) (certificate : CertificateType) : Recipients :=
  (ascending ids).foldl (fun recipients id => recipients.insertIfNew id ⟨false, false, certificate⟩) recipients

def addSignature (recipients : Recipients) (signer : ProcessId) (signature : Signature) : Recipients :=
  recipients.map fun _ c => { c with certificate := c.certificate.insertIfNew signer signature }

def isReady (quorumCollected : Bool) (c : DeliverCertificate) : Bool :=
  c.requested && (c.quorumCollected || quorumCollected) && !c.certificate.isEmpty

def notify (recipients : Recipients) (quorumCollected : Bool) : Recipients :=
  recipients.map fun _ c =>
    { c with
      quorumCollected := c.quorumCollected || quorumCollected
      certificate := if isReady quorumCollected c then ∅ else c.certificate }

def ready (recipients : Recipients) (quorumCollected : Bool) : List (ProcessId × CertificateType) :=
  (recipients.toList.filter fun entry => isReady quorumCollected entry.2).map fun entry =>
    (entry.1, entry.2.certificate)

end Recipients

namespace ShardBroadcastData

def networkQuorumCollected (data : ShardBroadcastData) : Bool :=
  data.networkQuorumSize + 1 ≤
    data.parentShardDeliverCertificate.size + data.childShardDeliverCertificate.size

def parentQuorumCollected (data : ShardBroadcastData) : Bool :=
  data.networkQuorumCollected || data.parentShardQuorumSize ≤ data.parentShardDeliverCertificate.size

def childQuorumCollected (data : ShardBroadcastData) : Bool :=
  data.childShardQuorumSize ≤ data.childShardDeliverCertificate.size

def addOwnSignature (data : ShardBroadcastData) (id : ProcessId) (signature : Signature) : ShardBroadcastData :=
  { data with
    parentShardDeliverCertificate := data.parentShardDeliverCertificate.insertIfNew id signature
    childShardDeliverCertificate := data.childShardDeliverCertificate.insertIfNew id signature }

def addParentSignature (data : ShardBroadcastData) (entry : ProcessId × Signature) : ShardBroadcastData :=
  { data with
    parentShardDeliverCertificate := data.parentShardDeliverCertificate.insertIfNew entry.1 entry.2
    parentShardDeliverCertificateRecipients :=
      data.parentShardDeliverCertificateRecipients.addSignature entry.1 entry.2 }

def addChildSignature (data : ShardBroadcastData) (entry : ProcessId × Signature) : ShardBroadcastData :=
  { data with
    childShardDeliverCertificate := data.childShardDeliverCertificate.insertIfNew entry.1 entry.2
    childShardDeliverCertificateRecipients :=
      data.childShardDeliverCertificateRecipients.addSignature entry.1 entry.2 }

end ShardBroadcastData

namespace ShardedDbrbProcess

variable (crypto : Crypto) (env : Environment) (p : ShardedDbrbProcess)

def sign (type : PacketType) (payload : Payload) (tree : DbrbTreeView) : Signature :=
  crypto.sign p.id (.tree type payload tree)

def verify (type : PacketType) (signer : ProcessId) (payload : Payload) (tree : DbrbTreeView)
    (signature : Signature) : Bool :=
  crypto.verify signer (.tree type payload tree) signature

def entry (payloadHash : Hash256) : ShardBroadcastData := p.broadcastData.getD payloadHash {}

def store (payloadHash : Hash256) (data : ShardBroadcastData) : ShardedDbrbProcess :=
  { p with broadcastData := p.broadcastData.insert payloadHash data }

def erase (payloadHash : Hash256) : ShardedDbrbProcess :=
  { p with broadcastData := p.broadcastData.erase payloadHash }

def clearData : ShardedDbrbProcess := { p with broadcastData := ∅ }

def broadcast (payload : Payload) (recipients connectedNodes : ViewData) : ShardedOutcome :=
  let broadcastView : View := ⟨recipients⟩
  if broadcastView.data = ∅ then { process := p }
  else if broadcastView.gt p.currentView then { process := p }
  else if ¬ broadcastView.isMember p.id then { process := p }
  else
    let payloadHash := crypto.calculatePayloadHash payload
    let data := { p.entry payloadHash with
      begin := env.now
      payload := some payload
      broadcaster := p.id
      broadcastView
      subTreeView := broadcastView
      parentShardQuorumSize := 1
      networkQuorumSize := broadcastView.quorumSize
      childShardQuorumSize := broadcastView.quorumSize }
    let nodes := recipients.erase p.id
    match createDbrbTreeView (nodes ∩ connectedNodes) (nodes \ connectedNodes) p.id p.shardSize with
    | .error error => { process := p.store payloadHash data, error := some (.tree error) }
    | .ok tree =>
      let signature := p.sign crypto .dbrbShardAcknowledgedMessage payload tree
      let data := { data with
        tree
        acknowledgeCertificate := data.acknowledgeCertificate.insertIfNew p.id signature }
      match createDbrbShard tree p.id p.shardSize with
      | .error error => { process := p.store payloadHash data, error := some (.shard error) }
      | .ok shard =>
        { process := p.store payloadHash { data with shard }
          effects :=
            if shard.initialized then
              [.disseminate (.shardPrepare ⟨p.id, payload, tree,
                p.sign crypto .dbrbShardPrepareMessage payload tree⟩) shard.children]
            else [] }

end ShardedDbrbProcess

namespace ShardedDbrbProcess

variable (crypto : Crypto) (env : Environment) (p : ShardedDbrbProcess)

def prepared (message : ShardPrepareMessage) (data : ShardBroadcastData) : ShardBroadcastData :=
  let subTreeView : View := ⟨data.subTreeView.data ∪ insert p.id (viewMembers data.shard.childViews)⟩
  let signature := p.sign crypto .dbrbShardAcknowledgedMessage message.payload message.view
  { data with
    begin := env.now
    tree := message.view
    broadcastView := ⟨data.broadcastView.data ∪ message.view.toFinset⟩
    subTreeView
    networkQuorumSize := quorumSize message.view.length
    parentShardQuorumSize := quorumSize (sizeSub message.view.length subTreeView.data.card + 1)
    childShardQuorumSize := subTreeView.quorumSize
    acknowledgeCertificate := data.acknowledgeCertificate.insertIfNew p.id signature }

def acceptPrepare (message : ShardPrepareMessage) (data : ShardBroadcastData) : ShardedOutcome :=
  let payloadHash := crypto.calculatePayloadHash message.payload
  let data := p.prepared crypto env message data
  let acknowledges := !data.acknowledged && data.childShardQuorumSize ≤ data.acknowledgeCertificate.size
  let acknowledgement : List Effect :=
    if acknowledges then
      [.disseminate (.shardAcknowledged ⟨⟨p.id, payloadHash, data.acknowledgeCertificate⟩⟩) {message.sender}]
    else []
  let prepare : List Effect :=
    if data.shard.children = ∅ then []
    else
      [.disseminate (.shardPrepare ⟨p.id, message.payload, message.view, message.broadcasterSignature⟩)
        data.shard.children]
  { process := p.store payloadHash { data with
      acknowledged := data.acknowledged || acknowledges
      acknowledgeCertificate := if acknowledges then ∅ else data.acknowledgeCertificate }
    effects := acknowledgement ++ prepare }

def onPrepareMessageReceived (message : ShardPrepareMessage) : ShardedOutcome :=
  let payloadHash := crypto.calculatePayloadHash message.payload
  let view : View := ⟨message.view.toFinset⟩
  let data := p.entry payloadHash
  if env.validate message.payload payloadHash ≠ .messageValid then { process := p }
  else if view.gt p.currentView then { process := p }
  else if ¬ view.isMember p.id then { process := p }
  else if data.payload.isSome then { process := p.store payloadHash data }
  else match createDbrbShard message.view p.id p.shardSize with
  | .error error => { process := p.store payloadHash data, error := some (.shard error) }
  | .ok shard =>
    if ¬ shard.initialized then { process := p.erase payloadHash }
    else if shard.parent ≠ message.sender then { process := p.erase payloadHash }
    else
      let broadcaster := message.view.headD 0
      let data := { data with shard, payload := some message.payload, broadcaster }
      if verify crypto .dbrbShardPrepareMessage broadcaster message.payload message.view
          message.broadcasterSignature then
        p.acceptPrepare crypto env message data
      else { process := p.store payloadHash data }

def acceptedSignatures (type : PacketType) (view : ViewData) (payload : Payload) (tree : DbrbTreeView)
    (certificate : CertificateType) : List (ProcessId × Signature) :=
  certificate.toList.takeWhile fun (signer, signature) =>
    decide (signer ∈ view) && verify crypto type signer payload tree signature

def onAcknowledgedMessageReceived (message : ShardAcknowledgedMessage) : ShardedOutcome :=
  let data := p.entry message.payloadHash
  match data.payload, data.shard.childViews[message.sender]? with
  | some payload, some childView =>
    let accepted := acceptedSignatures crypto .dbrbShardAcknowledgedMessage childView payload data.tree
      message.certificate
    let data := { data with
      acknowledgeCertificate :=
        accepted.foldl (fun c entry => c.insertIfNew entry.1 entry.2) data.acknowledgeCertificate }
    if accepted.length ≠ message.certificate.size then { process := p.store message.payloadHash data }
    else if !data.acknowledged && data.acknowledgeCertificate.size < data.childShardQuorumSize then
      { process := p.store message.payloadHash data }
    else
      let data := { data with acknowledged := true }
      if p.id = data.broadcaster then
        if data.commitMessageSent then { process := p.store message.payloadHash data }
        else
          let signed := { data with commitMessageSent := true, acknowledgeCertificate := ∅ }.addOwnSignature p.id
            (p.sign crypto .dbrbShardDeliverMessage payload data.tree)
          { process := p.store message.payloadHash { signed with
              parentShardDeliverCertificateRecipients := signed.parentShardDeliverCertificateRecipients.register
                data.shard.children signed.parentShardDeliverCertificate }
            effects := [.disseminate
              (.shardCommit ⟨⟨p.id, message.payloadHash, data.acknowledgeCertificate⟩⟩) data.shard.children] }
      else
        { process := p.store message.payloadHash { data with acknowledgeCertificate := ∅ }
          effects := [.disseminate
            (.shardAcknowledged ⟨⟨p.id, message.payloadHash, data.acknowledgeCertificate⟩⟩) {data.shard.parent}] }
  | _, _ => { process := p.store message.payloadHash data }

def signedCommit (payload : Payload) (data : ShardBroadcastData) : ShardBroadcastData :=
  let signed := { data with commitMessageSent := true }.addOwnSignature p.id
    (p.sign crypto .dbrbShardDeliverMessage payload data.tree)
  { signed with
    childShardDeliverCertificateRecipients :=
      (signed.childShardDeliverCertificateRecipients.register {data.shard.parent}
        signed.childShardDeliverCertificate).register data.shard.siblings signed.childShardDeliverCertificate
    parentShardDeliverCertificateRecipients :=
      signed.parentShardDeliverCertificateRecipients.register data.shard.children
        signed.parentShardDeliverCertificate }

def requestCertificate (sender : ProcessId) (quorumCollected : Bool) (recipients : Recipients) :
    Option (Recipients × Option CertificateType) :=
  recipients[sender]?.map fun c =>
    let c := { c with quorumCollected := c.quorumCollected || quorumCollected, requested := true }
    if c.quorumCollected && !c.certificate.isEmpty then
      (recipients.insert sender { c with certificate := ∅ }, some c.certificate)
    else (recipients.insert sender c, none)

def answerCommit (message : ShardCommitMessage) (sent : List Effect) (data : ShardBroadcastData) : ShardedOutcome :=
  let deliver (certificate : Option CertificateType) : List Effect :=
    certificate.toList.map fun certificate =>
      .disseminate (.shardDeliver ⟨⟨p.id, message.payloadHash, certificate⟩⟩) {message.sender}
  if message.sender = data.shard.parent ∨ message.sender ∈ data.shard.siblings then
    match requestCertificate message.sender data.childQuorumCollected
        data.childShardDeliverCertificateRecipients with
    | none => { process := p.store message.payloadHash data, effects := sent, error := some .outOfRange }
    | some (recipients, certificate) =>
      { process := p.store message.payloadHash { data with
          childShardDeliverCertificateRecipients := recipients }
        effects := sent ++ deliver certificate }
  else
    match requestCertificate message.sender data.parentQuorumCollected
        data.parentShardDeliverCertificateRecipients with
    | none => { process := p.store message.payloadHash data, effects := sent, error := some .outOfRange }
    | some (recipients, certificate) =>
      { process := p.store message.payloadHash { data with
          parentShardDeliverCertificateRecipients := recipients }
        effects := sent ++ deliver certificate }

def onCommitMessageReceived (message : ShardCommitMessage) : ShardedOutcome :=
  let data := p.entry message.payloadHash
  match data.payload with
  | none => { process := p.store message.payloadHash data }
  | some payload =>
    if message.sender ∉ data.shard.neighbours then { process := p.store message.payloadHash data }
    else if message.certificate.size < data.networkQuorumSize then { process := p.store message.payloadHash data }
    else if ¬ message.certificate.toList.all fun (signer, signature) =>
        decide (data.broadcastView.isMember signer) &&
          verify crypto .dbrbShardAcknowledgedMessage signer payload data.tree signature then
      { process := p.store message.payloadHash data }
    else if data.commitMessageSent then p.answerCommit message [] data
    else
      p.answerCommit message
        [.disseminate (.shardCommit ⟨⟨p.id, message.payloadHash, message.certificate⟩⟩) data.shard.neighbours]
        (p.signedCommit crypto payload data)

def completeDeliver (payloadHash : Hash256) (payload : Payload) (data : ShardBroadcastData) : ShardedOutcome :=
  let parentReady := data.parentShardDeliverCertificateRecipients.ready data.parentQuorumCollected
  let childReady := data.childShardDeliverCertificateRecipients.ready data.childQuorumCollected
  let delivers := !data.delivered && data.networkQuorumCollected
  { process := p.store payloadHash { data with
      parentShardDeliverCertificateRecipients :=
        data.parentShardDeliverCertificateRecipients.notify data.parentQuorumCollected
      childShardDeliverCertificateRecipients :=
        data.childShardDeliverCertificateRecipients.notify data.childQuorumCollected
      delivered := data.delivered || delivers }
    effects :=
      (parentReady ++ childReady).map (fun (recipient, certificate) =>
        .disseminate (.shardDeliver ⟨⟨p.id, payloadHash, certificate⟩⟩) {recipient}) ++
      if delivers then [.deliver payload] else [] }

def deliverTarget (shard : DbrbDoubleShard) (sender : ProcessId) : Option (Bool × ViewData) :=
  if sender = shard.parent then some (true, shard.parentView)
  else if sender ∈ shard.siblings then shard.siblingViews[sender]?.map (true, ·)
  else shard.childViews[sender]?.map (false, ·)

def onDeliverMessageReceived (message : ShardDeliverMessage) : ShardedOutcome :=
  let data := p.entry message.payloadHash
  match data.payload with
  | none => { process := p.store message.payloadHash data }
  | some payload =>
    if message.sender ∉ data.shard.neighbours then { process := p.store message.payloadHash data }
    else match deliverTarget data.shard message.sender with
    | none => { process := p.store message.payloadHash data, error := some .outOfRange }
    | some (toParent, view) =>
      let accepted := acceptedSignatures crypto .dbrbShardDeliverMessage view payload data.tree
        message.certificate
      let add := if toParent then ShardBroadcastData.addParentSignature else ShardBroadcastData.addChildSignature
      let data := accepted.foldl add data
      if accepted.length ≠ message.certificate.size then { process := p.store message.payloadHash data }
      else p.completeDeliver message.payloadHash payload data

def processMessage : Message → ShardedOutcome
  | .shardPrepare message => p.onPrepareMessageReceived crypto env message
  | .shardAcknowledged message => p.onAcknowledgedMessageReceived crypto message
  | .shardCommit message => p.onCommitMessageReceived crypto message
  | .shardDeliver message => p.onDeliverMessageReceived crypto message
  | message => { process := p, error := some (.invalidMessageType message.type) }

def updateView (view bootstrapProcesses : ViewData) (shardSize : ℕ) : ShardedOutcome :=
  if view ∪ bootstrapProcesses = ∅ then { process := p, error := some .noDbrbProcesses }
  else
    { process :=
        { id := p.id, shardSize, currentView := View.merge ⟨view⟩ ⟨bootstrapProcesses⟩, broadcastData := ∅ } }

def step : ShardedInput → ShardedOutcome
  | .broadcast payload recipients connectedNodes => p.broadcast crypto env payload recipients connectedNodes
  | .processMessage message => p.processMessage crypto env message
  | .updateView view bootstrapProcesses shardSize => p.updateView view bootstrapProcesses shardSize
  | .clearData => { process := p.clearData }

def next (p : ShardedDbrbProcess) (x : Environment × ShardedInput) : ShardedDbrbProcess :=
  (p.step crypto x.1 x.2).process

end ShardedDbrbProcess

end XpxChain.Dbrb
