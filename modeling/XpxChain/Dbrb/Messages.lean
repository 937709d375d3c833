import XpxChain.Dbrb.View
import XpxChain.Library.OrderedContainers

/-! Messages exchanged by DBRB processes, and the data they sign. -/

namespace XpxChain.Dbrb

open Library

inductive PacketType
  | pushBlock
  | pushConfirmedBlock
  | dbrbPrepareMessage
  | dbrbAcknowledgedDeclinedMessage
  | dbrbAcknowledgedMessage
  | dbrbCommitMessage
  | dbrbDeliverMessage
  | dbrbConfirmDeliverMessage
  | dbrbShardPrepareMessage
  | dbrbShardAcknowledgedMessage
  | dbrbShardCommitMessage
  | dbrbShardDeliverMessage
  | other (value : ℕ)
  deriving DecidableEq

structure Packet where
  type : PacketType
  data : List UInt8
  deriving DecidableEq

abbrev Payload := Packet

abbrev CertificateType := Std.ExtTreeMap ProcessId Signature

inductive MessageValidationResult
  | messageValid
  | messageInvalid
  | messageBroadcastStopped
  deriving DecidableEq

inductive DbrbMode
  | running
  | paused
  deriving DecidableEq

structure PrepareMessage where
  sender : ProcessId
  payload : Payload
  view : View
  bootstrapView : View
  deriving DecidableEq

structure AcknowledgedDeclinedMessage where
  sender : ProcessId
  payloadHash : Hash256
  deriving DecidableEq

structure AcknowledgedMessage where
  sender : ProcessId
  payloadHash : Hash256
  view : View
  payloadSignature : Signature
  deriving DecidableEq

structure CommitMessage where
  sender : ProcessId
  payloadHash : Hash256
  certificate : CertificateType
  view : View
  deriving DecidableEq

structure DeliverMessage where
  sender : ProcessId
  payloadHash : Hash256
  view : View
  deriving DecidableEq

structure ConfirmDeliverMessage where
  sender : ProcessId
  payloadHash : Hash256
  view : View
  deriving DecidableEq

structure ShardPrepareMessage where
  sender : ProcessId
  payload : Payload
  view : DbrbTreeView
  broadcasterSignature : Signature
  deriving DecidableEq

structure ShardBaseMessage where
  sender : ProcessId
  payloadHash : Hash256
  certificate : CertificateType
  deriving DecidableEq

structure ShardAcknowledgedMessage extends ShardBaseMessage
  deriving DecidableEq

structure ShardCommitMessage extends ShardBaseMessage
  deriving DecidableEq

structure ShardDeliverMessage extends ShardBaseMessage
  deriving DecidableEq

inductive Message
  | prepare (message : PrepareMessage)
  | acknowledgedDeclined (message : AcknowledgedDeclinedMessage)
  | acknowledged (message : AcknowledgedMessage)
  | commit (message : CommitMessage)
  | deliver (message : DeliverMessage)
  | confirmDeliver (message : ConfirmDeliverMessage)
  | shardPrepare (message : ShardPrepareMessage)
  | shardAcknowledged (message : ShardAcknowledgedMessage)
  | shardCommit (message : ShardCommitMessage)
  | shardDeliver (message : ShardDeliverMessage)
  deriving DecidableEq

namespace Message

def sender : Message → ProcessId
  | prepare m => m.sender
  | acknowledgedDeclined m => m.sender
  | acknowledged m => m.sender
  | commit m => m.sender
  | deliver m => m.sender
  | confirmDeliver m => m.sender
  | shardPrepare m => m.sender
  | shardAcknowledged m => m.sender
  | shardCommit m => m.sender
  | shardDeliver m => m.sender

def type : Message → PacketType
  | prepare _ => .dbrbPrepareMessage
  | acknowledgedDeclined _ => .dbrbAcknowledgedDeclinedMessage
  | acknowledged _ => .dbrbAcknowledgedMessage
  | commit _ => .dbrbCommitMessage
  | deliver _ => .dbrbDeliverMessage
  | confirmDeliver _ => .dbrbConfirmDeliverMessage
  | shardPrepare _ => .dbrbShardPrepareMessage
  | shardAcknowledged _ => .dbrbShardAcknowledgedMessage
  | shardCommit _ => .dbrbShardCommitMessage
  | shardDeliver _ => .dbrbShardDeliverMessage

end Message

inductive SignedData
  | view (payload : Payload) (view : View)
  | tree (type : PacketType) (payload : Payload) (tree : DbrbTreeView)
  deriving DecidableEq

structure Crypto where
  calculatePayloadHash : Payload → Hash256
  sign : ProcessId → SignedData → Signature
  verify : ProcessId → SignedData → Signature → Bool
  verify_sign : ∀ p d, verify p d (sign p d)

def Crypto.plain : Crypto :=
  let hash (payload : Payload) : ℕ := payload.data.foldl (fun n byte => 256 * n + byte.toNat) 1
  let encode : SignedData → ℕ
    | .view payload view => 2 * (hash payload + ∑ p ∈ view.data, p.val)
    | .tree type payload tree => 2 * (hash payload + tree.foldl (fun n p => 3 * n + p.val) type.ctorIdx) + 1
  let sign (p : ProcessId) (d : SignedData) : Signature := BitVec.ofNat 512 (p.val + 2 ^ 256 * encode d)
  { calculatePayloadHash := fun payload => Fin.ofNat _ (hash payload)
    sign
    verify := fun p d signature => signature == sign p d
    verify_sign := fun _ _ => beq_self_eq_true _ }

/-- The answers of the callbacks and of the clock during one step of a process. -/
structure Environment where
  mode : DbrbMode
  validate : Payload → Hash256 → MessageValidationResult
  now : Timestamp

def Environment.accepting : Environment := ⟨.running, fun _ _ => .messageValid, 0⟩

inductive Effect
  | disseminate (message : Message) (recipients : ViewData)
  | deliver (payload : Payload)
  deriving DecidableEq

end XpxChain.Dbrb
