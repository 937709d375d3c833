import XpxChain.Dbrb.ProcessSteps

/-! The invariant of the entries of `DbrbProcess`, relative to the payload hashes that its callback has
accepted and to the messages that it has received. -/

namespace XpxChain.Dbrb

open Library OrderedContainers QuorumManager Finset

def validSigners (crypto : Crypto) (payload : Payload) (view : View) (certificate : CertificateType) : ViewData :=
  view.data.filter fun q => certificate[q]?.any (crypto.verify q (.view payload view))

def IsQuorumCertificate (crypto : Crypto) (payload : Payload) (view : View) (certificate : CertificateType) : Prop :=
  view.quorumSize ≤ (validSigners crypto payload view certificate).card

structure EntryInv (crypto : Crypto) (accepted : Hash256 → Prop) (received : Message → Prop)
    (h : Hash256) (d : BroadcastData) : Prop where
  hash : h = crypto.calculatePayloadHash d.payload
  validated : d.payloadValidated → accepted h
  signed : ∀ v q s, d.signatures v q = some s → crypto.verify q (.view d.payload v) s
  acknowledged : ∀ v, ∀ e ∈ d.quorumManager.acknowledgedPayloads v,
    e.1 ∈ v.data ∧ e.2 = h ∧ ∃ s, d.signatures v e.1 = some s
  acknowledgedQuorum : d.acknowledgedQuorumCollected →
    d.broadcastView.quorumSize ≤ (d.quorumManager.acknowledgedPayloads d.broadcastView).card
  certificate : d.certificate ≠ ∅ → IsQuorumCertificate crypto d.payload d.broadcastView d.certificate
  deliver : ∀ v, ∀ q ∈ d.quorumManager.deliverQuorumCollectedProcesses v,
    q ∈ v.data ∧ received (.deliver ⟨q, h, v⟩)
  deliverQuorum : d.deliverQuorumCollected →
    d.broadcastView.quorumSize ≤ (d.quorumManager.deliverQuorumCollectedProcesses d.broadcastView).card
  confirm : ∀ v, ∀ q ∈ d.quorumManager.confirmedDeliverProcesses v,
    q ∈ v.data ∧ received (.confirmDeliver ⟨q, h, v⟩)
  confirmQuorum : d.confirmDeliverQuorumCollected →
    d.bootstrapView.quorumSize ≤ (d.quorumManager.confirmedDeliverProcesses d.broadcastView).card

namespace EntryInv

variable {crypto : Crypto} {accepted : Hash256 → Prop} {received later : Message → Prop}
  {h : Hash256} {d : BroadcastData}

lemma mono (hd : EntryInv crypto accepted received h d) (hr : ∀ m, received m → later m) :
    EntryInv crypto accepted later h d :=
  { hd with
    deliver v q hq := (hd.deliver v q hq).imp_right (hr _)
    confirm v q hq := (hd.confirm v q hq).imp_right (hr _) }

variable {m : AcknowledgedMessage} {env : Environment} {p : DbrbProcess} {d' : BroadcastData}

section

variable (hd : EntryInv crypto accepted received h d)
include hd

lemma acknowledge (hh : m.payloadHash = h) (hm : m.view = d.broadcastView) (hs : m.sender ∈ m.view.data)
    (hv : crypto.verify m.sender (.view d.payload m.view) m.payloadSignature) :
    EntryInv crypto accepted received h (d.acknowledge m) := by
  refine { hd with signed := ?_, acknowledged := ?_, acknowledgedQuorum := ?_ }
  · intro v q s hq
    by_cases hvm : v = m.view
    · subst hvm
      by_cases hqm : q = m.sender
      · subst hqm
        obtain rfl : m.payloadSignature = s := by simpa [BroadcastData.acknowledge] using hq
        exact hv
      · exact hd.signed _ q s (by simpa [BroadcastData.acknowledge, hqm] using hq)
    · exact hd.signed v q s (by simpa [BroadcastData.acknowledge, hvm] using hq)
  · intro v e he
    simp only [BroadcastData.acknowledge, updateAcknowledged, Function.update_apply] at he ⊢
    by_cases hvm : v = m.view
    · subst hvm
      rw [if_pos rfl, mem_insert] at he
      by_cases hem : e.1 = m.sender
      · rcases he with rfl | he
        · exact ⟨hs, hh, by simp⟩
        · exact ⟨hem ▸ hs, (hd.acknowledged _ e he).2.1, by simp [hem]⟩
      · have he := he.resolve_left fun h => hem (congrArg Prod.fst h)
        simpa [hem] using hd.acknowledged _ e he
    · simp only [hvm, if_false] at he ⊢
      exact hd.acknowledged v e he
  · intro hq
    simp only [BroadcastData.acknowledge, updateAcknowledged, hm, Function.update_self, Bool.or_eq_true,
      beq_iff_eq] at hq ⊢
    rcases hq with hq | hq
    · exact (hd.acknowledgedQuorum hq).trans (card_le_card (subset_insert _ _))
    · exact hq.ge.trans (card_filter_le _ _)

lemma collectDeliver {m : DeliverMessage} (hh : m.payloadHash = h) (hm : m.view = d.broadcastView)
    (hs : m.sender ∈ m.view.data) (hr : received (.deliver m)) :
    EntryInv crypto accepted received h (d.collectDeliver m) := by
  refine { hd with deliver := ?_, deliverQuorum := ?_ }
  · intro v q hq
    rcases mem_update_collect.mp hq with ⟨rfl, rfl⟩ | hq
    · exact ⟨hs, hh ▸ hr⟩
    · exact hd.deliver v q hq
  · intro hq
    have hc := le_card_collect (hm ▸ hd.deliverQuorum) hq
    simpa [BroadcastData.collectDeliver, updateDeliver, hm] using hc

lemma collectConfirmDeliver {m : ConfirmDeliverMessage} (hh : m.payloadHash = h) (hm : m.view = d.broadcastView)
    (hs : m.sender ∈ m.view.data) (hr : received (.confirmDeliver m)) :
    EntryInv crypto accepted received h (d.collectConfirmDeliver m) := by
  refine { hd with confirm := ?_, confirmQuorum := ?_ }
  · intro v q hq
    rcases mem_update_collect.mp hq with ⟨rfl, rfl⟩ | hq
    · exact ⟨hs, hh ▸ hr⟩
    · exact hd.confirm v q hq
  · intro hq
    have hc := le_card_collect (hm ▸ hd.confirmQuorum) hq
    simpa [BroadcastData.collectConfirmDeliver, updateConfirmDeliver, hm] using hc

lemma collectCertificate (hh : m.payloadHash = h) (hm : m.view = d.broadcastView) (hq : d.acknowledgedQuorumCollected) :
    IsQuorumCertificate crypto d.payload d.broadcastView (d.collectCertificate m) := by
  set acknowledged := d.quorumManager.acknowledgedPayloads d.broadcastView with hset
  have hinj : Set.InjOn Prod.fst (acknowledged : Set (ProcessId × Hash256)) := by
    intro e he e' he' heq
    exact Prod.ext heq ((hd.acknowledged _ e he).2.1.trans (hd.acknowledged _ e' he').2.1.symm)
  have hsub : acknowledged.image Prod.fst ⊆ validSigners crypto d.payload d.broadcastView (d.collectCertificate m) := by
    intro q hmem
    obtain ⟨e, he, rfl⟩ := mem_image.mp hmem
    obtain ⟨hv, hha, s, hs⟩ := hd.acknowledged _ e he
    have hc : (d.collectCertificate m)[e.1]? = some s := by
      rw [BroadcastData.collectCertificate, getElem?_foldl_insertSome, if_pos, hm, hs, Option.some_or]
      rw [mem_ascending, hm, hh]
      exact mem_image_of_mem _ (mem_filter.mpr ⟨he, hha⟩)
    simp [validSigners, hv, hc, hd.signed _ _ _ hs]
  calc d.broadcastView.quorumSize ≤ acknowledged.card := hd.acknowledgedQuorum hq
    _ = (acknowledged.image Prod.fst).card := (card_image_of_injOn hinj).symm
    _ ≤ _ := card_le_card hsub

end

lemma of_fresh (hd : DbrbProcess.Fresh crypto env p h d)
    (ha : ∀ payload h, env.validate payload h = .messageValid → accepted h) :
    EntryInv crypto accepted received h d := by
  obtain ⟨hm, hv⟩ := hd
  constructor
  case hash => rfl
  case validated => exact fun hb => ha _ _ (hv hb)
  all_goals simp

lemma step {i : Input} (ha : ∀ payload h, env.validate payload h = .messageValid → accepted h)
    (hm : ∀ m, i = .processMessage m → received m) (hs : DbrbProcess.EntryStep crypto env p i h d d')
    (hd : EntryInv crypto accepted received h d) : EntryInv crypto accepted received h d' := by
  cases hs with
  | validate hv => exact { hd with validated := fun _ => ha _ _ hv }
  | acknowledge hl hv => exact hd.acknowledge rfl hl.view hl.sender hv
  | certify hvi hq => exact { hd with certificate := fun _ => hd.collectCertificate rfl hvi hq }
  | collectDeliver hl => exact hd.collectDeliver rfl hl.view hl.sender (hm _ rfl)
  | collectConfirmDeliver hl => exact hd.collectConfirmDeliver rfl hl.view hl.sender (hm _ rfl)
  | commit | confirmDeliver | deliver => exact { hd with }

lemma of_validated (hd : EntryInv crypto accepted received h d)
    (ha : env.validate d.payload h = .messageValid → accepted h) (hv : d.validated env h = some d') :
    EntryInv crypto accepted received h d' := by
  rcases DbrbProcess.validated_cases hv with ⟨rfl, _⟩ | ⟨rfl, hval⟩
  · exact hd
  · exact { hd with validated := fun _ => ha hval }

end EntryInv

theorem DbrbProcess.step_entryInv {crypto : Crypto} {env : Environment} {p : DbrbProcess} {i : Input}
    {accepted : Hash256 → Prop} {received : Message → Prop} (hp : p.AllEntries (EntryInv crypto accepted received))
    (ha : ∀ payload h, env.validate payload h = .messageValid → accepted h)
    (hm : ∀ m, i = .processMessage m → received m) :
    (p.step crypto env i).1.AllEntries (EntryInv crypto accepted received) :=
  step_allEntries hp (fun _ _ hd => .of_fresh hd ha) (fun _ _ _ hs => .step ha hm hs)

end XpxChain.Dbrb

