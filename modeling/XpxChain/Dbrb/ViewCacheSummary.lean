import XpxChain.Library.BinaryFormats
import XpxChain.Dbrb.ViewCacheDelta

/-! The summary of the DBRB view cache, which lists the identifiers of the processes. -/

namespace XpxChain.Dbrb

open Std Library OrderedContainers DeltaSet Exceptions BinaryFormats DbrbViewCache List

def writeProcessId (processId : ProcessId) : Bytes := littleEndian 32 processId.val

def saveSummary (processIds : List ProcessId) : Bytes :=
  littleEndian 4 1 ++ (littleEndian 8 processIds.length ++ processIds.flatMap writeProcessId)

def readProcessId (processIds : Finset ProcessId) : Reader (Finset ProcessId) := do
  let processId ← readNumber 32
  return insert (Fin.ofNat (2 ^ 256) processId) processIds

/-- The counter of the loop has 32 bits, so a loop that is longer ends only with the input. -/
def readProcessIds (count : ℕ) : Reader (Finset ProcessId) :=
  if count < 2 ^ 32 then repeatRead readProcessId count ∅ else failure

def readSummary : Reader (Finset ProcessId) := do
  let version ← readNumber 4
  if 1 < version then failure
  else do
    let count ← readNumber 8
    readProcessIds count

def loadSummary (input : Bytes) : Option (Finset ProcessId) :=
  if input = [] then some ∅ else (readSummary.run input).map Prod.fst

section

variable {processIds : List ProcessId}

lemma foldlM_insert (processIds : List ProcessId) (ids : Finset ProcessId) :
    processIds.foldlM (fun ids id => some (insert id ids)) ids = some (ids ∪ processIds.toFinset) := by
  induction processIds generalizing ids with
  | nil => simp
  | cons id processIds ih =>
    rw [foldlM_cons, Option.bind_eq_bind, Option.bind_some, ih, toFinset_cons, Finset.insert_union, Finset.union_insert]

lemma reads_readProcessId (id : ProcessId) (ids : Finset ProcessId) :
    Reads (readProcessId ids) (writeProcessId id) (insert id ids) := by
  have hr : Reads (readNumber 32) (writeProcessId id) id.val := Reads.readNumber id.isLt
  refine hr.bind_done ?_
  have hid : Fin.ofNat (2 ^ 256) id.val = id := Fin.ofNat_val_eq_self id
  rw [hid]
  exact Reads.pure _

lemma reads_readSummary (hlen : processIds.length < 2 ^ 32) :
    Reads readSummary (saveSummary processIds) processIds.toFinset := by
  refine (Reads.readNumber (by decide)).bind ?_
  refine (Reads.readNumber (hlen.trans (by decide))).bind ?_
  rw [readProcessIds, if_pos hlen]
  refine Reads.repeatRead (fun id _ ids ids' hids => ?_)
    ((foldlM_insert processIds ∅).trans (by rw [Finset.empty_union]))
  cases hids
  exact reads_readProcessId id ids

lemma saveSummary_ne_nil : saveSummary processIds ≠ [] := by
  intro hnil
  have hlen := congrArg length hnil
  simp [saveSummary] at hlen

theorem loadSummary_saveSummary (hlen : processIds.length < 2 ^ 32) :
    loadSummary (saveSummary processIds) = some processIds.toFinset := by
  have hr := reads_readSummary hlen []
  rw [append_nil] at hr
  rw [loadSummary, hr]
  rfl

lemma loadSummary_saveSummary_of_le (hle : 2 ^ 32 ≤ processIds.length) (hlt : processIds.length < 2 ^ 64) :
    loadSummary (saveSummary processIds) = none := by
  have hrun : ∀ {α β : Type} {reader : Reader α} {next : α → Reader β} {bytes rest : Bytes} {a : α},
      Reads reader bytes a →
      (reader >>= next).run (bytes ++ rest) = (next a).run rest := by
    intro α β reader next bytes rest a h
    rw [StateT.run_bind, h rest]
    rfl
  have hv : Reads (readNumber 4) (littleEndian 4 1) 1 := Reads.readNumber (by decide)
  have hcnt : Reads (readNumber 8) (littleEndian 8 processIds.length) processIds.length := Reads.readNumber hlt
  rw [loadSummary, if_neg saveSummary_ne_nil, readSummary, saveSummary, hrun hv, if_neg (by decide), hrun hcnt,
    readProcessIds, if_neg (by omega)]
  rfl

end

end XpxChain.Dbrb
