import XpxChain.Dbrb.ProcessRegistry

/-! Removal of a DBRB process by the votes of the others: whose votes the validator counts, and what it reads. -/

namespace XpxChain.Dbrb

open Std Accounts Library Exceptions List

structure DbrbVote where
  signer : ProcessId
  signature : Signature
deriving DecidableEq

/-- The transaction with its signer; the number of votes is a 16-bit field. -/
structure RemoveDbrbProcessByNetwork where
  signer : ProcessId
  processId : ProcessId
  timestamp : Timestamp
  votes : List DbrbVote
  voteCount_lt : votes.length < 2 ^ 16

inductive RemovalResult
  | success
  | tooFarInFuture
  | tooFarInPast
  | subjectIsNotInDbrbSystem
  | notEnoughVotes
  | voterIsNotInDbrbSystem
  | invalidSignature
deriving DecidableEq

structure VoteCrypto where
  calculateHash : Timestamp → ProcessId → Hash256
  verify : ProcessId → Hash256 → Signature → Bool

def subtractNonNegative (a b : ℕ) : ℕ := a - b

section

variable (crypto : VoteCrypto) (config : RegistryConfiguration)

def isDbrbProcessExpiredOrNotExist (processId : ProcessId) (timestamp : Timestamp) (cache : DbrbViewCache) : Bool :=
  if processId ∈ config.dbrbBootstrapProcesses then false
  else
    match cache.entries[processId]? with
    | none => true
    | some entry => entry.expirationTime < timestamp

def removalView (fetcher : DbrbViewFetcher) (processId : ProcessId) (timestamp : Timestamp) : View :=
  ⟨(View.merge ⟨fetcher.getView timestamp⟩ ⟨config.dbrbBootstrapProcesses⟩).data.erase processId⟩

def validateVotes (cache : DbrbViewCache) (timestamp : Timestamp) (hash : Hash256) : List DbrbVote → RemovalResult
  | [] => .success
  | vote :: votes =>
    if isDbrbProcessExpiredOrNotExist config vote.signer timestamp cache then .voterIsNotInDbrbSystem
    else if crypto.verify vote.signer hash vote.signature = false then .invalidSignature
    else validateVotes cache timestamp hash votes

/-- The entries are those of the block that is being processed, the fetcher is the one of the last commit. -/
def validateRemoval (fetcher : DbrbViewFetcher) (cache : DbrbViewCache) (blockTime : Timestamp)
    (transaction : RemoveDbrbProcessByNetwork) : RemovalResult :=
  if addAmount blockTime config.maxBlockFutureTime < transaction.timestamp then .tooFarInFuture
  else if transaction.timestamp < subtractNonNegative blockTime config.maxTransactionLifetime then .tooFarInPast
  else if isDbrbProcessExpiredOrNotExist config transaction.processId transaction.timestamp cache then
    .subjectIsNotInDbrbSystem
  else if transaction.votes.length + 1 <
    (removalView config fetcher transaction.processId transaction.timestamp).quorumSize then
    .notEnoughVotes
  else validateVotes crypto config cache transaction.timestamp
    (crypto.calculateHash transaction.timestamp transaction.processId) transaction.votes

end

section

variable {crypto : VoteCrypto} {config : RegistryConfiguration} {fetcher : DbrbViewFetcher} {cache : DbrbViewCache}
  {blockTime timestamp : Timestamp} {transaction : RemoveDbrbProcessByNetwork} {id : ProcessId}

lemma mem_removalView {processId : ProcessId} : id ∈ (removalView config fetcher processId timestamp).data ↔
    id ≠ processId ∧ (id ∈ fetcher.getView timestamp ∨ id ∈ config.dbrbBootstrapProcesses) := by
  rw [removalView, Finset.mem_erase, View.merge, Finset.mem_union]

end

/-! Four registered processes. Removing the first one needs all of the other three. -/

section

def fourProcessConfiguration : RegistryConfiguration where
  dbrbBootstrapProcesses := ∅
  dbrbRegistrationDuration := 100
  dbrbRegistrationGracePeriod := 0
  maxTransactionLifetime := 40
  maxBlockFutureTime := 10
  minCommitteePhaseTime := 1
  dbrbProcessLifetimeAfterExpiration := 0
  enableDbrbProcessBanning := false

def registeredProcesses (ids : List ProcessId) : DbrbViewCache :=
  ids.foldl (fun cache id => cache.insert { processId := id, expirationTime := 1000 }) .empty

def votersSignWithOne (voters : Finset ProcessId) : VoteCrypto where
  calculateHash _ _ := 0
  verify voter _ signature := voter ∈ voters ∧ signature = 1

def removalOfFirst (voters : List ProcessId) (h : (voters.map fun voter => (⟨voter, 1⟩ : DbrbVote)).length < 2 ^ 16) :
    RemoveDbrbProcessByNetwork where
  signer := 2
  processId := 1
  timestamp := 50
  votes := voters.map fun voter => ⟨voter, 1⟩
  voteCount_lt := h

/-- The process that is to be removed may vote, and so may a banned one. -/
example : validateRemoval (votersSignWithOne {1, 3}) fourProcessConfiguration
    (registeredProcesses [1, 2, 3, 4]).updateDbrbView (registeredProcesses [1, 2, 3, 4]) 50
    (removalOfFirst [1, 3] (by decide)) = .success := by
  decide +kernel

end

section

variable (crypto : VoteCrypto) (config : RegistryConfiguration)

/-- The transaction comes after `notifications` in its block; the cache has been committed before `uncommitted`. -/
def validateInChain (start : DbrbViewCache) (committed uncommitted : List RegistryBlock)
    (notifications : List RegistryNotification) (blockTime : Timestamp) (transaction : RemoveDbrbProcessByNetwork) :
    Except RegistryError RemovalResult := do
  let base ← executeBlocks start committed
  let cache ← executeBlocks base uncommitted
  return validateRemoval crypto config base.updateDbrbView (observeAll config blockTime notifications cache)
    blockTime transaction

/-- Who counts for the removal is as it was: the active processes other than the subject and the bootstrap processes are
the same. -/
def LeavesView (transaction : RemoveDbrbProcessByNetwork) (cache cache' : DbrbViewCache) : Prop :=
  ∀ id ∉ config.dbrbBootstrapProcesses, id ≠ transaction.processId →
    (cache'.Active transaction.timestamp id ↔ cache.Active transaction.timestamp id)

variable {crypto config} {cache cache' : DbrbViewCache} {transaction : RemoveDbrbProcessByNetwork}

lemma LeavesView.removalView_eq (h : LeavesView config transaction cache cache') :
    removalView config cache'.updateDbrbView transaction.processId transaction.timestamp =
      removalView config cache.updateDbrbView transaction.processId transaction.timestamp := by
  ext id
  rw [mem_removalView, mem_removalView, DbrbViewCache.mem_getView_updateDbrbView,
    DbrbViewCache.mem_getView_updateDbrbView]
  by_cases hs : id = transaction.processId
  · simp [hs]
  by_cases hb : id ∈ config.dbrbBootstrapProcesses
  · simp [hb]
  · rw [h id hb hs]

lemma validateRemoval_congr {fetcher fetcher' : DbrbViewFetcher} {blockTime : Timestamp}
    (h : removalView config fetcher' transaction.processId transaction.timestamp =
      removalView config fetcher transaction.processId transaction.timestamp) :
    validateRemoval crypto config fetcher' cache blockTime transaction =
      validateRemoval crypto config fetcher cache blockTime transaction := by
  rw [validateRemoval, validateRemoval, h]

/-- Whether the blocks in between have been committed makes no difference. -/
theorem validation_independent_of_commit (start : DbrbViewCache) (committed between uncommitted : List RegistryBlock)
    (notifications : List RegistryNotification) (blockTime : Timestamp)
    (hbetween : ∀ cache cache', executeBlocks start committed = .ok cache → executeBlocks cache between = .ok cache' →
      LeavesView config transaction cache cache') :
    validateInChain crypto config start committed (between ++ uncommitted) notifications blockTime transaction =
      validateInChain crypto config start (committed ++ between) uncommitted notifications blockTime transaction := by
  rw [validateInChain, validateInChain, executeBlocks_append, bind_assoc]
  refine bind_congr_of_ok fun base hbase => ?_
  rw [executeBlocks_append, bind_assoc]
  refine bind_congr_of_ok fun base' hbase' => ?_
  rw [bind_congr_of_ok]
  intro cache hcache
  rw [validateRemoval_congr (hbetween base base' hbase hbase').removalView_eq]

end

/-! A block registers a fourth process, then two of the first three remove the first. -/

section

def addsProcess (id : ProcessId) : RegistryBlock where
  config := fourProcessConfiguration
  height := 7
  timestamp := 45
  notifications := [.addDbrbProcess id]
  banPeriods _ := none

/-- The subject and another process renew their registrations, and banning is switched on. -/
def renewsProcesses : RegistryBlock where
  config := { fourProcessConfiguration with enableDbrbProcessBanning := true }
  height := 7
  timestamp := 45
  notifications := [.addDbrbProcess 1, .addDbrbProcess 2]
  banPeriods _ := none

theorem validation_independent_of_commit_renewal :
    validateInChain (votersSignWithOne {3}) fourProcessConfiguration (registeredProcesses [1, 2, 3]) []
      ([renewsProcesses] ++ [])
        [] 50 (removalOfFirst [3] (by decide)) =
      validateInChain (votersSignWithOne {3}) fourProcessConfiguration (registeredProcesses [1, 2, 3])
        ([] ++ [renewsProcesses])
        [] [] 50 (removalOfFirst [3] (by decide)) := by
  refine validation_independent_of_commit _ _ _ _ _ _ fun cache cache' hcache hcache' id _ _ => ?_
  cases hcache
  have hview : (executeBlocks (registeredProcesses [1, 2, 3]) [renewsProcesses]).map (fun cache =>
      cache.updateDbrbView.getView 50) =
        .ok ((registeredProcesses [1, 2, 3]).updateDbrbView.getView 50) := by decide +kernel
  rw [hcache'] at hview
  rw [← DbrbViewCache.mem_getView_updateDbrbView, ← DbrbViewCache.mem_getView_updateDbrbView]
  exact Finset.ext_iff.mp (Except.ok.inj hview) id

theorem validation_depends_on_commit :
    validateInChain (votersSignWithOne {3}) fourProcessConfiguration (registeredProcesses [1, 2, 3]) []
      [addsProcess 4] [] 50
        (removalOfFirst [3] (by decide)) = .ok .success ∧
      validateInChain (votersSignWithOne {3}) fourProcessConfiguration (registeredProcesses [1, 2, 3])
        [addsProcess 4] [] [] 50
        (removalOfFirst [3] (by decide)) = .ok .notEnoughVotes := by
  constructor <;> decide +kernel

end

end XpxChain.Dbrb

