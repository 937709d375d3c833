import XpxChain.DeltaSet.Refinement
import XpxChain.Dbrb.ProcessRegistry

/-! The delta of the DBRB view cache, which keeps the identifiers of the processes in a set of their own, next to the
entries. -/

namespace XpxChain.Dbrb

open Std Library OrderedContainers DeltaSet Exceptions DbrbViewCache ExtTreeMap

inductive ViewCacheError
  | divisionByZero
  | alreadyExists (processId : ProcessId)
  | doesNotExist (processId : ProcessId)
  /-- A lookup of an entry that is not there. -/
  | missingEntry (processId : ProcessId)
  | elementNotFound (processId : ProcessId)
  | unreadableSummary
deriving DecidableEq

structure DbrbViewCacheDelta where
  dbrbProcessEntries : BaseSetDelta ProcessId DbrbProcessEntry
  deltaProcessIds : BaseSetDelta ProcessId ProcessId

namespace DbrbViewCacheDelta

variable (delta : DbrbViewCacheDelta)

def insertProcessId (processId : ProcessId) : DbrbViewCacheDelta :=
  if delta.deltaProcessIds.contains processId then delta
  else { delta with deltaProcessIds := (delta.deltaProcessIds.insert processId processId).1 }

def insert (entry : DbrbProcessEntry) : Except ViewCacheError DbrbViewCacheDelta :=
  let inserted := delta.dbrbProcessEntries.insert entry.processId entry
  if inserted.2 = .inserted ∨ inserted.2 = .unremoved then
    .ok ({ delta with dbrbProcessEntries := inserted.1 }.insertProcessId entry.processId)
  else .error (.alreadyExists entry.processId)

def remove (processId : ProcessId) : Except ViewCacheError DbrbViewCacheDelta :=
  let removed := delta.dbrbProcessEntries.remove processId
  if removed.2 = .none ∨ removed.2 = .redundant then .error (.doesNotExist processId)
  else .ok { dbrbProcessEntries := removed.1
             deltaProcessIds :=
              if delta.deltaProcessIds.contains processId then (delta.deltaProcessIds.remove processId).1
              else delta.deltaProcessIds }

def processIds : List ProcessId :=
  ascending ((keySet delta.deltaProcessIds.originalElements ∪ keySet delta.deltaProcessIds.added) \
    keySet delta.deltaProcessIds.removed)

def modify (processId : ProcessId) (change : DbrbProcessEntry → DbrbProcessEntry) :
    Except ViewCacheError (DbrbViewCacheDelta × DbrbProcessEntry) :=
  match delta.dbrbProcessEntries.find processId change with
  | (_, none) => .error (.missingEntry processId)
  | (entries, some entry) => .ok ({ delta with dbrbProcessEntries := entries }, entry)

def setExpirationTime (processId : ProcessId) (expirationTime : Timestamp) :
    Except ViewCacheError DbrbViewCacheDelta := do
  let (delta, _) ← delta.modify processId fun entry => { entry with expirationTime }
  return delta

def addDbrbProcess (config : RegistryConfiguration) (timestamp : Timestamp) (processId : ProcessId) :
    Except ViewCacheError DbrbViewCacheDelta :=
  if delta.dbrbProcessEntries.contains processId then
    delta.setExpirationTime processId (registrationExpirationTime config timestamp)
  else delta.insert { processId, expirationTime := registrationExpirationTime config timestamp }

def removeDbrbProcess (config : RegistryConfiguration) (timestamp : Timestamp) (processId : ProcessId) :
    Except ViewCacheError DbrbViewCacheDelta :=
  if 0 < config.dbrbProcessLifetimeAfterExpiration then
    .ok { delta with
      dbrbProcessEntries :=
        (delta.dbrbProcessEntries.find processId fun entry => { entry with expirationTime := timestamp }).1 }
  else if delta.dbrbProcessEntries.contains processId then delta.remove processId
  else .ok delta

def observe (config : RegistryConfiguration) (timestamp : Timestamp) :
    RegistryNotification → Except ViewCacheError DbrbViewCacheDelta
  | .addDbrbProcess processId => delta.addDbrbProcess config timestamp processId
  | .removeDbrbProcess processId => delta.removeDbrbProcess config timestamp processId

def pruneProcess (boundary : Timestamp) (delta : DbrbViewCacheDelta) (processId : ProcessId) :
    Except ViewCacheError DbrbViewCacheDelta := do
  let (delta, entry) ← delta.modify processId id
  if entry.expirationTime < boundary then delta.remove processId else return delta

def dbrbProcessPruning (config : RegistryConfiguration) (height : Height) (timestamp : Timestamp) :
    Except ViewCacheError DbrbViewCacheDelta :=
  if blockTargetTime config = 0 ∨ pruningInterval config = 0 then .error .divisionByZero
  else if IsPruningBlock config height timestamp then
    delta.processIds.foldlM (pruneProcess (pruningBoundary config timestamp)) delta
  else .ok delta

def updateProcess (banPeriods : ProcessId → Option ℕ) (delta : DbrbViewCacheDelta) (processId : ProcessId) :
    Except ViewCacheError DbrbViewCacheDelta := do
  let (delta, _) ← delta.modify processId fun entry =>
    { entry with version := 2, banPeriod := (banPeriods processId).getD entry.banPeriod }.decrementBanPeriod
  return delta

def dbrbProcessUpdate (config : RegistryConfiguration) (banPeriods : ProcessId → Option ℕ) :
    Except ViewCacheError DbrbViewCacheDelta :=
  if config.enableDbrbProcessBanning then delta.processIds.foldlM (updateProcess banPeriods) delta else .ok delta

def viewProcess (state : DbrbViewCacheDelta × DbrbViewFetcher) (processId : ProcessId) :
    Except ViewCacheError (DbrbViewCacheDelta × DbrbViewFetcher) := do
  let (delta, entry) ← state.1.modify processId id
  return (delta, state.2.addDbrbProcess entry)

def updateDbrbView : Except ViewCacheError (DbrbViewCacheDelta × DbrbViewFetcher) :=
  delta.processIds.foldlM viewProcess (delta, .empty)

def commit : Except ViewCacheError (DbrbViewCacheDelta × DbrbViewFetcher) := do
  let (delta, fetcher) ← delta.updateDbrbView
  let entries ← delta.dbrbProcessEntries.commit.mapError fun error => .elementNotFound error.key
  let processIds ← delta.deltaProcessIds.commit.mapError fun error => .elementNotFound error.key
  return (⟨entries, processIds⟩, fetcher)

end DbrbViewCacheDelta

end XpxChain.Dbrb
