import Mathlib.Data.Finset.Basic
import Mathlib.Data.Rat.Defs
import Embedai.FilePaths
import Embedai.OrderedDict
import Embedai.TransitionSystems

/-!
The asyncio tasks of `McapFileCache`. A step is what one task does between two awaits; a section
under the global lock has no await in it and is part of one step.
-/

namespace Embedai.McapCache

open FilePaths (joinPath)

/-- The arguments of `McapFileCache`; `safeId` is the first 32 hex digits of the id's SHA-256. -/
structure Config where
  maxSize : ℕ
  ttl : ℚ
  cacheDir : String
  safeId : String → String

def Config.tmpPath (cfg : Config) (episodeId : String) : String :=
  joinPath cfg.cacheDir ("mcap_" ++ cfg.safeId episodeId ++ ".mcap")

def serviceConfig : Config :=
  { maxSize := 5
    ttl := 300
    cacheDir := "/tmp"
    safeId := fun episodeId =>
      (List.lookup episodeId
        [("ep-0", "f17ec25379ed31c2c23fa6804da0c457"), ("ep-1", "2542283432f8b6b2e09d999a6adf7152"),
          ("ep-2", "7e98dcc838c170ef655efe8d724a325b"), ("ep-3", "a499708e98cbc0cd1a09fb81f004adf6"),
          ("ep-4", "f68d0de87e5aec8df65e1b65fe035e73"), ("ep-5", "2d2bc60eac7e04c428a45916b7b716cf")]).getD "" }

structure Entry where
  path : String
  lastAccess : ℚ

abbrev LockId := ℕ

/-- Where a call of `get_or_download` stands, with the episode lock it waits for or holds. -/
inductive Stage
  | acquiring (lock : LockId)
  | checking (lock : LockId)
  | downloading (lock : LockId)
  | downloaded (lock : LockId)
  | failed (lock : LockId)
  | returned (path : String)
  | raised
  deriving DecidableEq

def Stage.lock? : Stage → Option LockId
  | .acquiring lock => some lock
  | .checking lock => some lock
  | .downloading lock => some lock
  | .downloaded lock => some lock
  | .failed lock => some lock
  | .returned _ => none
  | .raised => none

def Stage.held? : Stage → Option LockId
  | .acquiring _ => none
  | stage => stage.lock?

def Stage.InFlight (stage : Stage) : Prop := stage.lock? ≠ none

instance (stage : Stage) : Decidable stage.InFlight := inferInstanceAs (Decidable (_ ≠ _))

structure Call where
  episodeId : String
  storagePath : String
  stage : Stage

/-- `downloads` records the episodes for which a download was started. -/
structure State where
  cache : OrderedDict String Entry
  episodeLocks : OrderedDict String LockId
  disk : Finset String
  calls : ℕ → Option Call
  nextCall : ℕ
  nextLock : LockId
  downloads : List String

def initial : State :=
  { cache := OrderedDict.empty
    episodeLocks := OrderedDict.empty
    disk := ∅
    calls := fun _ => none
    nextCall := 0
    nextLock := 0
    downloads := [] }

def State.setCall (s : State) (t : ℕ) (c : Call) : State :=
  { s with calls := Function.update s.calls t (some c) }

def State.addCall (s : State) (c : Call) : State :=
  { s.setCall s.nextCall c with nextCall := s.nextCall + 1 }

def State.held? (s : State) (t : ℕ) : Option LockId := (s.calls t).bind (fun c => c.stage.held?)

def State.lock? (s : State) (t : ℕ) : Option LockId := (s.calls t).bind (fun c => c.stage.lock?)

/-- An `asyncio.Lock` goes to its waiters in their order of arrival. -/
def State.Grants (s : State) (lock : LockId) (t : ℕ) : Prop :=
  (∀ u < s.nextCall, s.held? u ≠ some lock) ∧ ∀ u < t, s.lock? u ≠ some lock

instance (s : State) (lock : LockId) (t : ℕ) : Decidable (s.Grants lock t) :=
  inferInstanceAs (Decidable (_ ∧ _))

def removeFile (s : State) (path : String) : State := { s with disk := s.disk.erase path }

def touch (s : State) (episodeId path : String) (now : ℚ) : State :=
  { s with cache := (s.cache.moveToEnd episodeId).set episodeId ⟨path, now⟩ }

def awaitLock (s : State) (episodeId storagePath : String) : State :=
  match s.episodeLocks.get? episodeId with
  | some lock => s.addCall ⟨episodeId, storagePath, .acquiring lock⟩
  | none =>
    { s.addCall ⟨episodeId, storagePath, .acquiring s.nextLock⟩ with
      episodeLocks := s.episodeLocks.set episodeId s.nextLock
      nextLock := s.nextLock + 1 }

def forgetStale (s : State) (episodeId : String) : State :=
  { s with
    cache := s.cache.erase episodeId
    episodeLocks := s.episodeLocks.erase episodeId }

def fastPath (s : State) (episodeId storagePath : String) (now : ℚ) : State :=
  match s.cache.get? episodeId with
  | some entry =>
    if entry.path ∈ s.disk then
      (touch s episodeId entry.path now).addCall ⟨episodeId, storagePath, .returned entry.path⟩
    else awaitLock (forgetStale s episodeId) episodeId storagePath
  | none => awaitLock s episodeId storagePath

def acquire (s : State) (t : ℕ) : Option State :=
  (s.calls t).bind fun c =>
    match c.stage with
    | .acquiring lock => if s.Grants lock t then some (s.setCall t { c with stage := .checking lock }) else none
    | _ => none

def startDownload (s : State) (t : ℕ) (c : Call) (lock : LockId) : State :=
  { s.setCall t { c with stage := .downloading lock } with downloads := s.downloads ++ [c.episodeId] }

def doubleCheck (s : State) (t : ℕ) (now : ℚ) : Option State :=
  (s.calls t).bind fun c =>
    match c.stage with
    | .checking lock =>
      match s.cache.get? c.episodeId with
      | some entry =>
        if entry.path ∈ s.disk then
          some ((touch s c.episodeId entry.path now).setCall t { c with stage := .returned entry.path })
        else some (startDownload s t c lock)
      | none => some (startDownload s t c lock)
    | _ => none

def downloadWrites (cfg : Config) (s : State) (t : ℕ) : Option State :=
  (s.calls t).bind fun c =>
    match c.stage with
    | .downloading _ => some { s with disk := insert (cfg.tmpPath c.episodeId) s.disk }
    | _ => none

def downloadSucceeds (cfg : Config) (s : State) (t : ℕ) : Option State :=
  (s.calls t).bind fun c =>
    match c.stage with
    | .downloading lock =>
      some { s.setCall t { c with stage := .downloaded lock } with
        disk := insert (cfg.tmpPath c.episodeId) s.disk }
    | _ => none

def downloadFails (cfg : Config) (s : State) (t : ℕ) : Option State :=
  (s.calls t).bind fun c =>
    match c.stage with
    | .downloading lock =>
      some ((removeFile s (cfg.tmpPath c.episodeId)).setCall t { c with stage := .failed lock })
    | _ => none

def dropLock (s : State) (t : ℕ) : Option State :=
  (s.calls t).bind fun c =>
    match c.stage with
    | .failed _ =>
      some { s.setCall t { c with stage := .raised } with
        episodeLocks := s.episodeLocks.erase c.episodeId }
    | _ => none

def popEntry (s : State) (episodeId path : String) : State :=
  removeFile
    { s with
      cache := s.cache.erase episodeId
      episodeLocks := s.episodeLocks.erase episodeId } path

def evictLoop (maxSize : ℕ) : ℕ → State → State
  | 0, s => s
  | fuel + 1, s =>
    if maxSize ≤ s.cache.length then
      match s.cache.items with
      | [] => s
      | (oldestId, oldest) :: _ => evictLoop maxSize fuel (popEntry s oldestId oldest.path)
    else s

def evict (cfg : Config) (s : State) : State := evictLoop cfg.maxSize s.cache.length s

/-- The section after a download. With `max_size = 0` the loop ends in the `KeyError` of `popitem`. -/
def store (cfg : Config) (s : State) (t : ℕ) (now : ℚ) : Option State :=
  (s.calls t).bind fun c =>
    match c.stage with
    | .downloaded _ =>
      if cfg.maxSize ≤ (evict cfg s).cache.length then
        some ((evict cfg s).setCall t { c with stage := .raised })
      else
        some { (evict cfg s).setCall t { c with stage := .returned (cfg.tmpPath c.episodeId) } with
          cache := (evict cfg s).cache.set c.episodeId ⟨cfg.tmpPath c.episodeId, now⟩ }
    | _ => none

def popAll (s : State) (items : List (String × Entry)) : State :=
  items.foldl (fun s p => popEntry s p.1 p.2.path) s

def expired (cfg : Config) (s : State) (now : ℚ) : List (String × Entry) :=
  s.cache.items.filter (fun p => cfg.ttl < now - p.2.lastAccess)

def cleanupExpired (cfg : Config) (s : State) (now : ℚ) : State := popAll s (expired cfg s now)

def clear (s : State) : State :=
  { s with
    cache := OrderedDict.empty
    episodeLocks := OrderedDict.empty
    disk := s.cache.values.foldl (fun disk entry => disk.erase entry.path) s.disk }

/-- The steps of the calls, with the clock readings they make, and of the two maintenance tasks.
`unlinkOutside` is another program deleting a file. -/
inductive Action
  | getOrDownload (episodeId storagePath : String) (now : ℚ)
  | acquire (t : ℕ)
  | doubleCheck (t : ℕ) (now : ℚ)
  | downloadWrites (t : ℕ)
  | downloadSucceeds (t : ℕ)
  | downloadFails (t : ℕ)
  | dropLock (t : ℕ)
  | store (t : ℕ) (now : ℚ)
  | cleanupExpired (now : ℚ)
  | clear
  | unlinkOutside (path : String)

def next (cfg : Config) (s : State) : Action → Option State
  | .getOrDownload episodeId storagePath now => some (fastPath s episodeId storagePath now)
  | .acquire t => acquire s t
  | .doubleCheck t now => doubleCheck s t now
  | .downloadWrites t => downloadWrites cfg s t
  | .downloadSucceeds t => downloadSucceeds cfg s t
  | .downloadFails t => downloadFails cfg s t
  | .dropLock t => dropLock s t
  | .store t now => store cfg s t now
  | .cleanupExpired now => some (cleanupExpired cfg s now)
  | .clear => some (clear s)
  | .unlinkOutside path => some (removeFile s path)

end Embedai.McapCache
