import Mathlib.Data.Rat.Floor
import Embedai.OrderedDict
import Embedai.RunWithConcurrency

/-!
The hook `useMcapFrames`. An action runs to the next `await`: a response that arrives takes `getFrame` and its caller to
their ends at once. A state setter has no effect once the hook is unmounted.
-/

namespace Embedai.McapFrames

open RunWithConcurrency

structure UseMcapFramesOptions where
  episodeId : String
  topics : List String
  deriving DecidableEq

structure FrameOptions where
  topic : String
  timestamp : ℚ
  deriving DecidableEq

/-- A URL of `createObjectURL`, with the arguments of the `getFrame` that made it. -/
structure BlobUrl where
  serial : ℕ
  episodeId : String
  options : FrameOptions
  deriving DecidableEq

/-- A `getFrame` that waits for its response, made by a task of a call. The signal is that of a call's controller. -/
structure FrameRequest where
  call : ℕ
  task : ℕ
  episodeId : String
  options : FrameOptions
  signal : Option ℕ
  deriving DecidableEq

def bucket (timestamp : ℚ) : ℤ := ⌊timestamp / 100000000⌋

def cacheKey (topic : String) (timestamp : ℚ) : String := topic ++ "_" ++ toString (bucket timestamp)

def maxConcurrent : ℕ := 2

inductive Callback
  | loadFrames
  | preloadFrames
  deriving DecidableEq

/-- `aborted` is the state of the controller that the call has made. -/
structure Call where
  callback : Callback
  props : UseMcapFramesOptions
  timestamp : ℚ
  aborted : Bool
  limiter : Limiter String
  newFrames : OrderedDict String BlobUrl
  finished : Bool

/-- `renders` has the props of every render, the last one first, `requests` those in flight, and `created` and `revoked`
the URLs that were. -/
structure Hook where
  renders : List UseMcapFramesOptions
  mounted : Bool
  cache : OrderedDict String BlobUrl
  frames : OrderedDict String BlobUrl
  isLoading : Bool
  abortController : Option ℕ
  calls : List Call
  requests : List FrameRequest
  created : List BlobUrl
  revoked : List BlobUrl

/-- A callback is that of the render with the given props. -/
inductive Action
  | render (props : UseMcapFramesOptions)
  | loadFrames (props : UseMcapFramesOptions) (timestamp : ℚ)
  | preloadFrames (props : UseMcapFramesOptions) (timestamp : ℚ)
  | settle (call task : ℕ) (succeeds : Bool)
  | remove (call task : ℕ)
  | resume (call : ℕ)
  | finish (call : ℕ)
  | unmount
  deriving DecidableEq

structure Fetch where
  newFrames : OrderedDict String BlobUrl
  requests : List FrameRequest

namespace Hook

def mount (props : UseMcapFramesOptions) : Hook :=
  ⟨[props], true, .empty, .empty, false, none, [], [], [], []⟩

def setFrames (frames : OrderedDict String BlobUrl) (h : Hook) : Hook :=
  if h.mounted then { h with frames := frames } else h

def setIsLoading (isLoading : Bool) (h : Hook) : Hook :=
  if h.mounted then { h with isLoading := isLoading } else h

def setCall (i : ℕ) (c : Call) (h : Hook) : Hook := { h with calls := h.calls.set i c }

def aborted (i : ℕ) (h : Hook) : Bool := h.calls[i]?.any Call.aborted

def loadTopic (h : Hook) (i : ℕ) (c : Call) : Fn String Fetch := fun task topic f =>
  if c.aborted then (false, f)
  else
    match h.cache.get? (cacheKey topic c.timestamp) with
    | some blobUrl => (false, { f with newFrames := f.newFrames.set topic blobUrl })
    | none => (true, { f with
        requests := f.requests ++ [⟨i, task, c.props.episodeId, ⟨topic, c.timestamp⟩, none⟩] })

def preloadTopic (h : Hook) (i : ℕ) (c : Call) : Fn String Fetch := fun task topic f =>
  match h.cache.get? (cacheKey topic c.timestamp) with
  | some _ => (false, f)
  | none => (true, { f with
      requests := f.requests ++ [⟨i, task, c.props.episodeId, ⟨topic, c.timestamp⟩, h.abortController⟩] })

def fetchTopic (h : Hook) (i : ℕ) (c : Call) : Fn String Fetch :=
  match c.callback with
  | .loadFrames => h.loadTopic i c
  | .preloadFrames => h.preloadTopic i c

def put (i : ℕ) (c : Call) (p : Limiter String × Fetch) (h : Hook) : Hook :=
  { h.setCall i { c with limiter := p.1, newFrames := p.2.newFrames } with requests := p.2.requests }

def begin (callback : Callback) (props : UseMcapFramesOptions) (timestamp : ℚ) (h : Hook) : Hook :=
  let c : Call := ⟨callback, props, timestamp, false, .start, .empty, false⟩
  put h.calls.length c
    (runWithConcurrency props.topics (h.fetchTopic h.calls.length c) maxConcurrent ⟨.empty, h.requests⟩)
    { h with calls := h.calls ++ [c] }

def abort (h : Hook) : Hook :=
  match h.abortController with
  | none => h
  | some i => { h with calls := h.calls.modify i (fun c => { c with aborted := true }) }

/-- What `loadFrames` does before its loop. -/
def supersede (h : Hook) : Hook := setIsLoading true { h.abort with abortController := some h.calls.length }

def loadFrames (props : UseMcapFramesOptions) (timestamp : ℚ) (h : Hook) : Hook :=
  if props.topics = [] then h else h.supersede.begin .loadFrames props timestamp

def preloadFrames (props : UseMcapFramesOptions) (timestamp : ℚ) (h : Hook) : Hook :=
  if props.topics = [] then h else h.begin .preloadFrames props timestamp

/-- The rest of `getFrame` and of the function that called it. -/
def fetched (r : FrameRequest) (c : Call) (h : Hook) : Hook :=
  let blobUrl : BlobUrl := ⟨h.created.length, r.episodeId, r.options⟩
  { h.setCall r.call { c with
      limiter := c.limiter.settle r.task
      newFrames :=
        match c.callback with
        | .loadFrames => c.newFrames.set r.options.topic blobUrl
        | .preloadFrames => c.newFrames } with
    requests := h.requests.erase r
    created := h.created ++ [blobUrl]
    cache := h.cache.set (cacheKey r.options.topic r.options.timestamp) blobUrl }

def failed (r : FrameRequest) (c : Call) (h : Hook) : Hook :=
  { h.setCall r.call { c with limiter := c.limiter.settle r.task } with requests := h.requests.erase r }

/-- A request whose signal is aborted is cancelled, and cannot succeed. -/
def settle (i task : ℕ) (succeeds : Bool) (h : Hook) : Option Hook := do
  let r ← h.requests.find? (fun r => r.call = i ∧ r.task = task)
  let c ← h.calls[i]?
  if succeeds then
    if r.signal.any (fun j => h.aborted j) then none else some (h.fetched r c)
  else some (h.failed r c)

def remove (i task : ℕ) (h : Hook) : Option Hook := do
  let c ← h.calls[i]?
  let limiter ← c.limiter.remove task
  return h.setCall i { c with limiter := limiter }

def resume (i : ℕ) (h : Hook) : Option Hook := do
  let c ← h.calls[i]?
  let p ← RunWithConcurrency.resume maxConcurrent (h.fetchTopic i c) (c.limiter, ⟨c.newFrames, h.requests⟩)
  return h.put i c p

/-- What follows `runWithConcurrency` in `loadFrames`. -/
def publish (c : Call) (h : Hook) : Hook :=
  let h := if 0 < c.newFrames.length then h.setFrames c.newFrames else h
  if c.aborted then h else h.setIsLoading false

def finish (i : ℕ) (h : Hook) : Option Hook := do
  let c ← h.calls[i]?
  if c.limiter.awaits = .returned ∧ ¬ c.finished then
    match c.callback with
    | .loadFrames => some ((h.setCall i { c with finished := true }).publish c)
    | .preloadFrames => some (h.setCall i { c with finished := true })
  else none

end Hook

def step (h : Hook) : Action → Option Hook
  | .render props => if h.mounted then some { h with renders := props :: h.renders } else none
  | .loadFrames props timestamp => if props ∈ h.renders then some (h.loadFrames props timestamp) else none
  | .preloadFrames props timestamp => if props ∈ h.renders then some (h.preloadFrames props timestamp) else none
  | .settle i task succeeds => h.settle i task succeeds
  | .remove i task => h.remove i task
  | .resume i => h.resume i
  | .finish i => h.finish i
  | .unmount => if h.mounted then some { h with mounted := false, revoked := h.cache.values } else none

end Embedai.McapFrames
