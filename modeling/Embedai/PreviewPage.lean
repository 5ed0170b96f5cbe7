import Embedai.ImageTopics
import Embedai.McapFrames

/-!
`PreviewPage` with its debounced loads and its `TimelineControl`, over the hook `useMcapFrames`. A render takes the
queued updates in their order, the effects run after it, and any callbacks may run before and between the two. Times are
exact.
-/

namespace Embedai.PreviewPage

open DatasetReads (TopicOut)
open ImageTopics (getImageTopics)
open McapFrames (Hook UseMcapFramesOptions)

deriving instance DecidableEq for TopicOut

structure EpisodeDetail where
  format : String
  durationSeconds : Option ℚ
  topics : Option (List TopicOut)
  deriving DecidableEq

/-- The version counts the values that `episodeId` and `episode` have had: `imageTopics`, `loadFrames` and
`debouncedLoadFrames` are new objects exactly when it grows. -/
structure Render where
  version : ℕ
  episodeId : String
  episode : Option EpisodeDetail
  currentTime : ℚ
  isPlaying : Bool
  playbackRate : ℚ
  deriving DecidableEq

namespace Render

def imageTopics (r : Render) : List String := getImageTopics (r.episode.bind EpisodeDetail.topics)

def duration (r : Render) : ℚ := (r.episode.bind EpisodeDetail.durationSeconds).getD 0

def options (r : Render) : UseMcapFramesOptions := ⟨r.episodeId, r.imageTopics⟩

/-- Anything else is a spinner or a message, without a timeline. -/
def hasTimeline (r : Render) : Bool := r.episode.any fun episode => episode.format = "mcap"

end Render

inductive Update
  | episode (episodeId : String) (episode : Option EpisodeDetail)
  | currentTime (timeNs : ℚ)
  | advance (deltaTime playbackRate duration : ℚ)
  | isPlaying (value : Bool)
  | playbackRate (rate : ℚ)

def round (x : ℚ) : ℤ := ⌊x + 1 / 2⌋

def maxTime (duration : ℚ) : ℤ := round (duration * 1000000000)

/-- The function given to `setCurrentTime`, and whether it calls `setIsPlaying(false)`. -/
def advance (deltaTime playbackRate duration prev : ℚ) : ℤ × Bool :=
  let newTime := round (prev + deltaTime * playbackRate * 1000000000)
  if maxTime duration ≤ newTime then (maxTime duration, true) else (newTime, false)

def update (p : Render × Bool) : Update → Render × Bool
  | .episode episodeId episode =>
    ({ p.1 with version := p.1.version + 1, episodeId := episodeId, episode := episode }, p.2)
  | .currentTime timeNs => ({ p.1 with currentTime := timeNs }, p.2)
  | .advance deltaTime playbackRate duration =>
    let q := advance deltaTime playbackRate duration p.1.currentTime
    ({ p.1 with currentTime := q.1 }, p.2 || q.2)
  | .isPlaying value => ({ p.1 with isPlaying := value }, p.2)
  | .playbackRate rate => ({ p.1 with playbackRate := rate }, p.2)

/-- What is set while the queue is taken is set after it. -/
def Render.next (r : Render) (updates : List Update) : Render :=
  let p := updates.foldl update (r, false)
  { p.1 with isPlaying := p.1.isPlaying && !p.2 }

structure Timeout where
  options : UseMcapFramesOptions
  timestamp : ℚ
  due : ℚ

/-- `ran` is the render whose effects ran last, `animation` has the variables of the animation frame asked for, and
`fired` the timeouts that have run, the last one first, with the clock then. -/
structure Page where
  shown : Render
  ran : Option Render
  updates : List Update
  animation : Option (ℚ × ℚ)
  lastFrameTime : ℚ
  lastLoadedTime : ℚ
  timeout : Option Timeout
  fired : List (ℚ × Timeout)
  hook : Hook
  clock : ℚ

inductive Action
  | wait (milliseconds : ℚ)
  | episode (episodeId : String) (episode : Option EpisodeDetail)
  | slide (newProgress : ℚ)
  | skip (seconds : ℚ)
  | toggle
  | rate (rate : ℚ)
  | animate
  | fire
  | render
  | effects
  | hook (action : McapFrames.Action)

def debounceDelay : ℚ := 150

def playbackFrameInterval : ℚ := 500000000

def playbackRates : List ℚ := [1 / 2, 1, 2]

namespace Page

def mount (episodeId : String) (episode : Option EpisodeDetail) (clock : ℚ) : Page where
  shown := ⟨0, episodeId, episode, 0, false, 1⟩
  ran := none
  updates := []
  animation := none
  lastFrameTime := 0
  lastLoadedTime := -1
  timeout := none
  fired := []
  hook := .mount (Render.options ⟨0, episodeId, episode, 0, false, 1⟩)
  clock := clock

def enqueue (updates : List Update) (s : Page) : Page := { s with updates := s.updates ++ updates }

def debouncedLoadFrames (timestamp : ℚ) (s : Page) : Page :=
  { s with timeout := some ⟨s.shown.options, timestamp, s.clock + debounceDelay⟩ }

def handleSeek (timeNs : ℚ) (s : Page) : Page :=
  ({ s with lastLoadedTime := -1 }.enqueue [.currentTime timeNs, .isPlaying false]).debouncedLoadFrames timeNs

def handleSliderChange (newProgress : ℚ) (s : Page) : Page :=
  s.handleSeek (newProgress / 100 * s.shown.duration * 1000000000)

def handleSkip (seconds : ℚ) (s : Page) : Page :=
  let newTime := s.shown.currentTime + seconds * 1000000000
  s.handleSeek (max 0 (min newTime (s.shown.duration * 1000000000)))

def handleToggle (s : Page) : Page := s.enqueue [.isPlaying (!s.shown.isPlaying)]

def animate (s : Page) : Option Page := do
  let (playbackRate, duration) ← s.animation
  let lastFrameTime := if s.lastFrameTime = 0 then s.clock else s.lastFrameTime
  let deltaTime := (s.clock - lastFrameTime) / 1000
  return { s with lastFrameTime := s.clock }.enqueue [.advance deltaTime playbackRate duration]

def fire (s : Page) : Option Page := do
  let τ ← s.timeout
  if τ.due ≤ s.clock then
    some { s with
      timeout := none
      fired := (s.clock, τ) :: s.fired
      hook := s.hook.loadFrames τ.options τ.timestamp }
  else none

def render (s : Page) : Page :=
  let shown := s.shown.next s.updates
  { s with
    shown := shown
    updates := []
    hook := { s.hook with renders := shown.options :: s.hook.renders } }

def changed {δ : Type} [DecidableEq δ] (s : Page) (dependencies : Render → δ) : Bool :=
  s.ran.map dependencies ≠ some (dependencies s.shown)

/-- Initial load - get first frame. -/
def loadFirst (s : Page) : Page :=
  if s.changed Render.version ∧ s.shown.imageTopics ≠ [] ∧
      (s.shown.episode.bind EpisodeDetail.durationSeconds).any (fun seconds => seconds ≠ 0) then
    { s with hook := s.hook.loadFrames s.shown.options 0 }
  else s

/-- Handle play/pause animation. -/
def restart (s : Page) : Page :=
  if s.changed (fun r => (r.isPlaying, r.playbackRate, r.duration)) then
    if s.shown.isPlaying then
      { s with lastFrameTime := 0, animation := some (s.shown.playbackRate, s.shown.duration) }
    else { s with animation := none }
  else s

/-- Load frames when `currentTime` changes. -/
def follow (s : Page) : Page :=
  if s.changed (fun r => (r.currentTime, r.isPlaying, r.version)) then
    if s.shown.isPlaying = false ∨ s.lastLoadedTime < 0 ∨
        playbackFrameInterval ≤ |s.shown.currentTime - s.lastLoadedTime| then
      { s with lastLoadedTime := s.shown.currentTime }.debouncedLoadFrames s.shown.currentTime
    else s
  else s

def effects (s : Page) : Page := { s.loadFirst.restart.follow with ran := some s.shown }

end Page

def Settled (s : Page) : Prop := s.updates = [] ∧ s.ran = some s.shown

def ofRequests : McapFrames.Action → Bool
  | .settle .. | .remove .. | .resume _ | .finish _ => true
  | _ => false

def step (s : Page) : Action → Option Page
  | .wait milliseconds => if 0 ≤ milliseconds then some { s with clock := s.clock + milliseconds } else none
  | .episode episodeId episode => some (s.enqueue [.episode episodeId episode])
  | .slide newProgress =>
    if s.shown.hasTimeline ∧ 0 ≤ newProgress ∧ newProgress ≤ 100 then some (s.handleSliderChange newProgress) else none
  | .skip seconds => if s.shown.hasTimeline ∧ seconds ∈ [-5, 5] then some (s.handleSkip seconds) else none
  | .toggle => if s.shown.hasTimeline then some s.handleToggle else none
  | .rate rate =>
    if s.shown.hasTimeline ∧ rate ∈ playbackRates then some (s.enqueue [.playbackRate rate]) else none
  | .animate => s.animate
  | .fire => s.fire
  | .render => some s.render
  | .effects => some s.effects
  | .hook action =>
    if ofRequests action then (McapFrames.step s.hook action).map (fun hook => { s with hook := hook }) else none

end Embedai.PreviewPage
