import Embedai.TaskServiceSteps
import Embedai.TransitionSystems

namespace Embedai.TaskService

open TransitionSystems

def statusOf (s : State) (taskId : Uuid) : Option TaskStatus :=
  (s.tasks.get? taskId).map AnnotationTask.status

def StatusChange (driver : Driver) (s : State) (r : Request) (taskId : Uuid)
    (before after : TaskStatus) : Prop :=
  statusOf s taskId = some before ∧ (next driver s r).bind (statusOf · taskId) = some after ∧ before ≠ after

def FollowsTransitions (driver : Driver) (s : State) (r : Request) : Prop :=
  ∀ taskId before after, StatusChange driver s r taskId before after → after ∈ transitions before

/-- The webhook submits a created task although the table has no such edge. -/
def SubmitsCreated (r : Request) (before after : TaskStatus) : Prop :=
  (∃ payload newId now commits, r = .webhook payload newId now commits) ∧ before = .created ∧ after = .submitted

def FollowsTransitionsOrSubmits (driver : Driver) (s : State) (r : Request) : Prop :=
  ∀ taskId before after, StatusChange driver s r taskId before after →
    after ∈ transitions before ∨ SubmitsCreated r before after

theorem status_of_taskChange {r : Request} {id : Uuid} {task task' : AnnotationTask}
    (h : TaskChange r id task task') :
    task'.status = task.status ∨ task'.status ∈ transitions task.status ∨
      SubmitsCreated r task.status task'.status := by
  cases h with
  | kept => exact Or.inl rfl
  | moved hr hedge =>
    rw [change_status]
    exact Or.inr (Or.inl hedge)
  | @delivered payload newId now commits hr =>
    rcases advanceTask_status now task with hs | ⟨hfrom, hs⟩
    · exact Or.inl hs
    · rw [hs]
      rcases hfrom with hf | hf
      · exact Or.inr (Or.inl (by rw [hf]; decide))
      · exact Or.inr (Or.inr ⟨⟨payload, newId, now, commits, hr⟩, hf, rfl⟩)

theorem followsTransitionsOrSubmits (driver : Driver) (s : State) (r : Request) :
    FollowsTransitionsOrSubmits driver s r := by
  rintro taskId before after ⟨hbefore, hafter, hne⟩
  obtain ⟨task, ht, rfl⟩ := Option.map_eq_some_iff.mp hbefore
  obtain ⟨task', ht', hchange⟩ := task_step (step_serve driver s r) ht
  have hs : (serve driver s r).tasks.get? taskId = some task' := ht'
  simp only [next, Option.bind_some, statusOf, hs, Option.map_some, Option.some.injEq] at hafter
  subst hafter
  rcases status_of_taskChange hchange with hsame | hrest
  · exact absurd hsame.symm hne
  · exact hrest

def Request.Accepted : Request → Prop
  | .create _ _ _ _ flush _ commits => flush = .accepted ∧ commits = true
  | .assign _ _ _ _ commits => commits = true
  | .submit _ _ _ _ _ commits => commits = true
  | .approve _ _ _ commits _ => commits = true
  | .reject _ _ _ _ commits => commits = true
  | .webhook _ _ _ commits => commits = true

def bindInt : Json → Option ℤ
  | .int n => some n
  | _ => none

def plainDriver : Driver := ⟨bindInt, Json.pyEq⟩

def engineer : CurrentUser :=
  ⟨"00000000-0000-0000-0000-0000000000e1", "00000000-0000-0000-0000-0000000000a1", some "engineer"⟩

def createLinked : Request :=
  .create ⟨none, "video_annotation", none, none, [], none⟩ engineer ⟨1⟩ 0 .accepted (some 7) true

def deliverSeven : Request :=
  .webhook [("action", .str "ANNOTATION_CREATED"), ("annotation", .obj [("id", .int 1), ("task", .int 7),
    ("result", .arr [])])] ⟨2⟩ 1 true

theorem webhook_leaves_path :
    ¬ ∀ (driver : Driver) (requests : List Request), (∀ r ∈ requests, r.Accepted) →
      Along (next driver) (FollowsTransitions driver) initial requests := by
  intro h
  have hpath := (h plainDriver [createLinked, deliverSeven] (by
    intro r hr
    rcases List.mem_pair.mp hr with rfl | rfl
    · exact ⟨rfl, rfl⟩
    · rfl)).2 _ rfl
  have hedge := hpath.1 ⟨1⟩ .created .submitted ⟨by decide +kernel, by decide +kernel, by decide⟩
  exact absurd hedge (by decide)

theorem statusPath (driver : Driver) (s : State) (requests : List Request) :
    Along (next driver) (FollowsTransitionsOrSubmits driver) s requests :=
  along_of_forall (followsTransitionsOrSubmits driver) s requests

end Embedai.TaskService
