import Embedai.IngestPipeline
import Embedai.ObjectLocations
import Embedai.TransitionSystems
import Embedai.UploadSteps

namespace Embedai.IngestPipeline

open Gateway TracedHandlers TransitionSystems

def Placed (ep : Episode) : Prop := ep.status ≠ .uploading ∧ ep.storagePath.isSome

instance (ep : Episode) : Decidable (Placed ep) :=
  inferInstanceAs (Decidable (_ ∧ _))

def Recoverable (sessionId : String) (g : Stores) : Prop :=
  ∀ sess, g.sessions.get? sessionId = some sess → sess.status = .completed →
    ∃ ep, g.episodes.get? sess.episodeId = some ep ∧ Placed ep

/-- A whole Complete request; a call may also fail after it has taken effect. -/
def requestNext (projects : List String) (sessionId : String) (g : Stores) (outcomes : Thread → Outcome Unit) :
    Option Stores :=
  some (alone projects outcomes 6 (some (.complete sessionId .getUploadSession), g))

structure Closes (sessionId : String) (g : Stores) (outcomes : Thread → Outcome Unit) (sess : UploadSession)
    (ep : Episode) : Prop where
  session : g.sessions.get? sessionId = some sess
  ready : sess.status = .inProgress ∧ sess.receivedChunks = sess.totalChunks
  episode : g.episodes.get? sess.episodeId = some ep
  chunks : (assembleChunks sessionId sess.totalChunks (storagePath sess.episodeId ep.filename) g).isSome
  calls : (outcomes (.complete sessionId .getUploadSession)).succeeds = true ∧
    (outcomes (.complete sessionId (.getEpisode sess))).succeeds = true ∧
    (outcomes (.complete sessionId (.assembleChunks sess ep))).succeeds = true
  closes : (outcomes (.complete sessionId (.completeSession sess ep))).takesEffect = true

def Finishes (sessionId : String) (outcomes : Thread → Outcome Unit) (sess : UploadSession) (ep : Episode) : Prop :=
  (outcomes (.complete sessionId (.completeSession sess ep))).succeeds = true ∧
    (outcomes (.complete sessionId (.updateEpisodeStatus sess ep))).takesEffect = true

def Strands (sessionId : String) (g : Stores) (outcomes : Thread → Outcome Unit) : Prop :=
  ∃ sess ep, Closes sessionId g outcomes sess ep ∧ ¬ Finishes sessionId outcomes sess ep ∧ ¬ Placed ep

structure SameRows (g t : Stores) : Prop where
  sessions : t.sessions = g.sessions
  episodes : t.episodes = g.episodes

structure Closed (sessionId : String) (outcomes : Thread → Outcome Unit) (sess : UploadSession) (ep : Episode)
    (g t : Stores) : Prop where
  sessions : t.sessions = g.sessions.modify sessionId closeSession
  finished : Finishes sessionId outcomes sess ep →
    t.episodes = g.episodes.modify sess.episodeId (placeEpisode (storagePath sess.episodeId ep.filename))
  unfinished : ¬ Finishes sessionId outcomes sess ep → t.episodes = g.episodes

variable {projects : List String} {sessionId : String} {outcomes : Thread → Outcome Unit} {sess : UploadSession}
  {ep : Episode} {g t : Stores}

theorem SameRows.trans {u : Stores} (h : SameRows g t) (h' : SameRows t u) : SameRows g u :=
  ⟨h'.sessions.trans h.sessions, h'.episodes.trans h.episodes⟩

theorem alone_cases (projects : List String) (outcomes : Thread → Outcome Unit) (n : ℕ) (th : Thread) (g : Stores)
    (herror : th.onError = none) :
    (((outcomes th).takesEffect = false ∨ th.answer projects g = none) ∧
        alone projects outcomes (n + 1) (some th, g) = g) ∨
      ∃ rest t, th.answer projects g = some (rest, t) ∧
        (((outcomes th).succeeds = true ∧
            alone projects outcomes (n + 1) (some th, g) = alone projects outcomes n (rest, t)) ∨
          ((outcomes th).takesEffect = true ∧ (outcomes th).succeeds = false ∧
            alone projects outcomes (n + 1) (some th, g) = t)) := by
  rw [alone]
  unfold Thread.call
  rw [herror]
  cases hanswer : th.answer projects g with
  | none =>
    refine Or.inl ⟨Or.inr rfl, ?_⟩
    cases outcomes th <;> exact alone_none ..
  | some p =>
    obtain ⟨rest, t⟩ := p
    cases outcomes th with
    | ok => exact Or.inr ⟨rest, t, rfl, Or.inl ⟨rfl, rfl⟩⟩
    | raises u => exact Or.inl ⟨Or.inl rfl, alone_none ..⟩
    | raisesLate u => exact Or.inr ⟨rest, t, rfl, Or.inr ⟨rfl, rfl, alone_none ..⟩⟩

theorem succeeds_takesEffect {outcome : Outcome Unit} (h : outcome.succeeds = true) : outcome.takesEffect = true := by
  cases outcome with
  | ok => rfl
  | raises u => cases h
  | raisesLate u => cases h

theorem sameRows_publish (projects : List String) (outcomes : Thread → Outcome Unit) (sessionId : String)
    (sess : UploadSession) (ep : Episode) (g : Stores) :
    SameRows g (alone projects outcomes 1 (some (.complete sessionId (.publish sess ep)), g)) := by
  rw [alone]
  unfold Thread.call
  cases outcomes (.complete sessionId (.publish sess ep)) <;> exact ⟨rfl, rfl⟩

theorem rows_updateEpisodeStatus
    (h : alone projects outcomes 2 (some (.complete sessionId (.updateEpisodeStatus sess ep)), g) = t) :
    t.sessions = g.sessions ∧
      ((outcomes (.complete sessionId (.updateEpisodeStatus sess ep))).takesEffect = true →
        t.episodes = g.episodes.modify sess.episodeId (placeEpisode (storagePath sess.episodeId ep.filename))) ∧
      ((outcomes (.complete sessionId (.updateEpisodeStatus sess ep))).takesEffect = false →
        t.episodes = g.episodes) := by
  subst h
  rcases alone_cases projects outcomes 1 (.complete sessionId (.updateEpisodeStatus sess ep)) g rfl with
    ⟨hfails | hnone, hend⟩ | ⟨rest, u, hanswer, ⟨hsucceeds, hend⟩ | ⟨heffect, -, hend⟩⟩
  · rw [hend, hfails]
    exact ⟨rfl, nofun, fun _ => rfl⟩
  · cases hnone
  · cases hanswer
    have hsame := sameRows_publish projects outcomes sessionId sess ep
      { g with episodes := g.episodes.modify sess.episodeId (placeEpisode (storagePath sess.episodeId ep.filename)) }
    rw [succeeds_takesEffect hsucceeds, hend]
    exact ⟨hsame.sessions, fun _ => hsame.episodes, nofun⟩
  · cases hanswer
    rw [heffect, hend]
    exact ⟨rfl, fun _ => rfl, nofun⟩

theorem rows_completeSession
    (h : alone projects outcomes 3 (some (.complete sessionId (.completeSession sess ep)), g) = t) :
    ((outcomes (.complete sessionId (.completeSession sess ep))).takesEffect = true ∧
        Closed sessionId outcomes sess ep g t) ∨
      ((outcomes (.complete sessionId (.completeSession sess ep))).takesEffect = false ∧ SameRows g t) := by
  subst h
  rcases alone_cases projects outcomes 2 (.complete sessionId (.completeSession sess ep)) g rfl with
    ⟨hfails | hnone, hend⟩ | ⟨rest, u, hanswer, ⟨hsucceeds, hend⟩ | ⟨heffect, hlost, hend⟩⟩
  · rw [hend]
    exact Or.inr ⟨hfails, rfl, rfl⟩
  · cases hnone
  · cases hanswer
    obtain ⟨hsessions, hupdated, hkept⟩ := rows_updateEpisodeStatus hend.symm
    refine Or.inl ⟨succeeds_takesEffect hsucceeds, hsessions, fun hfinishes => hupdated hfinishes.2, fun hnot => ?_⟩
    exact hkept (Bool.eq_false_iff.mpr fun heffect => hnot ⟨hsucceeds, heffect⟩)
  · cases hanswer
    rw [hend]
    refine Or.inl ⟨heffect, rfl, fun hfinishes => ?_, fun _ => rfl⟩
    exact absurd (hfinishes.1.symm.trans hlost) (by decide)

theorem rows_step (projects : List String) (outcomes : Thread → Outcome Unit) (n : ℕ) (th : Thread) (g : Stores)
    (herror : th.onError = none) (hkeeps : ∀ rest t, th.answer projects g = some (rest, t) → SameRows g t) :
    (¬ ((th.answer projects g).isSome ∧ (outcomes th).succeeds = true) ∧
        SameRows g (alone projects outcomes (n + 1) (some th, g))) ∨
      ∃ rest t, th.answer projects g = some (rest, t) ∧ (outcomes th).succeeds = true ∧
        alone projects outcomes (n + 1) (some th, g) = alone projects outcomes n (rest, t) := by
  rcases alone_cases projects outcomes n th g herror with
    ⟨hfails, hend⟩ | ⟨rest, t, hanswer, ⟨hsucceeds, hend⟩ | ⟨-, hlost, hend⟩⟩
  · left
    rw [hend]
    refine ⟨?_, rfl, rfl⟩
    rintro ⟨hsome, hsucceeds⟩
    rcases hfails with hfails | hnone
    · exact absurd ((succeeds_takesEffect hsucceeds).symm.trans hfails) (by decide)
    · rw [hnone] at hsome
      cases hsome
  · exact Or.inr ⟨rest, t, hanswer, hsucceeds, hend⟩
  · left
    rw [hend]
    exact ⟨fun h => absurd (h.2.symm.trans hlost) (by decide), hkeeps rest t hanswer⟩

theorem sameRows_assembleChunks {n : ℤ} {path : String} {u : Unit}
    (h : assembleChunks sessionId n path g = some (u, t)) : SameRows g t := by
  obtain ⟨parts, -, rfl⟩ := assembleChunks_eq_some.mp h
  exact ⟨rfl, rfl⟩

theorem Closed.of_sameRows {u : Stores} (h : Closed sessionId outcomes sess ep u t) (hsame : SameRows g u) :
    Closed sessionId outcomes sess ep g t := by
  refine ⟨?_, fun hfinishes => ?_, fun hnot => ?_⟩
  · rw [h.sessions, hsame.sessions]
  · rw [h.finished hfinishes, hsame.episodes]
  · rw [h.unfinished hnot, hsame.episodes]

theorem rows_assembleChunks (hsess : g.sessions.get? sessionId = some sess)
    (hready : sess.status = .inProgress ∧ sess.receivedChunks = sess.totalChunks)
    (hep : g.episodes.get? sess.episodeId = some ep)
    (hread : (outcomes (.complete sessionId .getUploadSession)).succeeds = true ∧
      (outcomes (.complete sessionId (.getEpisode sess))).succeeds = true)
    (h : alone projects outcomes 4 (some (.complete sessionId (.assembleChunks sess ep)), g) = t) :
    (Closes sessionId g outcomes sess ep ∧ Closed sessionId outcomes sess ep g t) ∨
      (¬ Closes sessionId g outcomes sess ep ∧ SameRows g t) := by
  have hkeeps : ∀ rest u, Thread.answer projects g (.complete sessionId (.assembleChunks sess ep)) = some (rest, u) →
      SameRows g u := by
    intro rest u hanswer
    obtain ⟨⟨x, u'⟩, hcall, he⟩ := Option.map_eq_some_iff.mp hanswer
    cases he
    exact sameRows_assembleChunks hcall
  rcases rows_step projects outcomes 3 _ g rfl hkeeps with ⟨hstops, hsame⟩ | ⟨rest, u, hanswer, hsucceeds, hend⟩
  · right
    rw [← h]
    refine ⟨fun hcloses => hstops ⟨?_, hcloses.calls.2.2⟩, hsame⟩
    simpa [Thread.answer, completeCall] using hcloses.chunks
  · have hrows := hkeeps rest u hanswer
    obtain ⟨⟨x, u'⟩, hcall, he⟩ := Option.map_eq_some_iff.mp hanswer
    cases he
    rcases rows_completeSession (hend.symm.trans h) with ⟨heffect, hclosed⟩ | ⟨hfails, hsame⟩
    · left
      refine ⟨⟨hsess, hready, hep, ?_, ⟨hread.1, hread.2, hsucceeds⟩, heffect⟩, hclosed.of_sameRows hrows⟩
      rw [hcall, Option.isSome_some]
    · right
      exact ⟨fun hcloses => absurd (hcloses.closes.symm.trans hfails) (by decide), hrows.trans hsame⟩

theorem rows_getEpisode (hsess : g.sessions.get? sessionId = some sess)
    (hready : sess.status = .inProgress ∧ sess.receivedChunks = sess.totalChunks)
    (hread : (outcomes (.complete sessionId .getUploadSession)).succeeds = true)
    (h : alone projects outcomes 5 (some (.complete sessionId (.getEpisode sess)), g) = t) :
    (∃ ep, Closes sessionId g outcomes sess ep ∧ Closed sessionId outcomes sess ep g t) ∨
      ((∀ ep, ¬ Closes sessionId g outcomes sess ep) ∧ SameRows g t) := by
  have hkeeps : ∀ rest u, Thread.answer projects g (.complete sessionId (.getEpisode sess)) = some (rest, u) →
      SameRows g u := by
    intro rest u hanswer
    obtain ⟨⟨x, u'⟩, hcall, he⟩ := Option.map_eq_some_iff.mp hanswer
    obtain ⟨-, rfl⟩ := getEpisode_eq_some.mp hcall
    cases he
    exact ⟨rfl, rfl⟩
  rcases rows_step projects outcomes 4 _ g rfl hkeeps with ⟨hstops, hsame⟩ | ⟨rest, u, hanswer, hsucceeds, hend⟩
  · right
    rw [← h]
    refine ⟨fun ep hcloses => hstops ⟨?_, hcloses.calls.2.1⟩, hsame⟩
    simp [Thread.answer, completeCall, getEpisode, hcloses.episode]
  · obtain ⟨⟨ep, u'⟩, hcall, he⟩ := Option.map_eq_some_iff.mp hanswer
    obtain ⟨hep, rfl⟩ := getEpisode_eq_some.mp hcall
    cases he
    rcases rows_assembleChunks hsess hready hep ⟨hread, hsucceeds⟩ (hend.symm.trans h) with
      ⟨hcloses, hclosed⟩ | ⟨hnot, hsame⟩
    · exact Or.inl ⟨ep, hcloses, hclosed⟩
    · refine Or.inr ⟨fun ep' hcloses => hnot ?_, hsame⟩
      have hunique := hcloses.episode
      rw [hep, Option.some.injEq] at hunique
      exact hunique ▸ hcloses

theorem request_cases (h : requestNext projects sessionId g outcomes = some t) :
    (∃ sess ep, Closes sessionId g outcomes sess ep ∧ Closed sessionId outcomes sess ep g t) ∨
      ((∀ sess ep, ¬ Closes sessionId g outcomes sess ep) ∧ SameRows g t) := by
  rw [requestNext, Option.some.injEq] at h
  have hkeeps : ∀ rest u, Thread.answer projects g (.complete sessionId .getUploadSession) = some (rest, u) →
      SameRows g u := by
    intro rest u hanswer
    obtain ⟨⟨x, u'⟩, hcall, he⟩ := Option.map_eq_some_iff.mp hanswer
    obtain ⟨-, rfl⟩ := getUploadSession_eq_some.mp hcall
    cases he
    exact ⟨rfl, rfl⟩
  rcases rows_step projects outcomes 5 _ g rfl hkeeps with ⟨hstops, hsame⟩ | ⟨rest, u, hanswer, hsucceeds, hend⟩
  · right
    rw [← h]
    refine ⟨fun sess ep hcloses => hstops ⟨?_, hcloses.calls.1⟩, hsame⟩
    simp [Thread.answer, completeCall, getUploadSession, hcloses.session]
  · obtain ⟨⟨sess, u'⟩, hcall, he⟩ := Option.map_eq_some_iff.mp hanswer
    obtain ⟨hsess, rfl⟩ := getUploadSession_eq_some.mp hcall
    cases he
    have hunique {sess' : UploadSession} {ep : Episode} (hcloses : Closes sessionId g outcomes sess' ep) :
        sess' = sess := by
      have hsess' := hcloses.session
      rw [hsess, Option.some.injEq] at hsess'
      exact hsess'.symm
    by_cases hready : sess.status = .inProgress ∧ sess.receivedChunks = sess.totalChunks
    · rw [if_pos hready] at hend
      rcases rows_getEpisode hsess hready hsucceeds (hend.symm.trans h) with ⟨ep, hcloses, hclosed⟩ | ⟨hnot, hsame⟩
      · exact Or.inl ⟨sess, ep, hcloses, hclosed⟩
      · refine Or.inr ⟨fun sess' ep hcloses => hnot ep ?_, hsame⟩
        exact hunique hcloses ▸ hcloses
    · rw [if_neg hready, alone_none] at hend
      rw [← h, hend]
      refine Or.inr ⟨fun sess' ep hcloses => hready ?_, rfl, rfl⟩
      exact hunique hcloses ▸ hcloses.ready

theorem placed_placeEpisode (id : String) (ep : Episode) : Placed (placeEpisode (storagePath id ep.filename) ep) := by
  refine ⟨nofun, ?_⟩
  rw [placeEpisode, storagePath, String.append_assoc, nullIfEmpty_episodes]
  rfl

theorem recoverable_request (hg : Recoverable sessionId g) (h : requestNext projects sessionId g outcomes = some t) :
    Recoverable sessionId t ↔ ¬ Strands sessionId g outcomes := by
  rcases request_cases h with ⟨sess, ep, hcloses, hclosed⟩ | ⟨hnot, hsame⟩
  · have hsession : t.sessions.get? sessionId = some (closeSession sess) := by
      rw [hclosed.sessions, OrderedDict.get?_modify, if_pos rfl, hcloses.session, Option.map_some]
    have hrecoverable : Recoverable sessionId t ↔
        ∃ row, t.episodes.get? sess.episodeId = some row ∧ Placed row := by
      constructor
      · exact fun hrec => hrec (closeSession sess) hsession rfl
      · intro hplaced sess' hsess' _
        rw [hsession, Option.some.injEq] at hsess'
        subst hsess'
        exact hplaced
    have hstrands : Strands sessionId g outcomes ↔ ¬ Finishes sessionId outcomes sess ep ∧ ¬ Placed ep := by
      constructor
      · rintro ⟨sess', ep', hcloses', hstrands⟩
        have hsess := hcloses'.session
        rw [hcloses.session, Option.some.injEq] at hsess
        subst hsess
        have hep := hcloses'.episode
        rw [hcloses.episode, Option.some.injEq] at hep
        subst hep
        exact hstrands
      · exact fun hstrands => ⟨sess, ep, hcloses, hstrands⟩
    rw [hrecoverable, hstrands]
    by_cases hfinishes : Finishes sessionId outcomes sess ep
    · rw [hclosed.finished hfinishes, OrderedDict.get?_modify, if_pos rfl, hcloses.episode]
      refine ⟨fun _ h => h.1 hfinishes, fun _ => ⟨_, rfl, placed_placeEpisode sess.episodeId ep⟩⟩
    · rw [hclosed.unfinished hfinishes, hcloses.episode]
      constructor
      · rintro ⟨row, hrow, hplaced⟩ ⟨-, hnot⟩
        rw [Option.some.injEq] at hrow
        exact hnot (hrow ▸ hplaced)
      · exact fun hnot => ⟨ep, rfl, not_not.mp fun hplaced => hnot ⟨hfinishes, hplaced⟩⟩
  · constructor
    · rintro - ⟨sess, ep, hcloses, -⟩
      exact hnot sess ep hcloses
    · intro _ sess hsess hstatus
      rw [hsame.sessions] at hsess
      rw [hsame.episodes]
      exact hg sess hsess hstatus

theorem complete_recoverable (projects : List String) (sessionId : String) (g t : Stores)
    (requests : List (Thread → Outcome Unit)) (hg : Recoverable sessionId g)
    (hrun : run (requestNext projects sessionId) g requests = some t) :
    (∀ before s, before <+: requests → run (requestNext projects sessionId) g before = some s →
      Recoverable sessionId s) ↔
        Along (requestNext projects sessionId) (fun s outcomes => ¬ Strands sessionId s outcomes) g requests :=
  reached_iff_along (p := fun _ => True) (fun _ _ _ hs _ h => recoverable_request hs h) hg (fun _ _ => trivial) hrun

open ObjectLocations (oneChunkUploaded)

def failing (failed : Thread → Bool) (th : Thread) : Outcome Unit := if failed th then .raises () else .ok

def completesSession : Thread → Bool
  | .complete _ (.completeSession ..) => true
  | _ => false

def updatesEpisode : Thread → Bool
  | .complete _ (.updateEpisodeStatus ..) => true
  | _ => false

theorem recoverable_oneChunkUploaded : Recoverable "s-1" oneChunkUploaded := by
  intro sess hsess hstatus
  cases hsess
  cases hstatus

def retried : List (Thread → Outcome Unit) := [failing completesSession, failing fun _ => false]

theorem complete_recoverable_retried :
    (run (requestNext [] "s-1") oneChunkUploaded retried).isSome ∧
      ∀ before s, before <+: retried → run (requestNext [] "s-1") oneChunkUploaded before = some s →
        Recoverable "s-1" s := by
  refine ⟨rfl, (complete_recoverable [] "s-1" oneChunkUploaded _ retried recoverable_oneChunkUploaded rfl).mpr ?_⟩
  refine ⟨?_, fun s _ => ⟨?_, fun _ _ => trivial⟩⟩
  · rintro ⟨sess, ep, hcloses, -⟩
    cases hcloses.closes
  · rintro ⟨sess, ep, -, hstrands, -⟩
    exact hstrands ⟨rfl, rfl⟩

theorem strands_oneChunkUploaded : Strands "s-1" oneChunkUploaded (failing updatesEpisode) := by
  refine ⟨_, _, ⟨rfl, ⟨rfl, rfl⟩, rfl, ?_, ⟨rfl, rfl, rfl⟩, rfl⟩, ?_, ?_⟩
  · decide +kernel
  · rintro ⟨-, hupdated⟩
    cases hupdated
  · decide

theorem failed_update_strands :
    Recoverable "s-1" oneChunkUploaded ∧
      ¬ ∀ before s, before <+: [failing updatesEpisode] →
        run (requestNext [] "s-1") oneChunkUploaded before = some s → Recoverable "s-1" s := by
  refine ⟨recoverable_oneChunkUploaded, fun hall => ?_⟩
  have hrequest : requestNext [] "s-1" oneChunkUploaded (failing updatesEpisode) = some _ := rfl
  have hafter := hall [failing updatesEpisode] _ (List.prefix_refl _) (run_singleton hrequest)
  exact (recoverable_request recoverable_oneChunkUploaded hrequest).mp hafter strands_oneChunkUploaded

end Embedai.IngestPipeline
