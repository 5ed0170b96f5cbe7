import Embedai.ListSplits
import Embedai.StreamIngestion
import Embedai.UploadSteps

/-!
The upload requests with the session's id as the client has written it: PostgreSQL reads the text as a `uuid` where a
row is looked for, and the chunks are stored under the text itself.
-/

namespace Embedai.UploadRequests

open Gateway Handlers ListSplits
open StreamServer (uuidIn uuidGroups)

/-- The id of the row that a text names; a text that is no `uuid` names none. -/
def rowId (text : String) : String :=
  match uuidIn text with
  | some id => id.text
  | none => text

def uploadChunk (fails : Call → Bool) (sessionId n : String) (body : List UInt8) : Handler Stores HttpError ℕ := do
  let chunkN ← require (chunkNumber n)
  let sess ← attempt (fails .getUploadSession) ⟨404, "session not found"⟩ (getUploadSession (rowId sessionId))
  require (checkInProgress sess)
  require (checkInRange sess chunkN)
  attempt (fails .uploadChunk) ⟨500, "failed to store chunk"⟩ (putObject (chunkKey sessionId chunkN) body)
  attempt (fails .incrementReceivedChunks) ⟨500, "failed to update session"⟩
    (incrementReceivedChunks (rowId sessionId))
  return chunkN

def complete (fails : Call → Bool) (sessionId : String) : Handler Stores HttpError CompleteResponse := do
  let sess ← attempt (fails .getUploadSession) ⟨404, "session not found"⟩ (getUploadSession (rowId sessionId))
  require (checkInProgress sess)
  require (checkReceived sess)
  let ep ← attempt (fails .getEpisode) ⟨500, "failed to fetch episode"⟩ (getEpisode sess.episodeId)
  let path := storagePath sess.episodeId ep.filename
  attempt (fails .assembleChunks) ⟨500, "failed to assemble chunks"⟩ (assembleChunks sessionId sess.totalChunks path)
  attempt (fails .completeSession) ⟨500, "failed to mark session complete"⟩ (completeSession (rowId sessionId))
  attempt (fails .updateEpisodeStatus) ⟨500, "failed to update episode"⟩
    (updateEpisodeStatus sess.episodeId .processing path)
  modify (if fails .publish then id else publishEpisodeIngested sess.episodeId path ep.format)
  return ⟨sess.episodeId, path, "processing"⟩

section Spellings

variable {u : Uuid} {text : String}

theorem uuidGroups_digits (digit : ℕ → Char) (hdigit : ∀ i, (Hexadecimal.hexValue (digit i)).isSome ∧ digit i ≠ '-') :
    uuidGroups 8 [digit 0, digit 1, digit 2, digit 3, digit 4, digit 5, digit 6, digit 7, '-', digit 8, digit 9,
      digit 10, digit 11, '-', digit 12, digit 13, digit 14, digit 15, '-', digit 16, digit 17, digit 18, digit 19,
      '-', digit 20, digit 21, digit 22, digit 23, digit 24, digit 25, digit 26, digit 27, digit 28, digit 29,
      digit 30, digit 31] = some ((List.range 32).map digit) := by
  simp [uuidGroups, hdigit, List.range_succ]

theorem uuidIn_text (u : Uuid) : uuidIn u.text = some u := by
  let digit : ℕ → Char := fun i => Hexadecimal.hexDigit (u.bits.toNat / 16 ^ (31 - i) % 16)
  have hfacts : ∀ d < 16, (Hexadecimal.hexValue (Hexadecimal.hexDigit d)).isSome ∧ Hexadecimal.hexDigit d ≠ '-' ∧
      Hexadecimal.hexDigit d ≠ '{' := by decide
  have hdigit : ∀ i, (Hexadecimal.hexValue (digit i)).isSome ∧ digit i ≠ '-' ∧ digit i ≠ '{' :=
    fun i => hfacts _ (Nat.mod_lt _ (by decide))
  have hvalue : Hexadecimal.parse u.digits = some u.bits.toNat := by
    rw [Uuid.digits_eq, Hexadecimal.parse_digits (by decide), Nat.mod_eq_of_lt]
    exact u.bits.isLt
  have hgroups := uuidGroups_digits digit (fun i => ⟨(hdigit i).1, (hdigit i).2.1⟩)
  have htext : u.text.toList = [digit 0, digit 1, digit 2, digit 3, digit 4, digit 5, digit 6, digit 7, '-', digit 8,
      digit 9, digit 10, digit 11, '-', digit 12, digit 13, digit 14, digit 15, '-', digit 16, digit 17, digit 18,
      digit 19, '-', digit 20, digit 21, digit 22, digit 23, digit 24, digit 25, digit 26, digit 27, digit 28, digit 29,
      digit 30, digit 31] := by
    rw [Uuid.text, String.toList_ofList]
    rfl
  simp only [uuidIn, htext]
  split
  · next rest hrest =>
    exact absurd (List.cons.inj hrest).1 (hdigit 0).2.2
  · rw [hgroups]
    change (Hexadecimal.parse u.digits).map _ = _
    rw [hvalue, Option.map_some, BitVec.ofNat_toNat, BitVec.setWidth_eq]

theorem rowId_text (u : Uuid) : rowId u.text = u.text := by
  rw [rowId, uuidIn_text]

theorem slash_not_mem_of_uuidGroups {n : ℕ} {chars hex : List Char} (h : uuidGroups n chars = some hex) :
    '/' ∉ chars := by
  induction n generalizing chars hex with
  | zero =>
    rw [uuidGroups] at h
    split_ifs at h with hempty
    rw [hempty]
    exact List.not_mem_nil
  | succ n ih =>
    rw [uuidGroups] at h
    split_ifs at h with hfour
    obtain ⟨more, hmore, -⟩ := Option.map_eq_some_iff.mp h
    have hrest := ih hmore
    have hfirst : '/' ∉ chars.take 4 := by
      intro hmem
      have hvalue := List.all_eq_true.mp hfour.2 '/' hmem
      exact absurd hvalue (by decide)
    rw [← List.take_append_drop 4 chars, List.mem_append, not_or]
    refine ⟨hfirst, ?_⟩
    split_ifs at hrest with hdash
    · -- a hyphen after the group is left out
      cases hdrop : chars.drop 4 with
      | nil => exact List.not_mem_nil
      | cons c tail =>
        rw [hdrop] at hdash hrest
        have hc : c = '-' := Option.some.inj hdash.2
        rw [hc, List.mem_cons, not_or]
        exact ⟨by decide, hrest⟩
    · exact hrest

theorem slash_not_mem_of_uuidIn (h : uuidIn text = some u) : '/' ∉ text.toList := by
  obtain ⟨hex, hhex, -⟩ := Option.bind_eq_some_iff.mp h
  split at hhex
  · next rest htext =>
    split_ifs at hhex with hbrace
    · obtain ⟨init, rfl⟩ := List.getLast?_eq_some_iff.mp hbrace
      rw [List.dropLast_concat] at hhex
      have hinit := slash_not_mem_of_uuidGroups hhex
      simp [htext, hinit]
    · -- without a closing brace there is nothing to read
      cases hhex
  · exact slash_not_mem_of_uuidGroups hhex

theorem slash_not_mem_of_rowId (h : rowId text = u.text) : '/' ∉ text.toList := by
  unfold rowId at h
  split at h
  · next id hid => exact slash_not_mem_of_uuidIn hid
  · rw [h]
    exact u.slash_not_mem_text

theorem eq_of_chunkKey {a b : String} {m n : ℕ} (ha : '/' ∉ a.toList) (hb : '/' ∉ b.toList)
    (h : chunkKey a m = chunkKey b n) : a = b := by
  have hlist := congrArg String.toList h
  simp only [chunkKey, String.toList_append, List.append_assoc] at hlist
  exact String.toList_inj.mp (eq_of_append_cons ha hb (List.append_cancel_left hlist))

theorem eq_of_episodeKey {a b rest rest' : String} (ha : '/' ∉ a.toList) (hb : '/' ∉ b.toList)
    (h : "episodes/" ++ a ++ "/" ++ rest = "episodes/" ++ b ++ "/" ++ rest') : a = b := by
  have hlist := congrArg String.toList h
  simp only [String.toList_append, List.append_assoc] at hlist
  exact String.toList_inj.mp (eq_of_append_cons ha hb (List.append_cancel_left hlist))

theorem chunkKey_ne_episodeKey (sessionId episodeId rest : String) (n : ℕ) :
    chunkKey sessionId n ≠ "episodes/" ++ episodeId ++ "/" ++ rest := by
  intro h
  have hlist := congrArg String.toList h
  simp [chunkKey] at hlist

end Spellings

section Outcomes

variable {fails : Call → Bool} {g : Stores}

theorem uploadChunk_text (u : Uuid) (n : String) (body : List UInt8) :
    uploadChunk fails u.text n body = Gateway.uploadChunk fails u.text n body := by
  rw [uploadChunk, rowId_text, Gateway.uploadChunk]

theorem complete_text (u : Uuid) : complete fails u.text = Gateway.complete fails u.text := by
  rw [complete, rowId_text, Gateway.complete]

structure AcceptsInit (fails : Call → Bool) (req : InitRequest) (episodeId : String) (g : Stores) : Prop where
  bound : bindInit req = .ok ()
  inserted : fails .createEpisode = false
  fresh : episodeId ∉ g.episodes.keys

structure AcceptsChunk (fails : Call → Bool) (sessionId n : String) (g : Stores) (chunkN : ℕ) (sess : UploadSession) :
    Prop where
  number : chunkNumber n = .ok chunkN
  read : fails .getUploadSession = false
  session : g.sessions.get? (rowId sessionId) = some sess
  inProgress : sess.status = .inProgress
  inRange : (chunkN : ℤ) < sess.totalChunks
  stored : fails .uploadChunk = false

structure AcceptsComplete (fails : Call → Bool) (sessionId : String) (g : Stores) (sess : UploadSession) (ep : Episode)
    (parts : List (List UInt8)) : Prop where
  read : fails .getUploadSession = false
  session : g.sessions.get? (rowId sessionId) = some sess
  inProgress : sess.status = .inProgress
  received : sess.receivedChunks = sess.totalChunks
  found : fails .getEpisode = false
  episode : g.episodes.get? sess.episodeId = some ep
  assembled : fails .assembleChunks = false
  parts : ((List.range sess.totalChunks.toNat).map (chunkKey sessionId)).mapM g.objects = some parts

def afterInit (jwtProjectId : String) (req : InitRequest) (episodeId sessionId : String) (now : ℤ) (unopened : Bool)
    (g : Stores) (he : episodeId ∉ g.episodes.keys) : Stores :=
  { g with
    episodes := g.episodes.append episodeId (openedEpisode jwtProjectId req) he
    sessions :=
      if hs : unopened = false ∧ sessionId ∉ g.sessions.keys then
        g.sessions.append sessionId (openedSession req episodeId now) hs.2
      else g.sessions }

def afterChunk (sessionId : String) (chunkN : ℕ) (body : List UInt8) (uncounted : Bool) (g : Stores) : Stores :=
  { g with
    objects := Function.update g.objects (chunkKey sessionId chunkN) (some body)
    sessions := if uncounted then g.sessions else g.sessions.modify (rowId sessionId) countChunk }

def afterComplete (fails : Call → Bool) (sessionId : String) (sess : UploadSession) (ep : Episode)
    (parts : List (List UInt8)) (g : Stores) : Stores :=
  let path := storagePath sess.episodeId ep.filename
  let assembled := { g with objects := Function.update g.objects path (some parts.flatten) }
  if fails .completeSession then assembled
  else
    let closed := { assembled with sessions := g.sessions.modify (rowId sessionId) closeSession }
    if fails .updateEpisodeStatus then closed
    else { closed with
      episodes := g.episodes.modify sess.episodeId (placeEpisode path)
      events := if fails .publish then g.events else g.events ++ [⟨sess.episodeId, path, ep.format⟩] }

theorem objects_afterComplete {sessionId : String} {sess : UploadSession} {ep : Episode} {parts : List (List UInt8)} :
    (afterComplete fails sessionId sess ep parts g).objects =
      Function.update g.objects (storagePath sess.episodeId ep.filename) (some parts.flatten) := by
  unfold afterComplete
  split_ifs <;> rfl

theorem sessions_afterComplete {sessionId : String} {sess : UploadSession} {ep : Episode}
    {parts : List (List UInt8)} :
    (afterComplete fails sessionId sess ep parts g).sessions =
      if fails .completeSession then g.sessions else g.sessions.modify (rowId sessionId) closeSession := by
  unfold afterComplete
  split_ifs <;> rfl

theorem episodes_afterComplete {sessionId : String} {sess : UploadSession} {ep : Episode}
    {parts : List (List UInt8)} :
    (afterComplete fails sessionId sess ep parts g).episodes =
      if fails .completeSession ∨ fails .updateEpisodeStatus then g.episodes
      else g.episodes.modify sess.episodeId (placeEpisode (storagePath sess.episodeId ep.filename)) := by
  unfold afterComplete
  cases fails .completeSession <;> cases fails .updateEpisodeStatus <;> rfl

theorem init_accepted {jwtProjectId : String} {req : InitRequest} {episodeId sessionId : String} {now : ℤ}
    (h : AcceptsInit fails req episodeId g) :
    (answer (init fails jwtProjectId req episodeId sessionId now) g).2 =
      afterInit jwtProjectId req episodeId sessionId now (fails .createUploadSession) g h.fresh := by
  have hcreate : createEpisode episodeId (if req.projectId = "" then jwtProjectId else req.projectId) req.filename
      req.format req.sizeBytes g = some ((), { g with
        episodes := g.episodes.append episodeId (openedEpisode jwtProjectId req) h.fresh }) :=
    createEpisode_eq_some.mpr ⟨h.fresh, rfl⟩
  simp only [init, answer_bind, answer_require, h.bound, answer_attempt, h.inserted, hcreate, Bool.false_eq_true,
    if_false]
  cases hfails : fails .createUploadSession with
  | true => simp [afterInit]
  | false =>
    by_cases hs : sessionId ∈ g.sessions.keys
    · simp [createUploadSession, hs, afterInit]
    · simp [createUploadSession, hs, afterInit, answer_pure, openedSession]

theorem init_refused {jwtProjectId : String} {req : InitRequest} {episodeId sessionId : String} {now : ℤ}
    (h : ¬ AcceptsInit fails req episodeId g) :
    (answer (init fails jwtProjectId req episodeId sessionId now) g).2 = g := by
  cases hbind : bindInit req with
  | error e => simp only [init, answer_bind, answer_require, hbind]
  | ok _ =>
    have hnone : fails .createEpisode = true ∨ createEpisode episodeId
        (if req.projectId = "" then jwtProjectId else req.projectId) req.filename req.format req.sizeBytes g =
          none := by
      by_cases hfails : fails .createEpisode = true
      · exact Or.inl hfails
      · right
        by_cases hfresh : episodeId ∈ g.episodes.keys
        · simp [createEpisode, hfresh]
        · exact absurd ⟨hbind, Bool.eq_false_iff.mpr hfails, hfresh⟩ h
    rcases hnone with hfails | hnone
    · simp only [init, answer_bind, answer_require, hbind, answer_attempt, hfails, if_true]
    · simp only [init, answer_bind, answer_require, hbind, answer_attempt, hnone, ite_self]

theorem uploadChunk_accepted {sessionId n : String} {body : List UInt8} {chunkN : ℕ} {sess : UploadSession}
    (h : AcceptsChunk fails sessionId n g chunkN sess) :
    (answer (uploadChunk fails sessionId n body) g).2 =
      afterChunk sessionId chunkN body (fails .incrementReceivedChunks) g := by
  have hprogress : checkInProgress sess = .ok () := checkInProgress_eq_ok.mpr h.inProgress
  have hrange : checkInRange sess chunkN = .ok () := checkInRange_eq_ok.mpr h.inRange
  have hget : getUploadSession (rowId sessionId) g = some (sess, g) := getUploadSession_eq_some.mpr ⟨h.session, rfl⟩
  simp only [uploadChunk, answer_bind, answer_require, h.number, answer_attempt, h.read, hget, hprogress, hrange,
    h.stored, Bool.false_eq_true, if_false, putObject, incrementReceivedChunks]
  cases fails .incrementReceivedChunks with
  | true => simp [afterChunk]
  | false =>
    simp only [Bool.false_eq_true, if_false, answer_pure, afterChunk]
    rfl

theorem uploadChunk_refused {sessionId n : String} {body : List UInt8}
    (h : ∀ chunkN sess, ¬ AcceptsChunk fails sessionId n g chunkN sess) :
    (answer (uploadChunk fails sessionId n body) g).2 = g := by
  cases hnumber : chunkNumber n with
  | error e => simp only [uploadChunk, answer_bind, answer_require, hnumber]
  | ok chunkN =>
    simp only [uploadChunk, answer_bind, answer_require, hnumber, answer_attempt]
    cases hread : fails .getUploadSession with
    | true => rfl
    | false =>
      cases hsession : g.sessions.get? (rowId sessionId) with
      | none => simp [getUploadSession, hsession]
      | some sess =>
        have hget : getUploadSession (rowId sessionId) g = some (sess, g) :=
          getUploadSession_eq_some.mpr ⟨hsession, rfl⟩
        simp only [hget, Bool.false_eq_true, if_false]
        cases hprogress : checkInProgress sess with
        | error e => rfl
        | ok _ =>
          cases hrange : checkInRange sess chunkN with
          | error e => rfl
          | ok _ =>
            cases hstored : fails .uploadChunk with
            | true => rfl
            | false => exact absurd ⟨hnumber, hread, hsession, checkInProgress_eq_ok.mp hprogress,
                checkInRange_eq_ok.mp hrange, hstored⟩ (h chunkN sess)

theorem complete_accepted {sessionId : String} {sess : UploadSession} {ep : Episode} {parts : List (List UInt8)}
    (h : AcceptsComplete fails sessionId g sess ep parts) :
    (answer (complete fails sessionId) g).2 = afterComplete fails sessionId sess ep parts g := by
  have hprogress : checkInProgress sess = .ok () := checkInProgress_eq_ok.mpr h.inProgress
  have hreceived : checkReceived sess = .ok () := checkReceived_eq_ok.mpr h.received
  have hget : getUploadSession (rowId sessionId) g = some (sess, g) := getUploadSession_eq_some.mpr ⟨h.session, rfl⟩
  have hepisode : getEpisode sess.episodeId g = some (ep, g) := getEpisode_eq_some.mpr ⟨h.episode, rfl⟩
  have hassemble : assembleChunks sessionId sess.totalChunks (storagePath sess.episodeId ep.filename) g =
      some ((), { g with
        objects := Function.update g.objects (storagePath sess.episodeId ep.filename) (some parts.flatten) }) :=
    assembleChunks_eq_some.mpr ⟨parts, h.parts, rfl⟩
  simp only [complete, answer_bind, answer_require, answer_attempt, h.read, hget, hprogress, hreceived, h.found,
    hepisode, h.assembled, hassemble, Bool.false_eq_true, if_false, completeSession, updateEpisodeStatus, answer_modify,
    afterComplete]
  cases fails .completeSession with
  | true => rfl
  | false =>
    cases fails .updateEpisodeStatus with
    | true => rfl
    | false => cases fails .publish <;> rfl

theorem complete_refused {sessionId : String}
    (h : ∀ sess ep parts, ¬ AcceptsComplete fails sessionId g sess ep parts) :
    (answer (complete fails sessionId) g).2 = g := by
  simp only [complete, answer_bind, answer_require, answer_attempt]
  cases hread : fails .getUploadSession with
  | true => rfl
  | false =>
    cases hsession : g.sessions.get? (rowId sessionId) with
    | none => simp [getUploadSession, hsession]
    | some sess =>
      have hget : getUploadSession (rowId sessionId) g = some (sess, g) :=
        getUploadSession_eq_some.mpr ⟨hsession, rfl⟩
      simp only [hget, Bool.false_eq_true, if_false]
      cases hprogress : checkInProgress sess with
      | error e => rfl
      | ok _ =>
        cases hreceived : checkReceived sess with
        | error e => rfl
        | ok _ =>
          cases hfound : fails .getEpisode with
          | true => rfl
          | false =>
            cases hepisode : g.episodes.get? sess.episodeId with
            | none => simp [getEpisode, hepisode]
            | some ep =>
              have hget' : getEpisode sess.episodeId g = some (ep, g) := getEpisode_eq_some.mpr ⟨hepisode, rfl⟩
              simp only [hget', Bool.false_eq_true, if_false]
              cases hassembled : fails .assembleChunks with
              | true => rfl
              | false =>
                cases hparts : ((List.range sess.totalChunks.toNat).map (chunkKey sessionId)).mapM g.objects with
                | none => simp [assembleChunks, composeObject, hparts]
                | some parts => exact absurd ⟨hread, hsession, checkInProgress_eq_ok.mp hprogress,
                    checkReceived_eq_ok.mp hreceived, hfound, hepisode, hassembled, hparts⟩ (h sess ep parts)

theorem accepts_of_uploadChunk_ok {sessionId n : String} {body : List UInt8} {chunkN : ℕ} {t : Stores}
    (h : answer (uploadChunk fails sessionId n body) g = (.ok chunkN, t)) :
    ∃ sess, AcceptsChunk fails sessionId n g chunkN sess ∧ fails .incrementReceivedChunks = false := by
  simp only [uploadChunk, answer_bind_eq_ok, answer_require_eq_ok, answer_attempt_eq_ok, answer_pure,
    getUploadSession_eq_some, checkInProgress_eq_ok, checkInRange_eq_ok, Prod.mk.injEq, Except.ok.injEq] at h
  obtain ⟨k, _, ⟨hnumber, rfl⟩, sess, _, ⟨hread, hsession, rfl⟩, _, _, ⟨hprogress, rfl⟩, _, _, ⟨hrange, rfl⟩, _, _,
    ⟨hstored, -⟩, _, _, ⟨hcounted, -⟩, rfl, -⟩ := h
  exact ⟨sess, ⟨hnumber, hread, hsession, hprogress, hrange, hstored⟩, hcounted⟩

theorem accepts_of_complete_ok {sessionId : String} {r : CompleteResponse} {t : Stores}
    (h : answer (complete fails sessionId) g = (.ok r, t)) :
    ∃ sess ep parts, AcceptsComplete fails sessionId g sess ep parts ∧ fails .completeSession = false := by
  simp only [complete, answer_bind_eq_ok, answer_require_eq_ok, answer_attempt_eq_ok, getUploadSession_eq_some,
    getEpisode_eq_some, assembleChunks_eq_some, checkInProgress_eq_ok, checkReceived_eq_ok] at h
  obtain ⟨sess, _, ⟨hread, hsession, rfl⟩, _, _, ⟨hprogress, rfl⟩, _, _, ⟨hreceived, rfl⟩, ep, _,
    ⟨hfound, hepisode, rfl⟩, _, _, ⟨hassembled, parts, hparts, -⟩, _, _, ⟨hcloses, -⟩, -⟩ := h
  exact ⟨sess, ep, parts, ⟨hread, hsession, hprogress, hreceived, hfound, hepisode, hassembled, hparts⟩, hcloses⟩

end Outcomes

end Embedai.UploadRequests
