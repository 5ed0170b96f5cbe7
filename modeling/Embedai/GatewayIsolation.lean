import Embedai.Accounts
import Embedai.UploadRequests

namespace Embedai.GatewayIsolation

open Handlers TransitionSystems UploadRequests
open Gateway (Call Stores Episode UploadSession InitRequest chunkKey storagePath)
open Accounts (Directory User Jwt)
open StreamServer (uuidIn)

/-- `known` are the tokens that the clients have; `cleanUps` are the calls of `DeleteChunks` that have started. -/
structure World (τ : Type) where
  directory : Directory
  stores : Stores
  known : List τ
  cleanUps : List (String × ℤ)

inductive Credential (τ : Type)
  | known (i : ℕ)
  | madeUp (token : τ)

inductive Request (τ : Type)
  | register (hashed : Option String) (fails : Bool) (id : Uuid) (req : Accounts.RegisterRequest)
  | login (fails : Bool) (req : Accounts.LoginRequest) (now : ℤ)
  | init (credential : Option (Credential τ)) (now : ℤ) (fails : Call → Bool) (req : InitRequest)
    (episodeId sessionId : Uuid)
  | uploadChunk (credential : Option (Credential τ)) (now : ℤ) (fails : Call → Bool) (sessionId n : String)
    (body : List UInt8)
  | complete (credential : Option (Credential τ)) (now : ℤ) (fails : Call → Bool) (sessionId : String)
  -- no request: `DeleteChunks` comes to a chunk
  | deleteChunk (sessionId : String) (chunkN : ℕ)

section Requests

variable {τ α : Type} (jwt : Jwt τ) (secret : String) (isEmail : String → Bool)
  (compare : String → String → Bool) (expireHours : ℤ)

def behindAuth (token : Option τ) (now : ℤ) (handler : Accounts.Claims → Handler Stores Gateway.HttpError α) :
    Handler Stores Gateway.HttpError α := do
  let claims ← require (Accounts.auth jwt secret token now)
  handler claims

/-- The token of a request; one that a client has made up does not verify. -/
def sent (w : World τ) : Option (Credential τ) → Option (Option τ)
  | none => some none
  | some (.known i) => w.known[i]?.map some
  | some (.madeUp token) => if (jwt.verify token secret).isNone then some (some token) else none

def issued : Except Gateway.HttpError (Accounts.LoginResponse τ) → List τ
  | .ok response => [response.token]
  | .error _ => []

def startedCleanUps (sessionId : String) (g : Stores) :
    Except Gateway.HttpError Gateway.CompleteResponse → List (String × ℤ)
  | .ok _ => ((g.sessions.get? (rowId sessionId)).map (fun sess => (sessionId, sess.totalChunks))).toList
  | .error _ => []

def next (w : World τ) : Request τ → Option (World τ)
  | .register hashed fails id req =>
    some { w with directory := (answer (Accounts.register isEmail hashed fails id req) w.directory).2 }
  | .login fails req now =>
    let (response, directory) :=
      answer (Accounts.login jwt secret isEmail compare expireHours fails req now) w.directory
    some { w with directory := directory, known := w.known ++ issued response }
  | .init credential now fails req episodeId sessionId =>
    (sent jwt secret w credential).map fun token =>
      { w with stores := (answer (behindAuth jwt secret token now fun claims =>
        Gateway.init fails claims.projectId req episodeId.text sessionId.text now) w.stores).2 }
  | .uploadChunk credential now fails sessionId n body =>
    (sent jwt secret w credential).map fun token =>
      { w with stores := (answer (behindAuth jwt secret token now fun _ =>
        uploadChunk fails sessionId n body) w.stores).2 }
  | .complete credential now fails sessionId =>
    (sent jwt secret w credential).map fun token =>
      let (response, stores) := answer (behindAuth jwt secret token now fun _ => complete fails sessionId) w.stores
      { w with stores := stores, cleanUps := w.cleanUps ++ startedCleanUps sessionId w.stores response }
  | .deleteChunk sessionId chunkN =>
    if w.cleanUps.any (fun c => c.1 = sessionId && chunkN < c.2) then
      some { w with stores := Gateway.removeObject (chunkKey sessionId chunkN) w.stores }
    else none

end Requests

def EpisodeOf (P : Uuid) (g : Stores) (id : String) (ep : Episode) : Prop :=
  g.episodes.get? id = some ep ∧ uuidIn ep.projectId = some P

def SessionOf (P : Uuid) (g : Stores) (id : String) (sess : UploadSession) : Prop :=
  g.sessions.get? id = some sess ∧ ∃ ep, EpisodeOf P g sess.episodeId ep

/-- What is stored for the episodes of a project, and the chunks of its sessions, under each spelling of the id. -/
def ObjectOf (P : Uuid) (g : Stores) (key : String) : Prop :=
  (∃ id ep rest, EpisodeOf P g id ep ∧ key = "episodes/" ++ id ++ "/" ++ rest) ∨
    ∃ text sess n, SessionOf P g (rowId text) sess ∧ key = chunkKey text n

def UserOf (P : Uuid) (d : Directory) (id : Uuid) (user : User) : Prop :=
  d.users.get? id = some user ∧ user.projectId = some P

structure SameStores (P : Uuid) (g t : Stores) : Prop where
  episodes : ∀ id ep, EpisodeOf P t id ep ↔ EpisodeOf P g id ep
  sessions : ∀ id sess, SessionOf P t id sess ↔ SessionOf P g id sess
  objects : ∀ key, ObjectOf P g key → t.objects key = g.objects key

def SameUsers (P : Uuid) (d t : Directory) : Prop := ∀ id user, UserOf P t id user ↔ UserOf P d id user

structure SameProject {τ : Type} (P : Uuid) (w v : World τ) : Prop where
  users : SameUsers P w.directory v.directory
  stores : SameStores P w.stores v.stores

structure UuidKeys (g : Stores) : Prop where
  episodes : ∀ id ∈ g.episodes.keys, ∃ u : Uuid, id = u.text
  sessions : ∀ id ∈ g.sessions.keys, ∃ u : Uuid, id = u.text

section Stores

variable {P : Uuid} {g t u : Stores}

theorem objectOf_iff (h : SameStores P g t) (key : String) : ObjectOf P t key ↔ ObjectOf P g key := by
  simp only [ObjectOf, h.episodes, h.sessions]

theorem SameStores.refl (P : Uuid) (g : Stores) : SameStores P g g :=
  ⟨fun _ _ => Iff.rfl, fun _ _ => Iff.rfl, fun _ _ => rfl⟩

theorem SameStores.symm (h : SameStores P g t) : SameStores P t g :=
  ⟨fun id ep => (h.episodes id ep).symm, fun id sess => (h.sessions id sess).symm,
    fun key hkey => (h.objects key ((objectOf_iff h key).mp hkey)).symm⟩

theorem SameStores.trans (h : SameStores P g t) (h' : SameStores P t u) : SameStores P g u :=
  ⟨fun id ep => (h'.episodes id ep).trans (h.episodes id ep),
    fun id sess => (h'.sessions id sess).trans (h.sessions id sess),
    fun key hkey => (h'.objects key ((objectOf_iff h key).mpr hkey)).trans (h.objects key hkey)⟩

theorem uuid_of_session (hkeys : UuidKeys g) {id : String} {sess : UploadSession} (h : g.sessions.get? id = some sess) :
    ∃ u : Uuid, id = u.text :=
  hkeys.sessions id (OrderedDict.mem_keys.mpr ⟨sess, h⟩)

theorem uuid_of_episode (hkeys : UuidKeys g) {id : String} {ep : Episode} (h : g.episodes.get? id = some ep) :
    ∃ u : Uuid, id = u.text :=
  hkeys.episodes id (OrderedDict.mem_keys.mpr ⟨ep, h⟩)

theorem not_objectOf_chunkKey (hkeys : UuidKeys g) {text : String} {u : Uuid} (htext : rowId text = u.text)
    (hother : ∀ sess, ¬ SessionOf P g (rowId text) sess) (n : ℕ) : ¬ ObjectOf P g (chunkKey text n) := by
  rintro (⟨id, ep, rest, -, hkey⟩ | ⟨text', sess, n', hsess, hkey⟩)
  · exact chunkKey_ne_episodeKey text id rest n hkey
  · obtain ⟨v, hv⟩ := uuid_of_session hkeys hsess.1
    have he := eq_of_chunkKey (slash_not_mem_of_rowId htext) (slash_not_mem_of_rowId hv) hkey
    rw [← he] at hsess
    exact hother sess hsess

theorem not_objectOf_episodeKey (hkeys : UuidKeys g) {u : Uuid} (hother : ∀ ep, ¬ EpisodeOf P g u.text ep)
    (rest : String) : ¬ ObjectOf P g ("episodes/" ++ u.text ++ "/" ++ rest) := by
  rintro (⟨id, ep, rest', hep, hkey⟩ | ⟨text, sess, n, -, hkey⟩)
  · obtain ⟨v, rfl⟩ := uuid_of_episode hkeys hep.1
    have he := eq_of_episodeKey u.slash_not_mem_text v.slash_not_mem_text hkey
    rw [← he] at hep
    exact hother ep hep
  · exact chunkKey_ne_episodeKey text u.text rest n hkey.symm

theorem episodeOf_modify {id : String} {f : Episode → Episode} (hf : ∀ ep, (f ep).projectId = ep.projectId)
    (hother : ∀ ep, ¬ EpisodeOf P g id ep) (ht : t.episodes = g.episodes.modify id f) (i : String) (ep : Episode) :
    EpisodeOf P t i ep ↔ EpisodeOf P g i ep := by
  rw [EpisodeOf, ht, OrderedDict.get?_modify]
  split_ifs with hi
  · subst hi
    constructor
    · rintro ⟨hep, hproject⟩
      obtain ⟨ep', hep', rfl⟩ := Option.map_eq_some_iff.mp hep
      rw [hf] at hproject
      exact absurd ⟨hep', hproject⟩ (hother ep')
    · intro hep
      exact absurd hep (hother ep)
  · exact Iff.rfl

theorem sessionOf_modify {id : String} {f : UploadSession → UploadSession}
    (hf : ∀ sess, (f sess).episodeId = sess.episodeId) (hother : ∀ sess, ¬ SessionOf P g id sess)
    (hepisodes : ∀ i ep, EpisodeOf P t i ep ↔ EpisodeOf P g i ep) (ht : t.sessions = g.sessions.modify id f)
    (i : String) (sess : UploadSession) : SessionOf P t i sess ↔ SessionOf P g i sess := by
  simp only [SessionOf, hepisodes]
  rw [ht, OrderedDict.get?_modify]
  split_ifs with hi
  · subst hi
    constructor
    · rintro ⟨hsess, hproject⟩
      obtain ⟨sess', hsess', rfl⟩ := Option.map_eq_some_iff.mp hsess
      rw [hf] at hproject
      exact absurd ⟨hsess', hproject⟩ (hother sess')
    · intro hsess
      exact absurd hsess (hother sess)
  · exact Iff.rfl

variable {fails : Call → Bool}

theorem sameStores_init_iff {jwtProjectId : String} {req : InitRequest} {episodeId sessionId : String} {now : ℤ}
    {unopened : Bool} (he : episodeId ∉ g.episodes.keys) :
    SameStores P g (afterInit jwtProjectId req episodeId sessionId now unopened g he) ↔
      uuidIn (Gateway.openedEpisode jwtProjectId req).projectId ≠ some P := by
  have hnone : g.episodes.get? episodeId = none := OrderedDict.get?_eq_none.mpr he
  constructor
  · intro hsame hproject
    have hnew : EpisodeOf P (afterInit jwtProjectId req episodeId sessionId now unopened g he) episodeId
        (Gateway.openedEpisode jwtProjectId req) := by
      refine ⟨?_, hproject⟩
      rw [afterInit, OrderedDict.get?_append, if_pos rfl]
    have hold := ((hsame.episodes _ _).mp hnew).1
    rw [hnone] at hold
    cases hold
  · intro hproject
    have hepisodes : ∀ id ep, EpisodeOf P (afterInit jwtProjectId req episodeId sessionId now unopened g he) id ep ↔
        EpisodeOf P g id ep := by
      intro id ep
      rw [EpisodeOf, EpisodeOf, afterInit, OrderedDict.get?_append]
      split_ifs with hid
      · subst hid
        rw [hnone]
        constructor
        · rintro ⟨hep, hp⟩
          cases hep
          exact absurd hp hproject
        · rintro ⟨hep, -⟩
          cases hep
      · exact Iff.rfl
    refine ⟨hepisodes, fun id sess => ?_, fun key _ => rfl⟩
    simp only [SessionOf, hepisodes]
    have hsessions : (afterInit jwtProjectId req episodeId sessionId now unopened g he).sessions =
        if hs : unopened = false ∧ sessionId ∉ g.sessions.keys then
          g.sessions.append sessionId (Gateway.openedSession req episodeId now) hs.2
        else g.sessions := rfl
    rw [hsessions]
    split_ifs with hs
    · rw [OrderedDict.get?_append]
      split_ifs with hid
      · subst hid
        -- the new session is one of the new episode
        constructor
        · rintro ⟨hsess, ep, hep, -⟩
          cases hsess
          rw [Gateway.openedSession] at hep
          rw [hnone] at hep
          cases hep
        · rintro ⟨hsess, -⟩
          rw [OrderedDict.get?_eq_none.mpr hs.2] at hsess
          cases hsess
      · exact Iff.rfl
    · exact Iff.rfl

theorem sameStores_chunk (hkeys : UuidKeys g) {sessionId : String} {chunkN : ℕ} {body : List UInt8} {uncounted : Bool}
    {sess : UploadSession} (hsess : g.sessions.get? (rowId sessionId) = some sess)
    (hother : ¬ ∃ ep, EpisodeOf P g sess.episodeId ep) :
    SameStores P g (afterChunk sessionId chunkN body uncounted g) := by
  have hnone : ∀ sess', ¬ SessionOf P g (rowId sessionId) sess' := by
    rintro sess' ⟨hsess', hep⟩
    rw [hsess] at hsess'
    cases hsess'
    exact hother hep
  obtain ⟨u, hu⟩ := uuid_of_session hkeys hsess
  have hepisodes : ∀ id ep, EpisodeOf P (afterChunk sessionId chunkN body uncounted g) id ep ↔ EpisodeOf P g id ep :=
    fun _ _ => Iff.rfl
  refine ⟨hepisodes, fun id sess' => ?_, fun key hkey => ?_⟩
  · cases uncounted with
    | true => exact Iff.rfl
    | false => exact sessionOf_modify (f := Gateway.countChunk) (fun _ => rfl) hnone hepisodes rfl id sess'
  · apply Function.update_of_ne
    rintro rfl
    exact not_objectOf_chunkKey hkeys hu hnone chunkN hkey

theorem sameStores_chunk_iff {sessionId : String} {chunkN : ℕ} {body : List UInt8} {uncounted : Bool}
    {sess : UploadSession} (hsess : SessionOf P g (rowId sessionId) sess) :
    SameStores P g (afterChunk sessionId chunkN body uncounted g) ↔
      g.objects (chunkKey sessionId chunkN) = some body ∧ uncounted = true := by
  constructor
  · intro hsame
    constructor
    · have hobject := hsame.objects (chunkKey sessionId chunkN) (Or.inr ⟨sessionId, sess, chunkN, hsess, rfl⟩)
      have hself : (afterChunk sessionId chunkN body uncounted g).objects (chunkKey sessionId chunkN) = some body :=
        Function.update_self ..
      exact hobject.symm.trans hself
    · cases uncounted with
      | true => rfl
      | false =>
        have hkept := ((hsame.sessions _ _).mpr hsess).1
        have hsessions : (afterChunk sessionId chunkN body false g).sessions =
            g.sessions.modify (rowId sessionId) Gateway.countChunk := rfl
        rw [hsessions, OrderedDict.get?_modify, if_pos rfl, hsess.1] at hkept
        have hcount := congrArg UploadSession.receivedChunks (Option.some.inj hkept)
        simp only [Gateway.countChunk] at hcount
        omega
  · rintro ⟨hobject, rfl⟩
    have hsame : afterChunk sessionId chunkN body true g = g := by
      rw [afterChunk, ← hobject, Function.update_eq_self, if_pos rfl]
    rw [hsame]
    exact SameStores.refl P g

theorem sameStores_complete (hkeys : UuidKeys g) {sessionId : String} {sess : UploadSession} {ep : Episode}
    {parts : List (List UInt8)} (hsess : g.sessions.get? (rowId sessionId) = some sess)
    (hep : g.episodes.get? sess.episodeId = some ep) (hother : uuidIn ep.projectId ≠ some P) :
    SameStores P g (afterComplete fails sessionId sess ep parts g) := by
  have hepisode : ∀ ep', ¬ EpisodeOf P g sess.episodeId ep' := by
    rintro ep' ⟨hep', hproject⟩
    rw [hep] at hep'
    cases hep'
    exact hother hproject
  have hnone : ∀ sess', ¬ SessionOf P g (rowId sessionId) sess' := by
    rintro sess' ⟨hsess', ep', hep'⟩
    rw [hsess] at hsess'
    cases hsess'
    exact hepisode ep' hep'
  have hepisodes : ∀ id ep', EpisodeOf P (afterComplete fails sessionId sess ep parts g) id ep' ↔
      EpisodeOf P g id ep' := by
    intro id ep'
    by_cases hstays : fails .completeSession ∨ fails .updateEpisodeStatus
    · rw [EpisodeOf, episodes_afterComplete, if_pos hstays]
      exact Iff.rfl
    · apply episodeOf_modify (f := Gateway.placeEpisode (storagePath sess.episodeId ep.filename)) _ hepisode
      · rw [episodes_afterComplete, if_neg hstays]
      · exact fun _ => rfl
  refine ⟨hepisodes, fun id sess' => ?_, fun key hkey => ?_⟩
  · by_cases hstays : fails .completeSession
    · simp only [SessionOf, hepisodes]
      rw [sessions_afterComplete, if_pos hstays]
    · apply sessionOf_modify (f := Gateway.closeSession) _ hnone hepisodes
      · rw [sessions_afterComplete, if_neg hstays]
      · exact fun _ => rfl
  · rw [objects_afterComplete, Function.update_of_ne]
    rintro rfl
    obtain ⟨u, hu⟩ := uuid_of_episode hkeys hep
    rw [storagePath, hu] at hkey
    rw [hu] at hepisode
    exact not_objectOf_episodeKey hkeys hepisode ep.filename hkey

theorem sameStores_complete_iff {sessionId : String} {sess : UploadSession} {ep : Episode}
    {parts : List (List UInt8)} (hsess : g.sessions.get? (rowId sessionId) = some sess)
    (hprogress : sess.status = .inProgress) (hep : EpisodeOf P g sess.episodeId ep) :
    SameStores P g (afterComplete fails sessionId sess ep parts g) ↔
      g.objects (storagePath sess.episodeId ep.filename) = some parts.flatten ∧ fails .completeSession = true := by
  constructor
  · intro hsame
    constructor
    · have hobject := hsame.objects (storagePath sess.episodeId ep.filename)
        (Or.inl ⟨sess.episodeId, ep, ep.filename, hep, rfl⟩)
      rw [objects_afterComplete, Function.update_self] at hobject
      exact hobject.symm
    · by_contra hcloses
      have hkept := ((hsame.sessions _ _).mpr ⟨hsess, ep, hep⟩).1
      rw [sessions_afterComplete, if_neg hcloses, OrderedDict.get?_modify, if_pos rfl, hsess] at hkept
      have hstatus := congrArg UploadSession.status (Option.some.inj hkept)
      rw [hprogress] at hstatus
      cases hstatus
  · rintro ⟨hobject, hfails⟩
    have hsame : afterComplete fails sessionId sess ep parts g = g := by
      rw [afterComplete, hfails, ← hobject, Function.update_eq_self]
      rfl
    rw [hsame]
    exact SameStores.refl P g

theorem sameStores_removeObject (hkeys : UuidKeys g) {text : String} {u : Uuid} (htext : rowId text = u.text)
    (hother : ∀ sess, ¬ SessionOf P g (rowId text) sess) (n : ℕ) :
    SameStores P g (Gateway.removeObject (chunkKey text n) g) := by
  refine ⟨fun _ _ => Iff.rfl, fun _ _ => Iff.rfl, fun key hkey => ?_⟩
  apply Function.update_of_ne
  rintro rfl
  exact not_objectOf_chunkKey hkeys htext hother n hkey

theorem uuidKeys_init (hkeys : UuidKeys g) {jwtProjectId : String} {req : InitRequest} {episodeId sessionId : Uuid}
    {now : ℤ} {unopened : Bool} (he : episodeId.text ∉ g.episodes.keys) :
    UuidKeys (afterInit jwtProjectId req episodeId.text sessionId.text now unopened g he) := by
  constructor
  · intro id hid
    rw [afterInit, OrderedDict.keys_append, List.mem_append, List.mem_singleton] at hid
    rcases hid with hid | rfl
    · exact hkeys.episodes id hid
    · exact ⟨episodeId, rfl⟩
  · intro id hid
    simp only [afterInit] at hid
    split_ifs at hid with hs
    · rw [OrderedDict.keys_append, List.mem_append, List.mem_singleton] at hid
      rcases hid with hid | rfl
      · exact hkeys.sessions id hid
      · exact ⟨sessionId, rfl⟩
    · exact hkeys.sessions id hid

theorem UuidKeys.of_keys (hkeys : UuidKeys g) (hepisodes : t.episodes.keys = g.episodes.keys)
    (hsessions : t.sessions.keys = g.sessions.keys) : UuidKeys t :=
  ⟨by rw [hepisodes]; exact hkeys.episodes, by rw [hsessions]; exact hkeys.sessions⟩

theorem uuidKeys_chunk (hkeys : UuidKeys g) {sessionId : String} {chunkN : ℕ} {body : List UInt8} {uncounted : Bool} :
    UuidKeys (afterChunk sessionId chunkN body uncounted g) := by
  have hsessions : (afterChunk sessionId chunkN body uncounted g).sessions.keys = g.sessions.keys := by
    cases uncounted with
    | true => rfl
    | false => exact OrderedDict.keys_modify ..
  exact hkeys.of_keys rfl hsessions

theorem uuidKeys_complete (hkeys : UuidKeys g) {sessionId : String} {sess : UploadSession} {ep : Episode}
    {parts : List (List UInt8)} : UuidKeys (afterComplete fails sessionId sess ep parts g) := by
  apply hkeys.of_keys
  · rw [episodes_afterComplete]
    split_ifs
    · rfl
    · exact OrderedDict.keys_modify ..
  · rw [sessions_afterComplete]
    split_ifs
    · rfl
    · exact OrderedDict.keys_modify ..

end Stores

section Users

variable {P : Uuid} {d : Directory} {isEmail : String → Bool} {hashed : Option String} {fails : Bool} {id : Uuid}
  {req : Accounts.RegisterRequest}

theorem sameUsers_register_iff : SameUsers P d (answer (Accounts.register isEmail hashed fails id req) d).2 ↔
    ¬ Accounts.AcceptsRegister isEmail hashed fails id req d (some P) := by
  constructor
  · intro hsame haccepts
    obtain ⟨out, row, hid, hemail, hproject, hok⟩ := Accounts.acceptsRegister_iff.mp haccepts
    rw [hok] at hsame
    have hnew : UserOf P (d.insert id row hid hemail) id row := by
      refine ⟨?_, hproject⟩
      rw [Accounts.get?_insert, if_pos rfl]
    have hold := ((hsame id row).mp hnew).1
    rw [OrderedDict.get?_eq_none.mpr hid] at hold
    cases hold
  · intro hrefuses
    rcases Accounts.register_cases isEmail hashed fails req d with hsame | ⟨out, hok⟩
    · rw [hsame]
      exact fun _ _ => Iff.rfl
    · obtain ⟨-, -, -, hashedPassword, -, hcreate⟩ := Accounts.register_eq_ok.mp hok
      obtain ⟨project, hid, hemail, -, -, -, hinsert⟩ := Accounts.create_eq_ok.mp hcreate
      have hother : project ≠ some P := by
        rintro rfl
        rw [hinsert] at hok
        exact hrefuses (Accounts.acceptsRegister_iff.mpr ⟨out, _, hid, hemail, rfl, hok⟩)
      intro j user
      rw [hinsert, UserOf, Accounts.get?_insert]
      split_ifs with hj
      · subst hj
        constructor
        · rintro ⟨huser, hproject⟩
          cases huser
          exact absurd hproject hother
        · rintro ⟨huser, -⟩
          rw [OrderedDict.get?_eq_none.mpr hid] at huser
          cases huser
      · exact Iff.rfl

end Users

section Worlds

variable {τ : Type} (jwt : Jwt τ) (secret : String) (isEmail : String → Bool)
  (compare : String → String → Bool) (expireHours : ℤ) (P : Uuid)

def OtherSession (g : Stores) (sessionId : String) : Prop :=
  (∃ u : Uuid, rowId sessionId = u.text) ∧ ∀ sess, ¬ SessionOf P g (rowId sessionId) sess

structure Foreign (w : World τ) : Prop where
  keys : UuidKeys w.stores
  tokens : ∀ token ∈ w.known, ∀ payload claims, jwt.verify token secret = some payload →
    Accounts.decodeClaims payload = some claims → uuidIn claims.projectId ≠ some P
  cleanUps : ∀ c ∈ w.cleanUps, OtherSession P w.stores c.1

def Outsider (start : World τ) : Request τ → Prop
  | .login _ req _ => ∀ id user, UserOf P start.directory id user → user.email = req.email →
      compare user.hashedPassword req.password = false
  | _ => True

def Authenticated (w : World τ) (credential : Option (Credential τ)) (now : ℤ) : Prop :=
  ∃ token claims, sent jwt secret w credential = some token ∧ Accounts.auth jwt secret token now = .ok claims

def Crosses (w : World τ) : Request τ → Prop
  | .register hashed fails id req => Accounts.AcceptsRegister isEmail hashed fails id req w.directory (some P)
  | .login .. => False
  | .init credential now fails req episodeId _ => Authenticated jwt secret w credential now ∧
      AcceptsInit fails req episodeId.text w.stores ∧ uuidIn req.projectId = some P
  | .uploadChunk credential now fails sessionId n body => Authenticated jwt secret w credential now ∧
      ∃ chunkN sess, AcceptsChunk fails sessionId n w.stores chunkN sess ∧
        (∃ ep, EpisodeOf P w.stores sess.episodeId ep) ∧
        ¬ (w.stores.objects (chunkKey sessionId chunkN) = some body ∧ fails .incrementReceivedChunks = true)
  | .complete credential now fails sessionId => Authenticated jwt secret w credential now ∧
      ∃ sess ep parts, AcceptsComplete fails sessionId w.stores sess ep parts ∧ uuidIn ep.projectId = some P ∧
        ¬ (w.stores.objects (storagePath sess.episodeId ep.filename) = some parts.flatten ∧
          fails .completeSession = true)
  | .deleteChunk .. => False

end Worlds

section Steps

variable {τ α : Type} {jwt : Jwt τ} {secret : String} {isEmail : String → Bool}
  {compare : String → String → Bool} {expireHours : ℤ} {P : Uuid} {start w v : World τ} {g t : Stores}

theorem behindAuth_of_ok {token : Option τ} {now : ℤ} {handler : Accounts.Claims → Handler Stores Gateway.HttpError α}
    {claims : Accounts.Claims} (h : Accounts.auth jwt secret token now = .ok claims) :
    answer (behindAuth jwt secret token now handler) g = answer (handler claims) g := by
  rw [behindAuth, answer_bind, answer_require, h]

theorem behindAuth_of_error {token : Option τ} {now : ℤ}
    {handler : Accounts.Claims → Handler Stores Gateway.HttpError α} {e : Gateway.HttpError}
    (h : Accounts.auth jwt secret token now = .error e) :
    answer (behindAuth jwt secret token now handler) g = (.error e, g) := by
  rw [behindAuth, answer_bind, answer_require, h]

theorem uuidIn_empty : uuidIn "" = none := by decide

theorem openedEpisode_project_iff {claims : Accounts.Claims} (hclaims : uuidIn claims.projectId ≠ some P)
    (req : InitRequest) :
    uuidIn (Gateway.openedEpisode claims.projectId req).projectId = some P ↔ uuidIn req.projectId = some P := by
  rw [Gateway.openedEpisode]
  split_ifs with hempty
  · rw [hempty, uuidIn_empty]
    simp [hclaims]
  · exact Iff.rfl

theorem sameStores_init_request_iff {fails : Call → Bool} {claims : Accounts.Claims} {req : InitRequest}
    {episodeId sessionId : String} {now : ℤ} (hclaims : uuidIn claims.projectId ≠ some P) :
    SameStores P g (answer (Gateway.init fails claims.projectId req episodeId sessionId now) g).2 ↔
      ¬ (AcceptsInit fails req episodeId g ∧ uuidIn req.projectId = some P) := by
  by_cases haccepts : AcceptsInit fails req episodeId g
  · rw [init_accepted haccepts, sameStores_init_iff, ne_eq, openedEpisode_project_iff hclaims]
    simp [haccepts]
  · rw [init_refused haccepts]
    simp [haccepts, SameStores.refl]

theorem acceptsChunk_unique {fails : Call → Bool} {sessionId n : String} {k k' : ℕ} {sess sess' : UploadSession}
    (h : AcceptsChunk fails sessionId n g k sess) (h' : AcceptsChunk fails sessionId n g k' sess') :
    k = k' ∧ sess = sess' := by
  have hk := h.number.symm.trans h'.number
  have hsess := h.session.symm.trans h'.session
  exact ⟨Except.ok.inj hk, Option.some.inj hsess⟩

theorem sameStores_chunk_request_iff (hkeys : UuidKeys g) {fails : Call → Bool} {sessionId n : String}
    {body : List UInt8} : SameStores P g (answer (uploadChunk fails sessionId n body) g).2 ↔
      ¬ ∃ chunkN sess, AcceptsChunk fails sessionId n g chunkN sess ∧ (∃ ep, EpisodeOf P g sess.episodeId ep) ∧
        ¬ (g.objects (chunkKey sessionId chunkN) = some body ∧ fails .incrementReceivedChunks = true) := by
  by_cases haccepts : ∃ chunkN sess, AcceptsChunk fails sessionId n g chunkN sess
  · obtain ⟨chunkN, sess, haccepts⟩ := haccepts
    rw [uploadChunk_accepted haccepts]
    by_cases hproject : ∃ ep, EpisodeOf P g sess.episodeId ep
    · rw [sameStores_chunk_iff ⟨haccepts.session, hproject⟩]
      constructor
      · rintro hsame ⟨chunkN', sess', haccepts', -, hchanges⟩
        obtain ⟨rfl, rfl⟩ := acceptsChunk_unique haccepts haccepts'
        exact hchanges hsame
      · intro hnone
        by_contra hchanges
        exact hnone ⟨chunkN, sess, haccepts, hproject, hchanges⟩
    · simp only [sameStores_chunk hkeys haccepts.session hproject, true_iff]
      rintro ⟨chunkN', sess', haccepts', hproject', -⟩
      obtain ⟨-, rfl⟩ := acceptsChunk_unique haccepts haccepts'
      exact hproject hproject'
  · rw [uploadChunk_refused (fun chunkN sess h => haccepts ⟨chunkN, sess, h⟩)]
    simp only [SameStores.refl, true_iff]
    rintro ⟨chunkN, sess, h, -⟩
    exact haccepts ⟨chunkN, sess, h⟩

theorem acceptsComplete_unique {fails : Call → Bool} {sessionId : String} {sess sess' : UploadSession}
    {ep ep' : Episode} {parts parts' : List (List UInt8)} (h : AcceptsComplete fails sessionId g sess ep parts)
    (h' : AcceptsComplete fails sessionId g sess' ep' parts') : sess = sess' ∧ ep = ep' ∧ parts = parts' := by
  have hsess : sess = sess' := Option.some.inj (h.session.symm.trans h'.session)
  subst hsess
  exact ⟨rfl, Option.some.inj (h.episode.symm.trans h'.episode), Option.some.inj (h.parts.symm.trans h'.parts)⟩

theorem sameStores_complete_request_iff (hkeys : UuidKeys g) {fails : Call → Bool} {sessionId : String} :
    SameStores P g (answer (complete fails sessionId) g).2 ↔
      ¬ ∃ sess ep parts, AcceptsComplete fails sessionId g sess ep parts ∧ uuidIn ep.projectId = some P ∧
        ¬ (g.objects (storagePath sess.episodeId ep.filename) = some parts.flatten ∧
          fails .completeSession = true) := by
  by_cases haccepts : ∃ sess ep parts, AcceptsComplete fails sessionId g sess ep parts
  · obtain ⟨sess, ep, parts, haccepts⟩ := haccepts
    rw [complete_accepted haccepts]
    by_cases hproject : uuidIn ep.projectId = some P
    · rw [sameStores_complete_iff haccepts.session haccepts.inProgress ⟨haccepts.episode, hproject⟩]
      constructor
      · rintro hsame ⟨sess', ep', parts', haccepts', -, hchanges⟩
        obtain ⟨rfl, rfl, rfl⟩ := acceptsComplete_unique haccepts haccepts'
        exact hchanges hsame
      · intro hnone
        by_contra hchanges
        exact hnone ⟨sess, ep, parts, haccepts, hproject, hchanges⟩
    · simp only [sameStores_complete hkeys haccepts.session haccepts.episode hproject, true_iff]
      rintro ⟨sess', ep', parts', haccepts', hproject', -⟩
      obtain ⟨-, rfl, -⟩ := acceptsComplete_unique haccepts haccepts'
      exact hproject hproject'
  · rw [complete_refused (fun sess ep parts h => haccepts ⟨sess, ep, parts, h⟩)]
    simp only [SameStores.refl, true_iff]
    rintro ⟨sess, ep, parts, h, -⟩
    exact haccepts ⟨sess, ep, parts, h⟩

theorem issued_foreign (hstart : SameProject P start w) {fails : Bool} {req : Accounts.LoginRequest} {now : ℤ}
    (houtside : Outsider compare P start (.login fails req now)) {token : τ} {payload : Accounts.Payload}
    {claims : Accounts.Claims}
    (hissued : token ∈
      issued (answer (Accounts.login jwt secret isEmail compare expireHours fails req now) w.directory).1)
    (hverify : jwt.verify token secret = some payload) (hclaims : Accounts.decodeClaims payload = some claims) :
    uuidIn claims.projectId ≠ some P := by
  cases hlogin : answer (Accounts.login jwt secret isEmail compare expireHours fails req now) w.directory with
  | mk response d =>
    rw [hlogin] at hissued
    cases response with
    | error e => cases hissued
    | ok response =>
      obtain ⟨-, -, -, id, user, hfound, hpassword, rfl⟩ := Accounts.login_eq_ok.mp hlogin
      rw [List.mem_singleton.mp hissued, Accounts.generateJWT, jwt.verify_sign] at hverify
      cases hverify
      have hproject : claims.projectId = Accounts.projectText user.projectId :=
        congrArg Accounts.Claims.projectId (Option.some.inj hclaims).symm
      obtain ⟨huser, hemail⟩ := Accounts.findByEmail_eq_some hfound
      rw [hproject]
      intro hP
      cases hcolumn : user.projectId with
      | none =>
        rw [hcolumn, Accounts.projectText, Option.map_none, Option.getD_none, uuidIn_empty] at hP
        cases hP
      | some q =>
        rw [hcolumn, Accounts.projectText, Option.map_some, Option.getD_some, uuidIn_text] at hP
        have hold := (hstart.users id user).mp ⟨huser, hcolumn.trans hP⟩
        rw [houtside id user hold hemail] at hpassword
        cases hpassword

theorem started_foreign (hkeys : UuidKeys w.stores) {credential : Option (Credential τ)} {token : Option τ} {now : ℤ}
    {fails : Call → Bool} {sessionId : String} (hsent : sent jwt secret w credential = some token)
    (hok : ¬ Crosses jwt secret isEmail P w (.complete credential now fails sessionId))
    {c : String × ℤ} (hc : c ∈ startedCleanUps sessionId w.stores
      (answer (behindAuth jwt secret token now fun _ => complete fails sessionId) w.stores).1) :
    OtherSession P w.stores c.1 := by
  cases hauth : Accounts.auth jwt secret token now with
  | error e =>
    rw [behindAuth_of_error hauth] at hc
    cases hc
  | ok claims =>
    rw [behindAuth_of_ok hauth] at hc
    cases hcomplete : answer (complete fails sessionId) w.stores with
    | mk response t =>
      rw [hcomplete] at hc
      cases response with
      | error e => cases hc
      | ok response =>
        simp only [startedCleanUps, Option.mem_toList, Option.map_eq_some_iff] at hc
        obtain ⟨sess, hsess, rfl⟩ := hc
        refine ⟨uuid_of_session hkeys hsess, ?_⟩
        rintro sess' ⟨hsess', ep, hep⟩
        obtain ⟨found, ep', parts, haccepts, hcloses⟩ := accepts_of_complete_ok hcomplete
        have hfound : sess' = found := Option.some.inj (hsess'.symm.trans haccepts.session)
        subst hfound
        have hepisode : ep = ep' := Option.some.inj (hep.1.symm.trans haccepts.episode)
        subst hepisode
        refine hok ⟨⟨token, claims, hsent, hauth⟩, sess', ep, parts, haccepts, hep.2, ?_⟩
        rintro ⟨-, hfails⟩
        rw [hcloses] at hfails
        cases hfails

theorem claims_foreign (hforeign : Foreign jwt secret P w) {credential : Option (Credential τ)} {token : Option τ}
    {now : ℤ} {claims : Accounts.Claims} (hsent : sent jwt secret w credential = some token)
    (h : Accounts.auth jwt secret token now = .ok claims) : uuidIn claims.projectId ≠ some P := by
  obtain ⟨t, payload, rfl, hverify, hclaims⟩ := Accounts.auth_eq_ok h
  cases credential with
  | none => cases hsent
  | some credential =>
    cases credential with
    | known i =>
      obtain ⟨t', ht', he⟩ := Option.map_eq_some_iff.mp hsent
      cases he
      exact hforeign.tokens t (List.mem_of_getElem? ht') payload claims hverify hclaims
    | madeUp t' =>
      simp only [sent] at hsent
      split_ifs at hsent with hnone
      cases hsent
      rw [hverify] at hnone
      cases hnone

theorem authenticated_iff {credential : Option (Credential τ)} {token : Option τ} {now : ℤ}
    (hsent : sent jwt secret w credential = some token) :
    Authenticated jwt secret w credential now ↔ ∃ claims, Accounts.auth jwt secret token now = .ok claims := by
  constructor
  · rintro ⟨token', claims, hsent', hauth⟩
    rw [hsent] at hsent'
    cases hsent'
    exact ⟨claims, hauth⟩
  · rintro ⟨claims, hauth⟩
    exact ⟨token, claims, hsent, hauth⟩

theorem sameStores_behindAuth_iff {credential : Option (Credential τ)} {token : Option τ} {now : ℤ}
    {handler : Accounts.Claims → Handler Stores Gateway.HttpError α} {accepted : Prop}
    (hsent : sent jwt secret w credential = some token)
    (h : ∀ claims, Accounts.auth jwt secret token now = .ok claims →
      (SameStores P w.stores (answer (handler claims) w.stores).2 ↔ ¬ accepted)) :
    SameStores P w.stores (answer (behindAuth jwt secret token now handler) w.stores).2 ↔
      ¬ (Authenticated jwt secret w credential now ∧ accepted) := by
  rw [authenticated_iff hsent]
  cases hauth : Accounts.auth jwt secret token now with
  | error e =>
    rw [behindAuth_of_error hauth]
    simp [SameStores.refl]
  | ok claims =>
    rw [behindAuth_of_ok hauth, h claims hauth]
    simp

theorem SameProject.refl (P : Uuid) (w : World τ) : SameProject P w w :=
  ⟨fun _ _ => Iff.rfl, SameStores.refl P w.stores⟩

theorem SameProject.symm (h : SameProject P w v) : SameProject P v w :=
  ⟨fun id user => (h.users id user).symm, h.stores.symm⟩

theorem SameProject.trans {x : World τ} (h : SameProject P w v) (h' : SameProject P v x) : SameProject P w x :=
  ⟨fun id user => (h'.users id user).trans (h.users id user), h.stores.trans h'.stores⟩

theorem next_login (fails : Bool) (req : Accounts.LoginRequest) (now : ℤ) :
    next jwt secret isEmail compare expireHours w (.login fails req now) = some { w with
      known := w.known ++
        issued (answer (Accounts.login jwt secret isEmail compare expireHours fails req now) w.directory).1 } := by
  have hreads : (answer (Accounts.login jwt secret isEmail compare expireHours fails req now) w.directory).2 =
      w.directory := Accounts.reads_login fails req now w.directory
  simp only [next, hreads]

theorem sameProject_step_iff (hforeign : Foreign jwt secret P w) {r : Request τ}
    (h : next jwt secret isEmail compare expireHours w r = some v) :
    SameProject P w v ↔ ¬ Crosses jwt secret isEmail P w r := by
  have hsplit : SameProject P w v ↔ SameUsers P w.directory v.directory ∧ SameStores P w.stores v.stores :=
    ⟨fun hsame => ⟨hsame.users, hsame.stores⟩, fun hsame => ⟨hsame.1, hsame.2⟩⟩
  have husers : SameUsers P w.directory w.directory := fun _ _ => Iff.rfl
  rw [hsplit]
  cases r with
  | register hashed fails id req =>
    cases h
    simp only [sameUsers_register_iff, SameStores.refl, and_true, Crosses]
  | login fails req now =>
    rw [next_login, Option.some.injEq] at h
    subst h
    simp only [husers, SameStores.refl, and_true, Crosses, not_false_iff]
  | init credential now fails req episodeId sessionId =>
    obtain ⟨token, hsent, rfl⟩ := Option.map_eq_some_iff.mp h
    simp only [husers, true_and, Crosses]
    apply sameStores_behindAuth_iff hsent
    intro claims hauth
    exact sameStores_init_request_iff (claims_foreign hforeign hsent hauth)
  | uploadChunk credential now fails sessionId n body =>
    obtain ⟨token, hsent, rfl⟩ := Option.map_eq_some_iff.mp h
    simp only [husers, true_and, Crosses]
    apply sameStores_behindAuth_iff hsent
    intro claims _
    exact sameStores_chunk_request_iff hforeign.keys
  | complete credential now fails sessionId =>
    obtain ⟨token, hsent, rfl⟩ := Option.map_eq_some_iff.mp h
    simp only [husers, true_and, Crosses]
    apply sameStores_behindAuth_iff hsent
    intro claims _
    exact sameStores_complete_request_iff hforeign.keys
  | deleteChunk sessionId chunkN =>
    simp only [next] at h
    split_ifs at h with hstarted
    cases h
    obtain ⟨c, hc, hsession⟩ := List.any_eq_true.mp hstarted
    simp only [Bool.and_eq_true, decide_eq_true_eq] at hsession
    obtain ⟨⟨u, hu⟩, hother⟩ := hforeign.cleanUps c hc
    rw [hsession.1] at hu hother
    simp only [husers, sameStores_removeObject hforeign.keys hu hother, and_true, Crosses, not_false_iff]

theorem uuidKeys_behindAuth (hkeys : UuidKeys g) {token : Option τ} {now : ℤ}
    {handler : Accounts.Claims → Handler Stores Gateway.HttpError α}
    (h : ∀ claims, UuidKeys (answer (handler claims) g).2) :
    UuidKeys (answer (behindAuth jwt secret token now handler) g).2 := by
  cases hauth : Accounts.auth jwt secret token now with
  | error e => rwa [behindAuth_of_error hauth]
  | ok claims =>
    rw [behindAuth_of_ok hauth]
    exact h claims

theorem uuidKeys_step (hkeys : UuidKeys w.stores) {r : Request τ}
    (h : next jwt secret isEmail compare expireHours w r = some v) : UuidKeys v.stores := by
  cases r with
  | register hashed fails id req =>
    cases h
    exact hkeys
  | login fails req now =>
    rw [next_login, Option.some.injEq] at h
    subst h
    exact hkeys
  | init credential now fails req episodeId sessionId =>
    obtain ⟨token, -, rfl⟩ := Option.map_eq_some_iff.mp h
    apply uuidKeys_behindAuth hkeys
    intro claims
    by_cases haccepts : AcceptsInit fails req episodeId.text w.stores
    · rw [init_accepted haccepts]
      exact uuidKeys_init hkeys haccepts.fresh
    · rwa [init_refused haccepts]
  | uploadChunk credential now fails sessionId n body =>
    obtain ⟨token, -, rfl⟩ := Option.map_eq_some_iff.mp h
    apply uuidKeys_behindAuth hkeys
    intro claims
    by_cases haccepts : ∃ chunkN sess, AcceptsChunk fails sessionId n w.stores chunkN sess
    · obtain ⟨chunkN, sess, haccepts⟩ := haccepts
      rw [uploadChunk_accepted haccepts]
      exact uuidKeys_chunk hkeys
    · rwa [uploadChunk_refused (fun chunkN sess h => haccepts ⟨chunkN, sess, h⟩)]
  | complete credential now fails sessionId =>
    obtain ⟨token, -, rfl⟩ := Option.map_eq_some_iff.mp h
    apply uuidKeys_behindAuth hkeys
    intro claims
    by_cases haccepts : ∃ sess ep parts, AcceptsComplete fails sessionId w.stores sess ep parts
    · obtain ⟨sess, ep, parts, haccepts⟩ := haccepts
      rw [complete_accepted haccepts]
      exact uuidKeys_complete hkeys
    · rwa [complete_refused (fun sess ep parts h => haccepts ⟨sess, ep, parts, h⟩)]
  | deleteChunk sessionId chunkN =>
    simp only [next] at h
    split_ifs at h
    cases h
    exact hkeys.of_keys rfl rfl

theorem foreign_step (hforeign : Foreign jwt secret P w) (hstart : SameProject P start w) {r : Request τ}
    (houtside : Outsider compare P start r) (hok : ¬ Crosses jwt secret isEmail P w r)
    (h : next jwt secret isEmail compare expireHours w r = some v) : Foreign jwt secret P v := by
  have hsame : SameProject P w v := (sameProject_step_iff hforeign h).mpr hok
  have hkeys : UuidKeys v.stores := uuidKeys_step hforeign.keys h
  have hcleanUps : ∀ c : String × ℤ, OtherSession P w.stores c.1 → OtherSession P v.stores c.1 := by
    rintro c ⟨huuid, hother⟩
    exact ⟨huuid, fun sess hsess => hother sess ((hsame.stores.sessions _ _).mp hsess)⟩
  cases r with
  | register hashed fails id req =>
    cases h
    exact ⟨hkeys, hforeign.tokens, hforeign.cleanUps⟩
  | login fails req now =>
    rw [next_login, Option.some.injEq] at h
    subst h
    refine ⟨hkeys, ?_, hforeign.cleanUps⟩
    intro token htoken payload claims hverify hclaims
    rcases List.mem_append.mp htoken with htoken | htoken
    · exact hforeign.tokens token htoken payload claims hverify hclaims
    · exact issued_foreign hstart houtside htoken hverify hclaims
  | init credential now fails req episodeId sessionId =>
    obtain ⟨token, hsent, rfl⟩ := Option.map_eq_some_iff.mp h
    exact ⟨hkeys, hforeign.tokens, fun c hc => hcleanUps c (hforeign.cleanUps c hc)⟩
  | uploadChunk credential now fails sessionId n body =>
    obtain ⟨token, hsent, rfl⟩ := Option.map_eq_some_iff.mp h
    exact ⟨hkeys, hforeign.tokens, fun c hc => hcleanUps c (hforeign.cleanUps c hc)⟩
  | complete credential now fails sessionId =>
    obtain ⟨token, hsent, rfl⟩ := Option.map_eq_some_iff.mp h
    refine ⟨hkeys, hforeign.tokens, fun c hc => hcleanUps c ?_⟩
    rcases List.mem_append.mp hc with hc | hc
    · exact hforeign.cleanUps c hc
    · exact started_foreign hforeign.keys hsent hok hc
  | deleteChunk sessionId chunkN =>
    simp only [next] at h
    split_ifs at h
    cases h
    exact ⟨hkeys, hforeign.tokens, fun c hc => hcleanUps c (hforeign.cleanUps c hc)⟩

theorem gateway_write_isolation {u : World τ} {requests : List (Request τ)} (hstart : Foreign jwt secret P start)
    (hclients : ∀ r ∈ requests, Outsider compare P start r)
    (hrun : run (next jwt secret isEmail compare expireHours) start requests = some u) :
    (∀ before t, before <+: requests → run (next jwt secret isEmail compare expireHours) start before = some t →
        SameProject P start t) ↔
      Along (next jwt secret isEmail compare expireHours) (fun w r => ¬ Crosses jwt secret isEmail P w r) start
        requests := by
  apply reached_iff_along_within (Foreign jwt secret P) _ _ hstart (SameProject.refl P start) hclients hrun
  · intro w r v hforeign hsame houtside hok h
    exact foreign_step hforeign hsame houtside hok h
  · intro w r v hforeign hsame houtside h
    rw [← sameProject_step_iff hforeign h]
    exact ⟨fun hv => hsame.symm.trans hv, fun hv => hsame.trans hv⟩

def twoProjects : World (Accounts.Payload × String) :=
  ⟨⟨[⟨1⟩, ⟨2⟩], OrderedDict.empty, List.nodup_nil⟩, Gateway.emptyStores, [], []⟩

def uploadRequests (projectId : String) : List (Request (Accounts.Payload × String)) :=
  [.register (some "engineer-password") false ⟨3⟩
      ⟨"engineer@embedai.local", "engineer-password", "Engineer", "engineer", "00000000-0000-0000-0000-000000000002"⟩,
    .login false ⟨"engineer@embedai.local", "engineer-password"⟩ (1750000000 * 10 ^ 9),
    .init (some (.known 0)) (1750000001 * 10 ^ 9) (fun _ => false) ⟨"run.mcap", 100, "mcap", "", projectId⟩ ⟨4⟩ ⟨5⟩]

def serveTwo : World (Accounts.Payload × String) → Request (Accounts.Payload × String) →
    Option (World (Accounts.Payload × String)) :=
  next Accounts.plainJwt "secret" Accounts.hasAtSign (fun hashed password => hashed = password) 24

theorem foreign_twoProjects : Foreign Accounts.plainJwt "secret" ⟨1⟩ twoProjects where
  keys := ⟨fun _ hid => (List.not_mem_nil hid).elim, fun _ hid => (List.not_mem_nil hid).elim⟩
  tokens := fun _ htoken => (List.not_mem_nil htoken).elim
  cleanUps := fun _ hc => (List.not_mem_nil hc).elim

theorem outsider_twoProjects (r : Request (Accounts.Payload × String)) :
    Outsider (fun hashed password => hashed = password) ⟨1⟩ twoProjects r := by
  cases r with
  | login fails req now =>
    rintro id user ⟨huser, -⟩
    cases huser
  | _ => trivial

theorem gateway_write_isolation_ownProject :
    (run serveTwo twoProjects (uploadRequests "")).isSome = true ∧
      ((∀ before t, before <+: uploadRequests "" → run serveTwo twoProjects before = some t →
          SameProject ⟨1⟩ twoProjects t) ↔
        Along serveTwo (fun w r => ¬ Crosses Accounts.plainJwt "secret" Accounts.hasAtSign ⟨1⟩ w r) twoProjects
          (uploadRequests "")) := by
  have hsome : (run serveTwo twoProjects (uploadRequests "")).isSome = true := by decide +kernel
  obtain ⟨u, hrun⟩ := Option.isSome_iff_exists.mp hsome
  exact ⟨hsome, gateway_write_isolation foreign_twoProjects (fun r _ => outsider_twoProjects r) hrun⟩

theorem foreign_upload_crosses :
    (Foreign Accounts.plainJwt "secret" ⟨1⟩ twoProjects ∧
      ∀ r ∈ uploadRequests "00000000-0000-0000-0000-000000000001",
        Outsider (fun hashed password => hashed = password) ⟨1⟩ twoProjects r) ∧
      ∃ t, run serveTwo twoProjects (uploadRequests "00000000-0000-0000-0000-000000000001") = some t ∧
        ¬ SameProject ⟨1⟩ twoProjects t := by
  refine ⟨⟨foreign_twoProjects, fun r _ => outsider_twoProjects r⟩, _, rfl, ?_⟩
  intro hsame
  have hnew := (hsame.stores.episodes "00000000-0000-0000-0000-000000000004"
    ⟨"00000000-0000-0000-0000-000000000001", "run.mcap", "mcap", 100, .uploading, none, .obj []⟩).mp ⟨rfl, rfl⟩
  cases hnew.1

end Steps

end Embedai.GatewayIsolation
