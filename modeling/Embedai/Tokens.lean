import Mathlib.Algebra.Ring.Int.Defs
import Embedai.Json
import Embedai.UploadHandler

/-!
The tokens that the gateway and the Python services sign with one secret: the sessions of users and the tokens for
streams, and the three places that read a token as the credential of a user.
-/

namespace Embedai.Accounts

abbrev Payload := List (String × Json)

/--
The JWT libraries of the services: each reads what each has signed. `golang-jwt` reads a date as a binary64 number and
turns it into a time; `goDate` is that time, in seconds.
-/
structure Jwt (τ : Type) where
  sign : Payload → String → τ
  verify : τ → String → Option Payload
  goDate : ℤ → Option ℤ
  verify_sign : ∀ payload secret, verify (sign payload secret) secret = some payload
  goDate_of_le : ∀ seconds : ℤ, seconds.natAbs ≤ 2 ^ 53 → goDate seconds = some seconds

/-- A registered time claim, in seconds: the services sign whole ones only. -/
def numericDate (payload : Payload) (key : String) : Option ℤ :=
  match payload.lookup key with
  | some (.int seconds) => some seconds
  | _ => none

/-- `python-jose` compares with a clock in seconds, and still takes a token in the second in which it expires. -/
def joseTimes (payload : Payload) (now : ℤ) : Bool :=
  (numericDate payload "exp").all (fun seconds => now / 10 ^ 9 ≤ seconds) &&
    (numericDate payload "nbf").all (fun seconds => seconds ≤ now / 10 ^ 9)

structure HttpError where
  status : ℕ
  detail : String
  deriving DecidableEq

/-- A text field of a Go struct: absent and `null` leave it empty, another type is an error. -/
def goText (payload : Payload) (key : String) : Option String :=
  match payload.lookup key with
  | none => some ""
  | some .null => some ""
  | some (.str text) => some text
  | some _ => none

structure Claims where
  userId : String
  projectId : String
  role : String
  deriving DecidableEq

def decodeClaims (payload : Payload) : Option Claims := do
  let userId ← goText payload "user_id"
  let projectId ← goText payload "project_id"
  let role ← goText payload "role"
  let _ ← goText payload "sub"
  return ⟨userId, projectId, role⟩

section Authenticators

variable {τ : Type} (jwt : Jwt τ) (secret : String)

/-- `golang-jwt` compares with a clock in nanoseconds. -/
def goTimes (payload : Payload) (now : ℤ) : Bool :=
  (numericDate payload "exp").all (fun date => (jwt.goDate date).any (fun seconds => now < seconds * 10 ^ 9)) &&
    (numericDate payload "nbf").all (fun date => (jwt.goDate date).any (fun seconds => seconds * 10 ^ 9 ≤ now))

/-- `Auth` of the gateway; the token is what follows `Bearer ` in the header. -/
def auth (header : Option τ) (now : ℤ) : Except Gateway.HttpError Claims :=
  match header with
  | none => .error ⟨401, "missing token"⟩
  | some token =>
    match jwt.verify token secret with
    | none => .error ⟨401, "invalid token"⟩
    | some payload =>
      match decodeClaims payload with
      | none => .error ⟨401, "invalid token"⟩
      | some claims => if goTimes jwt payload now then .ok claims else .error ⟨401, "invalid token"⟩

structure CurrentUser where
  userId : Json
  projectId : Json
  role : Option Json

/-- `get_current_user`, which the dataset service and the task service have alike. -/
def getCurrentUser (token : τ) (now : ℤ) : Except HttpError CurrentUser :=
  match jwt.verify token secret with
  | none => .error ⟨401, "invalid token"⟩
  | some payload =>
    if joseTimes payload now then
      let userId := (payload.lookup "user_id").getD .null
      let projectId := (payload.lookup "project_id").getD .null
      if !userId.truthy || !projectId.truthy then .error ⟨401, "invalid token claims"⟩
      else .ok ⟨userId, projectId, payload.lookup "role"⟩
    else .error ⟨401, "invalid token"⟩

inductive Authenticator
  | gateway
  | datasetService
  | taskService

structure Identity where
  userId : Json
  projectId : Json
  role : Option Json

def Authenticator.identify (token : τ) (now : ℤ) : Authenticator → Option Identity
  | gateway => (auth jwt secret (some token) now).toOption.map fun claims =>
      ⟨.str claims.userId, .str claims.projectId, some (.str claims.role)⟩
  | datasetService =>
    (getCurrentUser jwt secret token now).toOption.map fun user => ⟨user.userId, user.projectId, user.role⟩
  | taskService =>
    (getCurrentUser jwt secret token now).toOption.map fun user => ⟨user.userId, user.projectId, user.role⟩

def Authenticator.Rejects (token : τ) (now : ℤ) (authenticator : Authenticator) : Prop :=
  authenticator.identify jwt secret token now = none

inductive PythonService
  | datasetService
  | taskService

def PythonService.defaultExpiresIn (streamTokenExpireSeconds : ℤ) : PythonService → ℤ
  | datasetService => 3600
  | taskService => streamTokenExpireSeconds

def streamPayload (episodeId : String) (exp : ℤ) : Payload :=
  [("sub", .str episodeId), ("type", .str "stream"), ("exp", .int exp)]

def streamTokenExp (service : PythonService) (streamTokenExpireSeconds : ℤ) (expiresIn : Option ℤ) (now : ℤ) : ℤ :=
  now / 10 ^ 9 + expiresIn.getD (service.defaultExpiresIn streamTokenExpireSeconds)

def createStreamToken (service : PythonService) (streamTokenExpireSeconds : ℤ) (episodeId : String)
    (expiresIn : Option ℤ) (now : ℤ) : τ :=
  jwt.sign (streamPayload episodeId (streamTokenExp service streamTokenExpireSeconds expiresIn now)) secret

end Authenticators

section StreamTokens

variable {τ : Type} {jwt : Jwt τ} {secret : String} {token : τ} {payload : Payload} {now : ℤ}

theorem auth_of_verify (h : jwt.verify token secret = some payload) :
    (auth jwt secret (some token) now).toOption =
      if goTimes jwt payload now then decodeClaims payload else none := by
  simp only [auth, h]
  cases decodeClaims payload with
  | none => simp [Except.toOption]
  | some claims => cases goTimes jwt payload now <;> rfl

theorem auth_eq_ok {header : Option τ} {claims : Claims} (h : auth jwt secret header now = .ok claims) :
    ∃ token payload, header = some token ∧ jwt.verify token secret = some payload ∧
      decodeClaims payload = some claims := by
  cases header with
  | none => cases h
  | some token =>
    simp only [auth] at h
    split at h
    · cases h
    · next payload hpayload =>
      split at h
      · cases h
      · next claims' hclaims =>
        split_ifs at h
        cases h
        exact ⟨token, payload, rfl, hpayload, hclaims⟩

theorem getCurrentUser_of_verify (h : jwt.verify token secret = some payload) :
    (getCurrentUser jwt secret token now).toOption =
      if joseTimes payload now ∧ ((payload.lookup "user_id").getD .null).truthy ∧
          ((payload.lookup "project_id").getD .null).truthy then
        some ⟨(payload.lookup "user_id").getD .null, (payload.lookup "project_id").getD .null, payload.lookup "role"⟩
      else none := by
  simp only [getCurrentUser, h]
  cases joseTimes payload now with
  | false => rfl
  | true =>
    cases ((payload.lookup "user_id").getD .null).truthy <;>
      cases ((payload.lookup "project_id").getD .null).truthy <;> rfl

theorem decodeClaims_stream (episodeId : String) (exp : ℤ) :
    decodeClaims (streamPayload episodeId exp) = some ⟨"", "", ""⟩ := rfl

theorem goTimes_stream (episodeId : String) (exp : ℤ) (now : ℤ) :
    goTimes jwt (streamPayload episodeId exp) now =
      (jwt.goDate exp).any (fun seconds => decide (now < seconds * 10 ^ 9)) := by
  have hexp : numericDate (streamPayload episodeId exp) "exp" = some exp := rfl
  have hnbf : numericDate (streamPayload episodeId exp) "nbf" = none := rfl
  simp [goTimes, hexp, hnbf]

theorem auth_rejects_stream_iff {episodeId : String} {exp : ℤ}
    (h : jwt.verify token secret = some (streamPayload episodeId exp)) :
    Authenticator.gateway.Rejects jwt secret token now ↔
      ∀ seconds, jwt.goDate exp = some seconds → seconds * 10 ^ 9 ≤ now := by
  rw [Authenticator.Rejects, Authenticator.identify, auth_of_verify h, decodeClaims_stream, goTimes_stream]
  cases jwt.goDate exp with
  | none => simp
  | some seconds => simp

theorem getCurrentUser_rejects_stream {episodeId : String} {exp : ℤ}
    (h : jwt.verify token secret = some (streamPayload episodeId exp)) :
    (getCurrentUser jwt secret token now).toOption = none := by
  have huser : (streamPayload episodeId exp).lookup "user_id" = none := rfl
  rw [getCurrentUser_of_verify h, if_neg]
  rw [huser]
  rintro ⟨-, hnull, -⟩
  cases hnull

theorem python_rejects_stream {episodeId : String} {exp : ℤ} {authenticator : Authenticator}
    (hpython : authenticator ≠ .gateway) (h : jwt.verify token secret = some (streamPayload episodeId exp)) :
    authenticator.Rejects jwt secret token now := by
  have hreject : (getCurrentUser jwt secret token now).toOption = none := getCurrentUser_rejects_stream h
  cases authenticator with
  | gateway => exact absurd rfl hpython
  | datasetService => rw [Authenticator.Rejects, Authenticator.identify, hreject, Option.map_none]
  | taskService => rw [Authenticator.Rejects, Authenticator.identify, hreject, Option.map_none]

theorem stream_token_rejected_iff (jwt : Jwt τ) (secret : String) (service : PythonService)
    (streamTokenExpireSeconds : ℤ) (episodeId : String) (expiresIn : Option ℤ) (minted now : ℤ) :
    (∀ authenticator : Authenticator, authenticator.Rejects jwt secret
        (createStreamToken jwt secret service streamTokenExpireSeconds episodeId expiresIn minted) now) ↔
      ∀ seconds, jwt.goDate (streamTokenExp service streamTokenExpireSeconds expiresIn minted) = some seconds →
        seconds * 10 ^ 9 ≤ now := by
  have hverify := jwt.verify_sign
    (streamPayload episodeId (streamTokenExp service streamTokenExpireSeconds expiresIn minted)) secret
  constructor
  · intro hall
    exact (auth_rejects_stream_iff hverify).mp (hall .gateway)
  · intro hexpired authenticator
    by_cases hpython : authenticator = .gateway
    · rw [hpython]
      exact (auth_rejects_stream_iff hverify).mpr hexpired
    · exact python_rejects_stream hpython hverify

def plainJwt : Jwt (Payload × String) where
  sign := Prod.mk
  verify token secret := if token.2 = secret then some token.1 else none
  goDate := some
  verify_sign := fun _ _ => if_pos rfl
  goDate_of_le := fun _ _ => rfl

theorem stream_token_identified :
    ¬ (∀ authenticator : Authenticator, authenticator.Rejects plainJwt "dev-secret-change-in-production"
        (createStreamToken plainJwt "dev-secret-change-in-production" .taskService 2592000
          "00000000-0000-0000-0000-00000000000a" none (1750000000 * 10 ^ 9)) (1750000001 * 10 ^ 9)) := by
  intro h
  have hidentified : (Authenticator.gateway.identify plainJwt "dev-secret-change-in-production"
      (createStreamToken plainJwt "dev-secret-change-in-production" .taskService 2592000
        "00000000-0000-0000-0000-00000000000a" none (1750000000 * 10 ^ 9)) (1750000001 * 10 ^ 9)) =
      some ⟨.str "", .str "", some (.str "")⟩ := rfl
  rw [h .gateway] at hidentified
  cases hidentified

end StreamTokens

end Embedai.Accounts
