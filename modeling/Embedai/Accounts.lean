import Embedai.StreamIngestion
import Embedai.Tokens

namespace Embedai.Accounts

open Handlers TransitionSystems
open Gateway (fieldError)
open StreamServer (uuidIn)

structure User where
  email : String
  name : String
  hashedPassword : String
  role : String
  projectId : Option Uuid
  isActive : Bool

/-- The tables `projects` and `users`; `users.email` is unique. -/
structure Directory where
  projects : List Uuid
  users : OrderedDict Uuid User
  emails_nodup : (users.values.map User.email).Nodup

def Directory.insert (d : Directory) (id : Uuid) (user : User) (hid : id ∉ d.users.keys)
    (hemail : user.email ∉ d.users.values.map User.email) : Directory where
  projects := d.projects
  users := d.users.append id user hid
  emails_nodup := by
    rw [OrderedDict.values_append, List.map_append, List.map_singleton]
    exact List.nodup_append.mpr ⟨d.emails_nodup, List.nodup_singleton _, fun a ha b hb he =>
      hemail (List.mem_singleton.mp hb ▸ he ▸ ha)⟩

inductive PgError
  | uniqueViolation
  | foreignKeyViolation
  | other
  deriving DecidableEq

def varchar (width : ℕ) (text : String) : Bool := text.length ≤ width && !text.toList.contains (Char.ofNat 0)

/-- `NULLIF($6, '')::uuid`: no result where the text is no uuid. -/
def projectColumn (projectId : String) : Option (Option Uuid) :=
  if projectId = "" then some none else (uuidIn projectId).map some

structure NewUser where
  email : String
  name : String
  hashedPassword : String
  role : String
  projectId : String

def NewUser.row (u : NewUser) (project : Option Uuid) : User :=
  ⟨u.email, u.name, u.hashedPassword, u.role, project, true⟩

def NewUser.fits (u : NewUser) : Bool :=
  varchar 255 u.email && varchar 255 u.name && varchar 255 u.hashedPassword && varchar 50 u.role

def create (id : Uuid) (u : NewUser) (d : Directory) : Except PgError Directory :=
  match projectColumn u.projectId with
  | none => .error .other
  | some project =>
    if u.fits then
      if hid : id ∈ d.users.keys then .error .uniqueViolation
      else if hemail : u.email ∈ d.users.values.map User.email then .error .uniqueViolation
      -- a foreign key is checked at the end of the statement
      else if project.all (· ∈ d.projects) then .ok (d.insert id (u.row project) hid hemail)
      else .error .foreignKeyViolation
    else .error .other

def findByEmail (email : String) (d : Directory) : Option (Uuid × User) :=
  d.users.items.find? (fun p => p.2.email = email && p.2.isActive)

structure RegisterRequest where
  email : String
  password : String
  name : String
  role : String
  projectId : String

structure LoginRequest where
  email : String
  password : String

structure UserOut where
  id : String
  email : String
  name : String
  role : String
  projectId : String

def roles : List String := ["admin", "engineer", "annotator_internal", "annotator_outsource"]

def emailErrors (isEmail : String → Bool) (email : String) : List String :=
  if email = "" then [fieldError "Email" "required"] else if isEmail email then [] else [fieldError "Email" "email"]

def registerErrors (isEmail : String → Bool) (req : RegisterRequest) : List String :=
  emailErrors isEmail req.email ++
    (if req.password = "" then [fieldError "Password" "required"]
      else if req.password.length < 8 then [fieldError "Password" "min"] else []) ++
    (if req.name = "" then [fieldError "Name" "required"] else []) ++
    (if req.role = "" then [fieldError "Role" "required"]
      else if req.role ∈ roles then [] else [fieldError "Role" "oneof"])

def loginErrors (isEmail : String → Bool) (req : LoginRequest) : List String :=
  emailErrors isEmail req.email ++ (if req.password = "" then [fieldError "Password" "required"] else [])

def bindFields (errors : List String) : Except Gateway.HttpError Unit :=
  if errors = [] then .ok () else .error ⟨400, "\n".intercalate errors⟩

def createAnswer : PgError → Gateway.HttpError
  | .uniqueViolation => ⟨409, "email already exists"⟩
  | .foreignKeyViolation => ⟨422, "project_id does not exist"⟩
  | .other => ⟨500, "failed to create user"⟩

def insertUser (fails : Bool) (id : Uuid) (u : NewUser) : Handler Directory Gateway.HttpError Unit :=
  ExceptT.mk fun d =>
    if fails then (.error ⟨500, "failed to create user"⟩, d)
    else match create id u d with
      | .ok t => (.ok (), t)
      | .error e => (.error (createAnswer e), d)

/-- `hashed` is what `bcrypt.GenerateFromPassword` gives; it refuses a password of more than 72 bytes. -/
def register (isEmail : String → Bool) (hashed : Option String) (fails : Bool) (id : Uuid) (req : RegisterRequest) :
    Handler Directory Gateway.HttpError UserOut := do
  require (bindFields (registerErrors isEmail req))
  let hashedPassword ← require (orRaise ⟨500, "failed to hash password"⟩ hashed)
  insertUser fails id ⟨req.email, req.name, hashedPassword, req.role, req.projectId⟩
  return ⟨id.text, req.email, req.name, req.role, req.projectId⟩

def projectText (project : Option Uuid) : String := (project.map Uuid.text).getD ""

section Sessions

variable {τ : Type} (jwt : Jwt τ) (secret : String) (isEmail : String → Bool) (compare : String → String → Bool)
  (expireHours : ℤ)

/-- The product of two durations is a product of 64-bit integers. -/
def expiresAt (now : ℤ) : ℤ := (now + (expireHours * (3600 * 10 ^ 9)).bmod (2 ^ 64)) / 10 ^ 9

def sessionPayload (id : Uuid) (user : User) (now : ℤ) : Payload :=
  [("user_id", .str id.text), ("project_id", .str (projectText user.projectId)), ("role", .str user.role),
    ("exp", .int (expiresAt expireHours now)), ("iat", .int (now / 10 ^ 9))]

def generateJWT (id : Uuid) (user : User) (now : ℤ) : τ := jwt.sign (sessionPayload expireHours id user now) secret

structure LoginResponse (τ : Type) where
  token : τ
  user : UserOut

def comparePassword (user : User) (password : String) : Except Gateway.HttpError Unit :=
  if compare user.hashedPassword password then .ok () else .error ⟨401, "invalid credentials"⟩

def login (fails : Bool) (req : LoginRequest) (now : ℤ) : Handler Directory Gateway.HttpError (LoginResponse τ) := do
  require (bindFields (loginErrors isEmail req))
  let (id, user) ← attempt fails ⟨401, "invalid credentials"⟩ (fun d => (findByEmail req.email d).map (·, d))
  require (comparePassword compare user req.password)
  return ⟨generateJWT jwt secret expireHours id user now,
    ⟨id.text, user.email, user.name, user.role, projectText user.projectId⟩⟩

inductive AccountRequest
  | register (hashed : Option String) (fails : Bool) (id : Uuid) (req : RegisterRequest)
  | login (fails : Bool) (req : LoginRequest) (now : ℤ)

def next (d : Directory) : AccountRequest → Option Directory
  | .register hashed fails id req => some (answer (register isEmail hashed fails id req) d).2
  | .login fails req now => some (answer (login jwt secret isEmail compare expireHours fails req now) d).2

end Sessions

section Users

variable {d t : Directory} {id : Uuid} {u : NewUser} {user : User}

theorem get?_insert (hid : id ∉ d.users.keys) (hemail : user.email ∉ d.users.values.map User.email) (j : Uuid) :
    (d.insert id user hid hemail).users.get? j = if j = id then some user else d.users.get? j :=
  OrderedDict.get?_append d.users id j user hid

theorem create_eq_ok : create id u d = .ok t ↔ ∃ project hid hemail, projectColumn u.projectId = some project ∧
    u.fits = true ∧ project.all (· ∈ d.projects) = true ∧ t = d.insert id (u.row project) hid hemail := by
  unfold create
  constructor
  · intro h
    split at h
    · cases h
    · next project hproject =>
      split_ifs at h with hfits hid hemail hknown
      cases h
      exact ⟨project, hid, hemail, hproject, hfits, hknown, rfl⟩
  · rintro ⟨project, hid, hemail, hproject, hfits, hknown, rfl⟩
    rw [hproject]
    simp only [hfits, hknown, if_true, dif_neg hid]
    exact dif_neg hemail

theorem findByEmail_eq_some {email : String} (h : findByEmail email d = some (id, user)) :
    d.users.get? id = some user ∧ user.email = email := by
  have hfound := List.find?_some h
  simp only [Bool.and_eq_true, decide_eq_true_eq] at hfound
  exact ⟨OrderedDict.mem_items.mp (List.mem_of_find?_eq_some h), hfound.1⟩

theorem eq_of_email {id' : Uuid} {user' : User} (h : d.users.get? id = some user) (h' : d.users.get? id' = some user')
    (hemail : user.email = user'.email) : id = id' ∧ user = user' := by
  have hnodup := d.emails_nodup
  rw [OrderedDict.values, List.map_map] at hnodup
  have he := List.inj_on_of_nodup_map hnodup (OrderedDict.mem_items.mpr h) (OrderedDict.mem_items.mpr h') hemail
  exact Prod.ext_iff.mp he

theorem insertUser_eq_ok {fails : Bool} {r : Unit} :
    answer (insertUser fails id u) d = (.ok r, t) ↔ fails = false ∧ create id u d = .ok t := by
  change (if fails then (Except.error _, d) else _) = _ ↔ _
  cases fails with
  | true => simp
  | false =>
    cases create id u d with
    | error e => simp
    | ok t' => simp

theorem register_eq_ok {isEmail : String → Bool} {hashed : Option String} {fails : Bool} {req : RegisterRequest}
    {out : UserOut} :
    answer (register isEmail hashed fails id req) d = (.ok out, t) ↔
      bindFields (registerErrors isEmail req) = .ok () ∧ fails = false ∧
        out = ⟨id.text, req.email, req.name, req.role, req.projectId⟩ ∧
        ∃ hashedPassword, hashed = some hashedPassword ∧
          create id ⟨req.email, req.name, hashedPassword, req.role, req.projectId⟩ d = .ok t := by
  simp only [register, answer_bind_eq_ok, answer_require_eq_ok, orRaise_eq_ok, insertUser_eq_ok, answer_pure,
    Prod.mk.injEq, Except.ok.injEq]
  constructor
  · rintro ⟨_, _, ⟨hbind, rfl⟩, hashedPassword, _, ⟨hhash, rfl⟩, _, _, ⟨hfails, hcreate⟩, rfl, rfl⟩
    exact ⟨hbind, hfails, rfl, hashedPassword, hhash, hcreate⟩
  · rintro ⟨hbind, hfails, rfl, hashedPassword, hhash, hcreate⟩
    exact ⟨(), d, ⟨hbind, rfl⟩, hashedPassword, d, ⟨hhash, rfl⟩, (), t, ⟨hfails, hcreate⟩, rfl, rfl⟩

structure AcceptsRegister (isEmail : String → Bool) (hashed : Option String) (fails : Bool) (id : Uuid)
    (req : RegisterRequest) (d : Directory) (project : Option Uuid) : Prop where
  bound : bindFields (registerErrors isEmail req) = .ok ()
  reached : fails = false
  fits : ∃ hashedPassword, hashed = some hashedPassword ∧
    NewUser.fits ⟨req.email, req.name, hashedPassword, req.role, req.projectId⟩ = true
  column : projectColumn req.projectId = some project
  known : project.all (· ∈ d.projects) = true
  freshId : id ∉ d.users.keys
  freshEmail : req.email ∉ d.users.values.map User.email

theorem acceptsRegister_iff {isEmail : String → Bool} {hashed : Option String} {fails : Bool} {req : RegisterRequest}
    {project : Option Uuid} :
    AcceptsRegister isEmail hashed fails id req d project ↔ ∃ out row hid hemail, row.projectId = project ∧
      answer (register isEmail hashed fails id req) d = (.ok out, d.insert id row hid hemail) := by
  constructor
  · intro h
    obtain ⟨hashedPassword, hhashed, hfits⟩ := h.fits
    refine ⟨⟨id.text, req.email, req.name, req.role, req.projectId⟩,
      ⟨req.email, req.name, hashedPassword, req.role, project, true⟩, h.freshId, h.freshEmail, rfl, ?_⟩
    exact register_eq_ok.mpr ⟨h.bound, h.reached, rfl, hashedPassword, hhashed,
      create_eq_ok.mpr ⟨project, h.freshId, h.freshEmail, h.column, hfits, h.known, rfl⟩⟩
  · rintro ⟨out, row, hid, hemail, hproject, hok⟩
    obtain ⟨hbound, hreached, -, hashedPassword, hhashed, hcreate⟩ := register_eq_ok.mp hok
    obtain ⟨project', hid', hemail', hcolumn, hfits, hknown, hinsert⟩ := create_eq_ok.mp hcreate
    have hrow := congrArg (fun t => t.users.get? id) hinsert
    simp only [get?_insert, if_pos, Option.some.injEq] at hrow
    rw [hrow] at hproject
    subst hproject
    exact ⟨hbound, hreached, ⟨hashedPassword, hhashed, hfits⟩, hcolumn, hknown, hid', hemail'⟩

theorem failsClean_insertUser (fails : Bool) : FailsClean (insertUser fails id u) := by
  intro s t e h
  change (if fails then (Except.error _, s) else _) = _ at h
  split at h
  · cases h
    rfl
  · split at h
    · cases h
    · cases h
      rfl

theorem failsClean_register (isEmail : String → Bool) (hashed : Option String) (fails : Bool)
    (req : RegisterRequest) : FailsClean (register isEmail hashed fails id req) := by
  apply FailsClean.bind (reads_require _)
  intro _
  apply FailsClean.bind (reads_require _)
  intro hashedPassword
  exact (failsClean_insertUser fails).bind_pure _

theorem register_cases (isEmail : String → Bool) (hashed : Option String) (fails : Bool) (req : RegisterRequest)
    (d : Directory) :
    (answer (register isEmail hashed fails id req) d).2 = d ∨ ∃ out, answer (register isEmail hashed fails id req) d =
      (.ok out, (answer (register isEmail hashed fails id req) d).2) := by
  cases h : (answer (register isEmail hashed fails id req) d).1 with
  | error e => exact Or.inl (failsClean_register isEmail hashed fails req d _ e (Prod.ext h rfl))
  | ok out => exact Or.inr ⟨out, Prod.ext h rfl⟩

end Users

section Login

variable {τ : Type} {jwt : Jwt τ} {secret : String} {isEmail : String → Bool} {compare : String → String → Bool}
  {expireHours : ℤ} {d t : Directory}

theorem login_eq_ok {fails : Bool} {req : LoginRequest} {now : ℤ} {response : LoginResponse τ} :
    answer (login jwt secret isEmail compare expireHours fails req now) d = (.ok response, t) ↔
      bindFields (loginErrors isEmail req) = .ok () ∧ fails = false ∧ t = d ∧ ∃ id user,
        findByEmail req.email d = some (id, user) ∧ compare user.hashedPassword req.password = true ∧
          response = ⟨generateJWT jwt secret expireHours id user now,
            ⟨id.text, user.email, user.name, user.role, projectText user.projectId⟩⟩ := by
  have hcompare : ∀ user : User, ∀ r, comparePassword compare user req.password = .ok r ↔
      compare user.hashedPassword req.password = true := by
    intro user r
    unfold comparePassword
    split <;> simp [*]
  simp only [login, answer_bind_eq_ok, answer_require_eq_ok, answer_attempt_eq_ok, answer_pure, hcompare,
    Option.map_eq_some_iff, Prod.mk.injEq, Except.ok.injEq]
  constructor
  · rintro ⟨_, _, ⟨hbind, rfl⟩, ⟨id, user⟩, _, ⟨hfails, _, hfound, rfl, rfl⟩, _, _, ⟨hpassword, rfl⟩, rfl, rfl⟩
    exact ⟨hbind, hfails, rfl, id, user, hfound, hpassword, rfl⟩
  · rintro ⟨hbind, hfails, rfl, id, user, hfound, hpassword, rfl⟩
    exact ⟨(), t, ⟨hbind, rfl⟩, (id, user), t, ⟨hfails, (id, user), hfound, rfl, rfl⟩, (), t, ⟨hpassword, rfl⟩, rfl,
      rfl⟩

theorem reads_login (fails : Bool) (req : LoginRequest) (now : ℤ) :
    Reads (login jwt secret isEmail compare expireHours fails req now) := by
  apply Reads.bind (reads_require _)
  intro _
  apply Reads.bind
  · intro s
    rw [answer_attempt]
    cases fails with
    | true => rfl
    | false => cases h : findByEmail req.email s <;> rfl
  · intro found
    exact Reads.bind (reads_require _) (fun _ => reads_pure _)

theorem get?_next {a : AccountRequest} {id : Uuid} {user : User} (hid : d.users.get? id = some user)
    (h : next jwt secret isEmail compare expireHours d a = some t) : t.users.get? id = some user := by
  cases a with
  | register hashed fails id' req =>
    simp only [next, Option.some.injEq] at h
    rcases register_cases isEmail hashed fails req d with hsame | ⟨out, hok⟩
    · rw [← h, hsame]
      exact hid
    · rw [h] at hok
      obtain ⟨-, -, -, hashedPassword, -, hcreate⟩ := register_eq_ok.mp hok
      obtain ⟨project, hfresh, hemail, -, -, -, rfl⟩ := create_eq_ok.mp hcreate
      rw [get?_insert, if_neg, hid]
      rintro rfl
      rw [OrderedDict.get?_eq_none.mpr hfresh] at hid
      cases hid
  | login fails req now =>
    simp only [next, Option.some.injEq] at h
    rw [← h, reads_login]
    exact hid

end Login

section Identities

variable {τ : Type} {jwt : Jwt τ} {secret : String} {expireHours : ℤ} {id : Uuid} {user : User}

theorem projectText_ne_empty {project : Option Uuid} : projectText project ≠ "" ↔ project ≠ none := by
  cases project with
  | none => simp [projectText]
  | some id => simp [projectText, id.text_ne_empty]

theorem projectColumn_ne_none {text : String} {project : Option Uuid} (h : projectColumn text = some project) :
    project ≠ none ↔ text ≠ "" := by
  unfold projectColumn at h
  split_ifs at h with hempty
  · cases h
    simp [hempty]
  · obtain ⟨id, -, rfl⟩ := Option.map_eq_some_iff.mp h
    simp [hempty]

/-- The identity of a row, with the empty text for `NULL`. -/
def User.identity (user : User) (id : Uuid) : Identity :=
  ⟨.str id.text, .str (projectText user.projectId), some (.str user.role)⟩

def TokenValid (jwt : Jwt τ) (secret : String) (token : τ) (now : ℤ) : Prop :=
  ∃ payload, jwt.verify token secret = some payload ∧ goTimes jwt payload now = true ∧ joseTimes payload now = true

theorem identify_session_iff {issued now : ℤ}
    (hvalid : TokenValid jwt secret (generateJWT jwt secret expireHours id user issued) now) :
    (∀ authenticator : Authenticator, authenticator.identify jwt secret
        (generateJWT jwt secret expireHours id user issued) now = some (user.identity id)) ↔
      user.projectId ≠ none := by
  have hverify := jwt.verify_sign (sessionPayload expireHours id user issued) secret
  obtain ⟨payload, hpayload, hgo, hjose⟩ := hvalid
  rw [generateJWT, hverify] at hpayload
  cases hpayload
  have hclaims : decodeClaims (sessionPayload expireHours id user issued) =
      some ⟨id.text, projectText user.projectId, user.role⟩ := rfl
  have huser : (sessionPayload expireHours id user issued).lookup "user_id" = some (.str id.text) := rfl
  have hproject : (sessionPayload expireHours id user issued).lookup "project_id" =
      some (.str (projectText user.projectId)) := rfl
  have hrole : (sessionPayload expireHours id user issued).lookup "role" = some (.str user.role) := rfl
  have hgateway : Authenticator.gateway.identify jwt secret (generateJWT jwt secret expireHours id user issued) now =
      some (user.identity id) := by
    rw [Authenticator.identify, generateJWT, auth_of_verify hverify, hgo, if_pos rfl, hclaims]
    rfl
  have hpython : (getCurrentUser jwt secret (generateJWT jwt secret expireHours id user issued) now).toOption =
      if projectText user.projectId ≠ "" then
        some ⟨.str id.text, .str (projectText user.projectId), some (.str user.role)⟩ else none := by
    rw [generateJWT, getCurrentUser_of_verify hverify, huser, hproject, hrole]
    simp [hjose, Json.truthy, Uuid.text_ne_empty]
  rw [← projectText_ne_empty]
  constructor
  · intro hall hempty
    have hdataset := hall .datasetService
    rw [Authenticator.identify, hpython, if_neg (fun hne => hne hempty)] at hdataset
    cases hdataset
  · intro hne authenticator
    rw [if_pos hne] at hpython
    cases authenticator with
    | gateway => exact hgateway
    | datasetService =>
      rw [Authenticator.identify, hpython]
      rfl
    | taskService =>
      rw [Authenticator.identify, hpython]
      rfl

end Identities

section Accounts

variable {τ : Type} {jwt : Jwt τ} {secret : String} {isEmail : String → Bool} {compare : String → String → Bool}
  {expireHours : ℤ}

theorem one_identity_iff {d registered u v : Directory} {hashed : Option String} {fails loginFails : Bool} {id : Uuid}
    {req : RegisterRequest} {out : UserOut} {requests : List AccountRequest} {loginReq : LoginRequest}
    {response : LoginResponse τ} {issued now : ℤ}
    (hregister : answer (register isEmail hashed fails id req) d = (.ok out, registered))
    (hrun : run (next jwt secret isEmail compare expireHours) registered requests = some u)
    (hlogin : answer (login jwt secret isEmail compare expireHours loginFails loginReq issued) u = (.ok response, v))
    (hemail : loginReq.email = req.email) (hvalid : TokenValid jwt secret response.token now) :
    (∃ user, v.users.get? id = some user ∧ ∀ authenticator : Authenticator,
        authenticator.identify jwt secret response.token now = some (user.identity id)) ↔ req.projectId ≠ "" := by
  obtain ⟨-, -, -, hashedPassword, -, hcreate⟩ := register_eq_ok.mp hregister
  obtain ⟨project, hid, hfresh, hcolumn, -, -, rfl⟩ := create_eq_ok.mp hcreate
  let row : User := ⟨req.email, req.name, hashedPassword, req.role, project, true⟩
  have hrow : u.users.get? id = some row := by
    have hstart := get?_insert hid hfresh id
    rw [if_pos rfl] at hstart
    exact invariant_run (fun s => s.users.get? id = some row) (fun s a t hs ht => get?_next hs ht) hstart hrun
  obtain ⟨-, -, rfl, id', user', hfound, -, rfl⟩ := login_eq_ok.mp hlogin
  obtain ⟨hrow', hemail'⟩ := findByEmail_eq_some hfound
  obtain ⟨rfl, rfl⟩ := eq_of_email hrow hrow' (hemail.symm.trans hemail'.symm)
  rw [← projectColumn_ne_none hcolumn, ← identify_session_iff hvalid]
  constructor
  · rintro ⟨user, huser, hall⟩
    rw [hrow] at huser
    cases huser
    exact hall
  · intro hall
    exact ⟨row, hrow, hall⟩

def firstProject : Directory := ⟨[⟨1⟩], OrderedDict.empty, List.nodup_nil⟩

def hasAtSign (email : String) : Bool := email.toList.contains '@'

def registerEngineer (projectId : String) : Handler Directory Gateway.HttpError UserOut :=
  register hasAtSign (some "engineer-password") false ⟨2⟩
    ⟨"engineer@embedai.local", "engineer-password", "Engineer", "engineer", projectId⟩

def engineer (project : Option Uuid) : User :=
  ⟨"engineer@embedai.local", "Engineer", "engineer-password", "engineer", project, true⟩

def withEngineer (project : Option Uuid) : Directory :=
  firstProject.insert ⟨2⟩ (engineer project) List.not_mem_nil List.not_mem_nil

def engineerOut (projectId : String) : UserOut :=
  ⟨"00000000-0000-0000-0000-000000000002", "engineer@embedai.local", "Engineer", "engineer", projectId⟩

def loginEngineer : Handler Directory Gateway.HttpError (LoginResponse (Payload × String)) :=
  login plainJwt "secret" hasAtSign (fun hashed password => hashed = password) 24 false
    ⟨"engineer@embedai.local", "engineer-password"⟩ (1750000000 * 10 ^ 9)

def engineerToken (project : Option Uuid) : Payload × String :=
  generateJWT plainJwt "secret" 24 ⟨2⟩ (engineer project) (1750000000 * 10 ^ 9)

theorem valid_engineerToken (project : Option Uuid) :
    TokenValid plainJwt "secret" (engineerToken project) (1750000001 * 10 ^ 9) :=
  ⟨_, plainJwt.verify_sign _ _, rfl, rfl⟩

theorem one_identity_iff_engineer :
    (∃ user, (withEngineer (some ⟨1⟩)).users.get? ⟨2⟩ = some user ∧ ∀ authenticator : Authenticator,
        authenticator.identify plainJwt "secret" (engineerToken (some ⟨1⟩)) (1750000001 * 10 ^ 9) =
          some (user.identity ⟨2⟩)) ↔ "00000000-0000-0000-0000-000000000001" ≠ "" := by
  have hregister : answer (registerEngineer "00000000-0000-0000-0000-000000000001") firstProject =
      (.ok (engineerOut "00000000-0000-0000-0000-000000000001"), withEngineer (some ⟨1⟩)) := rfl
  have hlogin : answer loginEngineer (withEngineer (some ⟨1⟩)) =
      (.ok ⟨engineerToken (some ⟨1⟩), engineerOut "00000000-0000-0000-0000-000000000001"⟩,
        withEngineer (some ⟨1⟩)) := rfl
  have hrun : run (next plainJwt "secret" hasAtSign (fun hashed password => hashed = password) 24)
      (withEngineer (some ⟨1⟩)) [] = some (withEngineer (some ⟨1⟩)) := rfl
  exact one_identity_iff hregister hrun hlogin rfl (valid_engineerToken (some ⟨1⟩))

theorem unaffiliated_engineer_rejected :
    answer (registerEngineer "") firstProject = (.ok (engineerOut ""), withEngineer none) ∧
      answer loginEngineer (withEngineer none) = (.ok ⟨engineerToken none, engineerOut ""⟩, withEngineer none) ∧
      TokenValid plainJwt "secret" (engineerToken none) (1750000001 * 10 ^ 9) ∧
      ¬ ∃ user, (withEngineer none).users.get? ⟨2⟩ = some user ∧ ∀ authenticator : Authenticator,
        authenticator.identify plainJwt "secret" (engineerToken none) (1750000001 * 10 ^ 9) =
          some (user.identity ⟨2⟩) := by
  refine ⟨rfl, rfl, valid_engineerToken none, ?_⟩
  rintro ⟨user, -, hall⟩
  have hnone : Authenticator.datasetService.identify plainJwt "secret" (engineerToken none) (1750000001 * 10 ^ 9) =
      none := rfl
  rw [hall .datasetService] at hnone
  cases hnone

end Accounts

end Embedai.Accounts
