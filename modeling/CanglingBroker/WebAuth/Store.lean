import CanglingBroker.Foundation.Pool
import CanglingBroker.Foundation.Table

/-!
# Logins of the dashboard

`WebAuth` keeps the administrator's password hash and one row per login session in a
database that the reset command writes to as well.  A token is never drawn twice.  Hashing,
verification and the password policy are parameters.
-/

namespace CanglingBroker

open Foundation

structure SessionRow where
  token : String
  lastSeen : Int
  deriving DecidableEq, Repr

abbrev SessionTable : Type :=
  Table (fun row : SessionRow => row.token) (fun _ : SessionRow => (none : Option Unit))

/-- The hash in the administrator's row, the sessions, the free login slots, and every
token drawn so far. -/
structure AuthState where
  admin : Option String
  sessions : SessionTable
  slots : Nat
  issued : List String

/-- What a password is checked and hashed with. -/
structure AuthParams where
  /-- `PasswordPolicy::validate`: why the password is refused. -/
  validate : String → Option String
  /-- Argon2 with a salt. -/
  hash : String → String → String
  verify : String → String → Bool

/-- What the scheduler decides about an action. -/
structure AuthChoice where
  clock : Nat := 0
  token : String := ""
  salt : String := ""
  fails : Bool := false
  deriving DecidableEq, Repr

/-- A statement, or what happens between two of them. -/
inductive AuthAction where
  | acquire
  | release
  | now
  | newToken
  | verify (password hash : String)
  | hash (password : String)
  | selectHash
  | upsertHash (hash : String)
  | insertSession (token : String) (lastSeen : Int)
  | selectSession (token : String)
  | touchSession (token : String) (lastSeen : Int)
  | deleteSession (token : String)
  | deleteSessions
  deriving DecidableEq, Repr

/-- What an action answers. -/
def AuthReply : AuthAction → Type
  | .acquire | .release => Unit
  | .now => Nat
  | .newToken => String
  | .verify _ _ => Except Unit Bool
  | .hash _ => Except Unit String
  | .selectHash => Except Unit (Option String)
  | .selectSession _ => Except Unit (Option Int)
  | _ => Except Unit Unit

/-- `SET last_seen = ?`. -/
def seenAt (lastSeen : Int) :
    Assignment (fun row : SessionRow => row.token)
      (fun _ : SessionRow => (none : Option Unit)) where
  set := fun row => { row with lastSeen := lastSeen }
  keepsPrimary := fun _ => rfl
  keepsAlternate := fun _ => rfl

def SessionRow.isFor (token : String) (row : SessionRow) : Bool :=
  decide (row.token = token)

def authPerform (params : AuthParams) (choice : AuthChoice) (state : AuthState)
    (request : AuthAction) : Option (AuthReply request × AuthState) :=
  match request with
  | .acquire =>
    if state.slots = 0 then none else some ((), { state with slots := state.slots - 1 })
  | .release => some ((), { state with slots := state.slots + 1 })
  | .now => some (choice.clock, state)
  | .newToken =>
    if choice.token ∈ state.issued then
      none
    else
      some (choice.token, { state with issued := choice.token :: state.issued })
  | .verify password hash =>
    some (if choice.fails then .error () else .ok (params.verify password hash), state)
  | .hash password =>
    some (if choice.fails then .error () else .ok (params.hash password choice.salt), state)
  | .selectHash => some (if choice.fails then .error () else .ok state.admin, state)
  | .upsertHash hash =>
    if choice.fails then
      some (.error (), state)
    else
      some (.ok (), { state with admin := some hash })
  | .insertSession token lastSeen =>
    if choice.fails ∨ state.sessions.Conflicts ⟨token, lastSeen⟩ then
      some (.error (), state)
    else
      some
        (.ok (), { state with sessions := state.sessions.insertOrIgnore ⟨token, lastSeen⟩ })
  | .selectSession token =>
    some
      (if choice.fails then
          .error ()
        else
          .ok ((state.sessions.rows.find? (SessionRow.isFor token)).map SessionRow.lastSeen),
        state)
  | .touchSession token lastSeen =>
    if choice.fails then
      some (.error (), state)
    else
      some
        (.ok (),
          { state with
            sessions := state.sessions.update (SessionRow.isFor token) (seenAt lastSeen) })
  | .deleteSession token =>
    if choice.fails then
      some (.error (), state)
    else
      some (.ok (), { state with sessions := state.sessions.delete (SessionRow.isFor token) })
  | .deleteSessions =>
    if choice.fails then
      some (.error (), state)
    else
      some (.ok (), { state with sessions := state.sessions.delete fun _ => true })

/-! ## The calls -/

/-- What a call ends with. -/
inductive AuthOutcome where
  | failed
  | refused (reason : String)
  | saved
  | token (token : Option String)
  | valid (value : Bool)
  | loggedOut
  deriving DecidableEq, Repr

namespace WebAuth

def act (request : AuthAction) : Program AuthAction AuthReply (AuthReply request) :=
  Program.ask request

def sessionSeconds : Nat :=
  2 * 60 * 60

/-- `now() as i64`. -/
def asI64 (seconds : Nat) : Int :=
  Int.bmod seconds (2 ^ 64)

def setPassword (params : AuthParams) (password : String) :
    Program AuthAction AuthReply AuthOutcome :=
  match params.validate password with
  | some reason => return .refused reason
  | none => do
      match ← act (.hash password) with
      | .error _ => return .failed
      | .ok hash =>
        match ← act (.upsertHash hash) with
        | .error _ => return .failed
        | .ok _ =>
          match ← act .deleteSessions with
          | .error _ => return .failed
          | .ok _ => return .saved

def leave (outcome : AuthOutcome) : Program AuthAction AuthReply AuthOutcome := do
  let _ ← act .release
  return outcome

def login (password : String) : Program AuthAction AuthReply AuthOutcome := do
  let _ ← act .acquire
  match ← act .selectHash with
  | .error _ => leave .failed
  | .ok none => leave (.token none)
  | .ok (some hash) =>
    match ← act (.verify password hash) with
    | .error _ => leave .failed
    | .ok false => leave (.token none)
    | .ok true =>
      let token ← act .newToken
      let now ← act .now
      match ← act (.insertSession token (asI64 now)) with
      | .error _ => leave .failed
      | .ok _ => leave (.token (some token))

def validSession (token : String) : Program AuthAction AuthReply AuthOutcome := do
  match ← act (.selectSession token) with
  | .error _ => return .failed
  | .ok none => return .valid false
  | .ok (some seen) =>
    let now ← act .now
    if sessionSeconds < (show Nat from now) - (max seen 0).toNat then
      match ← act (.deleteSession token) with
      | .error _ => return .failed
      | .ok _ => return .valid false
    else
      let later ← act .now
      match ← act (.touchSession token (asI64 later)) with
      | .error _ => return .failed
      | .ok _ => return .valid true

def logout (token : String) : Program AuthAction AuthReply AuthOutcome := do
  match ← act (.deleteSession token) with
  | .error _ => return .failed
  | .ok _ => return .loggedOut

end WebAuth

/-- The calls of the dashboard and of the reset command. -/
inductive AuthCall where
  | setPassword (password : String)
  | login (password : String)
  | validSession (token : String)
  | logout (token : String)
  deriving DecidableEq, Repr

def AuthCall.program (params : AuthParams) :
    AuthCall → Program AuthAction AuthReply AuthOutcome
  | .setPassword password => WebAuth.setPassword params password
  | .login password => WebAuth.login password
  | .validSession token => WebAuth.validSession token
  | .logout token => WebAuth.logout token

def loginSlots : Nat :=
  4

/-- The calls over one database.  A restart frees the login slots. -/
def authComponent (params : AuthParams) :
    Component AuthCall AuthAction AuthReply AuthState AuthChoice AuthOutcome where
  perform := authPerform params
  crash := fun state => { state with slots := loginSlots }
  program := AuthCall.program params

abbrev AuthEntry : Type := Performed AuthCall AuthAction AuthReply AuthState

abbrev AuthService : Type := Pool AuthCall AuthAction AuthReply AuthState AuthOutcome

abbrev AuthEvent : Type := PoolEvent AuthCall AuthChoice

def authSchedule (params : AuthParams) (initial : AuthState) (events : List AuthEvent) :
    Option AuthService :=
  Pool.replay (authComponent params) initial events

end CanglingBroker
