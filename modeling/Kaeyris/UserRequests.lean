import Kaeyris.Lib.Transition
import Kaeyris.Users

/-!
# Requests on user accounts, interleaved

Each request runs in a transaction of its own under READ COMMITTED: what it reads is what others
have committed, and its own writes are seen when it commits at its end.
-/

namespace Kaeyris.Users
open Lib

/-! ## Changing users -/

/-- A request in flight. `edit` is there once the guard has let it through; `counted` then records
the administrators it counted, if it had to, and how many had been removed before. -/
structure Pending where
  id : Nat
  change : Change
  loaded : User
  edit : Option Edit
  counted : Option (Nat × Nat)

/-- `removals` only keeps the history: the commits that took an active administrator away. -/
structure Administration where
  db : Accounts
  pending : Table Nat Pending Pending.id
  removals : Nat

def Administration.initial (db : Accounts) : Administration := ⟨db, .empty, 0⟩

namespace Administration

inductive Label
  | load (request : Nat) (user : Uuid) (change : Change)
  | check (request : Nat) (apiKeyId : Uuid) (now : Timestamp)
  | commit (request : Nat)
  | abort (request : Nat)

def finish (s : Administration) (request : Nat) : Administration :=
  { s with pending := s.pending.delete fun p => p.id = request }

def load (s : Administration) (request : Nat) (user : Uuid) (change : Change) : Administration :=
  match getUser s.db user with
  | .error _ => s
  | .ok row =>
      match s.pending.insert? ⟨request, change, row, none, none⟩ with
      | none => s
      | some pending => { s with pending := pending }

def count (s : Administration) (p : Pending) : Option (Nat × Nat) :=
  if p.loaded.isActiveAdmin && p.change.wouldRemoveAdmin then
    some (countActiveAdmins s.db, s.removals)
  else none

def check (env : Hashing) (s : Administration) (request : Nat) (apiKeyId : Uuid)
    (now : Timestamp) : Administration :=
  match s.pending.get? request with
  | none => s
  | some p =>
      if p.edit.isSome then s
      else
        match guardLastAdmin s.db p.loaded p.change, edit env s.db p.loaded apiKeyId now p.change with
        | .ok (), .ok e =>
            { s with pending := s.pending.put { p with edit := some e, counted := count s p } }
        | _, _ => s.finish request

def removesAdmin (db : Accounts) (e : Edit) : Bool :=
  (db.users.get? e.loaded.id).any fun row => row.isActiveAdmin && !(e.row row).isActiveAdmin

def commit (s : Administration) (request : Nat) : Administration :=
  match s.pending.get? request with
  | none => s
  | some p =>
      match p.edit with
      | none => s
      | some e =>
          match e.flush s.db with
          | none => s.finish request
          | some db =>
              { s.finish request with
                db := db
                removals := if removesAdmin s.db e then s.removals + 1 else s.removals }

def step (env : Hashing) (s : Administration) : Label → Administration
  | .load request user change => load s request user change
  | .check request apiKeyId now => check env s request apiKeyId now
  | .commit request => commit s request
  | .abort request => s.finish request

end Administration

/-! ## First-run setup -/

inductive Phase
  | waiting | locked | checked | inserted (new : NewUser) | released (new : NewUser)
  | committed | refused (error : UserError) | failed

structure SetupRequest where
  id : Nat
  username : Text
  password : Text
  phase : Phase

structure Setup where
  db : Accounts
  lock : Option Nat
  requests : Table Nat SetupRequest SetupRequest.id

def Setup.initial (db : Accounts) : Setup := ⟨db, none, .empty⟩

namespace Setup

inductive Label
  | arrive (request : Nat) (username password : Text)
  | acquire (request : Nat)
  | check (request : Nat)
  | insert (request : Nat) (drawn : Drawn)
  | release (request : Nat)
  | commit (request : Nat)

def move (s : Setup) (request : Nat) (phase : Phase) : Setup :=
  { s with
    requests := s.requests.update (fun r => r.id = request) fun r => { r with phase := phase } }

def refuse (s : Setup) (request : Nat) (error : UserError) : Setup :=
  { s.move request (.refused error) with lock := none }

/-- The insertion in `create_first_gm`, seen by the request's own transaction only. -/
def insert (env : Hashing) (s : Setup) (r : SetupRequest) (drawn : Drawn) : Setup :=
  match newUser env s.db drawn r.username (some .admin) none r.password with
  | .error e => s.refuse r.id e
  | .ok new =>
      match new.insert s.db with
      | none => s.refuse r.id .integrityError
      | some _ => s.move r.id (.inserted new)

def step (env : Hashing) (s : Setup) : Label → Setup
  | .arrive request username password =>
      match s.requests.insert? ⟨request, username, password, .waiting⟩ with
      | none => s
      | some requests => { s with requests := requests }
  | .acquire request =>
      match s.requests.get? request, s.lock with
      | some ⟨_, _, _, .waiting⟩, none => { s.move request .locked with lock := some request }
      | _, _ => s
  | .check request =>
      match s.requests.get? request with
      | some ⟨_, _, _, .locked⟩ =>
          if setupRequired s.db then s.move request .checked else s.refuse request .setupClosed
      | _ => s
  | .insert request drawn =>
      match s.requests.get? request with
      | some ⟨id, username, password, .checked⟩ =>
          s.insert env ⟨id, username, password, .checked⟩ drawn
      | _ => s
  | .release request =>
      match s.requests.get? request with
      | some ⟨_, _, _, .inserted new⟩ => { s.move request (.released new) with lock := none }
      | _ => s
  | .commit request =>
      match s.requests.get? request with
      | some ⟨_, _, _, .released new⟩ =>
          match new.insert s.db with
          | none => s.move request .failed
          | some db => { s.move request .committed with db := db }
      | _ => s

end Setup

end Kaeyris.Users
