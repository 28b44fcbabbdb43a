import Kaeyris.System

/-!
# Recovering, step by step

`recover_stuck_transcription` as it runs beside the workers: it reads the session's row, asks RQ
about the row's job, writes the state and commits. Each of these is a step of its own here.
-/

namespace Kaeyris
open Lib

/-- A request between its first read and its commit. `cleared` tells that RQ reported no active
job. -/
structure Recover where
  id : Nat
  row : Session
  cleared : Bool
  deriving DecidableEq

structure Recovery where
  system : System
  recovers : Table Nat Recover Recover.id

namespace Recovery

def initial (db : Database) : Recovery := ⟨.initial db, .empty⟩

inductive Label
  | system (label : Kaeyris.Label)
  | readSession (recover : Nat) (auth : AuthenticatedKey) (session : Uuid)
  | readRq (recover : Nat)
  | commit (recover : Nat)
  | abort (recover : Nat)

def writes (row : Session) (db : Database) : Database :=
  let db₁ := SessionRepository.updateState db row.id .transcriptionFailed
  match row.currentJobId with
  | none => db₁
  | some job =>
      JobRepository.upsertStatus db₁ job .transcription row.id .failed
        (some "Transcription interrupted unexpectedly (worker lost before completion).")

def finish (s : Recovery) (recover : Nat) : Recovery :=
  { s with recovers := s.recovers.delete fun r => r.id = recover }

def readSession (s : Recovery) (recover : Nat) (auth : AuthenticatedKey) (session : Uuid) :
    Recovery :=
  match Router.requireSession s.system.db session auth with
  | .error _ => s
  | .ok row =>
      if row.state ≠ .transcribing then s
      else
        match s.recovers.insert? ⟨recover, row, false⟩ with
        | none => s
        | some recovers => { s with recovers := recovers }

def readRq (s : Recovery) (recover : Nat) : Recovery :=
  match s.recovers.get? recover with
  | none => s
  | some r =>
      if r.row.currentJobId.any (isRqJobActive s.system.rq) then s.finish recover
      else { s with recovers := s.recovers.put { r with cleared := true } }

def commit (s : Recovery) (recover : Nat) : Recovery :=
  match s.recovers.get? recover with
  | none => s
  | some r =>
      if r.cleared then
        { s.finish recover with system := { s.system with db := writes r.row s.system.db } }
      else s

def step (env : Jobs.Environment) (s : Recovery) : Label → Recovery
  | .system label => { s with system := s.system.step env label }
  | .readSession recover auth session => readSession s recover auth session
  | .readRq recover => readRq s recover
  | .commit recover => commit s recover
  | .abort recover => s.finish recover

end Recovery

end Kaeyris
