import Ekip.Lib.Service
import Ekip.Database.Models

/-!
# What a request can raise
-/
namespace Ekip.Core

open Ekip.Lib Ekip.Database

inductive ErrorKind
  | permissionDenied
  | notFound
  | conflict
  | validation
deriving DecidableEq

structure EkipError where
  kind : ErrorKind
  message : String
  errorCode : String
  detail : List (String × String) := []
deriving DecidableEq

/-- `EkipError` is the domain hierarchy that handlers catch; the rest is not. -/
inductive Exn
  | ekip (error : EkipError)
  | integrityError (constraint : String)
  | runtimeError (message : String)
  | valueError (message : String)
  | typeError (message : String)
  | keyError (key : String)
deriving DecidableEq

def permissionDenied (message errorCode : String) (detail : List (String × String) := []) : Exn :=
  .ekip { kind := .permissionDenied, message, errorCode, detail }

def notFound (message errorCode : String) (detail : List (String × String) := []) : Exn :=
  .ekip { kind := .notFound, message, errorCode, detail }

def conflict (message errorCode : String) (detail : List (String × String) := []) : Exn :=
  .ekip { kind := .conflict, message, errorCode, detail }

def validation (message errorCode : String) (detail : List (String × String) := []) : Exn :=
  .ekip { kind := .validation, message, errorCode, detail }

/-- An operation of the service layer. -/
abbrev ServiceM := Service Exn Db

/-- `get_db_session` around a handler: commit on return, roll back on a raise. -/
def getDbSession {α : Type} (handler : ServiceM α) : ServiceM α := Service.transaction handler

end Ekip.Core
