import Provision.Host.World

namespace Provision

structure Package where
  package : String
  version : Option String := none
deriving DecidableEq, Repr

namespace Package

def describe (p : Package) : String :=
  match p.version with
  | some version => "Install package " ++ p.package ++ " " ++ version
  | none => "Install package " ++ p.package

def problem? (p : Package) : Option String :=
  if Text.isBlankText p.package then some "package name is empty" else none

def satisfiedBy (p : Package) : Option String → Bool
  | none => false
  | some installed => p.version.all (installed == ·)

variable {σ : Type}

def check (host : Host σ) (p : Package) : Action σ Drift := do
  let installed ← Action.ofReply (perform host (.installedVersion p.package))
  if p.satisfiedBy installed then return .inSync
  match installed with
  | some current =>
    return .drifted ("upgrade " ++ p.package ++ " from " ++ current ++ " to " ++
      p.version.getD "latest")
  | none => return .drifted ("install " ++ p.package)

def apply (host : Host σ) (p : Package) : Action σ Change := do
  let installed ← Action.ofReply (perform host (.installedVersion p.package))
  if p.satisfiedBy installed then return .unchanged
  Action.ofReply (perform host (.install p.package p.version))
  let version ← Action.ofReply (perform host (.installedVersion p.package))
  return .converged ("installed " ++ p.package ++ " " ++ version.getD "unknown version")

def toFields (p : Package) : Fields :=
  [("package", .string p.package), ("version", .optionString p.version)]

def fieldNames : List String := ["package", "version"]

def ofFields? (fields : Fields) : Option Package := do
  let package ← fields.need? "package" Json.asString?
  let version ← fields.optional? "version" Json.asString?
  some ⟨package, version⟩

end Package

end Provision
