import Provision.Resource.Command
import Provision.Resource.Kind
import Provision.Resource.LineEdit
import Provision.Resource.Ownership
import Provision.Resource.Package
import Provision.Resource.ScheduledJob
import Provision.Resource.Site
import Provision.Resource.WorkingCopy

namespace Provision

inductive Spec where
  | package (p : Package)
  | command (c : Command)
  | lineEdit (e : LineEdit)
  | renderedFile (f : RenderedFile)
  | workingCopy (w : WorkingCopy)
  | scheduledJob (j : ScheduledJob)
  | site (s : Site)
  | ownership (o : Ownership)

namespace Spec

def kind : Spec → Kind
  | .package _ => .package
  | .command _ => .command
  | .lineEdit _ => .lineEdit
  | .renderedFile _ => .renderedFile
  | .workingCopy _ => .workingCopy
  | .scheduledJob _ => .scheduledJob
  | .site _ => .site
  | .ownership _ => .ownership

def describe (spec : Spec) (name : String) : String :=
  match spec with
  | .package p => p.describe
  | .command c => c.describe
  | .lineEdit e => e.describe
  | .renderedFile f => f.describe
  | .workingCopy w => w.describe
  | .scheduledJob j => j.describe name
  | .site s => s.describe name
  | .ownership o => o.describe

/-- The guards that a kind carries whatever its author declares. -/
def implicitGuards : Spec → List Guard
  | .ownership o => [o.guard]
  | _ => []

def problem? : Spec → Option String
  | .package p => p.problem?
  | .command c => c.problem?
  | .lineEdit e => e.problem?
  | .workingCopy w => w.problem?
  | .scheduledJob j => j.problem?
  | .site s => s.problem?
  | .renderedFile _ | .ownership _ => none

variable {σ : Type}

def check (host : Host σ) (name : String) : Spec → Action σ Drift
  | .package p => p.check host
  | .command c => c.check host
  | .lineEdit e => e.check host
  | .renderedFile f => f.check host
  | .workingCopy w => w.check host
  | .scheduledJob j => j.check host name
  | .site s => s.check host name
  | .ownership o => o.check host

def apply (host : Host σ) (name : String) : Spec → Action σ Change
  | .package p => p.apply host
  | .command c => c.apply host
  | .lineEdit e => e.apply host
  | .renderedFile f => f.apply host
  | .workingCopy w => w.apply host
  | .scheduledJob j => j.apply host name
  | .site s => s.apply host name
  | .ownership o => o.apply host

def ownFields : Spec → Fields
  | .package p => p.toFields
  | .command c => c.toFields
  | .lineEdit e => e.toFields
  | .renderedFile f => f.toFields
  | .workingCopy w => w.toFields
  | .scheduledJob j => j.toFields
  | .site s => s.toFields
  | .ownership o => o.toFields

def toFields (spec : Spec) : Fields := ("kind", .string spec.kind.tag) :: spec.ownFields

def ofOwnFields? (kind : Kind) (fields : Fields) : Option Spec :=
  match kind with
  | .package => (Package.ofFields? fields).map .package
  | .command => (Command.ofFields? fields).map .command
  | .lineEdit => (LineEdit.ofFields? fields).map .lineEdit
  | .renderedFile => (RenderedFile.ofFields? fields).map .renderedFile
  | .workingCopy => (WorkingCopy.ofFields? fields).map .workingCopy
  | .scheduledJob => (ScheduledJob.ofFields? fields).map .scheduledJob
  | .site => (Site.ofFields? fields).map .site
  | .ownership => (Ownership.ofFields? fields).map .ownership

def tags : List String := Kind.all.map Kind.tag

def ofFields? (fields : Fields) : Option Spec := do
  let tag ← (fields.get? "kind").bind (Json.tagOf? tags)
  let kind ← Kind.ofTag? tag
  ofOwnFields? kind fields

/-- The names of the properties in their declared order, for kinds that may be written so. -/
def fieldNames? : Kind → Option (List String)
  | .package => some Package.fieldNames
  | .command => some Command.fieldNames
  | .lineEdit => some LineEdit.fieldNames
  | .renderedFile => some RenderedFile.fieldNames
  | .workingCopy => some WorkingCopy.fieldNames
  | .scheduledJob => none
  | .site => some Site.fieldNames
  | .ownership => some Ownership.fieldNames

def ofJson? : Json → Option Spec
  | .object fields => do
    let tag ← (Fields.get? fields "kind").bind Json.asString?
    let kind ← Kind.ofTag? tag
    ofOwnFields? kind fields
  | .array (tag :: values) => do
    let tag ← tag.asString?
    let kind ← Kind.ofTag? tag
    let names ← fieldNames? kind
    let fields ← (Json.array values).record? names
    ofOwnFields? kind fields
  | _ => none

def same : Spec → Spec → Bool
  | .package a, .package b => a == b
  | .command a, .command b => a == b
  | .lineEdit a, .lineEdit b => a == b
  | .renderedFile a, .renderedFile b => a.same b
  | .workingCopy a, .workingCopy b => a == b
  | .scheduledJob a, .scheduledJob b => a == b
  | .site a, .site b => a.same b
  | .ownership a, .ownership b => a == b
  | _, _ => false

end Spec

end Provision
