import Provision.Host.Call
import Provision.Json.Printer

namespace Provision

structure StoredFile where
  content : String
  owner : String := "root"
  /-- How often the file was written since it was put there. -/
  writes : Nat := 0
deriving DecidableEq, Repr, Inhabited

structure CommandScript where
  output : CommandOutput := ⟨0, "", ""⟩
  creates : List (String × StoredFile) := []
deriving DecidableEq, Repr, Inhabited

structure Machine where
  files : SortedMap StoredFile := []
  links : SortedMap String := []
  commands : SortedMap CommandScript := []
  revisions : SortedMap String := []
  resolve : SortedMap String := []
  packages : SortedMap String := []
  /-- The version that installing a package leaves; none for a package that is not there after. -/
  offers : SortedMap (Option String) := []
  jobs : List Job := []
  renderer : String → Json → Except Fault String
  /-- Calls that fail, by the name of the call and its subject. -/
  failures : SortedMap Fault := []
  journal : List Call := []

namespace Machine

def plainRendering (template : String) (context : Json) : Except Fault String :=
  .ok ("# " ++ template ++ "\n" ++ context.compact ++ "\n")

def empty : Machine := { renderer := plainRendering }

instance : Inhabited Machine := ⟨empty⟩

def attempt {α : Type} (m : Machine) (call : String) (act : Machine → Except Fault α × Machine) :
    Except Fault α × Machine :=
  match m.failures.get? call with
  | some fault => (.error fault, m)
  | none => act m

def log (m : Machine) (c : Call) : Machine := { m with journal := m.journal ++ [c] }

/-- The file that a path stands for; one link is followed. -/
def fileAt? (m : Machine) (path : String) : Option StoredFile :=
  m.files.get? ((m.links.get? path).getD path)

def isBelow (path other : String) : Bool := Text.startsWith (path ++ "/") other

def pathExists (m : Machine) (path : String) : Bool :=
  m.links.contains path || m.files.any fun (p, _) => p == path || isBelow path p

def putFiles (m : Machine) (files : List (String × StoredFile)) : Machine :=
  { m with files := files.foldl (fun fs (p, f) => fs.insert p f) m.files }

def written (m : Machine) (path contents : String) : StoredFile :=
  match m.files.get? path with
  | some f => { f with content := contents, writes := f.writes + 1 }
  | none => { content := contents, writes := 1 }

def chownFiles (m : Machine) (path owner : String) (recursive : Bool) : SortedMap StoredFile :=
  m.files.map fun (p, f) =>
    (p, if p == path || (recursive && isBelow path p) then { f with owner } else f)

def missing (path : String) : Fault := .ofText (path ++ ": no such file or directory")

def offered (m : Machine) (package : String) (version : Option String) : Option String :=
  match m.offers.get? package, version with
  | some none, _ => none
  | _, some v => some v
  | some (some v), none => some v
  | none, none => some "1.0"

def run (m : Machine) (command : String) (c : Call) : CommandOutput × Machine :=
  let script := (m.commands.get? command).getD {}
  (script.output, (m.putFiles script.creates).log c)

def answer : (c : Call) → Machine → c.Reply × Machine
  | .run command user cwd env, m => m.attempt ("run " ++ command) fun m =>
    let (output, m) := m.run command (.run command user cwd env)
    (.ok output, m)
  | .read path, m => m.attempt ("read " ++ path) fun m => (.ok ((m.fileAt? path).map (·.content)), m)
  | .write path contents, m => m.attempt ("write " ++ path) fun m =>
    (.ok (), { m with files := m.files.insert path (m.written path contents) }.log
      (.write path contents))
  | .pathExists path, m => (m.pathExists path, m)
  | .owner path, m => m.attempt ("owner " ++ path) fun m =>
    (.ok ((m.files.get? path).map (·.owner)), m)
  | .chown path owner group recursive, m => m.attempt ("chown " ++ path) fun m =>
    if m.files.contains path then
      (.ok (), { m with files := m.chownFiles path owner recursive }.log
        (.chown path owner group recursive))
    else (.error (missing path), m)
  | .readLink path, m => m.attempt ("read_link " ++ path) fun m => (.ok (m.links.get? path), m)
  | .symlink source link, m => m.attempt ("symlink " ++ link) fun m =>
    if m.links.contains link || m.files.contains link then
      (.error (.ofText (link ++ ": file exists")), m)
    else (.ok (), { m with links := m.links.insert link source }.log (.symlink source link))
  | .remove path, m => m.attempt ("remove " ++ path) fun m =>
    if m.links.contains path then
      (.ok (), { m with links := m.links.erase path }.log (.remove path))
    else if m.files.contains path then
      (.ok (), { m with files := m.files.erase path }.log (.remove path))
    else (.error (missing path), m)
  | .revision destination, m => m.attempt ("revision " ++ destination) fun m =>
    (.ok (m.revisions.get? destination), m)
  | .checkout request, m => m.attempt ("checkout " ++ request.destination) fun m =>
    let revision := (m.resolve.get? request.revision).getD request.revision
    (.ok revision, { m with revisions := m.revisions.insert request.destination revision }.log
      (.checkout request))
  | .render template context, m => m.attempt ("render " ++ template) fun m =>
    (m.renderer template context, m)
  | .jobs user, m => m.attempt ("jobs " ++ user) fun m => (.ok (m.jobs.filter (·.user == user)), m)
  | .installJob job, m => m.attempt ("install_job " ++ job.name) fun m =>
    let others := m.jobs.filter fun j => !(j.user == job.user && j.name == job.name)
    (.ok (), { m with jobs := others ++ [job] }.log (.installJob job))
  | .installedVersion package, m => m.attempt ("installed " ++ package) fun m =>
    (.ok (m.packages.get? package), m)
  | .install package version, m => m.attempt ("install " ++ package) fun m =>
    let packages := match m.offered package version with
      | some v => m.packages.insert package v
      | none => m.packages
    (.ok (), { m with packages }.log (.install package version))

def host : Host Machine := ⟨answer⟩

end Machine

end Provision
