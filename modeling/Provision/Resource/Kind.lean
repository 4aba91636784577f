namespace Provision

inductive Kind where
  | package
  | command
  | lineEdit
  | renderedFile
  | workingCopy
  | scheduledJob
  | site
  | ownership
deriving DecidableEq, Repr, Inhabited

namespace Kind

def tag : Kind → String
  | .package => "package"
  | .command => "execute"
  | .lineEdit => "line_edit"
  | .renderedFile => "template"
  | .workingCopy => "git"
  | .scheduledJob => "cron"
  | .site => "web_app"
  | .ownership => "ownership"

def all : List Kind :=
  [.package, .command, .lineEdit, .renderedFile, .workingCopy, .scheduledJob, .site, .ownership]

def ofTag? (s : String) : Option Kind := all.find? (·.tag == s)

def aliases : Kind → List String
  | .package => ["package", "packages", "apt"]
  | .command => ["execute", "exec", "command"]
  | .lineEdit => ["line_edit", "env", "file_edit"]
  | .renderedFile => ["template", "templates"]
  | .workingCopy => ["git", "checkout", "source"]
  | .scheduledJob => ["cron", "job", "jobs"]
  | .site => ["web_app", "vhost", "site"]
  | .ownership => ["ownership", "chown"]

def ofAlias? (s : String) : Option Kind := all.find? (·.aliases.contains s)

theorem ofTag?_tag (k : Kind) : ofTag? k.tag = some k := by
  cases k <;> decide

end Kind

end Provision
