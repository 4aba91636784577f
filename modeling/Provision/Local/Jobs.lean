import Provision.Crontab
import Provision.Local.System

namespace Provision.Jobs

def crontab (user : String) : Operation String := do
  let output ← Operation.start { program := "crontab", args := ["-l", "-u", user] }
  if output.succeeded then return output.stdout
  else if Text.containsText "no crontab" output.stderr then return ""
  else Operation.fail ("crontab -l -u " ++ user ++ " failed: " ++ Text.trim output.stderr)

def list (user : String) : Operation (List Job) := do
  return Crontab.parseJobs user (← crontab user)

def install (job : Job) : Operation Unit := do
  let text := Crontab.upsert (← crontab job.user) job
  let output ← Operation.start { program := "crontab", args := ["-u", job.user, "-"], stdin := text }
  if !output.succeeded then
    Operation.fail ("crontab -u " ++ job.user ++ " failed: " ++ Text.trim output.stderr)

end Provision.Jobs
