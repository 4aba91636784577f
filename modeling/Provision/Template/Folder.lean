import Provision.Fault
import Provision.SortedMap
import Provision.Template.Render

namespace Provision.Template

def renderFile (name source : String) (context : Json) : Except Fault String :=
  (render source context).mapError fun f =>
    (Fault.ofParty .template f.message).within ("Failed to render template " ++ name)

def renderFrom (files : SortedMap String) (name : String) (context : Json) : Except Fault String :=
  match files.get? name with
  | some source => renderFile name source context
  | none =>
    .error ((Fault.ofParty .io "No such file or directory (os error 2)").within
      ("Failed to read template " ++ name))

end Provision.Template
