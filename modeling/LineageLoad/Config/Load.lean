import LineageLoad.Config.Environment
import LineageLoad.Config.Settings
import LineageLoad.Yaml.Value

/-!
Settings from all their sources: defaults, a file and the environment, each one over those before.
-/

namespace LineageLoad
namespace Settings

/-- The layer of settings in the text of a file, which must hold a mapping. -/
def fileLayer (text : String) : Decoded Json :=
  match Yaml.parse? text with
  | some fields => .ok (Json.object fields).sorted
  | none => .fail .message

/-- Loads settings from the text of a file, if there is one, and from environment variables. -/
def load (file : Option String) (environment : List (String × String)) : Decoded Settings := do
  let default : Settings := {}
  let file ← file.elim (.ok (.object [])) fileLayer
  decode .lenient ((Environment.layer environment).overlay (file.overlay default.toJson.sorted))

end Settings
end LineageLoad
