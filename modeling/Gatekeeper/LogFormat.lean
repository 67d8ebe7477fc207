import Gatekeeper.Text.Blank
import Gatekeeper.Text.LetterCase

/-!
# LogFormat — the format of the log

Three formats, named without regard to ASCII case and to blanks around the name.  A setting that is
absent or names no format stands for JSON (`LogFormat.ofSetting`).
-/

namespace Gatekeeper

/-- How the log is written. -/
inductive LogFormat
  | json
  | pretty
  | compact
  deriving DecidableEq, Repr, Inhabited

namespace LogFormat

/-- The format that a text names, or the name that is none: trimmed and in lower case. -/
def ofText (text : String) : Except String LogFormat :=
  let name := Text.lowerAscii (Text.trimmed text)
  if name = "json" then .ok .json
  else if name = "pretty" then .ok .pretty
  else if name = "compact" then .ok .compact
  else .error name

/-- What is said of a name that is no format. -/
def unknownMessage (name : String) : String := s!"unknown log format '{name}'"

/-- The format that an optional setting asks for. -/
def ofSetting (setting : Option String) : LogFormat :=
  match setting.map ofText with
  | some (.ok f) => f
  | _ => .json

end LogFormat

end Gatekeeper
