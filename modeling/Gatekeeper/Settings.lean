import Gatekeeper.Credential.JsonForm

/-!
# Settings — where the credentials are kept, for which component, under which key

`Settings` are made of up to three texts (`RawSettings`): the path of the node above the
credentials, the component, and the key.  The key has no default.  The path is absolute; the blanks
are taken off its ends, and then the `/`s off its end (`canonicalPath?`).

They are read from a JSON text that is checked when it has been read whole (`Settings.ofJson`), from
a JSON document that is checked as soon as its value has been read (`Settings.reader`), and from
three variables (`Settings.ofVariables`).
-/

namespace Gatekeeper

open Json (Problem Reader Schema)

/-- Where the credentials are kept, for which component, under which key. -/
structure Settings where
  /-- The path of the node above the credentials. -/
  path : String
  /-- The component that requests are for. -/
  component : Component
  /-- The key that the secrets are kept under. -/
  key : String
  deriving DecidableEq, Repr

/-- The settings as they are given, defaults filled in. -/
structure RawSettings where
  /-- The path as given. -/
  path : String
  /-- The component. -/
  component : Component
  /-- The key as given, if it is. -/
  key : Option String
  deriving DecidableEq, Repr

/-- The name of a setting, as errors call it. -/
inductive SettingName
  | path
  | component
  deriving DecidableEq, Repr

/-- The text for the name of a setting. -/
def SettingName.text : SettingName → String
  | .path => "user_config_path"
  | .component => "CREDGATE_COMPONENT"

/-- Why there are no settings. -/
inductive SettingsError
  /-- The JSON text does not hold any. -/
  | unreadable (p : Problem)
  /-- There is no key, or an empty one. -/
  | missingKey
  /-- The path is not absolute. -/
  | relativePath (path : String)
  /-- There is no such component. -/
  | unknownComponent (e : UnknownWord)
  deriving DecidableEq, Repr

/-- What is said of settings that are none. -/
def SettingsError.message : SettingsError → String
  | .unreadable p => s!"invalid access control config: {p.message}"
  | .missingKey => "no secret key configured"
  | .relativePath path => s!"invalid value for user_config_path: '{path}' is not an absolute path"
  | .unknownComponent e => s!"invalid value for CREDGATE_COMPONENT: {e.message}"

/-- Which setting is to blame, where it is one. -/
def SettingsError.setting? : SettingsError → Option SettingName
  | .relativePath _ => some .path
  | .unknownComponent _ => some .component
  | _ => none

namespace Settings

/-- The path above the credentials unless another is given. -/
def defaultPath : String := "/CONFIGS/USER"

/-- The component unless another is given. -/
def defaultComponent : Component := .controller

/-- A path without the blanks at its ends, then without the `/`s at its end, if it is absolute. -/
def canonicalPath? (path : String) : Option String :=
  match Text.dropEndWhile (· == '/') (Text.trim path.toList) with
  | [] => none
  | c :: cs => if c = '/' then some (String.ofList (c :: cs)) else none

/-- The settings with another path. -/
def withPath (s : Settings) (path : String) : Except SettingsError Settings :=
  match canonicalPath? path with
  | some p => .ok { s with path := p }
  | none => .error (.relativePath path)

/-- A description of the settings that keeps their key. -/
def redacted (s : Settings) : String :=
  "AccessControlConfig \x7b user_config_path: " ++ Text.quoted s.path ++ ", component: "
    ++ Vocabulary.label s.component ++ ", secret_key: SecretKey(<redacted>) \x7d"

end Settings

/-- The settings that were given, checked: first the key, then the path. -/
def RawSettings.settings (r : RawSettings) : Except SettingsError Settings :=
  match r.key with
  | none | some "" => .error .missingKey
  | some key => Settings.withPath ⟨Settings.defaultPath, r.component, key⟩ r.path

/-! ## JSON -/

namespace RawSettings

/-- Settings while they are read. -/
structure Draft where
  path : Option String := none
  component : Option Component := none
  key : Option (Option String) := none

/-- The members of the JSON form; there are no others. -/
def schema : Schema Draft where
  name := "RawConfig"
  strict := true
  fields := [
    ⟨"user_config_path", false, (·.path.isSome), fun t d => do
      return { d with path := some (← Reader.text t) }⟩,
    ⟨"component", false, (·.component.isSome), fun t d => do
      return { d with component := some (← Vocabulary.reader Component t) }⟩,
    ⟨"secret_key", false, (·.key.isSome), fun t d => do
      return { d with key := some (← Reader.optional Reader.text t) }⟩]

/-- The settings that a draft has become. -/
def Draft.raw (d : Draft) : RawSettings :=
  ⟨d.path.getD Settings.defaultPath, d.component.getD Settings.defaultComponent, d.key.join⟩

/-- Reads settings, unchecked. -/
def reader : Reader RawSettings := fun t => Draft.raw <$> schema.read {} t

end RawSettings

namespace Settings

/-- Reads settings and checks them. -/
def reader : Reader Settings := fun t => do
  let raw ← RawSettings.reader t
  raw.settings.mapError fun e => .refused e.message

/-- The settings that a JSON text holds, checked when the text has been read whole. -/
def ofJson (text : String) : Except SettingsError Settings := do
  let raw ← (Json.decode RawSettings.reader text).mapError .unreadable
  raw.settings

/-! ## Variables -/

/-- The variable for the path. -/
def pathVariable : String := "CREDGATE_USER_CONFIG_PATH"

/-- The variable for the component. -/
def componentVariable : String := "CREDGATE_COMPONENT"

/-- The variable for the key. -/
def keyVariable : String := "CREDGATE_SECRET_KEY"

/-- The settings that three variables hold, the component checked first. -/
def ofVariables (lookup : String → Option String) : Except SettingsError Settings := do
  let component ← match lookup componentVariable with
    | some text => (Component.ofText text).mapError .unknownComponent
    | none => .ok defaultComponent
  RawSettings.settings
    ⟨(lookup pathVariable).getD defaultPath, component, lookup keyVariable⟩

end Settings

end Gatekeeper
