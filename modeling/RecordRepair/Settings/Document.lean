import RecordRepair.Decimal.Shortest
import RecordRepair.Json.Slots
import RecordRepair.Settings
import RecordRepair.Text.Quoted
import RecordRepair.Toml.Reader

/-! # Settings from files and messages

* `Settings.ofToml` reads the settings from a TOML document with up to three keys, each a truth
  value.  The first entry that is anything else is the one that is reported.
* `Settings.ofFile` reads the document from the bytes of a file, if there is such a file.
* `Settings.ofJson?` reads the settings from a JSON value. -/

namespace RecordRepair

/-- Why settings are refused. -/
inductive SettingsError where
  /-- The text is no TOML document. -/
  | notToml
  /-- No setting has that name. -/
  | unknownField (name : String)
  /-- A setting is given something else than a truth value. -/
  | notBoolean (found : String)
  /-- There is no such file. -/
  | missingFile (path : String)
  /-- The file does not hold text. -/
  | notText
deriving DecidableEq, Repr

/-- The refusal in words, where its cause is known. -/
def SettingsError.message? : SettingsError → Option String
  | notToml => none
  | unknownField name =>
    some ("invalid config: unknown field `" ++ name ++ "`, expected one of `patch_components`, " ++
      "`patch_signature`, `restore_private_fields`")
  | notBoolean found =>
    some ("invalid config: invalid type: " ++ found ++ ", expected a boolean")
  | missingFile path =>
    some ("failed to read config file " ++ path ++ ": No such file or directory (os error 2)")
  | notText => none

/-- Whether the settings could not be read from their file. -/
def SettingsError.isUnreadable : SettingsError → Bool
  | missingFile _ => true
  | notText => true
  | _ => false

namespace Settings

/-- The names of the settings, in order. -/
def names : List String := ["patch_components", "patch_signature", "restore_private_fields"]

/-- What an entry is, where a truth value is expected. -/
def describe : Toml.Node → String
  | .value (.string text) => "string " ++ Text.quote text
  | .value (.integer value) => "integer `" ++ toString value ++ "`"
  | .value (.float value) => "floating point `" ++ Decimal.print value ++ "`"
  | .value (.boolean value) => "boolean `" ++ toString value ++ "`"
  | .value .dateTime => "map"
  | .value .array => "sequence"
  | .value .inlineTable => "map"
  | .table _ _ => "map"
  | .rows _ => "sequence"

/-- The settings with one of them changed. -/
def put (settings : Settings) (name : String) (value : Bool) : Except SettingsError Settings :=
  if name = "patch_components" then .ok { settings with patchComponents := value }
  else if name = "patch_signature" then .ok { settings with patchSignature := value }
  else if name = "restore_private_fields" then .ok { settings with restorePrivateFields := value }
  else .error (.unknownField name)

/-- Takes one entry of a document into account. -/
def addEntry (settings : Settings) (entry : String × Toml.Node) : Except SettingsError Settings :=
  if names.contains entry.1 then
    match entry.2 with
    | .value (.boolean value) => settings.put entry.1 value
    | node => .error (.notBoolean (describe node))
  else .error (.unknownField entry.1)

/-- The settings that a TOML document gives; what it leaves out keeps its default. -/
def ofToml (text : String) : Except SettingsError Settings :=
  match Toml.read? text with
  | none => .error .notToml
  | some table => table.foldlM addEntry {}

/-- The settings that a file gives, whose bytes are known if it exists. -/
def ofFile (path : String) (content : Option ByteArray) : Except SettingsError Settings :=
  match content with
  | none => .error (.missingFile path)
  | some bytes =>
    match String.fromUTF8? bytes with
    | none => .error .notText
    | some text => ofToml text

/-- Reads settings from a JSON object or array.  Unknown members are refused. -/
def ofJson? (value : Json) : Option Settings :=
  if Json.knownOnly names value then do
    match ← Json.slots? names 0 value with
    | [components, signature, privateFields] =>
      some {
        patchComponents := ← Json.orElse Json.bool? true components
        patchSignature := ← Json.orElse Json.bool? true signature
        restorePrivateFields := ← Json.orElse Json.bool? false privateFields }
    | _ => none
  else none

/-- Writes settings as a JSON object. -/
def toJson (settings : Settings) : Json :=
  .ofMembers [
    ("patch_components", .bool settings.patchComponents),
    ("patch_signature", .bool settings.patchSignature),
    ("restore_private_fields", .bool settings.restorePrivateFields)]

end Settings

end RecordRepair
