import FileSharing.Config
import FileSharing.Log
import FileSharing.Text.Number

/-!
# Settings

The settings of the file transfer service are kept in the section `ft` of the
configuration, and the log level in the section `log`.  Missing keys keep their
defaults, and values of a wrong type are refused.

## Main definitions

* `ResizeOption`, `Settings` — the settings, with `Settings.default`.
* `Settings.load`, `Settings.save` — reading and writing the section.
* `Settings.loadLevel` — the log level.
-/

namespace FileSharing

/-- What is done with images before they are sent. -/
inductive ResizeOption where
  /-- They are always made smaller. -/
  | always
  /-- They are made smaller where they are above the size limit. -/
  | aboveLimit
  /-- The user is asked. -/
  | ask
  /-- A number that stands for no option. -/
  | unassigned (code : Int32)
  deriving DecidableEq, Repr, Inhabited

namespace ResizeOption

/-- The name of an option. -/
def name : ResizeOption → Text
  | always => "ALWAYS_PERFORM"
  | aboveLimit => "ONLY_ABOVE_MAX_SIZE"
  | ask => "ASK"
  | unassigned _ => "UNKNOWN"

/-- The number of an option. -/
def number : ResizeOption → Int64
  | always => 0
  | aboveLimit => 1
  | ask => 2
  | unassigned code => code.toInt64

/-- What a number stands for, be it an option or not. -/
def ofCode (code : Int32) : ResizeOption :=
  if code = 0 then always
  else if code = 1 then aboveLimit
  else if code = 2 then ask
  else unassigned code

/-- The option of a number; other numbers are refused. -/
def ofNumber (n : Int64) : Outcome ResizeOption :=
  if n = 0 then .ok always
  else if n = 1 then .ok aboveLimit
  else if n = 2 then .ok ask
  else .error ⟨.invalidArgument, "Invalid image resize option: " ++ Text.signed n.toInt⟩

end ResizeOption

/-- The settings of the file transfer service. -/
structure Settings where
  /-- The largest file in bytes, zero for no limit. -/
  maxSize : UInt64
  /-- The size in bytes above which a file is worth a warning, zero for none. -/
  warnSize : UInt64
  /-- The largest number of transfers at a time, zero for no limit. -/
  maxSessions : UInt32
  /-- Whether the user may change the two auto-accept flags. -/
  autoAcceptChangeable : Bool
  /-- Whether invitations are accepted without asking. -/
  autoAccept : Bool
  /-- Whether this holds in roaming, too. -/
  autoAcceptInRoaming : Bool
  /-- What is done with images before they are sent. -/
  resize : ResizeOption
  /-- Whether a file may come with an icon. -/
  iconSupported : Bool
  deriving DecidableEq, Repr, Inhabited

namespace Settings

/-- The settings where nothing is configured. -/
def default : Settings := ⟨0, 0, 0, true, false, false, .aboveLimit, true⟩

/-- The key of the section that holds the settings. -/
def sectionKey : Text := "ft"

/-- The key of the section that holds the log level. -/
def logSectionKey : Text := "log"

/-! ### Reading -/

/-- A size under a key: a whole number that is not negative. -/
def readSize (n : Config.Node) (key : Text) (fallback : UInt64) : Outcome UInt64 := do
  let value ← n.getOr Config.Value.asInt? key fallback.toInt64
  if value < 0 then .error ⟨.invalidData, "Negative value for " ++ key⟩
  else .ok value.toUInt64

/-- The option under a key; a number that stands for none is invalid data. -/
def readResize (n : Config.Node) (key : Text) (fallback : ResizeOption) :
    Outcome ResizeOption := do
  let value ← n.getOr Config.Value.asInt? key fallback.number
  match ResizeOption.ofNumber value with
  | .ok option => .ok option
  | .error f => .error ⟨.invalidData, f.what⟩

/-- The settings that the bindings of a section give. -/
def ofNode (n : Config.Node) : Outcome Settings := do
  let maxSize ← readSize n "maxSize" default.maxSize
  let warnSize ← readSize n "warnSize" default.warnSize
  let maxSessions ← readSize n "maxSessions" default.maxSessions.toUInt64
  let changeable ←
    n.getOr Config.Value.asBool? "autoAcceptModeChangeable" default.autoAcceptChangeable
  let autoAccept ← n.getOr Config.Value.asBool? "autoAccept" default.autoAccept
  let inRoaming ← n.getOr Config.Value.asBool? "autoAcceptInRoaming" default.autoAcceptInRoaming
  let resize ← readResize n "imageResizeOption" default.resize
  let icon ← n.getOr Config.Value.asBool? "fileIconSupported" default.iconSupported
  return ⟨maxSize, warnSize, maxSessions.toUInt32, changeable, autoAccept, inRoaming, resize, icon⟩

/-- The settings of a configuration. -/
def load (c : Config) : Outcome Settings := ofNode (c.sectionNode sectionKey)

/-- The log level of a configuration. -/
def loadLevel (c : Config) : Outcome Level := do
  let name ← (c.sectionNode logSectionKey).getOr Config.Value.asText? "level" "info"
  return Level.ofName name

/-! ### Writing -/

/-- The keys of the section with the values that stand for the settings. -/
def bindings (s : Settings) : List (Text × Config.Value) :=
  [("maxSize", .int s.maxSize.toInt64), ("warnSize", .int s.warnSize.toInt64),
    ("maxSessions", .int s.maxSessions.toUInt64.toInt64),
    ("autoAcceptModeChangeable", .bool s.autoAcceptChangeable),
    ("autoAccept", .bool s.autoAccept), ("autoAcceptInRoaming", .bool s.autoAcceptInRoaming),
    ("imageResizeOption", .int s.resize.number), ("fileIconSupported", .bool s.iconSupported)]

/-- A node with the keys of the settings bound. -/
def writeTo (s : Settings) (n : Config.Node) : Config.Node :=
  s.bindings.foldl (fun n (key, value) => n.set key value) n

/-- A configuration with the settings in its section, which is created where it
is missing. -/
def save (s : Settings) (c : Config) : Config :=
  let (r, store) := c.store.getOrCreate c.root sectionKey
  { c with store := store.update r s.writeTo }

end Settings

end FileSharing
