import ParadigmScan.Settings.Basic
import ParadigmScan.Toml.Document

/-!
This module contains the sources that settings are taken from: a file in the working directory, a file that
is named, and values given directly. A later source takes precedence over an earlier one, and a problem
with a value names the source that the value came from.
-/

namespace ParadigmScan

namespace Settings

def projectFileName : String := "paradigm-meter.toml"

def overridesSource : String := "overrides"

/--
A source of settings: its name, and values for some of the settings.
-/
structure Layer where
  source : String
  values : Table Value
  deriving Inhabited

def invalidFile (path : Path) (reason : String) : Failure :=
  .problem (.configuration s!"Invalid config file '{path.text}': {reason}" [])

def readFile (host : Host) (path : Path) : Except Failure (Table Value) := do
  match host.readBytes path with
  | .error error => throw (invalidFile path (error.message path.text))
  | .ok bytes =>
    match Encoding.utf8Fault? 0 bytes with
    | some (position, length, error) =>
      throw (.fault (.notUtf8 position ((bytes.drop position).take length) error))
    | none =>
      let text := Encoding.toChars (Encoding.decodeUtf8 bytes)
      if host.platform.isTooDeep text then throw (.fault .tooDeep)
      match Toml.parse text with
      | .ok values => return values
      | .error (.malformed message) => throw (invalidFile path message)
      | .error (.longInteger digits) => throw (.fault (.longInteger digits))

/--
Whether a path leads to a file. That it cannot be found out is a fault.
-/
def isFile (host : Host) (path : Path) : Except Failure Bool :=
  match host.isFile path with
  | .ok found => .ok found
  | .error error => .error (.fault (.file error path.text))

def projectLayer (host : Host) : Except Failure (List Layer) := do
  let path : Path := { anchor := .root, names := host.cwd ++ [projectFileName] }
  if ← isFile host path then
    return [{ source := path.text, values := ← readFile host path }]
  else
    return []

def explicitLayer (host : Host) (path : Option Path) : Except Failure (List Layer) := do
  match path with
  | none => return []
  | some path =>
    if ← isFile host path then
      return [{ source := path.text, values := ← readFile host path }]
    else
      throw (.problem (.configuration s!"Config file not found: {path.text}" []))

/--
The value that a switch gives the verbosity, if it is on. The switch itself is taken out.
-/
def applySwitch (values : Table Value) (verbosity : Verbosity) : Table Value :=
  let isOn := ((values.lookup verbosity.name).map Value.isTrue).getD false
  let values := values.erase verbosity.name
  if isOn then values.set "verbosity" (.text verbosity.name) else values

def isGiven : Value → Bool
  | .null => false
  | _ => true

/--
The values given directly. Being quiet takes precedence over being verbose.
-/
def overridesLayer (overrides : Table Value) : Layer :=
  let values := applySwitch (applySwitch overrides .verbose) .quiet
  { source := overridesSource, values := values.filter fun (_, value) => isGiven value }

def mergeLayers (layers : List Layer) : Table Value × Table String :=
  (layers.foldl (fun table layer => table.merge layer.values) [],
    layers.foldl
      (fun table layer => table.merge (layer.values.map fun (key, _) => (key, layer.source))) [])

def withSource (origins : Table String) : Failure → Failure
  | .problem (.invalidSetting key value reason _) =>
    .problem (.invalidSetting key value reason (origins.lookup key))
  | failure => failure

def ofLayers (platform : Platform) (layers : List Layer) : Except Failure Settings :=
  let (values, origins) := mergeLayers layers
  let settings : Except Failure Settings := match values.find? (!keys.contains ·.1) with
    | some (key, value) => .error (invalid key value "unknown configuration key")
    | none => ofValues values
  settings.mapError fun failure => (withSource origins failure).worded platform

def load (host : Host) (file : Option Path) (overrides : Table Value) : Except Failure Settings := do
  let project ← projectLayer host
  let explicit ← explicitLayer host file
  ofLayers host.platform (project ++ explicit ++ [overridesLayer overrides])

end Settings

end ParadigmScan
