import RecordRepair.Record.Batch
import RecordRepair.Settings.Document

/-! # Sessions

A `Session` holds some classes, a registry that may be out of service, and settings.  Classes can be
edited and repaired in turn. -/

namespace RecordRepair

/-- A change to one class. -/
inductive Edit where
  | addField (field : Field)
  /-- Takes the last field away, if there is one. -/
  | dropField
  | addMethod (method : Method)
  | setSignature (signature : Option String)
  | setComponents (components : Option (List Component))
  | setSuperclass (superclass : Option String)
  | setInterfaces (interfaces : List String)
deriving DecidableEq, Repr

/-- The class after a change. -/
def Edit.apply (c : ClassFile) : Edit → ClassFile
  | addField field => { c with fields := c.fields ++ [field] }
  | dropField => { c with fields := c.fields.dropLast }
  | addMethod method => { c with methods := c.methods ++ [method] }
  | setSignature signature => { c with signature }
  | setComponents components => { c with components }
  | setSuperclass superclass => { c with superclass }
  | setInterfaces interfaces => { c with interfaces }

/-- Classes that are edited and repaired, and what the repairs depend on. -/
structure Session where
  classes : List ClassFile
  registry : Registry
  outage : Option Outage
  settings : Settings

namespace Session

/-- A session with some classes and the default settings. -/
def start (classes : List ClassFile) (registry : Registry) (outage : Option Outage) : Session where
  classes := classes
  registry := registry
  outage := outage
  settings := {}

/-- The registry as it answers now. -/
def lookup (session : Session) : Lookup := session.registry.lookup.during session.outage

/-- Edits one class and gives it back; there may be no class of that index. -/
def edit (session : Session) (index : Nat) (change : Edit) : Option (ClassFile × Session) :=
  session.classes[index]?.map fun c =>
    let edited := change.apply c
    (edited, { session with classes := session.classes.set index edited })

/-- Repairs one class and gives it back with the result; there may be no class of that index. -/
def repair (session : Session) (index : Nat) :
    Option ((Except Failure Outcome × ClassFile) × Session) :=
  session.classes[index]?.map fun c =>
    let result := RecordRepair.repair session.settings session.lookup c
    let after := afterRepair c result
    ((result.map Prod.fst, after), { session with classes := session.classes.set index after })

/-- Repairs all classes. -/
def repairAll (session : Session) : Batch × Session :=
  let batch := RecordRepair.repairAll session.settings session.lookup session.classes
  (batch, { session with classes := batch.classes })

/-- Puts new settings into force. -/
def configure (session : Session) (settings : Settings) : Session := { session with settings }

/-- Puts the settings of a TOML document into force, if it gives any. -/
def configureToml (session : Session) (text : String) : Except SettingsError Settings × Session :=
  match Settings.ofToml text with
  | .ok settings => (.ok settings, session.configure settings)
  | .error error => (.error error, session)

/-- Enters a class into the registry. -/
def register (session : Session) (name : String) (info : ClassInfo) : Session :=
  { session with registry := session.registry.insert name info }

/-- Enters all classes of the session into the registry. -/
def registerAll (session : Session) : Session :=
  { session with registry := session.registry.insertAll session.classes }

/-- Puts the registry out of service, or back into service. -/
def setOutage (session : Session) (outage : Option Outage) : Session := { session with outage }

end Session

end RecordRepair
