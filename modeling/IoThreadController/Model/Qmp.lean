/-
QMP replies as the libvirt transport reads them (`parse_qmp_envelope` and `LibvirtQmp::query_vq_mapping` of
`backends/qemu/libvirt.rs`).

The JSON library is a parameter as far as it reads and complains about text. What `derive(Deserialize)` makes of a document
is written out: unknown keys are ignored, a field that stands twice is refused, a null is no value for an `Option` field,
and an array gives the fields of a struct in order. A `RawValue` is the document that its text writes.
-/
import IoThreadController.Model.Include
import IoThreadController.Model.Qemu

namespace IoThreadController

open IoThreadController.Core (Json)

/-- the JSON library -/
structure SerdeJson where
  /-- the document of a text, none when the text is not JSON -/
  parse : String → Option JsonValue
  /-- the message about a text that is not the struct asked for -/
  message : String → String
  mapping : JsonValue → Except String (List VqMapping)

/-! ## Derived structs -/

/-- the value of a field, if it is there; none is a field that stands twice -/
def readField (members : Members) (key : String) : Option (Option JsonValue) :=
  match (members.filter fun member => member.1 = key).map Prod.snd with
  | [] => some none
  | [value] => some (some value)
  | _ => none

/-- `Option<T>` -/
def readOption {α : Type} (read : JsonValue → Option α) : Option JsonValue → Option (Option α)
  | none | some .null => some none
  | some value => (read value).map some

def readString : JsonValue → Option String
  | .scalar (.string text) => some text
  | _ => none

structure ErrBody where
  errorClass : String
  desc : String
deriving DecidableEq, Repr

def ErrBody.read : JsonValue → Option ErrBody
  | .object members =>
    match (readField members "class").join.bind readString, (readField members "desc").join.bind readString with
    | some errorClass, some desc => some ⟨errorClass, desc⟩
    | _, _ => none
  | .array [errorClass, desc] =>
    match readString errorClass, readString desc with
    | some errorClass, some desc => some ⟨errorClass, desc⟩
    | _, _ => none
  | _ => none

structure Envelope where
  ret : Option JsonValue
  error : Option ErrBody

def Envelope.read : JsonValue → Option Envelope
  | .object members =>
    match (readField members "return").bind (readOption some),
      (readField members "error").bind (readOption ErrBody.read) with
    | some ret, some error => some ⟨ret, error⟩
    | _, _ => none
  | .array [ret, error] =>
    match readOption some (some ret), readOption ErrBody.read (some error) with
    | some ret, some error => some ⟨ret, error⟩
    | _, _ => none
  | _ => none

/-! ## Commands -/

def parseQmpEnvelope (json : SerdeJson) (cmd body : String) : Except QemuError JsonValue :=
  match (json.parse body).bind Envelope.read with
  | none => .error (.parse ("decode " ++ cmd ++ " response: " ++ json.message body ++ " (body=" ++ body ++ ")"))
  | some ⟨ret, error⟩ =>
    match error with
    | some err => .error (.qmpError cmd err.errorClass err.desc)
    | none =>
      match ret with
      | some value => .ok value
      | none => .error (.parse ("qmp " ++ cmd ++ " response missing return/error: " ++ body))

/-- the monitor of one VM: libvirt's answer to a request is a text -/
structure QmpMonitor where
  json : SerdeJson
  command : JsonValue → Except QemuError String

namespace QmpMonitor

/-- `{"execute": cmd [, "arguments": args]}` -/
def request (cmd : String) (args : Option JsonValue) : JsonValue :=
  .object (("execute", .scalar (.string cmd)) :: (args.map fun args => ("arguments", args)).toList)

def execute (monitor : QmpMonitor) (cmd : String) (args : Option JsonValue) : Except QemuError JsonValue :=
  match monitor.command (request cmd args) with
  | .error error => .error error
  | .ok raw => parseQmpEnvelope monitor.json cmd raw

/-- the arguments of `qom-get` for the mapping of a device -/
def mappingProperty (devicePath : String) : JsonValue :=
  .object [("path", .scalar (.string devicePath)), ("property", .scalar (.string "iothread-vq-mapping"))]

def queryVqMapping (monitor : QmpMonitor) (devicePath : String) : Except QemuError (List VqMapping) :=
  if isBlank devicePath then .error (.parse "device path must be non-empty")
  else
    match monitor.execute "qom-get" (some (mappingProperty devicePath)) with
    | .error error => .error error
    | .ok .null => .ok []
    | .ok value => (monitor.json.mapping value).mapError fun e => .parse ("parse qom-get iothread-vq-mapping: " ++ e)

end QmpMonitor

end IoThreadController
