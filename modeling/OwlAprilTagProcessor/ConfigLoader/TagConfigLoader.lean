import Mathlib.Data.Option.Basic
import OwlAprilTagProcessor.Library.Json
import OwlAprilTagProcessor.ConfigLoader.Config
import OwlAprilTagProcessor.Net.Asio

/-!
# Loading the configuration

`TagConfigLoader`. The exceptions thrown inside `get` and `getObj` are caught there; those
of `as_object` are not. The stream parser of Boost.JSON is a parameter: it gives the
document, or nothing when `write` or `finish` reports an error.
-/

namespace Json
open Asio

/-- `boost::json::object`. The keys are distinct, so the first member found is the only one. -/
abbrev Object := List (String × Value)

def Value.isObject : Value → Bool
  | .object _ => true
  | _ => false

def Value.asObject : Value → Except Exception Object
  | .object members => .ok members
  | _ => .error .notObject

def Object.contains (v : Object) (key : String) : Bool := (v.lookup key).isSome

def Object.at (v : Object) (key : String) : Except Exception Value :=
  match v.lookup key with
  | some value => .ok value
  | none => .error .outOfRange

/-- The types the configuration is converted to. -/
inductive ValueType where
  | int | long | string
  deriving DecidableEq, Repr

abbrev ValueType.Carrier : ValueType → Type
  | .int => Int32
  | .long => Int64
  | .string => String

/-- A number of any kind that is an integer within the bounds. -/
def Value.toIntegral (min max : Int) : Value → Option Int
  | .int64 i => if min ≤ i ∧ i ≤ max then some i else none
  | .uint64 n => if min ≤ n ∧ n ≤ max then some n else none
  | .double q => if q.den = 1 ∧ min ≤ q.num ∧ q.num ≤ max then some q.num else none
  | _ => none

/-- `try_value_to`: a number only when the type represents it exactly. -/
def tryValueTo (t : ValueType) (v : Value) : Option t.Carrier :=
  match t with
  | .int => (v.toIntegral (-2147483648) 2147483647).map Int32.ofInt
  | .long => (v.toIntegral (-9223372036854775808) 9223372036854775807).map Int64.ofInt
  | .string =>
    match v with
    | .string s => some s
    | _ => none

end Json

namespace OwlTagConfigLoader
open Asio Json

/-- A `try` block whose handler returns `d`. -/
def catching {α : Type} (d : α) : Except Exception α → α
  | .ok a => a
  | .error _ => d

def get (t : ValueType) (v : Object) (key : String) (d : t.Carrier) : t.Carrier :=
  catching d (do
    if !v.contains key then
      pure d
    else
      let value ← v.at key
      match tryValueTo t value with
      | some rr => pure rr
      | none => pure d)

def getObj (v : Object) (key : String) : Object :=
  catching [] (do
    if !v.contains key then
      pure []
    else
      let oo ← v.at key
      oo.asObject)

def ConfigTagProcessor.read (d : ConfigTagProcessor) (v : Object) : ConfigTagProcessor where
  timeStartMs := get .long v "timeStartMs" d.timeStartMs
  timeDurationMs := get .long v "timeDurationMs" d.timeDurationMs
  timeoutCountLimit := get .long v "timeoutCountLimit" d.timeoutCountLimit
  timeDurationMini := get .long v "timeDurationMini" d.timeDurationMini

def ConfigAprilTagData.read (d : ConfigAprilTagData) (v : Object) : ConfigAprilTagData where
  resizeWidth := get .int v "resizeWidth" d.resizeWidth
  resizeHeight := get .int v "resizeHeight" d.resizeHeight
  aprilTagDetectorMaxHammingBitsCorrected :=
    get .int v "aprilTagDetectorMaxHammingBitsCorrected" d.aprilTagDetectorMaxHammingBitsCorrected

def ConfigGetImage.read (d : ConfigGetImage) (v : Object) : ConfigGetImage where
  host := get .string v "host" d.host
  port := get .string v "port" d.port
  target := get .string v "target" d.target
  version := get .int v "version" d.version
  timeoutMs := get .long v "timeoutMs" d.timeoutMs

def ConfigSendResult.read (d : ConfigSendResult) (v : Object) : ConfigSendResult where
  host := get .string v "host" d.host
  port := get .string v "port" d.port
  target := get .string v "target" d.target
  version := get .int v "version" d.version
  timeoutMs := get .long v "timeoutMs" d.timeoutMs

/-- A section the document has; `read` stands for the assignments to its fields. -/
def parseSection {α : Type} (root : Object) (name : String) (read : α → Object → α) (d : α) : α :=
  if root.contains name then read d (getObj root name) else d

def parseJson (json_v : Value) : Except Exception Config := do
  let root ← json_v.asObject
  let config_ : Config := {}
  pure {
    configTagProcessor :=
      parseSection root "configTagProcessor" ConfigTagProcessor.read config_.configTagProcessor
    configAprilTagData :=
      parseSection root "configAprilTagData" ConfigAprilTagData.read config_.configAprilTagData
    configGetImage :=
      parseSection root "configGetImage" ConfigGetImage.read config_.configGetImage
    configSendResult :=
      parseSection root "configSendResult" ConfigSendResult.read config_.configSendResult }

/-- The file is `none` when it cannot be opened. -/
def loadJsonFile (parser : String → Option Value) (file : Option String) : Value :=
  match file with
  | none => .null
  | some text =>
    match parser text with
    | none => .null
    | some v => v

structure TagConfigLoader where
  config : Config := {}
  deriving DecidableEq, Repr

def TagConfigLoader.init (self : TagConfigLoader) (parser : String → Option Value)
    (file : Option String) : Except Exception TagConfigLoader :=
  let j := loadJsonFile parser file
  if j.isObject then do
    let o ← j.asObject
    let config ← parseJson (.object o)
    pure { self with config }
  else
    pure self

end OwlTagConfigLoader
