import OwlAprilTagProcessor.Net.Asio

/-!
# HTTP messages

What the two sessions put into a request and read from a response. Beast compares
header names without regard to case, so a name is modelled as the field it denotes.
-/

namespace Http
open Asio

/-- `http::field`; `xImageFormat` is the custom header `X-image-format`. -/
inductive Field where
  | contentType | xImageFormat
  | other (name : String)
  deriving DecidableEq, Repr

inductive Verb where
  | get | post
  deriving DecidableEq, Repr, Inhabited

/-- A request and the host and port it is sent to. -/
structure Request where
  host : String
  port : String
  version : Int32
  method : Verb
  target : String
  body : String
  deriving DecidableEq, Repr, Inhabited

structure Response (Body : Type) where
  result : Nat
  fields : List (Field × String)
  body : Body
  deriving DecidableEq, Repr

/-- `http::status::ok`. -/
def ok : Nat := 200

variable {Body : Type}

/-- The value of the first field with this name. -/
def Response.find (res : Response Body) (name : Field) : Option String :=
  (res.fields.find? fun f => f.1 == name).map Prod.snd

/-- `fields::at`: the value, or `out_of_range` when there is no such field. -/
def Response.at (res : Response Body) (name : Field) : Except Exception String :=
  match res.find name with
  | some value => .ok value
  | none => .error .outOfRange

end Http
