import OwlAprilTagProcessor.Session.HttpSession
import OwlAprilTagProcessor.AprilTagData.Analysis

/-!
# Sending a report

`SendResultSession` of `SendResult.cpp`. `run` builds the request target with a
`boost::url`, whose constructor throws on a target that is not a URI reference.
-/

namespace OwlSendResult
open Asio Session OwlAprilTagData

/-- The arguments of `CallbackFunctionType`. -/
structure Report where
  ec : ErrorCode
  ok : Bool
  deriving DecidableEq, Repr, Inhabited

abbrev Response := Http.Response String

abbrev SendResultSession := HttpSession Report

namespace SendResultSession

/-- The middle part of `on_read`. -/
def respond (res_ : Response) : Except Exception Report :=
  if res_.result = Http.ok then pure ⟨.success, true⟩ else pure ⟨.success, false⟩

def exchange : Exchange Response Report where
  failure ec := ⟨ec, false⟩
  respond := respond

/-- `run`: the exception of the `boost::url` constructor leaves the session without a
step. -/
def run (lib : Libraries) (s : SendResultSession) (host port target : String)
    (version : Int32) (data : AprilTagResultType) : SendResultSession :=
  match lib.url target with
  | none => { s with exception := some .invalidUrl }
  | some url =>
    let url := data.params.foldl (fun url a => lib.setParam url a.1 a.2) url
    { s with
      req_ := { host, port, version, method := .post, target := url, body := data.body }
      outstanding := some .resolve }

def step : SendResultSession → Completion Response → Option SendResultSession :=
  HttpSession.step exchange

end SendResultSession

/-- `SendResult::send`, with the `timeoutMs` its caller has just set. -/
def SendResult.send (lib : Libraries) (timeoutMs : Int64) (host port target : String)
    (version : Int32) (data : AprilTagResultType) (callback : Bool) : SendResultSession :=
  SendResultSession.run lib (.make default timeoutMs callback) host port target version data

end OwlSendResult
