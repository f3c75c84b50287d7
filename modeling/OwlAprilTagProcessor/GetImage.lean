import OwlAprilTagProcessor.Session.HttpSession
import OwlAprilTagProcessor.Libraries

/-!
# Fetching an image

`GetImageSession` of `GetImage.cpp`: the exchange of `HttpSession` with the response
handling of its own `on_read`.
-/

namespace OwlGetImage
open Asio Session

/-- The arguments of `CallbackFunctionType`. -/
structure Report where
  ec : ErrorCode
  ok : Bool
  img : Mat
  deriving DecidableEq, Repr, Inhabited

abbrev Response := Http.Response (List UInt8)

abbrev GetImageSession := HttpSession Report

namespace GetImageSession

/-- The middle part of `on_read`. The second header is looked up only when the first
one matches, and both are looked up for the error log. -/
def respond (lib : Libraries) (res_ : Response) : Except Exception Report :=
  if res_.result = Http.ok then do
    let contentType ← res_.at .contentType
    let isJpg ←
      if contentType = "image/jpeg" then do
        let format ← res_.at .xImageFormat
        pure (format == "jpg")
      else
        pure false
    if isJpg then
      pure ⟨.success, true, lib.imdecode res_.body⟩
    else do
      let _ ← res_.at .contentType
      let _ ← res_.at .xImageFormat
      pure ⟨.success, false, {}⟩
  else
    pure ⟨.success, false, {}⟩

/-- With status 200 both headers are looked up on every path. -/
theorem respond_eq (lib : Libraries) (res_ : Response) :
    respond lib res_ =
      if res_.result = Http.ok then
        match res_.find .contentType, res_.find .xImageFormat with
        | some contentType, some format =>
          .ok (if contentType = "image/jpeg" ∧ format = "jpg" then
            ⟨.success, true, lib.imdecode res_.body⟩ else ⟨.success, false, {}⟩)
        | _, _ => .error .outOfRange
      else .ok ⟨.success, false, {}⟩ := by
  unfold respond
  by_cases h200 : res_.result = Http.ok
  · cases hct : res_.find .contentType with
    | none => simp [h200, hct, Http.Response.at, bind, Except.bind]
    | some contentType =>
      by_cases hjpeg : contentType = "image/jpeg" <;> cases hxf : res_.find .xImageFormat <;>
        simp [h200, hct, hxf, hjpeg, Http.Response.at, bind, Except.bind, pure, Except.pure]
      split_ifs <;> rfl
  · simp [h200, pure, Except.pure]

def exchange (lib : Libraries) : Exchange Response Report where
  failure ec := ⟨ec, false, {}⟩
  respond := respond lib

/-- `run`: the request is set up and the name looked up. -/
def run (s : GetImageSession) (host port target : String) (version : Int32) :
    GetImageSession :=
  { s with
    req_ := { host, port, version, method := .get, target, body := "" }
    outstanding := some .resolve }

def step (lib : Libraries) : GetImageSession → Completion Response → Option GetImageSession :=
  HttpSession.step (exchange lib)

end GetImageSession

/-- `GetImage::get`, with the `timeoutMs` its caller has just set. -/
def GetImage.get (timeoutMs : Int64) (host port target : String) (version : Int32)
    (callback : Bool) : GetImageSession :=
  GetImageSession.run (.make default timeoutMs callback) host port target version

end OwlGetImage
