import OwlAprilTagProcessor.Net.Asio
import OwlAprilTagProcessor.Library.Json

/-!
# The libraries the program calls

OpenCV, the AprilTag detector, Boost.URL and the Boost.JSON serializer are not part of
the repository. A value of `Libraries` is one behaviour of all of them; nothing is
assumed of it beyond the types.
-/

open Asio

/-- The part of `cv::Mat` the program reads. The default is the empty image. -/
structure Mat where
  cols : Nat := 0
  rows : Nat := 0
  channels : Nat := 1
  data : List UInt8 := []
  deriving DecidableEq, Repr, Inhabited

/-- `cv::Mat::empty`: no element at all. -/
def Mat.empty (m : Mat) : Bool := m.data.isEmpty || m.cols * m.rows == 0

/-- A point of the image plane, over the exact rationals. -/
structure Point where
  x : Rat
  y : Rat
  deriving DecidableEq, Repr, Inhabited

/-- `apriltag_detection_t`: the centre `c` and the corners `p[0]` to `p[3]`. -/
structure ApriltagDetection where
  id : Int
  hamming : Int
  decision_margin : Rat
  c : Point
  p : Fin 4 → Point

/-- A detection shrunk to one point, for runs on fixed inputs. -/
def ApriltagDetection.sample (id : Int) (x y : Rat) : ApriltagDetection :=
  ⟨id, 0, 0, ⟨x, y⟩, fun _ => ⟨x, y⟩⟩

/-- A tag seen upright: a square around its centre, its corners from the upper left one
clockwise. -/
def ApriltagDetection.upright (id : Int) (x y half : Rat) : ApriltagDetection :=
  ⟨id, 0, 0, ⟨x, y⟩, fun
    | 0 => ⟨x - half, y - half⟩
    | 1 => ⟨x + half, y - half⟩
    | 2 => ⟨x + half, y + half⟩
    | 3 => ⟨x - half, y + half⟩⟩

def twoTags : List ApriltagDetection := [.upright 3 20 20 10, .upright 5 300 240 40]

structure Libraries where
  /-- `cv::imdecode` with `IMREAD_UNCHANGED`; empty when the bytes are not an image. -/
  imdecode : List UInt8 → Mat
  /-- `cv::cvtColor` with `COLOR_BGR2GRAY`. -/
  cvtColor : Mat → Except Exception Mat
  /-- `cv::resize` to a width and a height. -/
  resize : Mat → Int → Int → Except Exception Mat
  /-- `apriltag_detector_detect` of a tag36h11 detector with so many bits corrected. -/
  apriltag_detector_detect : Nat → Mat → List ApriltagDetection
  /-- `ArucoDetector::detectMarkers`: the marker ids and the corners of each marker. -/
  detectMarkers : Mat → List Int × List (List Point)
  /-- The `boost::url` constructor; `none` on a string that is not a URI reference. -/
  url : String → Option String
  /-- `url.params().set`. -/
  setParam : String → String → String → String
  /-- `boost::json::serialize`. -/
  serialize : Json.Value → String

/-- One concrete behaviour, for runs on fixed inputs: bytes with the JPEG marker decode
to a small grey image on which no tag is found. -/
def Libraries.sample : Libraries where
  imdecode bytes :=
    if bytes.take 2 = [0xff, 0xd8] then { cols := 2, rows := 2, data := [0, 0, 0, 0] } else {}
  cvtColor image := .ok { image with channels := 1 }
  resize image w h := .ok { image with cols := w.toNat, rows := h.toNat }
  apriltag_detector_detect _ _ := []
  detectMarkers _ := ([], [])
  url target := if target = "/a b" then none else some target
  setParam url key value := url ++ "?" ++ key ++ "=" ++ value
  serialize
    | .object [("tagList", .array []), ("imageX", .uint64 x), ("imageY", .uint64 y)] =>
      "\x7b\"tagList\":[],\"imageX\":" ++ toString x ++ ",\"imageY\":" ++ toString y ++ "\x7d"
    | _ => ""

/-- OpenCV with the exceptions of its two calls, and both detectors seeing these tags on every
image. -/
def Libraries.detecting (detections : List ApriltagDetection) : Libraries :=
  { Libraries.sample with
    cvtColor := fun image =>
      if image.empty = false ∧ (image.channels = 3 ∨ image.channels = 4) then
        .ok { image with channels := 1 }
      else .error .openCV
    resize := fun image w h =>
      if image.empty = false ∧ 0 < w ∧ 0 < h then
        .ok { image with cols := w.toNat, rows := h.toNat }
      else .error .openCV
    apriltag_detector_detect := fun _ _ => detections
    detectMarkers := fun _ => (detections.map ApriltagDetection.id,
      detections.map fun det => List.ofFn det.p) }
