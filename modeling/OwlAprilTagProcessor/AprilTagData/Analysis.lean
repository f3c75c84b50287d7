import OwlAprilTagProcessor.ConfigLoader.Config
import OwlAprilTagProcessor.Libraries

/-!
# Image analysis

The two implementations of `AprilTagData::analysis`, chosen by a macro at build time,
and the report built from their result. Coordinates are exact rationals; the search for
the centre tag starts from the largest finite `double`, as the source's does.
-/

namespace OwlAprilTagData
open Asio OwlTagConfigLoader

structure AprilTagDataTagInfo where
  id : Int
  hamming : Int
  decision_margin : Rat
  centerX : Rat
  centerY : Rat
  cornerLTx : Rat
  cornerLTy : Rat
  cornerRTx : Rat
  cornerRTy : Rat
  cornerRBx : Rat
  cornerRBy : Rat
  cornerLBx : Rat
  cornerLBy : Rat
  deriving DecidableEq, Repr, Inhabited

structure AprilTagDataObject where
  tagInfo : List AprilTagDataTagInfo := []
  center : Option AprilTagDataTagInfo := none
  imageX : Nat := 0
  imageY : Nat := 0
  deriving DecidableEq, Repr

structure AprilTagResultType where
  params : List (String × String) := []
  body : String := ""
  deriving DecidableEq, Repr

/-! ## Steps both implementations make -/

/-- `std::vector::at`. -/
def vectorAt {α : Type} (xs : List α) (i : Nat) : Except Exception α :=
  match xs[i]? with
  | some a => .ok a
  | none => .error .outOfRange

/-- To grey, then to the configured size if the image exceeds it in either direction. -/
def grayAndResize (lib : Libraries) (config : ConfigAprilTagData) (image : Mat) :
    Except Exception Mat := do
  let image ← if image.channels > 1 then lib.cvtColor image else pure image
  if image.cols > config.resizeWidth.toInt ∨ image.rows > config.resizeHeight.toInt then
    lib.resize image config.resizeWidth.toInt config.resizeHeight.toInt
  else
    pure image

/-- `std::numeric_limits<double>::max()`. -/
def doubleMax : Rat := (2 ^ 53 - 1) * 2 ^ 971

/-- The loop of the centre search: `i` is the index of the head of the list. -/
def miniIndex (imageX imageY : Rat) :
    List AprilTagDataTagInfo → (i miniIndex : Nat) → (miniDistance : Rat) → Nat
  | [], _, mini, _ => mini
  | p :: ps, i, mini, miniDistance =>
    let d := (p.centerX - imageX) ^ 2 + (p.centerY - imageY) ^ 2
    if miniDistance > d then miniIndex imageX imageY ps (i + 1) i d
    else miniIndex imageX imageY ps (i + 1) mini miniDistance

def findCenter (image : Mat) (tagInfo : List AprilTagDataTagInfo) :
    Except Exception (Option AprilTagDataTagInfo) :=
  if tagInfo.isEmpty then
    pure none
  else do
    let imageCenterX : Rat := image.cols / 2
    let imageCenterY : Rat := image.rows / 1
    let center ← vectorAt tagInfo (miniIndex imageCenterX imageCenterY tagInfo 0 0 doubleMax)
    pure (some center)

/-! ## The AprilTag library -/

/-- `td` is kept as the number of bits it corrects. -/
structure AprilTagDataOriginImpl where
  tagConfigLoader_ : Config
  td : Nat

/-- The constructor passes 2, not the configured number of bits. -/
def AprilTagDataOriginImpl.make (tagConfigLoader : Config) : AprilTagDataOriginImpl :=
  ⟨tagConfigLoader, 2⟩

def AprilTagDataOriginImpl.tagInfo (det : ApriltagDetection) : AprilTagDataTagInfo where
  id := det.id
  hamming := det.hamming
  decision_margin := det.decision_margin
  centerX := det.c.x
  centerY := det.c.y
  cornerLTx := (det.p 0).x
  cornerLTy := (det.p 0).y
  cornerRTx := (det.p 1).x
  cornerRTy := (det.p 1).y
  cornerRBx := (det.p 2).x
  cornerRBy := (det.p 2).y
  cornerLBx := (det.p 3).x
  cornerLBy := (det.p 3).y

def AprilTagDataOriginImpl.analysis (self : AprilTagDataOriginImpl) (lib : Libraries)
    (image : Mat) : Except Exception AprilTagDataObject := do
  let image ← grayAndResize lib self.tagConfigLoader_.configAprilTagData image
  let detections := lib.apriltag_detector_detect self.td image
  let tagInfo := detections.map AprilTagDataOriginImpl.tagInfo
  let center ← findCenter image tagInfo
  pure { tagInfo, center, imageX := image.cols, imageY := image.rows }

/-! ## OpenCV -/

structure AprilTagDataOpenCVImpl where
  tagConfigLoader_ : Config

def AprilTagDataOpenCVImpl.make (tagConfigLoader : Config) : AprilTagDataOpenCVImpl :=
  ⟨tagConfigLoader⟩

/-- The centre is the mean of the four corners. -/
def AprilTagDataOpenCVImpl.tagInfo (markerIds : List Int)
    (markerCorners : List (List Point)) (i : Nat) : Except Exception AprilTagDataTagInfo := do
  let pp ← vectorAt markerCorners i
  let p0 ← vectorAt pp 0
  let p1 ← vectorAt pp 1
  let p2 ← vectorAt pp 2
  let p3 ← vectorAt pp 3
  let id ← vectorAt markerIds i
  pure {
    id := id
    hamming := 0
    decision_margin := 0
    centerX := (p0.x + p1.x + p2.x + p3.x) / 4
    centerY := (p0.y + p1.y + p2.y + p3.y) / 4
    cornerLTx := p0.x
    cornerLTy := p0.y
    cornerRTx := p1.x
    cornerRTy := p1.y
    cornerRBx := p2.x
    cornerRBy := p2.y
    cornerLBx := p3.x
    cornerLBy := p3.y }

/-- `imageX` and `imageY` keep their initial value here. -/
def AprilTagDataOpenCVImpl.analysis (self : AprilTagDataOpenCVImpl) (lib : Libraries)
    (image : Mat) : Except Exception AprilTagDataObject := do
  let image ← grayAndResize lib self.tagConfigLoader_.configAprilTagData image
  let (markerIds, markerCorners) := lib.detectMarkers image
  let tagInfo ← (List.range markerIds.length).mapM
    (AprilTagDataOpenCVImpl.tagInfo markerIds markerCorners)
  let center ← findCenter image tagInfo
  pure { tagInfo, center }

/-- `AprilTagDataImpl`: the implementation the macro selects. -/
inductive AprilTagDataImpl where
  | origin | openCV
  deriving DecidableEq, Repr

def AprilTagData.analysis (impl : AprilTagDataImpl) (config : Config) (lib : Libraries)
    (image : Mat) : Except Exception AprilTagDataObject :=
  match impl with
  | .origin => (AprilTagDataOriginImpl.make config).analysis lib image
  | .openCV => (AprilTagDataOpenCVImpl.make config).analysis lib image

/-! ## The report -/

def AprilTagDataTagInfo.to_json_value (t : AprilTagDataTagInfo) : Json.Value :=
  .object [
    ("id", .int64 t.id),
    ("ham", .int64 t.hamming),
    ("dm", .double t.decision_margin),
    ("cX", .double t.centerX),
    ("cY", .double t.centerY),
    ("cLTx", .double t.cornerLTx),
    ("cLTy", .double t.cornerLTy),
    ("cRTx", .double t.cornerRTx),
    ("cRTy", .double t.cornerRTy),
    ("cRBx", .double t.cornerRBx),
    ("cRBy", .double t.cornerRBy),
    ("cLBx", .double t.cornerLBx),
    ("cLBy", .double t.cornerLBy)]

/-- The object `v` that is serialized into the body. -/
def AprilTagDataObject.to_json_value (o : AprilTagDataObject) : Json.Value :=
  .object ([
    ("tagList", .array (o.tagInfo.map AprilTagDataTagInfo.to_json_value)),
    ("imageX", .uint64 o.imageX),
    ("imageY", .uint64 o.imageY)] ++
    match o.center with
    | some center => [("centerTag", center.to_json_value)]
    | none => [])

def aprilTagDataObject2ResultType (lib : Libraries) (o : AprilTagDataObject) :
    AprilTagResultType where
  params := []
  body := lib.serialize o.to_json_value

end OwlAprilTagData
