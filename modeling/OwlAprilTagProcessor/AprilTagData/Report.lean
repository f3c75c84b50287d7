import Mathlib.Data.Fin.VecNotation
import OwlAprilTagProcessor.AprilTagData.Center

/-!
# What a receiver reads in a report

A receiver knows the report by its key names only. It gets back every detection with all
its fields, the size of the image the detector was given, and a centre tag it could have
found itself, if it measures from the point the search measures from.
-/

namespace OwlAprilTagData
open Asio OwlTagConfigLoader Json

/-- The report as a receiver reads it. -/
structure ReceivedReport where
  tagList : List ApriltagDetection
  imageX : Int
  imageY : Int
  centerTag : Option ApriltagDetection

/-! ## Reading by key names -/

def readInt (v : Value) (key : String) : Option Int := (v.get? key).bind Value.toInt?

def readRat (v : Value) (key : String) : Option Rat := (v.get? key).bind Value.toRat?

def readPoint (v : Value) (keyX keyY : String) : Option Point := do
  let x ← readRat v keyX
  let y ← readRat v keyY
  pure ⟨x, y⟩

def readDetection (v : Value) : Option ApriltagDetection := do
  let id ← readInt v "id"
  let hamming ← readInt v "ham"
  let decision_margin ← readRat v "dm"
  let c ← readPoint v "cX" "cY"
  let lt ← readPoint v "cLTx" "cLTy"
  let rt ← readPoint v "cRTx" "cRTy"
  let rb ← readPoint v "cRBx" "cRBy"
  let lb ← readPoint v "cLBx" "cLBy"
  pure ⟨id, hamming, decision_margin, c, ![lt, rt, rb, lb]⟩

def readTagList (v : Value) : Option (List ApriltagDetection) := do
  let tags ← (v.get? "tagList").bind Value.toArray?
  tags.mapM readDetection

/-- The member may be absent. -/
def readCenterTag (v : Value) : Option (Option ApriltagDetection) :=
  match v.get? "centerTag" with
  | none => some none
  | some center => (readDetection center).map some

def readReport (v : Value) : Option ReceivedReport := do
  let tagList ← readTagList v
  let imageX ← readInt v "imageX"
  let imageY ← readInt v "imageY"
  let centerTag ← readCenterTag v
  pure ⟨tagList, imageX, imageY, centerTag⟩

/-! ## Reading what was written -/

section Parsed

variable (v : Value)

@[simp] theorem readInt_parsed (key : String) : readInt v.parsed key = readInt v key := by
  cases h : v.get? key <;> simp [readInt, h]

@[simp] theorem readRat_parsed (key : String) : readRat v.parsed key = readRat v key := by
  cases h : v.get? key <;> simp [readRat, h]

@[simp] theorem readPoint_parsed (keyX keyY : String) :
    readPoint v.parsed keyX keyY = readPoint v keyX keyY := by
  simp [readPoint]

@[simp] theorem readDetection_parsed : readDetection v.parsed = readDetection v := by
  simp [readDetection]

@[simp] theorem readTagList_parsed : readTagList v.parsed = readTagList v := by
  rcases h : v.get? "tagList" with _ | tagList
  · simp [readTagList, h]
  · rcases tags : tagList.toArray? with _ | tags
    · simp [readTagList, h, tags]
    · simp [readTagList, h, tags, List.mapM_map, Function.comp_def]

@[simp] theorem readCenterTag_parsed : readCenterTag v.parsed = readCenterTag v := by
  cases h : v.get? "centerTag" <;> simp [readCenterTag, h]

@[simp] theorem readReport_parsed : readReport v.parsed = readReport v := by
  simp [readReport]

end Parsed

theorem readDetection_to_json (det : ApriltagDetection) :
    readDetection (AprilTagDataOriginImpl.tagInfo det).to_json_value = some det := by
  have corners : ![det.p 0, det.p 1, det.p 2, det.p 3] = det.p := by
    funext i
    match i with
    | 0 | 1 | 2 | 3 => rfl
  simp [readDetection, readPoint, readInt, readRat, AprilTagDataTagInfo.to_json_value,
    AprilTagDataOriginImpl.tagInfo, Value.get?, List.lookup_cons, Value.toInt?, Value.toRat?,
    corners]

theorem mapM_readDetection (detections : List ApriltagDetection) :
    ((detections.map AprilTagDataOriginImpl.tagInfo).map
      AprilTagDataTagInfo.to_json_value).mapM readDetection = some detections := by
  induction detections with
  | nil => rfl
  | cons det detections ih =>
    rw [List.map_cons, List.map_cons, List.mapM_cons, ih, readDetection_to_json]
    rfl

section ToJson

variable (detections : List ApriltagDetection) (center : Option ApriltagDetection) (x y : Nat)

/-- What the implementation that calls the detector makes of these detections. -/
def reported : AprilTagDataObject where
  tagInfo := detections.map AprilTagDataOriginImpl.tagInfo
  center := center.map AprilTagDataOriginImpl.tagInfo
  imageX := x
  imageY := y

theorem readTagList_reported :
    readTagList (reported detections center x y).to_json_value = some detections :=
  mapM_readDetection detections

theorem readCenterTag_reported :
    readCenterTag (reported detections center x y).to_json_value = some center := by
  cases center with
  | none => rfl
  | some det =>
    change (readDetection (AprilTagDataOriginImpl.tagInfo det).to_json_value).map some = _
    rw [readDetection_to_json]
    rfl

/-- Nothing of what was put into the report is lost or changed. -/
theorem readReport_reported :
    readReport (reported detections center x y).to_json_value =
      some ⟨detections, x, y, center⟩ := by
  have imageX : readInt (reported detections center x y).to_json_value "imageX" = some ↑x := by
    rfl
  have imageY : readInt (reported detections center x y).to_json_value "imageY" = some ↑y := by
    rfl
  rw [readReport, readTagList_reported, imageX, imageY, readCenterTag_reported]
  rfl

end ToJson

/-! ## The centre tag of a report -/

def squaredDistance (x y : Rat) (det : ApriltagDetection) : Rat :=
  (det.c.x - x) ^ 2 + (det.c.y - y) ^ 2

/-- The centre tag is what a receiver finds, measuring from the middle of the lower edge. -/
structure ReceivedReport.CenterFound (report : ReceivedReport) : Prop where
  absent : report.centerTag = none ↔ report.tagList = []
  nearest : ∀ t, report.centerTag = some t →
    ∃ i, FirstMin (squaredDistance (report.imageX / 2) report.imageY) report.tagList i t

/-- The search among the listed tags is a search among the detections. -/
theorem findCenter_detections {m : Mat} {detections : List ApriltagDetection}
    (below : ∀ det ∈ detections, squaredDistance (m.cols / 2) m.rows det < doubleMax) :
    ∃ center : Option ApriltagDetection,
      findCenter m (detections.map AprilTagDataOriginImpl.tagInfo) =
        .ok (center.map AprilTagDataOriginImpl.tagInfo) ∧
      ReceivedReport.CenterFound ⟨detections, m.cols, m.rows, center⟩ := by
  rcases eq_or_ne detections [] with rfl | nonempty
  · exact ⟨none, rfl, by simp, by simp⟩
  · have listed : ∀ t ∈ detections.map AprilTagDataOriginImpl.tagInfo,
        t.squaredDistance (m.cols / 2) m.rows < doubleMax := by
      intro t ht
      obtain ⟨det, hdet, rfl⟩ := List.mem_map.mp ht
      exact below det hdet
    obtain ⟨i, t, found, chosen⟩ := findCenter_firstMin (by simpa using nonempty) listed
    obtain ⟨det, nearest, rfl⟩ := found.of_map
    refine ⟨some det, chosen, by simpa using nonempty, ?_⟩
    rintro _ ⟨⟩
    exact ⟨i, nearest⟩

/-- From the detections to what a receiver reads: nothing is lost, and the centre tag is the
first of those nearest to the point the search measures from. -/
theorem report_is_lossless (config : Config) (lib : Libraries) (image m : Mat)
    (prepared : grayAndResize lib config.configAprilTagData image = .ok m)
    (below : ∀ det ∈ lib.apriltag_detector_detect (AprilTagDataOriginImpl.make config).td m,
      squaredDistance (m.cols / 2) m.rows det < doubleMax) :
    ∃ o, (AprilTagDataOriginImpl.make config).analysis lib image = .ok o ∧
      ∀ parse : String → Option Value,
        parse (lib.serialize o.to_json_value) = some o.to_json_value.parsed →
        ∃ report, (parse (aprilTagDataObject2ResultType lib o).body).bind readReport =
            some report ∧
          report.tagList =
            lib.apriltag_detector_detect (AprilTagDataOriginImpl.make config).td m ∧
          report.imageX = m.cols ∧ report.imageY = m.rows ∧ report.CenterFound := by
  obtain ⟨center, chosen, found⟩ := findCenter_detections below
  refine ⟨reported _ center m.cols m.rows,
    analysis_of_prepared .origin prepared rfl chosen, ?_⟩
  intro parse inverts
  refine ⟨⟨_, m.cols, m.rows, center⟩, ?_, rfl, rfl, rfl, found⟩
  rw [aprilTagDataObject2ResultType, inverts, Option.bind_some, readReport_parsed,
    readReport_reported]

/-! Two tags on an image of 640 by 480 pixels, and the text of the report on it. -/

/-- The second one is nearer to the middle of the lower edge. -/
def twoTagsReported : AprilTagDataObject :=
  reported twoTags (some (.upright 5 300 240 40)) 640 480

def twoTagsText : String :=
  let first := "\x7b\"id\":3,\"ham\":0,\"dm\":0E0,\"cX\":2E1,\"cY\":2E1," ++
    "\"cLTx\":1E1,\"cLTy\":1E1,\"cRTx\":3E1,\"cRTy\":1E1," ++
    "\"cRBx\":3E1,\"cRBy\":3E1,\"cLBx\":1E1,\"cLBy\":3E1\x7d"
  let second := "\x7b\"id\":5,\"ham\":0,\"dm\":0E0,\"cX\":3E2,\"cY\":2.4E2," ++
    "\"cLTx\":2.6E2,\"cLTy\":2E2,\"cRTx\":3.4E2,\"cRTy\":2E2," ++
    "\"cRBx\":3.4E2,\"cRBy\":2.8E2,\"cLBx\":2.6E2,\"cLBy\":2.8E2\x7d"
  "\x7b\"tagList\":[" ++ first ++ "," ++ second ++ "],\"imageX\":640,\"imageY\":480," ++
    "\"centerTag\":" ++ second ++ "\x7d"

/-- Every frame is that image, and the serializer writes that text. -/
def seeingTwoTags : Libraries :=
  { Libraries.detecting twoTags with
    imdecode := fun _ => { cols := 640, rows := 480, data := [0] }
    serialize := fun _ => twoTagsText }

/-- A parser that knows this text. -/
def parseTwoTags (text : String) : Option Value :=
  if text = twoTagsText then some twoTagsReported.to_json_value.parsed else none

theorem twoTags_analysis :
    AprilTagData.analysis .origin {} seeingTwoTags { cols := 640, rows := 480, data := [0] } =
      .ok twoTagsReported := by
  have chosen : findCenter { cols := 640, rows := 480, data := [0] }
      (twoTags.map AprilTagDataOriginImpl.tagInfo) =
      .ok (some (AprilTagDataOriginImpl.tagInfo (.upright 5 300 240 40))) := by decide +kernel
  exact analysis_of_prepared .origin (m := { cols := 640, rows := 480, data := [0] }) rfl rfl chosen

theorem twoTags_read :
    (parseTwoTags twoTagsText).bind readReport =
      some ⟨twoTags, 640, 480, some (.upright 5 300 240 40)⟩ := by
  rw [parseTwoTags, if_pos rfl, Option.bind_some, readReport_parsed, twoTagsReported,
    readReport_reported]
  rfl

/-- The receiver of that text reads both tags, each with its four corners, and the second one
as the centre tag. -/
theorem two_tags_are_reported :
    let lib := seeingTwoTags
    let image : Mat := { cols := 640, rows := 480, data := [0] }
    ∃ o report, (AprilTagDataOriginImpl.make {}).analysis lib image = .ok o ∧
      (parseTwoTags (aprilTagDataObject2ResultType lib o).body).bind readReport = some report ∧
      report.tagList = twoTags ∧ report.centerTag = some (.upright 5 300 240 40) ∧
      report.CenterFound := by
  intro lib image
  obtain ⟨o, analysed, read⟩ := report_is_lossless {} lib image image rfl (by decide +kernel)
  obtain rfl : twoTagsReported = o := Except.ok.inj (twoTags_analysis.symm.trans analysed)
  obtain ⟨report, reads, tags, -, -, found⟩ := read parseTwoTags (if_pos rfl)
  have centre := Option.some.inj (twoTags_read.symm.trans reads)
  exact ⟨_, report, analysed, reads, tags, by rw [← centre], found⟩

end OwlAprilTagData
