import Mathlib.Data.List.Induction
import Mathlib.Tactic.SplitIfs
import OwlAprilTagProcessor.AprilTagData.Analysis

/-!
# The two implementations side by side

A build has one of the two implementations, so they never meet at run time. Given the same
detections they list the same tags and choose the same centre tag, but for the two fields
that only the AprilTag library knows. They do not report the same image size: the
implementation with OpenCV leaves it at zero.
-/

namespace OwlAprilTagData
open Asio OwlTagConfigLoader

/-! ## What the comparison leaves out -/

/-- A tag without the fields OpenCV does not provide. -/
def AprilTagDataTagInfo.common (t : AprilTagDataTagInfo) : AprilTagDataTagInfo :=
  { t with hamming := 0, decision_margin := 0 }

/-- Their names in the report. -/
def uncommonKeys : List String := ["ham", "dm"]

@[simp] theorem AprilTagDataTagInfo.common_common (t : AprilTagDataTagInfo) :
    t.common.common = t.common := rfl

theorem AprilTagDataTagInfo.to_json_common (t : AprilTagDataTagInfo) :
    t.common.to_json_value.without uncommonKeys = t.to_json_value.without uncommonKeys := by
  simp [to_json_value, common, uncommonKeys, Json.Value.without, Json.objectWithout]

/-- Two results that differ at most in the fields left out. -/
structure AprilTagDataObject.Agree (o o' : AprilTagDataObject) : Prop where
  imageX : o.imageX = o'.imageX
  imageY : o.imageY = o'.imageY
  tagInfo : o.tagInfo.map AprilTagDataTagInfo.common = o'.tagInfo.map AprilTagDataTagInfo.common
  center : o.center.map AprilTagDataTagInfo.common = o'.center.map AprilTagDataTagInfo.common
  report : o.to_json_value.without uncommonKeys = o'.to_json_value.without uncommonKeys

/-- Results that agree, or the same exception. -/
def AnalysesAgree : Except Exception AprilTagDataObject → Except Exception AprilTagDataObject → Prop
  | .ok o, .ok o' => o.Agree o'
  | .error e, .error e' => e = e'
  | _, _ => False

/-- Both detectors find the same tags in `image`: ids, corners in the same order, and a
centre that is the mean of the corners. -/
structure SameDetections (lib : Libraries) (bits : Nat) (image : Mat) : Prop where
  ids : (lib.detectMarkers image).1 =
    (lib.apriltag_detector_detect bits image).map ApriltagDetection.id
  corners : (lib.detectMarkers image).2 =
    (lib.apriltag_detector_detect bits image).map fun det => [det.p 0, det.p 1, det.p 2, det.p 3]
  centres : ∀ det ∈ lib.apriltag_detector_detect bits image,
    det.c = ⟨((det.p 0).x + (det.p 1).x + (det.p 2).x + (det.p 3).x) / 4,
      ((det.p 0).y + (det.p 1).y + (det.p 2).y + (det.p 3).y) / 4⟩

/-! ## What OpenCV does with an image -/

/-- `cvtColor` keeps the size of an image, and `resize` gives it the size asked for. -/
structure Sized (lib : Libraries) : Prop where
  cvtColor : ∀ image grey, lib.cvtColor image = .ok grey →
    grey.cols = image.cols ∧ grey.rows = image.rows
  resize : ∀ image small w h, lib.resize image w h = .ok small →
    (small.cols : Int) = w ∧ (small.rows : Int) = h

/-- What its documentation says of the two calls: they throw on an empty image, `cvtColor` also
on other than three or four channels, `resize` also on a size that is not positive. -/
structure Documented (lib : Libraries) : Prop extends Sized lib where
  cvtColor_ok : ∀ image, (∃ grey, lib.cvtColor image = .ok grey) ↔
    image.empty = false ∧ (image.channels = 3 ∨ image.channels = 4)
  cvtColor_filled : ∀ image grey, lib.cvtColor image = .ok grey → grey.empty = false
  resize_ok : ∀ image w h, (∃ small, lib.resize image w h = .ok small) ↔
    image.empty = false ∧ 0 < w ∧ 0 < h

/-- `image.cols > resizeWidth || image.rows > resizeHeight`. -/
def TooLarge (config : ConfigAprilTagData) (image : Mat) : Prop :=
  image.cols > config.resizeWidth.toInt ∨ image.rows > config.resizeHeight.toInt

instance (config : ConfigAprilTagData) (image : Mat) : Decidable (TooLarge config image) :=
  inferInstanceAs (Decidable (_ ∨ _))

/-- Neither of the calls that the image takes throws. -/
structure Preparable (config : ConfigAprilTagData) (image : Mat) : Prop where
  grey : image.channels > 1 →
    image.empty = false ∧ (image.channels = 3 ∨ image.channels = 4)
  resize : TooLarge config image →
    image.empty = false ∧ 0 < config.resizeWidth.toInt ∧ 0 < config.resizeHeight.toInt

section Prepared

variable {lib : Libraries} {config : ConfigAprilTagData} {image grey m : Mat}

/-- The first of the two calls. -/
def gray (lib : Libraries) (image : Mat) : Except Exception Mat :=
  if image.channels > 1 then lib.cvtColor image else pure image

/-- The size of the grey image decides on the second call. -/
theorem grayAndResize_of_gray (h : gray lib image = .ok grey) :
    grayAndResize lib config image =
      if TooLarge config grey then
        lib.resize grey config.resizeWidth.toInt config.resizeHeight.toInt
      else pure grey := by
  by_cases color : image.channels > 1
  · have converted : lib.cvtColor image = .ok grey := by simpa [gray, color] using h
    simp [grayAndResize, color, converted, TooLarge, bind, Except.bind]
  · obtain rfl : image = grey := by simpa [gray, color, pure, Except.pure] using h
    simp [grayAndResize, color, TooLarge, bind, Except.bind, pure, Except.pure]

theorem gray_of_prepared (prepared : grayAndResize lib config image = .ok m) :
    ∃ grey, gray lib image = .ok grey := by
  by_cases color : image.channels > 1
  · cases converted : lib.cvtColor image with
    | error e => simp [grayAndResize, color, converted, bind, Except.bind] at prepared
    | ok grey => exact ⟨grey, by simp [gray, color, converted]⟩
  · exact ⟨image, by simp [gray, color, pure, Except.pure]⟩

theorem gray_size (sized : Sized lib) (h : gray lib image = .ok grey) :
    grey.cols = image.cols ∧ grey.rows = image.rows := by
  unfold gray at h
  split_ifs at h with color
  · exact sized.cvtColor image grey h
  · obtain rfl : image = grey := Except.ok.inj h
    exact ⟨rfl, rfl⟩

theorem gray_empty (documented : Documented lib) (h : gray lib image = .ok grey) :
    grey.empty = image.empty := by
  unfold gray at h
  split_ifs at h with color
  · rw [documented.cvtColor_filled image grey h,
      ((documented.cvtColor_ok image).mp ⟨grey, h⟩).1]
  · obtain rfl : image = grey := Except.ok.inj h
    rfl

theorem gray_ok_iff (documented : Documented lib) : (∃ grey, gray lib image = .ok grey) ↔
    (image.channels > 1 → image.empty = false ∧ (image.channels = 3 ∨ image.channels = 4)) := by
  by_cases color : image.channels > 1
  · simpa [gray, color] using documented.cvtColor_ok image
  · simp [gray, color, pure, Except.pure]

theorem gray_tooLarge (sized : Sized lib) (h : gray lib image = .ok grey) :
    TooLarge config grey ↔ TooLarge config image := by
  obtain ⟨cols, rows⟩ := gray_size sized h
  rw [TooLarge, TooLarge, cols, rows]

/-- An image that is too large is scaled to the configured size, any other keeps its size. -/
theorem prepared_size_eq (sized : Sized lib) (prepared : grayAndResize lib config image = .ok m) :
    (TooLarge config image →
        (m.cols : Int) = config.resizeWidth.toInt ∧ (m.rows : Int) = config.resizeHeight.toInt) ∧
      (¬ TooLarge config image → m.cols = image.cols ∧ m.rows = image.rows) := by
  obtain ⟨grey, hgrey⟩ := gray_of_prepared prepared
  rw [grayAndResize_of_gray hgrey] at prepared
  rw [← gray_tooLarge sized hgrey]
  split_ifs at prepared with larger
  · exact ⟨fun _ => sized.resize grey m _ _ prepared, absurd larger⟩
  · obtain rfl : grey = m := Except.ok.inj prepared
    exact ⟨fun h => absurd h larger, fun _ => gray_size sized hgrey⟩

/-- Which images can be prepared for a detector. -/
theorem prepared_iff (documented : Documented lib) :
    (∃ m, grayAndResize lib config image = .ok m) ↔ Preparable config image := by
  constructor
  · rintro ⟨m, prepared⟩
    obtain ⟨grey, hgrey⟩ := gray_of_prepared prepared
    refine ⟨(gray_ok_iff documented).mp ⟨grey, hgrey⟩, fun larger => ?_⟩
    rw [grayAndResize_of_gray hgrey,
      if_pos ((gray_tooLarge documented.toSized hgrey).mpr larger)] at prepared
    rw [← gray_empty documented hgrey]
    exact (documented.resize_ok grey _ _).mp ⟨m, prepared⟩
  · intro preparable
    obtain ⟨grey, hgrey⟩ := (gray_ok_iff documented).mpr preparable.grey
    rw [grayAndResize_of_gray hgrey]
    split_ifs with larger
    · have takes := preparable.resize ((gray_tooLarge documented.toSized hgrey).mp larger)
      rw [← gray_empty documented hgrey] at takes
      exact (documented.resize_ok grey _ _).mpr takes
    · exact ⟨grey, rfl⟩

/-- A prepared image has no size only if it had none, for it is never scaled to nothing. -/
theorem prepared_without_size_iff (documented : Documented lib)
    (prepared : grayAndResize lib config image = .ok m) :
    (m.cols = 0 ∧ m.rows = 0) ↔ ¬ TooLarge config image ∧ image.cols = 0 ∧ image.rows = 0 := by
  obtain ⟨resized, kept⟩ := prepared_size_eq documented.toSized prepared
  by_cases larger : TooLarge config image
  · have positive := (((prepared_iff documented).mp ⟨m, prepared⟩).resize larger).2
    have size := resized larger
    simp only [larger, not_true, false_and, iff_false]
    omega
  · obtain ⟨cols, rows⟩ := kept larger
    simp [larger, cols, rows]

end Prepared

/-! ## The list of tags -/

theorem mapM_range_length {ι ρ ε : Type} (f : Nat → Except ε ρ) (g : ι → ρ) (xs : List ι)
    (each : ∀ i x, xs[i]? = some x → f i = .ok (g x)) :
    (List.range xs.length).mapM f = .ok (xs.map g) := by
  induction xs using List.reverseRecOn with
  | nil => rfl
  | append_singleton xs x ih =>
    have before : (List.range xs.length).mapM f = .ok (xs.map g) := by
      refine ih fun i y hy => each i y ?_
      rw [List.getElem?_append_left (List.getElem?_eq_some_iff.mp hy).1, hy]
    have last : f xs.length = .ok (g x) := each _ x (by simp)
    rw [List.length_append, List.length_singleton, List.range_succ, List.mapM_append, before,
      List.mapM_cons, last]
    simp [bind, Except.bind, pure, Except.pure]

/-- OpenCV's loop builds the common part of what the other one builds. -/
theorem tagInfo_common {lib : Libraries} {bits : Nat} {image : Mat}
    (same : SameDetections lib bits image) :
    (List.range (lib.detectMarkers image).1.length).mapM
      (AprilTagDataOpenCVImpl.tagInfo (lib.detectMarkers image).1 (lib.detectMarkers image).2) =
    .ok ((lib.apriltag_detector_detect bits image).map fun det =>
      (AprilTagDataOriginImpl.tagInfo det).common) := by
  have ids := same.ids
  have corners := same.corners
  rw [ids, corners, List.length_map]
  refine mapM_range_length _ _ _ fun i det hdet => ?_
  have centre := same.centres det (List.mem_of_getElem? hdet)
  simp [AprilTagDataOpenCVImpl.tagInfo, AprilTagDataOriginImpl.tagInfo,
    AprilTagDataTagInfo.common, vectorAt, hdet, centre, bind, Except.bind, pure, Except.pure]

/-! ## The centre tag -/

theorem miniIndex_common (x y : Rat) (ps : List AprilTagDataTagInfo) (i mini : Nat) (d : Rat) :
    miniIndex x y (ps.map AprilTagDataTagInfo.common) i mini d = miniIndex x y ps i mini d := by
  induction ps generalizing i mini d with
  | nil => rfl
  | cons p ps ih => simp only [List.map_cons, miniIndex, ih, AprilTagDataTagInfo.common]

/-- The search ends at an index of the list. -/
theorem miniIndex_lt (x y : Rat) (ps : List AprilTagDataTagInfo) (i mini : Nat) (d : Rat)
    (h : mini < i + ps.length) : miniIndex x y ps i mini d < i + ps.length := by
  induction ps generalizing i mini d with
  | nil => exact h
  | cons p ps ih =>
    rw [List.length_cons] at h ⊢
    simp only [miniIndex]
    have shift : i + (ps.length + 1) = i + 1 + ps.length := by omega
    rw [shift] at h ⊢
    split_ifs
    · exact ih (i + 1) i _ (by omega)
    · exact ih (i + 1) mini _ h

theorem findCenter_ok (image : Mat) (tagInfo : List AprilTagDataTagInfo) :
    ∃ center, findCenter image tagInfo = .ok center := by
  unfold findCenter
  cases tagInfo with
  | nil => exact ⟨none, rfl⟩
  | cons p ps =>
    have within := miniIndex_lt (image.cols / 2) (image.rows / 1) (p :: ps) 0 0 doubleMax
      (by simp)
    rw [Nat.zero_add] at within
    refine ⟨some (p :: ps)[miniIndex (image.cols / 2) (image.rows / 1) (p :: ps) 0 0 doubleMax], ?_⟩
    simp only [List.isEmpty_cons, Bool.false_eq_true, if_false, vectorAt,
      List.getElem?_eq_getElem within]
    rfl

theorem findCenter_common (image : Mat) (tagInfo : List AprilTagDataTagInfo) :
    findCenter image (tagInfo.map AprilTagDataTagInfo.common) =
      (findCenter image tagInfo).map (Option.map AprilTagDataTagInfo.common) := by
  cases tagInfo with
  | nil => rfl
  | cons p ps =>
    simp only [findCenter, miniIndex_common, vectorAt, List.getElem?_map]
    cases (p :: ps)[miniIndex (image.cols / 2) (image.rows / 1) (p :: ps) 0 0 doubleMax]? <;> rfl

/-! ## The results -/

/-- The common part of a result, without the image size. -/
def AprilTagDataObject.common (o : AprilTagDataObject) : AprilTagDataObject where
  tagInfo := o.tagInfo.map AprilTagDataTagInfo.common
  center := o.center.map AprilTagDataTagInfo.common

def AprilTagDataObject.withoutSize (o : AprilTagDataObject) : AprilTagDataObject :=
  { o with imageX := 0, imageY := 0 }

theorem AprilTagDataObject.report_common (o : AprilTagDataObject) :
    o.common.to_json_value.without uncommonKeys =
      o.withoutSize.to_json_value.without uncommonKeys := by
  have tags (t : AprilTagDataTagInfo) (_ : t ∈ o.tagInfo) := t.to_json_common
  cases hc : o.center with
  | none =>
    simpa [to_json_value, common, withoutSize, hc, uncommonKeys, Json.Value.without,
      Json.objectWithout, Json.arrayWithout_eq_map, Function.comp_def] using tags
  | some center =>
    simpa [to_json_value, common, withoutSize, hc, uncommonKeys, Json.Value.without,
      Json.objectWithout, Json.arrayWithout_eq_map, Function.comp_def] using
      And.intro tags center.to_json_common

/-- A result agrees with its common part exactly when its image size is zero. -/
theorem AprilTagDataObject.agree_common_iff (o : AprilTagDataObject) :
    o.Agree o.common ↔ o.imageX = 0 ∧ o.imageY = 0 := by
  constructor
  · intro agree
    exact ⟨agree.imageX, agree.imageY⟩
  · rintro ⟨hx, hy⟩
    have same : o.withoutSize = o := by
      cases o
      simp_all [withoutSize]
    refine ⟨hx, hy, ?_, ?_, ?_⟩
    · simp [common, Function.comp_def]
    · simp [common, Function.comp_def]
    · rw [report_common, same]

section Analyses

variable {lib : Libraries} {config : Config} {image m : Mat}

theorem analyses_of_error {e : Exception}
    (prepared : grayAndResize lib config.configAprilTagData image = .error e) :
    AprilTagData.analysis .origin config lib image = .error e ∧
      AprilTagData.analysis .openCV config lib image = .error e := by
  simp [AprilTagData.analysis, AprilTagDataOriginImpl.analysis, AprilTagDataOriginImpl.make,
    AprilTagDataOpenCVImpl.analysis, AprilTagDataOpenCVImpl.make, prepared, bind, Except.bind]

/-- The other implementation returns the common part. -/
theorem analyses_of_ok
    (prepared : grayAndResize lib config.configAprilTagData image = .ok m)
    (same : SameDetections lib (AprilTagDataOriginImpl.make config).td m) :
    ∃ o, AprilTagData.analysis .origin config lib image = .ok o ∧
      AprilTagData.analysis .openCV config lib image = .ok o.common ∧
      o.imageX = m.cols ∧ o.imageY = m.rows := by
  change SameDetections lib 2 m at same
  have tags := tagInfo_common same
  obtain ⟨center, centre⟩ := findCenter_ok m
    ((lib.apriltag_detector_detect 2 m).map AprilTagDataOriginImpl.tagInfo)
  refine ⟨{ tagInfo := (lib.apriltag_detector_detect 2 m).map AprilTagDataOriginImpl.tagInfo,
            center, imageX := m.cols, imageY := m.rows }, ?_, ?_, rfl, rfl⟩
  · simp [AprilTagData.analysis, AprilTagDataOriginImpl.analysis, AprilTagDataOriginImpl.make,
      prepared, centre, bind, Except.bind, pure, Except.pure]
  · have common : findCenter m ((lib.apriltag_detector_detect 2 m).map fun det =>
        (AprilTagDataOriginImpl.tagInfo det).common) =
        .ok (center.map AprilTagDataTagInfo.common) := by
      have mapped := findCenter_common m
        ((lib.apriltag_detector_detect 2 m).map AprilTagDataOriginImpl.tagInfo)
      rw [centre, List.map_map] at mapped
      exact mapped
    simp [AprilTagData.analysis, AprilTagDataOpenCVImpl.analysis, AprilTagDataOpenCVImpl.make,
      AprilTagDataObject.common, prepared, tags, common, bind, Except.bind, pure, Except.pure]

end Analyses

/-- Given the same detections, the two implementations agree exactly on images that OpenCV
refuses to prepare and on images without a size; but for the size they always agree. -/
theorem analyses_agree_iff (lib : Libraries) (config : Config) (image : Mat)
    (documented : Documented lib)
    (same : ∀ m, grayAndResize lib config.configAprilTagData image = .ok m →
      SameDetections lib (AprilTagDataOriginImpl.make config).td m) :
    (AnalysesAgree (AprilTagData.analysis .origin config lib image)
        (AprilTagData.analysis .openCV config lib image) ↔
      ¬ Preparable config.configAprilTagData image ∨
        ¬ TooLarge config.configAprilTagData image ∧ image.cols = 0 ∧ image.rows = 0) ∧
    AnalysesAgree
      ((AprilTagData.analysis .origin config lib image).map AprilTagDataObject.withoutSize)
      (AprilTagData.analysis .openCV config lib image) := by
  cases prepared : grayAndResize lib config.configAprilTagData image with
  | error e =>
    obtain ⟨origin, openCV⟩ := analyses_of_error prepared
    have refused : ¬ Preparable config.configAprilTagData image := by
      intro preparable
      obtain ⟨m, ok⟩ := (prepared_iff documented).mpr preparable
      cases prepared.symm.trans ok
    rw [origin, openCV]
    exact ⟨iff_of_true rfl (.inl refused), rfl⟩
  | ok m =>
    obtain ⟨o, origin, openCV, cols, rows⟩ := analyses_of_ok prepared (same m prepared)
    have preparable := (prepared_iff documented).mp ⟨m, prepared⟩
    rw [origin, openCV]
    constructor
    · rw [AnalysesAgree, o.agree_common_iff, cols, rows,
        prepared_without_size_iff documented prepared]
      simp [preparable]
    · exact o.withoutSize.agree_common_iff.mpr ⟨rfl, rfl⟩

/-- A grey image of one pixel without tags: one report says 1 by 1, the other 0 by 0. -/
theorem analyses_report_different_sizes :
    let image : Mat := { cols := 1, rows := 1, data := [0] }
    ¬ AnalysesAgree (AprilTagData.analysis .origin {} .sample image)
      (AprilTagData.analysis .openCV {} .sample image) :=
  fun agree => absurd agree.imageX (by decide)

theorem detecting_documented (detections : List ApriltagDetection) :
    Documented (Libraries.detecting detections) where
  cvtColor image grey h := by
    simp only [Libraries.detecting] at h
    split_ifs at h
    cases h
    exact ⟨rfl, rfl⟩
  resize image small w h ok := by
    simp only [Libraries.detecting] at ok
    split_ifs at ok with takes
    cases ok
    dsimp only
    omega
  cvtColor_ok image := by
    simp only [Libraries.detecting]
    split_ifs with takes <;> simp [takes]
  cvtColor_filled image grey h := by
    simp only [Libraries.detecting] at h
    split_ifs at h with takes
    cases h
    exact takes.1
  resize_ok image w h := by
    simp only [Libraries.detecting]
    split_ifs with takes <;> simp [takes]

/-- Two tags on a colour image that is scaled to 640 by 480 pixels. Both implementations list
them in the same order with the same corners and choose the second one; but for the size the
reports are the same. -/
theorem analyses_agree_but_for_the_size :
    let lib := Libraries.detecting twoTags
    let image : Mat := { cols := 1280, rows := 960, channels := 3, data := [0] }
    ∃ o o', AprilTagData.analysis .origin {} lib image = .ok o ∧
      AprilTagData.analysis .openCV {} lib image = .ok o' ∧
      o.withoutSize.Agree o' ∧ ¬ o.Agree o' ∧
      o'.tagInfo.map AprilTagDataTagInfo.id = [3, 5] ∧
      o'.center.map AprilTagDataTagInfo.id = some 5 := by
  intro lib image
  have means : ∀ det ∈ twoTags,
      det.c = ⟨((det.p 0).x + (det.p 1).x + (det.p 2).x + (det.p 3).x) / 4,
        ((det.p 0).y + (det.p 1).y + (det.p 2).y + (det.p 3).y) / 4⟩ := by decide +kernel
  have agree := analyses_agree_iff lib {} image (detecting_documented _)
    fun _ _ => ⟨rfl, rfl, means⟩
  have preparable : Preparable ({} : Config).configAprilTagData image :=
    ⟨fun _ => ⟨rfl, .inl rfl⟩, fun _ => ⟨rfl, by decide⟩⟩
  have larger : TooLarge ({} : Config).configAprilTagData image := by decide
  have tags : ((AprilTagData.analysis .openCV {} lib image).toOption.map fun o =>
      (o.tagInfo.map AprilTagDataTagInfo.id, o.center.map AprilTagDataTagInfo.id)) =
      some ([3, 5], some 5) := by decide +kernel
  cases openCV : AprilTagData.analysis .openCV {} lib image with
  | error e =>
    rw [openCV] at tags
    cases tags
  | ok o' =>
    cases origin : AprilTagData.analysis .origin {} lib image with
    | error e =>
      rw [origin, openCV] at agree
      exact absurd agree.2 id
    | ok o =>
      rw [origin, openCV] at agree
      rw [openCV] at tags
      obtain ⟨ids, center⟩ := Prod.mk.inj (Option.some.inj tags)
      have differ : ¬ o.Agree o' := fun h =>
        (agree.1.mp h).elim (absurd preparable) fun small => small.1 larger
      exact ⟨o, o', rfl, rfl, agree.2, differ, ids, center⟩

end OwlAprilTagData
