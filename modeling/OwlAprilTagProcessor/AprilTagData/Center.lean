import Mathlib.Tactic.Ring
import Mathlib.Tactic.Linarith
import Mathlib.Algebra.Order.Field.Rat
import OwlAprilTagProcessor.AprilTagData.Analysis
import OwlAprilTagProcessor.Library.FirstMin

/-!
# The centre tag

Both implementations search for the tag nearest to a point and keep the first of several.
The point is the middle of the image in width but, with a 1 for a 2, its lower edge in
height. So the tag found is the nearest to the middle of the lower edge, and it is the
nearest to the centre as well unless another tag lies far enough below that one.
-/

namespace OwlAprilTagData
open Asio OwlTagConfigLoader

def AprilTagDataTagInfo.squaredDistance (x y : Rat) (t : AprilTagDataTagInfo) : Rat :=
  (t.centerX - x) ^ 2 + (t.centerY - y) ^ 2

/-! ## The search -/

section Search

variable {x y : Rat} {tags : List AprilTagDataTagInfo}

theorem miniIndex_cons (p : AprilTagDataTagInfo) (ps : List AprilTagDataTagInfo) (i mini : Nat)
    (d : Rat) :
    miniIndex x y (p :: ps) i mini d =
      if p.squaredDistance x y < d then miniIndex x y ps (i + 1) i (p.squaredDistance x y)
      else miniIndex x y ps (i + 1) mini d := rfl

/-- The rest of the loop, once a candidate has been found among the tags before. -/
theorem miniIndex_firstMin (tags : List AprilTagDataTagInfo)
    {before : List AprilTagDataTagInfo} {mini : Nat} {t : AprilTagDataTagInfo}
    (sofar : FirstMin (·.squaredDistance x y) before mini t) :
    ∃ u, FirstMin (·.squaredDistance x y) (before ++ tags)
      (miniIndex x y tags before.length mini (t.squaredDistance x y)) u := by
  induction tags generalizing before mini t with
  | nil => exact ⟨t, by simpa [miniIndex] using sofar⟩
  | cons p ps ih =>
    rw [miniIndex_cons, List.append_cons]
    split_ifs with nearer
    · simpa using ih (sofar.concat_lt nearer)
    · simpa using ih (sofar.concat_le (not_lt.mp nearer))

theorem vectorAt_of_getElem? {α : Type} {xs : List α} {i : Nat} {a : α}
    (h : xs[i]? = some a) : vectorAt xs i = .ok a := by
  rw [vectorAt, h]

/-- The search finds the first of the tags nearest to the middle of the lower edge. -/
theorem findCenter_firstMin {m : Mat} (nonempty : tags ≠ [])
    (below : ∀ t ∈ tags, t.squaredDistance (m.cols / 2) m.rows < doubleMax) :
    ∃ i t, FirstMin (·.squaredDistance (m.cols / 2) m.rows) tags i t ∧
      findCenter m tags = .ok (some t) := by
  cases tags with
  | nil => exact absurd rfl nonempty
  | cons p ps =>
    -- the first tag is nearer than the value the search starts from
    have first : miniIndex (m.cols / 2) m.rows (p :: ps) 0 0 doubleMax =
        miniIndex (m.cols / 2) m.rows ps 1 0 (p.squaredDistance (m.cols / 2) m.rows) := by
      rw [miniIndex_cons, if_pos (below p List.mem_cons_self)]
    obtain ⟨t, found⟩ := miniIndex_firstMin ps
      (FirstMin.singleton (·.squaredDistance (m.cols / 2 : Rat) m.rows) p)
    refine ⟨_, t, found, ?_⟩
    have value := vectorAt_of_getElem? found.value
    rw [List.singleton_append, List.length_singleton, ← first] at value
    simp [findCenter, value, bind, Except.bind, pure, Except.pure]

end Search

/-! ## The nearest tag -/

/-- `center` is the first of the tags nearest to the centre of `m`, or null without tags. -/
def IsCenterTag (m : Mat) (tags : List AprilTagDataTagInfo) : Option AprilTagDataTagInfo → Prop
  | none => tags = []
  | some t => ∃ i, FirstMin (·.squaredDistance (m.cols / 2) (m.rows / 2)) tags i t

/-- Any other tag is below the one nearest to the centre, if at all, by no more than what
its squared distance to the centre is greater, divided by the height of the image; by less
if it comes before it in the list. -/
def NoneFarBelow (m : Mat) (tags : List AprilTagDataTagInfo) : Prop :=
  ∀ i t, FirstMin (·.squaredDistance (m.cols / 2) (m.rows / 2)) tags i t →
    ∀ j u, tags[j]? = some u →
      m.rows * (u.centerY - t.centerY) ≤
          u.squaredDistance (m.cols / 2) (m.rows / 2) -
            t.squaredDistance (m.cols / 2) (m.rows / 2) ∧
        (j < i → m.rows * (u.centerY - t.centerY) <
          u.squaredDistance (m.cols / 2) (m.rows / 2) -
            t.squaredDistance (m.cols / 2) (m.rows / 2))

section Edge

variable (x rows : Rat) (t u : AprilTagDataTagInfo)

/-- Measuring from the lower edge favours a tag by its height times that of the image. -/
theorem AprilTagDataTagInfo.squaredDistance_edge :
    u.squaredDistance x rows - t.squaredDistance x rows =
      u.squaredDistance x (rows / 2) - t.squaredDistance x (rows / 2) -
        rows * (u.centerY - t.centerY) := by
  unfold squaredDistance
  ring

theorem AprilTagDataTagInfo.squaredDistance_edge_le :
    t.squaredDistance x rows ≤ u.squaredDistance x rows ↔
      rows * (u.centerY - t.centerY) ≤
        u.squaredDistance x (rows / 2) - t.squaredDistance x (rows / 2) := by
  rw [← sub_nonneg, squaredDistance_edge, sub_nonneg]

theorem AprilTagDataTagInfo.squaredDistance_edge_lt :
    t.squaredDistance x rows < u.squaredDistance x rows ↔
      rows * (u.centerY - t.centerY) <
        u.squaredDistance x (rows / 2) - t.squaredDistance x (rows / 2) := by
  rw [← sub_pos, squaredDistance_edge, sub_pos]

end Edge

theorem isCenterTag_iff {m : Mat} {tags : List AprilTagDataTagInfo} {k : Nat}
    {t : AprilTagDataTagInfo}
    (found : FirstMin (·.squaredDistance (m.cols / 2) m.rows) tags k t) :
    IsCenterTag m tags (some t) ↔ NoneFarBelow m tags := by
  constructor
  · rintro ⟨i, nearest⟩ i' t' nearest' j u hu
    obtain ⟨rfl, rfl⟩ := nearest.unique nearest'
    obtain rfl := nearest.index_unique found
    exact ⟨(AprilTagDataTagInfo.squaredDistance_edge_le ..).mp (found.least j u hu),
      fun before => (AprilTagDataTagInfo.squaredDistance_edge_lt ..).mp (found.first j u before hu)⟩
  · intro clear
    have nonempty : tags ≠ [] := by
      rintro rfl
      exact absurd found.value (by simp)
    obtain ⟨i, u, nearest⟩ := FirstMin.exists_of_ne_nil
      (f := (·.squaredDistance (m.cols / 2 : Rat) (m.rows / 2))) nonempty
    have lowest : FirstMin (·.squaredDistance (m.cols / 2) m.rows) tags i u := by
      refine ⟨nearest.value, ?_, ?_⟩
      · intro j v hv
        exact (AprilTagDataTagInfo.squaredDistance_edge_le ..).mpr (clear i u nearest j v hv).1
      · intro j v before hv
        exact (AprilTagDataTagInfo.squaredDistance_edge_lt ..).mpr
          ((clear i u nearest j v hv).2 before)
    obtain ⟨rfl, rfl⟩ := lowest.unique found
    exact ⟨i, nearest⟩

/-! ## The analyses -/

/-- The tags an implementation lists for a prepared image. -/
def AprilTagDataImpl.tagInfo (impl : AprilTagDataImpl) (config : Config) (lib : Libraries)
    (m : Mat) : Except Exception (List AprilTagDataTagInfo) :=
  match impl with
  | .origin =>
    .ok ((lib.apriltag_detector_detect (AprilTagDataOriginImpl.make config).td m).map
      AprilTagDataOriginImpl.tagInfo)
  | .openCV =>
    (List.range (lib.detectMarkers m).1.length).mapM
      (AprilTagDataOpenCVImpl.tagInfo (lib.detectMarkers m).1 (lib.detectMarkers m).2)

/-- The result with these tags; only one implementation sets the size. -/
def AprilTagDataImpl.result (m : Mat) (tagInfo : List AprilTagDataTagInfo)
    (center : Option AprilTagDataTagInfo) : AprilTagDataImpl → AprilTagDataObject
  | .origin => { tagInfo, center, imageX := m.cols, imageY := m.rows }
  | .openCV => { tagInfo, center }

theorem analysis_eq (impl : AprilTagDataImpl) (config : Config) (lib : Libraries) (image : Mat) :
    AprilTagData.analysis impl config lib image = (do
      let m ← grayAndResize lib config.configAprilTagData image
      let tagInfo ← impl.tagInfo config lib m
      let center ← findCenter m tagInfo
      pure (impl.result m tagInfo center)) := by
  cases impl <;> rfl

/-- On a prepared image, with the tags that are found on it. -/
theorem analysis_of_prepared (impl : AprilTagDataImpl) {config : Config} {lib : Libraries}
    {image m : Mat} {tags : List AprilTagDataTagInfo} {center : Option AprilTagDataTagInfo}
    (prepared : grayAndResize lib config.configAprilTagData image = .ok m)
    (detected : impl.tagInfo config lib m = .ok tags) (found : findCenter m tags = .ok center) :
    AprilTagData.analysis impl config lib image = .ok (impl.result m tags center) := by
  rw [analysis_eq, prepared]
  simp [bind, Except.bind, detected, found, pure, Except.pure]

/-- The tag chosen is the one nearest to the centre of the image exactly when no other tag
lies far below that one; without tags there is none. -/
theorem center_is_nearest_iff (impl : AprilTagDataImpl) (config : Config) (lib : Libraries)
    (image m : Mat) (tags : List AprilTagDataTagInfo)
    (prepared : grayAndResize lib config.configAprilTagData image = .ok m)
    (detected : impl.tagInfo config lib m = .ok tags)
    (below : ∀ t ∈ tags, t.squaredDistance (m.cols / 2) m.rows < doubleMax) :
    ∃ o, AprilTagData.analysis impl config lib image = .ok o ∧ o.tagInfo = tags ∧
      (IsCenterTag m o.tagInfo o.center ↔ NoneFarBelow m tags) := by
  rcases eq_or_ne tags [] with rfl | nonempty
  · refine ⟨_, analysis_of_prepared impl prepared detected rfl, ?_, ?_⟩
    · cases impl <;> rfl
    · have clear : NoneFarBelow m [] := fun i t nearest => absurd nearest.value (by simp)
      cases impl <;> simp [AprilTagDataImpl.result, IsCenterTag, clear]
  · obtain ⟨k, t, found, chosen⟩ := findCenter_firstMin nonempty below
    refine ⟨_, analysis_of_prepared impl prepared detected chosen, ?_, ?_⟩
    · cases impl <;> rfl
    · cases impl <;> exact isCenterTag_iff found

/-- Two tags on an image of 640 by 480 pixels, one at its centre, the other at the middle of
its lower edge: the second one is chosen. -/
theorem tag_at_the_edge_is_chosen :
    let lib := { Libraries.sample with
      apriltag_detector_detect := fun _ _ => [.sample 0 320 240, .sample 1 320 480] }
    let image : Mat := { cols := 640, rows := 480 }
    ¬ ∀ o, AprilTagData.analysis .origin {} lib image = .ok o →
      IsCenterTag image o.tagInfo o.center := by
  intro lib image h
  have chosen : findCenter image ([.sample 0 320 240, .sample 1 320 480].map
      AprilTagDataOriginImpl.tagInfo) =
      .ok (some (AprilTagDataOriginImpl.tagInfo (.sample 1 320 480))) := by decide +kernel
  obtain ⟨i, nearest⟩ := h _ (analysis_of_prepared .origin rfl rfl chosen)
  have least := nearest.least 0 _ rfl
  revert least
  decide +kernel

/-- With the two tags at the same height above and below the centre, the one below is chosen,
as it is the first of the nearest. -/
theorem first_of_two_tags_is_chosen :
    let lib := { Libraries.sample with
      apriltag_detector_detect := fun _ _ => [.sample 0 320 241, .sample 1 320 239] }
    let image : Mat := { cols := 640, rows := 480 }
    ∃ o, AprilTagData.analysis .origin {} lib image = .ok o ∧
      (IsCenterTag image o.tagInfo o.center ↔ NoneFarBelow image
        ([.sample 0 320 241, .sample 1 320 239].map AprilTagDataOriginImpl.tagInfo)) := by
  intro lib image
  obtain ⟨o, analysed, -, iff⟩ := center_is_nearest_iff .origin {} lib image image _ rfl rfl
    (by decide +kernel)
  exact ⟨o, analysed, iff⟩

end OwlAprilTagData
