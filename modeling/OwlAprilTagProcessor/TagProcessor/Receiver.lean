import OwlAprilTagProcessor.AprilTagData.Agreement
import OwlAprilTagProcessor.AprilTagData.Report
import OwlAprilTagProcessor.TagProcessor.Correspondence

/-!
# What the two servers see

The program speaks to two servers. All its requests go to the two configured addresses, and
what the receiver of the reports reads, POST after POST, are the detections on the accepted
frames: nothing is lost between the detector and the receiver, and no report is larger than the
configured size.
-/

/-! ## The reports -/

namespace OwlAprilTagData
open Asio OwlTagConfigLoader Json

/-- The report on a frame: the detections on the prepared image and its size, which is not
above the configured one; a centre tag among them, and the nearest one if the detections lie
within the sentinel of the search. -/
structure Describes (config : Config) (lib : Libraries) (image : Mat) (report : ReceivedReport) :
    Prop where
  detected : ∃ m, grayAndResize lib config.configAprilTagData image = .ok m ∧
    report.tagList = lib.apriltag_detector_detect 2 m ∧
    report.imageX = m.cols ∧ report.imageY = m.rows
  size : Sized lib → report.imageX ≤ config.configAprilTagData.resizeWidth.toInt ∧
    report.imageY ≤ config.configAprilTagData.resizeHeight.toInt
  absent : report.centerTag = none ↔ report.tagList = []
  listed : ∀ det, report.centerTag = some det → det ∈ report.tagList
  nearest : (∀ det ∈ report.tagList,
    squaredDistance (report.imageX / 2) report.imageY det < doubleMax) → report.CenterFound

section Describe

variable {config : Config} {lib : Libraries} {image m : Mat}

theorem prepared_size (sized : Sized lib)
    (prepared : grayAndResize lib config.configAprilTagData image = .ok m) :
    (m.cols : Int) ≤ config.configAprilTagData.resizeWidth.toInt ∧
      (m.rows : Int) ≤ config.configAprilTagData.resizeHeight.toInt := by
  obtain ⟨resized, kept⟩ := prepared_size_eq sized prepared
  by_cases larger : TooLarge config.configAprilTagData image
  · have size := resized larger
    omega
  · obtain ⟨cols, rows⟩ := kept larger
    rw [TooLarge] at larger
    omega

/-- The search chooses one of the detections, and none only where there is none. -/
theorem findCenter_listed {detections : List ApriltagDetection}
    {center : Option AprilTagDataTagInfo}
    (found : findCenter m (detections.map AprilTagDataOriginImpl.tagInfo) = .ok center) :
    ∃ chosen : Option ApriltagDetection, center = chosen.map AprilTagDataOriginImpl.tagInfo ∧
      (chosen = none ↔ detections = []) ∧ ∀ det, chosen = some det → det ∈ detections := by
  rcases eq_or_ne detections [] with rfl | nonempty
  · obtain rfl : none = center := Except.ok.inj found
    exact ⟨none, rfl, by simp, by simp⟩
  · have filled : (detections.map AprilTagDataOriginImpl.tagInfo).isEmpty = false := by
      simpa using nonempty
    rw [findCenter, filled] at found
    simp only [Bool.false_eq_true, if_false] at found
    generalize miniIndex _ _ _ 0 0 doubleMax = i at found
    rw [vectorAt, List.getElem?_map] at found
    cases hi : detections[i]? with
    | none => simp [hi, bind, Except.bind] at found
    | some det =>
      simp only [hi, Option.map_some, bind, Except.bind, pure, Except.pure, Except.ok.injEq]
        at found
      refine ⟨some det, found.symm, by simpa using nonempty, ?_⟩
      rintro _ ⟨⟩
      exact List.mem_of_getElem? hi

/-- The thirteen fields tell two detections apart. -/
theorem tagInfo_injective : Function.Injective AprilTagDataOriginImpl.tagInfo := by
  intro det det' same
  have read := congrArg (fun t => readDetection t.to_json_value) same
  simpa [readDetection_to_json] using read

/-- With a parser that inverts the serializer a receiver reads what was detected. -/
theorem analysis_describes {o : AprilTagDataObject} {parse : String → Option Value}
    (inverts : parse (lib.serialize o.to_json_value) = some o.to_json_value.parsed)
    (analysed : AprilTagData.analysis .origin config lib image = .ok o) :
    ∃ report, (parse (aprilTagDataObject2ResultType lib o).body).bind readReport = some report ∧
      Describes config lib image report := by
  rw [analysis_eq] at analysed
  cases prepared : grayAndResize lib config.configAprilTagData image with
  | error x => simp [prepared, bind, Except.bind] at analysed
  | ok m =>
    simp only [prepared, bind, Except.bind, AprilTagDataImpl.tagInfo] at analysed
    cases found : findCenter m ((lib.apriltag_detector_detect
        (AprilTagDataOriginImpl.make config).td m).map AprilTagDataOriginImpl.tagInfo) with
    | error x => simp [found] at analysed
    | ok center =>
      obtain ⟨chosen, rfl, absent, listed⟩ := findCenter_listed found
      simp only [found, pure, Except.pure, Except.ok.injEq] at analysed
      have built : reported _ chosen m.cols m.rows = o := analysed
      subst built
      refine ⟨⟨lib.apriltag_detector_detect 2 m, m.cols, m.rows, chosen⟩, ?_,
        ⟨m, prepared, rfl, rfl, rfl⟩, ?_, absent, listed, ?_⟩
      · rw [aprilTagDataObject2ResultType, inverts, Option.bind_some, readReport_parsed,
          readReport_reported]
        rfl
      · exact fun sized => prepared_size sized prepared
      · intro below
        obtain ⟨center, found', nearest⟩ :=
          findCenter_detections (m := m) (by simpa using below)
        have same : center = chosen :=
          Option.map_injective tagInfo_injective (Except.ok.inj (found'.symm.trans found))
        exact same ▸ nearest

end Describe

end OwlAprilTagData

/-! ## The requests -/

namespace OwlTagProcessor
open Asio Transition Session OwlGetImage OwlSendResult OwlAprilTagData Json

/-- The request for the configured image. -/
def Env.imageRequest (env : Env) : Http.Request :=
  let c := env.config.configGetImage
  { host := c.host, port := c.port, version := c.version, method := .get, target := c.target
    body := "" }

/-- A report to the configured receiver, whose target has been read as `url`. -/
def Env.reportRequest (env : Env) (url body : String) : Http.Request :=
  let c := env.config.configSendResult
  { host := c.host, port := c.port, version := c.version, method := .post, target := url, body }

/-- Every session was started by a request to the configured address. -/
structure Addressed (env : Env) (lib : Libraries) (s : ProgramState) : Prop where
  gets : ∀ g ∈ s.gets,
    g.req_ = env.imageRequest ∧ g.timeoutMs_ = env.config.configGetImage.timeoutMs
  sends : ∀ p ∈ s.sends,
    (∃ url body, lib.url env.config.configSendResult.target = some url ∧
      p.req_ = env.reportRequest url body) ∧
    p.timeoutMs_ = env.config.configSendResult.timeoutMs

theorem started_addressed (env : Env) (lib : Libraries) : Addressed env lib (started env) :=
  ⟨by simp [started, start], by simp [started, start]⟩

/-- The reports of the program carry no parameters, so the URL is sent as it was read. -/
theorem send_addressed {env : Env} {lib : Libraries} {data : AprilTagResultType}
    {p : SendResultSession} (plain : data.params = [])
    (h : (Net.program lib).send (env.sendRequest data) = some p) :
    (∃ url body, lib.url env.config.configSendResult.target = some url ∧
      p.req_ = env.reportRequest url body) ∧
      p.timeoutMs_ = env.config.configSendResult.timeoutMs := by
  simp only [Net.program, Option.ite_none_left_eq_some, Option.some.injEq] at h
  obtain ⟨clean, rfl⟩ := h
  cases parsed : lib.url env.config.configSendResult.target with
  | none => simp [SendResult.send, SendResultSession.run, Env.sendRequest, parsed] at clean
  | some url =>
    refine ⟨⟨url, data.body, rfl, ?_⟩, ?_⟩ <;>
      simp [SendResult.send, SendResultSession.run, Env.sendRequest, parsed, plain,
        Env.reportRequest, HttpSession.make]

theorem step_addressed {env : Env} {lib : Libraries} {s s' : ProgramState} {e : ProgramEvent}
    (plain : ∀ o, (env.resultType o).params = []) (inv : Addressed env lib s)
    (h : step env (Net.program lib) s e = some s') : Addressed env lib s' := by
  cases step_stepped h with
  | start | expire | abort | getRearm | sendRearm | flush => exact ⟨inv.gets, inv.sends⟩
  | fetch rest g hr hg =>
    obtain rfl := Option.some.inj hg
    refine ⟨?_, inv.sends⟩
    exact List.forall_mem_append.mpr ⟨inv.gets, List.forall_mem_singleton.mpr ⟨rfl, rfl⟩⟩
  | send r rest o p hr hec hok himg ho hp =>
    refine ⟨inv.gets, ?_⟩
    exact List.forall_mem_append.mpr
      ⟨inv.sends, List.forall_mem_singleton.mpr (send_addressed (plain o) hp)⟩
  | get i a g g' reports hg hstep =>
    obtain ⟨one, -, -⟩ := reporting_eq_some hstep
    obtain ⟨req, timeout, -⟩ := HttpSession.step_frame one
    have before := inv.gets g (List.mem_of_getElem? hg)
    exact ⟨by grind [inv.gets], inv.sends⟩
  | sent i b p p' reports hp hstep =>
    obtain ⟨one, -, -⟩ := reporting_eq_some hstep
    obtain ⟨req, timeout, -⟩ := HttpSession.step_frame one
    have before := inv.sends p (List.mem_of_getElem? hp)
    refine ⟨inv.gets, fun q hq => ?_⟩
    rcases List.mem_or_eq_of_mem_set hq with old | rfl
    · exact inv.sends q old
    · rwa [req, timeout]

/-- In every run all requests go to the two configured addresses, with the configured
timeouts: GETs for the image and POSTs of reports, and a POST only to a target that is a URI. -/
theorem requests_are_addressed (config : OwlTagConfigLoader.Config) (impl : AprilTagDataImpl)
    (lib : Libraries) (clock : SteadyClock) (es : List ProgramEvent) (s : ProgramState)
    (run : exec (step (.program config impl lib clock) (Net.program lib))
      (started (.program config impl lib clock)) es = some s) :
    Addressed (.program config impl lib clock) lib s :=
  exec_invariant (fun _ => True) (fun _ _ _ _ inv h => step_addressed (fun _ => rfl) inv h)
    (started_addressed _ lib) (fun _ _ => trivial) run

/-- A frame of the camera, from the first expiry to its report. -/
def oneFrame : List ProgramEvent :=
  [.expire, .run, .get 0 (.resolved 0 .success), .get 0 (.connected 0 .success),
    .get 0 (.written .success),
    .get 0 (.read .success ⟨200, [(.contentType, "image/jpeg"), (.xImageFormat, "jpg")],
      [0xff, 0xd8]⟩ .success), .run]

theorem one_frame_is_addressed :
    ∃ s, exec (step .sample (Net.program .sample)) (started .sample) oneFrame = some s ∧
      (s.gets.length, s.sends.length) = (1, 1) ∧ Addressed .sample .sample s := by
  have requests : (exec (step .sample (Net.program .sample)) (started .sample) oneFrame).map
      (fun s => (s.gets.length, s.sends.length)) = some (1, 1) := by decide +kernel
  obtain ⟨s, run, requests⟩ := Option.map_eq_some_iff.mp requests
  exact ⟨s, run, requests, requests_are_addressed {} .origin .sample _ oneFrame s run⟩

/-- Posting a report and receiving it: in every run the bodies of the POSTs, in order, read
back as reports on the accepted frames, in order, if the parser inverts the serializer on the
reports posted. -/
theorem receiver_reads_the_detections (config : OwlTagConfigLoader.Config) (lib : Libraries)
    (clock : SteadyClock) (parse : String → Option Value) (es : List ProgramEvent)
    (s : ProgramState)
    (run : exec (step (.program config .origin lib clock) (Net.program lib))
      (started (.program config .origin lib clock)) es = some s)
    (inverts : ∀ image ∈ s.handledFrames, ∀ o,
      AprilTagData.analysis .origin config lib image = .ok o →
      parse (lib.serialize o.to_json_value) = some o.to_json_value.parsed) :
    es.filterMap (ProgramEvent.frame? lib) = s.handledFrames ++ s.queuedFrames ∧
      List.Forall₂ (fun image p => ∃ report,
        (parse p.req_.body).bind readReport = some report ∧ Describes config lib image report)
        s.handledFrames s.sends := by
  have inv : Corresponds (.program config .origin lib clock) lib es s :=
    exec_induction (started_corresponds _ lib) (fun _ _ _ _ _ inv h => step_corresponds inv h) run
  refine ⟨inv.frames, ?_⟩
  have bodies : List.Forall₂
      (fun image p => Env.reportBody (.program config .origin lib clock) image = .ok p.req_.body)
      s.handledFrames s.sends := by
    have same := inv.bodies.symm
    rw [← List.forall₂_eq_eq_eq, List.forall₂_map_left_iff, List.forall₂_map_right_iff] at same
    exact same
  refine ((List.forall₂_and_left _ _).mpr ⟨inverts, bodies⟩).imp fun image p ⟨inverts, body⟩ => ?_
  cases analysed : AprilTagData.analysis .origin config lib image with
  | error x => simp [Env.reportBody, Env.program, analysed, Except.map] at body
  | ok o =>
    obtain ⟨report, reads, describes⟩ := analysis_describes (inverts o analysed) analysed
    have sent : (aprilTagDataObject2ResultType lib o).body = p.req_.body := by
      simpa [Env.reportBody, Env.program, analysed, Except.map] using body
    exact ⟨report, sent ▸ reads, describes⟩

/-- A frame with two tags: the receiver of the report reads both of them. -/
theorem two_tags_are_received :
    let env : Env := .program {} .origin seeingTwoTags Env.sample.clock
    ∃ s, exec (step env (Net.program seeingTwoTags)) (started env) oneFrame = some s ∧
      s.handledFrames = [{ cols := 640, rows := 480, data := [0] }] ∧
      List.Forall₂ (fun image p => ∃ report,
        (parseTwoTags p.req_.body).bind readReport = some report ∧
          Describes {} seeingTwoTags image report) s.handledFrames s.sends := by
  intro env
  have posted : (exec (step env (Net.program seeingTwoTags)) (started env) oneFrame).map
      State.handledFrames = some [{ cols := 640, rows := 480, data := [0] }] := by decide +kernel
  obtain ⟨s, run, frames⟩ := Option.map_eq_some_iff.mp posted
  have inverts : ∀ image ∈ s.handledFrames, ∀ o,
      AprilTagData.analysis .origin {} seeingTwoTags image = .ok o →
      parseTwoTags (seeingTwoTags.serialize o.to_json_value) = some o.to_json_value.parsed := by
    intro image member o analysed
    obtain rfl := List.mem_singleton.mp (frames ▸ member)
    obtain rfl : twoTagsReported = o := Except.ok.inj (twoTags_analysis.symm.trans analysed)
    exact if_pos rfl
  obtain ⟨-, received⟩ := receiver_reads_the_detections {} seeingTwoTags Env.sample.clock
    parseTwoTags oneFrame s run inverts
  exact ⟨s, run, frames, received⟩

end OwlTagProcessor
