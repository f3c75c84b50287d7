import Mathlib.Data.Rat.Lemmas
import Mathlib.Data.Set.Basic
import Mathlib.Tactic.SplitIfs
import OwlAprilTagProcessor.ConfigLoader.TagConfigLoader

/-!
# What a configuration file sets

Each field has a path, its section and its key. Loading gives a field the value at its path
if the document has one there that the type of the field represents, and the compiled-in
default otherwise, whatever the other paths hold and whatever was loaded before.
-/

namespace Json
open Asio

/-! ## Conversions -/

/-- The number a value stands for. -/
def Value.number? : Value → Option Rat
  | .int64 i => some i
  | .uint64 n => some n
  | .double q => some q
  | _ => none

/-- `x` is `v`, without loss. -/
def ValueType.Represents (v : Value) : (t : ValueType) → t.Carrier → Prop
  | .int, x => v.number? = some (x.toInt : Rat)
  | .long, x => v.number? = some (x.toInt : Rat)
  | .string, x => v = .string x

theorem toIntegral_eq_some {v : Value} {min max i : Int} :
    v.toIntegral min max = some i ↔ v.number? = some (i : Rat) ∧ min ≤ i ∧ i ≤ max := by
  cases v with
  | int64 j =>
    simp only [Value.toIntegral, Value.number?, Option.some.injEq, Rat.intCast_inj]
    grind
  | uint64 n =>
    simp only [Value.toIntegral, Value.number?, Option.some.injEq, ← Rat.intCast_natCast,
      Rat.intCast_inj]
    grind
  | double q =>
    have whole : q.den = 1 ∧ q.num = i ↔ q = i := by
      constructor
      · rintro ⟨den, rfl⟩
        exact (Rat.den_eq_one_iff q).mp den |>.symm
      · rintro rfl
        exact ⟨Rat.den_intCast i, Rat.num_intCast i⟩
    simp only [Value.toIntegral, Value.number?, Option.some.injEq, ← whole]
    grind
  | null | bool | string | array | object => simp [Value.toIntegral, Value.number?]

/-- The conversion gives exactly the value that represents its argument. -/
theorem tryValueTo_eq_some {t : ValueType} {v : Value} {x : t.Carrier} :
    tryValueTo t v = some x ↔ t.Represents v x := by
  cases t with
  | int =>
    simp only [tryValueTo, ValueType.Represents, Option.map_eq_some_iff, toIntegral_eq_some]
    constructor
    · rintro ⟨i, ⟨number, least, most⟩, rfl⟩
      rw [Int32.toInt_ofInt_of_le (by omega) (by omega)]
      exact number
    · intro number
      have least := Int32.le_toInt x
      have most := Int32.toInt_lt x
      exact ⟨x.toInt, ⟨number, by omega, by omega⟩, Int32.ofInt_toInt x⟩
  | long =>
    simp only [tryValueTo, ValueType.Represents, Option.map_eq_some_iff, toIntegral_eq_some]
    constructor
    · rintro ⟨i, ⟨number, least, most⟩, rfl⟩
      rw [Int64.toInt_ofInt_of_le (by omega) (by omega)]
      exact number
    · intro number
      have least := Int64.le_toInt x
      have most := Int64.toInt_lt x
      exact ⟨x.toInt, ⟨number, by omega, by omega⟩, Int64.ofInt_toInt x⟩
  | string => cases v <;> simp [tryValueTo, ValueType.Represents, eq_comm]

/-- The value under a section and a key. -/
def Object.member (root : Object) (path : String × String) : Option Value :=
  (root.lookup path.1).bind (Value.get? path.2)

end Json

namespace OwlTagConfigLoader
open Asio Json

/-! ## Reading one field -/

section Read

variable {t : ValueType} {v root : Object} {key name : String} {d : t.Carrier}

theorem get_eq : get t v key d = ((v.lookup key).bind (tryValueTo t)).getD d := by
  rcases found : v.lookup key with _ | value
  · simp [get, Object.contains, found, catching, pure, Except.pure]
  · rcases converted : tryValueTo t value with _ | x <;>
      simp [get, Object.contains, Object.at, found, converted, catching, bind, Except.bind, pure,
        Except.pure]

theorem lookup_getObj : (getObj root name).lookup key = root.member (name, key) := by
  rcases found : root.lookup name with _ | value
  · simp [getObj, Object.contains, Object.member, found, catching, pure, Except.pure]
  · cases value <;>
      simp [getObj, Object.contains, Object.at, Object.member, Value.get?, Value.asObject, found,
        catching, bind, Except.bind]

/-- What a section reads into one of its fields, present or not. -/
theorem parseSection_get {α : Type} (t : ValueType) {read : α → Object → α} {init : α}
    (f : α → t.Carrier) (reads : ∀ v, f (read init v) = get t v key (f init)) :
    f (parseSection root name read init) =
      ((root.member (name, key)).bind (tryValueTo t)).getD (f init) := by
  unfold parseSection
  split_ifs with present
  · rw [reads, get_eq, lookup_getObj]
  · have missing : root.lookup name = none := Option.not_isSome_iff_eq_none.mp present
    simp [Object.member, missing]

end Read

/-! ## The fields -/

/-- The two sections that describe a server. -/
inductive Server where
  | getImage | sendResult
  deriving DecidableEq, Repr

/-- The seventeen fields, by type. -/
inductive Field : ValueType → Type where
  | timeStartMs : Field .long
  | timeDurationMs : Field .long
  | timeoutCountLimit : Field .long
  | timeDurationMini : Field .long
  | resizeWidth : Field .int
  | resizeHeight : Field .int
  | aprilTagDetectorMaxHammingBitsCorrected : Field .int
  | host (server : Server) : Field .string
  | port (server : Server) : Field .string
  | target (server : Server) : Field .string
  | version (server : Server) : Field .int
  | timeoutMs (server : Server) : Field .long

def Server.name : Server → String
  | .getImage => "configGetImage"
  | .sendResult => "configSendResult"

namespace Field

variable {t : ValueType}

/-- Section and key. -/
def path : Field t → String × String
  | timeStartMs => ("configTagProcessor", "timeStartMs")
  | timeDurationMs => ("configTagProcessor", "timeDurationMs")
  | timeoutCountLimit => ("configTagProcessor", "timeoutCountLimit")
  | timeDurationMini => ("configTagProcessor", "timeDurationMini")
  | resizeWidth => ("configAprilTagData", "resizeWidth")
  | resizeHeight => ("configAprilTagData", "resizeHeight")
  | aprilTagDetectorMaxHammingBitsCorrected =>
    ("configAprilTagData", "aprilTagDetectorMaxHammingBitsCorrected")
  | host server => (server.name, "host")
  | port server => (server.name, "port")
  | target server => (server.name, "target")
  | version server => (server.name, "version")
  | timeoutMs server => (server.name, "timeoutMs")

def value (config : Config) : {t : ValueType} → Field t → t.Carrier
  | _, timeStartMs => config.configTagProcessor.timeStartMs
  | _, timeDurationMs => config.configTagProcessor.timeDurationMs
  | _, timeoutCountLimit => config.configTagProcessor.timeoutCountLimit
  | _, timeDurationMini => config.configTagProcessor.timeDurationMini
  | _, resizeWidth => config.configAprilTagData.resizeWidth
  | _, resizeHeight => config.configAprilTagData.resizeHeight
  | _, aprilTagDetectorMaxHammingBitsCorrected =>
    config.configAprilTagData.aprilTagDetectorMaxHammingBitsCorrected
  | _, host .getImage => config.configGetImage.host
  | _, port .getImage => config.configGetImage.port
  | _, target .getImage => config.configGetImage.target
  | _, version .getImage => config.configGetImage.version
  | _, timeoutMs .getImage => config.configGetImage.timeoutMs
  | _, host .sendResult => config.configSendResult.host
  | _, port .sendResult => config.configSendResult.port
  | _, target .sendResult => config.configSendResult.target
  | _, version .sendResult => config.configSendResult.version
  | _, timeoutMs .sendResult => config.configSendResult.timeoutMs

/-- There is no more to a configuration than its fields. -/
theorem ext_value {c c' : Config} (h : ∀ (t : ValueType) (f : Field t), f.value c = f.value c') :
    c = c' := by
  obtain ⟨⟨⟩, ⟨⟩, ⟨⟩, ⟨⟩⟩ := c
  obtain ⟨⟨⟩, ⟨⟩, ⟨⟩, ⟨⟩⟩ := c'
  simp only [Config.mk.injEq, ConfigTagProcessor.mk.injEq, ConfigAprilTagData.mk.injEq,
    ConfigGetImage.mk.injEq, ConfigSendResult.mk.injEq]
  exact ⟨⟨h _ timeStartMs, h _ timeDurationMs, h _ timeoutCountLimit, h _ timeDurationMini⟩,
    ⟨h _ resizeWidth, h _ resizeHeight, h _ aprilTagDetectorMaxHammingBitsCorrected⟩,
    ⟨h _ (host .getImage), h _ (port .getImage), h _ (target .getImage), h _ (version .getImage),
      h _ (timeoutMs .getImage)⟩,
    h _ (host .sendResult), h _ (port .sendResult), h _ (target .sendResult),
    h _ (version .sendResult), h _ (timeoutMs .sendResult)⟩

/-- The value the field gets from a document: the one at its path if it converts without loss,
the compiled-in default otherwise. -/
structure Gets (f : Field t) (root : Object) (x : t.Carrier) : Prop where
  converted : ∀ v y, root.member f.path = some v → t.Represents v y → x = y
  default : (∀ v y, root.member f.path = some v → ¬ t.Represents v y) → x = f.value {}

theorem gets_iff {f : Field t} {root : Object} {x : t.Carrier} :
    f.Gets root x ↔ x = ((root.member f.path).bind (tryValueTo t)).getD (f.value {}) := by
  rcases converted : (root.member f.path).bind (tryValueTo t) with _ | y
  · have none_represents : ∀ v z, root.member f.path = some v → ¬ t.Represents v z := by
      intro v z found represents
      rw [found, Option.bind_some, tryValueTo_eq_some.mpr represents] at converted
      contradiction
    constructor
    · intro h
      exact h.default none_represents
    · intro default
      exact ⟨fun v z found represents => absurd represents (none_represents v z found),
        fun _ => default⟩
  · obtain ⟨v, found, converts⟩ := Option.bind_eq_some_iff.mp converted
    have represents := tryValueTo_eq_some.mp converts
    constructor
    · intro h
      exact h.converted v y found represents
    · rintro rfl
      refine ⟨?_, fun none_represents => absurd represents (none_represents v _ found)⟩
      intro w z found' represents'
      rw [found, Option.some.injEq] at found'
      subst found'
      rw [← tryValueTo_eq_some, converts] at represents'
      exact Option.some.inj represents'

/-- All fields of the result, one path each. -/
theorem gets_parseJson (root : Object) :
    ∃ config, parseJson (.object root) = .ok config ∧
      ∀ (t : ValueType) (f : Field t), f.Gets root (f.value config) := by
  refine ⟨_, rfl, ?_⟩
  intro t f
  rw [gets_iff]
  cases f with
  | timeStartMs => exact parseSection_get .long ConfigTagProcessor.timeStartMs fun _ => rfl
  | timeDurationMs => exact parseSection_get .long ConfigTagProcessor.timeDurationMs fun _ => rfl
  | timeoutCountLimit =>
    exact parseSection_get .long ConfigTagProcessor.timeoutCountLimit fun _ => rfl
  | timeDurationMini =>
    exact parseSection_get .long ConfigTagProcessor.timeDurationMini fun _ => rfl
  | resizeWidth => exact parseSection_get .int ConfigAprilTagData.resizeWidth fun _ => rfl
  | resizeHeight => exact parseSection_get .int ConfigAprilTagData.resizeHeight fun _ => rfl
  | aprilTagDetectorMaxHammingBitsCorrected =>
    exact parseSection_get .int ConfigAprilTagData.aprilTagDetectorMaxHammingBitsCorrected
      fun _ => rfl
  | host server =>
    cases server with
    | getImage => exact parseSection_get .string ConfigGetImage.host fun _ => rfl
    | sendResult => exact parseSection_get .string ConfigSendResult.host fun _ => rfl
  | port server =>
    cases server with
    | getImage => exact parseSection_get .string ConfigGetImage.port fun _ => rfl
    | sendResult => exact parseSection_get .string ConfigSendResult.port fun _ => rfl
  | target server =>
    cases server with
    | getImage => exact parseSection_get .string ConfigGetImage.target fun _ => rfl
    | sendResult => exact parseSection_get .string ConfigSendResult.target fun _ => rfl
  | version server =>
    cases server with
    | getImage => exact parseSection_get .int ConfigGetImage.version fun _ => rfl
    | sendResult => exact parseSection_get .int ConfigSendResult.version fun _ => rfl
  | timeoutMs server =>
    cases server with
    | getImage => exact parseSection_get .long ConfigGetImage.timeoutMs fun _ => rfl
    | sendResult => exact parseSection_get .long ConfigSendResult.timeoutMs fun _ => rfl

theorem Gets.unique {f : Field t} {root : Object} {x y : t.Carrier} (hx : f.Gets root x)
    (hy : f.Gets root y) : x = y :=
  (gets_iff.mp hx).trans (gets_iff.mp hy).symm

/-- A field depends on nothing but its own path. -/
theorem Gets.congr {f : Field t} {root root' : Object} {x : t.Carrier} (h : f.Gets root x)
    (same : root.member f.path = root'.member f.path) : f.Gets root' x := by
  rw [gets_iff, ← same]
  exact gets_iff.mp h

end Field

/-! ## Loading -/

section Init

variable (parser : String → Option Value)

/-- The file cannot be read, is not JSON, or its root is not an object. -/
def NoDocument (file : Option String) : Prop :=
  file = none ∨ file.bind parser = none ∨
    ∃ v, file.bind parser = some v ∧ v.isObject = false

theorem noDocument_or (file : Option String) :
    NoDocument parser file ∨ ∃ root, file.bind parser = some (.object root) := by
  rcases parsed : file.bind parser with _ | v
  · exact .inl (.inr (.inl parsed))
  · cases v with
    | object root => exact .inr ⟨root, rfl⟩
    | null | bool | int64 | uint64 | double | string | array =>
      exact .inl (.inr (.inr ⟨_, parsed, rfl⟩))

/-- The loader has just taken its configuration from a file that holds this document. -/
def TagConfigLoader.Loaded (root : Object) (self : TagConfigLoader) : Prop :=
  ∃ before file, file.bind parser = some (.object root) ∧
    TagConfigLoader.init before parser file = .ok self

theorem init_of_no_document (self : TagConfigLoader) {file : Option String}
    (nothing : NoDocument parser file) : self.init parser file = .ok self := by
  have other : (loadJsonFile parser file).isObject = false := by
    cases file with
    | none => rfl
    | some text =>
      rcases nothing with missing | invalid | ⟨v, parsed, other⟩
      · contradiction
      · rw [Option.bind_some] at invalid
        rw [loadJsonFile, invalid]
        rfl
      · rw [Option.bind_some] at parsed
        rw [loadJsonFile, parsed]
        exact other
  simp [TagConfigLoader.init, other]
  rfl

theorem init_of_document (self : TagConfigLoader) {file : Option String} {root : Object}
    (parsed : file.bind parser = some (.object root)) :
    ∃ new, self.init parser file = .ok new ∧
      ∀ (t : ValueType) (f : Field t), f.Gets root (f.value new.config) := by
  have document : loadJsonFile parser file = .object root := by
    cases file with
    | none => contradiction
    | some text =>
      rw [Option.bind_some] at parsed
      rw [loadJsonFile, parsed]
  obtain ⟨config, ok, gets⟩ := Field.gets_parseJson root
  refine ⟨⟨config⟩, ?_, gets⟩
  simp [TagConfigLoader.init, document, Value.isObject, Value.asObject, ok, bind, Except.bind,
    pure, Except.pure]

theorem TagConfigLoader.Loaded.gets {root : Object} {self : TagConfigLoader}
    (loaded : TagConfigLoader.Loaded parser root self) {t : ValueType} (f : Field t) :
    f.Gets root (f.value self.config) := by
  obtain ⟨before, file, parsed, ok⟩ := loaded
  obtain ⟨new, ok', gets⟩ := init_of_document parser before parsed
  obtain rfl := Except.ok.inj (ok.symm.trans ok')
  exact gets t f

/-- Loading succeeds on every file. Without a document it changes nothing; with one it sets
each field from its own path. So two documents that differ at some paths only, in one key, a
whole section or keys no field has, lead to configurations that differ in the fields of these
paths only. -/
theorem init_is_fieldwise :
    (∀ (self : TagConfigLoader) (file : Option String), ∃ new, self.init parser file = .ok new ∧
      (NoDocument parser file → new = self) ∧
      ∀ root, file.bind parser = some (.object root) →
        ∀ (t : ValueType) (f : Field t), f.Gets root (f.value new.config)) ∧
    ∀ root root' new new', TagConfigLoader.Loaded parser root new →
      TagConfigLoader.Loaded parser root' new' →
      ∀ changed : Set (String × String),
        (∀ path, path ∉ changed → root.member path = root'.member path) →
        (∀ (t : ValueType) (f : Field t), f.path ∉ changed →
          f.value new.config = f.value new'.config) ∧
        ((∀ (t : ValueType) (f : Field t), f.path ∉ changed) → new.config = new'.config) := by
  constructor
  · intro self file
    rcases noDocument_or parser file with nothing | ⟨root, parsed⟩
    · refine ⟨self, init_of_no_document parser self nothing, fun _ => rfl, ?_⟩
      intro root parsed
      obtain ⟨new, ok, gets⟩ := init_of_document parser self parsed
      obtain rfl := Except.ok.inj (ok.symm.trans (init_of_no_document parser self nothing))
      exact gets
    · obtain ⟨new, ok, gets⟩ := init_of_document parser self parsed
      refine ⟨new, ok, ?_, ?_⟩
      · intro nothing
        exact Except.ok.inj (ok.symm.trans (init_of_no_document parser self nothing))
      · intro root' parsed'
        obtain rfl := Value.object.inj (Option.some.inj (parsed.symm.trans parsed'))
        exact gets
  · intro root root' new new' loaded loaded' changed same
    have kept : ∀ (t : ValueType) (f : Field t), f.path ∉ changed →
        f.value new.config = f.value new'.config := by
      intro t f outside
      exact ((loaded.gets parser f).congr (same f.path outside)).unique (loaded'.gets parser f)
    exact ⟨kept, fun outside => Field.ext_value fun t f => kept t f (outside t f)⟩

end Init

/-- A file with one section, one of its two values of the wrong type: the other one is taken,
the rest is as compiled in. -/
theorem value_of_wrong_type_is_ignored :
    let text := "\x7b\"configGetImage\":\x7b\"version\":\"1.1\",\"timeoutMs\":50\x7d\x7d"
    let root : Object :=
      [("configGetImage", .object [("version", .string "1.1"), ("timeoutMs", .int64 50)])]
    let parser := fun received => if received = text then some (.object root) else none
    ∃ new, TagConfigLoader.init {} parser (some text) = .ok new ∧
      new.config.configGetImage.version = 11 ∧ new.config.configGetImage.timeoutMs = 50 := by
  intro text root parser
  obtain ⟨new, ok, -, gets⟩ := (init_is_fieldwise parser).1 {} (some text)
  have version := gets root (by simp [parser]) .int (.version .getImage)
  have timeout := gets root (by simp [parser]) .long (.timeoutMs .getImage)
  refine ⟨new, ok, version.default ?_, timeout.converted (.int64 50) 50 rfl rfl⟩
  rintro v y ⟨⟩ ⟨⟩

end OwlTagConfigLoader
