import OwlAprilTagProcessor.ConfigLoader.Loading
import OwlAprilTagProcessor.ConfigLoader.PrettyPrint

/-!
# Printing and loading

`parse_json` logs the document it was given as `pretty_print` writes it. That text is itself a
configuration file: loading it gives the configuration that has just been loaded. And every
configuration can be written so, whatever its values: printed and loaded it is the same.
-/

namespace Json

/-! ## A document after it has been parsed -/

section Parsed

variable {t : ValueType} {v : Value} {x : t.Carrier}

theorem number?_ofInt (i : Int) : (Value.ofInt i).number? = some (i : Rat) := by
  unfold Value.ofInt
  split_ifs with small
  · rfl
  · have back : ((i.toNat : Int) : Rat) = (i : Rat) := by
      rw [Int.toNat_of_nonneg (by simp only [int64Max] at small; omega)]
    exact congrArg some ((Rat.intCast_natCast i.toNat).symm.trans back)

/-- The parser keeps what a number stands for. -/
theorem number?_parsed (v : Value) : v.parsed.number? = v.number? := by
  cases v with
  | int64 i => exact number?_ofInt i
  | uint64 n => exact (number?_ofInt n).trans (congrArg some (Rat.intCast_natCast n))
  | null | bool | double | string | array | object => simp [Value.parsed, Value.number?]

theorem parsed_eq_string {s : String} : v.parsed = .string s ↔ v = .string s := by
  cases v with
  | int64 i | uint64 n =>
    simp only [Value.parsed, Value.ofInt, reduceCtorEq, iff_false]
    split_ifs <;> simp
  | null | bool | double | string | array | object => simp [Value.parsed]

theorem represents_parsed : t.Represents v.parsed x ↔ t.Represents v x := by
  cases t with
  | int | long => simp [ValueType.Represents, number?_parsed]
  | string => exact parsed_eq_string

theorem tryValueTo_parsed (t : ValueType) (v : Value) :
    tryValueTo t v.parsed = tryValueTo t v := by
  apply Option.ext
  intro x
  rw [tryValueTo_eq_some, tryValueTo_eq_some, represents_parsed]

theorem member_parsed (root : Object) (path : String × String) :
    Object.member (objectParsed root) path = (root.member path).map Value.parsed := by
  rw [Object.member, Object.member, lookup_objectParsed]
  cases root.lookup path.1 <;> simp

end Parsed

end Json

namespace OwlTagConfigLoader
open Asio Json

theorem Field.gets_parsed {t : ValueType} {f : Field t} {root : Object} {x : t.Carrier} :
    f.Gets (objectParsed root) x ↔ f.Gets root x := by
  rw [Field.gets_iff, Field.gets_iff, member_parsed]
  cases root.member f.path <;> simp [tryValueTo_parsed]

/-! ## The log as a file -/

/-- What the documentation says of the stream parser, on the documents that are printed here:
a text of the tokens of such a document, string literals as the serializer writes them, is
read as the document, whatever white space stands between them. Containers nest at most 32
deep, the parser's default. -/
def ReadsDocuments (lib : Libraries) (parser : String → Option Value) : Prop :=
  ∀ v : Value, v.Readable 32 → ∀ text, Spaced (literal lib) v.tokens text →
    parser (String.ofList text) = some v.parsed

section Log

variable {lib : Libraries} {parser : String → Option Value} (showDouble : Rat → List Char)
  {root : Object}

theorem parser_printed (reads : ReadsDocuments lib parser)
    (readable : (Value.object root).Readable 32) :
    (some (String.ofList (prettyPrintRoot lib showDouble [] (.object root)))).bind parser =
      some (.object (objectParsed root)) :=
  reads _ readable _ (prettyPrintRoot_spaced lib showDouble readable.integral)

/-- Loading logs the document, and the logged text is a file that loads to the same, whatever
has been loaded before. -/
theorem logged_document_loads_the_same (lib : Libraries) (showDouble : Rat → List Char)
    (parser : String → Option Value) (reads : ReadsDocuments lib parser) (file : Option String)
    (root : Object) (readable : (Value.object root).Readable 32)
    (document : file.bind parser = some (.object root)) (self new : TagConfigLoader)
    (loaded : self.init parser file = .ok new) :
    ∃ text, parseJsonLog lib showDouble (.object root) =
        .ok ("parse_json from : \n".toList ++ text) ∧
      ∀ before : TagConfigLoader,
        before.init parser (some (String.ofList text)) = .ok new := by
  refine ⟨prettyPrintRoot lib showDouble [] (.object root), rfl, fun before => ?_⟩
  obtain ⟨again, ok, gets⟩ :=
    init_of_document parser before (parser_printed showDouble reads readable)
  obtain ⟨new', ok', gets'⟩ := init_of_document parser self document
  obtain rfl := Except.ok.inj (loaded.symm.trans ok')
  have same : again.config = new.config :=
    Field.ext_value fun t f => (Field.gets_parsed.mp (gets t f)).unique (gets' t f)
  rw [ok, show again = new from congrArg TagConfigLoader.mk same]

end Log

/-! ## Writing a configuration -/

/-- How a field is written. -/
def valueOf : (t : ValueType) → t.Carrier → Value
  | .int, x => .int64 x.toInt
  | .long, x => .int64 x.toInt
  | .string, s => .string s

theorem represents_valueOf (t : ValueType) (x : t.Carrier) : t.Represents (valueOf t x) x := by
  cases t <;> rfl

/-- The document that sets every field of a configuration. -/
def Config.document (c : Config) : Object :=
  [("configTagProcessor", .object [
      ("timeStartMs", valueOf .long c.configTagProcessor.timeStartMs),
      ("timeDurationMs", valueOf .long c.configTagProcessor.timeDurationMs),
      ("timeoutCountLimit", valueOf .long c.configTagProcessor.timeoutCountLimit),
      ("timeDurationMini", valueOf .long c.configTagProcessor.timeDurationMini)]),
    ("configAprilTagData", .object [
      ("resizeWidth", valueOf .int c.configAprilTagData.resizeWidth),
      ("resizeHeight", valueOf .int c.configAprilTagData.resizeHeight),
      ("aprilTagDetectorMaxHammingBitsCorrected",
        valueOf .int c.configAprilTagData.aprilTagDetectorMaxHammingBitsCorrected)]),
    ("configGetImage", .object [
      ("host", valueOf .string c.configGetImage.host),
      ("port", valueOf .string c.configGetImage.port),
      ("target", valueOf .string c.configGetImage.target),
      ("version", valueOf .int c.configGetImage.version),
      ("timeoutMs", valueOf .long c.configGetImage.timeoutMs)]),
    ("configSendResult", .object [
      ("host", valueOf .string c.configSendResult.host),
      ("port", valueOf .string c.configSendResult.port),
      ("target", valueOf .string c.configSendResult.target),
      ("version", valueOf .int c.configSendResult.version),
      ("timeoutMs", valueOf .long c.configSendResult.timeoutMs)])]

theorem valueOf_readable {depth : Nat} (t : ValueType) (x : t.Carrier) :
    (valueOf t x).Readable depth := by
  cases t with
  | int =>
    have least := Int32.le_toInt x
    have most := Int32.toInt_lt x
    exact .int64 (by omega) (by simp only [int64Max]; omega)
  | long =>
    have least := Int64.le_toInt x
    have most := Int64.toInt_lt x
    exact .int64 (by omega) (by simp only [int64Max]; omega)
  | string => exact .string x

theorem document_readable (c : Config) : (Value.object c.document).Readable 32 := by
  have leaf (t : ValueType) (x : t.Carrier) : (valueOf t x).Readable 30 := valueOf_readable t x
  refine .object (by simp [Config.document]) ?_
  simp only [Config.document, List.forall_mem_cons, List.not_mem_nil, false_implies,
    implies_true, and_true]
  refine ⟨?_, ?_, ?_, ?_⟩ <;> exact .object (by simp) (by simp [leaf])

/-- Every field is written at its own path. -/
theorem member_document (c : Config) {t : ValueType} (f : Field t) :
    c.document.member f.path = some (valueOf t (f.value c)) := by
  cases f with
  | host server | port server | target server | version server | timeoutMs server =>
    cases server <;> rfl
  | _ => rfl

theorem gets_document (c : Config) {t : ValueType} (f : Field t) :
    f.Gets c.document (f.value c) := by
  rw [Field.gets_iff, member_document, Option.bind_some,
    tryValueTo_eq_some.mpr (represents_valueOf t (f.value c)), Option.getD_some]

/-- Every configuration has a file: what `pretty_print` writes for it is loaded as it is, all
seventeen fields, whatever has been loaded before. -/
theorem every_config_can_be_loaded (lib : Libraries) (showDouble : Rat → List Char)
    (parser : String → Option Value) (reads : ReadsDocuments lib parser) (c : Config)
    (before : TagConfigLoader) :
    before.init parser
      (some (String.ofList (prettyPrintRoot lib showDouble [] (.object c.document)))) =
        .ok ⟨c⟩ := by
  obtain ⟨new, ok, gets⟩ := init_of_document parser before
    (parser_printed showDouble reads (document_readable c))
  have same : new.config = c :=
    Field.ext_value fun t f => (Field.gets_parsed.mp (gets t f)).unique (gets_document c f)
  rw [ok, show new = ⟨c⟩ from congrArg TagConfigLoader.mk same]

/-- One such parser, for runs on fixed inputs: it reads no floating point numbers. -/
def integralParser (text : String) : Option Value := parseText text.toList

theorem compact_literals : literal compactLibraries = quote := funext literal_compact

theorem integralParser_reads : ReadsDocuments compactLibraries integralParser := by
  intro v readable text spaced
  rw [compact_literals] at spaced
  rw [integralParser, String.toList_ofList]
  exact parseText_of_spaced quote_readsBack readable.integral spaced

/-- A file with one setting, a member no field has and a value of the wrong type: its log loads
to the same. -/
theorem a_log_loads_the_same :
    let root : Object :=
      [("configGetImage", .object [("host", .string "10.0.0.2"), ("timeoutMs", .null)]),
        ("comment", .array [.string "two\nlines", .bool true])]
    let file := String.ofList ((Value.object root).layout compact quote 0)
    ∃ new text, TagConfigLoader.init {} integralParser (some file) = .ok new ∧
      new.config.configGetImage.host = "10.0.0.2" ∧
      parseJsonLog compactLibraries (fun _ => []) (.object root) =
        .ok ("parse_json from : \n".toList ++ text) ∧
      TagConfigLoader.init {} integralParser (some (String.ofList text)) = .ok new := by
  intro root file
  have readable : (Value.object root).Readable 32 := by
    refine .object (by decide) ?_
    simp only [root, List.forall_mem_cons, List.not_mem_nil, false_implies, implies_true, and_true]
    exact ⟨.object (by decide) (by simp [Value.Readable.string, Value.Readable.null]),
      .array (by simp [Value.Readable.string, Value.Readable.bool])⟩
  have tight : Spaced (literal compactLibraries) (Value.object root).tokens
      ((Value.object root).layout compact quote 0) := by
    rw [compact_literals, ← List.append_nil (Value.layout ..)]
    exact spaced_layout readable.integral compact quote 0 Blank.nil
  have same : (Value.object root).parsed = .object root := by
    simp [root, Value.parsed, objectParsed, arrayParsed]
  have document : (some file).bind integralParser = some (.object root) := by
    have parsed := integralParser_reads _ readable _ tight
    rw [same] at parsed
    rw [Option.bind_some]
    exact parsed
  obtain ⟨new, ok, gets⟩ := init_of_document integralParser {} document
  obtain ⟨text, log, same⟩ := logged_document_loads_the_same compactLibraries (fun _ => [])
    integralParser integralParser_reads (some file) root readable document {} new ok
  exact ⟨new, text, ok, (gets .string (.host .getImage)).converted _ _ rfl rfl, log, same {}⟩

/-- A receiver with a name in quotes and the longest timeout. -/
theorem an_odd_config_can_be_loaded :
    let c : Config := { configSendResult := { host := "\"a\"", timeoutMs := 9223372036854775807 } }
    TagConfigLoader.init {} integralParser (some (String.ofList
      (prettyPrintRoot compactLibraries (fun _ => []) [] (.object c.document)))) = .ok ⟨c⟩ := by
  intro c
  exact every_config_can_be_loaded compactLibraries (fun _ => []) integralParser
    integralParser_reads c {}

end OwlTagConfigLoader
