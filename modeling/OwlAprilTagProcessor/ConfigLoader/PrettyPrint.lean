import OwlAprilTagProcessor.ConfigLoader.TagConfigLoader
import OwlAprilTagProcessor.Libraries
import OwlAprilTagProcessor.Library.JsonLayout

/-!
# Printing the configuration

`pretty_print` and the text `parse_json` logs. The stream and the indent string, which all
levels share, are threaded through the calls. How a stream writes a `double` is a parameter.
-/

namespace OwlTagConfigLoader
open Asio Json

/-- The stream `os` and the string `*indent`. -/
structure Printer where
  os : List Char
  indent : List Char
  deriving DecidableEq, Repr

namespace Printer

def write (p : Printer) (text : List Char) : Printer := { p with os := p.os ++ text }

/-- `indent->append(4, ' ')`. -/
def append (p : Printer) : Printer := { p with indent := p.indent ++ List.replicate 4 ' ' }

/-- `indent->resize(indent->size() - 4)`. -/
def resize (p : Printer) : Printer := { p with indent := p.indent.take (p.indent.length - 4) }

/-- The last statement of `pretty_print`. -/
def finish (p : Printer) : Printer := if p.indent.isEmpty then p.write ['\n'] else p

section Indent

variable (p : Printer)

@[simp] theorem write_indent (text : List Char) : (p.write text).indent = p.indent := rfl

@[simp] theorem append_indent : p.append.indent = p.indent ++ List.replicate 4 ' ' := rfl

@[simp] theorem finish_indent : p.finish.indent = p.indent := by
  unfold finish
  split <;> rfl

/-- The four spaces that are cut off are those that were appended. -/
theorem resize_indent {q : Printer} (deeper : q.indent = p.append.indent) :
    q.resize.indent = p.indent := by
  simp [resize, deeper]

end Indent

end Printer

section PrettyPrint

variable (lib : Libraries) (showDouble : Rat → List Char)

/-- `boost::json::serialize` on a string. -/
def literal (s : String) : List Char := (lib.serialize (.string s)).toList

mutual
/-- `pretty_print` with an indent string. -/
def prettyPrint : Value → Printer → Printer
  | .object obj, p =>
    let p := (p.write ['{', '\n']).append
    let p := if obj.isEmpty then p else printMembers obj p
    let p := (p.write ['\n']).resize
    ((p.write p.indent).write ['}']).finish
  | .array arr, p =>
    let p := (p.write ['[', '\n']).append
    let p := if arr.isEmpty then p else printElements arr p
    let p := (p.write ['\n']).resize
    ((p.write p.indent).write [']']).finish
  | .string s, p => (p.write (literal lib s)).finish
  | .uint64 n, p => (p.write (toString n).toList).finish
  | .int64 i, p => (p.write (toString i).toList).finish
  | .double q, p => (p.write (showDouble q)).finish
  | .bool true, p => (p.write ['t', 'r', 'u', 'e']).finish
  | .bool false, p => (p.write ['f', 'a', 'l', 's', 'e']).finish
  | .null, p => (p.write ['n', 'u', 'l', 'l']).finish

/-- The loop over the elements of an array, which is left after the last one. -/
def printElements : List Value → Printer → Printer
  | [], p => p
  | x :: xs, p =>
    let p := prettyPrint x (p.write p.indent)
    if xs.isEmpty then p else printElements xs (p.write [',', '\n'])

/-- The loop over the members of an object. -/
def printMembers : List (String × Value) → Printer → Printer
  | [], p => p
  | (key, v) :: members, p =>
    let p := prettyPrint v (((p.write p.indent).write (literal lib key)).write [' ', ':', ' '])
    if members.isEmpty then p else printMembers members (p.write [',', '\n'])
end

/-- `pretty_print` without an indent string: the call uses one of its own. -/
def prettyPrintRoot (os : List Char) (jv : Value) : List Char :=
  (prettyPrint lib showDouble jv { os, indent := [] }).os

/-- What `parse_json` writes to the log. -/
def parseJsonLog (json_v : Value) : Except Exception (List Char) := do
  let root ← json_v.asObject
  pure ("parse_json from : \n".toList ++ prettyPrintRoot lib showDouble [] (.object root))

/-! An empty container has no element to print, so the test before a loop is redundant. -/

theorem printElements_of_nonempty (xs : List Value) (p : Printer) :
    (if xs.isEmpty then p else printElements lib showDouble xs p) =
      printElements lib showDouble xs p := by
  cases xs <;> rfl

theorem printMembers_of_nonempty (members : List (String × Value)) (p : Printer) :
    (if members.isEmpty then p else printMembers lib showDouble members p) =
      printMembers lib showDouble members p := by
  cases members <;> rfl

/-! ## The indent string -/

section Indent

variable {lib showDouble}

theorem printElements_indent {xs : List Value}
    (each : ∀ x ∈ xs, ∀ p, (prettyPrint lib showDouble x p).indent = p.indent) (p : Printer) :
    (printElements lib showDouble xs p).indent = p.indent := by
  induction xs generalizing p with
  | nil => rfl
  | cons x xs ih =>
    obtain ⟨first, others⟩ := List.forall_mem_cons.mp each
    have more := ih others
    rw [printElements]
    split_ifs
    · exact first _
    · exact (more _).trans (first _)

theorem printMembers_indent {members : List (String × Value)}
    (each : ∀ m ∈ members, ∀ p, (prettyPrint lib showDouble m.2 p).indent = p.indent)
    (p : Printer) : (printMembers lib showDouble members p).indent = p.indent := by
  induction members generalizing p with
  | nil => rfl
  | cons m members ih =>
    obtain ⟨first, others⟩ := List.forall_mem_cons.mp each
    have more := ih others
    rw [printMembers]
    split_ifs
    · exact first _
    · exact (more _).trans (first _)

end Indent

/-- A call leaves the indent string as it found it. -/
theorem prettyPrint_indent (jv : Value) (p : Printer) :
    (prettyPrint lib showDouble jv p).indent = p.indent := by
  induction jv generalizing p with
  | null | int64 i | uint64 n | double q | string s => simp [prettyPrint]
  | bool b => cases b <;> simp [prettyPrint]
  | array xs each =>
    simp only [prettyPrint, Printer.finish_indent, Printer.write_indent]
    apply Printer.resize_indent
    split_ifs
    · rfl
    · exact printElements_indent each _
  | object members each =>
    simp only [prettyPrint, Printer.finish_indent, Printer.write_indent]
    apply Printer.resize_indent
    split_ifs
    · rfl
    · exact printMembers_indent each _

/-! ## The text -/

section Text

/-- The printer inside `d` containers. -/
def atDepth (os : List Char) (d : Nat) : Printer := { os, indent := List.replicate (4 * d) ' ' }

variable (os : List Char) (d : Nat)

@[simp] theorem atDepth_indent : (atDepth os d).indent = List.replicate (4 * d) ' ' := rfl

@[simp] theorem atDepth_write (text : List Char) :
    (atDepth os d).write text = atDepth (os ++ text) d := rfl

@[simp] theorem atDepth_append : (atDepth os d).append = atDepth os (d + 1) := by
  simp only [atDepth, Printer.append, Nat.mul_add, List.replicate_add, Nat.mul_one]

@[simp] theorem atDepth_resize : (atDepth os (d + 1)).resize = atDepth os d := by
  simp [atDepth, Printer.resize, Nat.mul_add]

@[simp] theorem atDepth_finish : (atDepth os (d + 1)).finish = atDepth os (d + 1) := by
  simp [atDepth, Printer.finish, Nat.mul_add]

theorem atDepth_zero_finish : (atDepth os 0).finish = atDepth (os ++ ['\n']) 0 := rfl

/-- What a call writes, at any depth. -/
def Lays (v : Value) : Prop :=
  ∀ os d, prettyPrint lib showDouble v (atDepth os d) =
    (atDepth (os ++ v.layout (indented 4) (literal lib) d) d).finish

variable {lib showDouble}

/-- The elements after the bracket or the comma `c`. -/
theorem printElements_eq {xs : List Value} (each : ∀ x ∈ xs, Lays lib showDouble x) (c : Char) :
    printElements lib showDouble xs (atDepth (os ++ [c, '\n']) (d + 1)) =
      atDepth (os ++ c :: arrayLayout (indented 4) (literal lib) (d + 1) xs) (d + 1) := by
  induction xs generalizing os c with
  | nil => rfl
  | cons x xs ih =>
    obtain ⟨first, others⟩ := List.forall_mem_cons.mp each
    have more := fun os => ih os others
    rw [printElements, arrayLayout, atDepth_write, first, atDepth_finish, atDepth_write]
    cases xs with
    | nil => simp
    | cons y ys =>
      simp only [List.isEmpty_cons, Bool.false_eq_true, if_false]
      rw [more]
      simp

theorem printMembers_eq {members : List (String × Value)}
    (each : ∀ m ∈ members, Lays lib showDouble m.2) (c : Char) :
    printMembers lib showDouble members (atDepth (os ++ [c, '\n']) (d + 1)) =
      atDepth (os ++ c :: objectLayout (indented 4) (literal lib) (d + 1) members) (d + 1) := by
  induction members generalizing os c with
  | nil => rfl
  | cons m members ih =>
    obtain ⟨key, v⟩ := m
    obtain ⟨(first : Lays lib showDouble v), others⟩ := List.forall_mem_cons.mp each
    have more := fun os => ih os others
    rw [printMembers, objectLayout, atDepth_write, atDepth_write, atDepth_write, first,
      atDepth_finish, atDepth_write]
    cases members with
    | nil => simp
    | cons m members =>
      simp only [List.isEmpty_cons, Bool.false_eq_true, if_false]
      rw [more]
      simp

theorem lays_of_integral {v : Value} (integral : v.Integral) : Lays lib showDouble v := by
  induction integral with
  | null | int64 i | string s =>
    intro os d
    simp [prettyPrint, Value.layout, Value.tokens, Token.text]
  | uint64 n =>
    intro os d
    have digits : toString (n : Int) = toString n := rfl
    simp only [prettyPrint, Value.layout, Value.tokens, List.flatMap_cons, List.flatMap_nil,
      List.append_nil, Token.text, digits, atDepth_write]
  | bool b =>
    intro os d
    cases b <;> simp [prettyPrint, Value.layout, Value.tokens, Token.text]
  | @array xs each ih =>
    intro os d
    have elements := printElements_eq os d ih '['
    simp only [prettyPrint, printElements_of_nonempty]
    simp [elements, Value.layout]
  | @object members each ih =>
    intro os d
    have elements := printMembers_eq os d ih '{'
    simp only [prettyPrint, printMembers_of_nonempty]
    simp [elements, Value.layout]

end Text

/-- The call from outside ends the line. -/
theorem prettyPrintRoot_eq (os : List Char) {v : Value} (integral : v.Integral) :
    prettyPrintRoot lib showDouble os v =
      os ++ v.layout (indented 4) (literal lib) 0 ++ ['\n'] := by
  have root : prettyPrint lib showDouble v { os, indent := [] } = _ :=
    lays_of_integral integral os 0
  rw [prettyPrintRoot, root, atDepth_zero_finish]
  rfl

/-- What the root call prints is the document, with white space between the tokens. -/
theorem prettyPrintRoot_spaced {v : Value} (integral : v.Integral) :
    Spaced (literal lib) v.tokens (prettyPrintRoot lib showDouble [] v) := by
  rw [prettyPrintRoot_eq lib showDouble [] integral, List.nil_append]
  apply spaced_layout integral
  exact (indented 4).blank_empty

/-- The printed text is the document: its tokens with white space between them, which are
read as the same values in the same order. A call inside `d` containers writes the layout of
its value, in which every element starts on a line indented by four spaces for each level,
and leaves the indent string as it was; the call from outside adds one line end. -/
theorem pretty_print_preserves_document (lib : Libraries) (showDouble : Rat → List Char)
    {v : Value} (integral : v.Integral) (reads : ReadsBack (literal lib)) :
    (∀ p, (prettyPrint lib showDouble v p).indent = p.indent) ∧
    (∀ os d, 0 < d → prettyPrint lib showDouble v (atDepth os d) =
      atDepth (os ++ v.layout (indented 4) (literal lib) d) d) ∧
    (∀ os, prettyPrintRoot lib showDouble os v =
      os ++ v.layout (indented 4) (literal lib) 0 ++ ['\n']) ∧
    Spaced (literal lib) v.tokens (prettyPrintRoot lib showDouble [] v) ∧
    lex (v.layout compact (literal lib) 0) = some v.tokens ∧
    lex (prettyPrintRoot lib showDouble [] v) = some v.tokens ∧
    parseText (prettyPrintRoot lib showDouble [] v) = some v.parsed ∧ v.Same v.parsed := by
  have spaced := prettyPrintRoot_spaced lib showDouble integral
  have tight : Spaced (literal lib) v.tokens (v.layout compact (literal lib) 0 ++ []) :=
    spaced_layout integral compact (literal lib) 0 Blank.nil
  rw [List.append_nil] at tight
  refine ⟨prettyPrint_indent lib showDouble v, ?_,
    fun os => prettyPrintRoot_eq lib showDouble os integral, spaced, tight.lex reads,
    spaced.lex reads, parseText_of_spaced reads integral spaced, same_parsed integral⟩
  intro os d inside
  obtain ⟨d, rfl⟩ := Nat.exists_eq_add_one_of_ne_zero (Nat.ne_of_gt inside)
  rw [lays_of_integral integral, atDepth_finish]

end PrettyPrint

/-- A library that serializes without white space. -/
def compactLibraries : Libraries :=
  { Libraries.sample with serialize := fun v => String.ofList (v.layout compact quote 0) }

theorem literal_compact (s : String) : literal compactLibraries s = quote s := by
  simp [literal, compactLibraries, layout_compact, Value.tokens, Token.text]

example : String.ofList (prettyPrintRoot compactLibraries (fun _ => []) []
    (.object [("a", .array [.int64 (-12), .null]), ("b", .array [])])) =
      "\x7b\n    \"a\" : [\n        -12,\n        null\n    ],\n    \"b\" : [\n\n    ]\n\x7d\n" := by
  decide

/-- Containers in containers, some of them empty. -/
def nestedDocument : Value :=
  .object [
    ("list", .array [.int64 (-1), .array [], .uint64 18446744073709551615, .object []]),
    ("a \"key\"", .object [("flag", .bool true), ("nothing", .null)]),
    ("text", .string "two\nlines")]

theorem nested_document_is_preserved :
    parseText (prettyPrintRoot compactLibraries (fun _ => []) [] nestedDocument) =
      some nestedDocument.parsed := by
  have integral : nestedDocument.Integral := by simp [nestedDocument]
  have reads : ReadsBack (literal compactLibraries) := by
    simpa only [ReadsBack, literal_compact] using quote_readsBack
  obtain ⟨-, -, -, -, -, -, parsed, -⟩ :=
    pretty_print_preserves_document compactLibraries (fun _ => []) integral reads
  exact parsed

end OwlTagConfigLoader
