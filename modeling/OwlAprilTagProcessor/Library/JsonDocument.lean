import Mathlib.Data.List.Forall2
import OwlAprilTagProcessor.Library.JsonText

/-!
# JSON documents as text

The tokens of a document, the parser that gives the document back, and texts that lay the
tokens out with white space between them. A document has no `double` anywhere.
-/

namespace Json

/-- Built from objects, arrays, strings, integers, booleans and null. -/
inductive Value.Integral : Value → Prop where
  | null : Integral .null
  | bool (b : Bool) : Integral (.bool b)
  | int64 (i : Int) : Integral (.int64 i)
  | uint64 (n : Nat) : Integral (.uint64 n)
  | string (s : String) : Integral (.string s)
  | array {xs : List Value} : (∀ x ∈ xs, Integral x) → Integral (.array xs)
  | object {members : List (String × Value)} : (∀ m ∈ members, Integral m.2) →
      Integral (.object members)

namespace Value.Integral

attribute [simp] null bool int64 uint64 string

@[simp] theorem array_iff {xs : List Value} :
    (Value.array xs).Integral ↔ ∀ x ∈ xs, x.Integral :=
  ⟨fun | .array each => each, .array⟩

@[simp] theorem object_iff {members : List (String × Value)} :
    (Value.object members).Integral ↔ ∀ m ∈ members, m.2.Integral :=
  ⟨fun | .object each => each, .object⟩

end Value.Integral

/-- Of such documents those a parser of bounded depth returns: the integers have 64 bits, the
keys of an object are distinct, and containers nest at most so deep. -/
inductive Value.Readable : Nat → Value → Prop where
  | null {depth : Nat} : Readable depth .null
  | bool {depth : Nat} (b : Bool) : Readable depth (.bool b)
  | int64 {depth : Nat} {i : Int} : -9223372036854775808 ≤ i → i ≤ int64Max →
      Readable depth (.int64 i)
  | uint64 {depth n : Nat} : n < 18446744073709551616 → Readable depth (.uint64 n)
  | string {depth : Nat} (s : String) : Readable depth (.string s)
  | array {depth : Nat} {xs : List Value} : (∀ x ∈ xs, Readable depth x) →
      Readable (depth + 1) (.array xs)
  | object {depth : Nat} {members : List (String × Value)} : (members.map Prod.fst).Nodup →
      (∀ m ∈ members, Readable depth m.2) → Readable (depth + 1) (.object members)

theorem Value.Readable.integral {depth : Nat} {v : Value} (readable : v.Readable depth) :
    v.Integral := by
  induction readable with
  | null | bool b | int64 _ _ | uint64 _ | string s => simp
  | array each ih => exact .array ih
  | object distinct each ih => exact .object ih

/-- Equal values with the members in the same order. Integers of either kind are compared
as numbers. -/
inductive Value.Same : Value → Value → Prop where
  | null : Same .null .null
  | bool (b : Bool) : Same (.bool b) (.bool b)
  | integer {v w : Value} {i : Int} : v.toInt? = some i → w.toInt? = some i → Same v w
  | string (s : String) : Same (.string s) (.string s)
  | array {xs ys : List Value} : List.Forall₂ Same xs ys → Same (.array xs) (.array ys)
  | object {ms ns : List (String × Value)} : ms.map Prod.fst = ns.map Prod.fst →
      List.Forall₂ Same (ms.map Prod.snd) (ns.map Prod.snd) → Same (.object ms) (.object ns)

theorem same_parsed {v : Value} (integral : v.Integral) : v.Same v.parsed := by
  induction integral with
  | null => exact .null
  | bool b => exact .bool b
  | int64 i => exact .integer rfl (Value.toInt?_ofInt i)
  | uint64 n => exact .integer rfl (Value.toInt?_ofInt n)
  | string s => exact .string s
  | @array xs each ih =>
    apply Value.Same.array
    rw [arrayParsed_eq_map, List.forall₂_map_right_iff, List.forall₂_same]
    exact ih
  | @object members each ih =>
    apply Value.Same.object
    · rw [objectParsed_eq_map, List.map_map]
      rfl
    · rw [objectParsed_eq_map, List.map_map, List.forall₂_map_left_iff,
        List.forall₂_map_right_iff, List.forall₂_same]
      exact ih

/-! ## Tokens -/

mutual
/-- The tokens of a document; a `double` has none. -/
def Value.tokens : Value → List Token
  | .null => [.null]
  | .bool b => [.bool b]
  | .int64 i => [.int i]
  | .uint64 n => [.int n]
  | .double _ => []
  | .string s => [.string s]
  | .array xs => .lbracket :: (arrayTokens xs ++ [.rbracket])
  | .object members => .lbrace :: (objectTokens members ++ [.rbrace])

def arrayTokens : List Value → List Token
  | [] => []
  | x :: xs => x.tokens ++ if xs.isEmpty then [] else .comma :: arrayTokens xs

def objectTokens : List (String × Value) → List Token
  | [] => []
  | (key, v) :: members =>
    .string key :: .colon ::
      (v.tokens ++ if members.isEmpty then [] else .comma :: objectTokens members)
end

/-! ## Parsing -/

mutual
/-- A value and what follows it. Each token takes at most one unit of fuel. -/
def parseValue : Nat → List Token → Option (Value × List Token)
  | _, .null :: ts => some (.null, ts)
  | _, .bool b :: ts => some (.bool b, ts)
  | _, .int i :: ts => some (.ofInt i, ts)
  | _, .string s :: ts => some (.string s, ts)
  | n + 1, .lbracket :: ts =>
    match ts with
    | .rbracket :: ts => some (.array [], ts)
    | ts => (parseElements n ts).map fun (xs, ts) => (.array xs, ts)
  | n + 1, .lbrace :: ts =>
    match ts with
    | .rbrace :: ts => some (.object [], ts)
    | ts => (parseMembers n ts).map fun (members, ts) => (.object members, ts)
  | _, _ => none

def parseElements : Nat → List Token → Option (List Value × List Token)
  | 0, _ => none
  | n + 1, ts => do
    let (x, ts) ← parseValue n ts
    match ts with
    | .rbracket :: ts => some ([x], ts)
    | .comma :: ts => (parseElements n ts).map fun (xs, ts) => (x :: xs, ts)
    | _ => none

def parseMembers : Nat → List Token → Option (List (String × Value) × List Token)
  | n + 1, .string key :: .colon :: ts => do
    let (v, ts) ← parseValue n ts
    match ts with
    | .rbrace :: ts => some ([(key, v)], ts)
    | .comma :: ts => (parseMembers n ts).map fun (members, ts) => ((key, v) :: members, ts)
    | _ => none
  | _, _ => none
end

/-- A document and nothing else. -/
def parseDocument (ts : List Token) : Option Value :=
  match parseValue ts.length ts with
  | some (v, []) => some v
  | _ => none

def parseText (text : List Char) : Option Value := (lex text).bind parseDocument

section Parse

/-- What a parser of values does on the tokens of `v`. -/
def Value.Parses (v : Value) : Prop :=
  ∀ n rest, v.tokens.length ≤ n → parseValue n (v.tokens ++ rest) = some (v.parsed, rest)

theorem parseElements_tokens {xs : List Value} (nonempty : xs ≠ [])
    (each : ∀ x ∈ xs, x.Parses) (n : Nat) (rest : List Token)
    (fuel : (arrayTokens xs).length < n) :
    parseElements n (arrayTokens xs ++ .rbracket :: rest) = some (arrayParsed xs, rest) := by
  induction xs generalizing n with
  | nil => exact absurd rfl nonempty
  | cons x xs ih =>
    obtain ⟨n, rfl⟩ := Nat.exists_eq_add_one_of_ne_zero (Nat.ne_of_gt (Nat.zero_lt_of_lt fuel))
    obtain ⟨first, others⟩ := List.forall_mem_cons.mp each
    cases xs with
    | nil =>
      simp only [arrayTokens, List.isEmpty_nil, if_true, List.append_nil] at fuel ⊢
      rw [parseElements, first n _ (by omega)]
      rfl
    | cons y ys =>
      have more := ih (by simp) others n
      rw [arrayTokens] at fuel ⊢
      simp only [List.isEmpty_cons, Bool.false_eq_true, if_false, List.length_append,
        List.length_cons] at fuel
      rw [parseElements, List.append_assoc, first n _ (by omega)]
      simp only [List.isEmpty_cons, Bool.false_eq_true, if_false, List.cons_append,
        Option.bind_eq_bind, Option.bind_some]
      rw [more (by omega)]
      rfl

theorem parseMembers_tokens {members : List (String × Value)} (nonempty : members ≠ [])
    (each : ∀ m ∈ members, m.2.Parses) (n : Nat) (rest : List Token)
    (fuel : (objectTokens members).length < n) :
    parseMembers n (objectTokens members ++ .rbrace :: rest) =
      some (objectParsed members, rest) := by
  induction members generalizing n with
  | nil => exact absurd rfl nonempty
  | cons m members ih =>
    obtain ⟨key, v⟩ := m
    obtain ⟨n, rfl⟩ := Nat.exists_eq_add_one_of_ne_zero (Nat.ne_of_gt (Nat.zero_lt_of_lt fuel))
    obtain ⟨(first : v.Parses), others⟩ := List.forall_mem_cons.mp each
    cases members with
    | nil =>
      simp only [objectTokens, List.isEmpty_nil, if_true, List.append_nil, List.length_cons,
        List.cons_append] at fuel ⊢
      rw [parseMembers, first n _ (by omega)]
      rfl
    | cons m' members =>
      have more := ih (by simp) others n
      rw [objectTokens] at fuel ⊢
      simp only [List.isEmpty_cons, Bool.false_eq_true, if_false, List.length_append,
        List.length_cons] at fuel
      simp only [List.cons_append, List.append_assoc]
      rw [parseMembers, first n _ (by omega)]
      simp only [List.isEmpty_cons, Bool.false_eq_true, if_false, List.cons_append,
        Option.bind_eq_bind, Option.bind_some]
      rw [more (by omega)]
      rfl

/-- The first token of an element closes no array. -/
theorem head?_arrayTokens {x : Value} {xs : List Value} {rest : List Token}
    (integral : x.Integral) : (arrayTokens (x :: xs) ++ rest).head? ≠ some .rbracket := by
  cases integral <;> simp [arrayTokens, Value.tokens]

theorem parseValue_lbracket {n : Nat} {ts : List Token} (opened : ts.head? ≠ some .rbracket) :
    parseValue (n + 1) (.lbracket :: ts) =
      (parseElements n ts).map fun (xs, ts) => (.array xs, ts) := by
  rw [parseValue]
  rintro rest rfl
  simp at opened

theorem parseValue_tokens {v : Value} (integral : v.Integral) : v.Parses := by
  induction integral with
  | null | bool b | int64 i | uint64 n | string s =>
    intro n rest _
    simp [Value.tokens, parseValue, Value.parsed]
  | @array xs each ih =>
    intro n rest fuel
    simp only [Value.tokens, List.length_cons, List.length_append, List.length_nil] at fuel
    obtain ⟨n, rfl⟩ := Nat.exists_eq_add_one_of_ne_zero (by omega : n ≠ 0)
    simp only [Value.tokens, List.cons_append, List.append_assoc, List.nil_append, Value.parsed]
    cases xs with
    | nil => simp [arrayTokens, parseValue, arrayParsed]
    | cons x xs =>
      rw [parseValue_lbracket (head?_arrayTokens (each x List.mem_cons_self)),
        parseElements_tokens (by simp) ih n rest (by omega)]
      rfl
  | @object members each ih =>
    intro n rest fuel
    simp only [Value.tokens, List.length_cons, List.length_append, List.length_nil] at fuel
    obtain ⟨n, rfl⟩ := Nat.exists_eq_add_one_of_ne_zero (by omega : n ≠ 0)
    simp only [Value.tokens, List.cons_append, List.append_assoc, List.nil_append, Value.parsed]
    cases members with
    | nil => simp [objectTokens, parseValue, objectParsed]
    | cons m members =>
      have elements := parseMembers_tokens (by simp) ih n rest (by omega)
      rw [objectTokens, List.cons_append] at elements ⊢
      rw [parseValue, elements]
      · rfl
      · rintro rest ⟨⟩

/-- A text that has the tokens of a document, with any white space, is read as the document. -/
theorem parseText_of_spaced {quote : String → List Char} (reads : ReadsBack quote) {v : Value}
    (integral : v.Integral) {text : List Char} (spaced : Spaced quote v.tokens text) :
    parseText text = some v.parsed := by
  have parsed := parseValue_tokens integral v.tokens.length [] (Nat.le_refl _)
  rw [List.append_nil] at parsed
  rw [parseText, spaced.lex reads, Option.bind_some, parseDocument, parsed]

end Parse

end Json
