import Mathlib.Data.Rat.Defs

/-!
# JSON values

`boost::json::value`. Objects keep their members in the order of insertion, and
floating point members are exact rationals.
-/

namespace Json

inductive Value where
  | null
  | bool (b : Bool)
  | int64 (i : Int)
  | uint64 (n : Nat)
  | double (q : Rat)
  | string (s : String)
  | array (xs : List Value)
  | object (members : List (String × Value))
  deriving Repr

/-- Induction on the depth: what holds of every element and member holds of the container. -/
@[elab_as_elim, induction_eliminator]
theorem Value.induction {motive : Value → Prop} (null : motive .null)
    (bool : ∀ b, motive (.bool b)) (int64 : ∀ i, motive (.int64 i))
    (uint64 : ∀ n, motive (.uint64 n)) (double : ∀ q, motive (.double q))
    (string : ∀ s, motive (.string s))
    (array : ∀ xs : List Value, (∀ x ∈ xs, motive x) → motive (.array xs))
    (object : ∀ members : List (String × Value), (∀ m ∈ members, motive m.2) →
      motive (.object members)) (v : Value) : motive v :=
  @Value.rec motive (fun xs => ∀ x ∈ xs, motive x) (fun members => ∀ m ∈ members, motive m.2)
    (fun m => motive m.2) null bool int64 uint64 double string array object
    (List.forall_mem_nil _) (fun _ _ first rest => List.forall_mem_cons.mpr ⟨first, rest⟩)
    (List.forall_mem_nil _) (fun _ _ first rest => List.forall_mem_cons.mpr ⟨first, rest⟩)
    (fun _ _ value => value) v

mutual
/-- Remove the members named in `keys`, at every depth. -/
def Value.without (keys : List String) : Value → Value
  | .array xs => .array (arrayWithout keys xs)
  | .object members => .object (objectWithout keys members)
  | v => v

def arrayWithout (keys : List String) : List Value → List Value
  | [] => []
  | x :: xs => x.without keys :: arrayWithout keys xs

def objectWithout (keys : List String) : List (String × Value) → List (String × Value)
  | [] => []
  | (key, v) :: members =>
    if keys.contains key then objectWithout keys members
    else (key, v.without keys) :: objectWithout keys members
end

/-! ## Reading -/

/-- The value under `key`, if this is an object with such a member. -/
def Value.get? (key : String) : Value → Option Value
  | .object members => members.lookup key
  | _ => none

def Value.toArray? : Value → Option (List Value)
  | .array xs => some xs
  | _ => none

/-- An integer, of either kind. -/
def Value.toInt? : Value → Option Int
  | .int64 i => some i
  | .uint64 n => some n
  | _ => none

def Value.toRat? : Value → Option Rat
  | .double q => some q
  | _ => none

/-- `std::numeric_limits<std::int64_t>::max()`. -/
def int64Max : Nat := 9223372036854775807

/-- The kind the parser gives to an integer. -/
def Value.ofInt (i : Int) : Value := if i ≤ int64Max then .int64 i else .uint64 i.toNat

mutual
/-- What the parser makes of a document: the same values, integers in the kind of the parser. -/
def Value.parsed : Value → Value
  | .int64 i => .ofInt i
  | .uint64 n => .ofInt n
  | .array xs => .array (arrayParsed xs)
  | .object members => .object (objectParsed members)
  | v => v

def arrayParsed : List Value → List Value
  | [] => []
  | x :: xs => x.parsed :: arrayParsed xs

def objectParsed : List (String × Value) → List (String × Value)
  | [] => []
  | (key, v) :: members => (key, v.parsed) :: objectParsed members
end

theorem arrayWithout_eq_map (keys : List String) (xs : List Value) :
    arrayWithout keys xs = xs.map (Value.without keys) := by
  induction xs with
  | nil => rw [arrayWithout, List.map_nil]
  | cons x xs ih => rw [arrayWithout, ih, List.map_cons]

theorem arrayParsed_eq_map (xs : List Value) : arrayParsed xs = xs.map Value.parsed := by
  induction xs with
  | nil => rw [arrayParsed, List.map_nil]
  | cons x xs ih => rw [arrayParsed, ih, List.map_cons]

theorem objectParsed_eq_map (members : List (String × Value)) :
    objectParsed members = members.map fun m => (m.1, m.2.parsed) := by
  induction members with
  | nil => rw [objectParsed, List.map_nil]
  | cons m members ih => rw [objectParsed, ih, List.map_cons]

theorem lookup_objectParsed (key : String) (members : List (String × Value)) :
    (objectParsed members).lookup key = (members.lookup key).map Value.parsed := by
  induction members with
  | nil => simp [objectParsed]
  | cons m members ih =>
    obtain ⟨name, v⟩ := m
    cases h : key == name <;> simp [objectParsed, List.lookup_cons, h, ih]

namespace Value

section OfInt

variable (i : Int)

@[simp] theorem toInt?_ofInt : (ofInt i).toInt? = some i := by
  unfold ofInt
  split
  · rfl
  · next large => exact congrArg some (Int.toNat_of_nonneg (by omega))

@[simp] theorem get?_ofInt (key : String) : (ofInt i).get? key = none := by
  unfold ofInt; split <;> rfl

@[simp] theorem toRat?_ofInt : (ofInt i).toRat? = none := by unfold ofInt; split <;> rfl

@[simp] theorem toArray?_ofInt : (ofInt i).toArray? = none := by unfold ofInt; split <;> rfl

end OfInt

/-! A document reads the same after it has been parsed. -/

section Parsed

variable (v : Value)

@[simp] theorem get?_parsed (key : String) : v.parsed.get? key = (v.get? key).map parsed := by
  cases v <;> simp [parsed] <;> simp [get?, lookup_objectParsed]

@[simp] theorem toInt?_parsed : v.parsed.toInt? = v.toInt? := by
  cases v <;> simp [parsed] <;> simp [toInt?]

@[simp] theorem toRat?_parsed : v.parsed.toRat? = v.toRat? := by
  cases v <;> simp [parsed] <;> simp [toRat?]

@[simp] theorem toArray?_parsed : v.parsed.toArray? = v.toArray?.map (List.map parsed) := by
  cases v <;> simp [parsed] <;> simp [toArray?, arrayParsed_eq_map]

end Parsed

end Value

end Json
