import Mathlib.Data.List.TakeWhile
import Mathlib.Tactic.IntervalCases
import OwlAprilTagProcessor.Library.Json

/-!
# JSON text

The tokens of a JSON text, read from left to right. White space may stand between any two
tokens; a number ends where its digits end, so no digit may follow it. Numbers are
integers: fractions and exponents are not read.
-/

namespace Json

inductive Token where
  | lbrace | rbrace | lbracket | rbracket | comma | colon | null
  | bool (b : Bool)
  | int (i : Int)
  | string (s : String)
  deriving DecidableEq, Repr

/-- The text of a token; `quote` writes the string literals. -/
def Token.text (quote : String → List Char) : Token → List Char
  | .lbrace => ['{']
  | .rbrace => ['}']
  | .lbracket => ['[']
  | .rbracket => [']']
  | .comma => [',']
  | .colon => [':']
  | .null => ['n', 'u', 'l', 'l']
  | .bool true => ['t', 'r', 'u', 'e']
  | .bool false => ['f', 'a', 'l', 's', 'e']
  | .int i => (toString i).toList
  | .string s => quote s

/-! ## Reading a token -/

def isSpace (c : Char) : Bool := c = ' ' || c = '\n' || c = '\t' || c = '\r'

/-- A natural number without leading zeros. -/
def readNat (cs : List Char) : Option (Nat × List Char) :=
  let digits := cs.takeWhile Char.isDigit
  if digits = [] ∨ (digits.head? = some '0' ∧ digits.length ≠ 1) then none
  else some (Nat.ofDigitChars 10 digits 0, cs.dropWhile Char.isDigit)

def unescape : Char → Option Char
  | '"' => some '"'
  | '\\' => some '\\'
  | '/' => some '/'
  | 'b' => some '\x08'
  | 'f' => some '\x0c'
  | 'n' => some '\n'
  | 'r' => some '\r'
  | 't' => some '\t'
  | _ => none

def hexValue (c : Char) : Option Nat :=
  if c.isDigit then some (c.toNat - '0'.toNat)
  else if 'a' ≤ c ∧ c ≤ 'f' then some (c.toNat - 'a'.toNat + 10)
  else if 'A' ≤ c ∧ c ≤ 'F' then some (c.toNat - 'A'.toNat + 10)
  else none

/-- The character with this code, unless it is half of a surrogate pair. -/
def readHex (a b c d : Char) : Option Char := do
  let a ← hexValue a
  let b ← hexValue b
  let c ← hexValue c
  let d ← hexValue d
  let code := ((a * 16 + b) * 16 + c) * 16 + d
  if code.isValidChar then some (Char.ofNat code) else none

/-- The rest of a string literal, after the opening quote. -/
def readChars : List Char → Option (List Char × List Char)
  | '"' :: rest => some ([], rest)
  | '\\' :: 'u' :: a :: b :: c :: d :: rest => do
    let first ← readHex a b c d
    let (cs, rest) ← readChars rest
    some (first :: cs, rest)
  | '\\' :: letter :: rest => do
    let first ← unescape letter
    let (cs, rest) ← readChars rest
    some (first :: cs, rest)
  | c :: rest => do
    if c.toNat < 32 then none
    else
      let (cs, rest) ← readChars rest
      some (c :: cs, rest)
  | [] => none

def readToken : List Char → Option (Token × List Char)
  | '{' :: rest => some (.lbrace, rest)
  | '}' :: rest => some (.rbrace, rest)
  | '[' :: rest => some (.lbracket, rest)
  | ']' :: rest => some (.rbracket, rest)
  | ',' :: rest => some (.comma, rest)
  | ':' :: rest => some (.colon, rest)
  | 'n' :: 'u' :: 'l' :: 'l' :: rest => some (.null, rest)
  | 't' :: 'r' :: 'u' :: 'e' :: rest => some (.bool true, rest)
  | 'f' :: 'a' :: 'l' :: 's' :: 'e' :: rest => some (.bool false, rest)
  | '"' :: rest => (readChars rest).map fun (cs, rest) => (.string (String.ofList cs), rest)
  | '-' :: rest => (readNat rest).map fun (n, rest) => (.int (-n), rest)
  | cs => (readNat cs).map fun (n, rest) => (.int n, rest)

/-- The tokens of a text. -/
def lex (text : List Char) : Option (List Token) :=
  match text with
  | [] => some []
  | c :: cs =>
    if isSpace c then lex cs
    else
      match readToken (c :: cs) with
      | none => none
      | some (t, rest) =>
        if rest.length ≤ cs.length then (lex rest).map (t :: ·) else none
termination_by text.length

theorem isSpace_iff {c : Char} :
    isSpace c = true ↔ c = ' ' ∨ c = '\n' ∨ c = '\t' ∨ c = '\r' := by
  simp [isSpace, or_assoc]

/-! ## Numbers -/

/-- No digit comes next. -/
def NoDigit (cs : List Char) : Prop := ∀ c ∈ cs.head?, c.isDigit = false

theorem NoDigit.nil : NoDigit [] := by simp [NoDigit]

theorem NoDigit.cons {c : Char} {cs : List Char} (other : c.isDigit = false) :
    NoDigit (c :: cs) := by
  simp [NoDigit, other]

theorem head?_toDigits {n : Nat} (hn : 0 < n) : (Nat.toDigits 10 n).head? ≠ some '0' := by
  induction n using Nat.strongRecOn with
  | ind n ih =>
    rcases Nat.lt_or_ge n 10 with small | large
    · rw [Nat.toDigits_of_lt_base small]
      interval_cases n <;> decide
    · have first := ih (n / 10) (by omega) (by omega)
      obtain ⟨c, cs, digits⟩ := List.exists_cons_of_ne_nil
        (Nat.toDigits_ne_nil : Nat.toDigits 10 (n / 10) ≠ [])
      rw [digits] at first
      rw [Nat.toDigits_of_base_le (by omega) large, digits]
      exact first

theorem NoDigit.takeWhile {cs : List Char} (sep : NoDigit cs) :
    cs.takeWhile Char.isDigit = [] := by
  cases cs with
  | nil => rfl
  | cons c cs => simp [sep c rfl]

theorem NoDigit.dropWhile {cs : List Char} (sep : NoDigit cs) :
    cs.dropWhile Char.isDigit = cs := by
  cases cs with
  | nil => rfl
  | cons c cs => simp [sep c rfl]

theorem readNat_toDigits (n : Nat) {rest : List Char} (sep : NoDigit rest) :
    readNat (Nat.toDigits 10 n ++ rest) = some (n, rest) := by
  have digits : ∀ c ∈ Nat.toDigits 10 n, c.isDigit = true := by
    intro c hc
    exact Nat.isDigit_of_mem_toDigits (by omega) (by omega) hc
  have proper : ¬ (Nat.toDigits 10 n = [] ∨
      ((Nat.toDigits 10 n).head? = some '0' ∧ (Nat.toDigits 10 n).length ≠ 1)) := by
    rintro (empty | ⟨leading, long⟩)
    · exact Nat.toDigits_ne_nil empty
    · rcases Nat.eq_zero_or_pos n with rfl | positive
      · exact long rfl
      · exact head?_toDigits positive leading
  rw [readNat, List.takeWhile_append_of_pos digits, List.dropWhile_append_of_pos digits,
    sep.takeWhile, sep.dropWhile, List.append_nil, if_neg proper, Nat.ofDigitChars_ten_toDigits]

/-! ## Reading what was written -/

/-- `quote` writes literals that are read back. -/
def ReadsBack (quote : String → List Char) : Prop :=
  ∀ s rest, readToken (quote s ++ rest) = some (.string s, rest)

section Written

variable {quote : String → List Char} {t : Token} {rest : List Char}

theorem readToken_digit {c : Char} {cs : List Char} (digit : c.isDigit = true) :
    readToken (c :: cs) = (readNat (c :: cs)).map fun (n, rest) => (.int n, rest) := by
  rw [readToken] <;> rintro _ ⟨⟩ <;> exact absurd digit (by decide)

theorem readToken_int (i : Int) (sep : NoDigit rest) :
    readToken ((toString i).toList ++ rest) = some (.int i, rest) := by
  cases i with
  | ofNat n =>
    obtain ⟨c, cs, digits⟩ := List.exists_cons_of_ne_nil
      (Nat.toDigits_ne_nil : Nat.toDigits 10 n ≠ [])
    have digit : c.isDigit = true :=
      Nat.isDigit_of_mem_toDigits (b := 10) (n := n) (by omega) (by omega) (by simp [digits])
    have text : (toString (Int.ofNat n)).toList = Nat.toDigits 10 n := Nat.toList_repr
    rw [text, digits, List.cons_append, readToken_digit digit, ← List.cons_append, ← digits,
      readNat_toDigits n sep]
    rfl
  | negSucc n =>
    have text : (toString (Int.negSucc n)).toList = '-' :: Nat.toDigits 10 (n + 1) := by
      rw [Int.toString_eq_repr, Int.repr_eq_if, if_neg (by omega), String.toList_append,
        Nat.toList_repr]
      rfl
    rw [text]
    change (readNat (Nat.toDigits 10 (n + 1) ++ rest)).map _ = _
    rw [readNat_toDigits (n + 1) sep]
    rfl

/-- A token is read back from its text, a number if no digit follows. -/
theorem readToken_text (reads : ReadsBack quote) (t : Token)
    (sep : ∀ i, t = .int i → NoDigit rest) :
    readToken (t.text quote ++ rest) = some (t, rest) := by
  cases t with
  | bool b => cases b <;> rfl
  | int i => exact readToken_int i (sep i rfl)
  | string s => exact reads s rest
  | lbrace | rbrace | lbracket | rbracket | comma | colon | null => rfl

theorem text_ne_nil (reads : ReadsBack quote) (t : Token) : t.text quote ≠ [] := by
  intro empty
  have read : readToken (t.text quote ++ []) = some (t, []) :=
    readToken_text reads t fun _ _ => NoDigit.nil
  rw [empty] at read
  cases read

/-- No token starts with white space. -/
theorem readToken_space {c : Char} {cs : List Char} (blank : isSpace c = true) :
    readToken (c :: cs) = none := by
  rcases isSpace_iff.mp blank with rfl | rfl | rfl | rfl <;> rfl

end Written

/-! ## String literals -/

def escapeLetter : Char → Option Char
  | '"' => some '"'
  | '\\' => some '\\'
  | '\x08' => some 'b'
  | '\x0c' => some 'f'
  | '\n' => some 'n'
  | '\r' => some 'r'
  | '\t' => some 't'
  | _ => none

def escape (c : Char) : List Char :=
  match escapeLetter c with
  | some letter => ['\\', letter]
  | none =>
    if c.toNat < 32 then
      ['\\', 'u', '0', '0', Nat.digitChar (c.toNat / 16), Nat.digitChar (c.toNat % 16)]
    else [c]

/-- A literal with no more escapes than it needs. -/
def quote (s : String) : List Char := '"' :: (s.toList.flatMap escape ++ ['"'])

theorem unescape_escapeLetter {c letter : Char} (h : escapeLetter c = some letter) :
    unescape letter = some c ∧ letter ≠ 'u' := by
  unfold escapeLetter at h
  split at h <;> cases h <;> exact ⟨rfl, by decide⟩

theorem readHex_control : ∀ n < 32,
    readHex '0' '0' (Nat.digitChar (n / 16)) (Nat.digitChar (n % 16)) = some (Char.ofNat n) := by
  decide

/-- One character, escaped or not. -/
theorem readChars_escape (c : Char) (rest : List Char) :
    readChars (escape c ++ rest) = (readChars rest).map fun (cs, rest) => (c :: cs, rest) := by
  unfold escape
  cases h : escapeLetter c with
  | some letter =>
    obtain ⟨back, plain⟩ := unescape_escapeLetter h
    simp only [List.cons_append, List.nil_append]
    rw [readChars]
    · rw [back]
      cases readChars rest <;> rfl
    · rintro _ _ _ _ _ ⟨rfl, -⟩
      contradiction
  | none =>
    split_ifs with control
    · have code := readHex_control c.toNat control
      rw [Char.ofNat_toNat] at code
      simp only [List.cons_append, List.nil_append]
      rw [readChars, code]
      cases readChars rest <;> rfl
    · have plain : c ≠ '"' ∧ c ≠ '\\' := by
        constructor <;> rintro rfl <;> simp [escapeLetter] at h
      simp only [List.cons_append, List.nil_append]
      rw [readChars]
      · rw [if_neg control]
        cases readChars rest <;> rfl
      · exact plain.1
      · exact fun _ _ _ _ _ backslash _ => plain.2 backslash
      · exact fun _ _ backslash _ => plain.2 backslash

theorem readChars_escapes (cs rest : List Char) :
    readChars (cs.flatMap escape ++ '"' :: rest) = some (cs, rest) := by
  induction cs with
  | nil => simp [readChars]
  | cons c cs ih => rw [List.flatMap_cons, List.append_assoc, readChars_escape, ih]; rfl

theorem quote_readsBack : ReadsBack quote := by
  intro s rest
  have body := readChars_escapes s.toList rest
  change (readChars (s.toList.flatMap escape ++ ['"'] ++ rest)).map _ = _
  rw [List.append_assoc, List.singleton_append, body]
  simp

/-! ## Texts with white space -/

/-- The tokens one after the other, with white space anywhere between them. -/
inductive Spaced (quote : String → List Char) : List Token → List Char → Prop where
  | nil : Spaced quote [] []
  | space {c : Char} {ts : List Token} {cs : List Char} : isSpace c = true →
      Spaced quote ts cs → Spaced quote ts (c :: cs)
  | token (t : Token) {ts : List Token} {cs : List Char} : (∀ i, t = .int i → NoDigit cs) →
      Spaced quote ts cs → Spaced quote (t :: ts) (t.text quote ++ cs)

namespace Spaced

variable {quote : String → List Char} {ts : List Token} {cs : List Char}

theorem spaces {white : List Char} (blank : ∀ c ∈ white, isSpace c = true)
    (h : Spaced quote ts cs) : Spaced quote ts (white ++ cs) := by
  induction white with
  | nil => exact h
  | cons c white ih =>
    obtain ⟨first, others⟩ := List.forall_mem_cons.mp blank
    exact .space first (ih others)

/-- The tokens are what is read. -/
theorem lex (reads : ReadsBack quote) (h : Spaced quote ts cs) : Json.lex cs = some ts := by
  induction h with
  | nil => rw [Json.lex]
  | space blank _ ih =>
    rw [Json.lex, if_pos blank]
    exact ih
  | @token t ts cs sep _ ih =>
    have read := readToken_text reads t sep
    obtain ⟨c, rest, text⟩ := List.exists_cons_of_ne_nil (text_ne_nil reads t)
    rw [text, List.cons_append] at read ⊢
    have solid : ¬ isSpace c = true := by
      intro blank
      rw [readToken_space blank] at read
      contradiction
    have shorter : cs.length ≤ (rest ++ cs).length := by simp
    rw [Json.lex, if_neg solid, read]
    simp only [if_pos shorter, ih, Option.map_some]

end Spaced

end Json
