import OwlAprilTagProcessor.Library.JsonDocument

/-!
# Laying out a document

A style says which white space stands around the elements of a container. Whatever the
style, the text is read as the document.
-/

namespace Json

theorem not_isDigit_of_isSpace {c : Char} (blank : isSpace c = true) : c.isDigit = false := by
  rcases isSpace_iff.mp blank with rfl | rfl | rfl | rfl <;> rfl

/-- Nothing but white space. -/
def Blank (cs : List Char) : Prop := ∀ c ∈ cs, isSpace c = true

theorem Blank.nil : Blank [] := by simp [Blank]

theorem NoDigit.after {white cs : List Char} (blank : Blank white) (sep : NoDigit cs) :
    NoDigit (white ++ cs) := by
  cases white with
  | nil => exact sep
  | cons c white =>
    exact NoDigit.cons (not_isDigit_of_isSpace (blank c List.mem_cons_self))

structure Style where
  /-- Before an element at a depth, and before the bracket that closes it. -/
  line : Nat → List Char
  /-- Inside an empty container. -/
  empty : List Char
  /-- On either side of a colon. -/
  gap : List Char
  blank_line : ∀ d, Blank (line d)
  blank_empty : Blank empty
  blank_gap : Blank gap

/-- No white space. -/
def compact : Style where
  line _ := []
  empty := []
  gap := []
  blank_line _ := .nil
  blank_empty := .nil
  blank_gap := .nil

@[simp] theorem compact_line (d : Nat) : compact.line d = [] := rfl

@[simp] theorem compact_empty : compact.empty = [] := rfl

@[simp] theorem compact_gap : compact.gap = [] := rfl

/-- Every element on a line of its own, with `width` spaces for each level. -/
def indented (width : Nat) : Style where
  line d := '\n' :: List.replicate (width * d) ' '
  empty := ['\n']
  gap := [' ']
  blank_line d := by
    intro c hc
    rcases List.mem_cons.mp hc with rfl | spaces
    · rfl
    · rw [List.eq_of_mem_replicate spaces]
      rfl
  blank_empty := by
    intro c hc
    rw [List.mem_singleton.mp hc]
    rfl
  blank_gap := by
    intro c hc
    rw [List.mem_singleton.mp hc]
    rfl

section Indented

variable (width : Nat)

@[simp] theorem indented_line (d : Nat) :
    (indented width).line d = '\n' :: List.replicate (width * d) ' ' := rfl

@[simp] theorem indented_empty : (indented width).empty = ['\n'] := rfl

@[simp] theorem indented_gap : (indented width).gap = [' '] := rfl

end Indented

section Layout

variable (style : Style) (quote : String → List Char)

mutual
/-- The text of a document whose elements are at depth `d + 1`. -/
def Value.layout (d : Nat) : Value → List Char
  | .array xs => '[' :: (arrayLayout (d + 1) xs ++ (style.line d ++ [']']))
  | .object members => '\x7b' :: (objectLayout (d + 1) members ++ (style.line d ++ ['\x7d']))
  | v => v.tokens.flatMap (Token.text quote)

def arrayLayout (d : Nat) : List Value → List Char
  | [] => style.empty
  | x :: xs =>
    style.line d ++ (x.layout d ++ if xs.isEmpty then [] else ',' :: arrayLayout d xs)

def objectLayout (d : Nat) : List (String × Value) → List Char
  | [] => style.empty
  | (key, v) :: members =>
    style.line d ++ (quote key ++ (style.gap ++ ':' :: (style.gap ++
      (v.layout d ++ if members.isEmpty then [] else ',' :: objectLayout d members))))
end

/-- Without white space a text is that of its tokens. -/
theorem layout_compact (v : Value) (d : Nat) :
    v.layout compact quote d = v.tokens.flatMap (Token.text quote) := by
  induction v generalizing d with
  | null | bool b | int64 i | uint64 n | double q | string s => simp [Value.layout]
  | array xs each =>
    have elements : arrayLayout compact quote (d + 1) xs =
        (arrayTokens xs).flatMap (Token.text quote) := by
      induction xs with
      | nil => rfl
      | cons x xs ih =>
        obtain ⟨first, others⟩ := List.forall_mem_cons.mp each
        rw [arrayLayout, arrayTokens, first, ih others]
        cases xs <;> simp [Token.text]
    simp [Value.layout, Value.tokens, elements, Token.text]
  | object members each =>
    have elements : objectLayout compact quote (d + 1) members =
        (objectTokens members).flatMap (Token.text quote) := by
      induction members with
      | nil => rfl
      | cons m members ih =>
        obtain ⟨key, v⟩ := m
        obtain ⟨first, others⟩ := List.forall_mem_cons.mp each
        rw [objectLayout, objectTokens, first, ih others]
        cases members <;> simp [Token.text]
    simp [Value.layout, Value.tokens, elements, Token.text]

end Layout

section Spaced

variable {style : Style} {quote : String → List Char}

theorem Spaced.punctuation {t : Token} {ts : List Token} {c : Char} {cs : List Char}
    (text : t.text quote = [c]) (word : ∀ i, t ≠ .int i) (h : Spaced quote ts cs) :
    Spaced quote (t :: ts) (c :: cs) := by
  have one := Spaced.token t (fun i int => absurd int (word i)) h
  rw [text] at one
  exact one

/-- What a layout of `v` does to a text that follows it. -/
def Value.Prepends (style : Style) (quote : String → List Char) (v : Value) : Prop :=
  ∀ d ts cs, NoDigit cs → Spaced quote ts cs →
    Spaced quote (v.tokens ++ ts) (v.layout style quote d ++ cs)

theorem spaced_arrayLayout {xs : List Value} (each : ∀ x ∈ xs, x.Prepends style quote) (d : Nat)
    (ts : List Token) (cs : List Char) (sep : NoDigit cs) (h : Spaced quote ts cs) :
    Spaced quote (arrayTokens xs ++ ts) (arrayLayout style quote d xs ++ cs) := by
  induction xs with
  | nil => exact h.spaces style.blank_empty
  | cons x xs ih =>
    obtain ⟨first, others⟩ := List.forall_mem_cons.mp each
    have more := ih others
    rw [arrayTokens, arrayLayout]
    simp only [List.append_assoc]
    apply Spaced.spaces (style.blank_line d)
    cases xs with
    | nil =>
      simp only [List.isEmpty_nil, if_true, List.nil_append]
      exact first d ts cs sep h
    | cons y ys =>
      simp only [List.isEmpty_cons, Bool.false_eq_true, if_false, List.cons_append]
      apply first
      · exact NoDigit.cons rfl
      · exact more.punctuation rfl (by simp)

theorem spaced_objectLayout {members : List (String × Value)}
    (each : ∀ m ∈ members, m.2.Prepends style quote) (d : Nat) (ts : List Token)
    (cs : List Char) (sep : NoDigit cs) (h : Spaced quote ts cs) :
    Spaced quote (objectTokens members ++ ts) (objectLayout style quote d members ++ cs) := by
  induction members with
  | nil => exact h.spaces style.blank_empty
  | cons m members ih =>
    obtain ⟨key, v⟩ := m
    obtain ⟨(first : v.Prepends style quote), others⟩ := List.forall_mem_cons.mp each
    have more := ih others
    rw [objectTokens, objectLayout]
    simp only [List.append_assoc, List.cons_append]
    apply Spaced.spaces (style.blank_line d)
    apply Spaced.token (.string key) (by simp)
    apply Spaced.spaces style.blank_gap
    apply Spaced.punctuation (t := .colon) rfl (by simp)
    apply Spaced.spaces style.blank_gap
    cases members with
    | nil =>
      simp only [List.isEmpty_nil, if_true, List.nil_append]
      exact first d ts cs sep h
    | cons m members =>
      simp only [List.isEmpty_cons, Bool.false_eq_true, if_false, List.cons_append]
      apply first
      · exact NoDigit.cons rfl
      · exact more.punctuation rfl (by simp)

/-- A layout is the tokens with white space between them. -/
theorem prepends_of_integral (style : Style) (quote : String → List Char) {v : Value}
    (integral : v.Integral) : v.Prepends style quote := by
  induction integral with
  | null | bool b | int64 i | uint64 n | string s =>
    intro d ts cs sep h
    simp only [Value.tokens, Value.layout, List.flatMap_cons, List.flatMap_nil, List.append_nil]
    exact .token _ (fun _ _ => sep) h
  | @array xs each ih =>
    intro d ts cs sep h
    simp only [Value.tokens, Value.layout, List.cons_append, List.append_assoc, List.nil_append]
    apply Spaced.punctuation (t := .lbracket) rfl (by simp)
    apply spaced_arrayLayout ih
    · exact NoDigit.after (style.blank_line d) (NoDigit.cons rfl)
    · exact (h.punctuation (t := .rbracket) rfl (by simp)).spaces (style.blank_line d)
  | @object members each ih =>
    intro d ts cs sep h
    simp only [Value.tokens, Value.layout, List.cons_append, List.append_assoc, List.nil_append]
    apply Spaced.punctuation (t := .lbrace) rfl (by simp)
    apply spaced_objectLayout ih
    · exact NoDigit.after (style.blank_line d) (NoDigit.cons rfl)
    · exact (h.punctuation (t := .rbrace) rfl (by simp)).spaces (style.blank_line d)

/-- A layout and white space after it. -/
theorem spaced_layout {v : Value} (integral : v.Integral) (style : Style)
    (quote : String → List Char) (d : Nat) {white : List Char} (blank : Blank white) :
    Spaced quote v.tokens (v.layout style quote d ++ white) := by
  have ends : NoDigit (white ++ []) := NoDigit.after blank NoDigit.nil
  have after := prepends_of_integral style quote integral d [] (white ++ []) ends
    (Spaced.nil.spaces blank)
  rw [List.append_nil, List.append_nil] at after
  exact after

end Spaced

end Json
