import PyScoped.Foundation.Json

/-! JSON text with Python's default separators, and a scan over it that knows
whether it stands inside a string literal. A blank outside literals is layout,
and without its layout the text is the compact one. -/

namespace Foundation.Json

mutual
def spaced : Json → List Char
  | .arr [] => ['[', ']']
  | .arr (item :: items) => '[' :: (spaced item ++ spacedItems items)
  | .obj [] => ['{', '}']
  | .obj ((key, value) :: members) => '{' :: (quote key ++ ':' :: ' ' :: (spaced value ++ spacedMembers members))
  | value => render value

def spacedItems : List Json → List Char
  | [] => [']']
  | item :: items => ',' :: ' ' :: (spaced item ++ spacedItems items)

def spacedMembers : List (String × Json) → List Char
  | [] => ['}']
  | (key, value) :: members => ',' :: ' ' :: (quote key ++ ':' :: ' ' :: (spaced value ++ spacedMembers members))
end

/-- `json.dumps` with sorted keys and otherwise default arguments. -/
def dumpsSpaced (value : Json) : List Char := value.sortKeys.spaced

/-- Where a scan stands: inside a literal or not, right after a backslash or not. -/
structure Lexer where
  inside : Bool
  escaped : Bool
  deriving DecidableEq, Repr

namespace Lexer

def outside : Lexer := ⟨false, false⟩

def step (lexer : Lexer) (c : Char) : Lexer :=
  if lexer.escaped then { lexer with escaped := false }
  else if c = '\\' then { lexer with escaped := true }
  else if c = '"' then { lexer with inside := !lexer.inside }
  else lexer

def scan (lexer : Lexer) (text : List Char) : Lexer := text.foldl step lexer

/-- The text without the blanks between tokens. -/
def squeeze : Lexer → List Char → List Char
  | _, [] => []
  | lexer, c :: text =>
    if c = ' ' ∧ lexer.inside = false then squeeze (lexer.step c) text else c :: squeeze (lexer.step c) text

/-- No bar stands outside a literal. -/
def quiet : Lexer → List Char → Bool
  | _, [] => true
  | lexer, c :: text => (lexer.inside || c ≠ '|') && quiet (lexer.step c) text

/-- The opposite side of every quotation mark. -/
def mirror (lexer : Lexer) : Lexer := { lexer with inside := !lexer.inside }

@[simp] theorem scan_nil (lexer : Lexer) : lexer.scan [] = lexer := rfl

@[simp] theorem scan_cons (lexer : Lexer) (c : Char) (text : List Char) :
    lexer.scan (c :: text) = (lexer.step c).scan text := rfl

theorem scan_append (lexer : Lexer) (first second : List Char) :
    lexer.scan (first ++ second) = (lexer.scan first).scan second := List.foldl_append

theorem squeeze_append (lexer : Lexer) (first second : List Char) :
    lexer.squeeze (first ++ second) = lexer.squeeze first ++ (lexer.scan first).squeeze second := by
  induction first generalizing lexer with
  | nil => rfl
  | cons c first ih =>
    simp only [List.cons_append, squeeze, scan_cons, ih]
    split
    · rfl
    · rfl

theorem quiet_append (lexer : Lexer) (first second : List Char) :
    lexer.quiet (first ++ second) = (lexer.quiet first && (lexer.scan first).quiet second) := by
  induction first generalizing lexer with
  | nil => rfl
  | cons c first ih => simp only [List.cons_append, quiet, scan_cons, ih, Bool.and_assoc]

theorem scan_mirror (lexer : Lexer) (text : List Char) : lexer.mirror.scan text = (lexer.scan text).mirror := by
  induction text generalizing lexer with
  | nil => rfl
  | cons c text ih =>
    have once : lexer.mirror.step c = (lexer.step c).mirror := by
      unfold step mirror
      dsimp only
      split
      · rfl
      split
      · rfl
      split
      · rfl
      · rfl
    rw [scan_cons, scan_cons, once, ih]

end Lexer

open Lexer

/-- A scan over a whole text that starts outside literals ends there, meets no
bar outside literals, and leaves the given text when blanks are dropped. -/
structure Reads (text compact : List Char) : Prop where
  ends : outside.scan text = outside
  bars : outside.quiet text = true
  squeezed : outside.squeeze text = compact

variable {text : List Char}

namespace Reads

theorem append {first second first' second' : List Char} (one : Reads first first') (two : Reads second second') :
    Reads (first ++ second) (first' ++ second') := by
  refine ⟨?_, ?_, ?_⟩
  · rw [scan_append, one.ends, two.ends]
  · rw [quiet_append, one.ends, one.bars, two.bars, Bool.and_self]
  · rw [squeeze_append, one.ends, one.squeezed, two.squeezed]

theorem nil : Reads [] [] := ⟨rfl, rfl, rfl⟩

private theorem step_plain {c : Char} (quotation : c ≠ '"') (escape : c ≠ '\\') (lexer : Lexer)
    (fresh : lexer.escaped = false) : lexer.step c = lexer := by
  simp [step, fresh, quotation, escape]

theorem cons {c : Char} {compact : List Char} (quotation : c ≠ '"') (escape : c ≠ '\\') (blank : c ≠ ' ')
    (bar : c ≠ '|') (rest : Reads text compact) : Reads (c :: text) (c :: compact) := by
  have same : outside.step c = outside := step_plain quotation escape outside rfl
  refine ⟨?_, ?_, ?_⟩
  · rw [scan_cons, same, rest.ends]
  · simp [quiet, same, rest.bars, bar]
  · simp [squeeze, same, rest.squeezed, blank]

theorem space {compact : List Char} (rest : Reads text compact) : Reads (' ' :: text) compact :=
  ⟨rest.ends, rest.bars, rest.squeezed⟩

theorem plain (plain : ∀ c ∈ text, c ≠ '"' ∧ c ≠ '\\' ∧ c ≠ ' ' ∧ c ≠ '|') : Reads text text := by
  induction text with
  | nil => exact nil
  | cons c text ih =>
    obtain ⟨quotation, escape, blank, bar⟩ := plain c List.mem_cons_self
    exact cons quotation escape blank bar (ih fun d member => plain d (List.mem_cons_of_mem _ member))

end Reads

/-- A text that a scan crosses within a literal. -/
structure Within (text : List Char) : Prop where
  ends : Lexer.scan ⟨true, false⟩ text = ⟨true, false⟩
  bars : quiet ⟨true, false⟩ text = true
  kept : squeeze ⟨true, false⟩ text = text

namespace Within

theorem append {first second : List Char} (one : Within first) (two : Within second) : Within (first ++ second) := by
  refine ⟨?_, ?_, ?_⟩
  · rw [scan_append, one.ends, two.ends]
  · rw [quiet_append, one.ends, one.bars, two.bars, Bool.and_self]
  · rw [squeeze_append, one.ends, one.kept, two.kept]

theorem nil : Within [] := ⟨rfl, rfl, rfl⟩

theorem single {c : Char} (quotation : c ≠ '"') (escape : c ≠ '\\') : Within [c] := by
  refine ⟨?_, ?_, ?_⟩
  · simp [step, quotation, escape]
  · simp [quiet]
  · simp [squeeze]

/-- A backslash and the character it escapes. -/
theorem escape (c : Char) : Within ['\\', c] := ⟨rfl, rfl, by simp [squeeze, step]⟩

private theorem digit (n : Nat) : Within [(n % 16).digitChar] := by
  have small : n % 16 < 16 := Nat.mod_lt _ (by decide)
  generalize n % 16 = digit at small
  interval_cases digit <;> exact single (by decide) (by decide)

theorem unicode (n : Nat) : Within (unicodeEscape n) :=
  (escape 'u').append ((digit _).append ((digit _).append ((digit _).append (digit _))))

theorem escaped (c : Char) : Within (escapeChar c) := by
  unfold escapeChar
  split
  · exact escape _
  next quotation =>
  split
  · exact escape _
  next backslash =>
  iterate 5
    split
    · exact escape _
  split
  · exact single quotation backslash
  split
  · exact unicode _
  · exact (unicode _).append (unicode _)

theorem flatMap (text : List Char) : Within (text.flatMap escapeChar) := by
  induction text with
  | nil => exact nil
  | cons c text ih => exact (escaped c).append ih

end Within

theorem quote_reads (text : String) : Reads (quote text) (quote text) := by
  have body := Within.flatMap text.toList
  refine ⟨?_, ?_, ?_⟩
  · change Lexer.scan ⟨true, false⟩ (text.toList.flatMap escapeChar ++ ['"']) = _
    rw [scan_append, body.ends]
    rfl
  · change quiet ⟨true, false⟩ (text.toList.flatMap escapeChar ++ ['"']) = _
    rw [quiet_append, body.ends, body.bars]
    rfl
  · change '"' :: squeeze ⟨true, false⟩ (text.toList.flatMap escapeChar ++ ['"']) = _
    rw [squeeze_append, body.ends, body.kept]
    rfl

private theorem numeric_reads (numeric : ∀ c ∈ text, Numeric c = true) : Reads text text := by
  refine .plain fun c member => ?_
  have number := numeric c member
  refine ⟨?_, ?_, ?_, ?_⟩ <;> rintro rfl <;> revert number <;> decide

mutual
theorem spaced_reads (value : Json) : Reads value.spaced value.render := by
  match value with
  | .null | .bool true | .bool false | .nonfinite =>
    simp only [spaced, render]
    exact .plain (by simp)
  | .int number => exact numeric_reads fun c member => (int_numeric number c member).1
  | .float number => exact numeric_reads number.numeric
  | .str text => exact quote_reads text
  | .arr [] | .obj [] =>
    simp only [spaced, render]
    exact .plain (by simp)
  | .arr (item :: items) =>
    exact .cons (by decide) (by decide) (by decide) (by decide) ((spaced_reads item).append (items_reads items))
  | .obj ((key, value) :: members) =>
    refine .cons (by decide) (by decide) (by decide) (by decide) ((quote_reads key).append ?_)
    refine .cons (by decide) (by decide) (by decide) (by decide) (.space ?_)
    exact (spaced_reads value).append (members_reads members)

theorem items_reads (items : List Json) : Reads (spacedItems items) (renderItems items) := by
  match items with
  | [] =>
    simp only [spacedItems, renderItems]
    exact .plain (by simp)
  | item :: items =>
    refine .cons (by decide) (by decide) (by decide) (by decide) (.space ?_)
    exact (spaced_reads item).append (items_reads items)

theorem members_reads (members : List (String × Json)) : Reads (spacedMembers members) (renderMembers members) := by
  match members with
  | [] =>
    simp only [spacedMembers, renderMembers]
    exact .plain (by simp)
  | (key, value) :: members =>
    refine .cons (by decide) (by decide) (by decide) (by decide) (.space ((quote_reads key).append ?_))
    refine .cons (by decide) (by decide) (by decide) (by decide) (.space ?_)
    exact (spaced_reads value).append (members_reads members)
end

/-- The text with layout determines a finite value up to the order of keys. -/
theorem dumpsSpaced_inj {first second : Json} (finite : first.finite = true) (finite' : second.finite = true)
    (same : first.dumpsSpaced = second.dumpsSpaced) : Same first second := by
  have compact : first.sortKeys.render = second.sortKeys.render := by
    rw [← (spaced_reads first.sortKeys).squeezed, ← (spaced_reads second.sortKeys).squeezed]
    exact congrArg _ same
  have encoded : first.dumps = some second.sortKeys.render := by rw [dumps, if_pos finite, compact]
  exact dumps_inj encoded (by rw [dumps, if_pos finite'])

private theorem bar_inside {lexer : Lexer} {before after : List Char} (silent : lexer.quiet (before ++ '|' :: after) = true) :
    (lexer.scan before).inside = true := by
  rw [quiet_append, Bool.and_eq_true] at silent
  simpa [quiet] using (Bool.and_eq_true_iff.mp silent.2).1

/-- No tail of a JSON text behind a bar is a JSON text: it starts inside a
literal, so it would have to end there. -/
theorem no_tail_after_bar (value value' : Json) (before : List Char) :
    value.dumpsSpaced ≠ before ++ '|' :: value'.dumpsSpaced := by
  intro same
  have whole := spaced_reads value.sortKeys
  have tail := (spaced_reads value'.sortKeys).ends
  change value.sortKeys.spaced = before ++ '|' :: value'.sortKeys.spaced at same
  rw [same] at whole
  have inside := bar_inside whole.bars
  have after : (outside.scan before).step '|' = outside.mirror := by
    generalize outside.scan before = lexer at inside
    obtain ⟨inside', escaped⟩ := lexer
    cases inside
    cases escaped <;> rfl
  have ends := whole.ends
  rw [scan_append, scan_cons, after, scan_mirror, tail] at ends
  exact absurd ends (by decide)

end Foundation.Json
