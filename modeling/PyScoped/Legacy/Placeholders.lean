import Mathlib.Data.List.TakeWhile
import PyScoped.Legacy.Errors

/-! Statements with `?` placeholders are rewritten for the drivers of version 1:
for those that take `%s`, and for the `text()` of SQLAlchemy, which takes names. -/

namespace PyScoped.Legacy.Placeholders
open Foundation

section Percent

/-- What is left of a literal behind its first quote, up to the next one, and what follows. -/
def shortLiteral (text : List Char) : Option (List Char × List Char) :=
  match text.dropWhile (· ≠ '\'') with
  | [] => none
  | quote :: rest => some (text.takeWhile (· ≠ '\'') ++ [quote], rest)

theorem shortLiteral_shorter {text literal rest : List Char} (found : shortLiteral text = some (literal, rest)) :
    rest.length < text.length := by
  unfold shortLiteral at found
  split at found
  · cases found
  next quote rest' ends =>
    cases found
    have fewer := (List.dropWhile_suffix (l := text) (fun c => decide (c ≠ '\''))).length_le
    rw [ends, List.length_cons] at fewer
    omega

/-- `_PLACEHOLDER_RE.sub`: literals are passed over, and a quote that opens none is one
character like another. -/
def translate : List Char → List Char
  | [] => []
  | c :: text =>
    if c = '?' then '%' :: 's' :: translate text
    else if c = '\'' then
      match found : shortLiteral text with
      | some (literal, rest) =>
        have := shortLiteral_shorter found
        c :: literal ++ translate rest
      | none => c :: translate text
    else c :: translate text
  termination_by text => text.length

def translatePlaceholders (sql : String) : String := String.ofList (translate sql.toList)

end Percent

section Names

variable {V : Type}

/-- What `_QUOTE_SPLIT` matches of a literal behind its first quote: up to the last quote
that doubled quotes lead to. -/
def longLiteral : List Char → Option (List Char × List Char)
  | [] => none
  | '\'' :: '\'' :: text => match longLiteral text with
    | some (literal, rest) => some ('\'' :: '\'' :: literal, rest)
    | none => some (['\''], '\'' :: text)
  | '\'' :: text => some (['\''], text)
  | c :: text => (longLiteral text).map fun found => (c :: found.1, found.2)

theorem longLiteral_shorter {text literal rest : List Char} (found : longLiteral text = some (literal, rest)) :
    rest.length < text.length := by
  fun_induction longLiteral text generalizing literal rest with
  | case1 => cases found
  | case2 text literal' rest' inner ih =>
    cases found
    have := ih inner
    simp only [List.length_cons]
    omega
  | case3 =>
    cases found
    simp
  | case4 =>
    cases found
    simp
  | case5 c text doubled plain ih =>
    obtain ⟨⟨literal', rest'⟩, inner, same⟩ := Option.map_eq_some_iff.mp found
    cases same
    have fewer : rest'.length < text.length := ih inner
    exact fewer.trans (Nat.lt_succ_self _)

/-- `_QUOTE_SPLIT.split`: what is outside of literals, and the literals between. -/
def quoteSplit (outside : List Char) : List Char → List (List Char)
  | [] => [outside]
  | c :: text =>
    if c = '\'' then
      match found : longLiteral text with
      | some (literal, rest) =>
        have := longLiteral_shorter found
        outside :: (c :: literal) :: quoteSplit [] rest
      | none => quoteSplit (outside ++ [c]) text
    else quoteSplit (outside ++ [c]) text
  termination_by text => text.length

/-- What a rewriting has come to: the text, the names with their values, and the number
of parameters that are used up. -/
structure Rewritten (V : Type) where
  text : List Char
  named : List (String × V)
  idx : Nat

/-- `re.sub` of one segment. -/
def subMarks (params : List V) : Rewritten V → List Char → Except Raised (Rewritten V)
  | done, [] => .ok done
  | done, c :: segment =>
    if c = '?' then
      match params[done.idx]? with
      | none => .error (.other "tuple index out of range")
      | some value =>
        let key := 'p' :: Nat.toDigits 10 done.idx
        subMarks params ⟨done.text ++ ':' :: key, done.named ++ [(String.ofList key, value)], done.idx + 1⟩ segment
    else subMarks params ⟨done.text ++ [c], done.named, done.idx⟩ segment

/-- Every other segment is a literal, and is left as it is. -/
def rewriteSegments (params : List V) : Bool → Rewritten V → List (List Char) → Except Raised (Rewritten V)
  | _, done, [] => .ok done
  | true, done, segment :: segments => do
    let done ← subMarks params done segment
    rewriteSegments params false done segments
  | false, done, segment :: segments => rewriteSegments params true ⟨done.text ++ segment, done.named, done.idx⟩ segments

inductive Params (V : Type) where
  | positional (values : List V)
  | named (values : List (String × V))

/-- `_rewrite_sql_params` -/
def rewriteSqlParams (sql : String) : Params V → Except Raised (String × List (String × V))
  | .named values => .ok (sql, values)
  | .positional [] => .ok (sql, [])
  | .positional params => do
    let done ← rewriteSegments params true ⟨[], [], 0⟩ (quoteSplit [] sql.toList)
    return (String.ofList done.text, done.named)

end Names

/-! What binds the parameters. A statement is sent as characters with values between them. -/

inductive Piece (V : Type) where
  | char (c : Char)
  | value (value : V)

variable {V : Type}

/-- A driver that takes `%s` reads `%%` as one character and refuses any other use of `%`,
and too few parameters as well as too many. -/
def bindPercent : List Char → List V → Option (List (Piece V))
  | [], [] => some []
  | [], _ :: _ => none
  | c :: text, values =>
    if c = '%' then match text, values with
      | 's' :: text, value :: values => (bindPercent text values).map (.value value :: ·)
      | '%' :: text, values => (bindPercent text values).map (.char '%' :: ·)
      | _, _ => none
    else (bindPercent text values).map (.char c :: ·)

/-- What a version of `text()` takes for a parameter: a name behind a colon, unless the
character before the colon guards it. Of a name with another colon behind it some take
fewer characters, or none, and some drop the backslash before a colon. -/
structure Naming where
  isName : Char → Bool
  letter : isName 'p' = true
  digits : ∀ n < 10, isName n.digitChar = true
  colon : isName ':' = false
  backslash : isName '\\' = false
  guards : Char → Bool
  colonGuards : guards ':' = true
  backslashGuards : guards '\\' = true
  beforeColon : Nat → Nat
  fewer : ∀ run, beforeColon run ≤ run
  unescapes : Bool

namespace Naming

variable (naming : Naming)

/-- How many of the name characters behind a colon are taken. -/
def taken (run : Nat) (colon : Bool) : Nat := if colon then naming.beforeColon run else run

def nameLength (text : List Char) : Nat :=
  naming.taken (text.takeWhile naming.isName).length ((text.dropWhile naming.isName).head? = some ':')

def drops (c : Char) (text : List Char) : Bool :=
  c = '\\' && naming.unescapes && text.head? = some ':' && (text.tail.dropWhile naming.isName).head? ≠ some ':'

end Naming

/-- A parameter without a value is refused. -/
def bindNamed (naming : Naming) (named : List (String × V)) (guarded : Bool) : List Char → Option (List (Piece V))
  | [] => some []
  | c :: text =>
    let length := naming.nameLength text
    if c = ':' && !guarded && 0 < length then
      match named.lookup (String.ofList (text.take length)) with
      | none => none
      | some value =>
        (bindNamed naming named ((text.take length).getLast?.any naming.guards) (text.drop length)).map (.value value :: ·)
    else if naming.drops c text then bindNamed naming named (naming.guards c) text
    else (bindNamed naming named (naming.guards c) text).map (.char c :: ·)
  termination_by text => text.length
  decreasing_by
    · exact Nat.lt_succ_of_le (by simp)
    · exact Nat.lt_succ_self _
    · exact Nat.lt_succ_self _

end PyScoped.Legacy.Placeholders
