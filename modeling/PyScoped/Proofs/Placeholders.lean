import PyScoped.Foundation.Numerals
import PyScoped.Legacy.Placeholders

/-! What the rewritten statements denote once the parameters are bound. Both
rewritings find the same placeholders; what the binding makes of the other
characters decides whether the statement is the one that was written. -/

namespace PyScoped.Legacy.Placeholders
open Foundation

variable {V : Type}

/-- A part of a statement: code without quotes and question marks, a literal with any
content, or a placeholder with its parameter. -/
inductive Segment (V : Type) where
  | code (text : List Char) (plain : ∀ c ∈ text, c ≠ '\'' ∧ c ≠ '?')
  | literal (content : List Char)
  | placeholder (value : V)

/-- Quotes inside a literal are doubled. -/
def doubled (content : List Char) : List Char := content.flatMap fun c => if c = '\'' then ['\'', '\''] else [c]

/-- What a segment denotes. -/
def Segment.pieces : Segment V → List (Piece V)
  | .code text _ => text.map .char
  | .literal content => ('\'' :: doubled content ++ ['\'']).map .char
  | .placeholder value => [.value value]

def Piece.text : Piece V → Char
  | .char c => c
  | .value _ => '?'

def Piece.param : Piece V → Option V
  | .char _ => none
  | .value given => some given

/-- The statement that is meant, as it is written, and its parameters. -/
def meant (segments : List (Segment V)) : List (Piece V) := segments.flatMap Segment.pieces

def written (segments : List (Segment V)) : List Char := (meant segments).map Piece.text

def params (segments : List (Segment V)) : List V := (meant segments).filterMap Piece.param

variable {c : Char} {text : List Char}

section Scan

/-- The placeholders of a text, as `none`, between its other characters. A quote opens a
literal where there is another one to close it. -/
def scan : Bool → List Char → List (Option Char)
  | _, [] => []
  | true, c :: text => some c :: scan (c ≠ '\'') text
  | false, c :: text => if c = '?' then none :: scan false text else some c :: scan (c = '\'' && '\'' ∈ text) text

theorem scan_inside {literal rest : List Char} (inside : '\'' ∉ literal) :
    scan true (literal ++ '\'' :: rest) = (literal ++ ['\'']).map some ++ scan false rest := by
  induction literal with
  | nil => rfl
  | cons c literal ih =>
    have different : c ≠ '\'' := fun same => inside (same ▸ List.mem_cons_self)
    rw [List.cons_append, scan, decide_eq_true different, ih fun member => inside (List.mem_cons_of_mem _ member)]
    rfl

theorem scan_doubled (content rest : List Char) :
    scan true (doubled content ++ '\'' :: rest) = (doubled content ++ ['\'']).map some ++ scan false rest := by
  induction content with
  | nil => rfl
  | cons c content ih =>
    rw [doubled, List.flatMap_cons, ← doubled]
    by_cases quote : c = '\''
    · subst quote
      rw [if_pos rfl, List.append_assoc, List.append_assoc]
      simp only [List.cons_append, List.nil_append, scan, ne_eq, not_true_eq_false, decide_false, List.map_cons]
      rw [if_neg (by decide)]
      simp [ih]
    · rw [if_neg quote, List.append_assoc]
      simp only [List.cons_append, List.nil_append, scan, decide_eq_true quote, List.map_cons, ih]

theorem scan_code (plain : ∀ c ∈ text, c ≠ '\'' ∧ c ≠ '?') (rest : List Char) :
    scan false (text ++ rest) = text.map some ++ scan false rest := by
  induction text with
  | nil => rfl
  | cons c text ih =>
    obtain ⟨noQuote, noMark⟩ := plain c List.mem_cons_self
    rw [List.cons_append, scan, if_neg noMark, decide_eq_false noQuote, Bool.false_and,
      ih fun c inside => plain c (List.mem_cons_of_mem _ inside)]
    rfl

def Piece.mark : Piece V → Option Char
  | .char c => some c
  | .value _ => none

theorem map_text_char (text : List Char) : (text.map (Piece.char (V := V))).map Piece.text = text := by
  rw [List.map_map]
  exact List.map_id text

theorem map_mark_char (text : List Char) : (text.map (Piece.char (V := V))).map Piece.mark = text.map some := by
  rw [List.map_map]
  rfl

theorem written_cons (segment : Segment V) (segments : List (Segment V)) :
    written (segment :: segments) = segment.pieces.map Piece.text ++ written segments := by
  rw [written, meant, List.flatMap_cons, List.map_append]
  rfl

theorem scan_written (segments : List (Segment V)) : scan false (written segments) = (meant segments).map Piece.mark := by
  induction segments with
  | nil => rfl
  | cons segment segments ih =>
    rw [written_cons, meant, List.flatMap_cons, ← meant, List.map_append, ← ih]
    cases segment with
    | code text plain => rw [Segment.pieces, map_text_char, map_mark_char, scan_code plain]
    | literal content =>
      have closing : '\'' ∈ doubled content ++ ['\''] ++ written segments := by simp
      rw [Segment.pieces, map_text_char, map_mark_char, List.cons_append, List.cons_append, scan, if_neg (by decide),
        decide_eq_true rfl, decide_eq_true closing, Bool.true_and, List.append_assoc, List.singleton_append, scan_doubled]
      rfl
    | placeholder value => rfl

theorem shortLiteral_some {literal rest : List Char} (found : shortLiteral text = some (literal, rest)) :
    ∃ inside, '\'' ∉ inside ∧ literal = inside ++ ['\''] ∧ text = inside ++ '\'' :: rest := by
  unfold shortLiteral at found
  split at found
  · cases found
  next quote rest' ends =>
    cases found
    have closing := List.head?_dropWhile_not (fun c => decide (c ≠ '\'')) text
    rw [ends] at closing
    obtain rfl : quote = '\'' := by simpa using closing
    refine ⟨text.takeWhile (· ≠ '\''), fun member => ?_, rfl, ?_⟩
    · have different := List.mem_takeWhile_imp member
      simp at different
    · rw [← ends, List.takeWhile_append_dropWhile]

theorem shortLiteral_none (missing : shortLiteral text = none) : '\'' ∉ text := by
  unfold shortLiteral at missing
  split at missing
  next ends =>
    intro member
    have different := List.dropWhile_eq_nil_iff.mp ends _ member
    simp at different
  · cases missing

theorem scan_plain (noMark : c ≠ '?') (noQuote : c ≠ '\'') (text : List Char) :
    scan false (c :: text) = some c :: scan false text := by
  rw [scan, if_neg noMark, decide_eq_false noQuote, Bool.false_and]

theorem scan_open (missing : '\'' ∉ text) : scan false ('\'' :: text) = some '\'' :: scan false text := by
  rw [scan, if_neg (by decide), decide_eq_false missing, Bool.and_false]

theorem scan_closed (closing : '\'' ∈ text) : scan false ('\'' :: text) = some '\'' :: scan true text := by
  rw [scan, if_neg (by decide), decide_eq_true closing, decide_eq_true rfl, Bool.and_true]

theorem translate_eq (text : List Char) :
    translate text = (scan false text).flatMap fun mark => mark.elim ['%', 's'] fun c => [c] := by
  fun_induction translate text with
  | case1 => rfl
  | case2 text ih =>
    rw [ih]
    rfl
  | case3 text literal rest found shorter noMark ih =>
    obtain ⟨inside, open', rfl, rfl⟩ := shortLiteral_some found
    rw [ih, scan_closed (by simp), scan_inside open', List.flatMap_cons, List.flatMap_append, List.flatMap_map]
    simp
  | case4 text found noMark ih =>
    rw [ih, scan_open (shortLiteral_none found)]
    rfl
  | case5 c text noMark noQuote ih =>
    rw [ih, scan_plain noMark noQuote]
    rfl

theorem longLiteral_some {literal rest : List Char} (found : longLiteral text = some (literal, rest)) :
    '\'' ∈ text ∧ scan true text = literal.map some ++ scan false rest := by
  fun_induction longLiteral text generalizing literal rest with
  | case1 => cases found
  | case2 text literal' rest' inner ih =>
    cases found
    obtain ⟨closing, same⟩ := ih inner
    refine ⟨List.mem_cons_self, ?_⟩
    rw [scan, decide_eq_false fun different => different rfl, scan_closed closing, same]
    rfl
  | case3 =>
    cases found
    exact ⟨List.mem_cons_self, rfl⟩
  | case4 =>
    cases found
    exact ⟨List.mem_cons_self, rfl⟩
  | case5 c text doubled plain ih =>
    obtain ⟨⟨literal', rest'⟩, inner, same⟩ := Option.map_eq_some_iff.mp found
    cases same
    obtain ⟨closing, same⟩ := ih inner
    have noQuote : c ≠ '\'' := plain
    rw [scan, decide_eq_true noQuote, same]
    exact ⟨List.mem_cons_of_mem _ closing, rfl⟩

theorem longLiteral_none (missing : longLiteral text = none) : '\'' ∉ text := by
  fun_induction longLiteral text with
  | case1 => exact List.not_mem_nil
  | case2 => cases missing
  | case3 => cases missing
  | case4 => cases missing
  | case5 c text doubled plain ih =>
    have noQuote : c ≠ '\'' := plain
    intro member
    rcases List.mem_cons.mp member with same | member
    · exact noQuote same.symm
    · exact ih (Option.map_eq_none_iff.mp missing) member

end Scan

variable {pieces : List (Piece V)}

section Numbered

/-- Placeholders are given names with numbers, as the rewriting does. -/
def numbered (params : List V) : Rewritten V → List (Option Char) → Except Raised (Rewritten V)
  | done, [] => .ok done
  | done, some c :: marks => numbered params ⟨done.text ++ [c], done.named, done.idx⟩ marks
  | done, none :: marks => match params[done.idx]? with
    | none => .error (.other "tuple index out of range")
    | some value =>
      let key := 'p' :: Nat.toDigits 10 done.idx
      numbered params ⟨done.text ++ ':' :: key, done.named ++ [(String.ofList key, value)], done.idx + 1⟩ marks

variable {params : List V} {done : Rewritten V}

theorem numbered_append (first second : List (Option Char)) :
    numbered params done (first ++ second) = numbered params done first >>= fun done => numbered params done second := by
  induction first generalizing done with
  | nil => rfl
  | cons mark first ih =>
    cases mark with
    | some c => exact ih
    | none =>
      rw [List.cons_append, numbered, numbered]
      cases params[done.idx]? with
      | none => rfl
      | some value => exact ih

theorem numbered_some (text : List Char) : numbered params done (text.map some) = .ok ⟨done.text ++ text, done.named, done.idx⟩ := by
  induction text generalizing done with
  | nil => rw [List.append_nil]; rfl
  | cons c text ih =>
    rw [List.map_cons, numbered, ih, List.append_assoc]
    rfl

/-- The placeholders of a text without literals. -/
def marks (text : List Char) : List (Option Char) := text.map fun c => if c = '?' then none else some c

theorem subMarks_eq (segment : List Char) : subMarks params done segment = numbered params done (marks segment) := by
  induction segment generalizing done with
  | nil => rfl
  | cons c segment ih =>
    rw [subMarks, marks, List.map_cons, ← marks]
    split
    · rw [numbered]
      cases params[done.idx]? with
      | none => rfl
      | some value => exact ih
    · exact ih

theorem scan_mark (noQuote : c ≠ '\'') (text : List Char) :
    scan false (c :: text) = (if c = '?' then none else some c) :: scan false text := by
  by_cases mark : c = '?'
  · rw [scan, if_pos mark, if_pos mark]
  · rw [scan_plain mark noQuote, if_neg mark]

theorem rewriteSegments_eq (outside text : List Char) :
    rewriteSegments params true done (quoteSplit outside text) = numbered params done (marks outside ++ scan false text) := by
  fun_induction quoteSplit outside text generalizing done with
  | case1 outside =>
    rw [rewriteSegments, subMarks_eq, scan, List.append_nil]
    cases numbered params done (marks outside) <;> rfl
  | case2 outside text literal rest found shorter ih =>
    obtain ⟨closing, same⟩ := longLiteral_some found
    rw [rewriteSegments, subMarks_eq, scan_closed closing, same, numbered_append]
    cases numbered params done (marks outside) with
    | error error => rfl
    | ok done =>
      change rewriteSegments params true _ _ = numbered params done (List.map some ('\'' :: literal) ++ scan false rest)
      rw [ih, numbered_append (List.map some ('\'' :: literal)), numbered_some]
      rfl
  | case3 outside text found ih =>
    rw [ih, scan_open (longLiteral_none found)]
    simp [marks]
  | case4 outside c text noQuote ih =>
    rw [ih, scan_mark noQuote]
    simp [marks]

def key (idx : Nat) : List Char := 'p' :: Nat.toDigits 10 idx

/-- The statement with names for its placeholders, from a number on. -/
def render (idx : Nat) : List (Piece V) → List Char
  | [] => []
  | .char c :: pieces => c :: render idx pieces
  | .value _ :: pieces => ':' :: (key idx ++ render (idx + 1) pieces)

def nameOf (idx : Nat) : String := String.ofList (key idx)

def names (idx : Nat) : List V → List (String × V)
  | [] => []
  | value :: values => (nameOf idx, value) :: names (idx + 1) values

theorem numbered_pieces (done : Rewritten V) (pieces : List (Piece V)) (given : params.drop done.idx = pieces.filterMap Piece.param) :
    numbered params done (pieces.map Piece.mark) = .ok
      ⟨done.text ++ render done.idx pieces, done.named ++ names done.idx (pieces.filterMap Piece.param),
        done.idx + (pieces.filterMap Piece.param).length⟩ := by
  induction pieces generalizing done with
  | nil => simp [numbered, render, names]
  | cons piece pieces ih =>
    cases piece with
    | char c =>
      rw [List.map_cons, Piece.mark, numbered, ih ⟨done.text ++ [c], done.named, done.idx⟩ given, render, List.append_assoc]
      rfl
    | value value =>
      have head : params[done.idx]? = some value := by
        rw [← List.head?_drop, given]
        rfl
      have tail : params.drop (done.idx + 1) = pieces.filterMap Piece.param := by
        rw [← List.tail_drop, given]
        rfl
      rw [List.map_cons, Piece.mark, numbered, head]
      dsimp only
      rw [ih ⟨_, _, done.idx + 1⟩ tail]
      simp [render, names, nameOf, key, Piece.param, Nat.add_assoc, Nat.add_comm]

theorem render_plain (none : pieces.filterMap Piece.param = []) (idx : Nat) :
    render idx pieces = pieces.map Piece.text := by
  induction pieces with
  | nil => rfl
  | cons piece pieces ih =>
    cases piece with
    | char c => exact congrArg (c :: ·) (ih none)
    | value value => cases none

theorem rewriteSqlParams_written (segments : List (Segment V)) :
    rewriteSqlParams (String.ofList (written segments)) (.positional (Placeholders.params segments)) =
      .ok (String.ofList (render 0 (meant segments)), names 0 (Placeholders.params segments)) := by
  have all := numbered_pieces ⟨[], [], 0⟩ (meant segments) (List.drop_zero (l := Placeholders.params segments))
  cases given : Placeholders.params segments with
  | nil =>
    rw [rewriteSqlParams, render_plain given, written]
    rfl
  | cons value values =>
    rw [given] at all
    rw [rewriteSqlParams, String.toList_ofList, rewriteSegments_eq, scan_written]
    · change (numbered (value :: values) ⟨[], [], 0⟩ ((meant segments).map Piece.mark) >>= _) = _
      rw [all]
      change Except.ok (String.ofList _, names 0 (Placeholders.params segments)) = _
      rw [given]
      rfl
    · nofun

end Numbered

section Percent

theorem bindPercent_count {values : List V} (bound : bindPercent text values = some pieces) :
    text.count '%' = 2 * (pieces.map Piece.text).count '%' + values.length := by
  fun_induction bindPercent text values generalizing pieces with
  | case1 =>
    cases bound
    rfl
  | case2 => cases bound
  | case3 value values text ih =>
    obtain ⟨rest, inner, rfl⟩ := Option.map_eq_some_iff.mp bound
    have fewer := ih inner
    simp [Piece.text]
    omega
  | case4 values text ih =>
    obtain ⟨rest, inner, rfl⟩ := Option.map_eq_some_iff.mp bound
    have fewer := ih inner
    simp [Piece.text]
    omega
  | case5 => cases bound
  | case6 c text values plain ih =>
    obtain ⟨rest, inner, rfl⟩ := Option.map_eq_some_iff.mp bound
    have fewer := ih inner
    simp [Piece.text, plain]
    omega

/-- What a driver that takes `%s` is given. -/
def percentText (pieces : List (Piece V)) : List Char :=
  (pieces.map Piece.mark).flatMap fun mark => mark.elim ['%', 's'] fun c => [c]

theorem translate_written (segments : List (Segment V)) : translate (written segments) = percentText (meant segments) := by
  rw [translate_eq, scan_written, percentText]

theorem count_percentText (pieces : List (Piece V)) :
    (percentText pieces).count '%' = (pieces.map Piece.text).count '%' + (pieces.filterMap Piece.param).length := by
  induction pieces with
  | nil => rfl
  | cons piece pieces ih =>
    rw [percentText, List.map_cons, List.flatMap_cons, ← percentText, List.count_append, ih, List.map_cons, List.count_cons]
    cases piece with
    | char c =>
      have none : (Piece.char c :: pieces).filterMap Piece.param = pieces.filterMap Piece.param := rfl
      rw [none]
      by_cases sign : c = '%'
      · simp [Piece.mark, Piece.text, sign]
        omega
      · simp [Piece.mark, Piece.text, sign]
    | value value =>
      simp [Piece.mark, Piece.text, Piece.param]
      omega

theorem bindPercent_char (different : c ≠ '%') (text : List Char) (values : List V) :
    bindPercent (c :: text) values = (bindPercent text values).map (.char c :: ·) := by
  rw [bindPercent.eq_def]
  exact if_neg different

theorem bindPercent_value (text : List Char) (value : V) (values : List V) :
    bindPercent ('%' :: 's' :: text) (value :: values) = (bindPercent text values).map (.value value :: ·) := by
  rw [bindPercent.eq_def]
  rfl

theorem bindPercent_plain (plain : '%' ∉ pieces.map Piece.text) :
    bindPercent (percentText pieces) (pieces.filterMap Piece.param) = some pieces := by
  induction pieces with
  | nil => rfl
  | cons piece pieces ih =>
    have rest := ih fun inside => plain (List.mem_cons_of_mem _ inside)
    cases piece with
    | char c =>
      have different : c ≠ '%' := fun same => plain (same ▸ List.mem_cons_self)
      change bindPercent (c :: percentText pieces) (pieces.filterMap Piece.param) = _
      rw [bindPercent_char different, rest]
      rfl
    | value value =>
      change bindPercent ('%' :: 's' :: percentText pieces) (value :: pieces.filterMap Piece.param) = _
      rw [bindPercent_value, rest]
      rfl

/-- A driver that takes `%s` is given the statement exactly where no percent sign is in
it: each of them would have to be doubled. -/
theorem translate_preserved_iff (segments : List (Segment V)) :
    bindPercent (translate (written segments)) (params segments) = some (meant segments) ↔ '%' ∉ written segments := by
  rw [translate_written]
  constructor
  · intro bound
    have signs := bindPercent_count bound
    rw [count_percentText] at signs
    apply List.count_eq_zero.mp
    change ((meant segments).map Piece.text).count '%' = 0
    have same : (params segments).length = ((meant segments).filterMap Piece.param).length := rfl
    omega
  · exact bindPercent_plain

end Percent

section Names

namespace Piece

variable (naming : Naming)

def isName : Piece V → Bool
  | .char c => naming.isName c
  | .value _ => false

/-- A placeholder becomes a colon with a name. -/
def isColon : Piece V → Bool
  | .char c => c = ':'
  | .value _ => true

end Piece

section Clear

variable (naming : Naming)

/-- How many name characters a statement begins with. -/
def run (pieces : List (Piece V)) : Nat := (pieces.takeWhile (Piece.isName naming)).length

/-- Whether a colon or a placeholder is behind them. -/
def colonBehind (pieces : List (Piece V)) : Bool := (pieces.dropWhile (Piece.isName naming)).head?.any Piece.isColon

/-- Of no colon of the statement a name is taken, and no backslash is dropped; no
placeholder is guarded, and its own name is what is taken for it. -/
def clear : Bool → Nat → List (Piece V) → Bool
  | _, _, [] => true
  | guarded, idx, .char c :: pieces =>
    !(c = ':' && !guarded && 0 < naming.taken (run naming pieces) (colonBehind naming pieces)) &&
    !(c = '\\' && naming.unescapes && pieces.head?.any Piece.isColon && !colonBehind naming pieces.tail) &&
    clear (naming.guards c) idx pieces
  | guarded, idx, .value _ :: pieces =>
    !guarded && naming.taken ((key idx).length + run naming pieces) (colonBehind naming pieces) = (key idx).length &&
    clear ((key idx).getLast?.any naming.guards) (idx + 1) pieces

end Clear

variable {naming : Naming} {named : List (String × V)} {guarded : Bool} {idx : Nat}

theorem isName_key (naming : Naming) (idx : Nat) : ∀ c ∈ key idx, naming.isName c = true := by
  intro c inside
  rcases List.mem_cons.mp inside with rfl | inside
  · exact naming.letter
  · obtain ⟨n, small, rfl⟩ := Numerals.isDigit_iff.mp (Numerals.digits_plain idx c inside)
    exact naming.digits n small

theorem Naming.taken_le (naming : Naming) (run : Nat) (colon : Bool) : naming.taken run colon ≤ run := by
  unfold Naming.taken
  split
  · exact naming.fewer run
  · exact Nat.le_refl run

section Render

theorem run_render (naming : Naming) (idx : Nat) (pieces : List (Piece V)) :
    ((render idx pieces).takeWhile naming.isName).length = run naming pieces := by
  induction pieces with
  | nil => rfl
  | cons piece pieces ih =>
    cases piece with
    | value value =>
      rw [render, List.takeWhile_cons_of_neg (by simp [naming.colon])]
      rfl
    | char c =>
      rw [render, run, List.takeWhile_cons, List.takeWhile_cons, Piece.isName]
      split
      · exact congrArg Nat.succ ih
      · rfl

theorem head_render (idx : Nat) (pieces : List (Piece V)) :
    decide ((render idx pieces).head? = some ':') = pieces.head?.any Piece.isColon := by
  cases pieces with
  | nil => rfl
  | cons piece pieces =>
    cases piece with
    | char c => simp [render, Piece.isColon]
    | value value => simp [render, Piece.isColon]

theorem colonBehind_render (naming : Naming) (idx : Nat) (pieces : List (Piece V)) :
    decide (((render idx pieces).dropWhile naming.isName).head? = some ':') = colonBehind naming pieces := by
  induction pieces with
  | nil => rfl
  | cons piece pieces ih =>
    cases piece with
    | value value =>
      rw [render, List.dropWhile_cons_of_neg (by simp [naming.colon])]
      rfl
    | char c =>
      rw [render, colonBehind, List.dropWhile_cons, List.dropWhile_cons, Piece.isName]
      split
      · exact ih
      · exact head_render idx (.char c :: pieces)

theorem nameLength_render (naming : Naming) (idx : Nat) (pieces : List (Piece V)) :
    naming.nameLength (render idx pieces) = naming.taken (run naming pieces) (colonBehind naming pieces) := by
  rw [Naming.nameLength, run_render, colonBehind_render]

theorem nameLength_key (naming : Naming) (idx : Nat) (pieces : List (Piece V)) :
    naming.nameLength (key idx ++ render (idx + 1) pieces) =
      naming.taken ((key idx).length + run naming pieces) (colonBehind naming pieces) := by
  rw [Naming.nameLength, List.takeWhile_append_of_pos (isName_key naming idx), List.dropWhile_append_of_pos (isName_key naming idx),
    List.length_append, run_render, colonBehind_render]

theorem drops_render (naming : Naming) (c : Char) (idx : Nat) (pieces : List (Piece V)) :
    naming.drops c (render idx pieces) =
      (c = '\\' && naming.unescapes && pieces.head?.any Piece.isColon && !colonBehind naming pieces.tail) := by
  have behind : decide (((render idx pieces).tail.dropWhile naming.isName).head? = some ':') = colonBehind naming pieces.tail := by
    cases pieces with
    | nil => rfl
    | cons piece pieces =>
      cases piece with
      | char c => exact colonBehind_render naming idx pieces
      | value value =>
        rw [render, List.tail_cons, List.dropWhile_append_of_pos (isName_key naming idx)]
        exact colonBehind_render naming (idx + 1) pieces
  rw [Naming.drops, head_render, ← behind, decide_not]

theorem drop_render {count : Nat} (within : count ≤ run naming pieces) :
    (render idx pieces).drop count = render idx (pieces.drop count) ∧ ∀ piece ∈ pieces.take count, piece.isName naming = true := by
  induction count generalizing pieces with
  | zero => exact ⟨rfl, nofun⟩
  | succ count ih =>
    cases pieces with
    | nil => cases within
    | cons piece pieces =>
      rw [run, List.takeWhile_cons] at within
      split at within
      next name =>
        cases piece with
        | value value => cases name
        | char c =>
          obtain ⟨left, names⟩ := ih (Nat.le_of_succ_le_succ within)
          refine ⟨left, fun piece inside => ?_⟩
          rcases List.mem_cons.mp inside with rfl | inside
          · exact name
          · exact names piece inside
      · cases within

end Render

theorem bindNamed_char (plain : ¬ (c = ':' && !guarded && 0 < naming.nameLength text) = true)
    (kept : naming.drops c text = false) :
    bindNamed naming named guarded (c :: text) = (bindNamed naming named (naming.guards c) text).map (.char c :: ·) := by
  rw [bindNamed, if_neg plain, if_neg (by simp [kept])]

theorem bindNamed_name (name : naming.isName c = true) (text : List Char) :
    bindNamed naming named guarded (c :: text) = (bindNamed naming named (naming.guards c) text).map (.char c :: ·) := by
  have noColon : c ≠ ':' := fun same => by simp [same, naming.colon] at name
  have noBackslash : c ≠ '\\' := fun same => by simp [same, naming.backslash] at name
  exact bindNamed_char (by simp [noColon]) (by simp [Naming.drops, noBackslash])

theorem bindNamed_colon (plain : ¬ (!guarded && decide (0 < naming.nameLength text)) = true) :
    bindNamed naming named guarded (':' :: text) = (bindNamed naming named true text).map (.char ':' :: ·) := by
  rw [bindNamed_char (by simpa using plain) (by simp [Naming.drops]), naming.colonGuards]

theorem bindNamed_head (name : naming.isName c = true)
    (bound : bindNamed naming named guarded text = some (.char c :: pieces)) : text.head? = some c := by
  cases text with
  | nil =>
    rw [bindNamed] at bound
    cases bound
  | cons first text =>
    rw [bindNamed] at bound
    split at bound
    · split at bound
      · cases bound
      · obtain ⟨rest, -, same⟩ := Option.map_eq_some_iff.mp bound
        cases same
    split at bound
    next dropped =>
      -- The colon that the backslash was before comes first.
      obtain ⟨⟨⟨rfl, -⟩, colon⟩, -⟩ := by simpa [Naming.drops] using dropped
      obtain ⟨rest, rfl⟩ := List.head?_eq_some_iff.mp colon
      rw [naming.backslashGuards, bindNamed_colon (by simp)] at bound
      obtain ⟨rest, -, same⟩ := Option.map_eq_some_iff.mp bound
      cases same
      simp [naming.colon] at name
    · obtain ⟨rest, -, same⟩ := Option.map_eq_some_iff.mp bound
      cases same
      rfl

theorem bindNamed_leftover {extra : List Char} (nonempty : extra ≠ []) (name : ∀ c ∈ extra, naming.isName c = true) :
    bindNamed naming named guarded (extra ++ render idx pieces) ≠ some pieces := by
  induction pieces generalizing extra guarded with
  | nil =>
    obtain ⟨c, extra, rfl⟩ := List.exists_cons_of_ne_nil nonempty
    rw [List.cons_append, bindNamed_name (name c List.mem_cons_self)]
    intro bound
    obtain ⟨rest, -, same⟩ := Option.map_eq_some_iff.mp bound
    cases same
  | cons piece pieces ih =>
    obtain ⟨c, extra, rfl⟩ := List.exists_cons_of_ne_nil nonempty
    rw [List.cons_append, bindNamed_name (name c List.mem_cons_self)]
    intro bound
    obtain ⟨rest, inner, same⟩ := Option.map_eq_some_iff.mp bound
    cases same
    rw [render, ← List.singleton_append, ← List.append_assoc] at inner
    refine ih (by simp) (fun d inside => ?_) inner
    rcases List.mem_append.mp inside with inside | inside
    · exact name d (List.mem_cons_of_mem _ inside)
    · exact List.mem_singleton.mp inside ▸ name c List.mem_cons_self

/-- Where more than the name of a placeholder is taken, characters behind it are missing. -/
theorem bindNamed_missing {first : List (Piece V)} (nonempty : first ≠ []) (name : ∀ piece ∈ first, piece.isName naming = true) :
    bindNamed naming named guarded (render idx pieces) ≠ some (first ++ pieces) := by
  induction pieces generalizing first guarded with
  | nil =>
    rw [render, bindNamed]
    intro bound
    exact nonempty (by simpa using (Option.some.inj bound).symm)
  | cons piece pieces ih =>
    obtain ⟨missing, first, rfl⟩ := List.exists_cons_of_ne_nil nonempty
    intro bound
    cases missing with
    | value value => cases name _ List.mem_cons_self
    | char c =>
      have isName : naming.isName c = true := name _ List.mem_cons_self
      have head := bindNamed_head isName bound
      cases piece with
      | value value =>
        cases head
        simp [naming.colon] at isName
      | char d =>
        cases head
        rw [render, bindNamed_name isName, List.cons_append] at bound
        obtain ⟨rest, inner, same⟩ := Option.map_eq_some_iff.mp bound
        obtain ⟨-, rfl⟩ := List.cons.inj same
        rw [← List.singleton_append, ← List.append_assoc] at inner
        refine ih (by simp) (fun piece inside => ?_) inner
        rcases List.mem_append.mp inside with inside | inside
        · exact name piece (List.mem_cons_of_mem _ inside)
        · exact List.mem_singleton.mp inside ▸ isName

/-- A placeholder is bound exactly where its own name is taken and the rest is bound. -/
theorem bindNamed_value_iff {value : V} (known : named.lookup (nameOf idx) = some value) :
    bindNamed naming named guarded (render idx (.value value :: pieces)) = some (.value value :: pieces) ↔
      guarded = false ∧ naming.nameLength (key idx ++ render (idx + 1) pieces) = (key idx).length ∧
        bindNamed naming named ((key idx).getLast?.any naming.guards) (render (idx + 1) pieces) = some pieces := by
  rw [render]
  by_cases plain : (!guarded && decide (0 < naming.nameLength (key idx ++ render (idx + 1) pieces))) = true
  swap
  · -- The colon of the placeholder is left as it is.
    rw [bindNamed_colon plain]
    constructor
    · intro bound
      obtain ⟨rest, -, same⟩ := Option.map_eq_some_iff.mp bound
      cases same
    · rintro ⟨rfl, length, -⟩
      rw [length] at plain
      simp [key] at plain
  obtain ⟨rfl, taken⟩ : guarded = false ∧ _ := by simpa using plain
  rw [bindNamed, if_pos (by simpa using taken)]
  rcases Nat.lt_trichotomy (naming.nameLength (key idx ++ render (idx + 1) pieces)) (key idx).length with less | same | more
  · refine iff_of_false (fun bound => ?_) fun meant => absurd meant.2.1 less.ne
    split at bound
    · cases bound
    · obtain ⟨rest, inner, same⟩ := Option.map_eq_some_iff.mp bound
      cases same
      rw [List.drop_append_of_le_length less.le] at inner
      exact bindNamed_leftover (by simpa using less) (fun c inside => isName_key naming idx c (List.mem_of_mem_drop inside)) inner
  · rw [same, List.take_left, List.drop_left, ← nameOf, known]
    simp
  · refine iff_of_false (fun bound => ?_) fun meant => absurd meant.2.1 more.ne'
    split at bound
    · cases bound
    · obtain ⟨rest, inner, same⟩ := Option.map_eq_some_iff.mp bound
      cases same
      have within : naming.nameLength (key idx ++ render (idx + 1) pieces) - (key idx).length ≤ run naming pieces := by
        have le := naming.taken_le ((key idx).length + run naming pieces) (colonBehind naming pieces)
        rw [nameLength_key]
        omega
      obtain ⟨left, names⟩ := drop_render within
      rw [List.drop_append, List.drop_eq_nil_of_le more.le, List.nil_append, left] at inner
      refine bindNamed_missing ?_ names (inner.trans (congrArg some (List.take_append_drop _ _).symm))
      have long : (pieces.take (naming.nameLength (key idx ++ render (idx + 1) pieces) - (key idx).length)).length ≠ 0 := by
        have fewer : run naming pieces ≤ pieces.length := (List.takeWhile_prefix _).length_le
        rw [List.length_take]
        omega
      exact fun none => long (by rw [none]; rfl)

/-- Whether the text of a statement is bound to the statement is told piece by piece. -/
theorem bindNamed_render_iff (naming : Naming) (guarded : Bool) (idx : Nat) (pieces : List (Piece V))
    (known : ∀ j value, (pieces.filterMap Piece.param)[j]? = some value → named.lookup (nameOf (idx + j)) = some value) :
    bindNamed naming named guarded (render idx pieces) = some pieces ↔ clear naming guarded idx pieces = true := by
  induction pieces generalizing guarded idx with
  | nil => simp [render, bindNamed, clear]
  | cons piece pieces ih =>
    cases piece with
    | char c =>
      rw [render, bindNamed, nameLength_render, drops_render, clear]
      split
      next taken =>
        rw [taken]
        refine iff_of_false (fun bound => ?_) (by simp)
        split at bound
        · cases bound
        · obtain ⟨rest, -, same⟩ := Option.map_eq_some_iff.mp bound
          cases same
      next plain =>
      rw [Bool.eq_false_iff.mpr plain, Bool.not_false, Bool.true_and]
      split
      next dropped =>
        rw [dropped]
        refine iff_of_false (fun bound => ?_) (by simp)
        obtain ⟨⟨⟨rfl, -⟩, colon⟩, -⟩ := by simpa using dropped
        have head : (render idx pieces).head? = some ':' := by simpa [← head_render idx] using colon
        obtain ⟨rest, begins⟩ := List.head?_eq_some_iff.mp head
        rw [begins, naming.backslashGuards, bindNamed_colon (by simp)] at bound
        obtain ⟨rest, -, same⟩ := Option.map_eq_some_iff.mp bound
        cases same
      next kept =>
        rw [Bool.eq_false_iff.mpr kept, Bool.not_false, Bool.true_and, ← ih _ idx known]
        constructor
        · intro bound
          obtain ⟨rest, inner, same⟩ := Option.map_eq_some_iff.mp bound
          cases same
          exact inner
        · intro bound
          rw [bound]
          rfl
    | value value =>
      have later : ∀ j other, (pieces.filterMap Piece.param)[j]? = some other → named.lookup (nameOf (idx + 1 + j)) = some other := by
        intro j other given
        rw [Nat.add_right_comm, Nat.add_assoc]
        exact known (j + 1) other given
      have first : named.lookup (nameOf idx) = some value := known 0 value rfl
      rw [bindNamed_value_iff first, nameLength_key, ih _ (idx + 1) later, clear]
      simp [and_assoc]

theorem nameOf_inj {first second : Nat} (same : nameOf first = nameOf second) : first = second := by
  have digits := (List.cons.inj (String.ofList_injective same)).2
  rw [← Nat.ofDigitChars_ten_toDigits (n := first), digits, Nat.ofDigitChars_ten_toDigits]

theorem lookup_names (idx : Nat) (values : List V) (j : Nat) : (names idx values).lookup (nameOf (idx + j)) = values[j]? := by
  induction values generalizing idx j with
  | nil => rfl
  | cons value values ih =>
    rw [names, List.lookup_cons]
    cases j with
    | zero => simp
    | succ j =>
      have different : (nameOf (idx + (j + 1)) == nameOf idx) = false := by
        rw [beq_eq_false_iff_ne]
        intro same
        have := nameOf_inj same
        omega
      rw [different, List.getElem?_cons_succ, ← ih (idx + 1) j, Nat.add_right_comm, Nat.add_assoc]

theorem rewrite_preserved_iff (segments : List (Segment V)) :
    (∃ sql named, rewriteSqlParams (String.ofList (written segments)) (.positional (params segments)) = .ok (sql, named) ∧
      bindNamed naming named false sql.toList = some (meant segments)) ↔ clear naming false 0 (meant segments) = true := by
  have known : ∀ j value, ((meant segments).filterMap Piece.param)[j]? = some value →
      (names 0 (params segments)).lookup (nameOf (0 + j)) = some value := by
    intro j value given
    rw [lookup_names]
    exact given
  have bound := bindNamed_render_iff naming false 0 (meant segments) known
  rw [← bound]
  constructor
  · intro ⟨sql, named, rewritten, text⟩
    rw [rewriteSqlParams_written] at rewritten
    cases rewritten
    rwa [String.toList_ofList] at text
  · intro text
    exact ⟨_, _, rewriteSqlParams_written segments, by rwa [String.toList_ofList]⟩

end Names

/-- Both rewritings keep a statement, the one exactly where it has no percent sign, the
other where nothing but its placeholders is taken for a name. -/
theorem statements_preserved_iff (naming : Naming) (segments : List (Segment V)) :
    (bindPercent (translatePlaceholders (String.ofList (written segments))).toList (params segments) = some (meant segments) ↔
      '%' ∉ written segments) ∧
    ((∃ sql named, rewriteSqlParams (String.ofList (written segments)) (.positional (params segments)) = .ok (sql, named) ∧
      bindNamed naming named false sql.toList = some (meant segments)) ↔ clear naming false 0 (meant segments) = true) := by
  refine ⟨?_, rewrite_preserved_iff segments⟩
  rw [translatePlaceholders, String.toList_ofList, String.toList_ofList]
  exact translate_preserved_iff segments

/-- Names are made of letters, digits and underscores, and none begins behind another. -/
def asciiNaming : Naming where
  isName c := c.isAlphanum || c = '_'
  letter := by decide
  digits := by decide
  colon := by decide
  backslash := by decide
  guards c := c = ':' || c = '\\' || c.isAlphanum || c = '_'
  colonGuards := by decide
  backslashGuards := by decide
  beforeColon run := run - 1
  fewer run := Nat.sub_le run 1
  unescapes := true

/-- The notes of an owner that begin with a letter. -/
def byLetter : List (Segment String) :=
  [.code "title LIKE ".toList (by simp), .literal "a%".toList, .code " AND owner_id = ".toList (by simp), .placeholder "alice"]

/-- The notes of an owner that are due at some minute. -/
def byTime : List (Segment String) :=
  [.code "due = ".toList (by simp), .literal ":30".toList, .code " AND owner_id = ".toList (by simp), .placeholder "alice"]

theorem patterns_and_times_lost :
    ¬ (∀ segments : List (Segment String),
      bindPercent (translatePlaceholders (String.ofList (written segments))).toList (params segments) = some (meant segments)) ∧
    ¬ (∀ segments : List (Segment String), ∃ sql named,
      rewriteSqlParams (String.ofList (written segments)) (.positional (params segments)) = .ok (sql, named) ∧
        bindNamed asciiNaming named false sql.toList = some (meant segments)) := by
  constructor
  · intro always
    have kept := always byLetter
    rw [translatePlaceholders, String.toList_ofList, String.toList_ofList, translate_preserved_iff] at kept
    exact kept (by simp [written, meant, byLetter, Segment.pieces, doubled, Piece.text])
  · intro always
    have kept := (rewrite_preserved_iff byTime).mp (always byTime)
    simp [meant, byTime, Segment.pieces, doubled, clear, run, colonBehind, Piece.isName, Piece.isColon, Naming.taken, asciiNaming] at kept

end PyScoped.Legacy.Placeholders
