import Mathlib

/-! JSON values and the canonical text of Python's encoder with sorted keys,
compact separators and ASCII escapes. The text determines the value up to the
order of object keys; this is a fact about the grammar, not about a hash. -/

namespace Foundation

/-- Characters of a number token. Every token is followed by another character
or by the end of the text, so a token ends at the first foreign character. -/
def Numeric (c : Char) : Bool := c.isDigit || c == '-' || c == '+' || c == '.' || c == 'e'

/-- A finite binary float, identified with its shortest round-trip text. Such a
text always has a point or an exponent, which is what separates it from an
integer literal. -/
structure FloatText where
  text : String
  numeric : ∀ c ∈ text.toList, Numeric c = true
  fractional : '.' ∈ text.toList ∨ 'e' ∈ text.toList
  deriving DecidableEq

/-- Infinities and NaN are one constructor: the encoder never writes them. -/
inductive Json where
  | null
  | bool (value : Bool)
  | int (value : Int)
  | float (value : FloatText)
  | nonfinite
  | str (value : String)
  | arr (items : List Json)
  | obj (members : List (String × Json))

namespace Json

def hex4 (n : Nat) : List Char :=
  [(n / 4096 % 16).digitChar, (n / 256 % 16).digitChar, (n / 16 % 16).digitChar, (n % 16).digitChar]

def unicodeEscape (n : Nat) : List Char := '\\' :: 'u' :: hex4 n

/-- Printable ASCII is copied, seven characters have short escapes, and every
other character is written in hexadecimal, above the basic plane as a pair. -/
def escapeChar (c : Char) : List Char :=
  if c = '"' then ['\\', '"']
  else if c = '\\' then ['\\', '\\']
  else if c = '\n' then ['\\', 'n']
  else if c = '\r' then ['\\', 'r']
  else if c = '\t' then ['\\', 't']
  else if c = '\x0c' then ['\\', 'f']
  else if c = '\x08' then ['\\', 'b']
  else if ' ' ≤ c ∧ c ≤ '~' then [c]
  else if c.toNat < 65536 then unicodeEscape c.toNat
  else unicodeEscape (55296 + (c.toNat - 65536) / 1024) ++ unicodeEscape (56320 + (c.toNat - 65536) % 1024)

def quote (s : String) : List Char := '"' :: (s.toList.flatMap escapeChar ++ ['"'])

mutual
def render : Json → List Char
  | .null => ['n', 'u', 'l', 'l']
  | .bool true => ['t', 'r', 'u', 'e']
  | .bool false => ['f', 'a', 'l', 's', 'e']
  | .int value => value.repr.toList
  | .float value => value.text.toList
  | .nonfinite => ['N', 'a', 'N']
  | .str value => quote value
  | .arr [] => ['[', ']']
  | .arr (item :: items) => '[' :: (render item ++ renderItems items)
  | .obj [] => ['{', '}']
  | .obj ((key, value) :: members) => '{' :: (quote key ++ ':' :: (render value ++ renderMembers members))

def renderItems : List Json → List Char
  | [] => [']']
  | item :: items => ',' :: (render item ++ renderItems items)

def renderMembers : List (String × Json) → List Char
  | [] => ['}']
  | (key, value) :: members => ',' :: (quote key ++ ':' :: (render value ++ renderMembers members))
end

mutual
def sortKeys : Json → Json
  | .arr items => .arr (sortItems items)
  | .obj members => .obj ((sortMembers members).insertionSort (fun first second => first.1 ≤ second.1))
  | value => value

def sortItems : List Json → List Json
  | [] => []
  | item :: items => sortKeys item :: sortItems items

def sortMembers : List (String × Json) → List (String × Json)
  | [] => []
  | (key, value) :: members => (key, sortKeys value) :: sortMembers members
end

mutual
def finite : Json → Bool
  | .nonfinite => false
  | .arr items => finiteItems items
  | .obj members => finiteMembers members
  | _ => true

def finiteItems : List Json → Bool
  | [] => true
  | item :: items => finite item && finiteItems items

def finiteMembers : List (String × Json) → Bool
  | [] => true
  | (_, value) :: members => finite value && finiteMembers members
end

/-- The canonical text, or nothing where the encoder refuses the value. -/
def dumps (value : Json) : Option (List Char) :=
  if value.finite then some value.sortKeys.render else none

mutual
def eqv : Json → Json → Bool
  | .null, .null => true
  | .bool first, .bool second => first == second
  | .int first, .int second => first == second
  | .float first, .float second => first == second
  | .nonfinite, .nonfinite => true
  | .str first, .str second => first == second
  | .arr first, .arr second => eqvItems first second
  | .obj first, .obj second => eqvMembers first second
  | _, _ => false

def eqvItems : List Json → List Json → Bool
  | [], [] => true
  | item :: items, item' :: items' => eqv item item' && eqvItems items items'
  | _, _ => false

def eqvMembers : List (String × Json) → List (String × Json) → Bool
  | [], [] => true
  | (key, value) :: members, (key', value') :: members' =>
    key == key' && eqv value value' && eqvMembers members members'
  | _, _ => false
end

mutual
theorem eqv_iff : ∀ first second : Json, eqv first second = true ↔ first = second
  | .null, second | .nonfinite, second => by cases second <;> simp [eqv]
  | .bool _, second | .int _, second | .float _, second | .str _, second => by cases second <;> simp [eqv]
  | .arr items, second => by
    cases second with
    | arr items' => simp only [eqv, Json.arr.injEq, eqvItems_iff items items']
    | _ => simp [eqv]
  | .obj members, second => by
    cases second with
    | obj members' => simp only [eqv, Json.obj.injEq, eqvMembers_iff members members']
    | _ => simp [eqv]

theorem eqvItems_iff : ∀ first second : List Json, eqvItems first second = true ↔ first = second
  | [], second => by cases second <;> simp [eqvItems]
  | item :: items, second => by
    cases second with
    | nil => simp [eqvItems]
    | cons item' items' => simp [eqvItems, eqv_iff item item', eqvItems_iff items items']

theorem eqvMembers_iff : ∀ first second : List (String × Json), eqvMembers first second = true ↔ first = second
  | [], second => by cases second <;> simp [eqvMembers]
  | (key, value) :: members, second => by
    cases second with
    | nil => simp [eqvMembers]
    | cons member' members' =>
      simp [eqvMembers, eqv_iff value member'.2, eqvMembers_iff members members', Prod.ext_iff, and_assoc]
end

instance : DecidableEq Json := fun first second => decidable_of_iff _ (eqv_iff first second)

/-- Equality of Python values: dictionaries compare without regard to order. -/
def Same (first second : Json) : Prop := first.sortKeys = second.sortKeys

instance (first second : Json) : Decidable (Same first second) := inferInstanceAs (Decidable (_ = _))

example : (Json.obj [("b", .arr [.int (-7), .null]), ("a", .str "\"é𐍈")]).dumps =
    some "\x7b\"a\":\"\\\"\\u00e9\\ud800\\udf48\",\"b\":[-7,null]\x7d".toList := by decide +kernel

private theorem digitChar_inj : ∀ n < 16, ∀ m < 16, n.digitChar = m.digitChar → n = m := by decide +kernel

theorem hex4_inj {n m : Nat} (small : n < 65536) (other : m < 65536) (same : hex4 n = hex4 m) : n = m := by
  simp only [hex4, List.cons.injEq, and_true] at same
  obtain ⟨first, second, third, fourth⟩ := same
  have := digitChar_inj _ (Nat.mod_lt _ (by decide)) _ (Nat.mod_lt _ (by decide)) first
  have := digitChar_inj _ (Nat.mod_lt _ (by decide)) _ (Nat.mod_lt _ (by decide)) second
  have := digitChar_inj _ (Nat.mod_lt _ (by decide)) _ (Nat.mod_lt _ (by decide)) third
  have := digitChar_inj _ (Nat.mod_lt _ (by decide)) _ (Nat.mod_lt _ (by decide)) fourth
  omega

variable {other rest : List Char}

/-- A hexadecimal escape is recognised without looking past its six characters. -/
private theorem unicodeEscape_splits {n m : Nat} (small : n < 65536) (bound : m < 65536)
    (same : unicodeEscape n ++ rest = unicodeEscape m ++ other) : n = m ∧ rest = other := by
  have lengths : (unicodeEscape n).length = (unicodeEscape m).length := rfl
  obtain ⟨codes, tails⟩ := List.append_inj same lengths
  simp only [unicodeEscape, List.cons.injEq, true_and] at codes
  exact ⟨hex4_inj small bound codes, tails⟩

private def shortEscapes : List (Char × Char) :=
  [('"', '"'), ('\\', '\\'), ('\n', 'n'), ('\r', 'r'), ('\t', 't'), ('\x0c', 'f'), ('\x08', 'b')]

private theorem shortEscapes_inj : ∀ first ∈ shortEscapes, ∀ second ∈ shortEscapes,
    first.2 = second.2 → first.1 = second.1 := by decide

/-- The shapes an escaped character takes. Case analysis on pairs of characters
goes through these shapes, not through the nested conditions of the encoder. -/
private inductive Escaped : Char → List Char → Prop where
  | plain {c} : c ≠ '"' → c ≠ '\\' → Escaped c [c]
  | short {c code} : code ≠ 'u' → (c, code) ∈ shortEscapes → Escaped c ['\\', code]
  | basic {c} : c.toNat < 65536 → Escaped c (unicodeEscape c.toNat)
  | pair {c} : 65536 ≤ c.toNat → Escaped c
      (unicodeEscape (55296 + (c.toNat - 65536) / 1024) ++ unicodeEscape (56320 + (c.toNat - 65536) % 1024))

private theorem escaped (c : Char) : Escaped c (escapeChar c) := by
  unfold escapeChar
  split_ifs with quoted slash newline carriage tab feed back printable small
  · exact .short (by decide) (by simp [shortEscapes, quoted])
  · exact .short (by decide) (by simp [shortEscapes, slash])
  · exact .short (by decide) (by simp [shortEscapes, newline])
  · exact .short (by decide) (by simp [shortEscapes, carriage])
  · exact .short (by decide) (by simp [shortEscapes, tab])
  · exact .short (by decide) (by simp [shortEscapes, feed])
  · exact .short (by decide) (by simp [shortEscapes, back])
  · exact .plain quoted slash
  · exact .basic small
  · exact .pair (by omega)

private theorem toNat_inj {c d : Char} (same : c.toNat = d.toNat) : c = d :=
  Char.ext (UInt32.toNat_inj.mp same)

/-- A character never stands for half of a surrogate pair, so a single escape
cannot be mistaken for the first half of a pair. -/
private theorem not_surrogate (c : Char) : c.toNat < 55296 ∨ 57343 < c.toNat := by
  rcases c.valid with small | large
  · exact .inl small
  · exact .inr large.1

private theorem toNat_lt (c : Char) : c.toNat < 1114112 := by
  rcases c.valid with small | large
  · have : c.toNat < 55296 := small
    omega
  · exact large.2

/-- Escaped characters form a prefix code. -/
theorem escapeChar_splits {c d : Char}
    (same : escapeChar c ++ rest = escapeChar d ++ other) : c = d ∧ rest = other := by
  have first := escaped c
  have second := escaped d
  generalize escapeChar c = code at first same
  generalize escapeChar d = code' at second same
  cases first with
  | plain quoted slash =>
    cases second with
    | plain _ _ => simpa using same
    | short _ _ | basic _ | pair _ => simp [unicodeEscape, slash] at same
  | short unicode short =>
    cases second with
    | plain _ slash => simp [Ne.symm slash] at same
    | short _ short' =>
      simp only [List.cons_append, List.cons.injEq, true_and, List.nil_append] at same
      obtain ⟨rfl, rfl⟩ := same
      exact ⟨shortEscapes_inj _ short _ short' rfl, rfl⟩
    | basic _ | pair _ => simp [unicodeEscape, unicode] at same
  | basic small =>
    cases second with
    | plain _ slash => simp [unicodeEscape, Ne.symm slash] at same
    | short unicode _ => simp [unicodeEscape, Ne.symm unicode] at same
    | basic small' =>
      obtain ⟨equal, tails⟩ := unicodeEscape_splits small small' same
      exact ⟨toNat_inj equal, tails⟩
    | pair large =>
      have bound := toNat_lt d
      rw [List.append_assoc] at same
      obtain ⟨equal, _⟩ := unicodeEscape_splits small (by omega) same
      have := not_surrogate c
      omega
  | pair large =>
    have bound := toNat_lt c
    rw [List.append_assoc] at same
    cases second with
    | plain _ slash => simp [unicodeEscape, Ne.symm slash] at same
    | short unicode _ => simp [unicodeEscape, Ne.symm unicode] at same
    | basic small =>
      obtain ⟨equal, _⟩ := unicodeEscape_splits (by omega) small same
      have := not_surrogate d
      omega
    | pair large' =>
      have bound' := toNat_lt d
      rw [List.append_assoc] at same
      obtain ⟨high, same⟩ := unicodeEscape_splits (by omega) (by omega) same
      obtain ⟨low, tails⟩ := unicodeEscape_splits (by omega) (by omega) same
      exact ⟨toNat_inj (by omega), tails⟩

private theorem escapeChar_head (c : Char) : ∃ first rest, escapeChar c = first :: rest ∧ first ≠ '"' := by
  have shape := escaped c
  generalize escapeChar c = code at shape
  cases shape with
  | plain quoted _ => exact ⟨c, [], rfl, quoted⟩
  | short _ _ => exact ⟨_, _, rfl, by decide⟩
  | basic _ | pair _ => exact ⟨_, _, rfl, by decide⟩

private theorem escape_splits (s t : List Char)
    (same : s.flatMap escapeChar ++ '"' :: rest = t.flatMap escapeChar ++ '"' :: other) :
    s = t ∧ rest = other := by
  induction s generalizing t with
  | nil =>
    cases t with
    | nil => simpa using same
    | cons d t =>
      obtain ⟨first, code, shape, unquoted⟩ := escapeChar_head d
      simp [shape, Ne.symm unquoted] at same
  | cons c s ih =>
    cases t with
    | nil =>
      obtain ⟨first, code, shape, unquoted⟩ := escapeChar_head c
      simp [shape, unquoted] at same
    | cons d t =>
      simp only [List.flatMap_cons, List.append_assoc] at same
      obtain ⟨rfl, remaining⟩ := escapeChar_splits same
      obtain ⟨rfl, tails⟩ := ih t remaining
      exact ⟨rfl, tails⟩

/-- A quoted string ends at its first unescaped quote. -/
theorem quote_splits {s t : String} (same : quote s ++ rest = quote t ++ other) : s = t ∧ rest = other := by
  simp only [quote, List.cons_append, List.append_assoc, List.cons.injEq, true_and, List.nil_append] at same
  obtain ⟨chars, tails⟩ := escape_splits _ _ same
  exact ⟨String.toList_inj.mp chars, tails⟩

/-- What may follow a value: nothing, or a character no number contains. -/
def Closed (rest : List Char) : Prop := ∀ c ∈ rest.head?, Numeric c = false

private theorem number_splits {token token' : List Char}
    (numeric : ∀ c ∈ token, Numeric c = true) (numeric' : ∀ c ∈ token', Numeric c = true)
    (closed : Closed rest) (closed' : Closed other)
    (same : token ++ rest = token' ++ other) : token = token' ∧ rest = other := by
  have longest : ∀ {token rest : List Char}, (∀ c ∈ token, Numeric c = true) → Closed rest →
      (token ++ rest).takeWhile Numeric = token := by
    intro token rest numeric closed
    rw [List.takeWhile_append_of_pos numeric]
    cases rest with
    | nil => simp
    | cons c rest => simp [closed c (by simp)]
  have equal : token = token' := by
    rw [← longest numeric closed, ← longest numeric' closed', same]
  subst equal
  exact ⟨rfl, List.append_cancel_left same⟩

theorem int_numeric (value : Int) : ∀ c ∈ value.repr.toList, Numeric c = true ∧ c ≠ '.' ∧ c ≠ 'e' := by
  intro c member
  have digit : c.isDigit = true ∨ c = '-' := by
    rw [Int.repr_eq_if] at member
    split at member
    · rw [Nat.toList_repr] at member
      exact .inl (Nat.isDigit_of_mem_toDigits (by decide) (by decide) member)
    · rw [String.toList_append, Nat.toList_repr] at member
      rcases List.mem_append.mp member with sign | member
      · exact .inr (by simpa using sign)
      · exact .inl (Nat.isDigit_of_mem_toDigits (by decide) (by decide) member)
  rcases digit with digit | rfl
  · refine ⟨by simp [Numeric, digit], ?_, ?_⟩ <;> (rintro rfl; revert digit; decide)
  · decide

/-- The leading character tells which kind of value was rendered. -/
private def kind : Json → Nat
  | .null => 0
  | .bool _ => 1
  | .int _ | .float _ => 2
  | .str _ => 3
  | .arr _ => 4
  | .obj _ => 5
  | .nonfinite => 6

private def leads (first : Char) : Nat :=
  if first = 'n' then 0 else if first = 't' ∨ first = 'f' then 1 else if first = '"' then 3
  else if first = '[' then 4 else if first = '{' then 5 else 2

private theorem leads_number {token : List Char} (nonempty : token ≠ []) (numeric : ∀ c ∈ token, Numeric c = true) :
    ∃ first rest, token = first :: rest ∧ leads first = 2 ∧ first ≠ ']' := by
  cases token with
  | nil => exact absurd rfl nonempty
  | cons first rest =>
    have digit := numeric first (by simp)
    refine ⟨first, rest, rfl, ?_, by rintro rfl; revert digit; decide⟩
    unfold leads
    split_ifs with null bool string array object
    · subst null; revert digit; decide
    · rcases bool with rfl | rfl <;> (revert digit; decide)
    · subst string; revert digit; decide
    · subst array; revert digit; decide
    · subst object; revert digit; decide
    · rfl

private theorem float_nonempty (value : FloatText) : value.text.toList ≠ [] := by
  intro empty
  rcases value.fractional with member | member <;> simp [empty] at member

private theorem int_nonempty (value : Int) : value.repr.toList ≠ [] := by
  rw [Int.repr_eq_if]
  split <;> simp [Nat.toList_repr, Nat.toDigits_ne_nil]

private theorem render_leads {value : Json} (finite : value.finite = true) :
    ∃ first rest, value.render = first :: rest ∧ leads first = kind value ∧ first ≠ ']' := by
  cases value with
  | null | str _ => exact ⟨_, _, rfl, rfl, by decide⟩
  | bool value => cases value <;> exact ⟨_, _, rfl, rfl, by decide⟩
  | int value => exact leads_number (int_nonempty value) (fun c member => (int_numeric value c member).1)
  | float value => exact leads_number (float_nonempty value) value.numeric
  | nonfinite => simp [Json.finite] at finite
  | arr items => cases items <;> exact ⟨_, _, rfl, rfl, by decide⟩
  | obj members => cases members <;> exact ⟨_, _, rfl, rfl, by decide⟩

private theorem kind_eq {first second : Json} (finite : first.finite = true) (finite' : second.finite = true)
    (same : first.render ++ rest = second.render ++ other) : kind first = kind second := by
  obtain ⟨lead, tail, shape, leading, _⟩ := render_leads finite
  obtain ⟨lead', tail', shape', leading', _⟩ := render_leads finite'
  rw [shape, shape'] at same
  rw [← leading, ← leading', (List.cons.inj same).1]

private theorem closed_cons {first : Char} (foreign : Numeric first = false) :
    Closed (first :: rest) := by
  intro c member
  simp only [List.head?_cons, Option.mem_some_iff] at member
  exact member ▸ foreign

private theorem closed_items (items : List Json) (rest : List Char) : Closed (renderItems items ++ rest) := by
  cases items <;> exact closed_cons (by decide)

private theorem closed_members (members : List (String × Json)) (rest : List Char) :
    Closed (renderMembers members ++ rest) := by
  cases members <;> exact closed_cons (by decide)

mutual
/-- Rendered values form a prefix code among closed continuations. The
induction is on the first value; its text fixes the kind of the second. -/
theorem render_splits (first second : Json) {rest other : List Char}
    (finite : first.finite = true) (finite' : second.finite = true)
    (closed : Closed rest) (closed' : Closed other)
    (same : first.render ++ rest = second.render ++ other) : first = second ∧ rest = other := by
  have kinds := kind_eq finite finite' same
  match first with
  | .null =>
    cases second with
    | null => simpa [render] using same
    | _ => simp [kind] at kinds
  | .bool value =>
    cases second with
    | bool value' =>
      cases value <;> cases value'
      · simpa [render] using same
      · simp [render] at same
      · simp [render] at same
      · simpa [render] using same
    | _ => simp [kind] at kinds
  | .nonfinite => simp [Json.finite] at finite
  | .int value =>
    cases second with
    | int value' =>
      obtain ⟨digits, tails⟩ := number_splits (fun c member => (int_numeric value c member).1)
        (fun c member => (int_numeric value' c member).1) closed closed' same
      exact ⟨congrArg Json.int (Int.repr_injective (String.toList_inj.mp digits)), tails⟩
    | float value' =>
      obtain ⟨digits, _⟩ := number_splits (fun c member => (int_numeric value c member).1)
        value'.numeric closed closed' same
      rcases value'.fractional with member | member
      · exact absurd rfl (int_numeric value _ (digits ▸ member)).2.1
      · exact absurd rfl (int_numeric value _ (digits ▸ member)).2.2
    | _ => simp [kind] at kinds
  | .float value =>
    cases second with
    | float value' =>
      obtain ⟨digits, tails⟩ := number_splits value.numeric value'.numeric closed closed' same
      have equal : value = value' := by
        cases value; cases value'; simpa using String.toList_inj.mp digits
      exact ⟨congrArg Json.float equal, tails⟩
    | int value' =>
      obtain ⟨digits, _⟩ := number_splits value.numeric
        (fun c member => (int_numeric value' c member).1) closed closed' same
      rcases value.fractional with member | member
      · exact absurd rfl (int_numeric value' _ (digits ▸ member)).2.1
      · exact absurd rfl (int_numeric value' _ (digits ▸ member)).2.2
    | _ => simp [kind] at kinds
  | .str value =>
    cases second with
    | str value' =>
      obtain ⟨rfl, tails⟩ := quote_splits same
      exact ⟨rfl, tails⟩
    | _ => simp [kind] at kinds
  | .arr items =>
    cases second with
    | arr items' =>
      match items, items' with
      | [], [] => simpa [render] using same
      | [], item :: _ =>
        simp only [Json.finite, finiteItems, Bool.and_eq_true] at finite'
        obtain ⟨lead, _, shape, _, unclosed⟩ := render_leads finite'.1
        simp [render, shape, Ne.symm unclosed] at same
      | item :: _, [] =>
        simp only [Json.finite, finiteItems, Bool.and_eq_true] at finite
        obtain ⟨lead, _, shape, _, unclosed⟩ := render_leads finite.1
        simp [render, shape, unclosed] at same
      | item :: items, item' :: items' =>
        simp only [Json.finite, finiteItems, Bool.and_eq_true] at finite finite'
        simp only [render, List.cons_append, List.append_assoc, List.cons.injEq, true_and] at same
        obtain ⟨rfl, remaining⟩ := render_splits item item' finite.1 finite'.1
          (closed_items _ _) (closed_items _ _) same
        obtain ⟨rfl, tails⟩ := items_splits items items' finite.2 finite'.2 remaining
        exact ⟨rfl, tails⟩
    | _ => simp [kind] at kinds
  | .obj members =>
    cases second with
    | obj members' =>
      match members, members' with
      | [], [] => simpa [render] using same
      | [], _ :: _ | _ :: _, [] => simp [render, quote] at same
      | (key, value) :: members, (key', value') :: members' =>
        simp only [Json.finite, finiteMembers, Bool.and_eq_true] at finite finite'
        simp only [render, List.cons_append, List.append_assoc, List.cons.injEq, true_and] at same
        obtain ⟨rfl, member⟩ := quote_splits same
        obtain ⟨rfl, remaining⟩ := render_splits value value' finite.1 finite'.1
          (closed_members _ _) (closed_members _ _) (List.cons.inj member).2
        obtain ⟨rfl, tails⟩ := members_splits members members' finite.2 finite'.2 remaining
        exact ⟨rfl, tails⟩
    | _ => simp [kind] at kinds

theorem items_splits (items items' : List Json) {rest other : List Char}
    (finite : finiteItems items = true) (finite' : finiteItems items' = true)
    (same : renderItems items ++ rest = renderItems items' ++ other) : items = items' ∧ rest = other := by
  match items, items' with
  | [], [] => simpa [renderItems] using same
  | [], _ :: _ | _ :: _, [] => simp [renderItems] at same
  | item :: items, item' :: items' =>
    simp only [finiteItems, Bool.and_eq_true] at finite finite'
    simp only [renderItems, List.cons_append, List.append_assoc, List.cons.injEq, true_and] at same
    obtain ⟨rfl, remaining⟩ := render_splits item item' finite.1 finite'.1
      (closed_items _ _) (closed_items _ _) same
    obtain ⟨rfl, tails⟩ := items_splits items items' finite.2 finite'.2 remaining
    exact ⟨rfl, tails⟩

theorem members_splits (members members' : List (String × Json)) {rest other : List Char}
    (finite : finiteMembers members = true) (finite' : finiteMembers members' = true)
    (same : renderMembers members ++ rest = renderMembers members' ++ other) :
    members = members' ∧ rest = other := by
  match members, members' with
  | [], [] => simpa [renderMembers] using same
  | [], _ :: _ | _ :: _, [] => simp [renderMembers] at same
  | (key, value) :: members, (key', value') :: members' =>
    simp only [finiteMembers, Bool.and_eq_true] at finite finite'
    simp only [renderMembers, List.cons_append, List.append_assoc, List.cons.injEq, true_and] at same
    obtain ⟨rfl, member⟩ := quote_splits same
    obtain ⟨rfl, remaining⟩ := render_splits value value' finite.1 finite'.1
      (closed_members _ _) (closed_members _ _) (List.cons.inj member).2
    obtain ⟨rfl, tails⟩ := members_splits members members' finite.2 finite'.2 remaining
    exact ⟨rfl, tails⟩
end

private theorem insert_finite (member : String × Json) (members : List (String × Json)) :
    finiteMembers (members.orderedInsert (fun first second => first.1 ≤ second.1) member) =
      (member.2.finite && finiteMembers members) := by
  induction members with
  | nil => rfl
  | cons other members ih =>
    rw [List.orderedInsert_cons]
    split
    · rfl
    · simp only [finiteMembers, ih]
      exact Bool.and_left_comm ..

private theorem sort_finite (members : List (String × Json)) :
    finiteMembers (members.insertionSort (fun first second => first.1 ≤ second.1)) = finiteMembers members := by
  induction members with
  | nil => rfl
  | cons member members ih => simp only [List.insertionSort_cons, insert_finite, ih, finiteMembers]

mutual
theorem sortKeys_finite (value : Json) : value.sortKeys.finite = value.finite := by
  match value with
  | .null | .bool _ | .int _ | .float _ | .nonfinite | .str _ => rfl
  | .arr items => exact sortItems_finite items
  | .obj members => exact (sort_finite _).trans (sortMembers_finite members)

theorem sortItems_finite (items : List Json) : finiteItems (sortItems items) = finiteItems items := by
  match items with
  | [] => rfl
  | item :: items => simp only [sortItems, finiteItems, sortKeys_finite item, sortItems_finite items]

theorem sortMembers_finite (members : List (String × Json)) :
    finiteMembers (sortMembers members) = finiteMembers members := by
  match members with
  | [] => rfl
  | (key, value) :: members =>
    simp only [sortMembers, finiteMembers, sortKeys_finite value, sortMembers_finite members]
end

/-- Two values with one canonical text are the same value. -/
theorem dumps_inj {first second : Json} {text : List Char}
    (encoded : first.dumps = some text) (encoded' : second.dumps = some text) : Same first second := by
  unfold dumps at encoded encoded'
  split at encoded <;> split at encoded' <;> simp only [Option.some.injEq, reduceCtorEq] at encoded encoded'
  next finite finite' =>
    have closed : Closed [] := by intro c member; cases member
    have same : first.sortKeys.render ++ [] = second.sortKeys.render ++ [] := by rw [encoded, encoded']
    exact (render_splits _ _ ((sortKeys_finite first).trans finite) ((sortKeys_finite second).trans finite')
      closed closed same).1

end Json
end Foundation
