import PyScoped.Legacy.Redaction

/-! What redaction lets a viewer tell apart. The rules are applied to what the
rules before them have left, so what is said of one rule is carried through all
of them, field by field. -/

namespace PyScoped.Legacy
open Foundation

namespace Redaction

variable {Ω : Type}

/-- The texts that one mask after the other cannot tell apart: as long as each
other, and the same at the end. -/
def Alike (count : Nat) (first second : List Char) : Prop :=
  first.length = second.length ∧ lastChars count first = lastChars count second

private theorem lastChars_append (count : Nat) (front back : List Char) (within : count ≤ back.length) :
    lastChars count (front ++ back) = lastChars count back := by
  unfold lastChars
  rw [List.length_append, show front.length + back.length - count = front.length + (back.length - count) by omega,
    List.drop_append]
  simp

private theorem length_lastChars (count : Nat) (text : List Char) : (lastChars count text).length = min count text.length := by
  unfold lastChars
  rw [List.length_drop]
  omega

private theorem lastChars_lastChars {count shown : Nat} (within : count ≤ shown) (text : List Char) :
    lastChars count (lastChars shown text) = lastChars count text := by
  unfold lastChars
  rw [List.drop_drop, List.length_drop]
  congr 1
  omega

theorem Alike.masked {count : Nat} {first second : List Char} (alike : Alike count first second) (maskChar : List Char)
    {visibleChars : Int} (shown : (count : Int) ≤ max visibleChars 0) :
    Alike count (maskText maskChar visibleChars first) (maskText maskChar visibleChars second) := by
  obtain ⟨lengths, ends⟩ := alike
  unfold maskText
  rw [← lengths]
  split
  next window =>
    have within : count ≤ visibleChars.toNat := by omega
    have tails : ∀ text : List Char, text.length = first.length → (lastChars visibleChars.toNat text).length = visibleChars.toNat := by
      intro text same
      rw [length_lastChars]
      omega
    constructor
    · simp only [List.length_append, tails first rfl, tails second lengths.symm]
    · rw [lastChars_append _ _ _ (by rw [tails first rfl]; exact within),
        lastChars_append _ _ _ (by rw [tails second lengths.symm]; exact within),
        lastChars_lastChars within, lastChars_lastChars within, ends]
  · exact ⟨rfl, rfl⟩

theorem Alike.merged {first second : List Char} {visibleChars : Int} (alike : Alike visibleChars.toNat first second)
    (maskChar : List Char) : maskText maskChar visibleChars first = maskText maskChar visibleChars second := by
  unfold maskText
  rw [← alike.1, alike.2]

/-- What a redaction makes of a field, whether it is there or not. -/
def redacted (text : Ω → String) (field : FieldRedaction Ω) (value : Option (Value Ω)) : Option (Value Ω) :=
  if field.strategy = .omit then none else value.map (redactValue text · field)

/-- What redactions of one field make of it, one after the other. -/
def redactedBy (text : Ω → String) (fields : List (FieldRedaction Ω)) (value : Option (Value Ω)) : Option (Value Ω) :=
  fields.foldl (fun value field => redacted text field value) value

variable (text : Ω → String)

private theorem redactedBy_none (fields : List (FieldRedaction Ω)) : redactedBy text fields none = none := by
  induction fields with
  | nil => rfl
  | cons field fields ih =>
    have gone : redacted text field none = none := by
      unfold redacted
      split <;> rfl
    unfold redactedBy at ih ⊢
    rw [List.foldl_cons, gone]
    exact ih

variable {field : FieldRedaction Ω} {fields : List (FieldRedaction Ω)}

theorem redactedBy_hidden (member : field ∈ fields)
    (hidden : field.strategy ≠ .mask) {first second : Option (Value Ω)} (present : first.isSome = second.isSome) :
    redactedBy text fields first = redactedBy text fields second := by
  induction fields generalizing first second with
  | nil => cases member
  | cons head fields ih =>
    have still : (redacted text head first).isSome = (redacted text head second).isSome := by
      unfold redacted
      split
      · rfl
      · rw [Option.isSome_map, Option.isSome_map, present]
    rcases List.mem_cons.mp member with rfl | later
    · suffices same : redacted text field first = redacted text field second by
        unfold redactedBy
        rw [List.foldl_cons, List.foldl_cons, same]
      unfold redacted
      split
      · rfl
      next kept =>
        have replaces : field.strategy = .replace := by
          match strategy : field.strategy with
          | .mask => exact absurd strategy hidden
          | .omit => exact absurd strategy kept
          | .replace => rfl
        cases first <;> cases second <;> simp_all [redactValue]
    · exact ih later still

private theorem redacted_mask (masks : field.strategy = .mask) (value : Value Ω) :
    redacted text field (some value) =
      some (.text (String.ofList (maskText field.maskChar.toList field.visibleChars (value.str text).toList))) := by
  simp [redacted, redactValue, masks]

theorem redactedBy_masked (masks : ∀ field ∈ fields, field.strategy = .mask)
    {narrowest : FieldRedaction Ω} (member : narrowest ∈ fields)
    (least : ∀ field ∈ fields, narrowest.visibleChars ≤ field.visibleChars) {first second : Value Ω}
    (alike : Alike narrowest.visibleChars.toNat (first.str text).toList (second.str text).toList) :
    redactedBy text fields (some first) = redactedBy text fields (some second) := by
  induction fields generalizing first second with
  | nil => cases member
  | cons head fields ih =>
    unfold redactedBy
    rw [List.foldl_cons, List.foldl_cons, redacted_mask text (masks head List.mem_cons_self),
      redacted_mask text (masks head List.mem_cons_self)]
    rcases List.mem_cons.mp member with rfl | later
    · rw [alike.merged]
    · apply ih (fun field inside => masks field (List.mem_cons_of_mem _ inside)) later
        (fun field inside => least field (List.mem_cons_of_mem _ inside))
      have shown := least head List.mem_cons_self
      simpa only [Value.str, String.toList_ofList] using alike.masked head.maskChar.toList (by omega)

private theorem lookup_without (data : Data Ω) (removed field : String) :
    (Data.without data removed).lookup field = if field = removed then none else data.lookup field := by
  induction data with
  | nil => simp [Data.without]
  | cons entry data ih =>
    unfold Data.without at ih ⊢
    obtain ⟨name, value⟩ := entry
    by_cases gone : name = removed
    · subst name
      rw [List.filter_cons_of_neg (by simp), ih]
      split
      · rfl
      next unlike => rw [List.lookup_cons, beq_false_of_ne unlike]
    · rw [List.filter_cons_of_pos (by simpa using gone), List.lookup_cons, List.lookup_cons, ih]
      by_cases same : field = name
      · subst field
        simp [gone]
      · simp [beq_false_of_ne same]

private theorem lookup_changed (data : Data Ω) (renewed field : String) (change : Value Ω → Value Ω) :
    (Data.changed data renewed change).lookup field =
      if field = renewed then (data.lookup field).map change else data.lookup field := by
  induction data with
  | nil => simp [Data.changed]
  | cons entry data ih =>
    unfold Data.changed at ih ⊢
    obtain ⟨name, value⟩ := entry
    rw [List.map_cons, List.lookup_cons]
    by_cases same : field = name
    · subst field
      by_cases chosen : name = renewed <;> simp [chosen]
    · by_cases chosen : name = renewed <;> simp [chosen, beq_false_of_ne same, ih] <;> grind

theorem applyField_ok (result : RedactionResult Ω) {entry : String × RedactionConfig Ω}
    (parsed : FieldRedaction.fromDict entry.1 entry.2 = .ok field) :
    ∃ after, applyField text result entry = .ok after ∧ ∀ name,
      after.data.lookup name = if name = entry.1 then redacted text field (result.data.lookup name) else result.data.lookup name := by
  unfold applyField
  rw [parsed]
  by_cases present : result.data.has entry.1
  · refine ⟨_, if_pos present, fun name => ?_⟩
    by_cases omits : field.strategy = .omit
    · simp [omits, lookup_without, redacted]
    · simp [omits, lookup_changed, redacted]
  · refine ⟨result, if_neg present, fun name => ?_⟩
    split
    next same =>
      rw [same, Option.not_isSome_iff_eq_none.mp present]
      exact (redactedBy_none text [field]).symm
    · rfl

/-- The redactions of all rules that match the viewer, in the order they are applied. -/
def entriesFor (rules : List (RedactionRule Ω)) (viewer : Viewer) : List (String × RedactionConfig Ω) :=
  (rules.filter fun rule => matchesViewer rule.rule viewer).flatMap RedactionRule.redactions

/-- What the dictionaries of the redactions say, field by field. -/
def parse (entries : List (String × RedactionConfig Ω)) : Except Raised (List (FieldRedaction Ω)) :=
  entries.mapM fun entry => FieldRedaction.fromDict entry.1 entry.2

/-- What is left of the data once the fields are redacted. -/
def Redacts (text : Ω → String) (fields : List (FieldRedaction Ω)) (data after : Data Ω) : Prop :=
  ∀ name, after.lookup name = redactedBy text (fields.filter fun field => field.fieldName = name) (data.lookup name)

theorem fromDict_name {name : String} {config : RedactionConfig Ω}
    (parsed : FieldRedaction.fromDict name config = .ok field) : field.fieldName = name := by
  unfold FieldRedaction.fromDict at parsed
  cases strategy : RedactionStrategy.ofValue (config.strategy.getD "replace") with
  | error error => rw [strategy] at parsed; cases parsed
  | ok found => rw [strategy] at parsed; cases parsed; rfl

private theorem Redacts.nil (data : Data Ω) : Redacts text [] data data := fun _ => rfl

private theorem Redacts.append {first second : List (FieldRedaction Ω)} {data between after : Data Ω}
    (one : Redacts text first data between) (two : Redacts text second between after) :
    Redacts text (first ++ second) data after := by
  intro name
  rw [two name, one name, List.filter_append]
  unfold redactedBy
  rw [List.foldl_append]

theorem parse_append (first second : List (String × RedactionConfig Ω)) : parse (first ++ second) = do
    let one ← parse first
    let two ← parse second
    return one ++ two := by
  unfold parse
  rw [List.mapM_append]

/-- The redactions of one rule: they raise where a dictionary cannot be read, whatever the data. -/
theorem applyFields_parse (entries : List (String × RedactionConfig Ω)) (result : RedactionResult Ω) :
    match parse entries with
    | .error error => entries.foldlM (applyField text) result = .error error
    | .ok fields => ∃ after, entries.foldlM (applyField text) result = .ok after ∧ Redacts text fields result.data after.data := by
  induction entries generalizing result with
  | nil => exact ⟨result, rfl, .nil text _⟩
  | cons entry entries ih =>
    rw [show entry :: entries = [entry] ++ entries from rfl, parse_append, List.foldlM_append]
    cases parsed : FieldRedaction.fromDict entry.1 entry.2 with
    | error error =>
      have unread : applyField text result entry = .error error := by
        unfold applyField
        rw [parsed]
        rfl
      simp [parse, parsed, unread, bind, Except.bind]
    | ok field =>
      obtain ⟨between, applied, shows⟩ := applyField_ok text result parsed
      have one : Redacts text [field] result.data between.data := by
        intro name
        rw [shows name]
        by_cases same : name = entry.1
        · subst name
          simp [fromDict_name parsed, redactedBy]
        · have foreign : field.fieldName ≠ name := by
            rw [fromDict_name parsed]
            exact fun equal => same equal.symm
          simp [same, foreign, redactedBy]
      have rest := ih between
      have head : parse [entry] = .ok [field] := by simp [parse, parsed]
      have start : [entry].foldlM (applyField text) result = .ok between := by simp [List.foldlM, applied]
      rw [head, start]
      cases later : parse entries with
      | error error =>
        rw [later] at rest
        exact rest
      | ok fields =>
        rw [later] at rest
        obtain ⟨after, ran, two⟩ := rest
        exact ⟨after, ran, one.append text two⟩

/-- All rules: those that do not match the viewer change nothing. -/
theorem applyRules_parse (viewer : Viewer) (rules : List (RedactionRule Ω)) (result : RedactionResult Ω) :
    match parse (entriesFor rules viewer) with
    | .error error => rules.foldlM (applyRule text viewer) result = .error error
    | .ok fields =>
      ∃ after, rules.foldlM (applyRule text viewer) result = .ok after ∧ Redacts text fields result.data after.data := by
  induction rules generalizing result with
  | nil => exact ⟨result, rfl, .nil text _⟩
  | cons rule rules ih =>
    rw [List.foldlM_cons]
    by_cases matching : matchesViewer rule.rule viewer
    · have entries : entriesFor (rule :: rules) viewer = rule.redactions ++ entriesFor rules viewer := by
        simp [entriesFor, matching]
      rw [entries, parse_append]
      have whole : applyRule text viewer result rule = .ok result ∧ rule.redactions = [] ∨
          applyRule text viewer result rule = rule.redactions.foldlM (applyField text)
            { result with rulesApplied := result.rulesApplied ++ [rule.rule.id] } := by
        unfold applyRule
        by_cases empty : rule.redactions = [] <;> simp [matching, empty]
      rcases whole with ⟨idle, empty⟩ | folds
      · rw [idle, empty]
        have rest := ih result
        cases later : parse (entriesFor rules viewer) <;> rw [later] at rest <;> exact rest
      · rw [folds]
        have first := applyFields_parse text rule.redactions { result with rulesApplied := result.rulesApplied ++ [rule.rule.id] }
        cases parsed : parse rule.redactions with
        | error error =>
          rw [parsed] at first
          rw [show rule.redactions.foldlM (applyField text) _ = _ from first]
          rfl
        | ok fields =>
          rw [parsed] at first
          obtain ⟨between, ran, one⟩ := first
          rw [ran]
          have rest := ih between
          cases later : parse (entriesFor rules viewer) with
          | error error =>
            rw [later] at rest
            exact rest
          | ok others =>
            rw [later] at rest
            obtain ⟨after, done, two⟩ := rest
            exact ⟨after, done, one.append text two⟩
    · have idle : applyRule text viewer result rule = .ok result := by simp [applyRule, matching]
      rw [idle, show entriesFor (rule :: rules) viewer = entriesFor rules viewer by simp [entriesFor, matching]]
      exact ih result

private theorem mem_entriesFor {rules : List (RedactionRule Ω)} {viewer : Viewer} {entry : String × RedactionConfig Ω} :
    entry ∈ entriesFor rules viewer ↔
      ∃ rule ∈ rules, matchesViewer rule.rule viewer = true ∧ entry ∈ rule.redactions := by
  simp only [entriesFor, List.mem_flatMap, List.mem_filter]
  grind

private theorem mem_parse {entries : List (String × RedactionConfig Ω)}
    (parsed : parse entries = .ok fields) (field : FieldRedaction Ω) :
    field ∈ fields ↔ ∃ entry ∈ entries, FieldRedaction.fromDict entry.1 entry.2 = .ok field := by
  induction entries generalizing fields with
  | nil =>
    cases parsed
    simp
  | cons entry entries ih =>
    unfold parse at ih parsed
    rw [List.mapM_cons] at parsed
    cases head : FieldRedaction.fromDict entry.1 entry.2 with
    | error error => rw [head] at parsed; cases parsed
    | ok found =>
      rw [head] at parsed
      cases tail : entries.mapM (fun entry => FieldRedaction.fromDict entry.1 entry.2) with
      | error error => rw [tail] at parsed; cases parsed
      | ok rest =>
        rw [tail] at parsed
        cases parsed
        simp only [List.mem_cons, ih tail, exists_eq_or_imp, head, Except.ok.injEq]
        grind

end Redaction

open Redaction

namespace RedactionEngine

variable {Ω : Type}

/-- Some rule that matches the viewer names the field. -/
def Names (engine : RedactionEngine Ω) (viewer : Viewer) (name : String) : Prop :=
  ∃ rule ∈ engine.rules, matchesViewer rule.rule viewer = true ∧ ∃ config, (name, config) ∈ rule.redactions

/-- Some rule that matches the viewer redacts the field so. -/
def Redacts (engine : RedactionEngine Ω) (viewer : Viewer) (name : String) (field : FieldRedaction Ω) : Prop :=
  ∃ rule ∈ engine.rules, matchesViewer rule.rule viewer = true ∧
    ∃ config, (name, config) ∈ rule.redactions ∧ FieldRedaction.fromDict name config = .ok field

/-- The smallest `visible_chars` of the masks of a field. -/
def Narrowest (engine : RedactionEngine Ω) (viewer : Viewer) (name : String) (visibleChars : Int) : Prop :=
  IsLeast {shown | ∃ field, engine.Redacts viewer name field ∧ field.visibleChars = shown} visibleChars

/-- What the data of two calls may still tell apart afterwards. -/
structure Discreet (text : Ω → String) (engine : RedactionEngine Ω) (viewer : Viewer) (first second one two : Data Ω) :
    Prop where
  passed : ∀ name, ¬ engine.Names viewer name → one.lookup name = first.lookup name ∧ two.lookup name = second.lookup name
  hidden : ∀ name field, engine.Redacts viewer name field → field.strategy ≠ .mask → one.lookup name = two.lookup name
  masked : ∀ name visibleChars value other, (∀ field, engine.Redacts viewer name field → field.strategy = .mask) →
    engine.Narrowest viewer name visibleChars → first.lookup name = some value → second.lookup name = some other →
    Alike visibleChars.toNat (value.str text).toList (other.str text).toList → one.lookup name = two.lookup name

variable (text : Ω → String)

/-- Two dictionaries with the same keys are redacted alike: both calls raise the
same, or what they return agrees wherever a field is left out or replaced, and
wherever it is masked and no longer than, and ends as, the other. -/
theorem redaction_discreet (rules : List (RedactionRule Ω)) (viewer : Viewer) (first second : Data Ω)
    (keys : ∀ name, first.has name = second.has name) :
    (∃ error, (ofRules rules).apply text viewer first = .error error ∧ (ofRules rules).apply text viewer second = .error error) ∨
    ∃ one two, (ofRules rules).apply text viewer first = .ok one ∧ (ofRules rules).apply text viewer second = .ok two ∧
      Discreet text (ofRules rules) viewer first second one.data two.data := by
  have ofFirst := applyRules_parse text viewer (ofRules rules).rules ⟨first, [], []⟩
  have ofSecond := applyRules_parse text viewer (ofRules rules).rules ⟨second, [], []⟩
  cases parsed : parse (entriesFor (ofRules rules).rules viewer) with
  | error error =>
    rw [parsed] at ofFirst ofSecond
    exact .inl ⟨error, ofFirst, ofSecond⟩
  | ok fields =>
    rw [parsed] at ofFirst ofSecond
    obtain ⟨one, ranFirst, showsFirst⟩ := ofFirst
    obtain ⟨two, ranSecond, showsSecond⟩ := ofSecond
    have redacts : ∀ name field, (ofRules rules).Redacts viewer name field ↔
        field ∈ fields.filter fun field => field.fieldName = name := by
      intro name field
      rw [List.mem_filter, mem_parse parsed]
      simp only [Redacts, mem_entriesFor, Prod.exists, decide_eq_true_eq]
      constructor
      · intro ⟨rule, member, matching, config, entry, read⟩
        exact ⟨⟨name, config, ⟨rule, member, matching, entry⟩, read⟩, fromDict_name read⟩
      · intro ⟨⟨other, config, ⟨rule, member, matching, entry⟩, read⟩, same⟩
        have named := fromDict_name read
        rw [same] at named
        subst other
        exact ⟨rule, member, matching, config, entry, read⟩
    refine .inr ⟨one, two, ranFirst, ranSecond, ?_, ?_, ?_⟩
    · intro name unnamed
      have idle : fields.filter (fun field => field.fieldName = name) = [] := by
        apply List.eq_nil_iff_forall_not_mem.mpr
        intro field member
        obtain ⟨rule, inside, matching, config, entry, -⟩ := (redacts name field).mpr member
        exact unnamed ⟨rule, inside, matching, config, entry⟩
      have own := showsFirst name
      have others := showsSecond name
      rw [idle] at own others
      exact ⟨own, others⟩
    · intro name field found unmasked
      rw [showsFirst name, showsSecond name]
      exact redactedBy_hidden text ((redacts name field).mp found) unmasked (keys name)
    · intro name visibleChars value other masks narrowest here there alike
      obtain ⟨⟨field, found, rfl⟩, least⟩ := narrowest
      rw [showsFirst name, showsSecond name, here, there]
      apply redactedBy_masked text (fun field member => masks field ((redacts name field).mpr member))
        ((redacts name field).mp found) _ alike
      intro another member
      exact least ⟨another, (redacts name another).mpr member, rfl⟩

section Sample

private def cardRule (id : String) (config : RedactionConfig Unit) : RedactionRule Unit where
  rule := ⟨id, id, .redaction, .deny, 0, [("principal_kind", .str "viewer")], 1, .active⟩
  redactions := [("card_number", config)]

/-- One mask shows four characters, the other two, in brackets. -/
def cardRules : List (RedactionRule Unit) :=
  [cardRule "four" ⟨some "mask", none, some 4, none⟩, cardRule "two" ⟨some "mask", some "[]", some 2, none⟩]

def auditor : Viewer := ⟨none, some "viewer", none⟩

def card (number : String) : Data Unit := [("card_number", .text number), ("kind", .object ())]

private theorem cards_masked (number : String) (shown : number = "4111111111111111" ∨ number = "5500005555555511") :
    ((ofRules cardRules).apply (fun _ => "None") auditor (card number)).toOption.map RedactionResult.data =
      some [("card_number", .text "[][][][][][][][][][][][][][]11"), ("kind", .object ())] := by
  rcases shown with rfl | rfl <;> decide +kernel

/-- Two cards that end alike in two digits only cannot be told apart. -/
theorem redaction_discreet_cards : ∃ one two,
    (ofRules cardRules).apply (fun _ => "None") auditor (card "4111111111111111") = .ok one ∧
    (ofRules cardRules).apply (fun _ => "None") auditor (card "5500005555555511") = .ok two ∧
    Discreet (fun _ => "None") (ofRules cardRules) auditor (card "4111111111111111") (card "5500005555555511") one.data two.data ∧
    one.data.lookup "card_number" = some (.text "[][][][][][][][][][][][][][]11") ∧
    two.data.lookup "card_number" = one.data.lookup "card_number" := by
  have outcome := redaction_discreet (fun _ => "None") cardRules auditor (card "4111111111111111") (card "5500005555555511")
    fun name => by simp [card, Data.has, List.lookup_cons]; grind
  have first := cards_masked _ (.inl rfl)
  have second := cards_masked _ (.inr rfl)
  rcases outcome with ⟨error, raised, -⟩ | ⟨one, two, ranFirst, ranSecond, discreet⟩
  · rw [raised] at first
    cases first
  · rw [ranFirst] at first
    rw [ranSecond] at second
    have shownFirst : one.data = _ := Option.some.inj first
    have shownSecond : two.data = _ := Option.some.inj second
    exact ⟨one, two, ranFirst, ranSecond, discreet, by rw [shownFirst]; rfl, by rw [shownFirst, shownSecond]⟩

end Sample
end RedactionEngine
end PyScoped.Legacy
