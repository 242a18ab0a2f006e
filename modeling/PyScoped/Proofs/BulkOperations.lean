import PyScoped.Proofs.Operations

/-! Mutations of many rows keep an assertion that has an upkeep. The rows are put
in flight one on top of the other, and written and recorded from the bottom up. -/

namespace PyScoped
open Foundation Discipline

variable {app : App} {label : String}

theorem mapM_forall₂ {α β : Type} {f : α → Except Err β} {items : List α} {results : List β}
    (mapped : items.mapM f = .ok results) : List.Forall₂ (fun item result => f item = .ok result) items results := by
  induction items generalizing results with
  | nil => cases mapped; exact .nil
  | cons item items ih =>
    rw [List.mapM_cons] at mapped
    cases first : f item with
    | error error => rw [first] at mapped; cases mapped
    | ok result =>
      cases others : items.mapM f with
      | error error => rw [first, others] at mapped; cases mapped
      | ok rest =>
        rw [first, others] at mapped
        cases mapped
        exact .cons first (ih others)

theorem mapM_mem {α β : Type} {f : α → Except Err β} {items : List α} {results : List β}
    (mapped : items.mapM f = .ok results) : ∀ result ∈ results, ∃ item ∈ items, f item = .ok result := by
  have each := mapM_forall₂ mapped
  clear mapped
  induction each with
  | nil => simp
  | @cons item result items results first rest ih =>
    refine List.forall_mem_cons.mpr ⟨⟨item, List.mem_cons_self, first⟩, fun other member => ?_⟩
    obtain ⟨item', member', mapped⟩ := ih other member
    exact ⟨item', List.mem_cons_of_mem _ member', mapped⟩

theorem mem_tableRows {entries : List (Sigma (Val app))} {row : Loaded app label} :
    row ∈ tableRows label entries ↔ (⟨.row label row.1, row.2⟩ : Sigma (Val app)) ∈ entries := by
  unfold tableRows
  rw [List.mem_mergeSort, List.mem_filterMap]
  constructor
  · rintro ⟨⟨key, value⟩, member, picked⟩
    cases key with
    | row other text =>
      simp only at picked
      split at picked
      next same =>
        subst same
        cases picked
        exact member
      · cases picked
    | resource => cases picked
    | event => cases picked
  · intro member
    exact ⟨_, member, by simp⟩

private theorem picked_key {entry : Sigma (Val app)} {row : Loaded app label} (picked : (match entry with
      | ⟨.row other text, row⟩ => if same : other = label then some (⟨text, same ▸ row⟩ : Loaded app label) else none
      | _ => none) = some row) : entry.1 = .row label row.1 := by
  obtain ⟨key, value⟩ := entry
  cases key with
  | row other text =>
    simp only at picked
    split at picked
    next same => subst same; cases picked; rfl
    · cases picked
  | resource => cases picked
  | event => cases picked

theorem tableRows_nodup {entries : List (Sigma (Val app))} (distinct : entries.keys.Nodup) :
    ((tableRows label entries).map (·.1)).Nodup := by
  unfold tableRows
  refine (((List.mergeSort_perm _ _).map _).nodup_iff).mpr ?_
  rw [List.Nodup, List.pairwise_map, List.pairwise_filterMap]
  refine (List.pairwise_map.mp distinct).imp fun {first second} ne row picked row' picked' same => ne ?_
  rw [picked_key picked, picked_key picked', same]

/-- A row to write, by the text of its key, with what was there before. -/
abbrev Target (app : App) (label : String) := Σ text : String, Option (Row (app.model label) text)

def Loaded.target (row : Loaded app label) : Target app label := ⟨row.1, some row.2⟩

/-- Targets in flight: the last one was put in flight last. -/
def aloft (phase : Phase) (targets : List (Target app label)) : List (Entry app) :=
  (targets.map fun target => ⟨label, target.1, target.2, phase⟩).reverse

theorem aloft_cons (phase : Phase) (target : Target app label) (targets : List (Target app label)) :
    aloft phase (target :: targets) = aloft phase targets ++ [⟨label, target.1, target.2, phase⟩] := by
  simp [aloft]

theorem aloft_append (phase : Phase) (first second : List (Target app label)) :
    aloft phase (first ++ second) = aloft phase second ++ aloft phase first := by
  simp [aloft]

variable {targets : List (Target app label)}

theorem mem_flying_aloft {phase : Phase} {text : String} :
    Key.row label text ∈ flying (aloft phase targets) ↔ text ∈ targets.map (·.1) := by
  simp [aloft, Entry.key]

namespace Upkeep

variable {server : Server (Val app) Err} {discipline : Discipline (Val app) Err} {entered : Option Active → Prop}
  {upkeep : Upkeep app server discipline entered} {flight : List (Entry app)} {session : Session (Val app)}
  {config : Registration (app.model label)} {held : List Key} {env : Env}

theorem lockAll_aloft {wanted : Loaded app label → Bool} (texts : List String) (opened : session.saved ≠ [])
    (here : upkeep.holds flight session) :
    discipline.Holds server (Returns fun rows final => upkeep.holds (aloft .read (rows.map Loaded.target) ++ flight) final ∧
      (rows.map (·.1)).Sublist texts) (lockAll label wanted texts : Db app _) session := by
  induction texts generalizing flight session with
  | nil => exact Holds.pure ⟨here, List.Sublist.refl _⟩
  | cons text texts ih =>
    have locking : discipline.Holds server (Returns fun (row : Option (Row (app.model label) text)) final =>
        upkeep.holds flight final ∧ ∀ own, row = some own → upkeep.holds (⟨label, text, some own, .read⟩ :: flight) final)
        (Tx.lock (V := Val app) (.row label text) : Db app _) session := by
      refine Holds.lock fun committed moves whole => ?_
      have seen := (upkeep.invariant flight).moved session committed ⟨whole.guarded, whole.nested, whole.opened⟩ moves here
      refine ⟨fun _ => trivial, fun _ => ⟨seen, fun own found => by cases found⟩, fun own present => ?_⟩
      have held := upkeep.locked _ _ (.row label text) seen
      refine ⟨held, fun own' found => ?_⟩
      obtain rfl := Option.some.inj found
      exact upkeep.readPresent ⟨Server.whole_hold whole opened, opened, moves.kept⟩ held present (.inr List.mem_cons_self)
    refine locking.andThen fun row final framed ⟨here, inside⟩ => ?_
    have opened' : final.saved ≠ [] := framed.saved ▸ opened
    cases row with
    | none =>
      exact (ih opened' here).andThen fun rows _ _ ⟨here, listed⟩ => Holds.pure ⟨here, listed.cons text⟩
    | some row =>
      by_cases matching : wanted ⟨text, row⟩ = true
      · refine (ih opened' (inside row rfl)).andThen fun rows _ _ ⟨here, listed⟩ => ?_
        change discipline.Holds server _ (.pure (if _ then _ else _)) _
        rw [if_pos matching]
        refine Holds.pure ⟨?_, listed.cons_cons text⟩
        rw [List.map_cons, aloft_cons, List.append_assoc]
        exact here
      · refine (ih opened' here).andThen fun rows _ _ ⟨here, listed⟩ => ?_
        change discipline.Holds server _ (.pure (if _ then _ else _)) _
        rw [if_neg matching]
        exact Holds.pure ⟨here, listed.cons text⟩

theorem updateRows_aloft {assigned : String → Assignments} (registered : app.registration label = some config)
    (rows : List (Loaded app label)) (opened : session.saved ≠ []) (distinct : (rows.map (·.1)).Nodup)
    (covered : ∀ text ∈ rows.map (·.1), Key.row label text ∈ flying flight → Key.row label text ∈ held)
    (unmoved : ∀ (text : String) (old new : Row (app.model label) text), assignAll (assigned text) old = .ok new →
      new.column config.scopeField.attname = old.column config.scopeField.attname)
    (here : upkeep.holds (aloft .read (rows.map Loaded.target) ++ flight) session) :
    discipline.Holds server (Returns fun _ final => upkeep.holds (aloft .written (rows.map Loaded.target) ++ flight) final)
      (updateRows label assigned held (rows.map (·.1)) : Db app Nat) session := by
  induction rows generalizing flight session with
  | nil => exact Holds.pure here
  | cons row rows ih =>
    obtain ⟨fresh, distinct⟩ := List.nodup_cons.mp distinct
    rw [List.map_cons, aloft_cons, List.append_assoc] at here
    have apart : Key.row label row.1 ∉ flying (aloft .read (rows.map Loaded.target)) := by
      rw [mem_flying_aloft, List.map_map]
      exact fresh
    have updating : discipline.Holds server (Returns fun _ final =>
        upkeep.holds (aloft .read (rows.map Loaded.target) ++ ⟨label, row.1, some row.2, .written⟩ :: flight) final)
        (Tx.update (V := Val app) (.row label row.1) (assignAll (assigned row.1)) held true : Db app Bool) session := by
      refine Holds.update (.inl (upkeep.own _ _)) fun committed moves whole allowed => ?_
      have seen := (upkeep.invariant _).moved session committed ⟨whole.guarded, whole.nested, whole.opened⟩ moves here
      have steady : Steady discipline (session.seeing committed) := ⟨whole, opened, moves.kept⟩
      refine ⟨fun _ => trivial, fun absent => upkeep.unmatched steady apart seen absent, fun old new present changed => ?_⟩
      exact upkeep.update steady registered (covered row.1 List.mem_cons_self) apart seen allowed rfl present changed
        (.inr (unmoved row.1 old new changed))
    refine updating.andThen fun matched final framed here => ?_
    have covered' : ∀ text ∈ rows.map (·.1), Key.row label text ∈ flying (⟨label, row.1, some row.2, .written⟩ :: flight) →
        Key.row label text ∈ held := by
      intro text listed flies
      rcases List.mem_cons.mp flies with same | flies
      · cases same
        exact absurd listed fresh
      · exact covered text (List.mem_cons_of_mem _ listed) flies
    refine (ih (framed.saved ▸ opened) distinct covered' here).andThen fun count last _ here => ?_
    refine Holds.pure ?_
    rw [List.map_cons, aloft_cons, List.append_assoc]
    exact here

/-- What is to be recorded for a target: its key and its before image. -/
def Recorded (config : Registration (app.model label)) (key : Value × Json) (target : Target app label) : Prop :=
  (app.model label).keyText key.1 = .ok target.1 ∧ snapshotOf config (target.2.map (Sigma.mk target.1)) = .ok key.2

theorem recordOne_holds {front : List (Entry app)} {ctx : Active} {action : String} {key : Value × Json}
    {target : Target app label} (within : env.Within entered held) (entering : entered (some ctx))
    (registered : app.registration label = some config) (opened : session.saved ≠ []) (covered : flying flight ⊆ held)
    (recorded : Recorded config key target) (creates : action = "create" → target.2 = none)
    (apart : Key.row label target.1 ∉ flying front)
    (here : upkeep.holds (front ++ ⟨label, target.1, target.2, .written⟩ :: flight) session) :
    discipline.Holds server (Returns fun _ final => upkeep.holds (front ++ flight) final)
      (recordOne env config ctx.toScopeContext action key.1 key.2) session := by
  obtain ⟨named, taken⟩ := recorded
  refine (upkeep.loadRow_plain here).andThen fun found final framed ⟨kept, loaded⟩ => ?_
  cases found with
  | none => exact Holds.raise trivial
  | some row =>
    obtain ⟨named', present⟩ := loaded row rfl
    obtain ⟨text, columns⟩ := row
    obtain ⟨text', before⟩ := target
    obtain rfl : text' = text := Except.ok.inj (named.symm.trans named')
    refine Holds.lift fun scope checked => ?_
    refine (upkeep.relations registered entering (List.mem_append_right _ List.mem_cons_self) rfl kept present).andThen
      fun _ last framed' ⟨kept', related⟩ => Holds.lift fun after snapped => ?_
    have opened' : last.saved ≠ [] := by rw [framed'.saved, framed.saved]; exact opened
    exact upkeep.record opened' registered entering
      (fun key member => within.held ▸ covered member) apart kept' ⟨scope, checked⟩ related taken snapped creates

theorem recordBulk_holds {action : String} {keys : List (Value × Json)}
    (within : env.Within entered held) (registered : app.registration label = some config) (opened : session.saved ≠ [])
    (covered : flying flight ⊆ held) (recorded : List.Forall₂ (Recorded config) keys targets)
    (creates : action = "create" → ∀ target ∈ targets, target.2 = none) (distinct : (targets.map (·.1)).Nodup)
    (here : upkeep.holds (aloft .written targets ++ flight) session) :
    discipline.Holds server (Returns fun _ final => upkeep.holds flight final)
      (recordBulk env config action keys) session := by
  refine Holds.lift fun ctx found => ?_
  have entering := within.active found
  induction recorded generalizing session with
  | nil => exact Holds.pure here
  | @cons key target keys targets first rest ih =>
    obtain ⟨fresh, distinct⟩ := List.nodup_cons.mp distinct
    rw [aloft_cons, List.append_assoc] at here
    have apart : Key.row label target.1 ∉ flying (aloft .written targets) := by
      rw [mem_flying_aloft]
      exact fresh
    refine (recordOne_holds within entering registered opened covered first
      (fun create => creates create target List.mem_cons_self) apart here).andThen fun _ final framed here => ?_
    exact ih (framed.saved ▸ opened) (fun create other member => creates create other (List.mem_cons_of_mem _ member))
      distinct here

theorem imagesOf_recorded {rows : List (Loaded app label)} {images : List (Image app label)}
    (imaged : imagesOf config rows = .ok images) :
    List.Forall₂ (Recorded config) (imageKeys images) (rows.map Loaded.target) ∧ images.map (·.row.1) = rows.map (·.1) := by
  have each := mapM_forall₂ imaged
  clear imaged
  induction each with
  | nil => exact ⟨.nil, rfl⟩
  | @cons row image rows images first rest ih =>
    cases snapped : snapshot config row.2.column with
    | error error => rw [snapped] at first; cases first
    | ok before =>
      rw [snapped] at first
      cases first
      exact ⟨.cons ⟨row.keyText, snapped⟩ ih.1, congrArg _ ih.2⟩

end Upkeep

theorem assign_other {old : Option Columns} {assignments : Assignments} {column written : Columns} {attname : String}
    (folded : assignments.foldlM (assign old) column = .ok written)
    (others : ∀ assignment ∈ assignments, assignment.1.attname ≠ attname) : written attname = column attname := by
  induction assignments generalizing column with
  | nil => cases folded; rfl
  | cons assignment assignments ih =>
    rw [List.foldlM_cons] at folded
    obtain ⟨here, others⟩ := List.forall_mem_cons.mp others
    cases assigned : assign old column assignment with
    | error error => rw [assigned] at folded; cases folded
    | ok next =>
      rw [assigned] at folded
      rw [ih folded others]
      unfold assign at assigned
      cases evaluated : assignment.2.eval old with
      | error error => rw [evaluated] at assigned; cases assigned
      | ok value =>
        cases stored : assignment.1.store value with
        | error error => simp [evaluated, stored, bind, Except.bind] at assigned
        | ok value' =>
          simp only [evaluated, stored, bind, Except.bind] at assigned
          cases assigned
          exact Function.update_of_ne here.symm _ _

variable {model : Model}

theorem assignAll_other {pk attname : String} {assignments : Assignments} {old new : Row model pk}
    (assigned : assignAll assignments old = .ok new)
    (others : ∀ assignment ∈ assignments, assignment.1.attname ≠ attname) : new.column attname = old.column attname := by
  unfold assignAll at assigned
  cases folded : assignments.foldlM (assign (some old.column)) old.column with
  | error error => rw [folded] at assigned; cases assigned
  | ok column =>
    rw [folded] at assigned
    rw [Row.make_column assigned]
    exact assign_other folded others

theorem Model.field_eq {first second : Field} (member : first ∈ model.fields)
    (member' : second ∈ model.fields) (same : first.attname = second.attname) : first = second :=
  List.inj_on_of_nodup_map model.distinct member member' same

theorem resolveField_ok {name : String} {field : Field} (resolved : resolveField model name = .ok field) :
    field ∈ model.fields ∧ (field.name = name ∨ field.attname = name) := by
  unfold resolveField at resolved
  split at resolved
  next found =>
    cases resolved
    exact ⟨List.mem_of_find?_eq_some found, by simpa using List.find?_some found⟩
  · cases resolved

theorem resolveField_unscoped {config : Registration model} {name : String} {field : Field}
    (accepted : name ≠ config.scopeField.name ∧ name ≠ config.scopeField.attname)
    (resolved : resolveField model name = .ok field) : field.attname ≠ config.scopeField.attname := by
  obtain ⟨member, named⟩ := resolveField_ok resolved
  intro same
  obtain rfl := Model.field_eq member config.scopeMember same
  rcases named with rfl | rfl
  · exact accepted.1 rfl
  · exact accepted.2 rfl

theorem resolveAll_unscoped {config : Registration model} {assignments : List (String × Attr)}
    {assigned : Assignments} (resolved : resolveAll model assignments = .ok assigned)
    (accepted : ∀ name ∈ assignments.map (·.1), name ≠ config.scopeField.name ∧ name ≠ config.scopeField.attname) :
    ∀ assignment ∈ assigned, assignment.1.attname ≠ config.scopeField.attname := by
  intro assignment member
  obtain ⟨⟨name, attr⟩, listed, mapped⟩ := mapM_mem resolved assignment member
  cases found : resolveField model name with
  | error error => simp [found, bind, Except.bind] at mapped
  | ok field =>
    simp only [found, bind, Except.bind] at mapped
    cases mapped
    exact resolveField_unscoped (accepted name (List.mem_map_of_mem listed)) found

theorem objectAssignments_unscoped {config : Registration model} {objs : List Instance}
    {names : List String} {fields : List Field} (resolved : resolveFields model names = .ok fields)
    (accepted : ∀ name ∈ names, name ≠ config.scopeField.name ∧ name ≠ config.scopeField.attname) (text : String) :
    ∀ assignment ∈ Queryset.objectAssignments model objs fields text,
      assignment.1.attname ≠ config.scopeField.attname := by
  unfold Queryset.objectAssignments
  split
  next obj _ =>
    intro assignment member
    obtain ⟨field, listed, rfl⟩ := List.mem_map.mp member
    obtain ⟨name, named, found⟩ := mapM_mem resolved field listed
    exact resolveField_unscoped (accepted name named) found
  · simp

theorem Queryset.mutationConfig_unscoped {queryset : Queryset app} {config : Registration (app.model queryset.label)}
    {env : Env} {names : List String} (accepted : queryset.mutationConfig config env names = .ok ()) :
    ∀ name ∈ names, name ≠ config.scopeField.name ∧ name ≠ config.scopeField.attname := by
  unfold Queryset.mutationConfig at accepted
  cases checked : queryset.checkContext config env with
  | error error => rw [checked] at accepted; cases accepted
  | ok =>
    cases found : env.current with
    | error error => rw [checked, found] at accepted; cases accepted
    | ok ctx =>
      simp only [checked, found, bind, Except.bind] at accepted
      split at accepted
      · cases accepted
      next clean =>
        intro name member
        simp only [List.any_eq_true, not_exists, not_and, Bool.not_eq_true] at clean
        have excluded := clean name member
        simp only [List.contains_cons, Bool.or_eq_false_iff, beq_eq_false_iff_ne] at excluded
        exact ⟨excluded.1, excluded.2.1⟩

namespace Upkeep

variable {server : Server (Val app) Err} {discipline : Discipline (Val app) Err} {entered : Option Active → Prop}
  {upkeep : Upkeep app server discipline entered} {flight : List (Entry app)} {session : Session (Val app)}
  {held : List Key} {env : Env} {queryset : Queryset app} {config : Registration (app.model queryset.label)}

theorem scan_distinct {wanted : List (Sigma (Val app)) → Sigma (Val app) → Bool} {relied : Bool}
    (here : upkeep.holds flight session) :
    discipline.Holds server (Returns fun entries final => entries.keys.Nodup ∧ upkeep.holds flight final)
      (Tx.scan wanted relied : Db app (List (Sigma (Val app)))) session := by
  refine Holds.scan fun committed moves whole _ => ⟨fun _ => trivial, ?_, ?_⟩
  · exact (Log.entries_nodup _).sublist (List.filter_sublist.map _)
  · exact (upkeep.invariant _).moved session committed ⟨whole.guarded, whole.nested, whole.opened⟩ moves here

theorem imaged_holds {rows : List (Loaded app label)} {config : Registration (app.model label)}
    {images : List (Image app label)} {assigned : String → Assignments}
    (within : env.Within entered held) (registered : app.registration label = some config) (opened : session.saved ≠ [])
    (covered : flying flight ⊆ held) (distinct : (rows.map (·.1)).Nodup) (imaged : imagesOf config rows = .ok images)
    (unmoved : ∀ text, ∀ assignment ∈ assigned text, assignment.1.attname ≠ config.scopeField.attname)
    (here : upkeep.holds (aloft .read (rows.map Loaded.target) ++ flight) session) :
    discipline.Holds server (Returns fun _ final => upkeep.holds flight final)
      ((updateRows label assigned env.held (images.map (·.row.1)) : Db app Nat).bind fun count =>
        (recordBulk env config "update" (imageKeys images)).bind fun _ => .pure count) session := by
  obtain ⟨recorded, keys⟩ := imagesOf_recorded imaged
  rw [keys]
  refine (updateRows_aloft registered rows opened distinct (fun text _ flies => within.held ▸ covered flies)
    (fun text old new changed => assignAll_other changed (unmoved text)) here).andThen fun count final framed here => ?_
  refine (recordBulk_holds within registered (framed.saved ▸ opened) covered recorded (fun create => ?_) ?_ here).andThen
    fun _ _ _ here => Holds.pure here
  · exact absurd create (by decide)
  · rwa [List.map_map]

theorem update_holds {assignments : List (String × Attr)} (within : env.Within entered held)
    (registered : app.registration queryset.label = some config) (covered : flying flight ⊆ held)
    (here : upkeep.holds flight session) :
    discipline.Holds server (Always (upkeep.holds flight)) (queryset.update config env assignments) session := by
  refine upkeep.lifted here fun _ accepted => ?_
  change discipline.Holds server _ (if _ then _ else _) _
  split
  · exact Holds.pure here
  refine upkeep.block here fun session here opened => ?_
  refine (scan_distinct here).andThen fun entries second framed scanned => ?_
  obtain ⟨distinct, here⟩ := scanned
  refine (lockAll_aloft _ (framed.saved ▸ opened) here).andThen fun rows third framed' locked => ?_
  obtain ⟨here, listed⟩ := locked
  refine Holds.lift fun images imaged => Holds.lift fun assigned resolved => ?_
  have opened' : third.saved ≠ [] := by rw [framed'.saved, framed.saved]; exact opened
  refine imaged_holds within registered opened' covered ?_ imaged (fun _ => ?_) here
  · exact ((tableRows_nodup distinct).sublist (List.filter_sublist.map _)).sublist listed
  · exact resolveAll_unscoped resolved (Queryset.mutationConfig_unscoped accepted)

theorem scan_relied (label : String) {wanted : List (Sigma (Val app)) → Sigma (Val app) → Bool} (opened : session.saved ≠ [])
    (here : upkeep.holds flight session) :
    discipline.Holds server (Returns fun entries final => entries.keys.Nodup ∧
        upkeep.holds (aloft .read ((tableRows label entries).map Loaded.target) ++ flight) final)
      (Tx.scan wanted true : Db app (List (Sigma (Val app)))) session := by
  refine Holds.scan fun committed moves whole allowed => ⟨fun _ => trivial, ?_, ?_⟩
  · exact (Log.entries_nodup _).sublist (List.filter_sublist.map _)
  have seen := (upkeep.invariant _).moved session committed ⟨whole.guarded, whole.nested, whole.opened⟩ moves here
  have steady : Steady discipline (session.seeing committed) := ⟨whole, opened, moves.kept⟩
  have rising (rows : List (Loaded app label)) (flight : List (Entry app))
      (present : ∀ row ∈ rows, (⟨.row label row.1, row.2⟩ : Sigma (Val app)) ∈
        (session.seeing committed).view.entries.filter (wanted (session.seeing committed).view.entries))
      (here : upkeep.holds flight (session.seeing committed)) :
      upkeep.holds (aloft .read (rows.map Loaded.target) ++ flight) (session.seeing committed) := by
    induction rows generalizing flight with
    | nil => exact here
    | cons row rows ih =>
      obtain ⟨found, present⟩ := List.forall_mem_cons.mp present
      rw [List.map_cons, aloft_cons, List.append_assoc]
      exact ih _ present (upkeep.readRelied steady here allowed found)
  exact rising _ _ (fun row member => mem_tableRows.mp member) seen

theorem bulkUpdate_holds {objs : List Instance} {names : List String} (within : env.Within entered held)
    (registered : app.registration queryset.label = some config) (covered : flying flight ⊆ held)
    (here : upkeep.holds flight session) :
    discipline.Holds server (Always (upkeep.holds flight)) (queryset.bulkUpdate config env objs names) session := by
  refine upkeep.lifted here fun _ accepted => ?_
  change discipline.Holds server _ (if _ then _ else _) _
  split
  · exact Holds.raise here
  change discipline.Holds server _ (if _ then _ else _) _
  split
  · exact Holds.raise here
  change discipline.Holds server _ (if _ then _ else _) _
  split
  · exact Holds.raise here
  refine upkeep.lifted here fun ctx _ => upkeep.block here fun session here opened => Holds.lift fun keys _ => ?_
  refine upkeep.reading (Prog.Only.perform (by trivial)) here fun entries second saved here => ?_
  refine upkeep.reading (lockAll_reads _) here fun rows third saved' here => ?_
  refine upkeep.reading (Prog.Only.forM fun _ _ => Prog.Only.bind (Prog.Only.ofExcept _) fun _ => trivial) here
    fun _ fourth saved'' here => ?_
  have opened' : fourth.saved ≠ [] := by rw [saved'', saved', saved]; exact opened
  refine (scan_relied queryset.label opened' here).andThen fun selected last framed scanned => ?_
  obtain ⟨distinct, here⟩ := scanned
  refine Holds.lift fun images imaged => Holds.lift fun fields resolved => ?_
  change discipline.Holds server _ (if _ then _ else _) _
  split
  · exact Holds.raise trivial
  exact imaged_holds within registered (framed.saved ▸ opened') covered (tableRows_nodup distinct) imaged
    (objectAssignments_unscoped resolved (Queryset.mutationConfig_unscoped accepted)) here

/-- The transaction itself has written a row under the key of each target. -/
def Owned (targets : List (Target app label)) (session : Session (Val app)) : Prop :=
  ∀ target ∈ targets, ∃ row : Row (app.model label) target.1,
    session.current.writes.lookup (.row label target.1) = some row

theorem insertRow_aloft {config : Registration (app.model label)} {inst : Instance}
    (registered : app.registration label = some config) (opened : session.saved ≠ []) (covered : flying flight ⊆ held)
    (distinct : (targets.map (·.1)).Nodup) (owned : Owned targets session)
    (here : upkeep.holds (aloft .written targets ++ flight) session) :
    discipline.Holds server (Returns fun saved final => ∃ target : Target app label,
        (app.model label).keyText saved.pk = .ok target.1 ∧ target.2 = none ∧ ((targets ++ [target]).map (·.1)).Nodup ∧
          Owned (targets ++ [target]) final ∧ upkeep.holds (aloft .written (targets ++ [target]) ++ flight) final)
      (insertRow label inst held : Db app Instance) session := by
  have keyed : discipline.Holds server (Returns fun _ final => Owned targets final ∧
      upkeep.holds (aloft .written targets ++ flight) final) (withKey inst : Db app Instance) session := by
    by_cases set : inst.pk = .none
    · have asked : discipline.Holds server (Returns fun _ final => Owned targets final ∧
          upkeep.holds (aloft .written targets ++ flight) final) (Tx.ask : Db app Oracle) session := by
        refine Holds.ask fun committed moves whole result => ?_
        cases result with
        | ok => exact ⟨owned, (upkeep.invariant _).moved session committed ⟨whole.guarded, whole.nested, whole.opened⟩ moves here⟩
        | error => trivial
      unfold withKey
      rw [set]
      exact asked.andThen fun _ _ _ reached => Holds.pure reached
    · rw [withKey_eq set]
      exact Holds.pure ⟨owned, here⟩
  refine keyed.andThen fun keyed second framed ⟨owned, here⟩ => Holds.lift fun text named => Holds.lift fun row _ => ?_
  have inserting : discipline.Holds server (Returns fun _ final =>
      ((targets ++ [(⟨text, none⟩ : Target app label)]).map (·.1)).Nodup ∧ Owned (targets ++ [⟨text, none⟩]) final ∧
        upkeep.holds (aloft .written (targets ++ [⟨text, none⟩]) ++ flight) final)
      (Tx.insert (V := Val app) (.row label text) row held : Db app Unit) second := by
    refine Holds.insert (.inl (upkeep.own _ _)) fun committed moves whole allowed => ⟨fun _ => trivial, fun absent => ?_⟩
    have seen := (upkeep.invariant _).moved second committed ⟨whole.guarded, whole.nested, whole.opened⟩ moves here
    have steady : Steady discipline (second.seeing committed) := ⟨whole, framed.saved ▸ opened, moves.kept⟩
    -- Rows that this transaction has inserted are in its view, so the key is a new one.
    have fresh : ∀ target ∈ targets, target.1 ≠ text := by
      rintro target member rfl
      obtain ⟨own, found⟩ := owned target member
      cases absent.symm.trans (Log.lookup_append_some found committed)
    have apart : text ∉ targets.map (·.1) := by
      intro listed
      obtain ⟨target, member, same⟩ := List.mem_map.mp listed
      exact fresh target member same
    refine ⟨?_, ?_, ?_⟩
    · rw [List.map_append, List.nodup_append]
      refine ⟨distinct, List.nodup_singleton _, fun other listed single member => ?_⟩
      obtain rfl := List.mem_singleton.mp member
      rintro rfl
      exact apart listed
    · intro target member
      rcases List.mem_append.mp member with earlier | last
      · obtain ⟨own, found⟩ := owned target earlier
        exact ⟨own, (Log.lookup_cons_ne _ _ (fun same => fresh target earlier (Key.row.inj same).2)).trans found⟩
      · obtain rfl := List.mem_singleton.mp last
        exact ⟨row, Log.lookup_cons_self _ _ _⟩
    · rw [aloft_append]
      refine upkeep.insert steady registered (fun flies => ?_) (upkeep.readAbsent steady seen fun _ => absent) allowed absent
      obtain ⟨entry, member, named⟩ := List.mem_map.mp flies
      rcases List.mem_append.mp member with inside | outside
      · exact absurd (mem_flying_aloft.mp (List.mem_map.mpr ⟨entry, inside, named⟩)) apart
      · exact covered (List.mem_map.mpr ⟨entry, outside, named⟩)
  refine inserting.andThen fun _ last _ ⟨distinct, owned, here⟩ => ?_
  exact Holds.pure ⟨⟨text, none⟩, named, rfl, distinct, owned, here⟩

theorem insertAll_aloft {config : Registration (app.model label)} (registered : app.registration label = some config)
    (objs : List Instance) (targets : List (Target app label)) (opened : session.saved ≠ []) (covered : flying flight ⊆ held)
    (distinct : (targets.map (·.1)).Nodup) (owned : Owned targets session)
    (here : upkeep.holds (aloft .written targets ++ flight) session) :
    discipline.Holds server (Returns fun created final => ∃ others : List (Target app label),
        List.Forall₂ (fun target obj => target.2 = none ∧ (app.model label).keyText obj.pk = .ok target.1) others created ∧
          ((targets ++ others).map (·.1)).Nodup ∧ upkeep.holds (aloft .written (targets ++ others) ++ flight) final)
      (Queryset.insertAll label held objs : Db app (List Instance)) session := by
  induction objs generalizing targets session with
  | nil => exact Holds.pure ⟨[], .nil, by simpa using distinct, by simpa using here⟩
  | cons obj objs ih =>
    refine (insertRow_aloft registered opened covered distinct owned here).andThen fun saved second framed reached => ?_
    obtain ⟨target, named, unread, distinct, owned, here⟩ := reached
    refine (ih _ (framed.saved ▸ opened) distinct owned here).andThen fun created last _ ⟨others, matched, distinct, here⟩ => ?_
    rw [List.append_assoc] at distinct here
    exact Holds.pure ⟨target :: others, .cons ⟨unread, named⟩ matched, distinct, here⟩

theorem bulkCreate_holds {objs : List Instance} {conflicts : Bool} (within : env.Within entered held)
    (registered : app.registration queryset.label = some config) (covered : flying flight ⊆ held)
    (here : upkeep.holds flight session) :
    discipline.Holds server (Always (upkeep.holds flight)) (queryset.bulkCreate config env objs conflicts) session := by
  refine upkeep.lifted here fun _ accepted => ?_
  change discipline.Holds server _ (if _ then _ else _) _
  split
  · exact Holds.raise here
  refine upkeep.lifted here fun ctx _ => upkeep.block here fun session here opened => ?_
  refine upkeep.reading (Prog.Only.forM fun _ _ => Prog.Only.bind (Prog.Only.ofExcept _) fun _ => checkRelations_reads _ _ _)
    here fun _ second saved here => ?_
  have opened' : second.saved ≠ [] := saved ▸ opened
  refine (insertAll_aloft registered objs [] opened' (within.held ▸ covered) List.nodup_nil (by simp [Owned]) here).andThen
    fun created third framed reached => ?_
  obtain ⟨targets, matched, distinct, here⟩ := reached
  change discipline.Holds server _ (if _ then _ else _) _
  split
  · exact Holds.raise trivial
  have recorded : List.Forall₂ (Recorded config) (created.map fun obj => (obj.pk, .null)) targets := by
    rw [List.forall₂_map_left_iff]
    refine matched.flip.imp fun obj target own => ⟨own.2, ?_⟩
    rw [own.1]
    rfl
  have unread : ∀ target ∈ targets, target.2 = none := ((List.forall₂_and_left _ _).mp matched).1
  exact (recordBulk_holds within registered (framed.saved ▸ opened') covered recorded (fun _ => unread) distinct here).andThen
    fun _ _ _ here => Holds.pure here

end Upkeep
end PyScoped
