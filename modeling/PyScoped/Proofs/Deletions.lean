import PyScoped.Proofs.BulkOperations

/-! Deletions keep an assertion that has an upkeep. Every collected row is put in
flight when its `pre_delete` is sent, and leaves it when its row is deleted. -/

namespace PyScoped
open Foundation Discipline

variable {app : App}

/-- The entry of a collected row, if it has one: a row that was there is condemned. -/
def Queued (row : (String × Value) × Bool) : Option (Entry app) → Prop
  | none => app.registration row.1.1 = none ∨ row.1.2 = .none
  | some entry => app.registration row.1.1 ≠ none ∧ rowKey app row.1.1 row.1.2 = some entry.key ∧
      entry.phase = (if entry.before.isSome then .condemned else .read) ∧ row.2 = entry.before.isSome

def queue (options : List (Option (Entry app))) : List (Entry app) := (options.filterMap id).reverse

theorem queue_cons (option : Option (Entry app)) (options : List (Option (Entry app))) :
    queue (option :: options) = queue options ++ option.toList := by
  cases option <;> simp [queue]

variable {options : List (Option (Entry app))}

theorem mem_flying_queue {rows : List ((String × Value) × Bool)}
    (queued : List.Forall₂ Queued rows options) {key : Key} (flies : key ∈ flying (queue options)) :
    key ∈ rows.filterMap fun row => rowKey app row.1.1 row.1.2 := by
  induction queued with
  | nil => simp [queue] at flies
  | @cons row option rows options first rest ih =>
    rw [queue_cons] at flies
    obtain ⟨entry, member, rfl⟩ := List.mem_map.mp flies
    rcases List.mem_append.mp member with inside | here
    · obtain ⟨row', listed, named⟩ := List.mem_filterMap.mp (ih (List.mem_map_of_mem inside))
      exact List.mem_filterMap.mpr ⟨row', List.mem_cons_of_mem _ listed, named⟩
    · cases option with
      | none => cases here
      | some entry' =>
        obtain rfl := List.mem_singleton.mp here
        exact List.mem_filterMap.mpr ⟨row, List.mem_cons_self, first.2.1⟩

theorem stillFlying_covers {groups : List (List ((String × Value) × Bool))}
    {flight : List (Entry app)} {held : List Key} (queued : List.Forall₂ Queued groups.flatten options)
    (covered : flying flight ⊆ held) : flying (queue options ++ flight) ⊆ stillFlying app groups held := by
  unfold stillFlying
  generalize groups.flatten = rows at queued
  induction queued with
  | nil => exact covered
  | @cons row option rows options first rest ih =>
    intro key flies
    obtain ⟨entry, member, rfl⟩ := List.mem_map.mp flies
    rw [queue_cons, List.append_assoc] at member
    rcases List.mem_append.mp member with inside | outside
    · exact List.mem_append_right _ (ih (List.mem_map_of_mem (List.mem_append_left _ inside)))
    rcases List.mem_append.mp outside with here | below
    · cases option with
      | none => cases here
      | some entry' =>
        obtain rfl := List.mem_singleton.mp here
        exact List.mem_append_left _ (by simp [first.2.1])
    · exact List.mem_append_right _ (ih (List.mem_map_of_mem (List.mem_append_right _ below)))

namespace Upkeep

variable {server : Server (Val app) Err} {discipline : Discipline (Val app) Err} {entered : Option Active → Prop}
  {upkeep : Upkeep app server discipline entered} {flight : List (Entry app)} {session : Session (Val app)}
  {held flies : List Key} {env : Env} {handlers : Handlers app}

theorem beforeDelete_queued {label : String} {config : Registration (app.model label)} {pk : Value}
    (within : env.Within entered held) (registered : app.registration label = some config) (opened : session.saved ≠ [])
    (covered : flying flight ⊆ flies) (here : upkeep.holds flight session) :
    discipline.Holds server (Returns fun seen final => ∃ option : Option (Entry app), Queued ((label, pk), seen) option ∧
      upkeep.holds (option.toList ++ flight) final) (beforeDelete env config pk flies) session := by
  have known : app.registration label ≠ none := by rw [registered]; exact Option.some_ne_none _
  refine Holds.lift fun ctx found => ?_
  have entering := within.active found
  refine (upkeep.loadRow_locked opened here).andThen fun loaded second framed ⟨_, reading⟩ => ?_
  rcases reading with ⟨unset, rfl, here⟩ | ⟨text, before, set, named, rfl, here⟩
  · exact Holds.pure ⟨none, .inr unset, here⟩
  cases before with
  | none => exact Holds.pure ⟨some ⟨label, text, none, .read⟩, ⟨known, rowKey_eq set named, rfl, rfl⟩, here⟩
  | some row =>
    refine Holds.lift fun scope checked => Holds.lift fun before snapped => ?_
    refine (upkeep.condemn (framed.saved ▸ opened) registered entering
      (fun key member => covered member) here ⟨scope, checked⟩ snapped).andThen fun _ _ _ here => ?_
    exact Holds.pure ⟨some ⟨label, text, some row, .condemned⟩, ⟨known, rowKey_eq set named, rfl, rfl⟩, here⟩

theorem deleteRow_holds {front : List (Entry app)} {label : String} {pk : Value} {seen : Bool}
    {option : Option (Entry app)} (opened : session.saved ≠ []) (covered : flying flight ⊆ held)
    (queued : Queued ((label, pk), seen) option) (apart : ∀ entry ∈ option, entry.key ∉ flying front)
    (here : upkeep.holds (front ++ (option.toList ++ flight)) session) :
    discipline.Holds server (Returns fun _ final => upkeep.holds (front ++ flight) final)
      (deleteRow label pk held seen) session := by
  by_cases unset : pk = .none
  · subst unset
    cases option with
    | none => exact Holds.pure here
    | some entry => cases queued.2.1
  have deletes : (deleteRow label pk held seen : Db app Bool) =
      (Prog.ofExcept ((app.model label).keyText pk)).bind fun text => Tx.delete (V := Val app) (.row label text) held seen := by
    cases pk with
    | none => exact absurd rfl unset
    | bool | int | str | other => rfl
  rw [deletes]
  refine Holds.lift fun text named => Holds.delete (.inl (upkeep.own _ _)) fun committed moves whole allowed => ?_
  have seen' := (upkeep.invariant _).moved session committed ⟨whole.guarded, whole.nested, whole.opened⟩ moves here
  have steady : Steady discipline (session.seeing committed) := ⟨whole, opened, moves.kept⟩
  cases option with
  | none =>
    have foreign : app.registration label = none := queued.resolve_right unset
    exact ⟨fun _ => trivial, fun _ => seen', fun old _ => upkeep.eraseForeign foreign seen'⟩
  | some entry =>
    obtain ⟨label', text', before, phase⟩ := entry
    obtain ⟨known, key, condemned, told⟩ := queued
    obtain ⟨rfl, rfl⟩ : label = label' ∧ text = text' := Key.row.inj (Option.some.inj ((rowKey_eq unset named).symm.trans key))
    obtain ⟨config, registered⟩ := Option.ne_none_iff_exists'.mp known
    have outside := apart _ rfl
    refine ⟨fun _ => trivial, fun absent => upkeep.drop steady outside ?_ seen' absent, fun old present => ?_⟩
    · change phase = _ at condemned
      rw [condemned]
      split <;> exact Phase.noConfusion
    · exact upkeep.erase steady registered (fun flies => covered flies) outside condemned seen' allowed told present

theorem sendPreDelete_queued (deleting : upkeep.Deleting handlers) (within : env.Within entered held)
    (rows : List (String × Value)) (opened : session.saved ≠ []) (covered : flying flight ⊆ flies)
    (here : upkeep.holds flight session) :
    discipline.Holds server (Returns fun results final => results.map (·.1) = rows ∧
        ∃ options : List (Option (Entry app)), List.Forall₂ Queued results options ∧
          upkeep.holds (queue options ++ flight) final)
      (sendPreDelete env handlers rows flies) session := by
  induction rows generalizing flight flies session with
  | nil => exact Holds.pure ⟨rfl, [], .nil, here⟩
  | cons row rows ih =>
    obtain ⟨label, pk⟩ := row
    have flying (option : Option (Entry app)) {seen : Bool} (queued : Queued ((label, pk), seen) option) :
        flying (option.toList ++ flight) ⊆ inFlight app label pk flies := by
      refine inFlight_covers covered fun entry member => ?_
      cases option with
      | none => cases member
      | some entry' => obtain rfl := List.mem_singleton.mp member; exact queued.2.1
    -- Once the row has its entry, the later handlers and the other rows follow.
    have onward (seen : Bool) (session : Session (Val app)) (opened : session.saved ≠ []) (option : Option (Entry app))
        (queued : Queued ((label, pk), seen) option) (here : upkeep.holds (option.toList ++ flight) session) :
        discipline.Holds server (Returns fun results final => results.map (·.1) = (label, pk) :: rows ∧
            ∃ options : List (Option (Entry app)), List.Forall₂ Queued results options ∧
              upkeep.holds (queue options ++ flight) final)
          ((handlers.preDelete false (inFlight app label pk flies) label pk).bind fun _ =>
            (sendPreDelete env handlers rows (inFlight app label pk flies)).bind fun others =>
              .pure (((label, pk), seen) :: others)) session := by
      refine (deleting.preDelete (flying option queued) here).returned.andThen fun _ second framed here => ?_
      refine (ih (framed.saved ▸ opened) (flying option queued) here).andThen
        fun others _ _ ⟨same, options, matched, here⟩ => Holds.pure ⟨congrArg _ same, option :: options, .cons queued matched, ?_⟩
      rw [queue_cons, List.append_assoc]
      exact here
    refine (deleting.preDelete covered here).returned.andThen fun _ second framed here => ?_
    have opened' : second.saved ≠ [] := framed.saved ▸ opened
    cases registered : app.registration label with
    | none => exact onward true second opened' none (.inl registered) here
    | some config =>
      refine (beforeDelete_queued within registered opened' covered here).andThen
        fun seen third framed' ⟨option, queued, here⟩ => ?_
      exact onward seen third (framed'.saved ▸ opened') option queued here

theorem deleteGroup_holds (group later : List ((String × Value) × Bool))
    (opened : session.saved ≠ []) (covered : flying flight ⊆ held) (queued : List.Forall₂ Queued (group ++ later) options)
    (distinct : ((group ++ later).filterMap fun row => rowKey app row.1.1 row.1.2).Nodup)
    (here : upkeep.holds (queue options ++ flight) session) :
    discipline.Holds server (Returns fun _ final => ∃ rest : List (Option (Entry app)), List.Forall₂ Queued later rest ∧
        upkeep.holds (queue rest ++ flight) final)
      (group.forM fun ((label, pk), seen) => (deleteRow label pk held seen).bind fun _ => .pure ()) session := by
  induction group generalizing options session with
  | nil => exact Holds.pure ⟨options, queued, here⟩
  | cons row group ih =>
    obtain ⟨⟨label, pk⟩, seen⟩ := row
    obtain ⟨option, options, first, rest, rfl⟩ := List.forall₂_cons_left_iff.mp queued
    rw [queue_cons, List.append_assoc] at here
    have fresh : ∀ entry ∈ option, entry.key ∉ flying (queue options) := by
      intro entry member flies
      obtain rfl := Option.mem_def.mp member
      simp only [List.cons_append, List.filterMap_cons, first.2.1] at distinct
      exact (List.nodup_cons.mp distinct).1 (mem_flying_queue rest flies)
    have remaining : ((group ++ later).filterMap fun row => rowKey app row.1.1 row.1.2).Nodup :=
      distinct.sublist ((List.sublist_cons_self _ _).filterMap _)
    have first' : discipline.Holds server (Returns fun _ final => upkeep.holds (queue options ++ flight) final)
        ((deleteRow label pk held seen).bind fun _ => .pure ()) session :=
      (deleteRow_holds opened covered first fresh here).andThen fun _ _ _ here => Holds.pure here
    exact first'.andThen fun _ _ framed here => ih (framed.saved ▸ opened) rest remaining here

theorem deleteGroups_holds (deleting : upkeep.Deleting handlers) (within : env.Within entered held)
    (groups : List (List ((String × Value) × Bool))) (opened : session.saved ≠ [])
    (covered : flying flight ⊆ held) (queued : List.Forall₂ Queued groups.flatten options)
    (distinct : (groups.flatten.filterMap fun row => rowKey app row.1.1 row.1.2).Nodup)
    (here : upkeep.holds (queue options ++ flight) session) :
    discipline.Holds server (Returns fun _ final => upkeep.holds flight final) (deleteGroups env handlers groups) session := by
  induction groups generalizing options session with
  | nil =>
    cases queued
    exact Holds.pure here
  | cons group groups ih =>
    rw [List.flatten_cons] at queued distinct
    refine (deleteGroup_holds group groups.flatten opened (within.held ▸ covered) queued distinct here).andThen
      fun _ second framed ⟨rest, queued, here⟩ => ?_
    have covers := stillFlying_covers queued (within.held ▸ covered)
    have following (rows : List ((String × Value) × Bool)) (session : Session (Val app))
        (here : upkeep.holds (queue rest ++ flight) session) :
        discipline.Holds server (Returns fun _ final => upkeep.holds (queue rest ++ flight) final)
          (rows.forM fun ((label, pk), _) => handlers.postDelete (stillFlying app groups env.held) label pk) session := by
      induction rows generalizing session with
      | nil => exact Holds.pure here
      | cons row rows ih => exact (deleting.postDelete covers here).returned.andThen fun _ _ _ here => ih _ here
    refine (following group second here).andThen fun _ third framed' here => ?_
    refine ih (framed'.saved.trans framed.saved ▸ opened) queued ?_ here
    exact distinct.sublist ((List.sublist_append_right _ _).filterMap _)

theorem deleteCollected_holds {collected : Collected app} (deleting : upkeep.Deleting handlers)
    (within : env.Within entered held) (opened : session.saved ≠ []) (covered : flying flight ⊆ held)
    (here : upkeep.holds flight session) :
    discipline.Holds server (Returns fun _ final => upkeep.holds flight final)
      (deleteCollected env handlers collected) session := by
  refine (sendPreDelete_queued deleting within collected.rows opened (within.held ▸ covered) here).andThen
    fun results second framed ⟨same, options, queued, here⟩ => ?_
  have flat : (byModel results).flatten = results := List.flatten_splitBy _ _
  refine deleteGroups_holds deleting within _ (framed.saved ▸ opened) covered (flat.symm ▸ queued) ?_ here
  rw [flat]
  have once := collected.once
  rw [← same, List.filterMap_map] at once
  exact once

theorem delete_holds {pk : Value} {collect : Db app (Collected app)} (deleting : upkeep.Deleting handlers)
    (within : env.Within entered held) (collects : collect.Only Reads) (covered : flying flight ⊆ held)
    (here : upkeep.holds flight session) :
    discipline.Holds server (Always (upkeep.holds flight)) (PyScoped.delete env handlers pk collect) session := by
  refine upkeep.lifted here fun _ _ => upkeep.block here fun session here opened => ?_
  change discipline.Holds server _ (if _ then _ else _) _
  split
  · exact Holds.raise trivial
  exact upkeep.reading collects here fun collected second saved here =>
    deleteCollected_holds deleting within (saved ▸ opened) covered here

theorem deleteQuery_holds {queryset : Queryset app} {config : Registration (app.model queryset.label)}
    {collect : Db app (Collected app)} (deleting : upkeep.Deleting handlers) (within : env.Within entered held)
    (collects : collect.Only Reads) (covered : flying flight ⊆ held) (here : upkeep.holds flight session) :
    discipline.Holds server (Always (upkeep.holds flight)) (queryset.delete config env handlers collect) session := by
  refine upkeep.lifted here fun _ _ => upkeep.lifted here fun _ _ => upkeep.block here fun session here opened => ?_
  change discipline.Holds server _ (if _ then _ else _) _
  split
  · exact Holds.raise trivial
  exact upkeep.reading collects here fun collected second saved here =>
    deleteCollected_holds deleting within (saved ▸ opened) covered here

end Upkeep

/-- Programs of supported operations keep every assertion that has an upkeep, and
so do the handlers that run inside the operations. -/
theorem Supported.holds {server : Server (Val app) Err} {discipline : Discipline (Val app) Err}
    {entered : Option Active → Prop} (upkeep : Upkeep app server discipline entered) {held : List Key} {α : Type}
    {program : Db app α} (supported : Supported app entered held program) {flight : List (Entry app)}
    {session : Session (Val app)} (covered : flying flight ⊆ held) (here : upkeep.holds flight session) :
    discipline.Holds server (Always (upkeep.holds flight)) program session := by
  induction supported generalizing flight session with
  | pure value => exact Holds.pure here
  | raise error => exact Holds.raise here
  | bind _ _ first second =>
    exact (first covered here).bind (fun _ _ _ kept => kept) fun value _ _ kept => second value covered kept
  | tryCatch _ _ first second =>
    exact (first covered here).tryCatch (fun _ _ _ kept => kept) fun error _ _ kept => second error covered kept
  | atomic _ inner => exact upkeep.block here fun session here _ => (inner covered here).returned
  | reads only => exact upkeep.reads only here
  | save inst options within registered _ _ preSave postSave =>
    exact Upkeep.save_holds ⟨preSave _ _, postSave _ _⟩ within registered covered here
  | delete pk within collects _ _ preDelete postDelete =>
    exact Upkeep.delete_holds ⟨preDelete _ _ _ _, postDelete _ _ _⟩ within collects covered here
  | update assignments within registered => exact Upkeep.update_holds within registered covered here
  | bulkCreate objs conflicts within registered => exact Upkeep.bulkCreate_holds within registered covered here
  | bulkUpdate objs names within registered => exact Upkeep.bulkUpdate_holds within registered covered here
  | deleteQuery within _ collects _ _ preDelete postDelete =>
    exact Upkeep.deleteQuery_holds ⟨preDelete _ _ _ _, postDelete _ _ _⟩ within collects covered here
  | restore pk revision expectedRevision within registered _ _ preSave postSave =>
    exact Upkeep.restore_holds ⟨preSave _ _, postSave _ _⟩ within registered covered here
  | backfill dryRun batchSize within registered => exact Upkeep.backfill_holds within registered covered here

end PyScoped
