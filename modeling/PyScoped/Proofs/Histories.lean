import PyScoped.Proofs.Appends
import PyScoped.Proofs.Deletions

/-! Valid histories. Whatever programs of supported operations interleave,
commit or roll back, the stored events of every resource are its revisions from
one up to its head, chained in its scope. -/

namespace PyScoped
open Foundation Discipline

variable {app : App} {sha256 : String → String} {label objectPk : String}

theorem event_ne_resource {label' objectPk' : String} {revision : Nat} :
    Key.event label objectPk revision ≠ .resource label' objectPk' := nofun

/-- The events stored under a resource are those of the list. -/
def Retains (log : Log (Val app)) (label objectPk : String) (events : List AuditEvent) : Prop :=
  ∀ revision (event : AuditEvent),
    log.lookup (.event label objectPk revision) = some event ↔ event ∈ events ∧ event.revision = revision

structure ValidHistory (sha256 : String → String) (log : Log (Val app)) (label objectPk : String) (resource : Resource)
    (events : List AuditEvent) : Prop where
  named : resource.modelLabel = label ∧ resource.objectPk = objectPk
  retained : Retains log label objectPk events
  numbered : events.map (·.revision) = List.range' 1 events.length
  linked : Chain sha256 resource "" events resource.digest
  located : ∀ event ∈ events, event.scope = resource.scope
  head : resource.revision = events.length

/-- No resource and no events, or a resource with a valid history. -/
def HistoryAt (sha256 : String → String) (log : Log (Val app)) (label objectPk : String) : Prop :=
  match log.lookup (.resource label objectPk) with
  | none => ∀ revision, log.lookup (.event label objectPk revision) = none
  | some resource => ∃ events, ValidHistory sha256 log label objectPk resource events

variable {log : Log (Val app)}

theorem historyAt_none (absent : log.lookup (.resource label objectPk) = none) :
    HistoryAt sha256 log label objectPk ↔ ∀ revision, log.lookup (.event label objectPk revision) = none := by
  unfold HistoryAt
  rw [absent]

variable {resource : Resource}

theorem historyAt_some (present : log.lookup (.resource label objectPk) = some resource) :
    HistoryAt sha256 log label objectPk ↔ ∃ events, ValidHistory sha256 log label objectPk resource events := by
  unfold HistoryAt
  rw [present]

theorem HistoryAt.congr {first second : Log (Val app)} (here : HistoryAt sha256 first label objectPk)
    (head : first.lookup (.resource label objectPk) = second.lookup (.resource label objectPk))
    (events : ∀ revision, first.lookup (.event label objectPk revision) = second.lookup (.event label objectPk revision)) :
    HistoryAt sha256 second label objectPk := by
  cases found : first.lookup (.resource label objectPk) with
  | none =>
    rw [historyAt_none found] at here
    rw [historyAt_none (head ▸ found)]
    exact fun revision => (events revision).symm.trans (here revision)
  | some resource =>
    obtain ⟨list, valid⟩ := (historyAt_some found).mp here
    refine (historyAt_some (head ▸ found)).mpr ⟨list, { valid with retained := fun revision event => ?_ }⟩
    rw [← events revision]
    exact valid.retained revision event

theorem HistoryAt.fresh {scope : String} (here : HistoryAt sha256 log label objectPk)
    (absent : log.lookup (.resource label objectPk) = none) :
    HistoryAt sha256 (⟨.resource label objectPk, some (Resource.fresh label objectPk scope)⟩ :: log) label objectPk := by
  have none := (historyAt_none absent).mp here
  refine (historyAt_some (Log.lookup_cons_self _ _ _)).mpr ⟨[], ⟨rfl, rfl⟩, fun revision event => ?_, rfl, rfl, by simp, rfl⟩
  rw [Log.lookup_cons_ne _ _ event_ne_resource, none revision]
  simp

/-- An event that follows the head extends the history. -/
theorem HistoryAt.append {event : AuditEvent} {action : String}
    {before after : Json} (here : HistoryAt sha256 log label objectPk)
    (head : log.lookup (.resource label objectPk) = some resource) (follows : Follows sha256 resource event action before after) :
    HistoryAt sha256 (⟨.resource label objectPk, some (resource.advanced event)⟩ ::
      ⟨.event label objectPk event.revision, some event⟩ :: log) label objectPk := by
  obtain ⟨events, valid⟩ := (historyAt_some head).mp here
  have next : event.revision = events.length + 1 := follows.revision.trans (congrArg (· + 1) valid.head)
  have numbered : (events ++ [event]).map (·.revision) = List.range' 1 (events ++ [event]).length := by
    rw [List.map_append, valid.numbered, List.length_append, List.length_singleton, List.range'_concat]
    simp [next, Nat.add_comm]
  refine (historyAt_some (Log.lookup_cons_self _ _ _)).mpr ⟨events ++ [event], valid.named, ?_, numbered,
    (HashChain.linked_concat events event).mpr ⟨follows.previousDigest ▸ valid.linked, follows.sealed, rfl⟩, ?_, ?_⟩
  · intro revision other
    rw [Log.lookup_cons_ne _ _ event_ne_resource]
    have older : ∀ event ∈ events, event.revision ≤ events.length := by
      intro event member
      have listed := List.mem_map_of_mem (f := (·.revision)) member
      rw [valid.numbered, List.mem_range'_1] at listed
      omega
    by_cases same : revision = event.revision
    · subst same
      rw [Log.lookup_cons_self, List.mem_append, List.mem_singleton]
      constructor
      · intro found
        cases found
        exact ⟨.inr rfl, rfl⟩
      · rintro ⟨inside | rfl, number⟩
        · have bound := older other inside
          omega
        · rfl
    · have ne : Key.event label objectPk revision ≠ .event label objectPk event.revision :=
        fun equal => same (Key.event.inj equal).2.2
      rw [Log.lookup_cons_ne _ _ ne, valid.retained revision other, List.mem_append, List.mem_singleton]
      exact ⟨fun ⟨member, number⟩ => ⟨.inl member, number⟩, fun ⟨member, number⟩ =>
        ⟨member.resolve_right fun equal => same (equal ▸ number.symm), number⟩⟩
  · intro other member
    rcases List.mem_append.mp member with inside | last
    · exact valid.located other inside
    · obtain rfl := List.mem_singleton.mp last
      exact follows.scope
  · exact next.trans (by simp)

variable {events : List AuditEvent}

/-- What the scan of a store finds, in revision order, is the retained list. -/
theorem retained_eq (retains : Retains log label objectPk events)
    (numbered : events.map (·.revision) = List.range' 1 events.length) : retained label objectPk log.entries = events := by
  have increasing : events.Pairwise fun first second => first.revision < second.revision := by
    rw [← List.pairwise_map, numbered]
    exact List.pairwise_lt_range'
  have stored {event : AuditEvent} {revision : Nat} :
      (⟨.event label objectPk revision, event⟩ : Sigma (Val app)) ∈ log.entries ↔ event ∈ events ∧ event.revision = revision :=
    Log.mem_entries.trans (retains revision event)
  have named : (events.map (·.revision)).Nodup := by
    rw [numbered]
    exact List.nodup_range'
  have members (event : AuditEvent) : event ∈ retained label objectPk log.entries ↔ event ∈ events := by
    rw [mem_retained]
    constructor
    · intro written
      obtain ⟨revision, member⟩ := written
      exact (stored.mp member).1
    · exact fun member => ⟨event.revision, stored.mpr ⟨member, rfl⟩⟩
  refine List.Perm.eq_of_pairwise ?_ (List.pairwise_mergeSort ?_ ?_ _) (increasing.imp fun less => by simpa using less.le)
    ((List.perm_ext_iff_of_nodup ?_ (List.Nodup.of_map _ named)).mpr members)
  · intro first second member member' below above
    simp only [decide_eq_true_eq] at below above
    exact List.inj_on_of_nodup_map named ((members first).mp member) member' (Nat.le_antisymm below above)
  · intro first second third
    simp only [decide_eq_true_eq]
    exact Nat.le_trans
  · intro first second
    simpa using Nat.le_total first.revision second.revision
  · refine (List.mergeSort_perm _ _).nodup_iff.mpr ?_
    rw [List.Nodup, List.pairwise_filterMap]
    refine (List.pairwise_map.mp log.entries_nodup).imp_of_mem fun {first second} member member' ne event found event' found' same => ?_
    obtain ⟨revision, rfl⟩ := picked_iff.mp found
    obtain ⟨revision', rfl⟩ := picked_iff.mp found'
    have number := (stored.mp member).2
    have number' := (stored.mp member').2
    subst same
    exact ne (by rw [← number, ← number'])

theorem retained_filter (entries : List (Sigma (Val app))) :
    retained label objectPk (entries.filter (isEvent label objectPk)) = retained label objectPk entries := by
  unfold retained
  rw [List.filterMap_filter]
  congr 2
  funext ⟨key, value⟩
  cases key with
  | row => rfl
  | resource => rfl
  | event other pk revision => by_cases same : other = label ∧ pk = objectPk <;> simp [isEvent, same]

theorem ValidHistory.verifies (valid : ValidHistory sha256 log label objectPk resource events) :
    verifyRetained sha256 resource events = .ok ⟨true, resource.revision, ""⟩ := by
  have checked := verifyEvents_iff.mpr ⟨valid.linked, valid.numbered, valid.located⟩
  unfold verifyRetained
  rw [checked]
  simp [bind, Except.bind, valid.head]

/-- The guard of every event is the head of its history. -/
def historyGuard : Key → Key
  | .event label objectPk _ => .resource label objectPk
  | key => key

/-- Clients that keep all histories valid, and rely on the heads they have locked. -/
def histories (app : App) : Discipline (Val app) Err :=
  ⟨true, historyGuard, fun log => ∀ label objectPk, HistoryAt app.sha256 log label objectPk, fun _ _ => True⟩

theorem historyAt_local : Local historyGuard fun anchor (log : Log (Val app)) =>
    ∀ label objectPk, anchor = .resource label objectPk → HistoryAt sha256 log label objectPk := by
  rintro anchor first second same here label objectPk rfl
  exact (here label objectPk rfl).congr (same _ rfl) fun revision => same _ rfl

/-- All histories in the view of a session are valid. -/
def HistoriesValid (session : Session (Val app)) : Prop :=
  ∀ label objectPk, HistoryAt app.sha256 session.view label objectPk

variable {session : Session (Val app)}

theorem HistoriesValid.moved {committed : Log (Val app)}
    (whole : session.Whole historyGuard) (moves : (histories app).Moves session committed) (here : HistoriesValid session) :
    HistoriesValid (session.seeing committed) := by
  intro label objectPk
  have localized : Local (histories app).guard fun anchor (log : Log (Val app)) =>
      ∀ label objectPk, anchor = .resource label objectPk → HistoryAt app.sha256 log label objectPk := historyAt_local
  have moved : ∀ label' objectPk', Key.resource label objectPk = .resource label' objectPk' →
      HistoryAt app.sha256 (session.seeing committed).view label' objectPk' :=
    localized.moved (fun log kept label objectPk _ => kept label objectPk) whole moves (fun label objectPk _ => here label objectPk)
  exact moved label objectPk rfl

theorem HistoriesValid.writeRow {pk : String} {row : Option (Row (app.model label) pk)}
    (here : HistoriesValid session) : HistoriesValid (session.write (.row label pk) row) := by
  intro other objectPk
  refine (here other objectPk).congr ?_ fun revision => ?_
  · exact (Log.lookup_cons_ne _ _ (by simp)).symm
  · exact (Log.lookup_cons_ne _ _ (by simp)).symm

theorem HistoriesValid.fresh {scope : String} (here : HistoriesValid session)
    (absent : session.view.lookup (.resource label objectPk) = none) :
    HistoriesValid (session.write (.resource label objectPk) (some (Resource.fresh label objectPk scope))) := by
  intro other objectPk'
  by_cases same : other = label ∧ objectPk' = objectPk
  · obtain ⟨rfl, rfl⟩ := same
    exact (here _ _).fresh absent
  · refine (here other objectPk').congr ?_ fun revision => ?_
    · exact (Log.lookup_cons_ne _ _ (by simpa using same)).symm
    · exact (Log.lookup_cons_ne _ _ (by simp)).symm

theorem HistoriesValid.append {event : AuditEvent} {action : String}
    {before after : Json} (here : HistoriesValid session)
    (head : session.view.lookup (.resource label objectPk) = some resource)
    (follows : Follows app.sha256 resource event action before after) :
    HistoriesValid ((session.write (.event label objectPk event.revision) (some event)).write (.resource label objectPk)
      (some (resource.advanced event))) := by
  intro other objectPk'
  by_cases same : other = label ∧ objectPk' = objectPk
  · obtain ⟨rfl, rfl⟩ := same
    exact (here _ _).append head follows
  · refine (here other objectPk').congr ?_ fun revision => ?_
    · refine ((Log.lookup_cons_ne _ _ ?_).trans (Log.lookup_cons_ne _ _ ?_)).symm
      · simpa using same
      · simp
    · refine ((Log.lookup_cons_ne _ _ ?_).trans (Log.lookup_cons_ne _ _ ?_)).symm
      · simp
      · simp only [ne_eq, Key.event.injEq, not_and]
        exact fun label' objectPk'' => absurd ⟨label', objectPk''⟩ same

theorem historiesValid_inner : (histories app).Inner HistoriesValid where
  moved _ _ whole moves here := here.moved whole moves
  resaved _ _ _ _ here := here
  locked _ _ here := here

theorem historiesValid_append {server : Server (Val app) Err}
    {config : Registration (app.model label)} {row : Loaded app label} {action : String} {old new : Json} {ctx : ScopeContext}
    {held : List Key} (opened : session.saved ≠ []) (here : HistoriesValid session) :
    (histories app).Holds server (Returns fun _ => HistoriesValid) (appendEvent config row action old new ctx held) session :=
  appendEvent_holds historiesValid_inner historiesValid_inner (fun _ => rfl) opened (.inl rfl) here
    (fun _ _ _ here absent _ => here.fresh absent) (fun _ _ _ _ here head _ _ follows _ => here.append head follows)

/-- Rows do not matter to the histories, so only the appends have to be followed. -/
def historiesUpkeep (app : App) (server : Server (Val app) Err) (entered : Option Active → Prop) :
    Upkeep app server (histories app) entered where
  own _ _ := rfl
  holds _ := HistoriesValid
  related _ _ _ := True
  invariant _ :=
    { moved := fun _ _ whole moves here => here.moved whole moves
      enter := fun _ here => here
      leave := fun _ session _ _ here => by
        intro label objectPk
        rw [Session.view_leave]
        exact here label objectPk
      kept := fun _ _ _ _ _ here => here }
  locked _ _ _ here := here
  readPresent _ here _ _ := here
  readRelied _ here _ _ := here
  readAbsent _ here _ := here
  update _ _ _ _ here _ _ _ _ _ := here.writeRow
  unmatched _ _ here _ := here
  insert _ _ _ here _ _ := here.writeRow
  drop _ _ _ here _ := here
  erase _ _ _ _ _ here _ _ _ := here.writeRow
  eraseForeign _ here := here.writeRow
  relations := by
    intro flight session label config row before phase ctx _ _ _ _ here _
    have reads : (histories app).Holds server (Always HistoriesValid)
        (checkRelations config row.get ctx.toScopeContext : Db app Unit) session :=
      Holds.reads (checkRelations_reads _ _ _) (fun _ _ whole moves here => here.moved whole moves) (fun _ _ here => here) here
    exact reads.returned.weaken fun result _ _ kept => by
      cases result with
      | ok => exact ⟨kept, trivial⟩
      | error => trivial
  record opened _ _ _ _ here _ _ _ _ _ := historiesValid_append opened here
  condemn opened _ _ _ here _ _ := historiesValid_append opened here
  baseline opened _ _ _ here _ _ _ _ := historiesValid_append opened here

/-- A client that nobody interferes with. -/
def alone (app : App) : Discipline (Val app) Err := ⟨false, historyGuard, fun _ => True, fun _ _ => True⟩

theorem alone_seeing {committed : Log (Val app)}
    (moves : (alone app).Moves session committed) : session.seeing committed = session := by
  rw [moves.alone rfl]
  rfl

/-- `verify_history` on a store in which the resource has a valid history. -/
theorem verifyHistory_returns {server : Server (Val app) Err} {env : Env} {config : Registration (app.model label)}
    {pk : Value}
    (identified : identity pk = .ok objectPk) (present : session.view.lookup (.resource label objectPk) = some resource)
    (valid : ValidHistory app.sha256 session.view label objectPk resource events) :
    (alone app).Holds server (Returns fun report _ => report = ⟨true, resource.revision, ""⟩)
      (verifyHistory env config pk) session := by
  have steady : (alone app).Invariant fun other => other.view = session.view :=
    { moved := fun other committed _ moves here => by rw [alone_seeing moves]; exact here
      enter := fun _ here => here
      leave := fun _ other _ _ here => (Session.view_leave other).trans here
      kept := fun _ _ _ _ _ _ => trivial }
  have finding {other : Session (Val app)} (here : other.view = session.view) :
      (alone app).Holds server (Returns fun found final => found = some resource ∧ final.view = session.view)
        (findResource env config pk) other := by
    refine Holds.lift fun ctx _ => Holds.lift fun text identified' => ?_
    obtain rfl := Except.ok.inj (identified.symm.trans identified')
    have getting : (alone app).Holds server (Returns fun (found : Option Resource) final =>
        found = some resource ∧ final.view = session.view) (Tx.get (V := Val app) (.resource label objectPk) : Db app _) other := by
      refine Holds.get fun committed moves _ => ⟨fun _ => trivial, ?_⟩
      rw [alone_seeing moves]
      exact ⟨here ▸ present, here⟩
    refine getting.andThen fun found final _ got => ?_
    obtain ⟨same, here⟩ := got
    subst same
    refine Holds.lift fun own _ => Holds.lift fun wanted _ => ?_
    change (alone app).Holds server _ (if _ then _ else _) _
    split
    · exact Holds.pure ⟨rfl, here⟩
    · exact Holds.raise trivial
  have locking {other : Session (Val app)} (here : other.view = session.view) :
      (alone app).Holds server (Returns fun (found : Option Resource) final =>
        found = some resource ∧ final.view = session.view) (Tx.lock (V := Val app) (.resource label objectPk) : Db app _) other := by
    refine Holds.lock fun committed moves _ => ⟨fun _ => trivial, fun absent => ?_, fun head found => ?_⟩
    · have missing := absent (.inl rfl)
      rw [alone_seeing moves, here, present] at missing
      cases missing
    · rw [alone_seeing moves, here, present] at found
      obtain rfl := Option.some.inj found
      exact ⟨rfl, by rw [alone_seeing moves]; exact here⟩
  have reading {other : Session (Val app)} (here : other.view = session.view) :
      (alone app).Holds server (Returns fun found final => found = events ∧ final.view = session.view)
        (readEvents label objectPk) other := by
    have scanning : (alone app).Holds server (Returns fun found final =>
        found = session.view.entries.filter (isEvent label objectPk) ∧ final.view = session.view)
        (Tx.scan (fun _ => isEvent label objectPk) false : Db app (List (Sigma (Val app)))) other := by
      refine Holds.scan fun committed moves _ _ => ⟨fun _ => trivial, ?_⟩
      rw [alone_seeing moves, here]
      exact ⟨rfl, here⟩
    refine scanning.andThen fun entries final _ scanned => ?_
    obtain ⟨same, here⟩ := scanned
    subst same
    exact Holds.pure ⟨(retained_filter _).trans (retained_eq valid.retained valid.numbered), here⟩
  have closing {body : Db app Verification} (run : ∀ other : Session (Val app), other.view = session.view →
      (alone app).Holds server (Returns fun report final =>
        report = ⟨true, resource.revision, ""⟩ ∧ final.view = session.view) body other) :
      (alone app).Holds server (Returns fun report _ => report = ⟨true, resource.revision, ""⟩) (Tx.atomic body) session :=
    steady.atomic rfl (fun other here _ => run other here) (fun _ _ reached => reached.2)
      (fun _ _ reached _ => by obtain ⟨_, _, reached, -⟩ := reached; exact reached.1) (fun _ _ _ => trivial)
  refine closing fun other here => ?_
  refine (finding here).andThen fun found second _ seen => ?_
  obtain ⟨same, here⟩ := seen
  subst same
  change (alone app).Holds server _ (Prog.bind (Tx.lock (V := Val app) (.resource label resource.objectPk)) _) _
  rw [valid.named.2]
  refine (locking here).andThen fun found third _ locked => ?_
  obtain ⟨same, here⟩ := locked
  subst same
  change (alone app).Holds server _ (Prog.bind (readEvents label resource.objectPk) _) _
  rw [valid.named.2]
  refine (reading here).andThen fun found last _ read => ?_
  obtain ⟨same, here⟩ := read
  subst same
  exact Holds.ofExcept (by rw [valid.verifies]; exact ⟨rfl, here⟩)

/-- In every committed state of every interleaving each history is valid, its
check accepts it, and every call of `verify_history` that returns says so. -/
theorem histories_stay_valid {count : Nat} {server : Server (Val app) Err} {committed : Log (Val app)}
    {programs : Fin count → Db app Unit} {world : World (Val app) Oracle Err count}
    (reached : World.Reaches server (fun _ _ => True) (World.initial committed programs) world)
    (start : ∀ label objectPk, HistoryAt app.sha256 committed label objectPk)
    (supported : ∀ client, Supported app (fun _ => True) [] (programs client)) (label objectPk : String) :
    HistoryAt app.sha256 world.committed label objectPk ∧
      ∀ resource : Resource, world.committed.lookup (.resource label objectPk) = some resource →
        verifyRetained app.sha256 resource (retained label objectPk world.committed.entries) =
            .ok ⟨true, resource.revision, ""⟩ ∧
          ∀ (env : Env) (config : Registration (app.model label)) pk report final, identity pk = .ok objectPk →
            server.Runs (fun _ _ => True) (verifyHistory env config pk) (Session.idle world.committed) (.ok report) final →
            report = ⟨true, resource.revision, ""⟩ := by
  have safe (client : Fin count) :
      (histories app).Safe server (fun _ _ => True) (programs client) (Session.idle committed) := by
    have grounded : flying ([] : List (Entry app)) ⊆ [] := List.nil_subset _
    have holds : (histories app).Holds server (Always HistoriesValid) (programs client) (Session.idle committed) :=
      (supported client).holds (historiesUpkeep app server fun _ => True) grounded start
    exact Safe.weaken holds fun _ _ _ => trivial
  have reached' : World.Reaches server (histories app).allowed (World.initial committed programs) world := reached
  have kept : ∀ label objectPk, HistoryAt app.sha256 world.committed label objectPk := reached'.kept rfl start safe
  refine ⟨kept label objectPk, fun resource present => ?_⟩
  obtain ⟨events, valid⟩ := (historyAt_some present).mp (kept label objectPk)
  refine ⟨by rw [retained_eq valid.retained valid.numbered, valid.verifies], fun env config pk report final identified runs => ?_⟩
  have returns : (alone app).Holds server (Returns fun report _ => report = ⟨true, resource.revision, ""⟩)
      (verifyHistory env config pk) (Session.idle world.committed) := verifyHistory_returns identified present valid
  have runs' : server.Runs (alone app).allowed (verifyHistory env config pk) (Session.idle world.committed) (.ok report) final :=
    runs
  exact (runs'.post (Session.Whole.idle _) trivial returns).1.2

/-- Two clients save a folder each, in turns. -/
private def savings (client : Fin 2) : Db Sample.filing Unit :=
  Sample.saving (Sample.scope "s" Sample.s_valid) Handlers.none "app.folder"
    (Sample.object (if client = 0 then "7" else "8") [("scope", "s")])

theorem histories_stay_valid_savings : ∃ world : World (Val Sample.filing) Oracle Err 2,
    (world.committed.lookup (.event "app.folder" "7" 1)).isSome ∧ (world.committed.lookup (.event "app.folder" "8" 1)).isSome ∧
      HistoryAt id world.committed "app.folder" "7" ∧ HistoryAt id world.committed "app.folder" "8" := by
  let turns := (List.replicate 18 [((0 : Fin 2), Sample.through), (1, Sample.through)]).flatten
  have ran : ((World.initial [] savings).run Sample.server turns).any (fun world =>
      (world.committed.lookup (.event "app.folder" "7" 1)).isSome &&
        (world.committed.lookup (.event "app.folder" "8" 1)).isSome) = true := by decide +kernel
  obtain ⟨world, found, stored⟩ := (Option.any_eq_true _ _).mp ran
  have within : (Sample.scope "s" (by decide)).Within (fun _ => True) [] := ⟨trivial, rfl, by simp [Sample.scope]⟩
  have reached := World.run_reaches Sample.server (World.Reaches.start) found
  have empty (label objectPk : String) : HistoryAt id ([] : Log (Val Sample.filing)) label objectPk :=
    (historyAt_none rfl).mpr fun _ => rfl
  have valid := histories_stay_valid reached empty (fun client => Sample.saving_supported within "app.folder" _) "app.folder"
  simp only [Bool.and_eq_true] at stored
  exact ⟨world, stored.1, stored.2, (valid "7").1, (valid "8").1⟩

end PyScoped
