import PyScoped.Foundation.HashChain
import PyScoped.Core.Models

/-! What the check of a history accepts, and what an accepted history commits
to. The head alone fixes the number of events and every digested column. -/

namespace PyScoped
open Foundation

variable {sha256 : String → String} {resource : Resource}

/-- The event can be encoded and its digest is the hash of that text. -/
def Sealed (sha256 : String → String) (resource : Resource) (event : AuditEvent) : Prop :=
  eventDigest sha256 resource event = .ok event.digest

abbrev Chain (sha256 : String → String) (resource : Resource) (start : String) (events : List AuditEvent)
    (head : String) : Prop :=
  HashChain.Linked AuditEvent.digest AuditEvent.previousDigest (Sealed sha256 resource) start events head

theorem verifyEvents_iff {revision : Nat} {start head : String} {events : List AuditEvent} :
    verifyEvents sha256 resource revision start events = .ok (.ok head) ↔
      Chain sha256 resource start events head ∧ events.map (·.revision) = List.range' revision events.length ∧
        ∀ event ∈ events, event.scope = resource.scope := by
  induction events generalizing revision start with
  | nil =>
    simp only [verifyEvents, Except.ok.injEq, HashChain.Linked, List.map_nil, List.length_nil, List.range'_zero,
      List.not_mem_nil, false_implies, implies_true, and_true]
    exact eq_comm
  | cons event events ih =>
    simp only [verifyEvents, HashChain.Linked, List.map_cons, List.length_cons, List.range'_succ, List.cons.injEq,
      List.forall_mem_cons]
    split
    next unfit =>
      constructor
      · intro impossible; cases impossible
      · rintro ⟨⟨linked, _⟩, ⟨number, _⟩, scope, _⟩
        rcases unfit with wrong | wrong | wrong
        · exact absurd number wrong
        · exact absurd linked wrong
        · exact absurd scope wrong
    next fit =>
      simp only [not_or, not_not] at fit
      obtain ⟨number, linked, scope⟩ := fit
      cases digested : eventDigest sha256 resource event with
      | error error =>
        simp only [bind, Except.bind, reduceCtorEq, false_iff]
        rintro ⟨⟨_, sealed, _⟩, _⟩
        rw [Sealed, digested] at sealed
        cases sealed
      | ok digest =>
        simp only [bind, Except.bind]
        split
        next wrong =>
          constructor
          · intro impossible; cases impossible
          · rintro ⟨⟨_, sealed, _⟩, _⟩
            rw [Sealed, digested, Except.ok.injEq] at sealed
            exact absurd sealed.symm wrong
        next right =>
          have sealed : Sealed sha256 resource event := by
            rw [Sealed, digested, not_not.mp right]
          rw [ih]
          constructor
          · intro later
            obtain ⟨chain, numbers, scopes⟩ := later
            exact ⟨⟨linked, sealed, chain⟩, ⟨number, numbers⟩, scope, scopes⟩
          · intro whole
            obtain ⟨⟨-, -, chain⟩, ⟨-, numbers⟩, -, scopes⟩ := whole
            exact ⟨chain, numbers, scopes⟩

/-- Loop and head check both report valid. -/
def Accepted (sha256 : String → String) (resource : Resource) (events : List AuditEvent) : Prop :=
  ∃ report, verifyRetained sha256 resource events = .ok report ∧ report.valid = true

theorem accepted_iff {events : List AuditEvent} : Accepted sha256 resource events ↔
    Chain sha256 resource "" events resource.digest ∧ events.map (·.revision) = List.range' 1 events.length ∧
      (∀ event ∈ events, event.scope = resource.scope) ∧ resource.revision = events.length := by
  unfold Accepted verifyRetained
  cases checked : verifyEvents sha256 resource 1 "" events with
  | error error =>
    simp only [bind, Except.bind, reduceCtorEq, false_and, exists_false, false_iff]
    rintro ⟨chain, numbers, scopes, _⟩
    rw [verifyEvents_iff.mpr ⟨chain, numbers, scopes⟩] at checked
    cases checked
  | ok outcome =>
    simp only [bind, Except.bind]
    cases outcome with
    | error revision =>
      simp only [Except.ok.injEq, exists_eq_left', Bool.false_eq_true, false_iff]
      rintro ⟨chain, numbers, scopes, _⟩
      rw [verifyEvents_iff.mpr ⟨chain, numbers, scopes⟩] at checked
      cases checked
    | ok previous =>
      obtain ⟨chain, numbers, scopes⟩ := verifyEvents_iff.mp checked
      simp only
      split
      next unfit =>
        simp only [Except.ok.injEq, exists_eq_left', Bool.false_eq_true, false_iff]
        rintro ⟨chain', _, _, count⟩
        rw [verifyEvents_iff.mpr ⟨chain', numbers, scopes⟩, Except.ok.injEq, Except.ok.injEq] at checked
        rcases unfit with wrong | wrong
        · exact wrong count
        · exact wrong checked
      next fit =>
        simp only [not_or, not_not] at fit
        simp only [Except.ok.injEq, exists_eq_left', true_iff]
        exact ⟨fit.2 ▸ chain, numbers, scopes, fit.1⟩

/-- What two accepted histories of one resource are compared on. Times are
compared as the encoder renders them. -/
structure SameEvent (first second : AuditEvent) : Prop where
  revision : first.revision = second.revision
  scope : first.scope = second.scope
  actor : first.actor = second.actor
  action : first.action = second.action
  before : Json.Same first.before second.before
  after : Json.Same first.after second.after
  occurredAt : renderTime first.occurredAt = renderTime second.occurredAt
  reason : first.reason = second.reason
  requestId : first.requestId = second.requestId
  previousDigest : first.previousDigest = second.previousDigest
  digest : first.digest = second.digest

private theorem eventPayload_sorted (resource : Resource) (event : AuditEvent) :
    (eventPayload resource event).sortKeys = .obj
      [("action", .str event.action), ("actor", .str event.actor), ("after", event.after.sortKeys),
        ("before", event.before.sortKeys), ("model_label", .str resource.modelLabel),
        ("object_pk", .str resource.objectPk), ("occurred_at", .str (String.ofList (renderTime event.occurredAt))),
        ("previous_digest", .str event.previousDigest), ("reason", .str event.reason),
        ("request_id", .str event.requestId), ("revision", .int event.revision), ("scope", .str event.scope)] := by
  simp [eventPayload, Json.sortKeys, Json.sortMembers, List.insertionSort, List.orderedInsert]

theorem encodeEvent_inj {first second : AuditEvent} {text : String}
    (encoded : encodeEvent resource first = .ok text) (encoded' : encodeEvent resource second = .ok text)
    (digests : first.digest = second.digest) : SameEvent first second := by
  unfold encodeEvent at encoded encoded'
  cases dumped : (eventPayload resource first).dumps with
  | none => simp only [dumped, reduceCtorEq] at encoded
  | some chars =>
    cases dumped' : (eventPayload resource second).dumps with
    | none => simp only [dumped', reduceCtorEq] at encoded'
    | some chars' =>
      simp only [dumped, dumped', Except.ok.injEq] at encoded encoded'
      have equal : chars = chars' := String.ofList_inj.mp (encoded.trans encoded'.symm)
      subst equal
      have same := Json.dumps_inj dumped dumped'
      rw [Json.Same, eventPayload_sorted, eventPayload_sorted] at same
      simp only [Json.obj.injEq, List.cons.injEq, Prod.mk.injEq, true_and, Json.str.injEq, Json.int.injEq, and_true,
        String.ofList_inj, Nat.cast_inj] at same
      obtain ⟨action, actor, after, before, time, previous, reason, request, revision, scope⟩ := same
      exact ⟨revision, scope, actor, action, before, after, time, reason, request, previous, digests⟩

/-- Equal digests of encodable events come from equal texts. -/
def InjectiveOnEvents (sha256 : String → String) (resource : Resource) : Prop :=
  Set.InjOn sha256 {text | ∃ event, encodeEvent resource event = .ok text}

theorem sealed_sameEvent {first second : AuditEvent} (injective : InjectiveOnEvents sha256 resource)
    (sealed : Sealed sha256 resource first) (sealed' : Sealed sha256 resource second)
    (digests : first.digest = second.digest) : SameEvent first second := by
  unfold Sealed eventDigest at sealed sealed'
  cases encoded : encodeEvent resource first with
  | error error => simp [encoded, Except.map] at sealed
  | ok text =>
    cases encoded' : encodeEvent resource second with
    | error error => simp [encoded', Except.map] at sealed'
    | ok text' =>
      simp only [encoded, encoded', Except.map, Except.ok.injEq] at sealed sealed'
      have texts := injective ⟨first, encoded⟩ ⟨second, encoded'⟩ (sealed.trans (digests.trans sealed'.symm))
      exact encodeEvent_inj encoded (texts ▸ encoded') digests

/-- A retained head accepts one history only. Hence any list that is not the
accepted one position by position, shorter, longer or reordered, is refused. -/
theorem retained_head_commits (injective : InjectiveOnEvents sha256 resource) {events : List AuditEvent}
    (accepted : Accepted sha256 resource events) (others : List AuditEvent) :
    (Accepted sha256 resource others → List.Forall₂ SameEvent events others) ∧
      (¬ List.Forall₂ SameEvent events others → ¬ Accepted sha256 resource others) := by
  have commits : Accepted sha256 resource others → List.Forall₂ SameEvent events others := by
    intro accepted'
    obtain ⟨chain, _, _, count⟩ := accepted_iff.mp accepted
    obtain ⟨chain', _, _, count'⟩ := accepted_iff.mp accepted'
    apply HashChain.Linked.agree chain chain' (count.symm.trans count')
    intro pair _ sealed sealed' digests
    have same := sealed_sameEvent injective sealed sealed' digests
    exact ⟨same.previousDigest, same⟩
  exact ⟨commits, fun differ accepted' => differ (commits accepted')⟩

/-- A created row, with the text itself for its digest. -/
private def created : Resource × AuditEvent :=
  let event : AuditEvent :=
    { revision := 1, scope := "1", actor := "alice", action := "create", before := .null
      after := .obj [("id", .int 7), ("title", .str "one")], occurredAt := ⟨2026, 1, 2, 3, 4, 5, 6789, by decide⟩
      reason := "first", requestId := "", previousDigest := "", digest := "" }
  let resource : Resource := ⟨"app.document", "7", "1", 1, ""⟩
  let text := String.ofList (eventPayload resource event).sortKeys.render
  ({ resource with digest := text }, { event with digest := text })

private theorem created_sealed : Sealed id created.1 created.2 := by
  have finite : (eventPayload created.1 created.2).finite = true := rfl
  simp only [Sealed, eventDigest, encodeEvent, Json.dumps, finite, if_true, Except.map, id_eq]
  simp only [created, eventPayload]

private theorem created_accepted : Accepted id created.1 [created.2] :=
  accepted_iff.mpr ⟨⟨rfl, created_sealed, rfl⟩, rfl, by simp [created], rfl⟩

theorem retained_head_commits_created :
    (Accepted id created.1 [created.2, created.2] → List.Forall₂ SameEvent [created.2] [created.2, created.2]) ∧
      (¬ List.Forall₂ SameEvent [created.2] [created.2, created.2] → ¬ Accepted id created.1 [created.2, created.2]) :=
  retained_head_commits (Set.injOn_id _) created_accepted [created.2, created.2]

end PyScoped
