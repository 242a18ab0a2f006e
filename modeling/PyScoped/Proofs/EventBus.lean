import PyScoped.Legacy.EventBus

/-! What a dispatch calls, whatever its listeners do to the bus meanwhile: everything
that was registered when it began and not removed, once and in order, as long as nothing
is removed that one of its loops has passed; and it returns if its lists stop growing. -/

namespace PyScoped.Legacy.EventBus
open Foundation

variable {ℓ : Type} [DecidableEq ℓ] {subscriptions : List EventSubscription} {bus : Bus ℓ}

namespace Bus

/-- What was removed. -/
def gone (bus : Bus ℓ) : List (Registration ℓ) :=
  bus.history.filterMap fun
    | .removed registration => some registration
    | .called _ _ => none

omit [DecidableEq ℓ] in
theorem mem_gone {registration : Registration ℓ} : registration ∈ bus.gone ↔ .removed registration ∈ bus.history := by
  simp only [gone, List.mem_filterMap]
  constructor
  · rintro ⟨happening, member, same⟩
    cases happening with
    | called eventId other => cases same
    | removed other =>
      cases same
      exact member
  · intro member
    exact ⟨_, member, rfl⟩

def specificOf (bus : Bus ℓ) (frame : Frame ℓ) : List (Registration ℓ) := bus.listeners frame.event.eventType.value

def generalOf (bus : Bus ℓ) : List (Registration ℓ) := bus.listeners wildcard

/-- The loops of a call of `emit` and the lists that they go over. -/
def loopsOf (bus : Bus ℓ) (frame : Frame ℓ) : List (Loop (Registration ℓ) × List (Registration ℓ)) :=
  [(frame.specific, bus.specificOf frame), (frame.general, bus.generalOf)]

end Bus

/-- The deliveries that an event is to have. -/
def owed (subscriptions : List EventSubscription) (event : Event) : List (String × String × Webhooks.DeliveryStatus) :=
  (matchSubscriptions subscriptions event).filterMap fun subscription =>
    match subscription.webhookEndpointId with
    | some endpoint => if endpoint ≠ "" then some (subscription.id, endpoint, .pending) else none
    | none => none

/-- The event is stored once, with the deliveries that it is to have. -/
structure Stored (subscriptions : List EventSubscription) (bus : Bus ℓ) (event : Event) : Prop where
  once : bus.events.filter (fun other => other.id = event.id) = [event]
  deliveries : (bus.deliveries.filter fun delivery => delivery.eventId = event.id).map
    (fun delivery => (delivery.subscriptionId, delivery.webhookEndpointId, delivery.status)) = owed subscriptions event

/-- What was registered when a loop began is met once, or was removed before its turn,
or is still to come; it is met in order. -/
structure Fair (bus : Bus ℓ) (loop : Loop (Registration ℓ)) (items : List (Registration ℓ)) : Prop where
  once : ∀ registration ∈ loop.start, loop.met.count registration = 1 ∨
    loop.met.count registration = 0 ∧ (.removed registration ∈ bus.history ∨ registration ∈ loop.ahead items)
  order : (loop.met.filter (· ∈ loop.start)).Sublist loop.start

/-- What the listeners and the tables have seen so far is right. -/
structure Right (subscriptions : List EventSubscription) (bus : Bus ℓ) : Prop where
  fair : ∀ frame ∈ bus.stack ++ bus.finished, ∀ loop ∈ bus.loopsOf frame, Fair bus loop.1 loop.2
  /-- A call that has returned has met all. -/
  whole : ∀ frame ∈ bus.finished, ∀ loop ∈ bus.loopsOf frame, loop.1.ahead loop.2 = []
  /-- No call after a removal. -/
  silent : ∀ later registration earlier, bus.history = later ++ .removed registration :: earlier →
    ∀ eventId, .called eventId registration ∉ later
  stored : ∀ frame ∈ bus.stack ++ bus.finished, Stored subscriptions bus frame.event

/-- A registration is removed from a list only if no loop over it has passed the
registration and has others ahead. -/
def Meets (bus : Bus ℓ) : Move ℓ → Prop
  | .off key listener => ∀ registration, bus.firstOf key listener = some registration →
      ∀ frame ∈ bus.stack, ∀ loop ∈ bus.loopsOf frame, registration ∈ loop.2.take loop.1.position → loop.1.ahead loop.2 = []
  | _ => True

/-- The bus before any of the calls: registrations are told apart, and deliveries are of
stored events. -/
structure Settled (bus : Bus ℓ) : Prop where
  nodup : ∀ key, (bus.listeners key).Nodup
  keyed : ∀ key, ∀ registration ∈ bus.listeners key, registration.key = key ∧ registration.ticket < bus.tickets
  deliveries : ∀ delivery ∈ bus.deliveries, delivery.eventId ∈ bus.events.map Event.id
  stack : bus.stack = []
  finished : bus.finished = []
  history : bus.history = []

/-- The states that steps reach which meet the condition. -/
inductive Orderly (subscriptions : List EventSubscription) (start : Bus ℓ) : Bus ℓ → Prop where
  | start : Orderly subscriptions start start
  | step {bus after : Bus ℓ} (move : Move ℓ) (before : Orderly subscriptions start bus) (meets : Meets bus move)
      (taken : bus.step subscriptions move = some after) : Orderly subscriptions start after

/-- A loop keeps account of its list, and of nothing that is registered later. -/
structure Follows (bus : Bus ℓ) (key : String) (loop : Loop (Registration ℓ)) : Prop where
  kept : loop.Kept (bus.listeners key) bus.gone
  known : ∀ registration ∈ loop.start, registration.key = key ∧ registration.ticket < bus.tickets

structure Frame.Kept (bus : Bus ℓ) (frame : Frame ℓ) : Prop where
  specific : Follows bus frame.event.eventType.value frame.specific
  general : Follows bus wildcard frame.general
  late : frame.late = true → frame.specific.ahead (bus.listeners frame.event.eventType.value) = []

structure Kept (subscriptions : List EventSubscription) (bus : Bus ℓ) : Prop where
  nodup : ∀ key, (bus.listeners key).Nodup
  keyed : ∀ key, ∀ registration ∈ bus.listeners key,
    registration.key = key ∧ registration.ticket < bus.tickets ∧ registration ∉ bus.gone
  past : ∀ registration ∈ bus.gone, registration.ticket < bus.tickets
  deliveries : ∀ delivery ∈ bus.deliveries, delivery.eventId ∈ bus.events.map Event.id
  frames : ∀ frame ∈ bus.stack ++ bus.finished, frame.Kept bus ∧ Stored subscriptions bus frame.event
  finished : ∀ frame ∈ bus.finished, frame.late = true ∧ frame.general.ahead (bus.listeners wildcard) = []
  silent : ∀ later registration earlier, bus.history = later ++ .removed registration :: earlier →
    ∀ eventId, .called eventId registration ∉ later

variable {loop : Loop (Registration ℓ)}

theorem Follows.fair {key : String} (follows : Follows bus key loop) :
    Fair bus loop (bus.listeners key) := by
  refine ⟨fun registration started => ?_, follows.kept.order⟩
  rw [← Bus.mem_gone]
  exact follows.kept.count started

theorem Kept.right (kept : Kept subscriptions bus) : Right subscriptions bus := by
  refine ⟨?_, ?_, kept.silent, fun frame member => (kept.frames frame member).2⟩
  · intro frame member loop inside
    have framed := (kept.frames frame member).1
    rcases List.mem_cons.mp inside with rfl | inside
    · exact framed.specific.fair
    · obtain rfl := List.mem_singleton.mp inside
      exact framed.general.fair
  · intro frame member loop inside
    have framed := (kept.frames frame (List.mem_append_right _ member)).1
    obtain ⟨late, ended⟩ := kept.finished frame member
    rcases List.mem_cons.mp inside with rfl | inside
    · exact framed.late late
    · obtain rfl := List.mem_singleton.mp inside
      exact ended

theorem Settled.kept (settled : Settled bus) : Kept subscriptions bus := by
  have none : bus.gone = [] := by rw [Bus.gone, settled.history]; rfl
  refine ⟨settled.nodup, ?_, by simp [none], settled.deliveries, ?_, ?_, ?_⟩
  · intro key registration member
    obtain ⟨same, early⟩ := settled.keyed key registration member
    exact ⟨same, early, by simp [none]⟩
  · rw [settled.stack, settled.finished]
    simp
  · rw [settled.finished]
    simp
  · intro later registration earlier whole
    rw [settled.history] at whole
    simp at whole

section On
variable (key : String) (listener : ℓ)

omit [DecidableEq ℓ] in
theorem on_listeners (key' : String) : (bus.on key listener).listeners key' =
    if key' = key then bus.listeners key ++ [⟨key, listener, bus.tickets⟩] else bus.listeners key' := by
  change Function.update bus.listeners key _ key' = _
  rw [Function.update_apply]

theorem Follows.ahead_on {key' : String} (follows : Follows bus key' loop) :
    loop.ahead ((bus.on key listener).listeners key') = loop.ahead (bus.listeners key') := by
  rw [on_listeners]
  split
  · next same =>
    subst same
    exact Loop.ahead_append fun started => Nat.lt_irrefl _ (follows.known _ started).2
  · rfl

theorem Follows.on {key' : String} (follows : Follows bus key' loop) :
    Follows (bus.on key listener) key' loop := by
  refine ⟨⟨follows.kept.nodup, ?_⟩, fun registration started => ?_⟩
  · rw [follows.ahead_on]
    exact follows.kept.accounted
  · exact ⟨(follows.known _ started).1, Nat.lt_succ_of_lt (follows.known _ started).2⟩

theorem Kept.on (kept : Kept subscriptions bus) : Kept subscriptions (bus.on key listener) := by
  have new : (⟨key, listener, bus.tickets⟩ : Registration ℓ) ∉ bus.gone ∧
      ∀ key', (⟨key, listener, bus.tickets⟩ : Registration ℓ) ∉ bus.listeners key' := by
    constructor
    · intro removed
      exact Nat.lt_irrefl _ (kept.past _ removed)
    · intro key' member
      exact Nat.lt_irrefl _ (kept.keyed key' _ member).2.1
  refine ⟨?_, ?_, fun registration removed => Nat.lt_succ_of_lt (kept.past registration removed), kept.deliveries, ?_, ?_,
    kept.silent⟩
  · intro key'
    rw [on_listeners]
    split
    · rw [List.nodup_append]
      refine ⟨kept.nodup key, List.nodup_singleton _, ?_⟩
      rintro registration member other new' rfl
      rw [List.mem_singleton.mp new'] at member
      exact new.2 key member
    · exact kept.nodup key'
  · intro key' registration member
    rw [on_listeners] at member
    split at member
    · next same =>
      subst same
      rcases List.mem_append.mp member with member | member
      · obtain ⟨named, early, present⟩ := kept.keyed key' registration member
        exact ⟨named, Nat.lt_succ_of_lt early, present⟩
      · obtain rfl := List.mem_singleton.mp member
        exact ⟨rfl, Nat.lt_succ_self _, new.1⟩
    · obtain ⟨named, early, present⟩ := kept.keyed key' registration member
      exact ⟨named, Nat.lt_succ_of_lt early, present⟩
  · intro frame member
    obtain ⟨framed, stored⟩ := kept.frames frame member
    refine ⟨⟨framed.specific.on key listener, framed.general.on key listener, fun late => ?_⟩, ⟨stored.once, stored.deliveries⟩⟩
    rw [framed.specific.ahead_on]
    exact framed.late late
  · intro frame member
    obtain ⟨late, ended⟩ := kept.finished frame member
    have general := (kept.frames frame (List.mem_append_right _ member)).1.general
    exact ⟨late, (general.ahead_on key listener).trans ended⟩

end On

section Off
variable {key : String} {listener : ℓ} {registration : Registration ℓ}

theorem off_eq (found : bus.firstOf key listener = some registration) : bus.off key listener =
    { bus with
      listeners := Function.update bus.listeners key ((bus.listeners key).erase registration)
      history := .removed registration :: bus.history } := by
  rw [Bus.off, found]

theorem off_listeners (found : bus.firstOf key listener = some registration) (key' : String) :
    (bus.off key listener).listeners key' =
      if key' = key then (bus.listeners key).erase registration else bus.listeners key' := by
  rw [off_eq found]
  exact Function.update_apply ..

theorem off_gone (found : bus.firstOf key listener = some registration) :
    (bus.off key listener).gone = registration :: bus.gone := by
  rw [off_eq found]
  rfl

theorem ahead_off_nil (found : bus.firstOf key listener = some registration) {key' : String}
    (ended : loop.ahead (bus.listeners key') = []) : loop.ahead ((bus.off key listener).listeners key') = [] := by
  rw [off_listeners found]
  split
  · next same =>
    subst same
    exact Loop.ahead_erase_nil _ ended
  · exact ended

theorem Follows.off (kept : Kept subscriptions bus) (found : bus.firstOf key listener = some registration) {key' : String}
    (follows : Follows bus key' loop)
    (passed : key' = key → registration ∈ (bus.listeners key).take loop.position → loop.ahead (bus.listeners key) = []) :
    Follows (bus.off key listener) key' loop := by
  have member : registration ∈ bus.listeners key := List.mem_of_find?_eq_some found
  obtain ⟨named, -, present⟩ := kept.keyed key registration member
  have tickets : (bus.off key listener).tickets = bus.tickets := by rw [off_eq found]
  refine ⟨?_, fun other started => tickets ▸ follows.known other started⟩
  rw [off_listeners found, off_gone found]
  split
  · next same =>
    subst same
    exact follows.kept.erase (kept.nodup key') member present (passed rfl)
  · next different =>
    apply follows.kept.elsewhere
    intro started
    exact different ((follows.known _ started).1.symm.trans named)

theorem Kept.off (kept : Kept subscriptions bus) (meets : Meets bus (.off key listener)) :
    Kept subscriptions (bus.off key listener) := by
  cases found : bus.firstOf key listener with
  | none => rwa [Bus.off, found]
  | some registration =>
    have member : registration ∈ bus.listeners key := List.mem_of_find?_eq_some found
    have taken := off_eq found
    have tickets : (bus.off key listener).tickets = bus.tickets := by rw [taken]
    have history : (bus.off key listener).history = .removed registration :: bus.history := by rw [taken]
    have stack : (bus.off key listener).stack = bus.stack := by rw [taken]
    have finished : (bus.off key listener).finished = bus.finished := by rw [taken]
    refine ⟨?_, ?_, ?_, ?_, ?_, ?_, ?_⟩
    · intro key'
      rw [off_listeners found]
      split
      · exact (kept.nodup key).erase _
      · exact kept.nodup key'
    · intro key' other present
      rw [off_listeners found] at present
      rw [tickets, off_gone found, List.mem_cons, not_or]
      split at present
      · next same =>
        subst same
        obtain ⟨different, present⟩ := (kept.nodup key').mem_erase_iff.mp present
        obtain ⟨named, early, absent⟩ := kept.keyed key' other present
        exact ⟨named, early, different, absent⟩
      · next elsewhere =>
        obtain ⟨named, early, absent⟩ := kept.keyed key' other present
        refine ⟨named, early, ?_, absent⟩
        rintro rfl
        exact elsewhere (named.symm.trans (kept.keyed key other member).1)
    · intro other removed
      rw [off_gone found] at removed
      rw [tickets]
      rcases List.mem_cons.mp removed with rfl | removed
      · exact (kept.keyed key other member).2.1
      · exact kept.past other removed
    · rw [taken]
      exact kept.deliveries
    · intro frame inside
      rw [stack, finished] at inside
      obtain ⟨framed, stored⟩ := kept.frames frame inside
      have passed : ∀ loop ∈ bus.loopsOf frame, registration ∈ loop.2.take loop.1.position → loop.1.ahead loop.2 = [] := by
        rcases List.mem_append.mp inside with running | returned
        · exact meets registration found frame running
        · intro loop whole _
          exact (kept.right.whole frame returned loop whole)
      refine ⟨⟨framed.specific.off kept found ?_, framed.general.off kept found ?_, fun late => ?_⟩, ?_⟩
      · rintro rfl
        exact passed _ List.mem_cons_self
      · rintro rfl
        exact passed _ (List.mem_cons_of_mem _ List.mem_cons_self)
      · exact ahead_off_nil found (framed.late late)
      · rw [taken]
        exact ⟨stored.once, stored.deliveries⟩
    · intro frame returned
      rw [finished] at returned
      obtain ⟨late, ended⟩ := kept.finished frame returned
      exact ⟨late, ahead_off_nil found ended⟩
    · intro later other earlier whole eventId called
      rw [history] at whole
      cases later with
      | nil => cases called
      | cons first later =>
        obtain ⟨rfl, rest⟩ := List.cons.inj whole
        rcases List.mem_cons.mp called with same | called
        · cases same
        · exact kept.silent later other earlier rest eventId called

end Off

variable {after : Loop (Registration ℓ)}

section Advance
variable {frame : Frame ℓ} {frames : List (Frame ℓ)}

/-- The bus while the last `emit` calls a listener. -/
def calling (bus : Bus ℓ) (frame : Frame ℓ) (frames : List (Frame ℓ)) (registration : Registration ℓ) : Bus ℓ :=
  { bus with stack := frame :: frames, history := .called frame.event.id registration :: bus.history }

/-- How the last `emit` goes on. -/
inductive Advances (bus : Bus ℓ) (frame : Frame ℓ) (frames : List (Frame ℓ)) : Bus ℓ → Prop where
  | specific {registration : Registration ℓ} {loop : Loop (Registration ℓ)} (early : frame.late = false)
      (found : frame.specific.next (bus.listeners frame.event.eventType.value) = some (registration, loop)) :
      Advances bus frame frames (calling bus { frame with specific := loop } frames registration)
  | general {registration : Registration ℓ} {loop : Loop (Registration ℓ)}
      (ended : frame.late = false → frame.specific.next (bus.listeners frame.event.eventType.value) = none)
      (found : frame.general.next (bus.listeners wildcard) = some (registration, loop)) :
      Advances bus frame frames (calling bus { frame with general := loop, late := true } frames registration)
  | returned (ended : frame.late = false → frame.specific.next (bus.listeners frame.event.eventType.value) = none)
      (ended' : frame.general.next (bus.listeners wildcard) = none) :
      Advances bus frame frames { bus with stack := frames, finished := { frame with late := true } :: bus.finished }

omit [DecidableEq ℓ] in
theorem advances (stack : bus.stack = frame :: frames) : Advances bus frame frames bus.advance := by
  unfold Bus.advance
  rw [stack]
  dsimp only
  by_cases late : frame.late = true
  · rw [if_pos late]
    have ended : frame.late = false → frame.specific.next (bus.listeners frame.event.eventType.value) = none := by
      rw [late]
      intro absurd
      cases absurd
    cases found : frame.general.next (bus.listeners wildcard) with
    | some next => exact .general ended found
    | none => exact .returned ended found
  · rw [if_neg late]
    cases found : frame.specific.next (bus.listeners frame.event.eventType.value) with
    | some next => exact .specific (Bool.eq_false_of_not_eq_true late) found
    | none =>
      cases found' : frame.general.next (bus.listeners wildcard) with
      | some next => exact .general (fun _ => found) found'
      | none => exact .returned (fun _ => found) found'

theorem Kept.calling (kept : Kept subscriptions bus) (stack : bus.stack = frame :: frames) {frame' : Frame ℓ}
    {registration : Registration ℓ} {key : String} (listed : registration ∈ bus.listeners key)
    (event : frame'.event = frame.event) (framed : frame'.Kept bus) :
    Kept subscriptions (calling bus frame' frames registration) := by
  refine ⟨kept.nodup, kept.keyed, kept.past, kept.deliveries, ?_, kept.finished, ?_⟩
  · intro other member
    rcases List.mem_cons.mp member with rfl | member
    · obtain ⟨-, stored⟩ := kept.frames frame (List.mem_append_left _ (stack ▸ List.mem_cons_self))
      rw [← event] at stored
      exact ⟨⟨⟨framed.specific.kept, framed.specific.known⟩, ⟨framed.general.kept, framed.general.known⟩, framed.late⟩,
        stored.once, stored.deliveries⟩
    · have inside : other ∈ bus.stack ++ bus.finished := by
        rw [stack]
        exact List.mem_cons_of_mem _ member
      obtain ⟨framed', stored⟩ := kept.frames other inside
      exact ⟨⟨⟨framed'.specific.kept, framed'.specific.known⟩, ⟨framed'.general.kept, framed'.general.known⟩, framed'.late⟩,
        stored.once, stored.deliveries⟩
  · intro later other earlier whole eventId called
    cases later with
    | nil =>
      cases called
    | cons first later =>
      obtain ⟨rfl, rest⟩ := List.cons.inj whole
      rcases List.mem_cons.mp called with same | called
      · cases same
        refine (kept.keyed key registration listed).2.2 (Bus.mem_gone.mpr ?_)
        rw [rest]
        simp
      · exact kept.silent later other earlier rest eventId called

omit [DecidableEq ℓ] in
theorem next_mem {items : List (Registration ℓ)} {registration : Registration ℓ}
    (found : loop.next items = some (registration, after)) : registration ∈ items ∧ after.start = loop.start := by
  obtain ⟨item, here, same⟩ := Option.map_eq_some_iff.mp found
  cases same
  exact ⟨List.mem_of_getElem? here, rfl⟩

theorem Follows.next (kept : Kept subscriptions bus) {key : String}
    (follows : Follows bus key loop) {registration : Registration ℓ}
    (found : loop.next (bus.listeners key) = some (registration, after)) : Follows bus key after := by
  obtain ⟨member, start⟩ := next_mem found
  refine ⟨follows.kept.next found (kept.keyed key registration member).2.2, ?_⟩
  rw [start]
  exact follows.known

theorem Kept.advance (kept : Kept subscriptions bus) (stack : bus.stack = frame :: frames) :
    Kept subscriptions bus.advance := by
  have framed := (kept.frames frame (List.mem_append_left _ (stack ▸ List.mem_cons_self))).1
  have quiet : (frame.late = false → frame.specific.next (bus.listeners frame.event.eventType.value) = none) →
      frame.specific.ahead (bus.listeners frame.event.eventType.value) = [] := by
    intro ended
    cases late : frame.late with
    | false => exact Loop.ahead_of_next_none (ended late)
    | true => exact framed.late late
  have ways := advances stack
  generalize bus.advance = after at ways ⊢
  cases ways with
  | specific early found =>
    refine kept.calling stack (next_mem found).1 rfl ⟨framed.specific.next kept found, framed.general, ?_⟩
    intro late
    rw [early] at late
    cases late
  | general ended found =>
    exact kept.calling stack (next_mem found).1 rfl
      ⟨framed.specific, framed.general.next kept found, fun _ => quiet ended⟩
  | returned ended ended' =>
    have stays : ∀ other ∈ frames ++ { frame with late := true } :: bus.finished,
        other = { frame with late := true } ∨ other ∈ bus.stack ++ bus.finished := by
      intro other member
      rw [stack]
      simp only [List.mem_append, List.mem_cons] at member ⊢
      rcases member with member | rfl | member
      · exact .inr (.inl (.inr member))
      · exact .inl rfl
      · exact .inr (.inr member)
    refine ⟨kept.nodup, kept.keyed, kept.past, kept.deliveries, ?_, ?_, kept.silent⟩
    · intro other member
      rcases stays other member with rfl | member
      · have stored := (kept.frames frame (List.mem_append_left _ (stack ▸ List.mem_cons_self))).2
        exact ⟨⟨⟨framed.specific.kept, framed.specific.known⟩, ⟨framed.general.kept, framed.general.known⟩,
          fun _ => quiet ended⟩, stored.once, stored.deliveries⟩
      · obtain ⟨framed', stored⟩ := kept.frames other member
        exact ⟨⟨⟨framed'.specific.kept, framed'.specific.known⟩, ⟨framed'.general.kept, framed'.general.known⟩,
          framed'.late⟩, stored.once, stored.deliveries⟩
    · intro other member
      rcases List.mem_cons.mp member with rfl | member
      · exact ⟨rfl, Loop.ahead_of_next_none ended'⟩
      · exact kept.finished other member

end Advance

section Emit
variable (event : Event) (stamp : Nat → String × Moment)

theorem queueDeliveries_eventId (matched : List EventSubscription) {delivery : Webhooks.DeliveryRow}
    (member : delivery ∈ queueDeliveries event stamp matched) : delivery.eventId = event.id := by
  obtain ⟨⟨subscription, place⟩, -, made⟩ := List.mem_filterMap.mp member
  dsimp only at made
  split at made
  · split at made
    · cases made
      rfl
    · cases made
  · cases made

theorem queueDeliveries_map (matched : List EventSubscription) :
    (queueDeliveries event stamp matched).map
      (fun delivery => (delivery.subscriptionId, delivery.webhookEndpointId, delivery.status)) =
    matched.filterMap fun subscription =>
      match subscription.webhookEndpointId with
      | some endpoint => if endpoint ≠ "" then some (subscription.id, endpoint, .pending) else none
      | none => none := by
  conv_rhs => rw [← List.zipIdx_map_fst 0 matched]
  rw [queueDeliveries, List.map_filterMap, List.filterMap_map]
  congr 1
  funext ⟨subscription, place⟩
  dsimp only [Function.comp]
  cases subscription.webhookEndpointId with
  | none => rfl
  | some endpoint =>
    dsimp only
    split <;> rfl

variable {event}

/-- The bus as `emit` begins to call listeners. -/
def beginning (subscriptions : List EventSubscription) (bus : Bus ℓ) (event : Event) (stamp : Nat → String × Moment) : Bus ℓ :=
  { bus with
    events := bus.events ++ [event]
    deliveries := bus.deliveries ++ queueDeliveries event stamp (matchSubscriptions subscriptions event)
    stack := ⟨event, .of (bus.listeners event.eventType.value), .of (bus.listeners wildcard), false⟩ :: bus.stack }

theorem Kept.begins (kept : Kept subscriptions bus) (key : String) : Follows bus key (.of (bus.listeners key)) := by
  refine ⟨.begin (kept.nodup key) fun registration member => (kept.keyed key registration member).2.2, ?_⟩
  intro registration member
  obtain ⟨named, early, -⟩ := kept.keyed key registration member
  exact ⟨named, early⟩

omit [DecidableEq ℓ] in
theorem Stored.beginning {other : Event} (stored : Stored subscriptions bus other) (fresh : event.id ∉ bus.events.map Event.id) :
    Stored subscriptions (beginning subscriptions bus event stamp) other := by
  have member : other ∈ bus.events := (List.mem_filter.mp (stored.once ▸ List.mem_singleton_self other)).1
  have different : event.id ≠ other.id := fun same => fresh (same ▸ List.mem_map_of_mem member)
  refine ⟨?_, ?_⟩
  · change (bus.events ++ [event]).filter (fun another => another.id = other.id) = [other]
    rw [List.filter_append, stored.once, List.filter_singleton]
    simp [different]
  · have none : (queueDeliveries event stamp (matchSubscriptions subscriptions event)).filter
        (fun delivery => delivery.eventId = other.id) = [] := by
      apply List.filter_eq_nil_iff.mpr
      intro delivery queued
      rw [queueDeliveries_eventId event stamp _ queued]
      simpa using different
    change ((bus.deliveries ++ queueDeliveries event stamp _).filter fun delivery => delivery.eventId = other.id).map _ = _
    rw [List.filter_append, none, List.append_nil, stored.deliveries]

theorem Kept.stored (kept : Kept subscriptions bus) (fresh : event.id ∉ bus.events.map Event.id) :
    Stored subscriptions (beginning subscriptions bus event stamp) event := by
  refine ⟨?_, ?_⟩
  · have none : bus.events.filter (fun other => other.id = event.id) = [] := by
      apply List.filter_eq_nil_iff.mpr
      intro other member same
      exact fresh (of_decide_eq_true same ▸ List.mem_map_of_mem member)
    change (bus.events ++ [event]).filter (fun other => other.id = event.id) = [event]
    rw [List.filter_append, none, List.filter_singleton]
    simp
  · have none : bus.deliveries.filter (fun delivery => delivery.eventId = event.id) = [] := by
      apply List.filter_eq_nil_iff.mpr
      intro delivery member same
      exact fresh (of_decide_eq_true same ▸ kept.deliveries delivery member)
    have all : (queueDeliveries event stamp (matchSubscriptions subscriptions event)).filter
        (fun delivery => delivery.eventId = event.id) = queueDeliveries event stamp (matchSubscriptions subscriptions event) := by
      apply List.filter_eq_self.mpr
      intro delivery queued
      exact decide_eq_true (queueDeliveries_eventId event stamp _ queued)
    change ((bus.deliveries ++ queueDeliveries event stamp _).filter fun delivery => delivery.eventId = event.id).map _ = _
    rw [List.filter_append, none, List.nil_append, all, queueDeliveries_map, owed]

theorem Kept.beginning (kept : Kept subscriptions bus) (fresh : event.id ∉ bus.events.map Event.id) :
    Kept subscriptions (beginning subscriptions bus event stamp) := by
  refine ⟨kept.nodup, kept.keyed, kept.past, ?_, ?_, kept.finished, kept.silent⟩
  · intro delivery member
    change delivery.eventId ∈ (bus.events ++ [event]).map Event.id
    rw [List.map_append, List.mem_append]
    rcases List.mem_append.mp member with member | queued
    · exact .inl (kept.deliveries delivery member)
    · exact .inr (by simp [queueDeliveries_eventId event stamp _ queued])
  · intro frame member
    rcases List.mem_cons.mp member with rfl | member
    · have specific := kept.begins event.eventType.value
      have general := kept.begins wildcard
      refine ⟨⟨⟨specific.kept, specific.known⟩, ⟨general.kept, general.known⟩, fun late => ?_⟩, kept.stored stamp fresh⟩
      cases late
    · obtain ⟨framed, stored⟩ := kept.frames frame member
      exact ⟨⟨⟨framed.specific.kept, framed.specific.known⟩, ⟨framed.general.kept, framed.general.known⟩, framed.late⟩,
        stored.beginning stamp fresh⟩

end Emit

variable {move : Move ℓ}

theorem Kept.step (kept : Kept subscriptions bus) (meets : Meets bus move) {after : Bus ℓ}
    (taken : bus.step subscriptions move = some after) : Kept subscriptions after := by
  cases move with
  | on key listener =>
    cases taken
    exact kept.on key listener
  | off key listener =>
    cases taken
    exact kept.off meets
  | emit event stamp =>
    change bus.emit subscriptions event stamp = some after at taken
    unfold Bus.emit at taken
    split at taken
    · cases taken
    · next fresh =>
      cases taken
      exact (kept.beginning stamp fresh).advance rfl
  | back =>
    change (if bus.stack.isEmpty then none else some bus.advance) = some after at taken
    split at taken
    · cases taken
    · next running =>
      cases taken
      cases stack : bus.stack with
      | nil => simp [stack] at running
      | cons frame frames => exact kept.advance stack

theorem Orderly.kept {start : Bus ℓ} (settled : Settled start) (orderly : Orderly subscriptions start bus) :
    Kept subscriptions bus := by
  induction orderly with
  | start => exact settled.kept
  | step move _ meets taken ih => exact ih.step meets taken

/-! A dispatch that does not return. -/

section Endless

/-- How many calls of `emit` have begun and not returned. -/
def depth (bus : Bus ℓ) : Nat := bus.stack.length

/-- The frames at a depth and below. -/
def base (level : Nat) (bus : Bus ℓ) : List (Frame ℓ) := bus.stack.drop (depth bus - level)

/-- Steps without end, in which every listener returns, once all that it emits has, and
calls of `emit` are not nested deeper and deeper for ever. -/
structure Endless (subscriptions : List EventSubscription) (states : Nat → Bus ℓ) (moves : Nat → Move ℓ) : Prop where
  steps : ∀ n, (states n).step subscriptions (moves n) = some (states (n + 1))
  returning : ∀ n, 0 < depth (states n) → (∀ m ≥ n, depth (states n) ≤ depth (states m)) →
    (∀ k, ∃ m ≥ k, depth (states m) = depth (states n)) → ∃ m ≥ n, depth (states m) = depth (states n) ∧ moves m = .back
  nesting : ∃ limit, ∀ n, ∃ m ≥ n, depth (states m) < limit

/-- From some time on nothing is registered in the lists of a dispatch while it is going on. -/
def Bounded (states : Nat → Bus ℓ) (moves : Nat → Move ℓ) : Prop :=
  ∀ n frame frames, (states n).stack = frame :: frames → ∃ k, ∀ m ≥ k,
    (∀ between ≥ n, between ≤ m → depth (states n) ≤ depth (states between)) →
      ∀ key listener, moves m = .on key listener → key ≠ frame.event.eventType.value ∧ key ≠ wildcard

variable {level : Nat}

omit [DecidableEq ℓ] in
theorem base_of_depth (here : depth bus = level) : base level bus = bus.stack := by
  rw [base, here, Nat.sub_self, List.drop_zero]

omit [DecidableEq ℓ] in
theorem base_cons {stack : List (Frame ℓ)} {frame : Frame ℓ} (shape : bus.stack = frame :: stack)
    (deep : level ≤ stack.length) : base level bus = stack.drop (stack.length - level) := by
  rw [base, depth, shape, List.length_cons, Nat.succ_sub deep, List.drop_succ_cons]

omit [DecidableEq ℓ] in
theorem base_advance {frame : Frame ℓ} {frames : List (Frame ℓ)} (stack : bus.stack = frame :: frames)
    (deep : level ≤ frames.length) : base level bus.advance = base level bus := by
  have ways := advances stack
  rw [base_cons stack deep]
  generalize bus.advance = after at ways ⊢
  cases ways with
  | specific early found => exact base_cons rfl deep
  | general ended found => exact base_cons rfl deep
  | returned ended ended' => rfl

/-- A step at a depth or above leaves the frames there alone, unless it is the return of
a listener that the last of them has called. -/
theorem base_step {after : Bus ℓ} (taken : bus.step subscriptions move = some after)
    (deep : level ≤ depth bus) (other : depth bus = level → move ≠ .back) : base level after = base level bus := by
  cases move with
  | on key listener =>
    cases taken
    rfl
  | off key listener =>
    cases taken
    unfold Bus.off
    split <;> rfl
  | emit event stamp =>
    change bus.emit subscriptions event stamp = some after at taken
    unfold Bus.emit at taken
    split at taken
    · cases taken
    · cases taken
      exact (base_advance rfl deep).trans (base_cons rfl deep)
  | back =>
    change (if bus.stack.isEmpty then none else some bus.advance) = some after at taken
    split at taken
    · cases taken
    · cases taken
      cases stack : bus.stack with
      | nil => simp_all
      | cons frame frames =>
        have higher : level ≠ depth bus := fun same => other same.symm rfl
        have length : depth bus = frames.length + 1 := by rw [depth, stack, List.length_cons]
        exact base_advance stack (by omega)

/-- How far the loops of a dispatch are from the ends of lists that are so long. -/
def left (specific general : Nat) (frame : Frame ℓ) : Nat :=
  (specific - frame.specific.position) + (general - frame.general.position)

omit [DecidableEq ℓ] in
theorem next_position {items : List (Registration ℓ)} {registration : Registration ℓ}
    (found : loop.next items = some (registration, after)) :
    loop.position < items.length ∧ after.position = loop.position + 1 := by
  obtain ⟨item, here, same⟩ := Option.map_eq_some_iff.mp found
  cases same
  exact ⟨(List.getElem?_eq_some_iff.mp here).1, rfl⟩

omit [DecidableEq ℓ] in
theorem left_advance {frame : Frame ℓ} {frames : List (Frame ℓ)} (stack : bus.stack = frame :: frames)
    (deep : depth bus ≤ depth bus.advance) (specific general : Nat) :
    ∃ frame', bus.advance.stack = frame' :: frames ∧ frame'.event = frame.event ∧
      ((bus.listeners frame.event.eventType.value).length ≤ specific → (bus.listeners wildcard).length ≤ general →
        left specific general frame' < left specific general frame) := by
  have ways := advances stack
  rw [depth, stack] at deep
  generalize bus.advance = after at ways deep ⊢
  cases ways with
  | specific early found =>
    obtain ⟨inside, position⟩ := next_position found
    refine ⟨_, rfl, rfl, fun short short' => ?_⟩
    simp only [left, position]
    omega
  | general ended found =>
    obtain ⟨inside, position⟩ := next_position found
    refine ⟨_, rfl, rfl, fun short short' => ?_⟩
    simp only [left, position]
    omega
  | returned ended ended' =>
    change frames.length + 1 ≤ frames.length at deep
    omega

omit [DecidableEq ℓ] in
theorem advance_listeners (bus : Bus ℓ) : bus.advance.listeners = bus.listeners := by
  unfold Bus.advance
  split
  · rfl
  · split
    · rfl
    · split <;> rfl

/-- Only a registration makes a list longer. -/
theorem listeners_step {after : Bus ℓ} (taken : bus.step subscriptions move = some after) {key : String}
    (quiet : ∀ listener, move ≠ .on key listener) : (after.listeners key).length ≤ (bus.listeners key).length := by
  cases move with
  | on key' listener =>
    cases taken
    rw [on_listeners, if_neg]
    rintro rfl
    exact quiet listener rfl
  | off key' listener =>
    cases taken
    cases found : bus.firstOf key' listener with
    | none => rw [Bus.off, found]
    | some registration =>
      rw [off_listeners found]
      split
      · next same =>
        subst same
        exact List.length_erase_le ..
      · exact Nat.le_refl _
  | emit event stamp =>
    change bus.emit subscriptions event stamp = some after at taken
    unfold Bus.emit at taken
    split at taken
    · cases taken
    · cases taken
      rw [advance_listeners]
  | back =>
    change (if bus.stack.isEmpty then none else some bus.advance) = some after at taken
    split at taken
    · cases taken
    · cases taken
      rw [advance_listeners]

/-- A step at the depth of a dispatch or above keeps the dispatch, and brings it nearer
to its end if a listener that it has called returns. -/
theorem left_step {after : Bus ℓ} (taken : bus.step subscriptions move = some after)
    (deep : level ≤ depth bus) (deep' : level ≤ depth after) {frame : Frame ℓ} {frames : List (Frame ℓ)}
    (shape : base level bus = frame :: frames) (specific general : Nat) :
    ∃ frame', base level after = frame' :: frames ∧ frame'.event = frame.event ∧
      ((bus.listeners frame.event.eventType.value).length ≤ specific → (bus.listeners wildcard).length ≤ general →
        left specific general frame' ≤ left specific general frame ∧
          (depth bus = level → move = .back → left specific general frame' < left specific general frame)) := by
  by_cases returns : depth bus = level ∧ move = .back
  · obtain ⟨here, rfl⟩ := returns
    have stack : bus.stack = frame :: frames := (base_of_depth here).symm.trans shape
    have running : ¬ bus.stack.isEmpty := by simp [stack]
    change (if bus.stack.isEmpty then none else some bus.advance) = some after at taken
    rw [if_neg running] at taken
    cases taken
    obtain ⟨frame', stack', event, nearer⟩ := left_advance stack (here ▸ deep') specific general
    refine ⟨frame', ?_, event, fun short short' => ⟨(nearer short short').le, fun _ _ => nearer short short'⟩⟩
    rw [base_of_depth, stack']
    rw [depth, stack', ← here, depth, stack]
    rfl
  · refine ⟨frame, (base_step taken deep fun here back => returns ⟨here, back⟩).trans shape, rfl, fun _ _ => ⟨Nat.le_refl _, ?_⟩⟩
    intro here back
    exact absurd ⟨here, back⟩ returns

/-- Every call of `emit` returns. -/
theorem Endless.returns {states : Nat → Bus ℓ} {moves : Nat → Move ℓ} (endless : Endless subscriptions states moves)
    (bounded : Bounded states moves) {n : Nat} (running : 0 < depth (states n)) :
    ∃ m > n, depth (states m) < depth (states n) := by
  by_contra never
  have above : ∀ m ≥ n, depth (states n) ≤ depth (states m) := by
    intro m later
    by_contra lower
    refine never ⟨m, ?_, by omega⟩
    rcases Nat.lt_or_eq_of_le later with later | rfl
    · exact later
    · omega
  obtain ⟨limit, low⟩ := endless.nesting
  obtain ⟨level, least, first, later, deep, again⟩ := recurs above low
  obtain ⟨here, since, same⟩ := again first
  cases stack : (states here).stack with
  | nil =>
    rw [depth, stack] at same
    simp only [List.length_nil] at same
    omega
  | cons frame frames =>
    obtain ⟨k, quiet⟩ := bounded here frame frames stack
    have higher : ∀ m, level ≤ depth (states (here + m)) := fun m => deep _ (by omega)
    -- The frame at the depth where the run comes back again and again is always the same dispatch.
    have shape : ∀ m, ∃ frame', base level (states (here + m)) = frame' :: frames ∧ frame'.event = frame.event := by
      intro m
      induction m with
      | zero => exact ⟨frame, (base_of_depth same).trans stack, rfl⟩
      | succ m ih =>
        obtain ⟨frame', based, event⟩ := ih
        obtain ⟨frame'', based', event', -⟩ := left_step (endless.steps (here + m)) (higher m) (higher (m + 1)) based 0 0
        exact ⟨frame'', based', event'.trans event⟩
    choose frameAt based event using shape
    have short : ∀ key, key = frame.event.eventType.value ∨ key = wildcard → ∀ m ≥ k,
        ((states (here + m)).listeners key).length ≤ ((states (here + k)).listeners key).length := by
      intro key listed m late
      induction m, late using Nat.le_induction with
      | base => exact Nat.le_refl _
      | succ m late ih =>
        refine (listeners_step (endless.steps (here + m)) fun listener move => ?_).trans ih
        obtain ⟨other, other'⟩ := quiet (here + m) (by omega) (fun between from_ _ => same ▸ deep between (by omega)) key listener move
        rcases listed with listed | listed
        · exact other listed
        · exact other' listed
    obtain ⟨specific, inside⟩ : ∃ specific, ∀ m ≥ k, ((states (here + m)).listeners frame.event.eventType.value).length ≤ specific :=
      ⟨_, short _ (.inl rfl)⟩
    obtain ⟨general, inside'⟩ : ∃ general, ∀ m ≥ k, ((states (here + m)).listeners wildcard).length ≤ general :=
      ⟨_, short _ (.inr rfl)⟩
    have nearer : ∀ m ≥ k, left specific general (frameAt (m + 1)) ≤ left specific general (frameAt m) ∧
        (depth (states (here + m)) = level → moves (here + m) = .back →
          left specific general (frameAt (m + 1)) < left specific general (frameAt m)) := by
      intro m late
      obtain ⟨frame', based', -, nearer⟩ :=
        left_step (endless.steps (here + m)) (higher m) (higher (m + 1)) (based m) specific general
      obtain rfl : frameAt (m + 1) = frame' := (List.cons.inj ((based (m + 1)).symm.trans based')).1
      exact nearer (event m ▸ inside m late) (inside' m late)
    refine @falls_end (fun m => left specific general (frameAt m)) k (fun m late => (nearer m late).1) fun q late => ?_
    obtain ⟨t, after, level'⟩ := again (here + q)
    obtain ⟨t', after', level'', back⟩ := endless.returning t (by omega) (fun m later' => level' ▸ deep m (by omega))
      (fun k' => level' ▸ again k')
    refine ⟨t' - here, by omega, ?_⟩
    have time : here + (t' - here) = t' := by omega
    apply (nearer (t' - here) (by omega)).2
    · rw [time, level'', level']
    · rw [time, back]

end Endless

/-- Whatever the listeners do, a dispatch calls what it should, as long as nothing is
removed that one of its loops has passed while that loop has others ahead; and it returns,
if its lists stop growing. -/
theorem dispatches {start : Bus ℓ} (settled : Settled start) :
    (∀ bus, Orderly subscriptions start bus → Right subscriptions bus) ∧
      ∀ states moves, states 0 = start → Endless subscriptions states moves → Bounded states moves →
        ∀ n, 0 < depth (states n) → ∃ m > n, depth (states m) < depth (states n) :=
  ⟨fun _ orderly => (orderly.kept settled).right, fun _ _ _ endless bounded _ running => endless.returns bounded running⟩

/-- A bus without listeners. -/
def quiet : Bus String := ⟨fun _ => [], 0, [], [], [], [], []⟩

theorem settled_quiet : Settled quiet := by
  refine ⟨fun _ => List.nodup_nil, ?_, ?_, rfl, rfl, rfl⟩
  · intro key registration member
    cases member
  · intro delivery member
    cases member

def created : Event :=
  ⟨"e", .objectCreated, "alice", "Doc", "d", .of 0 Moment.start_within, none, .obj [], none, .active⟩

def stamps (place : Nat) : String × Moment := (toString place, .of 0 Moment.start_within)

/-- A listener removes one that comes after it. -/
theorem dispatches_quiet :
    ∃ bus, quiet.run [] [.on "object_created" "first", .on "object_created" "second", .emit created stamps,
      .off "object_created" "second", .back] = some bus ∧ Right [] bus := by
  refine ⟨_, rfl, (dispatches settled_quiet).1 _ ?_⟩
  refine .step .back (.step (.off "object_created" "second") (.step (.emit created stamps)
    (.step (.on "object_created" "second") (.step (.on "object_created" "first") .start trivial rfl) trivial rfl)
      trivial rfl) ?_ rfl) trivial rfl
  intro registration found frame running loop inside passed
  cases found
  cases running with
  | head =>
    cases inside with
    | head => exact absurd passed (by decide)
    | tail _ inside =>
      obtain rfl := List.mem_singleton.mp inside
      exact absurd passed (by decide)
  | tail _ running => cases running

/-- A listener that removes itself hides the next one from the dispatch. -/
theorem removal_skips :
    ∃ bus, quiet.run [] [.on "object_created" "first", .on "object_created" "second", .emit created stamps,
      .off "object_created" "first", .back] = some bus ∧ bus.stack = [] ∧ ¬ Right [] bus := by
  refine ⟨_, rfl, rfl, fun right => ?_⟩
  have met := (right.fair _ List.mem_cons_self _ List.mem_cons_self).once ⟨"object_created", "second", 1⟩
    (List.mem_cons_of_mem _ List.mem_cons_self)
  revert met
  decide

end PyScoped.Legacy.EventBus
