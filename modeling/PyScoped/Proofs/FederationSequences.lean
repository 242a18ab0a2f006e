import PyScoped.Legacy.Federation

/-! What becomes of the numbers that a sender gives to its messages. A counter
that is written only while it still has the value its call has read gives every
message a number of its own, and then no delivery is taken for a replay. -/

namespace PyScoped.Legacy.FederationProtocol
open Foundation

variable {ι : Type} {hmac : String → String → String} {client : ι}

/-- A counter is written only while it still is what the call has read. -/
def CounterUnmoved (_ : ι) (store : Store ι) : Request → Prop
  | .insertSequence connectorId _ _ => store.sequences connectorId = none
  | .updateSequence connectorId _ _ loaded => store.sequences connectorId = some loaded
  | _ => True

/-- A number that a connector's counter has reached. -/
def Reached (store : Store ι) (connectorId : String) (sequence : Int) : Prop :=
  ∃ last, store.sequences connectorId = some last ∧ sequence ≤ last

/-- The numbers that were given out, with their connectors. -/
def numbers (store : Store ι) : List (String × Int) :=
  store.created.map (fun entry => (entry.2.connectorId, entry.2.sequence)) ++ store.numbered.map (·.2)

/-- The ledger keys that deliveries are still to enter. -/
def expected (store : Store ι) : List (String × String × Int) :=
  store.inFlight.map (·.2.triple) ++ store.arrived.map (·.2.triple)

structure Counted (hmac : String → String → String) (store : Store ι) : Prop where
  unfailing : store.failed = []
  accepting : store.rejected = []
  signed : ∀ entry ∈ store.inFlight, hmac entry.1 entry.2.signingPayload = entry.2.signature
  distinct : (numbers store).Nodup
  reached : ∀ number ∈ numbers store, Reached store number.1 number.2
  once : (expected store).Nodup
  unseen : ∀ key ∈ expected store, key ∉ store.seen.map SeenMessage.triple
  known : ∀ key ∈ expected store ++ store.seen.map SeenMessage.triple,
    Reached store key.1 key.2.2 ∧ (key.1, key.2.2) ∉ store.numbered.map (·.2)

/-- What a client relies on: what it has in hand stays its own. -/
structure InHand (client : ι) (before after : Store ι) : Prop where
  numbered : ∀ number, (client, number) ∈ before.numbered → (client, number) ∈ after.numbered
  arrived : ∀ message, (client, message) ∈ before.arrived → (client, message) ∈ after.arrived

theorem InHand.refl (store : Store ι) : InHand client store store := ⟨fun _ member => member, fun _ member => member⟩

theorem InHand.trans {first second third : Store ι} (one : InHand client first second) (two : InHand client second third) :
    InHand client first third :=
  ⟨fun number member => two.numbered number (one.numbered number member),
    fun message member => two.arrived message (one.arrived message member)⟩

def counting (hmac : String → String → String) : Contract Request (Store ι) ι where
  kept := Counted hmac
  rely := InHand
  allowed := CounterUnmoved

/-- Statements that touch no more than a lock. -/
def Request.Idle : Request → Prop
  | .acquire _ => True
  | .release _ => True
  | .selectSequence _ => True
  | .now => True
  | .generateId => True
  | _ => False

variable {store : Store ι}

theorem Counted.aside (counted : Counted hmac store) {locks : List Nat}
    {accepted : List FederationMessage} {marked : List (ι × SeenMessage)} :
    Counted hmac { store with locks := locks, accepted := accepted, marked := marked } :=
  ⟨counted.unfailing, counted.accepting, counted.signed, counted.distinct, counted.reached, counted.once,
    counted.unseen, counted.known⟩

/-- A number that the counter had not reached is written. -/
theorem Counted.number (counted : Counted hmac store) {connectorId : String} {sequence : Int}
    (fresh : ¬Reached store connectorId sequence) (above : ∀ last ∈ store.sequences connectorId, last ≤ sequence) :
    Counted hmac { store with
      sequences := Function.update store.sequences connectorId (some sequence)
      numbered := (client, connectorId, sequence) :: store.numbered } := by
  have onward : ∀ other number, Reached store other number → Reached { store with
      sequences := Function.update store.sequences connectorId (some sequence)
      numbered := (client, connectorId, sequence) :: store.numbered } other number := by
    intro other number reached
    obtain ⟨last, stored, within⟩ := reached
    by_cases same : other = connectorId
    · subst other
      exact ⟨sequence, by simp, within.trans (above last stored)⟩
    · exact ⟨last, by simpa [Function.update_of_ne same] using stored, within⟩
  refine ⟨counted.unfailing, counted.accepting, counted.signed, ?_, ?_, counted.once, counted.unseen, ?_⟩
  · refine (List.perm_middle.nodup_iff).mpr (List.nodup_cons.mpr ⟨fun member => ?_, counted.distinct⟩)
    exact fresh (counted.reached _ member)
  · intro number member
    rcases List.mem_cons.mp (List.perm_middle.mem_iff.mp member) with rfl | member
    · exact ⟨sequence, by simp, le_rfl⟩
    · exact onward _ _ (counted.reached number member)
  · intro key member
    obtain ⟨reached, unused⟩ := counted.known key member
    refine ⟨onward _ _ reached, fun used => ?_⟩
    rcases List.mem_cons.mp used with same | used
    · obtain ⟨connector, number⟩ := Prod.mk.inj same
      rw [connector, number] at reached
      exact fresh reached
    · exact unused used

variable {message : FederationMessage}

theorem Counted.arrive (counted : Counted hmac store) {key : String} (flying : (key, message) ∈ store.inFlight) :
    Counted hmac { store with
      inFlight := store.inFlight.erase (key, message)
      arrived := (client, message) :: store.arrived } := by
  have moved : (expected store).Perm (expected { store with
      inFlight := store.inFlight.erase (key, message)
      arrived := (client, message) :: store.arrived }) :=
    (((List.perm_cons_erase flying).map (·.2.triple)).append_right _).trans List.perm_middle.symm
  refine ⟨counted.unfailing, counted.accepting, ?_, counted.distinct, counted.reached, ?_, ?_, ?_⟩
  · exact fun entry member => counted.signed entry (List.mem_of_mem_erase member)
  · exact (moved.nodup_iff).mp counted.once
  · exact fun key' member => counted.unseen key' (moved.mem_iff.mpr member)
  · intro key' member
    exact counted.known key' (((moved.append_right _).mem_iff).mpr member)

/-- Before any message: the ledger holds no number that a counter has still to reach. -/
structure Settled (store : Store ι) : Prop where
  created : store.created = []
  inFlight : store.inFlight = []
  failed : store.failed = []
  rejected : store.rejected = []
  numbered : store.numbered = []
  arrived : store.arrived = []
  seen : ∀ row ∈ store.seen, Reached store row.connectorId row.sequence

theorem Settled.counted (settled : Settled store) : Counted hmac store := by
  refine ⟨settled.failed, settled.rejected, ?_, ?_, ?_, ?_, ?_, ?_⟩
  · simp [settled.inFlight]
  · simp [numbers, settled.created, settled.numbered]
  · simp [numbers, settled.created, settled.numbered]
  · simp [expected, settled.inFlight, settled.arrived]
  · simp [expected, settled.inFlight, settled.arrived]
  · intro key member
    simp only [expected, settled.inFlight, settled.arrived, List.map_nil, List.append_nil, List.nil_append,
      List.mem_map] at member
    obtain ⟨row, member, rfl⟩ := member
    exact ⟨settled.seen row member, by simp [settled.numbered]⟩

section

variable [DecidableEq ι]

/-- A number in hand becomes a message on its way. -/
theorem Counted.create (counted : Counted hmac store) {key : String}
    (held : (client, message.connectorId, message.sequence) ∈ store.numbered)
    (signed : hmac key message.signingPayload = message.signature) :
    Counted hmac { store with
      created := (key, message) :: store.created
      inFlight := (key, message) :: store.inFlight
      numbered := store.numbered.erase (client, message.connectorId, message.sequence) } := by
  have split := List.perm_cons_erase held
  have moved : (numbers store).Perm (numbers { store with
      created := (key, message) :: store.created
      inFlight := (key, message) :: store.inFlight
      numbered := store.numbered.erase (client, message.connectorId, message.sequence) }) :=
    ((split.map (·.2)).append_left _).trans List.perm_middle
  have own : (message.connectorId, message.sequence) ∈ store.numbered.map (·.2) := List.mem_map_of_mem held
  have used : (message.connectorId, message.sequence) ∉
      (store.numbered.erase (client, message.connectorId, message.sequence)).map (·.2) := by
    have distinct := ((split.map (·.2)).nodup_iff).mp (List.nodup_append.mp counted.distinct).2.1
    exact (List.nodup_cons.mp distinct).1
  have fewer : ∀ number, number ∉ store.numbered.map (·.2) →
      number ∉ (store.numbered.erase (client, message.connectorId, message.sequence)).map (·.2) :=
    fun number absent member => absent (List.map_subset _ List.erase_subset member)
  refine ⟨counted.unfailing, counted.accepting, ?_, (moved.nodup_iff).mp counted.distinct, ?_, ?_, ?_, ?_⟩
  · intro entry member
    rcases List.mem_cons.mp member with rfl | member
    · exact signed
    · exact counted.signed entry member
  · exact fun number member => counted.reached number (moved.mem_iff.mpr member)
  · refine List.nodup_cons.mpr ⟨fun member => ?_, counted.once⟩
    exact (counted.known _ (List.mem_append_left _ member)).2 own
  · intro key' member
    rcases List.mem_cons.mp member with rfl | member
    · exact fun seen => (counted.known _ (List.mem_append_right _ seen)).2 own
    · exact counted.unseen key' member
  · intro key' member
    rcases List.mem_cons.mp member with rfl | member
    · exact ⟨counted.reached _ (List.mem_append_right _ own), used⟩
    · obtain ⟨reached, unused⟩ := counted.known key' member
      exact ⟨reached, fewer _ unused⟩

/-- A message that has arrived is entered into the ledger. -/
theorem Counted.enter (counted : Counted hmac store) {row : SeenMessage}
    (held : (client, message) ∈ store.arrived) (same : row.triple = message.triple) {marked : List (ι × SeenMessage)} :
    Counted hmac { store with
      seen := row :: store.seen
      arrived := store.arrived.filter (fun entry => entry.1 ≠ client)
      marked := marked } := by
  have own : message.triple ∈ store.arrived.map (·.2.triple) := List.mem_map_of_mem held
  obtain ⟨flying, waiting, apart⟩ := List.nodup_append.mp counted.once
  have sub : List.Sublist (expected { store with
      seen := row :: store.seen
      arrived := store.arrived.filter (fun entry => entry.1 ≠ client)
      marked := marked }) (expected store) :=
    List.Sublist.append_left (List.filter_sublist.map _) _
  refine ⟨counted.unfailing, counted.accepting, counted.signed, counted.distinct, counted.reached,
    counted.once.sublist sub, ?_, ?_⟩
  · intro key member seen
    rcases List.mem_cons.mp seen with rfl | seen
    · rw [same] at member
      rcases List.mem_append.mp member with member | member
      · exact apart _ member _ own rfl
      · obtain ⟨other, kept, equal⟩ := List.mem_map.mp member
        obtain ⟨mine, foreign⟩ := List.mem_filter.mp kept
        have entry := List.inj_on_of_nodup_map waiting held mine equal.symm
        rw [← entry] at foreign
        simp at foreign
    · exact counted.unseen key (sub.subset member) seen
  · intro key member
    rcases List.mem_append.mp member with member | member
    · exact counted.known key (List.mem_append_left _ (sub.subset member))
    · rcases List.mem_cons.mp member with rfl | member
      · rw [same]
        exact counted.known _ (List.mem_append_left _ (List.mem_append_right _ own))
      · exact counted.known key (List.mem_append_right _ member)

theorem idle_safe {request : Request} (idle : request.Idle) (state : Store ι) :
    (counting hmac).Safe (serve courier false) client
      (fun reply final => InHand client state final ∧ ∃ value, reply = .ok value) (Prog.perform request) state := by
  refine .perform fun now kept onward _ choice reply after answered => ?_
  have keeps : Counted hmac after ∧ after.numbered = now.numbered ∧ after.arrived = now.arrived ∧
      ∃ value, reply = .ok value := by
    cases request with
    | acquire lock =>
      simp only [serve, Bool.false_eq_true, ↓reduceIte] at answered
      split at answered <;> cases answered
      exact ⟨kept.aside, rfl, rfl, _, rfl⟩
    | release lock =>
      cases answered
      exact ⟨kept.aside, rfl, rfl, _, rfl⟩
    | selectSequence | now | generateId =>
      cases answered
      exact ⟨kept, rfl, rfl, _, rfl⟩
    | _ => exact idle.elim
  obtain ⟨kept', numbered, arrived, returned⟩ := keeps
  have moved : ∀ other, InHand other now after := fun other =>
    ⟨fun number member => numbered ▸ member, fun message member => arrived ▸ member⟩
  exact ⟨kept', fun other _ => moved other, onward.trans (moved client), returned⟩

/-- The counter advances to a number that is then in the client's hand. -/
theorem advance_safe (connectorId : String) (state : Store ι) :
    (counting hmac).Safe (serve courier false) client
      (fun result final => ∃ seq, result = .ok seq ∧ (client, connectorId, seq) ∈ final.numbered)
      (advance connectorId) state := by
  refine .bind ((idle_safe (by trivial) state).weaken fun result selected reached => ?_)
  obtain ⟨-, row, rfl⟩ := reached
  refine .bind ((idle_safe (by trivial) selected).weaken fun result timed reached => ?_)
  obtain ⟨-, ts, rfl⟩ := reached
  cases row with
  | none =>
    refine .bind (.perform fun now kept onward unmoved choice reply after answered => ?_)
    have unmoved : now.sequences connectorId = none := unmoved
    simp only [serve, Bool.false_eq_true, ↓reduceIte, unmoved, Option.isSome_none] at answered
    cases answered
    refine ⟨kept.number ?_ ?_, fun other _ => ⟨fun number member => List.mem_cons_of_mem _ member, fun _ member => member⟩,
      _, rfl, List.mem_cons_self⟩
    · rintro ⟨last, stored, -⟩
      rw [unmoved] at stored
      cases stored
    · intro last stored
      rw [unmoved] at stored
      cases stored
  | some lastSequence =>
    refine .bind (.perform fun now kept onward unmoved choice reply after answered => ?_)
    have unmoved : now.sequences connectorId = some lastSequence := unmoved
    simp only [serve, Bool.false_eq_true, ↓reduceIte, unmoved, Option.isSome_some] at answered
    cases answered
    refine ⟨kept.number ?_ ?_, fun other _ => ⟨fun number member => List.mem_cons_of_mem _ member, fun _ member => member⟩,
      _, rfl, List.mem_cons_self⟩
    · rintro ⟨last, stored, within⟩
      rw [unmoved] at stored
      cases stored
      omega
    · intro last stored
      rw [unmoved] at stored
      cases stored
      omega

theorem nextSequence_safe (protocol : FederationProtocol) (connectorId : String) (state : Store ι) :
    (counting hmac).Safe (serve courier false) client
      (fun result final => ∃ seq, result = .ok seq ∧ (client, connectorId, seq) ∈ final.numbered)
      (protocol.nextSequence connectorId) state := by
  refine .bind ((idle_safe (by trivial) state).weaken fun result acquired reached => ?_)
  obtain ⟨-, done, rfl⟩ := reached
  refine .bind (.attempt ((advance_safe connectorId acquired).weaken fun result advanced reached => ?_))
  obtain ⟨seq, rfl, numbered⟩ := reached
  refine .bind ((idle_safe (by trivial) advanced).weaken fun result final reached => ?_)
  obtain ⟨onward, done, rfl⟩ := reached
  exact ⟨seq, rfl, onward.numbered _ numbered⟩

theorem createMessage_safe (protocol : FederationProtocol) (draft : Draft) (state : Store ι) :
    (counting hmac).Safe (serve courier false) client
      (fun result final => ∃ message, result = .ok message ∧
        (client, message.connectorId, message.sequence) ∈ final.numbered ∧
        hmac protocol.key message.signingPayload = message.signature)
      (protocol.createMessage hmac draft) state := by
  refine .bind ((nextSequence_safe protocol draft.connectorId state).weaken fun result numbered reached => ?_)
  obtain ⟨seq, rfl, held⟩ := reached
  refine .bind ((idle_safe (by trivial) numbered).weaken fun result timed reached => ?_)
  obtain ⟨onward, ts, rfl⟩ := reached
  have held := onward.numbered _ held
  refine .bind ((idle_safe (by trivial) timed).weaken fun result final reached => ?_)
  obtain ⟨onward, mid, rfl⟩ := reached
  exact ⟨_, rfl, onward.numbered _ held, rfl⟩

theorem send_counted (protocol : FederationProtocol) (draft : Draft) (state : Store ι) :
    (counting hmac).Safe (serve courier false) client (fun _ _ => True) (protocol.send hmac draft) state := by
  refine .bind (.attempt ((createMessage_safe protocol draft state).weaken fun result final reached => ?_))
  obtain ⟨message, rfl, held, signed⟩ := reached
  refine .perform fun now kept onward _ choice reply after answered => ?_
  cases answered
  refine ⟨kept.create (onward.numbered _ held) signed, fun other different => ⟨fun number member => ?_, fun _ member => member⟩,
    trivial⟩
  exact (List.mem_erase_of_ne (by simp [different])).mpr member

/-- A delivery is verified, found new, and accepted. -/
theorem deliver_counted (protocol : FederationProtocol) (state : Store ι) :
    (counting hmac).Safe (serve courier false) client (fun _ _ => True) (protocol.deliver hmac) state := by
  refine .bind (.perform fun now kept onward _ choice reply after answered => ?_)
  obtain ⟨store, flown, same⟩ := Option.map_eq_some_iff.mp answered
  cases same
  unfold courier at flown
  split at flown
  case isFalse => cases flown
  next flying =>
  cases flown
  have verified := kept.signed _ flying
  refine ⟨kept.arrive flying, fun other _ => ⟨fun _ member => member, fun _ member => List.mem_cons_of_mem _ member⟩, ?_⟩
  refine .bind (.attempt (.bind (.ofExcept ?_)))
  simp only [verifyOrRaise, verifyMessage, sign, verified, beq_self_eq_true, Bool.not_true, Bool.false_eq_true, ↓reduceIte]
  refine .bind ((idle_safe (by trivial) _).weaken fun result timed reached => ?_)
  obtain ⟨onward, seenAt, rfl⟩ := reached
  have held : (client, choice.message) ∈ timed.arrived := onward.arrived _ List.mem_cons_self
  refine .tryCatch (.bind (.perform fun now kept onward _ choice' reply after answered => ?_))
  have held := onward.arrived _ held
  have absent : choice.message.triple ∉ now.seen.map SeenMessage.triple :=
    kept.unseen _ (List.mem_append_right _ (List.mem_map_of_mem held))
  rw [serve, if_neg Bool.false_ne_true] at answered
  change (if choice.message.triple ∈ now.seen.map SeenMessage.triple then _ else _) = _ at answered
  rw [if_neg absent] at answered
  cases answered
  refine ⟨kept.enter held rfl, fun other different => ⟨fun _ member => member, fun message member => ?_⟩, ?_⟩
  · exact List.mem_filter.mpr ⟨member, by simpa using different⟩
  refine .perform fun now kept onward _ choice reply after answered => ?_
  cases answered
  exact ⟨kept.aside, fun other _ => ⟨fun _ member => member, fun _ member => member⟩, trivial⟩

theorem Client.counted {program : Program Unit} (isClient : Client hmac program) (state : Store ι) :
    (counting hmac).Safe (serve courier false) client (fun _ _ => True) program state := by
  induction isClient generalizing state with
  | done => trivial
  | send protocol draft next each ih =>
    exact .bind (.attempt ((send_counted protocol draft state).weaken fun result final _ => ih result final))
  | deliver protocol next each ih =>
    exact .bind (.attempt ((deliver_counted protocol state).weaken fun result final _ => ih result final))

/-- As long as every counter is written only while it is what its call has read,
no `create_message` fails, no two messages of a connector share a number, and
no delivery is refused. -/
theorem messages_never_replays {programs : ι → Program Unit} (clients : ∀ client, Client hmac (programs client))
    {first : Store ι} (settled : Settled first) {world : Interleaved Request Reply Raised (Store ι) ι}
    (reached : Interleaved.Reaches (serve courier false) CounterUnmoved ⟨first, programs⟩ world) :
    world.state.failed = [] ∧ world.state.rejected = [] ∧
      world.state.created.Pairwise fun entry other => entry.2.connectorId = other.2.connectorId →
        entry.2.senderOrgId = other.2.senderOrgId → entry.2.sequence ≠ other.2.sequence := by
  have kept : Counted hmac world.state :=
    (Interleaved.Reaches.safe (counting hmac) reached (fun _ => .refl) (fun _ _ _ _ => .trans)
      settled.counted fun client => (clients client).counted first).1
  refine ⟨kept.unfailing, kept.accepting, ?_⟩
  have distinct := (List.nodup_append.mp kept.distinct).1
  exact (List.pairwise_map.mp distinct).imp fun different connector _ number => different (Prod.ext connector number)

end

section Sample

/-- A process with an instance and a lock of its own. -/
def process (client : Bool) : FederationProtocol := ⟨"key", if client then 1 else 0⟩

/-- Each process sends one heartbeat and then accepts one message. -/
def sendAndDeliver (client : Bool) : Program Unit :=
  ((process client).send labelled (heartbeat "a" "b")).attempt.bind fun _ =>
    ((process client).deliver labelled).attempt.bind fun _ => .pure ()

theorem sendAndDeliver_clients (client : Bool) : Client labelled (sendAndDeliver client) :=
  .send _ _ _ fun _ => .deliver _ _ fun _ => .done

/-- Three messages have been sent before. -/
def counted : Store Bool := { empty with sequences := fun connectorId => if connectorId = "partner" then some 3 else none }

theorem counted_settled : Settled counted := by
  refine ⟨rfl, rfl, rfl, rfl, rfl, rfl, ?_⟩
  intro row member
  cases member

/-- The message of a process, under the number it was given. -/
private def numberedMessage (client : Bool) (sequence : Int) : FederationMessage :=
  let unsigned : FederationMessage :=
    ⟨(ScopedId.repeated (if client then 1 else 0)).text, "a", "b", "partner", "heartbeat", .obj [], .utc noon, sequence, "", emptyPayload_finite⟩
  { unsigned with signature := labelled "key" unsigned.signingPayload }

private def moment (client : Bool) (message : FederationMessage) : Bool × Choice :=
  (client, ⟨none, noon, .repeated (if client then 1 else 0), message⟩)

private def turns (client : Bool) (count : Nat) (sequence : Int) : List (Bool × Choice) :=
  List.replicate count (moment client (numberedMessage client sequence))

private theorem interleaved_runs :
    ((Interleaved.run (serve courier false) (fun _ _ _ => True) ⟨counted, sendAndDeliver⟩
      (turns false 2 4 ++ turns true 8 4 ++ turns false 6 4 ++ turns false 4 4 ++ turns true 4 4)).map fun world =>
        (world.state.created.map fun entry => entry.2.sequence, world.state.rejected.length)) = some ([4, 4], 1) := by
  decide +kernel

/-- Two processes read the counter before either writes it. -/
theorem honest_message_rejected : ¬∀ (programs : Bool → Program Unit) (first : Store Bool)
    (world : Interleaved Request Reply Raised (Store Bool) Bool), (∀ client, Client labelled (programs client)) →
      Settled first → Interleaved.Reaches (serve courier false) (fun _ _ _ => True) ⟨first, programs⟩ world →
      world.state.rejected = [] := by
  intro claim
  obtain ⟨world, ran, final⟩ := Option.map_eq_some_iff.mp interleaved_runs
  have none := claim sendAndDeliver counted world sendAndDeliver_clients counted_settled (Interleaved.run_reaches .start ran)
  have one := (Prod.mk.inj final).2
  rw [none] at one
  cases one

instance (client : ι) (store : Store ι) (request : Request) : Decidable (CounterUnmoved client store request) := by
  unfold CounterUnmoved
  split <;> infer_instance

private theorem sequential_runs :
    ((Interleaved.run (serve courier false) CounterUnmoved ⟨counted, sendAndDeliver⟩
      (turns false 8 4 ++ turns true 8 5 ++ turns false 4 4 ++ turns true 4 5)).map fun world =>
        (world.state.created.map fun entry => entry.2.sequence, world.state.accepted.length)) = some ([5, 4], 2) := by
  decide +kernel

theorem messages_never_replays_sequential :
    ∃ world, Interleaved.Reaches (serve courier false) CounterUnmoved ⟨counted, sendAndDeliver⟩ world ∧
      world.state.failed = [] ∧ world.state.rejected = [] ∧
      world.state.created.Pairwise fun entry other => entry.2.connectorId = other.2.connectorId →
        entry.2.senderOrgId = other.2.senderOrgId → entry.2.sequence ≠ other.2.sequence := by
  obtain ⟨world, ran, -⟩ := Option.map_eq_some_iff.mp sequential_runs
  have reached := Interleaved.run_reaches .start ran
  exact ⟨world, reached, messages_never_replays sendAndDeliver_clients counted_settled reached⟩

end Sample

end PyScoped.Legacy.FederationProtocol
