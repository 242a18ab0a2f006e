import PyScoped.Foundation.Fields
import PyScoped.Legacy.Federation

/-! What a verified signature says about a message. The signed text gives back
all fields of a message without bars in its names, and the ledger admits a
message once. -/

namespace PyScoped.Legacy
open Foundation

variable {message : FederationMessage}

namespace FederationMessage

/-- No bar in the identifier, the organisations, the connector and the type. -/
structure Plain (message : FederationMessage) : Prop where
  id : '|' ∉ message.id.toList
  senderOrgId : '|' ∉ message.senderOrgId.toList
  receiverOrgId : '|' ∉ message.receiverOrgId.toList
  connectorId : '|' ∉ message.connectorId.toList
  messageType : '|' ∉ message.messageType.toList

/-- The fields in front of the payload. -/
def header (message : FederationMessage) : List Char :=
  Fields.join '|' [message.id.toList, message.senderOrgId.toList, message.receiverOrgId.toList, message.connectorId.toList]
    message.messageType.toList

theorem signingPayload_toList (message : FederationMessage) : message.signingPayload.toList =
    ((message.header ++ '|' :: message.payload.dumpsSpaced) ++ '|' :: message.timestamp.isoformat) ++
      '|' :: message.sequence.repr.toList := by
  simp [signingPayload, header, Fields.join]

private theorem sequence_plain (sequence : Int) : '|' ∉ sequence.repr.toList := by
  intro member
  exact absurd (Json.int_numeric sequence '|' member).1 (by decide)

private theorem last_unique {first second rest other : List Char} (plain : '|' ∉ rest) (plain' : '|' ∉ other)
    (same : first ++ '|' :: rest = second ++ '|' :: other) : first = second ∧ rest = other := by
  have mirrored := congrArg List.reverse same
  simp only [List.reverse_append, List.reverse_cons, List.append_assoc, List.cons_append, List.nil_append] at mirrored
  obtain ⟨tails, heads⟩ := Fields.field_unique_of_not_mem (by simpa using plain) (by simpa using plain') mirrored
  exact ⟨List.reverse_inj.mp heads, List.reverse_inj.mp tails⟩

private theorem header_count (message : FederationMessage) : message.header.count '|' =
    message.id.toList.count '|' + message.senderOrgId.toList.count '|' + message.receiverOrgId.toList.count '|' +
      message.connectorId.toList.count '|' + message.messageType.toList.count '|' + 4 := by
  simp only [header, Fields.join, List.count_append, List.count_cons_self]
  omega

theorem Plain.header_count (plain : message.Plain) : message.header.count '|' = 4 := by
  rw [FederationMessage.header_count, List.count_eq_zero.mpr plain.id, List.count_eq_zero.mpr plain.senderOrgId,
    List.count_eq_zero.mpr plain.receiverOrgId, List.count_eq_zero.mpr plain.connectorId,
    List.count_eq_zero.mpr plain.messageType]

/-- The header of a plain message ends where its payload begins, whatever the
other message puts into its own header: a bar further on stands in a literal. -/
private theorem Plain.header_unique {other : FederationMessage} (plain : message.Plain)
    (same : other.header ++ '|' :: other.payload.dumpsSpaced = message.header ++ '|' :: message.payload.dumpsSpaced) :
    other.header = message.header ∧ other.payload.dumpsSpaced = message.payload.dumpsSpaced := by
  rcases Fields.split_append same with equal | ⟨extra, longer⟩ | ⟨extra, longer⟩
  · exact equal
  · have count := plain.header_count
    rw [longer, List.count_append, List.count_cons_self, FederationMessage.header_count] at count
    omega
  · rw [longer, List.append_assoc, List.cons_append] at same
    have tail := (List.cons.inj (List.append_cancel_left same)).2
    exact absurd tail.symm (Json.no_tail_after_bar _ _ _)

theorem Plain.same_of_signingPayload {other : FederationMessage} (plain : message.Plain)
    (same : other.signingPayload = message.signingPayload) (signature : other.signature = message.signature) :
    other.Same message := by
  have text := congrArg String.toList same
  rw [signingPayload_toList, signingPayload_toList] at text
  obtain ⟨text, sequence⟩ := last_unique (sequence_plain _) (sequence_plain _) text
  obtain ⟨text, timestamp⟩ := last_unique (Timestamp.isoformat_plain _) (Timestamp.isoformat_plain _) text
  obtain ⟨headers, payload⟩ := plain.header_unique text
  have counts := other.header_count
  rw [headers, plain.header_count] at counts
  obtain ⟨fields, messageType⟩ := Fields.join_inj '|' (by
    simp only [List.forall₂_cons, List.forall₂_nil_left_iff, and_true, List.count_eq_zero.mpr plain.id,
      List.count_eq_zero.mpr plain.senderOrgId, List.count_eq_zero.mpr plain.receiverOrgId,
      List.count_eq_zero.mpr plain.connectorId]
    omega) headers
  simp only [List.cons.injEq, String.toList_inj, and_true] at fields messageType
  obtain ⟨id, senderOrgId, receiverOrgId, connectorId⟩ := fields
  exact ⟨id, senderOrgId, receiverOrgId, connectorId, messageType,
    Json.dumpsSpaced_inj other.wellFormed message.wellFormed payload, Timestamp.isoformat_inj timestamp,
    Int.repr_injective (String.toList_inj.mp sequence), signature⟩

end FederationMessage

namespace FederationProtocol

variable {ι : Type} {hmac : String → String → String} {faulty : Bool} {client : ι}

/-- The messages that calls of `create_message` have returned carry no bar in
their organisations, connector and type. -/
def PlainNames (_ : ι) (_ : Store ι) : Request → Prop
  | .created _ message => '|' ∉ message.senderOrgId.toList ∧ '|' ∉ message.receiverOrgId.toList ∧
      '|' ∉ message.connectorId.toList ∧ '|' ∉ message.messageType.toList
  | _ => True

/-- What is accepted was created, and has its own row of the ledger. -/
structure Genuine (hmac : String → String → String) (store : Store ι) : Prop where
  plain : ∀ entry ∈ store.created, entry.2.Plain
  signed : ∀ entry ∈ store.created, hmac entry.1 entry.2.signingPayload = entry.2.signature
  accepted : ∀ message ∈ store.accepted, ∃ entry ∈ store.created, message.Same entry.2
  entered : ∀ key ∈ store.accepted.map FederationMessage.triple ++ store.marked.map (·.2.triple),
    key ∈ store.seen.map SeenMessage.triple
  once : (store.accepted.map FederationMessage.triple ++ store.marked.map (·.2.triple)).Nodup

/-- What a client relies on: messages stay created, and its ledger row stays its own. -/
structure Retained (client : ι) (before after : Store ι) : Prop where
  created : ∀ entry ∈ before.created, entry ∈ after.created
  marked : ∀ row, (client, row) ∈ before.marked → (client, row) ∈ after.marked

theorem Retained.refl (store : Store ι) : Retained client store store := ⟨fun _ member => member, fun _ member => member⟩

theorem Retained.trans {first second third : Store ι} (one : Retained client first second)
    (two : Retained client second third) : Retained client first third :=
  ⟨fun entry member => two.created entry (one.created entry member), fun row member => two.marked row (one.marked row member)⟩

def authenticity (hmac : String → String → String) : Contract Request (Store ι) ι where
  kept := Genuine hmac
  rely := Retained
  allowed := PlainNames

/-- Statements that leave messages and ledger alone. -/
def Request.Quiet : Request → Prop
  | .insertSeen _ => False
  | .created _ _ => False
  | .accepted _ => False
  | _ => True

theorem Genuine.same {store after : Store ι} (genuine : Genuine hmac store) (created : after.created = store.created)
    (accepted : after.accepted = store.accepted) (marked : after.marked = store.marked) (seen : after.seen = store.seen) :
    Genuine hmac after := by
  refine ⟨?_, ?_, ?_, ?_, ?_⟩
  · simpa only [created] using genuine.plain
  · simpa only [created] using genuine.signed
  · simpa only [created, accepted] using genuine.accepted
  · simpa only [accepted, marked, seen] using genuine.entered
  · simpa only [accepted, marked] using genuine.once

theorem Genuine.marks {store : Store ι} (genuine : Genuine hmac store) {row : SeenMessage}
    (absent : row.triple ∉ store.seen.map SeenMessage.triple) {arrived : List (ι × FederationMessage)} :
    Genuine hmac { store with seen := row :: store.seen, arrived := arrived, marked := (client, row) :: store.marked } := by
  refine ⟨genuine.plain, genuine.signed, genuine.accepted, ?_, ?_⟩
  · intro key member
    rcases List.mem_append.mp member with member | member
    · exact List.mem_cons_of_mem _ (genuine.entered key (List.mem_append_left _ member))
    · rcases List.mem_cons.mp member with rfl | member
      · exact List.mem_cons_self
      · exact List.mem_cons_of_mem _ (genuine.entered key (List.mem_append_right _ member))
  · have fresh : row.triple ∉ store.accepted.map FederationMessage.triple ++ store.marked.map (·.2.triple) :=
      fun member => absent (genuine.entered _ member)
    exact (List.perm_middle.nodup_iff).mpr (List.nodup_cons.mpr ⟨fresh, genuine.once⟩)

section

variable [DecidableEq ι]

private theorem serve_quiet {request : Request} (quiet : request.Quiet) {choice : Choice} {store after : Store ι}
    {reply : Except Raised (Reply request)}
    (answered : serve (adversary hmac) faulty client choice store request = some (reply, after)) :
    after.created = store.created ∧ after.accepted = store.accepted ∧ after.marked = store.marked ∧
      after.seen = store.seen := by
  unfold serve at answered
  split at answered
  · cases answered
    exact ⟨rfl, rfl, rfl, rfl⟩
  cases request with
  | insertSeen row => exact quiet.elim
  | created key message => exact quiet.elim
  | accepted message => exact quiet.elim
  | receive key =>
    obtain ⟨store', arrived, same⟩ := Option.map_eq_some_iff.mp answered
    cases same
    unfold adversary at arrived
    split at arrived <;> cases arrived
    exact ⟨rfl, rfl, rfl, rfl⟩
  | acquire | insertSequence | updateSequence =>
    dsimp only at answered
    split at answered <;> cases answered <;> exact ⟨rfl, rfl, rfl, rfl⟩
  | release | selectSequence | now | generateId | failed | rejected =>
    cases answered
    exact ⟨rfl, rfl, rfl, rfl⟩

theorem quiet_safe {α : Type} (property : α → Prop) {program : Program α} {state : Store ι}
    (quiet : program.Only Request.Quiet) (returns : program.Returns property) :
    (authenticity hmac).Safe (serve (adversary hmac) faulty) client
      (fun result final => Retained client state final ∧ ∀ value, result = .ok value → property value) program state := by
  refine .only .refl (fun _ _ _ => .trans) (fun request choice now reply after quiet kept _ answered => ?_) quiet returns
  obtain ⟨created, accepted, marked, seen⟩ := serve_quiet quiet answered
  exact ⟨kept.same created accepted marked seen, fun other =>
    ⟨fun entry member => created ▸ member, fun row member => marked ▸ member⟩⟩

theorem createMessage_quiet (protocol : FederationProtocol) (draft : Draft) :
    (protocol.createMessage hmac draft).Only Request.Quiet := by
  refine .bind (.bind (.perform trivial) fun _ => .bind (.attempt ?_) fun result =>
    .bind (.perform trivial) fun _ => .ofExcept result) fun seq =>
    .bind (.perform trivial) fun ts => .bind (.perform trivial) fun mid => trivial
  refine .bind (.perform trivial) fun row => .bind (.perform trivial) fun ts => ?_
  cases row with
  | none => exact .bind (.perform trivial) fun _ => trivial
  | some lastSequence => exact .bind (.perform trivial) fun _ => trivial

private theorem identifier_plain (id : ScopedId) : '|' ∉ id.text.toList := by
  intro member
  rcases id.hex _ member with digit | letter
  · exact absurd digit (by decide)
  · exact absurd letter (by decide)

theorem createMessage_returns (protocol : FederationProtocol) (draft : Draft) :
    (protocol.createMessage hmac draft).Returns fun message =>
      '|' ∉ message.id.toList ∧ hmac protocol.key message.signingPayload = message.signature := by
  refine .bind fun seq => .bind fun ts => .bind fun mid => ?_
  exact ⟨identifier_plain mid, rfl⟩

/-- The ledger takes a row once, and the client that wrote it knows it. -/
theorem recordSeen_safe (message : FederationMessage) (state : Store ι) :
    (authenticity hmac).Safe (serve (adversary hmac) faulty) client
      (fun result final => Retained client state final ∧
        (result = .ok () → ∃ row, (client, row) ∈ final.marked ∧ row.triple = message.triple))
      (recordSeen message) state := by
  refine .bind ((quiet_safe (fun _ => True) (.perform (by trivial)) (by intro reply; cases reply <;> trivial)).weaken
    fun result timed moved => ?_)
  cases result with
  | error error => exact ⟨moved.1, fun raised => by cases raised⟩
  | ok seenAt =>
  refine .tryCatch (.bind (.perform fun now kept onward _ choice reply after answered => ?_))
  have onward := moved.1.trans onward
  unfold serve at answered
  split at answered
  · cases answered
    refine ⟨kept, fun _ _ => .refl _, ?_⟩
    exact ⟨onward, fun raised => by cases raised⟩
  dsimp only at answered
  split at answered
  · cases answered
    refine ⟨kept, fun _ _ => .refl _, ?_⟩
    exact ⟨onward, fun raised => by cases raised⟩
  next absent =>
    cases answered
    refine ⟨kept.marks absent, fun other _ => ⟨fun _ member => member, fun row member => List.mem_cons_of_mem _ member⟩, ?_⟩
    exact ⟨onward.trans ⟨fun _ member => member, fun row member => List.mem_cons_of_mem _ member⟩,
      fun _ => ⟨_, List.mem_cons_self, rfl⟩⟩

private theorem rejected_safe (message : FederationMessage) (error : Raised) (state : Store ι) :
    (authenticity hmac).Safe (serve (adversary hmac) faulty) client (fun _ _ => True)
      (Prog.perform (Request.rejected message error)) state :=
  (quiet_safe (fun _ => True) (.perform (by trivial))
    (by intro reply; cases reply <;> trivial)).weaken fun _ _ _ => trivial

/-- The return of a call whose row is still its own. -/
theorem accepted_safe {entry : String × FederationMessage} {row : SeenMessage}
    {state : Store ι} (created : entry ∈ state.created) (same : message.Same entry.2)
    (marked : (client, row) ∈ state.marked) (key : row.triple = message.triple) :
    (authenticity hmac).Safe (serve (adversary hmac) faulty) client (fun _ _ => True)
      (Prog.perform (Request.accepted message)) state := by
  refine .perform fun now kept onward _ choice reply after answered => ?_
  have created := onward.created entry created
  have marked := onward.marked row marked
  unfold serve at answered
  split at answered
  · cases answered
    exact ⟨kept, fun _ _ => .refl _, trivial⟩
  cases answered
  obtain ⟨distinct, owned, apart⟩ := List.nodup_append.mp kept.once
  refine ⟨⟨kept.plain, kept.signed, ?_, ?_, ?_⟩, ?_, trivial⟩
  · intro other member
    rcases List.mem_cons.mp member with rfl | member
    · exact ⟨entry, created, same⟩
    · exact kept.accepted other member
  · intro other member
    rcases List.mem_append.mp member with member | member
    · rcases List.mem_cons.mp member with rfl | member
      · rw [← key]
        exact kept.entered _ (List.mem_append_right _ (List.mem_map_of_mem marked))
      · exact kept.entered _ (List.mem_append_left _ member)
    · refine kept.entered _ (List.mem_append_right _ ?_)
      exact List.map_subset _ (List.filter_subset_self _) member
  · refine List.nodup_append.mpr ⟨List.nodup_cons.mpr ⟨?_, distinct⟩, ?_, ?_⟩
    · rw [← key]
      exact fun member => apart _ member _ (List.mem_map_of_mem marked) rfl
    · exact owned.sublist (List.filter_sublist.map _)
    · intro one member two other equal
      obtain ⟨mark, kept', rfl⟩ := List.mem_map.mp other
      obtain ⟨mine, foreign⟩ := List.mem_filter.mp kept'
      rcases List.mem_cons.mp member with rfl | member
      · -- two marks with one key are one mark, and this one is the client's own
        have same := List.inj_on_of_nodup_map owned marked mine (key.trans equal)
        rw [← same] at foreign
        simp at foreign
      · exact apart _ member _ (List.mem_map_of_mem mine) equal
  · intro other different
    exact ⟨fun _ member => member, fun row member => List.mem_filter.mpr ⟨member, by simpa using different⟩⟩

/-- A message that has just arrived is one that was created, if it verifies. -/
theorem deliver_safe (protocol : FederationProtocol) (state : Store ι) :
    (authenticity hmac).Safe (serve (adversary hmac) faulty) client (fun _ _ => True) (protocol.deliver hmac) state := by
  refine .bind (.perform fun now kept onward _ choice reply after answered => ?_)
  unfold serve at answered
  split at answered
  · cases answered
    exact ⟨kept, fun _ _ => .refl _, trivial⟩
  obtain ⟨store, arrived, same⟩ := Option.map_eq_some_iff.mp answered
  cases same
  unfold adversary at arrived
  split at arrived
  case isFalse => cases arrived
  next genuine =>
  cases arrived
  refine ⟨kept.same rfl rfl rfl rfl, fun _ _ => ⟨fun _ member => member, fun _ member => member⟩, ?_⟩
  refine .bind (.attempt (.bind (.ofExcept ?_)))
  unfold verifyOrRaise verifyMessage sign
  by_cases verified : hmac protocol.key choice.message.signingPayload = choice.message.signature
  · -- it verifies, so its text was signed, and the text determines the message
    obtain ⟨entry, created, sameKey, text⟩ := genuine verified
    have signature : choice.message.signature = entry.2.signature := by
      rw [← verified, ← kept.signed entry created, sameKey, text]
    have same : choice.message.Same entry.2 := (kept.plain entry created).same_of_signingPayload text.symm signature
    simp only [verified, beq_self_eq_true, Bool.not_true, Bool.false_eq_true, ↓reduceIte]
    refine (recordSeen_safe choice.message _).weaken fun result final recorded => ?_
    cases result with
    | error error => exact rejected_safe _ _ _
    | ok done =>
      obtain ⟨row, marked, key⟩ := recorded.2 rfl
      exact accepted_safe (recorded.1.created entry created) same marked key
  · simp only [beq_eq_false_iff_ne.mpr verified, Bool.not_false, ↓reduceIte]
    exact rejected_safe _ _ _

/-- A message that `create_message` returns is plain and carries its signature. -/
theorem send_safe (protocol : FederationProtocol) (draft : Draft) (state : Store ι) :
    (authenticity hmac).Safe (serve (adversary hmac) faulty) client (fun _ _ => True) (protocol.send hmac draft) state := by
  refine .bind (.attempt ((quiet_safe _ (createMessage_quiet protocol draft) (createMessage_returns protocol draft)).weaken
    fun result final made => ?_))
  cases result with
  | error error =>
    refine (quiet_safe (fun _ => True) (.perform (by trivial))
      (by intro reply; cases reply <;> trivial)).weaken fun _ _ _ => trivial
  | ok message =>
  obtain ⟨id, signed⟩ := made.2 message rfl
  refine .perform fun now kept onward names choice reply after answered => ?_
  unfold serve at answered
  split at answered
  · cases answered
    exact ⟨kept, fun _ _ => .refl _, trivial⟩
  cases answered
  refine ⟨⟨?_, ?_, ?_, kept.entered, kept.once⟩, ?_, trivial⟩
  · intro entry member
    rcases List.mem_cons.mp member with rfl | member
    · exact ⟨id, names.1, names.2.1, names.2.2.1, names.2.2.2⟩
    · exact kept.plain entry member
  · intro entry member
    rcases List.mem_cons.mp member with rfl | member
    · exact signed
    · exact kept.signed entry member
  · intro message member
    obtain ⟨entry, created, same⟩ := kept.accepted message member
    exact ⟨entry, List.mem_cons_of_mem _ created, same⟩
  · exact fun other _ => ⟨fun entry member => List.mem_cons_of_mem _ member, fun row member => member⟩

theorem Client.authentic {program : Program Unit} (isClient : Client hmac program) (state : Store ι) :
    (authenticity hmac).Safe (serve (adversary hmac) faulty) client (fun _ _ => True) program state := by
  induction isClient generalizing state with
  | done => trivial
  | send protocol draft next each ih =>
    exact .bind (.attempt ((send_safe protocol draft state).weaken fun result final _ => ih result final))
  | deliver protocol next each ih =>
    exact .bind (.attempt ((deliver_safe protocol state).weaken fun result final _ => ih result final))

/-- Against an adversary who cannot forge, a message that is accepted equals a
message that was created, and no created message is accepted twice, as long as
the messages that are created have no bar in their names. -/
theorem accepted_genuine_once {programs : ι → Program Unit} (clients : ∀ client, Client hmac (programs client))
    {first : Store ι} (created : first.created = []) (accepted : first.accepted = []) (marked : first.marked = [])
    {world : Interleaved Request Reply Raised (Store ι) ι}
    (reached : Interleaved.Reaches (serve (adversary hmac) faulty) PlainNames ⟨first, programs⟩ world) :
    (∀ message ∈ world.state.accepted, ∃ entry ∈ world.state.created, message.Same entry.2) ∧
      ∀ entry ∈ world.state.created, world.state.accepted.Pairwise fun message other =>
        ¬(message.Same entry.2 ∧ other.Same entry.2) := by
  have kept : Genuine hmac world.state := by
    refine (Interleaved.Reaches.safe (authenticity hmac) reached (fun _ => .refl) (fun _ _ _ _ => .trans) ?_
      fun client => (clients client).authentic first).1
    refine ⟨?_, ?_, ?_, ?_, ?_⟩ <;> simp [created, accepted, marked]
  refine ⟨kept.accepted, fun entry _ => ?_⟩
  have distinct := (List.nodup_append.mp kept.once).1
  refine (List.pairwise_map.mp distinct).imp fun different both => different ?_
  obtain ⟨one, two⟩ := both
  simp only [FederationMessage.triple, one.connectorId, one.senderOrgId, one.sequence, two.connectorId,
    two.senderOrgId, two.sequence]

end

section Sample

/-- The message that a first heartbeat becomes. -/
def sent (senderOrgId receiverOrgId signature : String) : FederationMessage :=
  ⟨firstId.text, senderOrgId, receiverOrgId, "partner", "heartbeat", .obj [], .utc noon, 1, signature, emptyPayload_finite⟩

def signedAs (senderOrgId receiverOrgId : String) : String :=
  labelled "key" (sent senderOrgId receiverOrgId "").signingPayload

/-- A sender of one heartbeat, and a receiver of two messages. -/
def exchange (senderOrgId receiverOrgId : String) (client : Bool) : Program Unit :=
  if client then
    ((channel.deliver labelled).attempt.bind fun _ => (channel.deliver labelled).attempt.bind fun _ => .pure ())
  else (channel.send labelled (heartbeat senderOrgId receiverOrgId)).attempt.bind fun _ => .pure ()

theorem exchange_clients (senderOrgId receiverOrgId : String) (client : Bool) :
    Client labelled (exchange senderOrgId receiverOrgId client) := by
  cases client
  · exact .send channel _ _ fun _ => .done
  · exact .deliver channel _ fun _ => .deliver channel _ fun _ => .done

private def turn (client : Bool) (message : FederationMessage) : Bool × Choice := (client, ⟨none, noon, firstId, message⟩)

/-- The heartbeat is created, then the two messages arrive and are accepted. -/
private def arriving (first second : FederationMessage) : List (Bool × Choice) :=
  List.replicate 8 (turn false first) ++ List.replicate 4 (turn true first) ++ List.replicate 4 (turn true second)

private theorem regrouped_runs :
    ((Interleaved.run (serve (adversary labelled) false) (fun _ _ _ => True) ⟨empty, exchange "a|b" "c"⟩
      (arriving (sent "a" "b|c" (signedAs "a|b" "c")) (sent "a|b" "c" (signedAs "a|b" "c")))).map fun world =>
        (world.state.accepted, world.state.created)) =
      some ([sent "a|b" "c" (signedAs "a|b" "c"), sent "a" "b|c" (signedAs "a|b" "c")],
        [("key", sent "a|b" "c" (signedAs "a|b" "c"))]) := by
  decide +kernel

/-- A bar in the sender's name lets the same signature stand for another sender. -/
theorem forged_message_accepted : ¬∀ (programs : Bool → Program Unit) (first : Store Bool)
    (world : Interleaved Request Reply Raised (Store Bool) Bool), (∀ client, Client labelled (programs client)) →
      first.created = [] → first.accepted = [] → first.marked = [] →
      Interleaved.Reaches (serve (adversary labelled) false) (fun _ _ _ => True) ⟨first, programs⟩ world →
      ∀ message ∈ world.state.accepted, ∃ entry ∈ world.state.created, message.Same entry.2 := by
  intro claim
  obtain ⟨world, ran, final⟩ := Option.map_eq_some_iff.mp regrouped_runs
  obtain ⟨accepted, created⟩ := Prod.mk.inj final
  obtain ⟨entry, member, same⟩ := claim (exchange "a|b" "c") empty world (exchange_clients "a|b" "c") rfl rfl rfl
    (Interleaved.run_reaches .start ran) (sent "a" "b|c" (signedAs "a|b" "c"))
    (by rw [accepted]; exact List.mem_cons_of_mem _ List.mem_cons_self)
  rw [created, List.mem_singleton] at member
  subst member
  exact absurd same.senderOrgId (by decide)

instance (client : ι) (store : Store ι) (request : Request) : Decidable (PlainNames client store request) := by
  unfold PlainNames
  split <;> infer_instance

private theorem repeated_runs :
    ((Interleaved.run (serve (adversary labelled) false) PlainNames ⟨empty, exchange "a" "b"⟩
      (arriving (sent "a" "b" (signedAs "a" "b")) (sent "a" "b" (signedAs "a" "b")))).map fun world =>
        (world.state.accepted, world.state.rejected.length)) = some ([sent "a" "b" (signedAs "a" "b")], 1) := by
  decide +kernel

theorem accepted_genuine_once_repeated :
    ∃ world, Interleaved.Reaches (serve (adversary labelled) false) PlainNames ⟨empty, exchange "a" "b"⟩ world ∧
      (∀ message ∈ world.state.accepted, ∃ entry ∈ world.state.created, message.Same entry.2) ∧
      ∀ entry ∈ world.state.created, world.state.accepted.Pairwise fun message other =>
        ¬(message.Same entry.2 ∧ other.Same entry.2) := by
  obtain ⟨world, ran, -⟩ := Option.map_eq_some_iff.mp repeated_runs
  have reached := Interleaved.run_reaches .start ran
  exact ⟨world, reached, accepted_genuine_once (exchange_clients "a" "b") rfl rfl rfl reached⟩

end Sample

end FederationProtocol
end PyScoped.Legacy
