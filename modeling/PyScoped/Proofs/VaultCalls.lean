import PyScoped.Proofs.Vault

/-! Calls of the vault that overlap: what they keep, and what an answer comes to,
measured against the state in which its call began. -/

namespace PyScoped.Legacy.Vault
open Foundation

variable {ι : Type} {backend : SecretBackend} {store before after : Store ι}
variable {access : Access} {start : Store ι} {refToken : String}

section Resolving

variable {client : ι} {state : Store ι} (vault : SecretVault)

def SecretPolicy.Admits (policy : SecretPolicy) (field : SecretPolicy → List String) (given : Option String) : Prop :=
  field policy ≠ [] → ∃ wanted ∈ field policy, given = some wanted

/-- All policies for a secret that is in the store. -/
def Attached (store : Store ι) (secretId : String) (policy : SecretPolicy) : Prop :=
  policy ∈ store.policies.list ∧ ∃ secret, store.secrets.find secretId = some secret ∧ policy.targets secretId secret.classification = true

theorem Attached.grown {secretId : String} {policy : SecretPolicy} (attached : Attached before secretId policy)
    (grown : Grown before after) : Attached after secretId policy := by
  obtain ⟨member, secret, found, targets⟩ := attached
  obtain ⟨new, found, became⟩ := grown.secrets secretId secret found
  exact ⟨grown.policies member, new, found, became.classification ▸ targets⟩

theorem getPoliciesForSecret_safe (secretId : String) (state : Store ι) : Safe backend client
    (Ends state fun policies _ => ∀ policy, Attached state secretId policy → policy ∈ policies) (getPoliciesForSecret secretId) state := by
  apply Ends.bind (.refl state) (read_safe (show Request.Reading (.classification secretId) from trivial) state)
  intro row first _ grown told
  have told : row = (first.secrets.find secretId).map Secret.classification := told.2
  cases row with
  | none =>
    refine .ok grown fun policy attached => ?_
    obtain ⟨-, secret, found, -⟩ := attached.grown grown
    rw [found] at told
    cases told
  | some classification =>
    apply (read_safe (show Request.Reading (.policies secretId classification) from trivial) first).weaken
    intro result final listed
    refine ⟨grown.trans listed.1, fun policies same policy attached => ?_⟩
    have rows : policies = final.policiesFor secretId classification := (listed.2 policies same).2
    obtain ⟨member, secret, found, targets⟩ := attached.grown grown
    rw [found] at told
    cases told
    rw [rows]
    exact ((List.perm_insertionSort _ _).mem_iff).mpr (List.mem_filter.mpr ⟨listed.1.policies member, targets⟩)

theorem checkAllowed_safe (field : SecretPolicy → List String) (secretId wanted : String) (state : Store ι) : Safe backend client
    (Ends state fun allowed _ => allowed = true → ∀ policy, Attached state secretId policy → policy.Admits field (some wanted))
    (checkAllowed field secretId wanted) state := by
  apply Ends.bind (.refl state) (getPoliciesForSecret_safe secretId state)
  intro policies final _ grown listed
  refine .ok grown fun allowed policy attached restricted => ?_
  have allows := List.all_eq_true.mp allowed policy (listed policy attached)
  unfold SecretPolicy.allows at allows
  rw [Bool.or_eq_true, List.isEmpty_iff, decide_eq_true_eq] at allows
  exact ⟨wanted, allows.resolve_left restricted, rfl⟩

theorem enforceOnResolve_safe (field : SecretPolicy → List String) (refused key secretId : String) (policies : List SecretPolicy)
    (given : Option String) (listed : ∀ policy, Attached start secretId policy → policy ∈ policies)
    (grown : Grown start state) : Safe backend client
      (Ends start fun _ _ => ∀ policy, Attached start secretId policy → policy.Admits field given)
      (SecretVault.enforceOnResolve field refused key secretId policies given) state := by
  unfold SecretVault.enforceOnResolve
  split
  · dsimp only
    split
    · exact .error grown _
    next wanted =>
      apply Ends.bind grown (checkAllowed_safe field secretId wanted state)
      intro allowed final _ later checked
      split
      next held => exact .ok later fun policy attached => checked held policy (attached.grown grown)
      · exact .error later _
  next unrestricted =>
    refine .ok grown fun policy attached restricted => ?_
    refine absurd (List.any_eq_true.mpr ⟨policy, listed policy attached, ?_⟩) unrestricted
    rw [Bool.not_eq_true', ← Bool.not_eq_true, List.isEmpty_iff]
    exact restricted

/-- A policy that admits an access, by its scope and by its environment. -/
def SecretPolicy.AdmitsAccess (policy : SecretPolicy) (access : Access) : Prop :=
  policy.Admits SecretPolicy.allowedScopes access.scopeId ∧ policy.Admits SecretPolicy.allowedEnvs access.environmentId

theorem enforcePolicies_safe (secretId : String) (access : Access) (state : Store ι) : Safe backend client
    (Ends state fun _ _ => vault.policyManager = true → ∀ policy, Attached state secretId policy → policy.AdmitsAccess access)
    (vault.enforcePolicyRestrictionsOnResolve secretId access) state := by
  unfold SecretVault.enforcePolicyRestrictionsOnResolve
  split
  · apply Ends.bind (.refl state) (getPoliciesForSecret_safe secretId state)
    intro policies first _ grown all
    split
    · apply Contract.Safe.andThen (enforceOnResolve_safe _ _ _ secretId policies access.scopeId all grown)
      · exact fun error final enforced => .error enforced.1 error
      intro _ second admitted
      apply (enforceOnResolve_safe _ _ _ secretId policies access.environmentId all admitted.1).weaken
      intro result final placed
      refine ⟨placed.1, fun value same managed policy attached => ⟨admitted.2 () rfl policy attached, ?_⟩⟩
      exact placed.2 value same policy attached
    next none =>
      refine .ok grown fun managed policy attached => ?_
      have empty : policies = [] := by simpa using none
      have listed := all policy attached
      rw [empty] at listed
      cases listed
  next unmanaged => exact .ok (.refl state) fun managed => absurd managed unmanaged

/-- Why a value could be handed out, from a state before the call on. What changes was
so before, as far as it was there: what has ended meanwhile, had not ended then. -/
structure Entitled (before after : Store ι) (refToken : String) (access : Access) (value : String) (ref : SecretRef) (secret : Secret)
    (written : Written ι) : Prop where
  granted : after.refByToken refToken = some ref
  accessor : ref.grantedTo = access.accessorId
  scope : ref.scopeId = none ∨ access.scopeId = ref.scopeId
  environment : ref.environmentId = none ∨ access.environmentId = ref.environmentId
  refActive : ∀ old, before.refByToken refToken = some old → old.lifecycle = .active ∧ Unexpired old.expiresAt before.clock
  stored : after.secrets.find ref.secretId = some secret
  secretActive : ∀ old, before.secrets.find ref.secretId = some old → old.lifecycle = .active ∧ Unexpired old.expiresAt before.clock
  policies : vault.policyManager = true → ∀ policy, Attached before ref.secretId policy → policy.AdmitsAccess access
  member : written ∈ after.versions.list
  version : written.row.secretId = ref.secretId
  value : written.plaintext = value
  recent : ∀ old, before.secrets.find ref.secretId = some old → old.currentVersion ≤ written.row.version
  current : written.row.version ≤ secret.currentVersion

variable {vault} in
theorem Entitled.later {value : String} {ref : SecretRef} {secret : Secret} {written : Written ι}
    (entitled : Entitled vault store before refToken access value ref secret written) (grown : Grown before after) :
    ∃ ref secret, Entitled vault store after refToken access value ref secret written := by
  obtain ⟨newRef, granted, became⟩ := grown.refs refToken ref entitled.granted
  obtain ⟨newSecret, stored, became'⟩ := grown.secrets ref.secretId secret entitled.stored
  rcases became with rfl | rfl
  · exact ⟨newRef, newSecret, { entitled with
      granted := granted, stored := stored, member := grown.versions entitled.member
      current := Nat.le_trans entitled.current became'.version }⟩
  · exact ⟨ref.revoke, newSecret, ⟨granted, entitled.accessor, entitled.scope, entitled.environment, entitled.refActive, stored,
      entitled.secretActive, entitled.policies, grown.versions entitled.member, entitled.version, entitled.value, entitled.recent,
      Nat.le_trans entitled.current became'.version⟩⟩

variable {vault} in
theorem Entitled.sooner {value : String} {ref : SecretRef} {secret : Secret} {written : Written ι}
    (entitled : Entitled vault before after refToken access value ref secret written) (grown : Grown store before) :
    Entitled vault store after refToken access value ref secret written where
  granted := entitled.granted
  accessor := entitled.accessor
  scope := entitled.scope
  environment := entitled.environment
  refActive := by
    intro old found
    obtain ⟨new, found, became⟩ := grown.refs refToken old found
    obtain ⟨active, unexpired⟩ := entitled.refActive new found
    cases became.active active
    exact ⟨active, unexpired.earlier grown.clock⟩
  stored := entitled.stored
  secretActive := by
    intro old found
    obtain ⟨new, found, became⟩ := grown.secrets ref.secretId old found
    obtain ⟨active, unexpired⟩ := entitled.secretActive new found
    exact ⟨became.active active, became.expiresAt ▸ unexpired.earlier grown.clock⟩
  policies managed policy attached := entitled.policies managed policy (attached.grown grown)
  member := entitled.member
  version := entitled.version
  value := entitled.value
  recent := by
    intro old found
    obtain ⟨new, found, became⟩ := grown.secrets ref.secretId old found
    exact Nat.le_trans became.version (entitled.recent new found)
  current := entitled.current

theorem refusal_none {ref : SecretRef} {now : Moment} (free : ref.refusal now access = none) :
    Unexpired ref.expiresAt now ∧ ref.grantedTo = access.accessorId ∧ (ref.scopeId = none ∨ access.scopeId = ref.scopeId) ∧
      (ref.environmentId = none ∨ access.environmentId = ref.environmentId) := by
  unfold SecretRef.refusal at free
  split at free
  · cases free
  next unexpired =>
    split at free
    · cases free
    next accessor =>
      split at free
      · cases free
      next scope =>
        split at free
        · cases free
        next environment =>
          refine ⟨fun moment expires => ?_, not_not.mp accessor, ?_, ?_⟩
          · rw [expires, Option.any_some, decide_eq_true_eq] at unexpired
            exact Int.not_le.mp unexpired
          · rw [not_and_or, not_not, not_not] at scope
            exact scope
          · rw [not_and_or, not_not, not_not] at environment
            exact environment

theorem reveal_safe {ref : SecretRef} (grown : Grown start state)
    (granted : ∃ later, state.refByToken refToken = some later ∧ ref.Became later) (accessor : ref.grantedTo = access.accessorId)
    (scope : ref.scopeId = none ∨ access.scopeId = ref.scopeId)
    (environment : ref.environmentId = none ∨ access.environmentId = ref.environmentId)
    (refActive : ∀ old, start.refByToken refToken = some old → old.lifecycle = .active ∧ Unexpired old.expiresAt start.clock) :
    Safe backend client (Ends start fun value final => ∃ ref secret written,
      Entitled vault start final refToken access value ref secret written) (vault.reveal ref access) state := by
  apply Ends.bind grown (requireActiveSecret_safe ref.secretId state)
  intro secret first moved toFirst available
  apply Ends.bind toFirst (enforcePolicies_safe vault ref.secretId access first)
  intro _ second after toSecond enforced
  apply Ends.bind toSecond (read_safe (show Request.Reading (.version ref.secretId secret.currentVersion) from trivial) second)
  intro row third later toThird told
  have after := after.trans later
  have told : row = (third.version ref.secretId secret.currentVersion).map Written.row := told.2
  cases row with
  | none => exact .error toThird _
  | some version =>
    obtain ⟨written, found, rfl⟩ := Option.map_eq_some_iff.mp told.symm
    obtain ⟨member, same, number⟩ := version_some found
    apply Ends.bind toThird (read_safe (show Request.Reading (.decrypt written.row.encryptedValue written.row.keyId) from trivial) third)
    intro plaintext fourth later toFourth decrypted
    have member := later.versions member
    have after := after.trans later
    have value : written.plaintext = plaintext := by
      have stored := decrypted.1.decrypts written member
      have answered : backend.decrypt written.row.encryptedValue written.row.keyId = .ok plaintext := decrypted.2
      rw [stored] at answered
      exact Except.ok.inj answered
    have seen := available.sooner grown
    obtain ⟨current, stored, became⟩ := (available.grown after).stored
    have policies (managed : vault.policyManager = true) (policy : SecretPolicy) (attached : Attached start ref.secretId policy) :
        policy.AdmitsAccess access := enforced managed policy (attached.grown toFirst)
    have recent (old : Secret) (found : start.secrets.find ref.secretId = some old) : old.currentVersion ≤ written.row.version :=
      number ▸ (seen.seen old found).1.version
    have entitled : ∃ ref secret written, Entitled vault start fourth refToken access plaintext ref secret written := by
      obtain ⟨now, granted, kind⟩ := granted
      obtain ⟨later, granted, kind'⟩ := (moved.trans after).refs refToken now granted
      rcases kind.trans kind' with rfl | rfl
      all_goals
        exact ⟨_, _, written, granted, accessor, scope, environment, refActive, stored, fun old found => (seen.seen old found).2,
          policies, member, same, value, recent, number ▸ became.version⟩
    have stable (before after : Store ι)
        (entitled : ∃ ref secret written, Entitled vault start before refToken access plaintext ref secret written)
        (grown : Grown before after) : ∃ ref secret written, Entitled vault start after refToken access plaintext ref secret written := by
      obtain ⟨ref, secret, written, entitled⟩ := entitled
      obtain ⟨ref, secret, entitled⟩ := entitled.later grown
      exact ⟨ref, secret, written, entitled⟩
    apply Ends.bind toFourth (quiet_safe (logAccess_only _ _ _ _ _) fourth)
    intro _ fifth later toFifth _
    exact record_safe vault _ plaintext stable toFifth (stable _ _ entitled later)

theorem deny_safe (ref : SecretRef) (access : Access) (result : AccessResult) (error : Raised) {property : String → Store ι → Prop}
    (grown : Grown start state) :
    Safe backend client (Ends start property) (SecretVault.deny ref access result error) state := by
  apply Ends.bind grown (quiet_safe (logAccess_only _ _ _ _ _) state)
  exact fun _ final _ grown _ => .error grown error

theorem resolve_safe (refToken : String) (access : Access) (state : Store ι) : Safe backend client
    (Ends state fun value final => ∃ ref secret written, Entitled vault state final refToken access value ref secret written)
    (vault.resolve refToken access) state := by
  apply Ends.bind (.refl state) (read_safe (show Request.Reading (.refByToken refToken) from trivial) state)
  intro row first _ read told
  have told : row = first.refByToken refToken := told.2
  cases row with
  | none => exact .error read _
  | some ref =>
    show Safe backend client _ (if ref.lifecycle ≠ .active then _ else _) first
    by_cases active : ref.lifecycle = .active
    · rw [if_neg (not_not.mpr active)]
      apply Ends.bind read (read_safe (show Request.Reading .now from trivial) first)
      intro now second later grown asked
      have clock : now = second.clock := asked.2
      cases refusal : ref.refusal now access with
      | some refused => exact deny_safe ref access refused.1 refused.2 grown
      | none =>
        obtain ⟨unexpired, accessor, scope, environment⟩ := refusal_none refusal
        apply reveal_safe vault grown (later.refs refToken ref told.symm) accessor scope environment
        intro old found
        obtain ⟨new, found, became⟩ := read.refs refToken old found
        cases told.trans found
        cases became.active active
        exact ⟨active, unexpired.earlier (clock ▸ grown.clock)⟩
    · rw [if_pos active]
      exact deny_safe ref access _ _ read

end Resolving

variable {answer : Answer ι} {result : Except Raised Outcome}

section Calls

variable {client : ι} {state : Store ι} (vault : SecretVault)

/-- What an answer comes to, of a call that began at `start`. -/
def Behind (start : Store ι) (answer : Answer ι) (final : Store ι) : Prop :=
  answer.Holds final ∧ ∀ refToken access value, answer.call = .resolve refToken access → answer.result = .ok (.value value) →
    ∃ ref secret written, Entitled vault start final refToken access value ref secret written

theorem Answer.holds_error (client : ι) (call : Call) (error : Raised) (store : Store ι) :
    (⟨client, call, .error error⟩ : Answer ι).Holds store := by
  cases call <;> trivial

theorem Behind.error (start final : Store ι) (call : Call) (error : Raised) : Behind vault start ⟨client, call, .error error⟩ final :=
  ⟨Answer.holds_error client call error final, fun _ _ _ _ raised => by cases raised⟩

variable {vault} in
theorem Behind.later (behind : Behind vault store answer before) (grown : Grown before after) :
    Behind vault store answer after := by
  refine ⟨behind.1.grown grown, fun refToken access value asked returned => ?_⟩
  obtain ⟨ref, secret, written, entitled⟩ := behind.2 refToken access value asked returned
  obtain ⟨ref, secret, entitled⟩ := entitled.later grown
  exact ⟨ref, secret, written, entitled⟩

variable {vault} in
theorem Behind.sooner (behind : Behind vault before answer after) (grown : Grown store before) :
    Behind vault store answer after := by
  refine ⟨behind.1, fun refToken access value asked returned => ?_⟩
  obtain ⟨ref, secret, written, entitled⟩ := behind.2 refToken access value asked returned
  exact ⟨ref, secret, written, entitled.sooner grown⟩

theorem program_safe (call : Call) (state : Store ι) : Safe backend client
    (fun result final => Grown state final ∧ Behind vault state ⟨client, call, result⟩ final) (vault.program call) state := by
  -- the outcome of the call is made of what its body returns
  have ends {α : Type} {program : Program α} {property : α → Store ι → Prop} (outcome : α → Outcome)
      (safe : Safe backend client (Ends state property) program state)
      (means : ∀ value final, property value final → Behind vault state ⟨client, call, .ok (outcome value)⟩ final) :
      Safe backend client (fun result final => Grown state final ∧ Behind vault state ⟨client, call, result⟩ final)
        (program.bind fun value => .pure (outcome value)) state := by
    apply Contract.Safe.andThen safe
    · exact fun error final reached => ⟨reached.1, .error vault state final call error⟩
    · exact fun value final reached => ⟨reached.1, means value final (reached.2 value rfl)⟩
  cases call with
  | createSecret name plaintextValue ownerId description classification expiresAt keyId =>
    apply ends (fun created : Secret × SecretVersion => Outcome.created created.1 created.2)
      (createSecret_safe vault name plaintextValue ownerId description classification expiresAt keyId state)
    exact fun created final stands => ⟨stands, fun _ _ _ asked => by cases asked⟩
  | archiveSecret secretId actorId =>
    exact ends (fun _ => .done) (archiveSecret_safe vault secretId actorId state)
      fun _ final inactive => ⟨inactive, fun _ _ _ asked => by cases asked⟩
  | rotate secretId newValue rotatedBy reason keyId =>
    exact ends .rotated (rotate_safe vault secretId newValue rotatedBy reason keyId state)
      fun version final stands => ⟨stands, fun _ _ _ asked => by cases asked⟩
  | grantRef secretId grantedTo grantedBy scopeId environmentId expiresAt =>
    exact ends .granted (quiet_safe (grantRef_only vault secretId grantedTo grantedBy scopeId environmentId expiresAt) state)
      fun _ _ _ => ⟨trivial, fun _ _ _ asked => by cases asked⟩
  | revokeRef refId revokedBy =>
    exact ends (fun _ => .done) (quiet_safe (revokeRef_only vault refId revokedBy) state)
      fun _ _ _ => ⟨trivial, fun _ _ _ asked => by cases asked⟩
  | resolve refToken access =>
    apply ends .value (resolve_safe vault refToken access state)
    intro plaintext final entitled
    refine ⟨trivial, fun refToken access value asked returned => ?_⟩
    cases asked
    cases returned
    exact entitled
  | createPolicy createdBy secretId classification maxAgeSeconds autoRotate allowedScopes allowedEnvs =>
    exact ends .policy
      (quiet_safe (createPolicy_only createdBy secretId classification maxAgeSeconds autoRotate allowedScopes allowedEnvs) state)
      fun _ _ _ => ⟨trivial, fun _ _ _ asked => by cases asked⟩
  | pass now =>
    exact ends (fun _ => .done) (quiet_safe (.perform (show Request.Quiet (.pass now) from trivial)) state) fun _ _ _ => ⟨trivial, fun _ _ _ asked => by cases asked⟩

theorem deliver_kept (kept : Kept backend store) (holds : answer.Holds store) :
    Kept backend { store with answers := answer :: store.answers } ∧ Grown store { store with answers := answer :: store.answers } := by
  have grown : Grown store { store with answers := answer :: store.answers } := { Grown.refl store with }
  refine ⟨⟨kept.positive, kept.decrypts, kept.distinct, kept.numbered, kept.filled, ?_⟩, grown⟩
  exact List.forall_mem_cons.mpr ⟨holds.grown grown, fun other member => (kept.answered other member).grown grown⟩

theorem deliver_serve {own : ι} {call : Call} {choice : Choice} {reply : Except Raised (Reply (.deliver call result))}
    (answered : serve backend own choice before (.deliver call result) = some (reply, after)) :
    after = { before with answers := ⟨own, call, result⟩ :: before.answers } := by
  cases failure : choice.failure <;>
  · simp only [serve, Option.some.injEq, Prod.mk.injEq] at answered
    exact answered.2.symm

theorem deliver_safe {call : Call} (behind : Behind vault store ⟨client, call, result⟩ state) :
    Safe backend client (fun _ final => Grown state final) (Prog.perform (Request.deliver call result)) state := by
  apply Contract.Safe.perform
  intro now kept rely _ choice reply after answered
  have answered : serve backend client choice now (.deliver call result) = some (reply, after) := answered
  obtain rfl := deliver_serve answered
  obtain ⟨kept', grown⟩ := deliver_kept kept (behind.1.grown rely.1)
  exact ⟨kept', fun other _ => guarding_rely backend grown other fun own _ => .beside rfl, rely.1.trans grown⟩

theorem call_safe (call : Call) (state : Store ι) :
    Safe backend client (fun _ final => Grown state final) (vault.call call) state := by
  apply Contract.Safe.bind
  apply Contract.Safe.attempt
  apply (program_safe vault call state).weaken
  intro result mid ended
  apply Contract.Safe.andThen (deliver_safe vault ended.2)
  · exact fun error final grown => ended.1.trans grown
  · exact fun _ final grown => ended.1.trans grown

variable {vault} in
theorem client_safe {program : Program Unit} (runs : vault.Client program) (state : Store ι) :
    Safe backend client (fun _ _ => True) program state := by
  induction runs generalizing state with
  | done => trivial
  | call call next each ih =>
    apply Contract.Safe.andThen (call_safe vault call state)
    · exact fun _ _ _ => trivial
    · exact fun result final _ => ih result final

end Calls

section Runs

variable {vault : SecretVault} {first : Store ι} {programs : ι → Program Unit}
  {world begun ended : Interleaved Request Reply Raised (Store ι) ι}

/-- A vault without secrets. -/
structure Empty (store : Store ι) : Prop where
  secrets : store.secrets.list = []
  versions : store.versions.list = []
  answers : store.answers = []

theorem Empty.kept (empty : Empty store) : Kept backend store where
  positive := by
    intro secretId secret found
    have member := (Rows.find_eq_some.mp found).1
    rw [empty.secrets] at member
    cases member
  decrypts := by
    intro written member
    rw [empty.versions] at member
    cases member
  distinct := by
    rw [empty.versions]
    exact List.nodup_nil
  numbered := by
    intro written member
    rw [empty.versions] at member
    cases member
  filled := by
    intro secretId secret found
    have member := (Rows.find_eq_some.mp found).1
    rw [empty.secrets] at member
    cases member
  answered := by
    intro answer member
    rw [empty.answers] at member
    cases member

theorem run_safe [DecidableEq ι] (empty : Empty first) (clients : ∀ client, vault.Client (programs client))
    (reached : Interleaved.Reaches (serve backend) (fun _ _ _ => True) ⟨first, programs⟩ world) :
    Kept backend world.state ∧ ∀ client, (guarding backend).Safe (serve backend).observed client (fun _ _ => True)
      (world.observed.programs client) world.state := by
  apply Interleaved.Reaches.safe (guarding backend) reached.observed (guarding_refl backend) (guarding_trans backend) empty.kept
  intro client
  cases client with
  | none => trivial
  | some client => exact client_safe (clients client) first

/-- Every secret keeps each of its versions once and without a gap, and each decrypts to what it was
written with. Whatever overlaps and whatever fails, nothing that was there is taken away, and no
secret goes back to an earlier version. -/
theorem secretVersions_kept [DecidableEq ι] (empty : Empty first) (clients : ∀ client, vault.Client (programs client))
    (reached : Interleaved.Reaches (serve backend) (fun _ _ _ => True) ⟨first, programs⟩ begun)
    (onward : Interleaved.Reaches (serve backend) (fun _ _ _ => True) begun ended) :
    Kept backend ended.state ∧ Grown begun.state ended.state := by
  obtain ⟨kept, safe⟩ := run_safe empty clients reached
  obtain ⟨kept', -⟩ := Interleaved.Reaches.safe ((guarding backend).further (Grown begun.state)) onward.observed
    (guarding_refl backend) (guarding_trans backend) ⟨kept, .refl begun.state⟩ fun client => by
      apply (safe client).further (.all _)
      intro request choice now reply after _ answered others grown
      cases client with
      | none => cases answered
      | some client => exact grown.trans (others none (Option.some_ne_none client).symm)
  exact kept'

/-- What the calls of one client come to that begin after `start`. -/
def Since (vault : SecretVault) (own : ι) (start now : Store ι) : Prop :=
  ∃ newer, now.answers = newer ++ start.answers ∧ ∀ answer ∈ newer, answer.client = own → Behind vault start answer now

theorem program_silent (call : Call) : (vault.program call).Only Request.Silent := by
  have quiet {α : Type} {program : Program α} (only : program.Only Request.Quiet) {outcome : α → Outcome} :
      (program.bind fun value => .pure (outcome value)).Only Request.Silent :=
    .bind (only.weaken fun request quiet => quiet.silent) fun _ => trivial
  have recorded (call : AuditCall) : (vault.record call).Only Request.Silent :=
    (record_only vault call).weaken fun request quiet => quiet.silent
  cases call with
  | createSecret name plaintextValue ownerId description classification expiresAt keyId =>
    refine Prog.Only.bind ?_ fun _ => trivial
    unfold SecretVault.createSecret
    split
    · trivial
    · exact .bind (.perform trivial) fun _ => .bind (.perform trivial) fun _ => .bind (.ofExcept _) fun _ =>
        .bind (.perform trivial) fun _ => .bind (.perform trivial) fun _ => .bind (.perform trivial) fun _ =>
        .bind (.perform trivial) fun _ => .bind (.perform trivial) fun _ => .bind (recorded _) fun _ => trivial
  | archiveSecret secretId actorId => exact quiet (archiveSecret_only vault secretId actorId)
  | rotate secretId newValue rotatedBy reason keyId =>
    refine Prog.Only.bind (Prog.Only.bind ?_ fun _ => ?_) fun _ => trivial
    · exact (reads_only (requireActiveSecret_only secretId false)).weaken fun request quiet => quiet.silent
    · exact .bind (.perform trivial) fun _ => .bind (.perform trivial) fun _ => .bind (.perform trivial) fun _ =>
        .bind (.perform trivial) fun _ => .bind (.perform trivial) fun _ => .bind (recorded _) fun _ => trivial
  | grantRef secretId grantedTo grantedBy scopeId environmentId expiresAt =>
    exact quiet (grantRef_only vault secretId grantedTo grantedBy scopeId environmentId expiresAt)
  | revokeRef refId revokedBy => exact quiet (revokeRef_only vault refId revokedBy)
  | resolve refToken access => exact quiet (resolve_only vault refToken access)
  | createPolicy createdBy secretId classification maxAgeSeconds autoRotate allowedScopes allowedEnvs =>
    exact quiet (createPolicy_only createdBy secretId classification maxAgeSeconds autoRotate allowedScopes allowedEnvs)
  | pass now => exact .bind (.perform trivial) fun _ => trivial

/-- Only what is delivered comes to the answers. -/
theorem serve_answers {client : ι} {request : Request} {choice : Choice} {reply : Except Raised (Reply request)}
    (silent : request.Silent) (answered : serve backend client choice before request = some (reply, after)) :
    after.answers = before.answers := by
  have advanced (now : Moment) : (before.advance now).answers = before.answers := by
    unfold Store.advance
    split <;> rfl
  cases failure : choice.failure with
  | some error =>
    rcases serve_failed silent failure answered with rfl | ⟨now, rfl⟩
    · rfl
    · exact advanced now
  | none =>
    cases request with
    | deliver _ _ => exact silent.elim
    | pass now =>
      cases answered
      exact advanced now
    | insertVersion version plaintext =>
      simp only [serve, failure] at answered
      apply inserted_leaves (fun store => store.answers = before.answers) answered rfl
      intro next done
      obtain ⟨-, -, versions, rfl⟩ := insertVersion_list done
      rfl
    | insertRef ref =>
      simp only [serve, failure] at answered
      apply inserted_leaves (fun store => store.answers = before.answers) answered rfl
      intro next done
      obtain ⟨⟨refs, rfl⟩, -⟩ := insertRef_grown done
      rfl
    | insertSecret _ | insertPolicy _ | insertAccess _ =>
      simp only [serve, failure] at answered
      apply inserted_leaves (fun store => store.answers = before.answers) answered rfl
      intro next done
      obtain ⟨rows, -, rfl⟩ := Option.map_eq_some_iff.mp done
      rfl
    | _ =>
      simp only [serve, failure] at answered
      cases answered
      rfl

theorem Since.grown {own : ι} (since : Since vault own start before) (grown : Grown before after)
    (answers : after.answers = before.answers) : Since vault own start after := by
  obtain ⟨newer, list, each⟩ := since
  exact ⟨newer, answers.trans list, fun answer member same => (each answer member same).later grown⟩

theorem Since.foreign {own client : ι} (different : client ≠ own) {request : Request} {choice : Choice}
    {reply : Except Raised (Reply request)} (since : Since vault own start before) (grown : Grown before after)
    (answered : serve backend client choice before request = some (reply, after)) : Since vault own start after := by
  by_cases silent : request.Silent
  · exact since.grown grown (serve_answers silent answered)
  · cases request with
    | deliver call result =>
      obtain rfl := deliver_serve answered
      obtain ⟨newer, list, each⟩ := since
      refine ⟨⟨client, call, result⟩ :: newer, congrArg (List.cons _) list, ?_⟩
      refine List.forall_mem_cons.mpr ⟨fun same => absurd same different, ?_⟩
      exact fun answer member same => (each answer member same).later grown
    | _ => exact absurd trivial silent

theorem deliver_since {own : ι} {state : Store ι} {call : Call} (grown : Grown start state)
    (behind : Behind vault start ⟨own, call, result⟩ state) :
    ((guarding backend).further (Since vault own start)).Safe (serve backend).observed (some own) (fun _ final => Grown start final)
      (Prog.perform (Request.deliver call result)) state := by
  apply Contract.Safe.perform
  intro now kept rely _ choice reply after answered
  have answered : serve backend own choice now (.deliver call result) = some (reply, after) := answered
  obtain rfl := deliver_serve answered
  obtain ⟨kept', moved⟩ := deliver_kept kept.1 (behind.1.grown rely.1)
  have later := rely.1.trans moved
  obtain ⟨newer, list, each⟩ := kept.2
  refine ⟨⟨kept', ⟨own, call, result⟩ :: newer, ?_, ?_⟩, fun other _ => guarding_rely backend moved other fun own _ => .beside rfl,
    grown.trans later⟩
  · exact congrArg (List.cons _) list
  · exact List.forall_mem_cons.mpr ⟨fun _ => behind.later later, fun answer member same => (each answer member same).later moved⟩

theorem client_since {own : ι} {program : Program Unit} (runs : vault.Client program) (state : Store ι)
    (grown : Grown start state) :
    ((guarding backend).further (Since vault own start)).Safe (serve backend).observed (some own) (fun _ _ => True) program state := by
  induction runs generalizing state with
  | done => trivial
  | call call next each ih =>
    have called : ((guarding backend).further (Since vault own start)).Safe (serve backend).observed (some own)
        (fun _ final => Grown start final) (vault.call call) state := by
      apply Contract.Safe.bind
      apply Contract.Safe.attempt
      refine ((program_safe vault call state).further (program_silent call) ?_).weaken ?_
      · intro request choice now reply after silent answered others since
        exact since.grown (others none (Option.some_ne_none own).symm) (serve_answers silent answered)
      · intro result mid ended
        apply Contract.Safe.andThen (deliver_since (grown.trans ended.1) (ended.2.sooner grown))
        · exact fun error final later => later
        · exact fun _ final later => later
    apply Contract.Safe.andThen called
    · exact fun _ _ _ => trivial
    · exact fun result final later => ih result final later

/-- What a client gets from calls that begin at some point of a run comes to what they promise,
measured against the state at that point: a value goes out only if its ref was active and
unexpired there, granted to who asks and fit for where it is asked from, if the secret was active
and unexpired there and all its policies there admit the access; and it is the value of a version
that is not older than the current one there. -/
theorem answers_entitled [DecidableEq ι] (empty : Empty first) (clients : ∀ client, vault.Client (programs client))
    (reached : Interleaved.Reaches (serve backend) (fun _ _ _ => True) ⟨first, programs⟩ begun) {client : ι}
    (between : vault.Client (begun.programs client))
    (onward : Interleaved.Reaches (serve backend) (fun _ _ _ => True) begun ended) :
    ∃ newer, ended.state.answers = newer ++ begun.state.answers ∧
      ∀ answer ∈ newer, answer.client = client → Behind vault begun.state answer ended.state := by
  obtain ⟨kept, safe⟩ := run_safe empty clients reached
  have since : Since vault client begun.state begun.state := ⟨[], rfl, fun answer member => by cases member⟩
  obtain ⟨kept', -⟩ := Interleaved.Reaches.safe ((guarding backend).further (Since vault client begun.state)) onward.observed
    (guarding_refl backend) (guarding_trans backend) ⟨kept, since⟩ fun other => by
      by_cases same : other = some client
      · subst same
        exact client_since between begun.state (.refl begun.state)
      · apply (safe other).further (.all _)
        intro request choice now reply after _ answered others since
        have grown : Grown now after := (others (some client) (Ne.symm same)).1
        cases other with
        | none => cases answered
        | some other => exact since.foreign (fun equal => same (congrArg some equal)) grown answered
  exact kept'.2

end Runs

section Sample

def keeper : SecretVault := ⟨"plaintext-test", "test-key-1", true, true, true⟩

def emptyVault : Store Bool :=
  ⟨Rows.empty, Rows.empty, Rows.empty, Rows.empty, Rows.empty, .of 0 Moment.start_within, []⟩

/-- One client resolves; the other creates the secret, grants the ref and rotates. -/
def keepers : Bool → Program Unit
  | false => (keeper.call (.resolve "token" ⟨"bob", none, none⟩)).bind fun _ => .pure ()
  | true => (keeper.call (.createSecret "db" "old" "ann" "" "standard" none none)).bind fun _ =>
    (keeper.call (.grantRef "s" "bob" "ann" none none none)).bind fun _ =>
    (keeper.call (.rotate "s" "new" "ann" "rotation" none)).bind fun _ => .pure ()

theorem keepers_clients (client : Bool) : keeper.Client (keepers client) := by
  cases client with
  | false => exact .call _ _ fun _ => .done
  | true => exact .call _ _ fun _ => .call _ _ fun _ => .call _ _ fun _ => .done

def named (id : String) : Choice := ⟨none, id, 0⟩

/-- Until the ref is granted. -/
def granting : List (Bool × Choice) :=
  (["", "s", "o", "", "", "v1", "", "", ""] ++ ["", "", "", "", "r", "token", "", "", ""]).map fun id => (true, named id)

/-- The rotation overtakes the attempt, which has read the secret by then. -/
def overtaking : List (Bool × Choice) :=
  List.replicate 3 (false, named "") ++ List.replicate 8 (true, named "v2") ++ List.replicate 9 (false, named "a")

/-- What was asked for and handed out, where an answer is a value. -/
def Answer.resolved (answer : Answer ι) : Option (String × Access × String) :=
  match answer.call, answer.result with
  | .resolve refToken access, .ok (.value value) => some (refToken, access, value)
  | _, _ => none

theorem Answer.resolved_some {value : String} (resolved : answer.resolved = some (refToken, access, value)) :
    answer.call = .resolve refToken access ∧ answer.result = .ok (.value value) := by
  obtain ⟨client, call, result⟩ := answer
  cases call <;> rcases result with error | outcome <;> first
    | cases resolved
    | (cases outcome <;> cases resolved
       exact ⟨rfl, rfl⟩)

def seen (world : Interleaved Request Reply Raised (Store Bool) Bool) : List (Bool × Option (String × Access × String)) :=
  world.state.answers.map fun answer => (answer.client, answer.resolved)

private theorem grants : ((Interleaved.run (serve (inMemory ["test-key-1"])) (fun _ _ _ => True) ⟨emptyVault, keepers⟩ granting).map
    seen) = some [(true, none), (true, none)] := by
  decide +kernel

private theorem overtakes : ((Interleaved.run (serve (inMemory ["test-key-1"])) (fun _ _ _ => True) ⟨emptyVault, keepers⟩ granting).bind
    fun begun => (Interleaved.run (serve (inMemory ["test-key-1"])) (fun _ _ _ => True) begun overtaking).map seen) =
    some [(false, some ("token", ⟨"bob", none, none⟩, "old")), (true, none), (true, none), (true, none)] := by
  decide +kernel

theorem answers_entitled_overtaken : ∃ begun ended,
    Interleaved.run (serve (inMemory ["test-key-1"])) (fun _ _ _ => True) ⟨emptyVault, keepers⟩ granting = some begun ∧
    Interleaved.run (serve (inMemory ["test-key-1"])) (fun _ _ _ => True) begun overtaking = some ended ∧
    ∃ ref secret written, Entitled keeper begun.state ended.state "token" ⟨"bob", none, none⟩ "old" ref secret written := by
  obtain ⟨begun, granted, rest⟩ := Option.bind_eq_some_iff.mp overtakes
  obtain ⟨ended, overtaken, new⟩ := Option.map_eq_some_iff.mp rest
  have old := grants
  rw [granted, Option.map_some, Option.some.injEq] at old
  have waiting : begun.programs false = keepers false := Interleaved.run_untouched (by decide) granted
  have between : keeper.Client (begun.programs false) := waiting ▸ keepers_clients false
  have empty : Empty emptyVault := ⟨rfl, rfl, rfl⟩
  obtain ⟨newer, list, each⟩ := answers_entitled empty keepers_clients (Interleaved.run_reaches .start granted) between
    (Interleaved.run_reaches .start overtaken)
  -- the value is the last answer, and the client that got it had none before
  have mapped : seen ended = newer.map (fun answer => (answer.client, answer.resolved)) ++ seen begun := by
    unfold seen
    rw [list, List.map_append]
  have found : (false, some ("token", (⟨"bob", none, none⟩ : Access), "old")) ∈
      newer.map fun answer => (answer.client, answer.resolved) := by
    have inside : (false, some ("token", (⟨"bob", none, none⟩ : Access), "old")) ∈ seen ended := by
      rw [new]
      exact List.mem_cons_self
    rw [mapped, old] at inside
    exact (List.mem_append.mp inside).resolve_right (by decide)
  obtain ⟨answer, member, same⟩ := List.mem_map.mp found
  obtain ⟨client, resolved⟩ := Prod.ext_iff.mp same
  obtain ⟨call, result⟩ := Answer.resolved_some resolved
  exact ⟨begun, ended, granted, overtaken, (each answer member client).2 _ _ _ call result⟩

theorem secretVersions_kept_overtaken : ∃ begun ended,
    Interleaved.run (serve (inMemory ["test-key-1"])) (fun _ _ _ => True) ⟨emptyVault, keepers⟩ granting = some begun ∧
    Interleaved.run (serve (inMemory ["test-key-1"])) (fun _ _ _ => True) begun overtaking = some ended ∧
    Kept (inMemory ["test-key-1"]) ended.state ∧ Grown begun.state ended.state := by
  obtain ⟨begun, granted, rest⟩ := Option.bind_eq_some_iff.mp overtakes
  obtain ⟨ended, overtaken, -⟩ := Option.map_eq_some_iff.mp rest
  have empty : Empty emptyVault := ⟨rfl, rfl, rfl⟩
  exact ⟨begun, ended, granted, overtaken, secretVersions_kept empty keepers_clients (Interleaved.run_reaches .start granted)
    (Interleaved.run_reaches .start overtaken)⟩

end Sample

end PyScoped.Legacy.Vault
