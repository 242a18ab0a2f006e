import Mathlib.Data.List.Nodup
import PyScoped.Legacy.TenantRouter

/-! Where the statements of a run through the tenant router go: to the one open backend
of their tenant, but in the dialect of whichever backend the cache has first. -/

namespace PyScoped.Legacy.TenantRouter

namespace Router

/-- The cache has one backend for a tenant, and just the ones that are open. -/
structure Kept (router : Router) : Prop where
  keys : (router.backends.map Prod.fst).Nodup
  cached : ∀ tenantId backend, (tenantId, backend) ∈ router.backends →
    ∃ object, router.objects[backend]? = some object ∧ object.tenant = tenantId ∧ object.initialized = true ∧
      object.closed = false
  openOnes : ∀ backend object, router.objects[backend]? = some object → object.initialized = true →
    object.closed = false → (object.tenant, backend) ∈ router.backends

/-- No two open backends are of one tenant. -/
def Sole (router : Router) : Prop :=
  ∀ (backend backend' : Nat) (object object' : Backend),
    router.objects[backend]? = some object → router.objects[backend']? = some object' →
    object.initialized = true → object'.initialized = true → object.closed = false → object'.closed = false →
      object.tenant = object'.tenant → backend = backend'

/-- The dialect of the backend that serves a tenant: the one in the cache, or the one
that the factory makes. -/
def Serves (settings : Settings) (router : Router) (tenantId dialect : String) : Prop :=
  (∃ backend object, (tenantId, backend) ∈ router.backends ∧ router.objects[backend]? = some object ∧
      object.dialect = dialect) ∨
    (∀ backend, (tenantId, backend) ∉ router.backends) ∧
      settings.backendFactory router.calls tenantId = some ⟨dialect, true⟩

/-- The dialect of the backend that came first of those in the cache. -/
def First (router : Router) (dialect : String) : Prop :=
  (router.backends = [] ∧ dialect = "postgres") ∨
    ∃ tenantId backend others object, router.backends = (tenantId, backend) :: others ∧
      router.objects[backend]? = some object ∧ object.dialect = dialect

end Router

/-- `compile_for` knows the dialect. -/
def Known (dialect : String) : Prop := dialect ∈ dialects.map Prod.fst

/-- The first backend of the cache has the dialect of the one that serves the tenant. -/
def Meets (settings : Settings) (router : Router) : Prop :=
  ∀ tenantId first dialect, router.resolveTenantId settings = .ok tenantId → router.First first →
    router.Serves settings tenantId dialect → first = dialect ∨ (¬ Known first ∧ ¬ Known dialect)

variable {σ ρ : Type} {settings : Settings} {compile : SaDialect → σ → ρ}

/-- A statement runs on the open backend of its tenant and was compiled for it; it is
refused only if there is no backend or none that it can be compiled for. -/
def Right (settings : Settings) (compile : SaDialect → σ → ρ) (router : Router) (stmt : σ) : Prop :=
  match router.statement settings compile stmt with
  | (.ok ran, after) => ∃ tenantId object, router.resolveTenantId settings = .ok tenantId ∧
      after.objects[ran.backend]? = some object ∧ object.tenant = tenantId ∧ object.initialized = true ∧
      object.closed = false ∧ ran.dialect = object.dialect ∧ compileFor compile stmt object.dialect = .ok ran.sql
  | (.error _, _) => ∀ tenantId dialect, router.resolveTenantId settings = .ok tenantId →
      router.Serves settings tenantId dialect → ¬ Known dialect

variable {dialect : String}

theorem compileFor_ok {stmt : σ} {sql : ρ} (compiled : compileFor compile stmt dialect = .ok sql) :
    Known dialect := by
  unfold compileFor at compiled
  split at compiled
  · cases compiled
  · next saDialect found =>
    obtain ⟨before, after, whole, -⟩ := List.lookup_eq_some_iff.mp found
    exact List.mem_map.mpr ⟨(dialect, saDialect), by simp [whole], rfl⟩

theorem compileFor_error {stmt : σ} {error : Error}
    (refused : compileFor compile stmt dialect = .error error) : ¬ Known dialect := by
  unfold compileFor at refused
  split at refused
  · next unknown =>
    intro known
    obtain ⟨entry, member, rfl⟩ := List.mem_map.mp known
    have := List.lookup_eq_none_iff.mp unknown entry member
    simp at this
  · cases refused

namespace Router

variable {router : Router}

theorem Kept.sole (kept : router.Kept) : router.Sole := by
  intro backend backend' object object' here there ready ready' unclosed unclosed' same
  have member := kept.openOnes backend object here ready unclosed
  have member' := kept.openOnes backend' object' there ready' unclosed'
  rw [← same] at member'
  exact (Prod.ext_iff.mp (List.inj_on_of_nodup_map kept.keys member member' rfl)).2

theorem kept_new : new.Kept := by
  refine ⟨List.nodup_nil, ?_, ?_⟩
  · intro tenantId backend member
    cases member
  · intro backend object found
    cases found

theorem Kept.first (kept : router.Kept) : router.First router.dialect := by
  unfold dialect
  split
  · next empty => exact .inl ⟨empty, rfl⟩
  · next tenantId backend others whole =>
    obtain ⟨object, found, -⟩ := kept.cached tenantId backend (by rw [whole]; exact List.mem_cons_self)
    exact .inr ⟨tenantId, backend, others, object, whole, found, by rw [found]; rfl⟩

theorem First.unique {first : String} (here : router.First first) (there : router.First dialect) :
    first = dialect := by
  rcases here with ⟨empty, rfl⟩ | ⟨tenantId, backend, others, object, whole, found, rfl⟩ <;>
    rcases there with ⟨empty', rfl⟩ | ⟨tenantId', backend', others', object', whole', found', rfl⟩
  · rfl
  · rw [empty] at whole'
    cases whole'
  · rw [empty'] at whole
    cases whole
  · rw [whole] at whole'
    cases whole'
    rw [found] at found'
    cases found'
    rfl

theorem lookup_mem {tenantId : String} {backend : Nat} (found : router.backends.lookup tenantId = some backend) :
    (tenantId, backend) ∈ router.backends := by
  obtain ⟨before, after, whole, -⟩ := List.lookup_eq_some_iff.mp found
  simp [whole]

theorem lookup_not_mem {tenantId : String} (missing : router.backends.lookup tenantId = none) (backend : Nat) :
    (tenantId, backend) ∉ router.backends := by
  intro member
  have := List.lookup_eq_none_iff.mp missing _ member
  simp at this

private theorem added {objects : List Backend} {object other : Backend} {backend : Nat}
    (found : (objects ++ [object])[backend]? = some other) :
    objects[backend]? = some other ∨ (backend = objects.length ∧ other = object) := by
  rw [List.getElem?_append] at found
  split at found
  · exact .inl found
  · next beyond =>
    obtain ⟨place, rfl⟩ := List.getElem?_eq_some_iff.mp found
    simp only [List.length_singleton] at place
    exact .inr ⟨by omega, by simp⟩

private theorem stays {objects : List Backend} {object other : Backend} {backend : Nat}
    (found : objects[backend]? = some other) : (objects ++ [object])[backend]? = some other :=
  (List.getElem?_append_left (List.getElem?_eq_some_iff.mp found).1).trans found

private theorem Kept.spoilt (kept : router.Kept) {object : Backend} (calls : Nat) (unready : object.initialized = false) :
    Kept { router with objects := router.objects ++ [object], calls } := by
  refine ⟨kept.keys, ?_, ?_⟩
  · intro tenantId backend member
    obtain ⟨old, found, rest⟩ := kept.cached tenantId backend member
    exact ⟨old, stays found, rest⟩
  · intro backend other found ready unclosed
    rcases added found with found | ⟨-, rfl⟩
    · exact kept.openOnes backend other found ready unclosed
    · rw [unready] at ready
      cases ready

private theorem Kept.served (kept : router.Kept) (object : Backend) (calls : Nat) (ready : object.initialized = true)
    (unclosed : object.closed = false) (missing : ∀ backend, (object.tenant, backend) ∉ router.backends) :
    Kept { router with
      backends := router.backends ++ [(object.tenant, router.objects.length)]
      objects := router.objects ++ [object], calls } := by
  refine ⟨?_, ?_, ?_⟩
  · rw [List.map_append, List.nodup_append]
    refine ⟨kept.keys, List.nodup_singleton _, ?_⟩
    rintro tenantId present other new rfl
    obtain ⟨⟨tenant, backend⟩, member, same⟩ := List.mem_map.mp present
    obtain rfl : tenantId = object.tenant := by simpa using new
    exact missing backend (same ▸ member)
  · intro tenantId backend member
    rcases List.mem_append.mp member with member | new
    · obtain ⟨old, found, rest⟩ := kept.cached tenantId backend member
      exact ⟨old, stays found, rest⟩
    · obtain ⟨rfl, rfl⟩ := Prod.ext_iff.mp (List.mem_singleton.mp new)
      exact ⟨object, List.getElem?_concat_length, rfl, ready, unclosed⟩
  · intro backend other found ready' unclosed'
    rcases added found with found | ⟨rfl, rfl⟩
    · exact List.mem_append_left _ (kept.openOnes backend other found ready' unclosed')
    · simp

/-- What `_get_backend` leaves: the backend that serves the tenant, or none does. -/
theorem Kept.getBackend (kept : router.Kept) (settings : Settings) (tenantId : String) :
    (router.getBackend settings tenantId).2.Kept ∧
      match router.getBackend settings tenantId with
      | (.ok backend, after) => ∃ object, after.objects[backend]? = some object ∧ object.tenant = tenantId ∧
          object.initialized = true ∧ object.closed = false ∧ router.Serves settings tenantId object.dialect
      | (.error _, _) => ∀ dialect, ¬ router.Serves settings tenantId dialect := by
  unfold Router.getBackend
  split
  · next backend found =>
    have member := lookup_mem found
    obtain ⟨object, here, tenant, ready, unclosed⟩ := kept.cached tenantId backend member
    exact ⟨kept, object, here, tenant, ready, unclosed, .inl ⟨backend, object, member, here, rfl⟩⟩
  · next unknown =>
    have missing := lookup_not_mem unknown
    split
    · next nothing =>
      refine ⟨⟨kept.keys, kept.cached, kept.openOnes⟩, ?_⟩
      rintro dialect (⟨backend, -, member, -⟩ | ⟨-, made⟩)
      · exact missing backend member
      · rw [nothing] at made
        cases made
    · next made found =>
      by_cases ready : made.initializes = true
      · rw [if_pos ready]
        refine ⟨?_, ?_⟩
        · exact kept.served ⟨tenantId, made.dialect, made.initializes, false⟩ _ ready rfl missing
        · refine ⟨_, List.getElem?_concat_length, rfl, ready, rfl, .inr ⟨missing, ?_⟩⟩
          rw [found, ← ready]
      · rw [if_neg ready]
        refine ⟨kept.spoilt _ (by simpa using ready), ?_⟩
        rintro dialect (⟨backend, -, member, -⟩ | ⟨-, made'⟩)
        · exact missing backend member
        · rw [found] at made'
          cases made'
          exact ready rfl

theorem Kept.serves_unique (kept : router.Kept) {settings : Settings} {tenantId dialect' : String}
    (here : router.Serves settings tenantId dialect) (there : router.Serves settings tenantId dialect') :
    dialect = dialect' := by
  rcases here with ⟨backend, object, member, found, rfl⟩ | ⟨missing, made⟩ <;>
    rcases there with ⟨backend', object', member', found', rfl⟩ | ⟨missing', made'⟩
  · obtain ⟨-, rfl⟩ := Prod.ext_iff.mp (List.inj_on_of_nodup_map kept.keys member member' rfl)
    rw [found] at found'
    cases found'
    rfl
  · exact absurd member (missing' backend)
  · exact absurd member' (missing backend')
  · rw [made] at made'
    cases made'
    rfl

theorem getElem?_shut (objects : List Backend) (backend place : Nat) :
    (shut objects backend)[place]? =
      objects[place]?.map fun object => if backend = place then { object with closed := true } else object := by
  rw [shut, List.getElem?_modify]
  rfl

theorem getElem?_shut_all (backends : List Nat) (objects : List Backend) (place : Nat) :
    (backends.foldl shut objects)[place]? =
      objects[place]?.map fun object => if place ∈ backends then { object with closed := true } else object := by
  induction backends generalizing objects with
  | nil => simp
  | cons backend backends ih =>
    rw [List.foldl_cons, ih, getElem?_shut, Option.map_map]
    congr 1
    funext object
    by_cases here : backend = place
    · subst here
      simp
    · simp [here, Ne.symm here]

theorem Kept.teardownTenant (kept : router.Kept) (tenantId : String) : (router.teardownTenant tenantId).Kept := by
  unfold Router.teardownTenant
  split
  · exact kept
  · next backend found =>
    have torn := lookup_mem found
    obtain ⟨object, here, tenant, -, -⟩ := kept.cached tenantId backend torn
    refine ⟨kept.keys.sublist ((List.filter_sublist).map _), ?_, ?_⟩
    · intro other place member
      obtain ⟨member, different⟩ := List.mem_filter.mp member
      obtain ⟨object', there, tenant', rest⟩ := kept.cached other place member
      refine ⟨object', ?_, tenant', rest⟩
      rw [getElem?_shut, there, Option.map_some, if_neg]
      rintro rfl
      rw [here] at there
      cases there
      simp [← tenant, ← tenant'] at different
    · intro place object' found' ready unclosed
      rw [getElem?_shut] at found'
      obtain ⟨old, there, rfl⟩ := Option.map_eq_some_iff.mp found'
      by_cases same : backend = place
      · simp [same] at unclosed
      · simp only [if_neg same] at ready unclosed ⊢
        have member := kept.openOnes place old there ready unclosed
        refine List.mem_filter.mpr ⟨member, ?_⟩
        simp only [decide_eq_true_eq]
        rintro rfl
        exact same (Prod.ext_iff.mp (List.inj_on_of_nodup_map kept.keys torn member rfl)).2

theorem Kept.close (kept : router.Kept) : router.close.Kept := by
  refine ⟨List.nodup_nil, ?_, ?_⟩
  · intro tenantId backend member
    cases member
  · intro backend object found ready unclosed
    obtain ⟨old, here, rfl⟩ := Option.map_eq_some_iff.mp ((getElem?_shut_all ..).symm.trans found)
    by_cases cached : backend ∈ router.backends.map Prod.snd
    · simp [cached] at unclosed
    · simp only [if_neg cached] at ready unclosed
      exact absurd (List.mem_map_of_mem (kept.openOnes backend old here ready unclosed)) cached

theorem Kept.currentBackend (kept : router.Kept) (settings : Settings) : (router.currentBackend settings).2.Kept := by
  unfold Router.currentBackend
  split
  · exact kept
  · exact (kept.getBackend settings _).1

theorem Kept.statement (kept : router.Kept) (stmt : σ) : (router.statement settings compile stmt).2.Kept := by
  have left := kept.currentBackend settings
  unfold Router.statement
  split
  · exact kept
  · split <;> next found => rwa [found] at left

theorem Kept.turn (kept : router.Kept) (turn : Turn σ) : (router.turn settings compile turn).Kept := by
  cases turn with
  | switch context => exact ⟨kept.keys, kept.cached, kept.openOnes⟩
  | initializeRouter =>
    change (router.initializeRouter settings).Kept
    unfold initializeRouter
    split
    · exact kept
    · split
      · exact (kept.getBackend settings _).1
      · exact kept
  | provisionTenant tenantId => exact (kept.getBackend settings tenantId).1
  | teardownTenant tenantId => exact kept.teardownTenant tenantId
  | close => exact kept.close
  | statement stmt => exact kept.statement stmt

theorem Kept.run (kept : router.Kept) (turns : List (Turn σ)) : (router.run settings compile turns).Kept := by
  induction turns generalizing router with
  | nil => exact kept
  | cons turn turns ih => exact ih (kept.turn turn)

/-- A statement goes right exactly if the first backend has the dialect that is needed. -/
theorem Kept.right_iff (kept : router.Kept) (stmt : σ) : Right settings compile router stmt ↔ Meets settings router := by
  have first := kept.first
  unfold Right Router.statement
  cases compiled : compileFor compile stmt router.dialect with
  | error error =>
    have unknown := compileFor_error compiled
    constructor
    · intro right tenantId first' dialect resolved came serves
      obtain rfl := came.unique first
      exact .inr ⟨unknown, right tenantId dialect resolved serves⟩
    · intro meets tenantId dialect resolved serves
      rcases meets tenantId _ dialect resolved first serves with rfl | ⟨-, unknown'⟩
      · exact unknown
      · exact unknown'
  | ok sql =>
    have known := compileFor_ok compiled
    unfold Router.currentBackend
    cases resolved : router.resolveTenantId settings with
    | error error =>
      constructor
      · intro _ tenantId first' dialect resolved'
        cases resolved.symm.trans resolved'
      · intro _ tenantId dialect resolved'
        cases resolved'
    | ok tenantId =>
      have served := (kept.getBackend settings tenantId).2
      split at served
      · next backend after found =>
        obtain ⟨object, here, tenant, ready, unclosed, serves⟩ := served
        simp only [found]
        constructor
        · rintro ⟨tenantId', object', resolved', here', -, -, -, same, -⟩ other first' dialect resolved'' came serves'
          cases resolved.symm.trans resolved''
          cases here.symm.trans here'
          obtain rfl := came.unique first
          exact .inl (same.trans (kept.serves_unique serves serves'))
        · intro meets
          rcases meets tenantId _ _ resolved first serves with same | ⟨unknown, -⟩
          · exact ⟨tenantId, object, rfl, here, tenant, ready, unclosed, same, same ▸ compiled⟩
          · exact absurd known unknown
      · next error after found =>
        simp only [found]
        constructor
        · intro _ other first' dialect resolved' _ serves
          cases resolved.symm.trans resolved'
          exact absurd serves (served dialect)
        · intro _ other dialect resolved' serves
          cases resolved'
          exact absurd serves (served dialect)

end Router

/-- In a run no two open backends are of one tenant, and each statement goes right. -/
structure Routed (settings : Settings) (compile : SaDialect → σ → ρ) (turns : List (Turn σ)) : Prop where
  sole : ∀ before after, turns = before ++ after → (Router.new.run settings compile before).Sole
  right : ∀ before stmt after, turns = before ++ .statement stmt :: after →
    Right settings compile (Router.new.run settings compile before) stmt

/-- A run goes right exactly if whenever a statement comes, the backend that came first
has the dialect of the one that serves the tenant. -/
theorem routed_iff (settings : Settings) (compile : SaDialect → σ → ρ) (turns : List (Turn σ)) :
    Routed settings compile turns ↔ ∀ before stmt after, turns = before ++ .statement stmt :: after →
      Meets settings (Router.new.run settings compile before) := by
  constructor
  · intro routed before stmt after whole
    exact ((Router.kept_new.run before).right_iff stmt).mp (routed.right before stmt after whole)
  · intro meets
    refine ⟨fun before _ _ => (Router.kept_new.run before).sole, fun before stmt after whole => ?_⟩
    exact ((Router.kept_new.run before).right_iff stmt).mpr (meets before stmt after whole)

/-- A tenant on SQLite is served after one on PostgreSQL. -/
theorem other_dialect :
    ∃ (settings : Settings) (turns : List (Turn String)), ¬ Routed settings (fun dialect stmt => (dialect, stmt)) turns := by
  refine ⟨⟨some, fun _ tenantId => some ⟨if tenantId = "acme" then "postgres" else "sqlite", true⟩, none⟩,
    [.provisionTenant "acme", .switch (some "globex"), .statement "SELECT"], fun routed => ?_⟩
  obtain ⟨tenantId, object, resolved, here, -, -, -, same, -⟩ :=
    routed.right [.provisionTenant "acme", .switch (some "globex")] "SELECT" [] rfl
  cases here
  revert same
  decide

end PyScoped.Legacy.TenantRouter
