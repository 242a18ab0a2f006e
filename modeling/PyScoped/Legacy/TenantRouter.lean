import Mathlib.Data.List.Basic

/-! The tenant router of version 1: a cache of backends, one for each tenant, made
when a tenant is first asked for. What the factory and the resolver do is a parameter. -/

namespace PyScoped.Legacy.TenantRouter

/-- The dialects of SQLAlchemy. -/
inductive SaDialect where
  | sqlite
  | postgresql
  deriving DecidableEq, Repr

inductive Error where
  | tenantResolution (message : String)
  | unsupportedDialect (dialect : String) (supported : List String)
  | resolver
  | factory
  | initializing
  deriving DecidableEq, Repr

/-- `_DIALECTS` -/
def dialects : List (String × SaDialect) :=
  [("sqlite", .sqlite), ("postgres", .postgresql), ("postgresql", .postgresql), ("generic", .sqlite)]

variable {σ ρ : Type}

/-- `compile_for`, over what SQLAlchemy makes of a statement. -/
def compileFor (compile : SaDialect → σ → ρ) (stmt : σ) (dialect : String) : Except Error ρ :=
  match dialects.lookup dialect with
  | none => .error (.unsupportedDialect dialect ["generic", "postgres", "postgresql", "sqlite"])
  | some saDialect => .ok (compile saDialect stmt)

/-- What a call of the factory gives: whether `initialize` of it returns. -/
structure Made where
  dialect : String
  initializes : Bool
  deriving DecidableEq, Repr

structure Settings where
  tenantResolver : String → Option String
  /-- What the calls of the factory give, in order. -/
  backendFactory : Nat → String → Option Made
  defaultTenantId : Option String

/-- A backend that the factory has made. -/
structure Backend where
  tenant : String
  dialect : String
  initialized : Bool
  closed : Bool
  deriving DecidableEq, Repr

/-- The router, whose cache has the places of the objects, and the principal of the
active `ScopedContext`. -/
structure Router where
  backends : List (String × Nat)
  objects : List Backend
  calls : Nat
  context : Option String
  deriving DecidableEq, Repr

namespace Router

def new : Router := ⟨[], [], 0, none⟩

/-- `dialect` -/
def dialect (router : Router) : String :=
  match router.backends with
  | [] => "postgres"
  | (_, backend) :: _ => (router.objects[backend]?.map Backend.dialect).getD "postgres"

/-- `_resolve_tenant_id` -/
def resolveTenantId (settings : Settings) (router : Router) : Except Error String :=
  match router.context, settings.defaultTenantId with
  | some principalId, _ =>
    match settings.tenantResolver principalId with
    | some tenantId => .ok tenantId
    | none => .error .resolver
  | none, some tenantId => .ok tenantId
  | none, none =>
    .error (.tenantResolution
      "No ScopedContext active and no default_tenant_id configured. Cannot determine which tenant database to use.")

/-- `_get_backend` -/
def getBackend (settings : Settings) (router : Router) (tenantId : String) : Except Error Nat × Router :=
  match router.backends.lookup tenantId with
  | some backend => (.ok backend, router)
  | none =>
    match settings.backendFactory router.calls tenantId with
    | none => (.error .factory, { router with calls := router.calls + 1 })
    | some made =>
      let objects := router.objects ++ [⟨tenantId, made.dialect, made.initializes, false⟩]
      if made.initializes then
        (.ok router.objects.length,
          { router with
            backends := router.backends ++ [(tenantId, router.objects.length)], objects, calls := router.calls + 1 })
      else (.error .initializing, { router with objects, calls := router.calls + 1 })

/-- `_current_backend` -/
def currentBackend (settings : Settings) (router : Router) : Except Error Nat × Router :=
  match router.resolveTenantId settings with
  | .error error => (.error error, router)
  | .ok tenantId => router.getBackend settings tenantId

/-- `initialize` -/
def initializeRouter (settings : Settings) (router : Router) : Router :=
  match settings.defaultTenantId with
  | none => router
  | some tenantId => if tenantId ≠ "" then (router.getBackend settings tenantId).2 else router

/-- A backend is closed. -/
def shut (objects : List Backend) (backend : Nat) : List Backend :=
  objects.modify backend fun object => { object with closed := true }

/-- `teardown_tenant` -/
def teardownTenant (router : Router) (tenantId : String) : Router :=
  match router.backends.lookup tenantId with
  | none => router
  | some backend =>
    { router with
      backends := router.backends.filter (·.1 ≠ tenantId)
      objects := shut router.objects backend }

/-- `close` -/
def close (router : Router) : Router :=
  { router with
    backends := []
    objects := (router.backends.map Prod.snd).foldl shut router.objects }

end Router

/-- What was run where, and for which dialect it was compiled. -/
structure Ran (ρ : Type) where
  backend : Nat
  dialect : String
  sql : ρ
  deriving DecidableEq, Repr

/-- A manager reads the dialect, compiles its statement and executes it. -/
def Router.statement (settings : Settings) (compile : SaDialect → σ → ρ) (router : Router) (stmt : σ) :
    Except Error (Ran ρ) × Router :=
  match compileFor compile stmt router.dialect with
  | .error error => (.error error, router)
  | .ok sql =>
    match router.currentBackend settings with
    | (.error error, after) => (.error error, after)
    | (.ok backend, after) => (.ok ⟨backend, router.dialect, sql⟩, after)

inductive Turn (σ : Type) where
  | switch (context : Option String)
  | initializeRouter
  | provisionTenant (tenantId : String)
  | teardownTenant (tenantId : String)
  | close
  | statement (stmt : σ)
  deriving DecidableEq, Repr

namespace Router

variable (settings : Settings) (compile : SaDialect → σ → ρ)

def turn (router : Router) : Turn σ → Router
  | .switch context => { router with context }
  | .initializeRouter => router.initializeRouter settings
  | .provisionTenant tenantId => (router.getBackend settings tenantId).2
  | .teardownTenant tenantId => router.teardownTenant tenantId
  | .close => router.close
  | .statement stmt => (router.statement settings compile stmt).2

def run (router : Router) (turns : List (Turn σ)) : Router := turns.foldl (turn settings compile) router

end Router
end PyScoped.Legacy.TenantRouter
