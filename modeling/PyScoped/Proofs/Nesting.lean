import PyScoped.Core.Overrides
import PyScoped.Proofs.Operations

/-! Every supported program is put together from plain statements, atomic blocks
and control flow, so its blocks are nested wherever it is called from. -/

namespace PyScoped
open Foundation Discipline

variable {app : App} {α β : Type}

abbrev Nests (program : Db app α) : Prop := Built (fun _ program => program.Only Request.Plain) program

private theorem reads_plain {request : Request (Val app) Err} (reads : Reads request) : request.Plain := by
  cases request <;> trivial

theorem Nests.of_reads {program : Db app α} (only : program.Only Reads) : Nests program :=
  .basic (only.weaken fun _ => reads_plain)

theorem Nests.lift (computed : Except Err α) : Nests (Prog.ofExcept computed : Db app α) :=
  .basic (Prog.Only.ofExcept computed)

theorem Nests.perform {request : Request (Val app) Err} (plain : request.Plain) :
    Nests (Prog.perform request : Db app _) :=
  .basic (Prog.Only.perform plain)

theorem Nests.ite {condition : Prop} [Decidable condition] {first second : Db app α} (nests : Nests first)
    (nests' : Nests second) : Nests (if condition then first else second) := by
  split
  · exact nests
  · exact nests'

theorem Nests.unless {condition : Prop} [Decidable condition] {error : Err} {rest : Db app α} (nests : Nests rest) :
    Nests (if condition then (Prog.raise error : Db app PUnit).bind fun _ => rest else rest) :=
  Nests.ite (.bind (.raise error) fun _ => nests) nests

theorem getOrCreateResource_nests (label objectPk scope : String) (held : List Key) :
    Nests (getOrCreateResource label objectPk scope held : Db app Unit) := by
  refine .bind (Nests.perform trivial) fun found => ?_
  cases found with
  | some resource => exact .pure _
  | none =>
    refine .tryCatch (.atomic (Nests.perform trivial)) fun error => Nests.ite ?_ (.raise _)
    refine .bind (Nests.perform trivial) fun found => ?_
    cases found with
    | some resource => exact .pure _
    | none => exact .raise _

theorem appendEvent_nests {label : String} (config : Registration (app.model label)) (row : Loaded app label)
    (action : String) (before after : Json) (ctx : ScopeContext) (held : List Key) :
    Nests (appendEvent config row action before after ctx held) := by
  refine .atomic (.bind (Nests.lift _) fun objectPk => .bind (Nests.lift _) fun scope =>
    .bind (getOrCreateResource_nests _ _ _ _) fun _ => .bind (Nests.perform trivial) fun found => ?_)
  cases found with
  | none => exact .raise _
  | some resource =>
    have appends : Nests (do
        let oracle ← Tx.ask
        let event : AuditEvent :=
          { revision := resource.revision + 1, scope := scope, actor := ctx.actor, action := action, before := before,
            after := after, occurredAt := oracle.now, reason := ctx.reason, requestId := ctx.requestId,
            previousDigest := resource.digest, digest := "" }
        let digest ← (eventDigest app.sha256 resource event : Except Err String)
        let event := { event with digest := digest }
        Tx.insert (V := Val app) (.event label objectPk event.revision) event held
        let matched ← Tx.update (V := Val app) (.resource label objectPk)
          (fun head => .ok { (head : Resource) with revision := event.revision, digest := event.digest }) held true
        if matched then pure ()
        else throw (.databaseError "Save with update_fields did not affect any rows.") : Db app Unit) :=
      .bind (Nests.perform trivial) fun _ => .bind (Nests.lift _) fun _ =>
        .bind (Nests.perform trivial) fun _ => .bind (Nests.perform trivial) fun _ =>
          Nests.ite (.pure _) (.raise _)
    exact Nests.ite (.raise _) appends

section Saving

variable {env : Env} {handlers : Handlers app} {label : String} {config : Registration (app.model label)}
  {inst : Instance} {options : SaveOptions} {held : List Key}

theorem insertRow_nests (label : String) (inst : Instance) (held : List Key) :
    Nests (insertRow label inst held : Db app Instance) := by
  have keyed : Nests (withKey inst : Db app Instance) := by
    unfold withKey
    split
    · exact .bind (Nests.perform trivial) fun _ => .pure _
    · exact .pure _
  exact .bind keyed fun inst => .bind (Nests.lift _) fun _ => .bind (Nests.lift _) fun _ =>
    .bind (Nests.perform trivial) fun _ => .pure _

theorem updateRow_nests (label : String) (inst : Instance) (fields : List Field) (held : List Key) (seen : Bool) :
    Nests (updateRow label inst fields held seen : Db app Bool) :=
  .bind (Nests.lift _) fun _ => Nests.perform trivial

theorem saveTable_nests (label : String) (inst : Instance) (options : SaveOptions) (held : List Key) (seen : Bool) :
    Nests (saveTable label inst options held seen : Db app Instance) := by
  have inserts : Nests (insertRow label inst held : Db app Instance) := insertRow_nests label inst held
  refine Nests.ite (Nests.ite (.raise _) inserts) (Nests.ite inserts (.bind (updateRow_nests _ _ _ _ _) fun updated => ?_))
  exact Nests.ite (.pure _) (Nests.ite (.raise _) inserts)

theorem djangoSave_nests (preSave : ∀ held inst, Nests (handlers.preSave held inst))
    (postSave : ∀ held inst, Nests (handlers.postSave held inst)) (seen : Bool) :
    Nests (djangoSave handlers label inst options held seen) :=
  .bind (preSave _ _) fun _ => .bind (saveTable_nests _ _ _ _ _) fun _ => .bind (postSave _ _) fun _ => .pure _

theorem recordSaved_nests (created : Bool) (before : Json) (pk : Value) (ctx : ScopeContext) :
    Nests (recordSaved env config created before pk ctx) := by
  refine .bind (Nests.of_reads (loadRow_reads _ _ _)) fun row => ?_
  cases row with
  | none => exact .raise _
  | some row =>
    exact .bind (Nests.lift _) fun _ => .bind (Nests.of_reads (checkRelations_reads _ _ _)) fun _ =>
      .bind (Nests.lift _) fun _ => appendEvent_nests _ _ _ _ _ _ _

theorem saveBase_nests (preSave : ∀ held inst, Nests (handlers.preSave held inst))
    (postSave : ∀ held inst, Nests (handlers.postSave held inst)) :
    Nests (saveBase env handlers config inst options) := by
  refine .bind (Nests.lift _) fun ctx => Nests.unless (.atomic ?_)
  exact .bind (Nests.of_reads (loadRow_reads _ _ _)) fun _ => .bind (Nests.of_reads (checkSaved_reads _ _ _ _)) fun _ =>
    .bind (Nests.lift _) fun _ => .bind (djangoSave_nests preSave postSave _) fun _ => recordSaved_nests _ _ _ _

end Saving

end PyScoped
