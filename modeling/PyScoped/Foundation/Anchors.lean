import PyScoped.Foundation.Blocks

/-! Assertions that do not depend on the savepoints of a transaction, and
properties that speak, guard by guard, about the keys that share a guard. -/

namespace Foundation

variable {K : Type} [DecidableEq K] {V : K → Type} {Ω ε α : Type}

omit [DecidableEq K] in
@[simp] theorem Session.view_hold (session : Session V) (key : K) : (session.hold key).view = session.view := rfl

omit [DecidableEq K] in
@[simp] theorem Session.view_enter (session : Session V) : session.enter.view = session.view := rfl

omit [DecidableEq K] in
@[simp] theorem Session.view_leave (session : Session V) : session.leave.view = session.view := by
  unfold Session.leave
  split <;> rfl

omit [DecidableEq K] in
@[simp] theorem Session.view_write (session : Session V) (key : K) (value : Option (V key)) :
    (session.write key value).view = ⟨key, value⟩ :: session.view := rfl

namespace Discipline

variable {discipline : Discipline V ε} {server : Server V ε} {session : Session V}

/-- A key whose guard is locked looks the same after a move; every other key is
seen as it was committed. -/
theorem Moves.lookup {committed : Log V} (whole : session.Whole discipline.guard)
    (moves : discipline.Moves session committed) (key : K) :
    (discipline.guard key ∈ session.current.locks →
        (session.seeing committed).view.lookup key = session.view.lookup key) ∧
      (discipline.guard key ∉ session.current.locks →
        (session.seeing committed).view.lookup key = committed.lookup key) := by
  refine ⟨fun held => ?_, fun free => ?_⟩
  · by_cases written : key ∈ session.current.writes.keys
    · exact (Log.lookup_append_left written _).trans (Log.lookup_append_left written _).symm
    · exact (Log.lookup_append_right written _).trans
        ((moves.guarded key held).trans (Log.lookup_append_right written _).symm)
  · exact Log.lookup_append_right (fun written => free (whole.guarded _ List.mem_cons_self key written)) _

/-- A property of each guard that only the keys it guards decide. -/
def Local (guard : K → K) (property : K → Log V → Prop) : Prop :=
  ∀ anchor first second, (∀ key, guard key = anchor → Log.lookup first key = Log.lookup second key) →
    property anchor first → property anchor second

/-- What every kept store has, guard by guard, no move disturbs. -/
theorem Local.moved {property : K → Log V → Prop} (localized : Local discipline.guard property) {anchor : K}
    (kept : ∀ log, discipline.kept log → property anchor log) {committed : Log V} (whole : session.Whole discipline.guard)
    (moves : discipline.Moves session committed) (here : property anchor session.view) :
    property anchor (session.seeing committed).view := by
  by_cases held : anchor ∈ session.current.locks
  · exact localized anchor _ _ (fun key guarded => ((moves.lookup whole key).1 (guarded ▸ held)).symm) here
  · exact localized anchor _ _ (fun key guarded => ((moves.lookup whole key).2 (guarded ▸ held)).symm) (kept _ moves.kept)

/-- An assertion about the inside of a transaction, whatever its savepoints. -/
structure Inner (discipline : Discipline V ε) (assertion : Session V → Prop) : Prop where
  moved : ∀ session committed, session.Whole discipline.guard → discipline.Moves session committed →
    assertion session → assertion (session.seeing committed)
  resaved : ∀ session saved, session.saved ≠ [] → saved ≠ [] → assertion session →
    assertion { session with saved := saved }
  locked : ∀ session key, assertion session → assertion (session.hold key)

/-- A nested block takes one assertion to another, or leaves the first where it was. -/
theorem Inner.atomic {before after : Session V → Prop} (inner : Inner discipline before) (inner' : Inner discipline after)
    {body : Tx V Ω ε α} (opened : session.saved ≠ []) (here : before session)
    (run : ∀ session' : Session V, session'.saved ≠ [] → session.current.locks ⊆ session'.current.locks → before session' →
      discipline.Holds server (Returns fun _ => after) body session') :
    discipline.Holds server (fun result final => match result with
      | .ok _ => after final
      | .error _ => before final) (Tx.atomic body) session := by
  have seen {committed : Log V} (moves : discipline.Moves session committed)
      (whole : (session.seeing committed).Whole discipline.guard) : before (session.seeing committed) :=
    inner.moved session committed ⟨whole.guarded, whole.nested, whole.opened⟩ moves here
  refine Holds.atomic (fun committed moves whole => run _ (List.cons_ne_nil _ _) (List.Subset.refl _) ?_) ?_ ?_
  · exact inner.resaved (session.seeing committed) _ opened (List.cons_ne_nil _ _) (seen moves whole)
  · intro value final committed reached saves moves whole
    refine ⟨fun outermost => absurd outermost opened, ?_⟩
    have there := inner'.moved final committed ⟨whole.guarded, whole.nested, whole.opened⟩ moves reached
    obtain ⟨frame, rest, nested⟩ := List.exists_cons_of_ne_nil opened
    have left : (final.seeing committed).leave = { final.seeing committed with saved := session.saved } := by
      have saves' : (final.seeing committed).saved = session.current :: session.saved := saves
      unfold Session.leave
      rw [saves', nested]
    rw [left]
    exact inner'.resaved _ _ (by rw [Session.seeing, saves]; exact List.cons_ne_nil _ _) opened there
  · exact fun error committed moves whole => seen moves whole

end Discipline
end Foundation
