import Mathlib.Logic.Function.Basic

/-! Tables of keyed rows under READ COMMITTED. A transaction has its own versions
of the rows it wrote, sees them above the committed rows, and puts them there
when it commits. A statement outside of transactions commits by itself. Row
locks only delay statements, so leaving them out admits more interleavings. -/

namespace Foundation

variable {K : Type} {V : K → Type} {ι : Type} [DecidableEq ι]

/-- New versions of some rows. -/
abbrev Overlay (V : K → Type) := (key : K) → Option (V key)

namespace Overlay

/-- The first above the second. -/
def above (first second : Overlay V) : Overlay V := fun key => (first key).or (second key)

def single [DecidableEq K] (key : K) (value : V key) : Overlay V := Function.update (fun _ => none) key (some value)

theorem above_some {first second : Overlay V} {key : K} {value : V key} (found : first key = some value) :
    first.above second key = some value := by simp [above, found]

theorem above_none {first second : Overlay V} {key : K} (absent : first key = none) :
    first.above second key = second key := by simp [above, absent]

/-- Where a row of two layers comes from. -/
theorem above_eq_some {first second : Overlay V} {key : K} {value : V key} (found : first.above second key = some value) :
    first key = some value ∨ first key = none ∧ second key = some value := by
  cases own : first key with
  | none => exact .inr ⟨rfl, by rwa [above_none own] at found⟩
  | some other => exact .inl (by rwa [above_some own] at found)

end Overlay

/-- The committed rows, and the own versions of every open transaction. -/
structure Tables (V : K → Type) (ι : Type) where
  committed : Overlay V
  pending : ι → Option (Overlay V)

namespace Tables

variable (tables : Tables V ι) (client : ι)

omit [DecidableEq ι] in
def view : Overlay V :=
  match tables.pending client with
  | none => tables.committed
  | some own => own.above tables.committed

def enter : Tables V ι := { tables with pending := Function.update tables.pending client (some fun _ => none) }

def leave : Tables V ι := { tables with pending := Function.update tables.pending client none }

def write (rows : Overlay V) : Tables V ι :=
  match tables.pending client with
  | none => { tables with committed := rows.above tables.committed }
  | some own => { tables with pending := Function.update tables.pending client (some (rows.above own)) }

def commit : Tables V ι := ({ tables with committed := tables.view client } : Tables V ι).leave client

variable {tables client}

@[simp] theorem enter_committed : (tables.enter client).committed = tables.committed := rfl
@[simp] theorem enter_pending : (tables.enter client).pending client = some fun _ => none := by simp [enter]
@[simp] theorem leave_committed : (tables.leave client).committed = tables.committed := rfl
@[simp] theorem leave_pending : (tables.leave client).pending client = none := by simp [leave]
@[simp] theorem commit_committed : (tables.commit client).committed = tables.view client := rfl
@[simp] theorem commit_pending : (tables.commit client).pending client = none := by simp [commit]

theorem enter_pending_ne {other : ι} (different : other ≠ client) : (tables.enter client).pending other = tables.pending other := by
  simp [enter, different]

theorem leave_pending_ne {other : ι} (different : other ≠ client) : (tables.leave client).pending other = tables.pending other := by
  simp [leave, different]

theorem commit_pending_ne {other : ι} (different : other ≠ client) : (tables.commit client).pending other = tables.pending other := by
  simp [commit, leave, different]

theorem write_pending_ne {rows : Overlay V} {other : ι} (different : other ≠ client) :
    (tables.write client rows).pending other = tables.pending other := by
  unfold write
  split
  · rfl
  · simp [different]

theorem write_open {rows own : Overlay V} (opened : tables.pending client = some own) :
    tables.write client rows =
      { tables with pending := Function.update tables.pending client (some (rows.above own)) } := by
  simp [write, opened]

theorem write_closed {rows : Overlay V} (closed : tables.pending client = none) :
    tables.write client rows = { tables with committed := rows.above tables.committed } := by
  simp [write, closed]

omit [DecidableEq ι] in
theorem view_open {own : Overlay V} (opened : tables.pending client = some own) :
    tables.view client = own.above tables.committed := by simp [view, opened]

omit [DecidableEq ι] in
theorem view_closed (closed : tables.pending client = none) : tables.view client = tables.committed := by
  simp [view, closed]

end Tables
end Foundation
