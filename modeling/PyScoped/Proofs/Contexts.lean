import PyScoped.Legacy.Contexts

/-! When leaving a block restores who acted before it. An object has one token, so
a block within a block of the same object takes the token of the outer one. -/

namespace PyScoped.Legacy.Contexts

variable {ι : Type}

/-- Blocks one after the other, with blocks in them. -/
inductive Nested : List (Turn ι) → Prop where
  | nil : Nested []
  | block {inner rest : List (Turn ι)} (context : ι) (raised : Bool) (inside : Nested inner) (onward : Nested rest) :
      Nested (.enter context :: (inner ++ .exit context raised :: rest))

variable {turns : List (Turn ι)} {context : ι}

theorem Nested.exit_mem {raised : Bool} (nested : Nested turns)
    (left : .exit context raised ∈ turns) : .enter context ∈ turns := by
  induction nested with
  | nil => cases left
  | block other raised' inside onward ihInside ihOnward =>
    simp only [List.mem_cons, List.mem_append, reduceCtorEq, false_or, Turn.exit.injEq, Turn.enter.injEq] at left ⊢
    rcases left with within | ⟨rfl, -⟩ | after
    · exact .inr (.inl (ihInside within))
    · exact .inl rfl
    · exact .inr (.inr (ihOnward after))

theorem Nested.append {first second : List (Turn ι)} (one : Nested first) (two : Nested second) : Nested (first ++ second) := by
  induction one with
  | nil => exact two
  | block context raised inside _ _ ihOnward =>
    rw [List.cons_append, List.append_assoc, List.cons_append]
    exact .block context raised inside ihOnward

/-- Where some of the blocks have begun, all of these are ended, or the innermost
that is open ends later. -/
theorem Nested.split {before after : List (Turn ι)} (nested : Nested (before ++ after)) :
    (Nested before ∧ Nested after) ∨
      ∃ outer context inner inside raised rest, before = outer ++ .enter context :: inner ∧ Nested inner ∧
        after = inside ++ .exit context raised :: rest ∧ Nested inside := by
  generalize whole : before ++ after = turns at nested
  induction nested generalizing before after with
  | nil =>
    obtain ⟨rfl, rfl⟩ := List.append_eq_nil_iff.mp whole
    exact .inl ⟨.nil, .nil⟩
  | @block inner rest context raised inside onward ihInside ihOnward =>
    cases before with
    | nil =>
      subst whole
      exact .inl ⟨.nil, .block context raised inside onward⟩
    | cons first before =>
      obtain ⟨rfl, remaining⟩ := List.cons.inj whole
      rcases List.append_eq_append_iff.mp remaining with ⟨within, rfl, rfl⟩ | ⟨beyond, rfl, same⟩
      · rcases ihInside rfl with ⟨ended, within'⟩ | ⟨outer, other, inner', inside', raised', rest', rfl, nested, rfl, nested'⟩
        · exact .inr ⟨[], context, before, within, raised, rest, rfl, ended, rfl, within'⟩
        · refine .inr ⟨.enter context :: outer, other, inner', inside', raised', rest' ++ .exit context raised :: rest, rfl,
            nested, ?_, nested'⟩
          rw [List.append_assoc, List.cons_append]
      · cases beyond with
        | nil => exact .inr ⟨[], context, inner, [], raised, rest, by simp, inside, same.symm, .nil⟩
        | cons _ beyond =>
          obtain ⟨rfl, later⟩ := List.cons.inj same
          rcases ihOnward later.symm with ⟨ended, after'⟩ | ⟨outer, other, inner', inside', raised', rest', rfl, nested, rfl, nested'⟩
          · exact .inl ⟨.block context raised inside ended, after'⟩
          · refine .inr ⟨.enter context :: (inner ++ .exit context raised :: outer), other, inner', inside', raised', rest', ?_,
              nested, rfl, nested'⟩
            simp

/-- Every block that has ended leaves current what was so before it. -/
def Restores [DecidableEq ι] (start : Thread ι) (turns : List (Turn ι)) : Prop :=
  ∀ before context raised inside after, turns = before ++ .enter context :: (inside ++ .exit context raised :: after) →
    Nested inside →
      (start.run (before ++ .enter context :: (inside ++ [.exit context raised]))).current = (start.run before).current

/-- No object is entered within a block of its own. -/
def Fresh (turns : List (Turn ι)) : Prop :=
  ∀ before context raised inside after, turns = before ++ .enter context :: (inside ++ .exit context raised :: after) →
    Nested inside → .enter context ∉ inside

theorem Fresh.of_nodup (once : turns.Nodup) : Fresh turns := by
  rintro before context raised inside after rfl - again
  have later := (List.nodup_cons.mp (List.nodup_append.mp once).2.1).1
  exact later (List.mem_append_left _ again)

namespace Thread

variable [DecidableEq ι]

theorem run_append (thread : Thread ι) (first second : List (Turn ι)) :
    thread.run (first ++ second) = (thread.run first).run second := List.foldl_append ..

theorem tokens_turn (thread : Thread ι) (turn : Turn ι) (entered : turn ≠ .enter context)
    (left : ∀ raised, turn ≠ .exit context raised) : (thread.turn turn).tokens context = thread.tokens context := by
  cases turn with
  | enter other =>
    refine Function.update_of_ne ?_ ..
    rintro rfl
    exact entered rfl
  | exit other raised =>
    change (thread.exit other).tokens context = _
    unfold exit
    split
    · refine Function.update_of_ne ?_ ..
      rintro rfl
      exact left raised rfl
    · rfl

theorem tokens_run (thread : Thread ι) (entered : .enter context ∉ turns)
    (left : ∀ raised, .exit context raised ∉ turns) : (thread.run turns).tokens context = thread.tokens context := by
  induction turns generalizing thread with
  | nil => rfl
  | cons turn turns ih =>
    have onward := ih (thread.turn turn) (fun member => entered (List.mem_cons_of_mem _ member))
      fun raised member => left raised (List.mem_cons_of_mem _ member)
    refine onward.trans (thread.tokens_turn turn ?_ fun raised => ?_)
    · rintro rfl
      exact entered List.mem_cons_self
    · rintro rfl
      exact left raised List.mem_cons_self

theorem exit_some {thread : Thread ι} {previous : Option ι} (token : thread.tokens context = some previous) :
    (thread.exit context).current = previous := by
  unfold exit
  rw [token]

theorem exit_none {thread : Thread ι} (token : thread.tokens context = none) : thread.exit context = thread := by
  unfold exit
  rw [token]

theorem tokens_exit (thread : Thread ι) (context : ι) : (thread.exit context).tokens context = none := by
  unfold exit
  split
  · exact Function.update_self ..
  · next none => exact none

theorem tokens_nested (thread : Thread ι) (nested : Nested turns)
    (entered : .enter context ∈ turns) : (thread.run turns).tokens context = none := by
  induction nested generalizing thread with
  | nil => cases entered
  | @block inner rest other raised inside onward ihInside ihOnward =>
    change ((thread.enter other).run (inner ++ .exit other raised :: rest)).tokens context = none
    rw [run_append]
    change ((((thread.enter other).run inner).exit other).run rest).tokens context = none
    by_cases later : .enter context ∈ rest
    · exact ihOnward _ later
    rw [tokens_run _ later fun raised left => later (onward.exit_mem left)]
    by_cases same : context = other
    · subst other
      exact tokens_exit _ context
    · have within : .enter context ∈ inner := by simpa [same, later] using entered
      have ended := ihInside (thread.enter other) within
      refine (((thread.enter other).run inner).tokens_turn (.exit other raised) ?_ ?_).trans ended
      · rintro ⟨⟩
      · rintro raised' ⟨⟩
        exact same rfl

end Thread

variable [DecidableEq ι]

theorem Restores.nested {start : Thread ι} (before : List (Turn ι)) {inside : List (Turn ι)} (after : List (Turn ι))
    (restores : Restores start (before ++ (inside ++ after))) (nested : Nested inside) : (start.run (before ++ inside)).current = (start.run before).current := by
  induction nested generalizing before with
  | nil => rw [List.append_nil]
  | @block inner rest context raised inside onward _ ihOnward =>
    have block := restores before context raised inner (rest ++ after) (by simp) inside
    have later : Restores start (before ++ .enter context :: (inner ++ [.exit context raised]) ++ (rest ++ after)) := by
      simpa using restores
    rw [← block, ← ihOnward _ later]
    simp

theorem Restores.current {start : Thread ι} {before inside after : List (Turn ι)} {raised : Bool}
    (restores : Restores start (before ++ .enter context :: (inside ++ .exit context raised :: after)))
    (nested : Nested inside) (again : .enter context ∈ inside) : (start.run before).current = some context := by
  rw [← restores before context raised inside after rfl nested]
  have acting : (start.run (before ++ .enter context :: inside)).current = some context := by
    have begun : Restores start (before ++ [.enter context] ++ (inside ++ .exit context raised :: after)) := by
      simpa using restores
    have inner := begun.nested _ _ nested
    rw [List.append_assoc, List.singleton_append] at inner
    rw [inner, Thread.run_append]
    rfl
  have token : (start.run (before ++ .enter context :: inside)).tokens context = none := by
    rw [Thread.run_append]
    exact Thread.tokens_nested ((start.run before).enter context) nested again
  rw [← List.cons_append, ← List.append_assoc, Thread.run_append]
  exact (congrArg Thread.current (Thread.exit_none token)).trans acting

/-- Leaving every block restores who acted before it, exactly if no object is
entered within a block of its own; then nobody acts in the end. -/
theorem restores_iff {turns : List (Turn ι)} (nested : Nested turns) :
    Restores Thread.idle turns ∧ (Thread.idle.run turns).current = none ↔ Fresh turns := by
  constructor
  · rintro ⟨restores, -⟩ before
    -- The first of the blocks that are entered again has another open around it.
    induction length : before.length using Nat.strongRecOn generalizing before with
    | ind n ih =>
      rintro context raised inside after rfl inner again
      subst length
      have acting := restores.current inner again
      rcases nested.split with ⟨ended, -⟩ | ⟨outer, other, inner', inside', raised', rest, rfl, ended, same, within⟩
      · have nobody := Restores.nested [] _ (by simpa using restores) ended
        rw [List.nil_append, acting] at nobody
        cases nobody
      · have acting' : (Thread.idle.run (outer ++ [.enter other] ++ inner')).current = some other := by
          have begun : Restores Thread.idle (outer ++ [.enter other] ++ (inner' ++ .enter context :: (inside ++ .exit context raised :: after))) := by
            simpa using restores
          rw [begun.nested _ _ ended, Thread.run_append]
          rfl
        rw [List.append_assoc, List.singleton_append, acting] at acting'
        cases acting'
        refine ih outer.length ?_ outer rfl context raised' (inner' ++ inside') rest ?_ (ended.append within) ?_
        · simp
        · rw [List.append_assoc, same]
          simp
        · cases inside' with
          | nil => cases same
          | cons first inside' =>
            obtain ⟨rfl, -⟩ := List.cons.inj same
            simp
  · intro fresh
    have restores : Restores Thread.idle turns := by
      rintro before context raised inside after rfl inner
      have new := fresh before context raised inside after rfl inner
      have token : ((Thread.idle.run before).enter context |>.run inside).tokens context =
          some (Thread.idle.run before).current := by
        rw [Thread.tokens_run _ new fun raised left => new (inner.exit_mem left)]
        exact Function.update_self ..
      rw [Thread.run_append]
      change ((Thread.run _ (inside ++ [.exit context raised])).current) = _
      rw [Thread.run_append]
      exact Thread.exit_some token
    exact ⟨restores, Restores.nested [] [] (by simpa using restores) nested⟩

/-- One principal acts within a block of another, which ends by an exception. -/
theorem restores_iff_two :
    Restores Thread.idle [.enter "alice", .enter "bob", .exit "bob" true, .exit "alice" false] ∧
      (Thread.idle.run [.enter "alice", .enter "bob", .exit "bob" true, .exit "alice" false]).current = none := by
  have nested : Nested [.enter "alice", .enter "bob", .exit "bob" true, .exit "alice" false] :=
    .block "alice" false (.block "bob" true .nil .nil) .nil
  exact (restores_iff nested).mpr (.of_nodup (by decide))

/-- An object that is entered within its own block stays current. -/
theorem reentered_stays :
    ∃ turns : List (Turn String), Nested turns ∧ ¬ Restores Thread.idle turns ∧
      (Thread.idle.run turns).current = some "alice" := by
  refine ⟨[.enter "alice", .enter "alice", .exit "alice" false, .exit "alice" false], ?_, fun restores => ?_, by decide⟩
  · exact .block "alice" false (.block "alice" false .nil .nil) .nil
  · have ended := restores [] "alice" false [.enter "alice", .exit "alice" false] [] rfl (.block "alice" false .nil .nil)
    revert ended
    decide

end PyScoped.Legacy.Contexts
