import PyScoped.Core.Client
import PyScoped.Core.ResultCache

/-! Data leaves a queryset only in its own context, except where a method reads
the filled cache without a check. -/

namespace PyScoped.ResultCache
open Foundation

variable {app : App}

private theorem ok_of_bind {ε α β : Type} {first : Except ε α} {next : α → Except ε β} {result : β}
    (answered : first.bind next = .ok result) : ∃ value, first = .ok value ∧ next value = .ok result := by
  cases first with
  | error error => cases answered
  | ok value => exact ⟨value, rfl, answered⟩

private theorem selected_mem {α β : Type} {select : α → Option β} {items : List α} {results : List β}
    (selected : items.mapM select = some results) : ∀ result ∈ results, ∃ item, select item = some result := by
  induction items generalizing results with
  | nil =>
    cases selected
    nofun
  | cons item items ih =>
    rw [List.mapM_cons] at selected
    obtain ⟨first, found, selected⟩ := Option.bind_eq_some_iff.mp selected
    obtain ⟨others, rest, same⟩ := Option.bind_eq_some_iff.mp selected
    cases same
    intro result member
    obtain rfl | member := List.mem_cons.mp member
    · exact ⟨item, found⟩
    · exact ih rest result member

variable {data : Data app} {rows : List (Entry app)}

namespace Object

/-- The current context is the one the queryset was created in. -/
def Own (object : Object app) (current : Option Active) : Prop :=
  ∃ active, current = some active ∧ object.context.map (·.token) = some active.token

/-- An enforced queryset was created in a context. -/
def Bound (object : Object app) : Prop := object.config.enforce = true → object.context.isSome = true

/-- The method answers with data from the filled cache, whatever the context. -/
def exposes (object : Object app) (method : Method) : Bool :=
  match object.resultCache with
  | none => false
  | some rows =>
    match method with
    | .iter | .len | .bool | .count | .exists' => !object.guarded
    | .index position => decide (0 ≤ position) && decide (position.toNat < rows.length)
    | .slice start stop step => !(start.any (· < 0) || stop.any (· < 0)) && decide (step ≠ some 0)
    | .first => object.isOrdered
    | .contains label pk =>
      !object.combined && !object.projected && decide (label = object.label) && decide (pk ≠ .none)
    | _ => false

variable {object : Object app} {current : Option Active} {choice : Choice app}

theorem checkContext_own (enforced : object.config.enforce = true) (guarded : object.guarded = true)
    (passed : object.checkContext current = .ok ()) : object.Own current := by
  unfold checkContext Queryset.checkContext at passed
  rw [if_pos guarded, if_pos enforced] at passed
  cases current with
  | none => cases passed
  | some active =>
    refine ⟨active, rfl, ?_⟩
    by_contra different
    change ¬ object.queryset.context.map (·.token) = some active.token at different
    simp only [Env.current, currentContext, bind, Except.bind, Except.mapError] at passed
    rw [if_neg different] at passed
    cases passed

theorem compile_own (enforced : object.config.enforce = true) (bound : object.Bound)
    (passed : object.compile current = .ok ()) : object.Own current := by
  obtain ⟨context, created⟩ := Option.isSome_iff_exists.mp (bound enforced)
  unfold compile at passed
  rw [created] at passed
  cases current with
  | none => cases passed
  | some active =>
    simp only [currentContext] at passed
    split at passed
    next same => exact ⟨active, rfl, by rw [created, same]; rfl⟩
    · cases passed

theorem evaluate_own (enforced : object.config.enforce = true) (bound : object.Bound)
    (answered : object.evaluate current choice = .ok rows) : object.Own current := by
  obtain ⟨_, passed, -⟩ := ok_of_bind answered
  exact compile_own enforced bound passed

theorem checkedRows_own (enforced : object.config.enforce = true) (bound : object.Bound)
    (answered : object.checkedRows current choice = .ok rows) :
    object.Own current ∨ object.guarded = false ∧ object.resultCache.isSome = true := by
  obtain ⟨_, passed, answered⟩ := ok_of_bind answered
  cases guarded : object.guarded with
  | true => exact .inl (checkContext_own enforced guarded passed)
  | false =>
    cases filled : object.resultCache with
    | some cached => exact .inr ⟨rfl, rfl⟩
    | none =>
      rw [filled] at answered
      exact .inl (evaluate_own enforced bound answered)

theorem clone_own (object : Object app) (enforced : object.config.enforce = true) (bound : object.Bound)
    (empty : object.resultCache = none)
    (answered : object.checkedRows current choice = .ok rows) : object.Own current := by
  obtain own | ⟨-, filled⟩ := checkedRows_own enforced bound answered
  · exact own
  · rw [empty] at filled
    cases filled

theorem limited_own (enforced : object.config.enforce = true) (bound : object.Bound)
    (answered : object.limited.checkedRows current choice = .ok rows) : object.Own current :=
  clone_own object.limited enforced bound rfl answered

theorem index_own (enforced : object.config.enforce = true) (bound : object.Bound) {position : Int} {row : Entry app}
    (answered : object.index current choice position = .ok row) :
    object.Own current ∨ object.exposes (.index position) = true := by
  unfold index at answered
  split at answered
  · cases answered
  next nonneg =>
    cases filled : object.resultCache with
    | none =>
      rw [filled] at answered
      obtain ⟨rows, fetched, -⟩ := ok_of_bind answered
      exact .inl (limited_own enforced bound fetched)
    | some rows =>
      rw [filled] at answered
      simp only at answered
      split at answered
      next found =>
        have inside := (List.getElem?_eq_some_iff.mp found).1
        refine .inr ?_
        simp [exposes, filled, inside]
        omega
      · cases answered

theorem slice_own (enforced : object.config.enforce = true) (bound : object.Bound) {start stop step : Option Int}
    (answered : object.slice current choice start stop step = .ok (.data data)) :
    object.Own current ∨ object.exposes (.slice start stop step) = true := by
  unfold slice at answered
  split at answered
  · cases answered
  next nonneg =>
    cases filled : object.resultCache with
    | none =>
      rw [filled] at answered
      simp only at answered
      split at answered
      · cases answered
      · obtain ⟨rows, fetched, -⟩ := ok_of_bind answered
        exact .inl (limited_own enforced bound fetched)
    | some rows =>
      rw [filled] at answered
      simp only at answered
      split at answered
      · cases answered
      next zero =>
        refine .inr ?_
        simp only [exposes, filled, Bool.and_eq_true, Bool.not_eq_true', decide_eq_true_eq]
        exact ⟨Bool.not_eq_true _ ▸ nonneg, zero⟩

theorem first_own (enforced : object.config.enforce = true) (bound : object.Bound) {row : Option (Entry app)}
    (answered : object.first current choice = .ok row) : object.Own current ∨ object.exposes .first = true := by
  unfold first at answered
  split at answered
  next ordered =>
    cases filled : object.resultCache with
    | none =>
      unfold head at answered
      rw [filled] at answered
      obtain ⟨rows, fetched, -⟩ := ok_of_bind answered
      exact .inl (limited_own enforced bound fetched)
    | some rows => exact .inr (by simpa only [exposes, filled] using ordered)
  · unfold orderBy at answered
    split at answered
    · cases answered
    · obtain ⟨ordered, same, answered⟩ := ok_of_bind answered
      cases same
      obtain ⟨rows, fetched, -⟩ := ok_of_bind answered
      exact .inl (clone_own object.limited enforced bound rfl fetched)

theorem contains_own (enforced : object.config.enforce = true) (bound : object.Bound) {label : String} {pk : Value}
    (answered : object.contains current choice label pk = .ok (.data data)) :
    object.Own current ∨ object.exposes (.contains label pk) = true := by
  unfold contains at answered
  split at answered
  · cases answered
  next single =>
    split at answered
    · cases answered
    next whole =>
      split at answered
      · cases answered
      next sameLabel =>
        split at answered
        · cases answered
        next saved =>
          cases filled : object.resultCache with
          | none =>
            rw [filled] at answered
            obtain ⟨filtered, derived, answered⟩ := ok_of_bind answered
            obtain ⟨found, answered, -⟩ := ok_of_bind answered
            obtain ⟨rows, fetched, -⟩ := ok_of_bind answered
            unfold filter at derived
            split at derived
            · cases derived
            · cases derived
              exact .inl (clone_own object.clone enforced bound rfl fetched)
          | some rows =>
            refine .inr ?_
            simp [exposes, filled, single, whole, saved, not_not.mp sameLabel]

/-- A method that answers with data is in the queryset's own context or exposed. -/
theorem call_own (enforced : object.config.enforce = true) (bound : object.Bound) {method : Method}
    {after : Object app} (answered : object.call current choice method = .ok (.data data, after)) :
    object.Own current ∨ object.exposes method = true := by
  have cached {rows : List (Entry app)} (fetched : object.checkedRows current choice = .ok rows) :
      object.Own current ∨ (object.guarded = false ∧ object.resultCache.isSome = true) :=
    checkedRows_own enforced bound fetched
  have exposed (reads : method = .iter ∨ method = .len ∨ method = .bool ∨ method = .count ∨ method = .exists')
      (plain : object.guarded = false ∧ object.resultCache.isSome = true) : object.exposes method = true := by
    obtain ⟨rows, filled⟩ := Option.isSome_iff_exists.mp plain.2
    obtain rfl | rfl | rfl | rfl | rfl := reads <;> simp [exposes, filled, plain.1]
  cases method with
  | iter | len | bool =>
    obtain ⟨rows, fetched, -⟩ := ok_of_bind answered
    exact (cached fetched).imp_right (exposed (by simp))
  | count | exists' =>
    obtain ⟨_, answered, -⟩ := ok_of_bind answered
    obtain ⟨rows, fetched, -⟩ := ok_of_bind answered
    exact (cached fetched).imp_right (exposed (by simp))
  | index position =>
    obtain ⟨row, answered, -⟩ := ok_of_bind answered
    exact index_own enforced bound answered
  | slice start stop step =>
    obtain ⟨answer, sliced, same⟩ := ok_of_bind answered
    cases same
    exact slice_own enforced bound sliced
  | first =>
    obtain ⟨row, answered, -⟩ := ok_of_bind answered
    exact first_own enforced bound answered
  | contains label pk =>
    obtain ⟨answer, tested, same⟩ := ok_of_bind answered
    cases same
    exact contains_own enforced bound tested
  | aggregate =>
    obtain ⟨_, -, answered⟩ := ok_of_bind answered
    obtain ⟨rows, evaluated, -⟩ := ok_of_bind answered
    exact .inl (evaluate_own enforced bound evaluated)
  | all => cases answered
  | values => cases answered
  | none => cases answered
  | filter =>
    obtain ⟨_, -, same⟩ := ok_of_bind answered
    cases same
  | orderBy =>
    obtain ⟨_, -, same⟩ := ok_of_bind answered
    cases same

/-- An exposed method answers with data in every context. -/
theorem exposes_call (current : Option Active) (choice : Choice app) {method : Method}
    (exposed : object.exposes method = true) : ∃ data after, object.call current choice method = .ok (.data data, after) := by
  cases filled : object.resultCache with
  | none => simp [exposes, filled] at exposed
  | some rows =>
    have cached (plain : object.guarded = false) : object.checkedRows current choice = .ok rows := by
      simp [checkedRows, checkContext, plain, filled, bind, Except.bind, pure, Except.pure]
    cases method with
    | iter | len | bool | count | exists' =>
      have fetched := cached (by simpa [exposes, filled] using exposed)
      simp only [call, count, exists', fetched, bind, Except.bind, pure, Except.pure]
      exact ⟨_, _, rfl⟩
    | index position =>
      simp only [exposes, filled, Bool.and_eq_true, decide_eq_true_eq] at exposed
      simp only [call, index, if_neg (show ¬ position < 0 by omega), filled, List.getElem?_eq_getElem exposed.2]
      exact ⟨_, _, rfl⟩
    | slice start stop step =>
      simp only [exposes, filled, Bool.and_eq_true, Bool.not_eq_true', decide_eq_true_eq] at exposed
      simp only [call, slice, exposed.1, filled, if_neg exposed.2]
      exact ⟨_, _, rfl⟩
    | first =>
      simp only [exposes, filled] at exposed
      simp only [call, first, exposed, head, filled, if_true]
      exact ⟨_, _, rfl⟩
    | contains label pk =>
      simp only [exposes, filled, Bool.and_eq_true, Bool.not_eq_true', decide_eq_true_eq] at exposed
      obtain ⟨⟨⟨single, whole⟩, sameLabel⟩, saved⟩ := exposed
      simp only [call, contains, single, whole, sameLabel, if_neg saved, filled, ne_eq, not_true, if_false,
        Bool.false_eq_true]
      exact ⟨_, _, rfl⟩
    | aggregate | all | filter | orderBy | values | none => simp [exposes, filled] at exposed

theorem filter_bound (bound : object.Bound) {filtered : Object app} (made : object.filter = .ok filtered) :
    filtered.Bound := by
  unfold filter at made
  split at made
  · cases made
  · split at made <;> cases made
    exact bound

theorem orderBy_bound (bound : object.Bound) {ordered : Object app} (made : object.orderBy = .ok ordered) :
    ordered.Bound := by
  unfold orderBy at made
  split at made <;> cases made
  exact bound

theorem slice_bound (bound : object.Bound) {start stop step : Option Int} {sliced : Object app}
    (answered : object.slice current choice start stop step = .ok (.queryset sliced)) : sliced.Bound := by
  unfold slice at answered
  split at answered
  · cases answered
  · split at answered
    · split at answered <;> cases answered
    · split at answered
      · cases answered
        exact bound
      · obtain ⟨rows, -, same⟩ := ok_of_bind answered
        cases same

theorem contains_no_queryset {label : String} {pk : Value} {other : Object app} :
    object.contains current choice label pk ≠ .ok (.queryset other) := by
  intro tested
  unfold contains at tested
  split at tested
  · cases tested
  · split at tested
    · cases tested
    · split at tested
      · cases tested
      · split at tested
        · cases tested
        · cases filled : object.resultCache with
          | some rows =>
            rw [filled] at tested
            cases tested
          | none =>
            rw [filled] at tested
            obtain ⟨filtered, -, found⟩ := ok_of_bind tested
            obtain ⟨value, -, same⟩ := ok_of_bind found
            cases same

/-- What a method leaves and what it makes is bound. -/
theorem call_bound (bound : object.Bound) {method : Method} {answer : Answer app} {after : Object app}
    (answered : object.call current choice method = .ok (answer, after)) :
    after.Bound ∧ ∀ other, answer = .queryset other → other.Bound := by
  cases method with
  | iter | len | bool =>
    obtain ⟨rows, -, same⟩ := ok_of_bind answered
    obtain ⟨rfl, rfl⟩ := Prod.mk.inj (Except.ok.inj same)
    exact ⟨bound, by simp⟩
  | index | first | count | exists' =>
    obtain ⟨value, -, same⟩ := ok_of_bind answered
    obtain ⟨rfl, rfl⟩ := Prod.mk.inj (Except.ok.inj same)
    exact ⟨bound, by simp⟩
  | slice start stop step =>
    obtain ⟨_, sliced, same⟩ := ok_of_bind answered
    cases same
    exact ⟨bound, fun other same => slice_bound bound (same ▸ sliced)⟩
  | contains label pk =>
    obtain ⟨_, tested, same⟩ := ok_of_bind answered
    cases same
    exact ⟨bound, fun other same => absurd (same ▸ tested) contains_no_queryset⟩
  | aggregate =>
    obtain ⟨_, -, answered⟩ := ok_of_bind answered
    obtain ⟨_, -, same⟩ := ok_of_bind answered
    cases same
    exact ⟨bound, by simp⟩
  | all =>
    cases answered
    exact ⟨bound, by rintro _ ⟨⟩; exact bound⟩
  | values =>
    cases answered
    exact ⟨bound, by rintro _ ⟨⟩; exact bound⟩
  | none =>
    cases answered
    exact ⟨bound, by rintro _ ⟨⟩; exact bound⟩
  | filter =>
    obtain ⟨_, made, same⟩ := ok_of_bind answered
    cases same
    exact ⟨bound, by rintro _ ⟨⟩; exact filter_bound bound made⟩
  | orderBy =>
    obtain ⟨_, made, same⟩ := ok_of_bind answered
    cases same
    exact ⟨bound, by rintro _ ⟨⟩; exact orderBy_bound bound made⟩

theorem manager_bound {label : String} {config : Registration (app.model label)} {metaOrdering scopedBase : Bool}
    (made : manager current label config metaOrdering scopedBase = .ok object) : object.Bound := by
  unfold manager at made
  intro enforced
  split at made
  · split at made <;> cases made
    rfl
  next audited =>
    cases made
    exact absurd enforced audited

theorem merge_bound (bound : object.Bound) {operator : Merge} {other new : Object app}
    (merged : object.merge current choice operator other = .ok (.new new)) : new.Bound := by
  obtain ⟨_, -, built⟩ := ok_of_bind merged
  split at built
  · cases built
  · split at built
    · cases built
    · unfold mergeQueries at built
      split at built
      · split at built
        · cases built
        · split at built
          · cases built
          · split at built
            · cases built
            · split at built <;> cases built
              exact bound
      · split at built
        · cases built
        · split at built
          · cases built
          · split at built
            · cases built
            · cases built
              split <;> exact bound

theorem combine_bound (bound : object.Bound) {combinator : Combinator} {others : List (Object app)} {new : Object app}
    (each : ∀ other ∈ others, other.Bound) (combined : object.combine current combinator others = .ok (.new new)) :
    new.Bound := by
  have position (index : Nat) : (others.getD index object).Bound := by
    rw [List.getD_eq_getElem?_getD]
    cases found : others[index]? with
    | none => exact bound
    | some other => exact each other (List.mem_of_getElem? found)
  obtain ⟨_, -, combined⟩ := ok_of_bind combined
  split at combined
  · split at combined
    · split at combined
      · cases combined
      next index _ =>
        split at combined <;> cases combined
        exact position index
    · split at combined <;> cases combined
      exact bound
  · split at combined
    · cases combined
    · split at combined <;> cases combined
      exact bound
  · split at combined <;> cases combined
    exact bound

end Object

namespace RowIterator

variable {iterator : RowIterator app} {current : Option Active} {choice : Choice app}

theorem yieldRow_source (rows : List (Entry app)) : (iterator.yieldRow current rows).2.source = iterator.source := by
  unfold yieldRow
  split
  · rfl
  · split <;> rfl

theorem next_source : (iterator.next current choice).2.source = iterator.source := by
  unfold next
  split
  · rfl
  · exact yieldRow_source _
  · split
    · exact yieldRow_source _
    · rfl

/-- A generator over a plain queryset that has rows to come. -/
def Exposed (iterator : RowIterator app) : Prop :=
  iterator.source.guarded = false ∧ ∃ row rows, iterator.remaining = .running (row :: rows)

theorem yieldRow_own (enforced : iterator.source.config.enforce = true) (guarded : iterator.source.guarded = true)
    {row : Entry app} (yielded : (iterator.yieldRow current rows).1 = .ok row) :
    iterator.source.Own current := by
  unfold yieldRow at yielded
  split at yielded
  · cases yielded
  · split at yielded
    next passed => exact Object.checkContext_own enforced guarded passed
    · cases yielded

theorem next_own (enforced : iterator.source.config.enforce = true) (bound : iterator.source.Bound) {row : Entry app}
    (yielded : (iterator.next current choice).1 = .ok row) : iterator.source.Own current ∨ iterator.Exposed := by
  unfold next at yielded
  split at yielded
  · cases yielded
  next rows running =>
    cases guarded : iterator.source.guarded with
    | true => exact .inl (yieldRow_own enforced guarded yielded)
    | false =>
      cases rows with
      | nil => cases yielded
      | cons row rows => exact .inr ⟨guarded, row, rows, running⟩
  · split at yielded
    next rows evaluated =>
      obtain ⟨_, -, evaluated⟩ := ok_of_bind evaluated
      exact .inl (Object.evaluate_own enforced bound evaluated)
    · cases yielded

theorem Exposed.next (exposed : iterator.Exposed) (current : Option Active) (choice : Choice app) :
    ∃ row, (iterator.next current choice).1 = .ok row := by
  obtain ⟨plain, row, rows, running⟩ := exposed
  refine ⟨row, ?_⟩
  simp [RowIterator.next, running, yieldRow, Object.checkContext, plain]

end RowIterator

/-- Every enforced queryset was created in a context, and so was what generators read. -/
structure World.Bound (world : World app) : Prop where
  querysets : ∀ object ∈ world.querysets, object.Bound
  iterators : ∀ iterator ∈ world.iterators, iterator.source.Bound

namespace World

variable {world : World app} {current : Option Active} {choice : Choice app}

theorem Bound.add (bound : world.Bound) {object : Object app} (made : object.Bound) : (world.add object).Bound := by
  refine ⟨fun other member => ?_, bound.iterators⟩
  obtain member | member := List.mem_append.mp member
  · exact bound.querysets other member
  · exact List.mem_singleton.mp member ▸ made

theorem Bound.merged (bound : world.Bound) {made : Except Refusal (Merged app)}
    (new : ∀ object, made = .ok (.new object) → object.Bound) : (world.merged made).2.Bound := by
  unfold World.merged
  split
  · exact bound.add (new _ rfl)
  · exact bound
  · exact bound

theorem merged_no_data {made : Except Refusal (Merged app)} : (world.merged made).1 ≠ .data data := by
  unfold World.merged
  split <;> nofun

theorem Bound.perform (bound : world.Bound) {operation : Operation app} {outcome : Outcome app} {next : World app}
    (performed : world.perform current choice operation = some (outcome, next)) : next.Bound := by
  cases operation with
  | manager label config metaOrdering scopedBase =>
    simp only [World.perform] at performed
    split at performed <;> cases performed
    next made => exact bound.add (Object.manager_bound made)
    · exact bound
  | call receiver method =>
    obtain ⟨object, found, same⟩ := Option.map_eq_some_iff.mp performed
    have own := bound.querysets object (List.mem_of_getElem? found)
    split at same <;> cases same
    · exact bound
    next answered =>
      refine ⟨fun other member => ?_, bound.iterators⟩
      obtain member | rfl := List.mem_or_eq_of_mem_set member
      · exact bound.querysets other member
      · exact (Object.call_bound own answered).1
    next answered => exact bound.add ((Object.call_bound own answered).2 _ rfl)
    · exact bound
  | merge operator receiver other =>
    obtain ⟨object, found, performed⟩ := Option.bind_eq_some_iff.mp performed
    obtain ⟨other, -, same⟩ := Option.bind_eq_some_iff.mp performed
    obtain rfl := congrArg Prod.snd (Option.some.inj same)
    exact bound.merged fun new made => Object.merge_bound (bound.querysets object (List.mem_of_getElem? found)) made
  | combine combinator receiver others =>
    obtain ⟨object, found, performed⟩ := Option.bind_eq_some_iff.mp performed
    obtain ⟨others, selected, same⟩ := Option.bind_eq_some_iff.mp performed
    obtain rfl := congrArg Prod.snd (Option.some.inj same)
    refine bound.merged fun new made =>
      Object.combine_bound (bound.querysets object (List.mem_of_getElem? found)) (fun other member => ?_) made
    obtain ⟨index, found⟩ := selected_mem selected other member
    exact bound.querysets other (List.mem_of_getElem? found)
  | iterator receiver =>
    obtain ⟨object, found, same⟩ := Option.map_eq_some_iff.mp performed
    cases same
    refine ⟨bound.querysets, fun iterator member => ?_⟩
    obtain member | member := List.mem_append.mp member
    · exact bound.iterators iterator member
    · obtain rfl := List.mem_singleton.mp member
      exact bound.querysets object (List.mem_of_getElem? found)
  | next iterator =>
    obtain ⟨generator, found, same⟩ := Option.map_eq_some_iff.mp performed
    have kept : ∀ other ∈ world.iterators.set iterator (generator.next current choice).2, other.source.Bound := by
      intro other member
      obtain member | rfl := List.mem_or_eq_of_mem_set member
      · exact bound.iterators other member
      · rw [RowIterator.next_source]
        exact bound.iterators generator (List.mem_of_getElem? found)
    simp only at same
    split at same <;> cases same
    · exact ⟨bound.querysets, kept⟩
    · exact ⟨bound.querysets, kept⟩

/-- The queryset an operation is applied to, for `__next__` the one its generator reads. -/
def receiver (world : World app) : Operation app → Option (Object app)
  | .manager _ _ _ _ => none
  | .call receiver _ | .merge _ receiver _ | .combine _ receiver _ | .iterator receiver => world.querysets[receiver]?
  | .next iterator => world.iterators[iterator]?.map (·.source)

end World

namespace Step

/-- Data of an enforced queryset is returned only in the context it was created in. -/
def Confined (step : Step app) : Prop :=
  ∀ data object, step.outcome = .data data → step.before.receiver step.operation = some object →
    object.config.enforce = true → object.Own step.current

/-- In another context than its own, an enforced queryset is asked for what it
has in its cache by a method that checks nothing, or a running generator over a
plain queryset for its next row. -/
def Exposed (step : Step app) : Prop :=
  ∃ object, step.before.receiver step.operation = some object ∧ object.config.enforce = true ∧
    ¬ object.Own step.current ∧ match step.operation with
      | .call _ method => object.exposes method = true
      | .next iterator => ∃ generator, step.before.iterators[iterator]? = some generator ∧ generator.Exposed
      | _ => False

end Step

theorem perform_confined_iff {world next : World app} {current : Option Active} {choice : Choice app}
    {operation : Operation app} {outcome : Outcome app} (bound : world.Bound)
    (performed : world.perform current choice operation = some (outcome, next)) :
    (⟨world, current, operation, outcome⟩ : Step app).Confined ↔
      ¬ (⟨world, current, operation, outcome⟩ : Step app).Exposed := by
  constructor
  · rintro confined ⟨object, received, enforced, other, exposed⟩
    cases operation with
    | call receiver method =>
      obtain ⟨data, after, answered⟩ := Object.exposes_call current choice exposed
      change world.querysets[receiver]? = some object at received
      simp only [World.perform, received, Option.map_some, answered] at performed
      cases performed
      exact other (confined data object rfl received enforced)
    | next iterator =>
      obtain ⟨generator, found, exposed⟩ := exposed
      obtain ⟨row, yielded⟩ := exposed.next current choice
      simp only [World.perform, found, Option.map_some, yielded] at performed
      cases performed
      exact other (confined _ object rfl received enforced)
    | manager | merge | combine | iterator => exact exposed
  · intro hidden data object returned received enforced
    change outcome = .data data at returned
    subst returned
    by_contra other
    apply hidden
    refine ⟨object, received, enforced, other, ?_⟩
    cases operation with
    | call receiver method =>
      change world.querysets[receiver]? = some object at received
      simp only [World.perform, received, Option.map_some] at performed
      split at performed <;> cases performed
      next answered =>
        exact (Object.call_own enforced (bound.querysets object (List.mem_of_getElem? received)) answered).resolve_left
          other
    | next iterator =>
      obtain ⟨generator, found, rfl⟩ := Option.map_eq_some_iff.mp received
      simp only [World.perform, found, Option.map_some] at performed
      split at performed <;> cases performed
      next row yielded =>
        exact ⟨generator, found, (RowIterator.next_own enforced
          (bound.iterators generator (List.mem_of_getElem? found)) yielded).resolve_left other⟩
    | manager =>
      simp only [World.perform] at performed
      split at performed <;> cases performed
    | merge operator receiver second =>
      obtain ⟨_, -, performed⟩ := Option.bind_eq_some_iff.mp performed
      obtain ⟨_, -, same⟩ := Option.bind_eq_some_iff.mp performed
      exact World.merged_no_data (congrArg Prod.fst (Option.some.inj same))
    | combine combinator receiver others =>
      obtain ⟨_, -, performed⟩ := Option.bind_eq_some_iff.mp performed
      obtain ⟨_, -, same⟩ := Option.bind_eq_some_iff.mp performed
      exact World.merged_no_data (congrArg Prod.fst (Option.some.inj same))
    | iterator receiver =>
      obtain ⟨_, -, same⟩ := Option.map_eq_some_iff.mp performed
      cases same

theorem trace_confined_iff {world : World app} (bound : world.Bound)
    (turns : List (Option Active × Operation app × Choice app)) (step : Step app) (member : step ∈ trace world turns) :
    step.Confined ↔ ¬ step.Exposed := by
  induction turns generalizing world with
  | nil => cases member
  | cons turn turns ih =>
    obtain ⟨current, operation, choice⟩ := turn
    unfold trace at member
    split at member
    next outcome next performed =>
      obtain rfl | member := List.mem_cons.mp member
      · exact perform_confined_iff bound performed
      · exact ih (bound.perform performed) member
    · exact ih bound member

/-- No querysets yet. -/
def World.initial : World app := ⟨[], []⟩

/-- In every run, data of enforced querysets stays in their contexts exactly if no
step reads a filled cache unchecked from another context. -/
theorem confined_iff (turns : List (Option Active × Operation app × Choice app)) :
    (∀ step ∈ trace World.initial turns, step.Confined) ↔ ∀ step ∈ trace World.initial turns, ¬ step.Exposed := by
  have bound : (World.initial : World app).Bound := ⟨by simp [World.initial], by simp [World.initial]⟩
  exact forall₂_congr fun step member => trace_confined_iff bound turns step member

section Sample

private def folder : Entry Sample.filing :=
  ⟨"app.folder", "1", {
    column := fun name => if name = "id" then .str "1" else .str "s"
    keyed := rfl
    stored := fun field member => by
      simp only [Sample.filing, Sample.model] at member
      simp at member
      obtain rfl | rfl | rfl := member <;> rfl }⟩

/-- All folders in scope "s", counted there; then the first of them without any scope. -/
private def turns : List (Option Active × Operation Sample.filing × Choice Sample.filing) :=
  let entered := (Sample.scope "s" Sample.s_valid).context
  [(entered, .manager "app.folder" (Sample.config "app.folder") false false, ⟨none, [], .none⟩),
    (entered, .call 0 .len, ⟨none, [folder], .none⟩),
    (none, .call 0 (.index 0), ⟨none, [], .none⟩)]

private def folders : Object Sample.filing :=
  ⟨"app.folder", Sample.config "app.folder", (Sample.scope "s" Sample.s_valid).context, true, false, false, false, false,
    false, false, false, some [folder]⟩

/-- An index into the filled cache is answered where no context is entered. -/
theorem cached_index_escapes : ¬ ∀ step ∈ trace World.initial turns, step.Confined := by
  intro confined
  obtain ⟨step, third, returned, received, outside⟩ : ∃ step, (trace World.initial turns)[2]? = some step ∧
      step.outcome = .data (.row (some folder)) ∧ step.before.receiver step.operation = some folders ∧
      step.current = none := ⟨_, rfl, rfl, rfl, rfl⟩
  obtain ⟨active, entered, -⟩ := confined step (List.mem_of_getElem? third) _ folders returned received rfl
  rw [outside] at entered
  cases entered

end Sample

end PyScoped.ResultCache
