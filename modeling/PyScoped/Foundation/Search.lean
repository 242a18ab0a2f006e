import Mathlib.Data.List.Nodup
import Mathlib.Tactic.Common

/-! Breadth-first search with a queue. What it finds is the first goal of the
nearest layer that has one; without a goal it finds every key that is reached. -/

namespace Foundation

/-- What is searched: items with the keys they are known by, those behind an
item in the order in which they are looked at, and the goals. -/
structure Search (ι κ : Type) where
  key : ι → κ
  next : ι → List ι
  goal : ι → Bool

namespace Search

variable {ι κ : Type} (search : Search ι κ)

/-- The items a number of steps behind others. -/
def layer : Nat → List ι → List ι
  | 0, items => items
  | n + 1, items => layer n (items.flatMap search.next)

variable {search} {items : List ι} {n : Nat}

theorem layer_append (first second : List ι) : search.layer n (first ++ second) = search.layer n first ++ search.layer n second := by
  induction n generalizing first second with
  | zero => rfl
  | succ n ih => rw [layer, List.flatMap_append, ih, layer, layer]

theorem layer_nil : search.layer n [] = [] := by
  induction n with
  | zero => rfl
  | succ n ih => exact ih

theorem mem_layer {item : ι} : item ∈ search.layer n items ↔ ∃ start ∈ items, item ∈ search.layer n [start] := by
  induction items with
  | nil => simp [layer_nil]
  | cons start items ih =>
    rw [← List.singleton_append, layer_append, List.mem_append, ih]
    simp

/-- The last step of the way. -/
theorem layer_succ : search.layer (n + 1) items = (search.layer n items).flatMap search.next := by
  induction n generalizing items with
  | zero => rfl
  | succ n ih => exact ih

theorem mem_layer_succ {item : ι} : item ∈ search.layer (n + 1) items ↔ ∃ before ∈ search.layer n items, item ∈ search.next before := by
  rw [layer_succ, List.mem_flatMap]

theorem layer_subset {fewer : List ι} (subset : fewer ⊆ items) : search.layer n fewer ⊆ search.layer n items := by
  intro item member
  obtain ⟨start, member, reached⟩ := mem_layer.mp member
  exact mem_layer.mpr ⟨start, subset member, reached⟩

theorem goalless_subset {fewer : List ι} (subset : fewer ⊆ items) (goalless : (search.layer n items).find? search.goal = none) :
    (search.layer n fewer).find? search.goal = none := by
  rw [List.find?_eq_none] at goalless ⊢
  exact fun item member => goalless item (layer_subset subset member)

/-- Items have a depth, and of two with the same key the shallower one leads
wherever the deeper one does. -/
structure Graded (search : Search ι κ) (depth : ι → Nat) : Prop where
  next : ∀ item, ∀ behind ∈ search.next item, depth behind = depth item + 1
  dominates : ∀ shallow deep, search.key shallow = search.key deep → depth shallow ≤ depth deep →
    ∀ behind ∈ search.next deep, ∃ behind' ∈ search.next shallow, search.key behind' = search.key behind
  goal : ∀ first second, search.key first = search.key second → search.goal first = search.goal second

variable {depth : ι → Nat}

theorem Graded.layer (graded : search.Graded depth) {shallow deep : ι} (same : search.key shallow = search.key deep)
    (above : depth shallow ≤ depth deep) {item : ι} (reached : item ∈ search.layer n [deep]) :
    ∃ item' ∈ search.layer n [shallow], search.key item' = search.key item := by
  induction n generalizing shallow deep with
  | zero =>
    rw [List.mem_singleton.mp reached]
    exact ⟨shallow, List.mem_singleton_self _, same⟩
  | succ n ih =>
    rw [Search.layer, List.flatMap_singleton] at reached
    obtain ⟨behind, member, reached⟩ := mem_layer.mp reached
    obtain ⟨behind', member', same'⟩ := graded.dominates shallow deep same above behind member
    have above' : depth behind' ≤ depth behind := by
      rw [graded.next _ _ member, graded.next _ _ member']
      omega
    obtain ⟨item', reached', known⟩ := ih same' above' reached
    refine ⟨item', ?_, known⟩
    rw [Search.layer, List.flatMap_singleton]
    exact mem_layer.mpr ⟨behind', member', reached'⟩

variable [DecidableEq κ] (search)

/-- Looks at candidates until one is a goal. Those whose key was not seen yet
are queued. -/
def visit : List κ → List ι → ι ⊕ (List κ × List ι)
  | seen, [] => .inr (seen, [])
  | seen, item :: items =>
    if search.goal item then .inl item
    else if search.key item ∈ seen then visit seen items
    else match visit (search.key item :: seen) items with
      | .inl found => .inl found
      | .inr (seen, queued) => .inr (seen, item :: queued)

/-- Works the queue off, up to a goal or with everything that was queued. -/
def drain : Nat → List κ → List ι → Option (ι ⊕ List ι)
  | _, _, [] => some (.inr [])
  | 0, _, _ :: _ => none
  | fuel + 1, seen, item :: queue =>
    match search.visit seen (search.next item) with
    | .inl found => some (.inl found)
    | .inr (seen, queued) => (drain fuel seen (queue ++ queued)).map (Sum.map id (queued ++ ·))

/-- The search with a whole level of the queue at a time. -/
def levels : Nat → List κ → List ι → ι ⊕ List ι
  | 0, _, _ => .inr []
  | n + 1, seen, level =>
    match search.visit seen (level.flatMap search.next) with
    | .inl found => .inl found
    | .inr (seen, queued) => (levels n seen queued).map id (queued ++ ·)

variable {search} {seen seen' : List κ} {queued : List ι}

theorem visit_append (first second : List ι) : search.visit seen (first ++ second) =
    match search.visit seen first with
    | .inl found => .inl found
    | .inr (seen', queued) => match search.visit seen' second with
      | .inl found => .inl found
      | .inr (seen'', queued') => .inr (seen'', queued ++ queued') := by
  induction first generalizing seen with
  | nil =>
    simp only [List.nil_append, visit]
    cases search.visit seen second <;> rfl
  | cons item first ih =>
    simp only [List.cons_append, visit]
    split
    · rfl
    · split
      · exact ih
      · rw [ih]
        cases search.visit (search.key item :: seen) first with
        | inl found => rfl
        | inr visited =>
          dsimp only
          cases search.visit visited.1 second <;> rfl

/-- What looking at candidates without a goal comes to. -/
structure Visited (search : Search ι κ) (seen : List κ) (items : List ι) (seen' : List κ) (queued : List ι) : Prop where
  goalless : ∀ item ∈ items, search.goal item = false
  sublist : queued.Sublist items
  marked : ∀ key, key ∈ seen' ↔ key ∈ seen ∨ key ∈ queued.map search.key
  all : ∀ item ∈ items, search.key item ∈ seen'
  nodup : (queued.map search.key).Nodup
  fresh : ∀ item ∈ queued, search.key item ∉ seen

theorem visited_of_visit (visited : search.visit seen items = .inr (seen', queued)) : Visited search seen items seen' queued := by
  induction items generalizing seen seen' queued with
  | nil =>
    cases visited
    exact ⟨nofun, .slnil, by simp, nofun, List.nodup_nil, nofun⟩
  | cons item items ih =>
    unfold visit at visited
    split at visited
    · cases visited
    next plain =>
    have plain : search.goal item = false := Bool.not_eq_true _ ▸ plain
    split at visited
    next known =>
      have rest := ih visited
      refine ⟨?_, rest.sublist.cons _, rest.marked, ?_, rest.nodup, rest.fresh⟩
      · exact List.forall_mem_cons.mpr ⟨plain, rest.goalless⟩
      · exact List.forall_mem_cons.mpr ⟨(rest.marked _).mpr (.inl known), rest.all⟩
    next unknown =>
      cases later : search.visit (search.key item :: seen) items with
      | inl found => simp [later] at visited
      | inr after =>
        simp only [later, Sum.inr.injEq, Prod.mk.injEq] at visited
        obtain ⟨rfl, rfl⟩ := visited
        have rest := ih later
        refine ⟨?_, rest.sublist.cons_cons _, ?_, ?_, ?_, ?_⟩
        · exact List.forall_mem_cons.mpr ⟨plain, rest.goalless⟩
        · intro key
          rw [rest.marked, List.mem_cons, List.map_cons, List.mem_cons]
          tauto
        · exact List.forall_mem_cons.mpr ⟨(rest.marked _).mpr (.inl List.mem_cons_self), rest.all⟩
        · rw [List.map_cons, List.nodup_cons]
          constructor
          · intro again
            obtain ⟨other, member, same⟩ := List.mem_map.mp again
            exact rest.fresh other member (same ▸ List.mem_cons_self)
          · exact rest.nodup
        · intro other member
          rcases List.mem_cons.mp member with rfl | member
          · exact unknown
          · exact fun old => rest.fresh other member (List.mem_cons_of_mem _ old)

theorem visit_goal {goal : ι} (found : items.find? search.goal = some goal) : search.visit seen items = .inl goal := by
  induction items generalizing seen with
  | nil => cases found
  | cons item items ih =>
    unfold visit
    cases here : search.goal item with
    | true =>
      rw [List.find?_cons_of_pos here] at found
      rw [if_pos rfl, Option.some.inj found]
    | false =>
      rw [List.find?_cons_of_neg (by simp [here])] at found
      rw [if_neg Bool.false_ne_true, ih found, ih found]
      split <;> rfl

theorem visit_goalless (seen : List κ) (goalless : items.find? search.goal = none) : ∃ seen' queued, search.visit seen items = .inr (seen', queued) := by
  induction items generalizing seen with
  | nil => exact ⟨seen, [], rfl⟩
  | cons item items ih =>
    rw [List.find?_eq_none] at goalless
    have rest := List.find?_eq_none.mpr fun other member => goalless other (List.mem_cons_of_mem _ member)
    unfold visit
    rw [if_neg (goalless item List.mem_cons_self)]
    split
    · exact ih seen rest
    · obtain ⟨seen', queued, visited⟩ := ih (search.key item :: seen) rest
      exact ⟨seen', item :: queued, by rw [visited]⟩

/-- The queue is worked off level by level. -/
theorem drain_level (search : Search ι κ) (seen : List κ) (level rest : List ι) (fuel : Nat) :
    search.drain (level.length + fuel) seen (level ++ rest) =
    match search.visit seen (level.flatMap search.next) with
    | .inl found => some (.inl found)
    | .inr (seen', queued) => (search.drain fuel seen' (rest ++ queued)).map (Sum.map id (queued ++ ·)) := by
  induction level generalizing seen rest with
  | nil =>
    simp only [List.length_nil, Nat.zero_add, List.nil_append, List.flatMap_nil, visit, List.append_nil]
    cases search.drain fuel seen rest with
    | none => rfl
    | some answer => cases answer <;> rfl
  | cons item level ih =>
    rw [List.length_cons, Nat.add_right_comm, List.cons_append, drain, List.flatMap_cons, visit_append]
    cases search.visit seen (search.next item) with
    | inl found => rfl
    | inr visited =>
      obtain ⟨seen', queued⟩ := visited
      dsimp only
      rw [List.append_assoc, ih]
      cases search.visit seen' (level.flatMap search.next) with
      | inl found => rfl
      | inr visited' =>
        obtain ⟨seen'', queued'⟩ := visited'
        dsimp only
        rw [List.append_assoc, Option.map_map]
        congr 1
        funext answer
        cases answer <;> simp

/-- How many of the keys were not seen yet. -/
def room (keys seen : List κ) : Nat := (keys.filter fun key => key ∉ seen).length

variable {keys : List κ}

theorem room_cons {key : κ} (known : key ∈ keys) (fresh : key ∉ seen) :
    room keys (key :: seen) + 1 ≤ room keys seen := by
  have fewer : (keys.filter fun other => decide (other ∉ key :: seen)) =
      (keys.filter fun other => decide (other ∉ seen)).filter fun other => other ≠ key := by
    rw [List.filter_filter]
    apply List.filter_congr
    intro other _
    simp [not_or]
  have member : key ∈ keys.filter fun other => decide (other ∉ seen) := by
    simpa using ⟨known, fresh⟩
  unfold room
  rw [fewer]
  exact List.length_filter_lt_length_iff_exists.mpr ⟨key, member, by simp⟩

/-- Every queued item takes up room. -/
theorem visit_room (known : ∀ item ∈ items, search.key item ∈ keys)
    (visited : search.visit seen items = .inr (seen', queued)) : queued.length + room keys seen' ≤ room keys seen := by
  induction items generalizing seen seen' queued with
  | nil =>
    cases visited
    simp
  | cons item items ih =>
    have rest := fun other member => known other (List.mem_cons_of_mem _ member)
    unfold visit at visited
    split at visited
    · cases visited
    split at visited
    · exact ih rest visited
    next fresh =>
      cases later : search.visit (search.key item :: seen) items with
      | inl found => simp [later] at visited
      | inr after =>
        simp only [later, Sum.inr.injEq, Prod.mk.injEq] at visited
        obtain ⟨rfl, rfl⟩ := visited
        have queued := ih rest later
        have taken := room_cons (known item List.mem_cons_self) fresh
        rw [List.length_cons]
        omega

theorem levels_nil : search.levels n seen [] = .inr [] := by
  induction n generalizing seen with
  | zero => rfl
  | succ n ih =>
    unfold levels
    simp only [List.flatMap_nil, visit, ih]
    rfl

/-- With as many steps as there is room for, the queue runs empty. -/
theorem drain_eq (closed : ∀ item, ∀ behind ∈ search.next item, search.key behind ∈ keys) {fuel : Nat}
    (steps : items.length + room keys seen ≤ n) (fuelled : items.length + room keys seen ≤ fuel) :
    search.drain fuel seen items = some (search.levels n seen items) := by
  induction n generalizing fuel seen items with
  | zero =>
    have empty := List.length_eq_zero_iff.mp (show items.length = 0 by omega)
    subst empty
    cases fuel <;> rfl
  | succ n ih =>
    by_cases empty : items = []
    · subst empty
      rw [levels_nil]
      cases fuel <;> rfl
    · have positive := List.length_pos_iff.mpr empty
      obtain ⟨spare, rfl⟩ := Nat.exists_eq_add_of_le (show items.length ≤ fuel by omega)
      have split := drain_level search seen items [] spare
      rw [List.append_nil] at split
      rw [split]
      unfold levels
      cases visited : search.visit seen (items.flatMap search.next) with
      | inl found => rfl
      | inr after =>
        obtain ⟨seen', queued⟩ := after
        have known : ∀ item ∈ items.flatMap search.next, search.key item ∈ keys := by
          intro item member
          obtain ⟨before, -, behind⟩ := List.mem_flatMap.mp member
          exact closed before item behind
        have bound := visit_room known visited
        dsimp only
        rw [List.nil_append, ih (by omega) (by omega)]
        rfl

variable {steps : Nat}

/-- A search without a goal ahead finds none. -/
theorem levels_goalless (seen : List κ) (goalless : ∀ n, (search.layer (n + 1) items).find? search.goal = none) :
    ∃ found, search.levels steps seen items = .inr found := by
  induction steps generalizing seen items with
  | zero => exact ⟨[], rfl⟩
  | succ steps ih =>
    have plain : (items.flatMap search.next).find? search.goal = none := goalless 0
    obtain ⟨seen', queued, visited⟩ := visit_goalless seen plain
    have sublist := (visited_of_visit visited).sublist
    obtain ⟨found, searched⟩ := ih seen' fun n => goalless_subset sublist.subset (goalless (n + 1))
    unfold levels
    rw [visited]
    exact ⟨queued ++ found, congrArg (Sum.map id (queued ++ ·)) searched⟩

/-- What is not queued would not have been the first to lead to a goal. -/
theorem Graded.visit_find (graded : search.Graded depth) {level : Nat} (even : ∀ item ∈ items, depth item = level)
    (visited : search.visit seen items = .inr (seen', queued)) (before : List ι)
    (idle : ∀ item ∈ items, search.key item ∈ seen →
      (∃ twin ∈ before, search.key twin = search.key item ∧ depth twin ≤ level) ∨
        (search.layer n [item]).find? search.goal = none) :
    (search.layer n (before ++ queued)).find? search.goal = (search.layer n (before ++ items)).find? search.goal := by
  induction items generalizing seen seen' queued before with
  | nil =>
    cases visited
    rfl
  | cons item items ih =>
    have even' := fun other member => even other (List.mem_cons_of_mem _ member)
    unfold visit at visited
    split at visited
    · cases visited
    split at visited
    next known =>
      rw [ih even' visited before fun other member => idle other (List.mem_cons_of_mem _ member), layer_append,
        ← List.singleton_append, layer_append, layer_append, List.find?_append, List.find?_append, List.find?_append]
      rcases idle item List.mem_cons_self known with ⟨twin, member, same, above⟩ | dead
      · -- the twin stands before, and leads to a goal if the item does
        cases ahead : (search.layer n [item]).find? search.goal with
        | none => simp
        | some goal =>
          have reached := List.mem_of_find?_eq_some ahead
          have isGoal := List.find?_some ahead
          rw [← even item List.mem_cons_self] at above
          obtain ⟨goal', reached', same'⟩ := graded.layer same above reached
          have isGoal' : search.goal goal' = true := (graded.goal _ _ same').trans isGoal
          have present : ((search.layer n before).find? search.goal).isSome = true :=
            List.find?_isSome.mpr ⟨goal', mem_layer.mpr ⟨twin, member, reached'⟩, isGoal'⟩
          obtain ⟨first, shown⟩ := Option.isSome_iff_exists.mp present
          rw [shown]
          rfl
      · rw [dead]
        simp
    next fresh =>
      cases later : search.visit (search.key item :: seen) items with
      | inl found => simp [later] at visited
      | inr after =>
        simp only [later, Sum.inr.injEq, Prod.mk.injEq] at visited
        obtain ⟨rfl, rfl⟩ := visited
        have idle' : ∀ other ∈ items, search.key other ∈ search.key item :: seen →
            (∃ twin ∈ before ++ [item], search.key twin = search.key other ∧ depth twin ≤ level) ∨
              (search.layer n [other]).find? search.goal = none := by
          intro other member known
          rcases List.mem_cons.mp known with same | known
          · left
            exact ⟨item, by simp, same.symm, Nat.le_of_eq (even item List.mem_cons_self)⟩
          · rcases idle other (List.mem_cons_of_mem _ member) known with ⟨twin, member', rest⟩ | dead
            · exact .inl ⟨twin, List.mem_append_left _ member', rest⟩
            · exact .inr dead
        have rest := ih even' later (before ++ [item]) idle'
        simpa only [List.append_assoc, List.singleton_append] using rest

/-- The search ends at the first goal of the nearest layer that has one. -/
theorem Graded.levels_goal (graded : search.Graded depth) {level : Nat} {goal : ι} (enough : n < steps)
    (even : ∀ item ∈ items, depth item = level)
    (idle : ∀ key ∈ seen, ∃ item, search.key item = key ∧ depth item ≤ level ∧
      ∀ ahead, 1 ≤ ahead → ahead ≤ n → (search.layer ahead [item]).find? search.goal = none)
    (goalless : ∀ ahead, 1 ≤ ahead → ahead ≤ n → (search.layer ahead items).find? search.goal = none)
    (found : (search.layer (n + 1) items).find? search.goal = some goal) : search.levels steps seen items = .inl goal := by
  induction n generalizing steps seen items level with
  | zero =>
    obtain ⟨steps, rfl⟩ := Nat.exists_eq_add_of_lt enough
    have here : (items.flatMap search.next).find? search.goal = some goal := found
    rw [Nat.zero_add]
    unfold levels
    rw [visit_goal here]
  | succ n ih =>
    obtain ⟨steps, rfl⟩ := Nat.exists_eq_add_of_lt enough
    have behind : ∀ item ∈ items.flatMap search.next, depth item = level + 1 := by
      intro item member
      obtain ⟨start, member, next⟩ := List.mem_flatMap.mp member
      rw [graded.next start item next, even start member]
    have plain : (items.flatMap search.next).find? search.goal = none := goalless 1 (Nat.le_refl _) (by omega)
    obtain ⟨seen', queued, visited⟩ := visit_goalless seen plain
    have facts := visited_of_visit visited
    unfold levels
    rw [visited]
    dsimp only
    suffices rest : search.levels (n + 1 + steps) seen' queued = .inl goal by
      rw [rest]
      rfl
    have even' : ∀ item ∈ queued, depth item = level + 1 := fun item member => behind item (facts.sublist.subset member)
    refine ih (by omega) even' ?_ ?_ ?_
    · intro key member
      rcases (facts.marked key).mp member with old | new
      · obtain ⟨item, same, above, dead⟩ := idle key old
        exact ⟨item, same, by omega, fun ahead positive within => dead ahead positive (by omega)⟩
      · obtain ⟨item, waits, rfl⟩ := List.mem_map.mp new
        have reached := facts.sublist.subset waits
        refine ⟨item, rfl, Nat.le_of_eq (behind item reached), ?_⟩
        intro ahead positive within
        have subset : [item] ⊆ items.flatMap search.next := by simpa using reached
        exact goalless_subset subset (goalless (ahead + 1) (by omega) (by omega))
    · intro ahead positive within
      exact goalless_subset facts.sublist.subset (goalless (ahead + 1) (by omega) (by omega))
    · rw [← List.nil_append queued, graded.visit_find behind visited [], List.nil_append]
      · exact found
      · intro item member known
        right
        obtain ⟨twin, same, above, dead⟩ := idle _ known
        have quiet := List.find?_eq_none.mp (dead (n + 1) (by omega) (Nat.le_refl _))
        have above' : depth twin ≤ depth item := by
          rw [behind item member]
          omega
        apply List.find?_eq_none.mpr
        intro ahead reached
        obtain ⟨ahead', reached', same'⟩ := graded.layer same above' reached
        rw [graded.goal _ _ same'.symm]
        exact quiet ahead' reached'

variable {found : List ι}

/-- What a search without a goal finds: each item was reached, no key twice. -/
theorem levels_found (searched : search.levels steps seen items = .inr found) :
    (∀ item ∈ found, ∃ n, item ∈ search.layer (n + 1) items) ∧ (found.map search.key).Nodup ∧
      ∀ item ∈ found, search.key item ∉ seen := by
  induction steps generalizing seen items found with
  | zero =>
    cases searched
    exact ⟨nofun, List.nodup_nil, nofun⟩
  | succ steps ih =>
    unfold levels at searched
    cases visited : search.visit seen (items.flatMap search.next) with
    | inl goal => simp [visited] at searched
    | inr after =>
      obtain ⟨seen', queued⟩ := after
      have facts := visited_of_visit visited
      cases later : search.levels steps seen' queued with
      | inl goal => simp [visited, later] at searched
      | inr found' =>
        simp only [visited, later, Sum.map_inr, Sum.inr.injEq] at searched
        obtain ⟨reached, nodup, fresh⟩ := ih later
        rw [← searched]
        refine ⟨?_, ?_, ?_⟩
        · intro item member
          rcases List.mem_append.mp member with first | rest
          · exact ⟨0, facts.sublist.subset first⟩
          · obtain ⟨n, within⟩ := reached item rest
            exact ⟨n + 1, layer_subset facts.sublist.subset within⟩
        · rw [List.map_append, List.nodup_append]
          refine ⟨facts.nodup, nodup, ?_⟩
          intro key first other rest same
          obtain ⟨item, member, known⟩ := List.mem_map.mp rest
          apply fresh item member
          rw [known, ← same]
          exact (facts.marked key).mpr (.inr first)
        · intro item member old
          rcases List.mem_append.mp member with first | rest
          · exact facts.fresh item first old
          · exact fresh item rest ((facts.marked _).mpr (.inl old))

/-- With as many steps as there is room for, everything behind what was found
was found as well, and not deeper. -/
theorem Graded.levels_closed (graded : search.Graded depth)
    (known : ∀ item, ∀ behind ∈ search.next item, search.key behind ∈ keys) {level : Nat}
    (enough : items.length + room keys seen ≤ steps) (even : ∀ item ∈ items, depth item = level) (before : List ι)
    (marked : ∀ key ∈ seen, ∃ item ∈ before, search.key item = key ∧ depth item ≤ level)
    (searched : search.levels steps seen items = .inr found) :
    ∀ item ∈ items ++ found, ∀ behind ∈ search.next item,
      ∃ item' ∈ before ++ found, search.key item' = search.key behind ∧ depth item' ≤ depth behind := by
  induction steps generalizing seen items level before found with
  | zero =>
    have empty := List.length_eq_zero_iff.mp (show items.length = 0 by omega)
    cases searched
    rw [empty]
    exact nofun
  | succ steps ih =>
    by_cases empty : items = []
    · rw [empty, levels_nil] at searched
      cases searched
      rw [empty]
      exact nofun
    have positive := List.length_pos_iff.mpr empty
    unfold levels at searched
    cases visited : search.visit seen (items.flatMap search.next) with
    | inl goal => simp [visited] at searched
    | inr after =>
      obtain ⟨seen', queued⟩ := after
      have facts := visited_of_visit visited
      cases later : search.levels steps seen' queued with
      | inl goal => simp [visited, later] at searched
      | inr found' =>
        simp only [visited, later, Sum.map_inr, Sum.inr.injEq] at searched
        have deep : ∀ item ∈ items.flatMap search.next, depth item = level + 1 := by
          intro item member
          obtain ⟨start, member, next⟩ := List.mem_flatMap.mp member
          rw [graded.next start item next, even start member]
        have within : ∀ item ∈ items.flatMap search.next, search.key item ∈ keys := by
          intro item member
          obtain ⟨start, -, next⟩ := List.mem_flatMap.mp member
          exact known start item next
        have bound := visit_room within visited
        have marked' : ∀ key ∈ seen', ∃ item ∈ before ++ queued, search.key item = key ∧ depth item ≤ level + 1 := by
          intro key member
          rcases (facts.marked key).mp member with old | new
          · obtain ⟨item, stands, same, above⟩ := marked key old
            exact ⟨item, List.mem_append_left _ stands, same, by omega⟩
          · obtain ⟨item, waits, same⟩ := List.mem_map.mp new
            exact ⟨item, List.mem_append_right _ waits, same, Nat.le_of_eq (deep item (facts.sublist.subset waits))⟩
        have rest := ih (by omega) (fun item waits => deep item (facts.sublist.subset waits)) (before ++ queued) marked' later
        rw [← searched]
        intro item member behind next
        rw [← List.append_assoc]
        rcases List.mem_append.mp member with here | further
        · have candidate : behind ∈ items.flatMap search.next := List.mem_flatMap.mpr ⟨item, here, next⟩
          obtain ⟨item', stands, same, above⟩ := marked' _ (facts.all behind candidate)
          rw [← deep behind candidate] at above
          exact ⟨item', List.mem_append_left _ stands, same, above⟩
        · exact rest item further behind next

/-- A search from one item finds all keys that are reached, that item's own apart
where it counts as seen. -/
theorem Graded.levels_reach (graded : search.Graded depth) {start : ι} {before : List ι} (first : before ⊆ [start])
    (marked : ∀ key ∈ seen, ∃ item ∈ before, search.key item = key ∧ depth item ≤ depth start)
    (known : ∀ item, ∀ behind ∈ search.next item, search.key behind ∈ keys)
    (enough : 1 + room keys seen ≤ steps) (searched : search.levels steps seen [start] = .inr found) {item : ι}
    (reached : item ∈ search.layer (n + 1) [start]) : ∃ item' ∈ before ++ found, search.key item' = search.key item := by
  have even : ∀ item ∈ [start], depth item = depth start := fun item member => by rw [List.mem_singleton.mp member]
  have closed := graded.levels_closed known enough even before marked searched
  -- in steps counted from the other end: what is behind an item that stands for another one
  have ahead : ∀ n, ∀ first ∈ [start] ++ found, ∀ other, search.key first = search.key other → depth first ≤ depth other →
      ∀ item ∈ search.layer (n + 1) [other], ∃ item' ∈ before ++ found, search.key item' = search.key item := by
    intro n
    induction n with
    | zero =>
      intro first stands other same above item member
      rw [Search.layer, List.flatMap_singleton] at member
      obtain ⟨item', next, known⟩ := graded.dominates first other same above item member
      obtain ⟨item'', stands', same', -⟩ := closed first stands item' next
      exact ⟨item'', stands', same'.trans known⟩
    | succ n ih =>
      intro first' stands other same above item member
      rw [Search.layer, List.flatMap_singleton] at member
      obtain ⟨behind, next, member⟩ := mem_layer.mp member
      obtain ⟨behind', next', known⟩ := graded.dominates first' other same above behind next
      obtain ⟨item', stands', same', above'⟩ := closed first' stands behind' next'
      have stands'' : item' ∈ [start] ++ found := List.mem_append.mpr ((List.mem_append.mp stands').imp_left fun here => first here)
      apply ih item' stands'' behind (same'.trans known) ?_ item member
      rw [graded.next _ _ next]
      rw [graded.next _ _ next'] at above'
      omega
  exact ahead n start (List.mem_append_left _ (List.mem_singleton_self _)) start rfl (Nat.le_refl _) item reached

/-- A search from one item, with nothing seen, finds all keys that are reached. -/
theorem Graded.levels_complete (graded : search.Graded depth) {start : ι}
    (known : ∀ item, ∀ behind ∈ search.next item, search.key behind ∈ keys)
    (enough : 1 + room keys [] ≤ steps) (searched : search.levels steps [] [start] = .inr found) {item : ι}
    (reached : item ∈ search.layer (n + 1) [start]) : ∃ item' ∈ found, search.key item' = search.key item :=
  graded.levels_reach (List.nil_subset _) (by simp) known enough searched reached

end Search
end Foundation
