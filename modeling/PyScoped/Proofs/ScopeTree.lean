import PyScoped.Legacy.ScopeTree

/-! The walks over the tree of scopes agree: a scope is among the descendants of
another one where that one is on its parent chain, as far as the pages of children reach. -/

namespace PyScoped.Legacy.ScopeTree
open Foundation

variable (table : Scopes)

def parent (scope : Scope) : Option Scope := scope.parentScopeId.bind table.find

/-- The scope a number of steps up the parent chain, if the chain goes so far. -/
def chain : Nat → Scope → Option Scope
  | 0, scope => some scope
  | k + 1, scope => (parent table scope).bind (chain k)

variable {table}

theorem chain_succ (k : Nat) (scope : Scope) : chain table (k + 1) scope = (chain table k scope).bind (parent table) := by
  induction k generalizing scope with
  | zero =>
    rw [chain, chain, Option.bind_some]
    cases parent table scope <;> rfl
  | succ k ih =>
    rw [chain, chain]
    cases parent table scope with
    | none => rfl
    | some above => exact ih above

variable {scope : Scope}

theorem parent_inside {above : Scope} (up : parent table scope = some above) : above ∈ table.list := by
  obtain ⟨id, -, found⟩ := Option.bind_eq_some_iff.mp up
  exact (Rows.find_eq_some.mp found).1

section Ancestors

variable {scopeId : String} {seen : List String} {current : Option String}

/-- What the loop finds from an id on, where some scopes were seen before. -/
structure Climbed (table : Scopes) (seen : List String) (current : Option String) (found : List Scope) : Prop where
  nearest : ∀ (i : Nat) above, found[i]? = some above → (current.bind table.find).bind (chain table i) = some above
  fresh : ∀ above ∈ found, above.id ∉ seen ∧ above.id ≠ ""
  nodup : (found.map Scope.id).Nodup
  next : ∀ above, current.bind table.find = some above → above.id = "" ∨ above.id ∈ seen ∨ above ∈ found
  closed : ∀ scope ∈ found, ∀ above, parent table scope = some above → above.id = "" ∨ above.id ∈ seen ∨ above ∈ found

theorem Climbed.ended (ends : ∀ above, current.bind table.find = some above → above.id = "" ∨ above.id ∈ seen) :
    Climbed table seen current [] where
  nearest := nofun
  fresh _ member := absurd member List.not_mem_nil
  nodup := List.nodup_nil
  next above up := (ends above up).imp_right .inl
  closed _ member := absurd member List.not_mem_nil

theorem Climbed.above {rest : List Scope} (named : scope.id ≠ "") (unseen : scope.id ∉ seen)
    (member : scope ∈ table.list) (climbed : Climbed table (scope.id :: seen) scope.parentScopeId rest) :
    Climbed table seen (some scope.id) (scope :: rest) := by
  have found : (some scope.id).bind table.find = some scope := Rows.find_mem member
  have known : ∀ above, above.id = "" ∨ above.id ∈ scope.id :: seen ∨ above ∈ rest → above ∈ table.list →
      above.id = "" ∨ above.id ∈ seen ∨ above ∈ scope :: rest := by
    intro above cases' inside
    rcases cases' with empty | old | listed
    · exact .inl empty
    · rcases List.mem_cons.mp old with same | old
      · rw [List.inj_on_of_nodup_map table.unique inside member same]
        exact .inr (.inr List.mem_cons_self)
      · exact .inr (.inl old)
    · exact .inr (.inr (List.mem_cons_of_mem _ listed))
  constructor
  · intro i above listed
    rw [found]
    cases i with
    | zero => exact listed
    | succ i => exact climbed.nearest i above listed
  · intro above listed
    rcases List.mem_cons.mp listed with rfl | listed
    · exact ⟨unseen, named⟩
    · obtain ⟨apart, named⟩ := climbed.fresh above listed
      exact ⟨fun old => apart (List.mem_cons_of_mem _ old), named⟩
  · rw [List.map_cons, List.nodup_cons]
    refine ⟨fun again => ?_, climbed.nodup⟩
    obtain ⟨other, listed, same⟩ := List.mem_map.mp again
    exact (climbed.fresh other listed).1 (same ▸ List.mem_cons_self)
  · intro above up
    rw [found] at up
    cases up
    exact .inr (.inr List.mem_cons_self)
  · intro scope' listed above up
    rcases List.mem_cons.mp listed with rfl | listed
    · exact known above (climbed.next above up) (parent_inside up)
    · exact known above (climbed.closed scope' listed above up) (parent_inside up)

theorem ancestorsFrom_climbed (started : scopeId ∈ seen) :
    Climbed table seen current (ancestorsFrom table scopeId seen current) := by
  fun_induction ancestorsFrom table scopeId seen current with
  | case1 => exact .ended nofun
  | case2 seen =>
    refine .ended fun above up => ?_
    exact .inl (Rows.find_eq_some.mp up).2
  | case3 seen currentId named known =>
    refine .ended fun above up => ?_
    rw [(Rows.find_eq_some.mp up).2]
    exact .inr known
  | case4 seen currentId named unseen missing =>
    refine .ended fun above up => ?_
    rw [Option.bind_some, missing] at up
    cases up
  | case5 seen currentId named unseen scope found _ rest different ih =>
    obtain ⟨member, rfl⟩ := Rows.find_eq_some.mp found
    exact .above named unseen member (ih (List.mem_cons_of_mem _ started))
  | case6 seen currentId named unseen scope found _ rest same ih =>
    have itself : currentId = scopeId := not_not.mp same
    exact absurd started (itself ▸ unseen)

/-- The ancestors are what the parent chain lists: nearest first, each once, without
the scope itself. -/
structure Lists (table : Scopes) (scope : Scope) (found : List Scope) : Prop where
  nearest : ∀ (i : Nat) above, found[i]? = some above → chain table (i + 1) scope = some above
  nodup : found.Nodup
  all : ∀ above, above ∈ found ↔ above ≠ scope ∧ ∃ k, 1 ≤ k ∧ chain table k scope = some above

theorem ancestors_eq (member : scope ∈ table.list) (named : scope.id ≠ "") :
    ancestors table scope.id = ancestorsFrom table scope.id [scope.id] scope.parentScopeId := by
  rw [ancestors, ancestorsFrom, if_neg named, dif_neg List.not_mem_nil]
  split
  next missing =>
    rw [Rows.find_mem member] at missing
    cases missing
  next found =>
    rw [Rows.find_mem member] at found
    cases found
    exact if_neg fun different => different rfl

theorem chain_inside {above : Scope} {k : Nat} (up : chain table (k + 1) scope = some above) : above ∈ table.list := by
  rw [chain_succ] at up
  obtain ⟨below, -, up⟩ := Option.bind_eq_some_iff.mp up
  exact parent_inside up

/-- The chain is listed exactly where none of its scopes, and not the scope itself
below others, has an empty id. -/
theorem ancestors_lists_iff (member : scope ∈ table.list) :
    Lists table scope (ancestors table scope.id) ↔
      ∀ above k, above ≠ scope → 1 ≤ k → chain table k scope = some above → scope.id ≠ "" ∧ above.id ≠ "" := by
  by_cases named : scope.id = ""
  · have none : ancestors table scope.id = [] := by rw [ancestors, ancestorsFrom, if_pos named]
    rw [none]
    constructor
    · intro lists above k different positive up
      exact absurd ((lists.all above).mpr ⟨different, k, positive, up⟩) List.not_mem_nil
    · intro alone
      refine ⟨fun i above found => ?_, List.nodup_nil, fun above => ?_⟩
      · cases found
      constructor
      · intro listed
        exact absurd listed List.not_mem_nil
      · intro upward
        obtain ⟨different, k, positive, up⟩ := upward
        exact absurd named (alone above k different positive up).1
  · rw [ancestors_eq member named]
    have climbed : Climbed table [scope.id] scope.parentScopeId (ancestorsFrom table scope.id [scope.id] scope.parentScopeId) :=
      ancestorsFrom_climbed (List.mem_singleton_self scope.id)
    constructor
    · intro lists above k different positive up
      exact ⟨named, (climbed.fresh above ((lists.all above).mpr ⟨different, k, positive, up⟩)).2⟩
    · intro apart
      refine ⟨climbed.nearest, climbed.nodup.of_map, fun above => ?_⟩
      constructor
      · intro listed
        obtain ⟨i, found⟩ := List.mem_iff_getElem?.mp listed
        refine ⟨?_, i + 1, by omega, climbed.nearest i above found⟩
        rintro rfl
        exact (climbed.fresh above listed).1 (List.mem_singleton_self _)
      · intro upward
        obtain ⟨different, k, positive, up⟩ := upward
        obtain ⟨k, rfl⟩ := Nat.exists_eq_add_of_le' positive
        have settled : ∀ above j, chain table (j + 1) scope = some above →
            (above.id = "" ∨ above.id ∈ [scope.id] ∨ above ∈ ancestorsFrom table scope.id [scope.id] scope.parentScopeId) →
            above = scope ∨ above ∈ ancestorsFrom table scope.id [scope.id] scope.parentScopeId := by
          intro above j up found
          by_cases itself : above = scope
          · exact .inl itself
          · rcases found with empty | old | listed
            · exact absurd empty (apart above (j + 1) itself (by omega) up).2
            · exact .inl (List.inj_on_of_nodup_map table.unique (chain_inside up) member (List.mem_singleton.mp old))
            · exact .inr listed
        have reached : ∀ j above, chain table (j + 1) scope = some above →
            above = scope ∨ above ∈ ancestorsFrom table scope.id [scope.id] scope.parentScopeId := by
          intro j
          induction j with
          | zero =>
            intro above up
            have first := up
            rw [chain_succ] at first
            exact settled above 0 up (climbed.next above first)
          | succ j ih =>
            intro above up
            have last := up
            rw [chain_succ] at last
            obtain ⟨below, up', next⟩ := Option.bind_eq_some_iff.mp last
            rcases ih below up' with rfl | listed
            · exact settled above (j + 1) up (climbed.next above next)
            · exact settled above (j + 1) up (climbed.closed below listed above next)
        exact (reached k above up).resolve_left different

end Ancestors

section Descendants

/-- A scope that is not archived, some steps below another one, every scope between
not archived either. -/
def Below (table : Scopes) (k : Nat) (scope above : Scope) : Prop :=
  chain table k scope = some above ∧ ∀ i < k, ∀ between, chain table i scope = some between → between.lifecycle ≠ .archived

/-- The children of the same parent that come before a scope in the table. -/
def earlier (table : Scopes) (child : Scope) : List Scope :=
  (table.list.takeWhile fun scope => scope ≠ child).filter fun scope =>
    scope.parentScopeId = child.parentScopeId && !scope.isArchived

/-- Each scope on the way is among the first children of its parent. -/
def Paged (table : Scopes) (k : Nat) (scope : Scope) : Prop :=
  ∀ i < k, ∀ between, chain table i scope = some between → (earlier table between).length < 1000

theorem mem_take_filter {l : List Scope} (nodup : l.Nodup) {chosen : Scope → Bool} {x : Scope} {limit : Nat} :
    x ∈ (l.filter chosen).take limit ↔
      x ∈ l ∧ chosen x = true ∧ ((l.takeWhile fun scope => scope ≠ x).filter chosen).length < limit := by
  induction l generalizing limit with
  | nil => simp
  | cons first l ih =>
    obtain ⟨fresh, nodup⟩ := List.nodup_cons.mp nodup
    by_cases same : first = x
    · subst same
      cases held : chosen first with
      | true =>
        rw [List.filter_cons_of_pos held, List.takeWhile_cons_of_neg (by simp)]
        cases limit <;> simp
      | false =>
        have apart : first ∉ (l.filter chosen).take limit := fun listed => fresh (List.mem_filter.mp (List.mem_of_mem_take listed)).1
        simp [held, apart]
    · have elsewhere : x ∈ first :: l ↔ x ∈ l := by simp [Ne.symm same]
      rw [List.takeWhile_cons_of_pos (by simpa using same), elsewhere]
      cases held : chosen first with
      | true =>
        rw [List.filter_cons_of_pos held, List.filter_cons_of_pos held, List.length_cons]
        cases limit with
        | zero => simp
        | succ limit =>
          rw [List.take_succ_cons, List.mem_cons, ih nodup, Nat.add_lt_add_iff_right]
          simp [Ne.symm same]
      | false => rw [List.filter_cons_of_neg (by simp [held]), List.filter_cons_of_neg (by simp [held]), ih nodup]

theorem mem_children {scopeId : String} {limit : Nat} {child : Scope} : child ∈ children table scopeId limit ↔
    child ∈ table.list ∧ child.parentScopeId = some scopeId ∧ child.lifecycle ≠ .archived ∧ (earlier table child).length < limit := by
  unfold children
  rw [mem_take_filter table.unique.of_map]
  have split : ((child.parentScopeId = some scopeId && !child.isArchived) = true) ↔
      child.parentScopeId = some scopeId ∧ child.lifecycle ≠ .archived := by simp [Scope.isArchived]
  rw [split, and_assoc]
  apply and_congr_right
  intro _
  apply and_congr_right
  intro up
  rw [earlier, up]

/-- The search of `descendants`: scopes with their depth. -/
def search (table : Scopes) (maxDepth : Int) : Search (Scope × Nat) String where
  key item := item.1.id
  next item := if maxDepth ≤ item.2 then [] else (children table item.1.id 1000).map fun child => (child, item.2 + 1)
  goal _ := false

variable {maxDepth maxTotal : Int}

theorem mem_next {item behind : Scope × Nat} : behind ∈ (search table maxDepth).next item ↔
    item.2 < maxDepth ∧ behind.2 = item.2 + 1 ∧ behind.1 ∈ children table item.1.id 1000 := by
  unfold search
  dsimp only
  split
  next deep => simp [Int.not_lt.mpr deep]
  next shallow =>
    rw [List.mem_map]
    constructor
    · rintro ⟨child, member, rfl⟩
      exact ⟨Int.not_le.mp shallow, rfl, member⟩
    · rintro ⟨-, depth, member⟩
      exact ⟨behind.1, member, Prod.ext rfl depth.symm⟩

theorem search_graded (table : Scopes) (maxDepth : Int) : (search table maxDepth).Graded Prod.snd where
  next _ _ member := (mem_next.mp member).2.1
  dominates shallow deep same above behind member := by
    obtain ⟨room, -, child⟩ := mem_next.mp member
    refine ⟨(behind.1, shallow.2 + 1), mem_next.mpr ⟨by omega, rfl, ?_⟩, rfl⟩
    have equal : shallow.1.id = deep.1.id := same
    rw [equal]
    exact child
  goal _ _ _ := rfl

theorem search_inside (item : Scope × Nat) (behind : Scope × Nat) (member : behind ∈ (search table maxDepth).next item) :
    (search table maxDepth).key behind ∈ table.ids :=
  List.mem_map_of_mem (children_inside table (mem_next.mp member).2.2).1

theorem parent_id {above : Scope} (up : parent table scope = some above) : scope.parentScopeId = some above.id := by
  obtain ⟨id, named, found⟩ := Option.bind_eq_some_iff.mp up
  rw [named, (Rows.find_eq_some.mp found).2]

theorem parent_child {child above : Scope} {limit : Nat} (member : above ∈ table.list) (listed : child ∈ children table above.id limit) :
    parent table child = some above := by
  rw [parent, (children_inside table listed).2.1]
  exact Rows.find_mem member

theorem below_succ {child above top : Scope} (up : parent table child = some above) {k : Nat} :
    Below table (k + 1) child top ↔ child.lifecycle ≠ .archived ∧ Below table k above top := by
  have shift : ∀ i, chain table (i + 1) child = chain table i above := by
    intro i
    rw [chain, up]
    rfl
  constructor
  · intro ⟨reached, live⟩
    refine ⟨live 0 (by omega) child rfl, shift k ▸ reached, fun i within between found => ?_⟩
    exact live (i + 1) (by omega) between (shift i ▸ found)
  · intro ⟨first, reached, live⟩
    refine ⟨shift k ▸ reached, fun i within between found => ?_⟩
    cases i with
    | zero =>
      cases found
      exact first
    | succ i => exact live i (by omega) between (shift i ▸ found)

theorem paged_succ {child above : Scope} (up : parent table child = some above) {k : Nat} :
    Paged table (k + 1) child ↔ (earlier table child).length < 1000 ∧ Paged table k above := by
  have shift : ∀ i, chain table (i + 1) child = chain table i above := by
    intro i
    rw [chain, up]
    rfl
  constructor
  · intro paged
    refine ⟨paged 0 (by omega) child rfl, fun i within between found => ?_⟩
    exact paged (i + 1) (by omega) between ((shift i).trans found)
  · intro ⟨first, paged⟩ i within between found
    cases i with
    | zero =>
      cases found
      exact first
    | succ i => exact paged i (by omega) between ((shift i).symm.trans found)

/-- The layers of the search are the ways down. -/
theorem mem_layer_iff {start : Scope} (member : start ∈ table.list) {n : Nat} {item : Scope × Nat} :
    item ∈ (search table maxDepth).layer n [(start, 0)] ↔
      item.2 = n ∧ ((n : Int) ≤ maxDepth ∨ n = 0) ∧ item.1 ∈ table.list ∧ Below table n item.1 start ∧ Paged table n item.1 := by
  induction n generalizing item with
  | zero =>
    rw [Search.layer, List.mem_singleton]
    constructor
    · intro same
      subst same
      refine ⟨rfl, .inr rfl, member, ⟨rfl, ?_⟩, ?_⟩ <;> intro i early <;> exact absurd early (Nat.not_lt_zero i)
    · intro stands
      obtain ⟨depth, -, -, ⟨reached, -⟩, -⟩ := stands
      exact Prod.ext (Option.some.inj reached) depth
  | succ n ih =>
    rw [Search.mem_layer_succ]
    constructor
    · intro follows
      obtain ⟨before, stands, next⟩ := follows
      obtain ⟨depth, _, inside, below, paged⟩ := ih.mp stands
      obtain ⟨room, deeper, child⟩ := mem_next.mp next
      obtain ⟨present, _, live, early⟩ := mem_children.mp child
      have up := parent_child inside child
      exact ⟨by omega, .inl (by omega), present, (below_succ up).mpr ⟨live, below⟩, (paged_succ up).mpr ⟨early, paged⟩⟩
    · intro deeper
      obtain ⟨depth, within, inside, below, paged⟩ := deeper
      have reached := below.1
      rw [chain] at reached
      obtain ⟨above, up, -⟩ := Option.bind_eq_some_iff.mp reached
      obtain ⟨live, below⟩ := (below_succ up).mp below
      obtain ⟨early, paged⟩ := (paged_succ up).mp paged
      have child : item.1 ∈ children table above.id 1000 := mem_children.mpr ⟨inside, parent_id up, live, early⟩
      exact ⟨(above, n), ih.mpr ⟨rfl, by omega, parent_inside up, below, paged⟩, mem_next.mpr ⟨by dsimp only; omega, depth, child⟩⟩

/-- The code's search is the one of the layers, as long as the total is not reached. -/
theorem visit_eq {depth : Nat} {result : List Scope} {queue : List (String × Nat)} {seen seen' : List String} {kids : List Scope}
    {queued : List (Scope × Nat)}
    (visited : (search table maxDepth).visit seen (kids.map fun child => (child, depth + 1)) = .inr (seen', queued))
    (room : (result.length + queued.length : Int) < maxTotal) : visit maxTotal depth ⟨result, queue, seen⟩ kids =
      ⟨result ++ queued.map Prod.fst, queue ++ queued.map fun item => (item.1.id, item.2), seen'⟩ := by
  induction kids generalizing result queue seen queued with
  | nil =>
    cases visited
    simp [visit]
  | cons child kids ih =>
    rw [List.map_cons, Search.visit, if_neg (by exact Bool.false_ne_true)] at visited
    rw [visit]
    by_cases known : child.id ∈ seen
    · rw [if_pos (by exact known)] at visited
      rw [if_pos known]
      exact ih visited room
    · rw [if_neg (by exact known)] at visited
      rw [if_neg known]
      have named : (search table maxDepth).key (child, depth + 1) = child.id := rfl
      rw [named] at visited
      cases later : (search table maxDepth).visit (child.id :: seen) (kids.map fun child => (child, depth + 1)) with
      | inl found =>
        rw [later] at visited
        cases visited
      | inr after =>
        obtain ⟨marked, queued'⟩ := after
        rw [later] at visited
        cases visited
        rw [List.length_cons] at room
        have grown : (result ++ [child]).length = result.length + 1 := List.length_append
        have fits : ¬ maxTotal ≤ ((result ++ [child]).length : Int) := by omega
        dsimp only
        rw [if_neg fits, ih later]
        · simp
        · omega

theorem drain_eq {fuel : Nat} {result : List Scope} {seen : List String} {queue found : List (Scope × Nat)}
    (searched : (search table maxDepth).drain fuel seen queue = some (.inr found))
    (room : (result.length + Search.room table.ids seen + 1 : Int) ≤ maxTotal) :
    drain table maxDepth maxTotal result seen (queue.map fun item => (item.1.id, item.2)) = result ++ found.map Prod.fst := by
  induction fuel generalizing result seen queue found with
  | zero =>
    cases queue with
    | nil =>
      cases searched
      simp [drain]
    | cons item queue => cases searched
  | succ fuel ih =>
    cases queue with
    | nil =>
      cases searched
      simp [drain]
    | cons item queue =>
      rw [Search.drain] at searched
      have more : ¬ maxTotal ≤ (result.length : Int) := by omega
      rw [List.map_cons, drain, if_neg more]
      cases visited : (search table maxDepth).visit seen ((search table maxDepth).next item) with
      | inl goal =>
        rw [visited] at searched
        cases searched
      | inr after =>
        obtain ⟨seen', queued⟩ := after
        rw [visited] at searched
        obtain ⟨answer, later, same⟩ := Option.map_eq_some_iff.mp searched
        cases answer with
        | inl goal => cases same
        | inr found' =>
          cases same
          have spent := Search.visit_room (search_inside item) visited
          split
          next deep =>
            have none : (search table maxDepth).next item = [] := if_pos deep
            rw [none] at visited
            cases visited
            rw [List.append_nil] at later
            exact ih later room
          next shallow =>
            have next : (search table maxDepth).next item =
                (children table item.1.id 1000).map fun child => (child, item.2 + 1) := if_neg shallow
            rw [next] at visited
            have fits : (result.length + queued.length : Int) < maxTotal := by omega
            rw [visit_eq visited fits]
            dsimp only
            rw [← List.map_append, ih later]
            · simp
            · rw [List.length_append, List.length_map]
              omega

theorem descendants_eq {start : Scope} (maxDepth : Int) (total : (table.list.length : Int) ≤ maxTotal) (top : start ∈ table.list) :
    ∃ found, (search table maxDepth).levels (1 + Search.room table.ids [start.id]) [start.id] [(start, 0)] = .inr found ∧
      descendants table maxDepth maxTotal start.id = found.map Prod.fst := by
  have goalless : ∀ n, ((search table maxDepth).layer (n + 1) [(start, 0)]).find? (search table maxDepth).goal = none := by
    intro n
    exact List.find?_eq_none.mpr fun _ _ => Bool.false_ne_true
  obtain ⟨found, searched⟩ : ∃ found, (search table maxDepth).levels (1 + Search.room table.ids [start.id]) [start.id]
      [(start, 0)] = .inr found := Search.levels_goalless [start.id] goalless
  refine ⟨found, searched, ?_⟩
  have drained : (search table maxDepth).drain (1 + Search.room table.ids [start.id]) [start.id] [(start, 0)] =
      some (.inr found) := by
    rw [← searched]
    exact Search.drain_eq search_inside (Nat.le_refl _) (Nat.le_refl _)
  have spare : Search.room table.ids [start.id] + 1 ≤ Search.room table.ids [] :=
    Search.room_cons (List.mem_map_of_mem top) List.not_mem_nil
  have all : Search.room table.ids [] = table.list.length := by simp [Search.room, Scopes.ids]
  have room : (([] : List Scope).length + Search.room table.ids [start.id] + 1 : Int) ≤ maxTotal := by
    rw [List.length_nil]
    omega
  exact drain_eq drained room

/-- What is found, as long as the total is not below the number of scopes. -/
theorem mem_descendants {start : Scope} (total : (table.list.length : Int) ≤ maxTotal) (top : start ∈ table.list)
    (member : scope ∈ table.list) (different : scope ≠ start) : scope ∈ descendants table maxDepth maxTotal start.id ↔
      ∃ k : Nat, 1 ≤ k ∧ (k : Int) ≤ maxDepth ∧ Below table k scope start ∧ Paged table k scope := by
  obtain ⟨found, searched, same⟩ := descendants_eq maxDepth total top
  obtain ⟨reached, -, -⟩ := Search.levels_found searched
  rw [same, List.mem_map]
  constructor
  · rintro ⟨item, listed, rfl⟩
    obtain ⟨n, layer⟩ := reached item listed
    obtain ⟨-, within, -, below, paged⟩ := (mem_layer_iff top).mp layer
    exact ⟨n + 1, by omega, by omega, below, paged⟩
  · intro ⟨k, positive, within, below, paged⟩
    obtain ⟨n, rfl⟩ := Nat.exists_eq_add_of_le' positive
    have layer : (scope, n + 1) ∈ (search table maxDepth).layer (n + 1) [(start, 0)] :=
      (mem_layer_iff top).mpr ⟨rfl, .inl within, member, below, paged⟩
    have marked : ∀ key ∈ [start.id], ∃ item ∈ [(start, 0)], (search table maxDepth).key item = key ∧ item.2 ≤ 0 := by
      intro key seen
      exact ⟨(start, 0), List.mem_singleton_self _, (List.mem_singleton.mp seen).symm, Nat.le_refl 0⟩
    obtain ⟨item, listed, known⟩ := (search_graded table maxDepth).levels_reach (List.Subset.refl _) marked search_inside
      (Nat.le_refl _) searched layer
    have known : item.1.id = scope.id := known
    rcases List.mem_append.mp listed with itself | listed
    · rw [List.mem_singleton.mp itself] at known
      exact absurd (List.inj_on_of_nodup_map table.unique member top known.symm) different
    · obtain ⟨n, layer⟩ := reached item listed
      obtain ⟨-, -, inside, -⟩ := (mem_layer_iff top).mp layer
      exact ⟨item, listed, List.inj_on_of_nodup_map table.unique inside member known⟩

theorem descendants_nodup {start : Scope} (total : (table.list.length : Int) ≤ maxTotal) (top : start ∈ table.list) :
    (descendants table maxDepth maxTotal start.id).Nodup := by
  obtain ⟨found, searched, same⟩ := descendants_eq maxDepth total top
  obtain ⟨-, nodup, -⟩ := Search.levels_found searched
  rw [same]
  apply List.Nodup.of_map Scope.id
  rw [List.map_map]
  exact nodup

end Descendants

/-- The walks up and down agree. The walk up lists the parent chain exactly where no
scope of it has an empty id. A scope is found below another one where the chain says
so exactly if, where the chain does, some way down keeps to the first thousand
children of each scope. -/
theorem scope_walks_agree_iff (table : Scopes) (maxDepth maxTotal : Int) (total : (table.list.length : Int) ≤ maxTotal)
    (top scope : Scope) (inside : top ∈ table.list) (member : scope ∈ table.list) (different : scope ≠ top) :
    (Lists table scope (ancestors table scope.id) ↔
      ∀ above k, above ≠ scope → 1 ≤ k → chain table k scope = some above → scope.id ≠ "" ∧ above.id ≠ "") ∧
    (descendants table maxDepth maxTotal top.id).Nodup ∧
    ((scope ∈ descendants table maxDepth maxTotal top.id ↔
        ∃ k : Nat, 1 ≤ k ∧ (k : Int) ≤ maxDepth ∧ Below table k scope top) ↔
      ((∃ k : Nat, 1 ≤ k ∧ (k : Int) ≤ maxDepth ∧ Below table k scope top) →
        ∃ k : Nat, 1 ≤ k ∧ (k : Int) ≤ maxDepth ∧ Below table k scope top ∧ Paged table k scope)) := by
  refine ⟨ancestors_lists_iff member, descendants_nodup total inside, ?_⟩
  rw [mem_descendants total inside member different]
  constructor
  · exact Iff.mpr
  · intro onPages
    constructor
    · intro ⟨k, positive, within, below, _⟩
      exact ⟨k, positive, within, below⟩
    · exact onPages

section Example

def root : Scope := ⟨"root", "Company", "owner", none, .active⟩

def team : Scope := ⟨"team", "Team", "owner", some "root", .deprecated⟩

def project : Scope := ⟨"project", "Project", "owner", some "team", .active⟩

def company : Scopes := ⟨[project, root, team], by decide⟩

theorem scope_walks_agree_iff_company : Lists company project (ancestors company "project") ∧
    project ∈ descendants company 2 3 "root" := by
  have agree := scope_walks_agree_iff company 2 3 (by decide) root project (by decide) (by decide) (by decide)
  have named : ∀ scope ∈ company.list, scope.id ≠ "" := by decide
  have below : Below company 2 project root := by
    refine ⟨rfl, fun i within between found => ?_⟩
    match i, within with
    | 0, _ =>
      cases found
      decide
    | 1, _ =>
      cases found
      decide
  have paged : Paged company 2 project := by
    intro i within between found
    match i, within with
    | 0, _ =>
      cases found
      decide
    | 1, _ =>
      cases found
      decide
  constructor
  · apply agree.1.mpr
    intro above k different positive up
    obtain ⟨k, rfl⟩ := Nat.exists_eq_add_of_le' positive
    exact ⟨by decide, named above (chain_inside up)⟩
  · exact (agree.2.2.mpr fun _ => ⟨2, by omega, by omega, below, paged⟩).mpr ⟨2, by omega, by omega, below⟩

/-- A child of the root, with an id of its own. -/
def child (i : Nat) : Scope := ⟨String.ofList (List.replicate i 'a'), "Team", "owner", some "root", .active⟩

theorem child_inj {i j : Nat} (same : (child i).id = (child j).id) : i = j := by
  have letters := congrArg String.length same
  simpa [child] using letters

/-- The root with a number of children, and one more. -/
def crowd (n : Nat) : Scopes where
  list := (root :: (List.range n).map child) ++ [child n]
  unique := by
    have apart : ∀ i, (child i).id ≠ root.id := by
      intro i same
      have letters : List.replicate i 'a' = "root".toList := by
        rw [← String.toList_ofList (l := List.replicate i 'a')]
        exact congrArg String.toList same
      have first : 'r' ∈ List.replicate i 'a' := by
        rw [letters]
        decide
      exact absurd (List.eq_of_mem_replicate first) (by decide)
    rw [List.cons_append, List.map_cons, List.nodup_cons]
    constructor
    · intro inside
      obtain ⟨scope, listed, same⟩ := List.mem_map.mp inside
      rcases List.mem_append.mp listed with ranged | last
      · obtain ⟨i, -, rfl⟩ := List.mem_map.mp ranged
        exact apart i same
      · rw [List.mem_singleton.mp last] at same
        exact apart n same
    · have ranged : (List.range n).map child ++ [child n] = (List.range (n + 1)).map child := by
        rw [List.range_succ, List.map_append, List.map_singleton]
      rw [ranged, List.map_map]
      exact List.nodup_range.map fun i j same => child_inj same

theorem earlier_crowd (n : Nat) : (earlier (crowd n) (child n)).length = n := by
  have before : (crowd n).list.takeWhile (fun scope => scope ≠ child n) = root :: (List.range n).map child := by
    have distinct := List.Nodup.of_map _ (crowd n).unique
    have apart : ∀ scope ∈ root :: (List.range n).map child, (decide (scope ≠ child n)) = true := by
      intro scope listed
      rw [crowd] at distinct
      have different := (List.nodup_append.mp distinct).2.2 scope listed (child n) (List.mem_singleton_self _)
      exact decide_eq_true different
    rw [crowd, List.takeWhile_append_of_pos apart]
    simp
  have chosen : ∀ scope ∈ (List.range n).map child,
      (decide (scope.parentScopeId = (child n).parentScopeId) && !scope.isArchived) = true := by
    intro scope listed
    obtain ⟨i, -, rfl⟩ := List.mem_map.mp listed
    rfl
  rw [earlier, before, List.filter_cons_of_neg (by exact Bool.false_ne_true), List.filter_eq_self.mpr chosen]
  simp

theorem crowd_inside (n : Nat) : root ∈ (crowd n).list ∧ child n ∈ (crowd n).list := by
  rw [crowd]
  exact ⟨List.mem_cons_self, List.mem_append_right _ (List.mem_singleton_self _)⟩

theorem child_below (n : Nat) : Below (crowd n) 1 (child n) root := by
  refine ⟨Rows.find_mem (crowd_inside n).1, fun i within between found => ?_⟩
  obtain rfl : i = 0 := by omega
  cases found
  exact nofun

theorem child_not_found : ¬ ∀ (table : Scopes) (maxDepth maxTotal : Int), (table.list.length : Int) ≤ maxTotal →
    ∀ top ∈ table.list, ∀ scope ∈ table.list, scope ≠ top →
      (scope ∈ descendants table maxDepth maxTotal top.id ↔
        ∃ k : Nat, 1 ≤ k ∧ (k : Int) ≤ maxDepth ∧ Below table k scope top) := by
  intro always
  obtain ⟨n, full⟩ : ∃ n, n = 1000 := ⟨1000, rfl⟩
  obtain ⟨inside, member⟩ := crowd_inside n
  have different : child n ≠ root := fun same => absurd (congrArg Scope.name same) (by simp [child, root])
  have total : ((crowd n).list.length : Int) ≤ 10000 := by
    rw [crowd, List.length_append, List.length_cons, List.length_map, List.length_range, List.length_singleton]
    omega
  have found := (always (crowd n) 10 10000 total root inside (child n) member different).mpr
    ⟨1, by omega, by omega, child_below n⟩
  obtain ⟨k, positive, -, -, paged⟩ := (mem_descendants total inside member different).mp found
  have early := paged 0 (by omega) (child n) rfl
  rw [earlier_crowd] at early
  omega

end Example

end PyScoped.Legacy.ScopeTree
