import PyScoped.Legacy.Principals

/-! When the walks over principals go where they say: upward, along the label
that was asked for, and no further than the depth. -/

namespace PyScoped.Legacy.Principals
open Foundation PrincipalStore

/-- A walk along labelled edges, with the nodes and the labels on its way. -/
inductive Trail {ν μ : Type} (edge : ν → μ → ν → Prop) (start : ν) : ν → List ν → List μ → Prop where
  | here : Trail edge start start [start] []
  | step {middle next : ν} {label : μ} {ids : List ν} {labels : List μ} (before : Trail edge start middle ids labels)
    (taken : edge middle label next) : Trail edge start next (ids ++ [next]) (labels ++ [label])

theorem Trail.mono {ν μ : Type} {edge edge' : ν → μ → ν → Prop} (weaker : ∀ x label y, edge x label y → edge' x label y)
    {start last : ν} {ids : List ν} {labels : List μ} (trail : Trail edge start last ids labels) :
    Trail edge' start last ids labels := by
  induction trail with
  | here => exact .here
  | step _ taken ih => exact .step ih (weaker _ _ _ taken)

variable (store : PrincipalStore)

/-- A relationship with the label that was asked for leads from one principal to the other. -/
def Along (near far : PrincipalRelationship → String) (relationship : Option String) (x label y : String) : Prop :=
  ∃ rel ∈ store.relationships, near rel = x ∧ far rel = y ∧ rel.relationship = label ∧
    ∀ wanted, relationship = some wanted → label = wanted

/-- The edges from child to parent. -/
def Climbs : Option String → String → String → String → Prop :=
  Along store PrincipalRelationship.childId PrincipalRelationship.parentId

/-- Some walk along the edges has one to `depth` of them. -/
def Within (edge : String → String → String → Prop) (depth : Nat) (x y : String) : Prop :=
  ∃ ids labels, Trail edge x y ids labels ∧ 1 ≤ labels.length ∧ labels.length ≤ depth

/-- The filter that the queries apply. -/
def applied (relationship : Option String) : Option String := if relationship = some "" then none else relationship

theorem labelled_iff {relationship : Option String} {rel : PrincipalRelationship} :
    labelled relationship rel = true ↔ ∀ wanted, applied relationship = some wanted → rel.relationship = wanted := by
  cases relationship with
  | none => simp [labelled, applied]
  | some label =>
    by_cases empty : label = ""
    · simp [labelled, applied, empty]
    · simp [labelled, applied, empty]

variable {store} {relationship : Option String} {rel : PrincipalRelationship} {pid : String}

theorem mem_parents : rel ∈ store.getRelationships pid .parent relationship ↔
    rel ∈ store.relationships ∧ rel.childId = pid ∧ labelled relationship rel = true := by
  simp [getRelationships]

theorem mem_both : rel ∈ store.getRelationships pid .both relationship ↔
    rel ∈ store.relationships ∧ (rel.childId = pid ∨ rel.parentId = pid) ∧ labelled relationship rel = true := by
  simp only [getRelationships, ne_eq, reduceCtorEq, not_false_eq_true, if_true, List.mem_append, List.mem_filter,
    Bool.and_eq_true, decide_eq_true_eq]
  tauto

theorem findPrincipal_some {principal : Principal} (found : store.findPrincipal pid = some principal) :
    principal ∈ store.principals ∧ principal.id = pid := by
  unfold findPrincipal at found
  constructor
  · exact List.mem_of_find?_eq_some found
  · simpa using List.find?_some found

theorem findPrincipal_mem {principal : Principal} (member : principal ∈ store.principals) :
    store.findPrincipal principal.id = some principal := by
  cases found : store.findPrincipal principal.id with
  | none =>
    have unlike := List.find?_eq_none.mp found principal member
    simp at unlike
  | some other =>
    obtain ⟨member', same⟩ := findPrincipal_some found
    rw [List.inj_on_of_nodup_map store.distinct member' member same]

theorem mem_ends (member : rel ∈ store.relationships) : rel.parentId ∈ store.ends ∧ rel.childId ∈ store.ends := by
  constructor
  · exact List.mem_flatMap.mpr ⟨rel, member, by simp⟩
  · exact List.mem_flatMap.mpr ⟨rel, member, by simp⟩

section Relatives

/-- One of the two directions: the query that goes from the near ends of edges to the far ones. -/
structure Oriented (store : PrincipalStore) (direction : Direction) (near far : PrincipalRelationship → String) : Prop where
  query : ∀ pid relationship rel, rel ∈ store.getRelationships pid direction relationship ↔
    rel ∈ store.relationships ∧ near rel = pid ∧ labelled relationship rel = true
  known : ∀ rel ∈ store.relationships, far rel ∈ store.principals.map Principal.id
  ends : ∀ rel ∈ store.relationships, far rel ∈ store.ends

theorem oriented_parent (store : PrincipalStore) :
    Oriented store .parent PrincipalRelationship.childId PrincipalRelationship.parentId where
  query _ _ _ := mem_parents
  known := store.parents
  ends _ member := (mem_ends member).1

variable {direction : Direction} {near far : PrincipalRelationship → String} (oriented : Oriented store direction near far)
  {depth : Nat}
include oriented

theorem mem_next {visit behind : Visit} : behind ∈ (relativeSearch store direction far relationship depth).next visit ↔
    visit.depth < depth ∧ behind.depth = visit.depth + 1 ∧
      ∃ label, Along store near far (applied relationship) visit.pid label behind.pid := by
  simp only [relativeSearch]
  by_cases cut : depth ≤ visit.depth
  · simp [cut]
  · rw [if_neg cut, List.mem_map]
    simp only [List.mem_filter, oriented.query, labelled_iff]
    constructor
    · rintro ⟨rel, ⟨⟨member, here, wanted⟩, -⟩, rfl⟩
      exact ⟨by omega, rfl, rel.relationship, rel, member, here, rfl, rfl, wanted⟩
    · rintro ⟨-, deeper, label, rel, member, here, there, rfl, wanted⟩
      obtain ⟨principal, known, same⟩ := List.mem_map.mp (oriented.known rel member)
      refine ⟨rel, ⟨⟨member, here, wanted⟩, ?_⟩, ?_⟩
      · rw [← same, findPrincipal_mem known]
        rfl
      · rw [there, ← deeper]

theorem relatives_graded : (relativeSearch store direction far relationship depth).Graded Visit.depth := by
  constructor
  · intro visit behind next
    exact ((mem_next oriented).mp next).2.1
  · intro shallow deep same above behind next
    obtain ⟨within, -, label, along⟩ := (mem_next oriented).mp next
    refine ⟨⟨behind.pid, shallow.depth + 1⟩, (mem_next oriented).mpr ⟨by omega, rfl, label, ?_⟩, rfl⟩
    rw [show shallow.pid = deep.pid from same]
    exact along
  · exact fun _ _ _ => rfl

/-- The visits a number of steps ahead are the ends of the walks of that length. -/
theorem mem_visits {start : String} {n : Nat} {visit : Visit} :
    visit ∈ (relativeSearch store direction far relationship depth).layer n [⟨start, 0⟩] ↔ visit.depth = n ∧ n ≤ depth ∧
      ∃ ids labels, Trail (Along store near far (applied relationship)) start visit.pid ids labels ∧ labels.length = n := by
  induction n generalizing visit with
  | zero =>
    constructor
    · intro member
      rw [List.mem_singleton.mp member]
      exact ⟨rfl, Nat.zero_le _, [start], [], .here, rfl⟩
    · rintro ⟨deep, -, ids, labels, trail, none⟩
      cases trail with
      | here => exact List.mem_singleton.mpr (by rw [← deep])
      | step => simp at none
  | succ n ih =>
    rw [Search.mem_layer_succ]
    constructor
    · rintro ⟨before, member, next⟩
      obtain ⟨deep, -, ids, labels, trail, long⟩ := ih.mp member
      obtain ⟨within, deeper, label, along⟩ := (mem_next oriented).mp next
      exact ⟨by omega, by omega, _, _, .step trail along, by simp [long]⟩
    · rintro ⟨deep, within, ids, labels, trail, long⟩
      obtain ⟨pid, visited⟩ := visit
      cases trail with
      | here => simp at long
      | @step middle _ label ids labels before along =>
        have shorter : labels.length = n := by simpa using long
        refine ⟨⟨middle, n⟩, ih.mpr ⟨rfl, by omega, ids, labels, before, shorter⟩, ?_⟩
        exact (mem_next oriented).mpr ⟨by dsimp only; omega, deep, label, along⟩

/-- The walk returns the principals within the depth along the edges it follows, each once. -/
theorem relatives_spec (relationship : Option String) (principalId : String) (maxDepth : Option Nat) :
    ((relatives store direction far principalId relationship maxDepth).map Principal.id).Nodup ∧
      ∀ principal, principal ∈ relatives store direction far principalId relationship maxDepth ↔
        principal ∈ store.principals ∧
          Within (Along store near far (applied relationship)) (depthOf maxDepth) principalId principal.id := by
  let search := relativeSearch store direction far relationship (depthOf maxDepth)
  have closed : ∀ visit, ∀ behind ∈ search.next visit, search.key behind ∈ store.ends := by
    intro visit behind next
    obtain ⟨-, -, label, rel, member, -, there, -⟩ := (mem_next oriented).mp next
    rw [show search.key behind = behind.pid from rfl, ← there]
    exact oriented.ends rel member
  have room : [(⟨principalId, 0⟩ : Visit)].length + Search.room store.ends [] ≤ 1 + store.ends.length :=
    Nat.add_le_add_left (List.length_filter_le _ _) 1
  obtain ⟨found, searched⟩ : ∃ found, search.levels (1 + store.ends.length) [] [⟨principalId, 0⟩] = .inr found :=
    Search.levels_goalless [] fun n => List.find?_eq_none.mpr fun _ _ => Bool.false_ne_true
  have drained := Search.drain_eq closed room room
  rw [searched] at drained
  have result : relatives store direction far principalId relationship maxDepth =
      found.filterMap fun visit => store.findPrincipal visit.pid := by
    unfold relatives
    rw [drained]
  obtain ⟨reached, nodup, -⟩ := Search.levels_found searched
  have keys : ∀ pid, pid ∈ found.map Visit.pid ↔
      Within (Along store near far (applied relationship)) (depthOf maxDepth) principalId pid := by
    intro pid
    constructor
    · intro member
      obtain ⟨visit, visited, rfl⟩ := List.mem_map.mp member
      obtain ⟨n, within⟩ := reached visit visited
      obtain ⟨-, short, ids, labels, trail, long⟩ := (mem_visits oriented).mp within
      exact ⟨ids, labels, trail, by omega, by omega⟩
    · rintro ⟨ids, labels, trail, positive, short⟩
      obtain ⟨n, long⟩ := Nat.exists_eq_succ_of_ne_zero (show labels.length ≠ 0 by omega)
      have within : n + 1 ≤ depthOf maxDepth := by omega
      have ahead : (⟨pid, n + 1⟩ : Visit) ∈ search.layer (n + 1) [⟨principalId, 0⟩] :=
        (mem_visits oriented).mpr ⟨rfl, within, ids, labels, trail, long⟩
      obtain ⟨visit, member, same⟩ := (relatives_graded oriented).levels_complete closed room searched ahead
      exact List.mem_map.mpr ⟨visit, member, same⟩
  rw [result]
  constructor
  · rw [List.map_filterMap]
    have own : ∀ pid id, id ∈ (store.findPrincipal pid).map Principal.id → id = pid := by
      intro pid id shown
      obtain ⟨principal, found, rfl⟩ := Option.map_eq_some_iff.mp shown
      exact (findPrincipal_some found).2
    have distinct := nodup.filterMap fun first second id shown shown' => (own first id shown).symm.trans (own second id shown')
    rwa [List.filterMap_map] at distinct
  · intro principal
    rw [List.mem_filterMap, ← keys]
    constructor
    · rintro ⟨visit, member, shown⟩
      obtain ⟨known, same⟩ := findPrincipal_some shown
      exact ⟨known, List.mem_map.mpr ⟨visit, member, same.symm⟩⟩
    · rintro ⟨known, listed⟩
      obtain ⟨visit, member, same⟩ := List.mem_map.mp listed
      exact ⟨visit, member, by rw [same, findPrincipal_mem known]⟩

end Relatives

/-- The connections of a number of relationships, whichever way these point, in
the order in which the store lists them. -/
def connections (store : PrincipalStore) (relationship : Option String) (fromId : String) : Nat → List Route
  | 0 => [.start fromId]
  | n + 1 => (connections store relationship fromId n).flatMap fun route => route.longer store relationship

/-- The first connection of a number of relationships to a principal. -/
def firstConnection (store : PrincipalStore) (relationship : Option String) (fromId toId : String) (n : Nat) : Option Route :=
  (connections store relationship fromId n).find? fun route => route.current = toId

variable {fromId toId : String} {n depth : Nat} {route : Route}

theorem connections_length (member : route ∈ connections store relationship fromId n) : route.pathRels.length = n := by
  induction n generalizing route with
  | zero => rw [List.mem_singleton.mp member]; rfl
  | succ n ih =>
    obtain ⟨before, earlier, longer⟩ := List.mem_flatMap.mp member
    obtain ⟨rel, -, rfl⟩ := List.mem_map.mp longer
    simp [Route.extend, ih earlier]

theorem layer_eq_connections (within : n ≤ depth + 1) :
    (pathSearch store toId relationship depth).layer n [.start fromId] = connections store relationship fromId n := by
  induction n with
  | zero => rfl
  | succ n ih =>
    rw [Search.layer_succ, ih (by omega), connections]
    apply List.flatMap_congr
    intro route member
    have long := connections_length member
    exact if_neg (by omega)

theorem layer_beyond (beyond : depth + 1 < n) : (pathSearch store toId relationship depth).layer n [.start fromId] = [] := by
  obtain ⟨more, rfl⟩ := Nat.exists_eq_add_of_lt beyond
  induction more with
  | zero =>
    rw [Nat.add_zero, Search.layer_succ, layer_eq_connections (Nat.le_refl _)]
    apply List.flatMap_eq_nil_iff.mpr
    intro route member
    have long := connections_length member
    exact if_pos (by omega)
  | succ more ih =>
    have shorter := ih (by omega)
    rw [Search.layer_succ, show depth + 1 + (more + 1) = depth + 1 + more + 1 from rfl, shorter]
    rfl

theorem path_closed : ∀ route, ∀ behind ∈ (pathSearch store toId relationship depth).next route,
    (pathSearch store toId relationship depth).key behind ∈ store.ends := by
  intro route behind next
  simp only [pathSearch] at next
  split at next
  · cases next
  · obtain ⟨rel, member, rfl⟩ := List.mem_map.mp next
    obtain ⟨parent, child⟩ := mem_ends (mem_both.mp member).1
    change neighbor route.current rel ∈ store.ends
    unfold neighbor
    split
    · exact parent
    · exact child

theorem path_graded : (pathSearch store toId relationship depth).Graded fun route => route.pathRels.length := by
  constructor
  · intro route behind next
    simp only [pathSearch] at next
    split at next
    · cases next
    · obtain ⟨rel, -, rfl⟩ := List.mem_map.mp next
      simp [Route.extend]
  · intro shallow deep same above behind next
    have same : shallow.current = deep.current := same
    simp only [pathSearch] at next above ⊢
    split at next
    · cases next
    next within =>
      obtain ⟨rel, member, rfl⟩ := List.mem_map.mp next
      rw [if_neg (by omega)]
      refine ⟨shallow.extend rel, List.mem_map.mpr ⟨rel, same ▸ member, rfl⟩, ?_⟩
      change neighbor shallow.current rel = neighbor deep.current rel
      rw [same]
  · intro first second same
    have same : first.current = second.current := same
    simp only [pathSearch, same]

variable {maxDepth : Option Nat}

theorem findPath_eq {steps : Nat} (enough : 1 + store.ends.length ≤ steps) :
    findPath store fromId toId relationship maxDepth =
      match (pathSearch store toId relationship (depthOf maxDepth)).levels steps [fromId] [.start fromId] with
      | .inl route => some ⟨route.pathIds, route.pathRels⟩
      | .inr _ => none := by
  have room : [Route.start fromId].length + Search.room store.ends [fromId] ≤ 1 + store.ends.length :=
    Nat.add_le_add_left (List.length_filter_le _ _) 1
  unfold findPath
  rw [Search.drain_eq path_closed (room.trans enough) room]
  cases Search.levels _ steps [fromId] [Route.start fromId] <;> rfl

/-- No connection of one to `bound` relationships leads there. -/
def Unconnected (store : PrincipalStore) (relationship : Option String) (fromId toId : String) (bound : Nat) : Prop :=
  ∀ n, 1 ≤ n → n ≤ bound → firstConnection store relationship fromId toId n = none

theorem findPath_none (unconnected : Unconnected store relationship fromId toId (depthOf maxDepth + 1)) :
    findPath store fromId toId relationship maxDepth = none := by
  have goalless : ∀ n, ((pathSearch store toId relationship (depthOf maxDepth)).layer (n + 1) [.start fromId]).find?
      (pathSearch store toId relationship (depthOf maxDepth)).goal = none := by
    intro n
    by_cases within : n + 1 ≤ depthOf maxDepth + 1
    · rw [layer_eq_connections within]
      exact unconnected (n + 1) (by omega) within
    · rw [layer_beyond (by omega)]
      rfl
  obtain ⟨found, searched⟩ := Search.levels_goalless [fromId] goalless
  rw [findPath_eq (Nat.le_refl _), searched]

theorem findPath_some (positive : 1 ≤ n) (within : n ≤ depthOf maxDepth + 1)
    (shortest : Unconnected store relationship fromId toId (n - 1))
    (found : firstConnection store relationship fromId toId n = some route) :
    findPath store fromId toId relationship maxDepth = some ⟨route.pathIds, route.pathRels⟩ := by
  obtain ⟨m, rfl⟩ := Nat.exists_eq_add_of_le' positive
  have goalless : ∀ ahead, 1 ≤ ahead → ahead ≤ m →
      ((pathSearch store toId relationship (depthOf maxDepth)).layer ahead [.start fromId]).find?
        (pathSearch store toId relationship (depthOf maxDepth)).goal = none := by
    intro ahead positive early
    rw [layer_eq_connections (by omega)]
    exact shortest ahead positive (by omega)
  have searched : (pathSearch store toId relationship (depthOf maxDepth)).levels (1 + store.ends.length + m) [fromId]
      [.start fromId] = .inl route := by
    apply path_graded.levels_goal (show m < 1 + store.ends.length + m by omega)
    · intro item member
      rw [List.mem_singleton.mp member]
    · intro key member
      rw [List.mem_singleton.mp member]
      exact ⟨.start fromId, rfl, Nat.le_refl _, goalless⟩
    · exact goalless
    · rw [layer_eq_connections within]
      exact found
  rw [findPath_eq (Nat.le_add_right _ m), searched]

theorem connected_of_climb {ids labels : List String} (trail : Trail (Climbs store relationship) fromId toId ids labels) :
    (firstConnection store relationship fromId toId labels.length).isSome = true := by
  suffices some : ∃ route ∈ connections store relationship fromId labels.length, route.current = toId by
    obtain ⟨route, member, there⟩ := some
    exact List.find?_isSome.mpr ⟨route, member, decide_eq_true there⟩
  induction trail with
  | here => exact ⟨.start fromId, List.mem_singleton_self _, rfl⟩
  | step _ climbs ih =>
    obtain ⟨route, member, rfl⟩ := ih
    obtain ⟨rel, known, child, parent, rfl, wanted⟩ := climbs
    have followed : labelled relationship rel = true := by
      apply labelled_iff.mpr
      intro label asked
      apply wanted
      unfold applied at asked
      split at asked
      · cases asked
      · exact asked
    rw [List.length_append, List.length_singleton]
    refine ⟨route.extend rel, List.mem_flatMap.mpr ⟨route, member, ?_⟩, ?_⟩
    · exact List.mem_map.mpr ⟨rel, mem_both.mpr ⟨known, .inl child, followed⟩, rfl⟩
    · exact (if_pos child).trans parent

/-- What the walks upward promise, up to a depth. -/
structure Upward (store : PrincipalStore) (relationship : Option String) (fromId toId : String) (maxDepth : Nat) : Prop where
  complete : (findPath store fromId toId relationship (some maxDepth)).isSome = true ↔
    Within (Climbs store relationship) maxDepth fromId toId
  real : ∀ path, findPath store fromId toId relationship (some maxDepth) = some path →
    Trail (Climbs store relationship) fromId toId path.principals path.relationships ∧ path.length ≤ maxDepth ∧
      ∀ ids labels, Trail (Climbs store relationship) fromId toId ids labels → 1 ≤ labels.length → path.length ≤ labels.length
  once : ((ancestors store fromId relationship (some maxDepth)).map Principal.id).Nodup
  ancestors : ∀ principal, principal ∈ ancestors store fromId relationship (some maxDepth) ↔
    principal ∈ store.principals ∧ Within (Climbs store relationship) maxDepth fromId principal.id

/-- The first of the shortest connections climbs at every step, and is not too long. -/
def NearestClimbs (store : PrincipalStore) (relationship : Option String) (fromId toId : String) (maxDepth : Nat) : Prop :=
  ∃ n route, 1 ≤ n ∧ n ≤ maxDepth ∧ Unconnected store relationship fromId toId (n - 1) ∧
    firstConnection store relationship fromId toId n = some route ∧
    Trail (Climbs store relationship) fromId toId route.pathIds route.pathRels

/-- If the empty label is asked for, walks along any labels lead no further than those along this one. -/
def EmptyLabelSuffices (store : PrincipalStore) (relationship : Option String) (fromId : String) (maxDepth : Nat) : Prop :=
  relationship = some "" → ∀ principal ∈ store.principals, Within (Climbs store none) maxDepth fromId principal.id →
    Within (Climbs store (some "")) maxDepth fromId principal.id

theorem climbs_applied (x label y : String) (climbs : Climbs store relationship x label y) :
    Climbs store (applied relationship) x label y := by
  obtain ⟨rel, known, child, parent, named, wanted⟩ := climbs
  refine ⟨rel, known, child, parent, named, ?_⟩
  intro label' asked
  apply wanted
  unfold applied at asked
  split at asked
  · cases asked
  · exact asked

theorem depthOf_positive {maxDepth : Nat} (positive : 1 ≤ maxDepth) : depthOf (some maxDepth) = maxDepth := by
  obtain ⟨less, rfl⟩ := Nat.exists_eq_add_of_le' positive
  rfl

theorem ancestors_spec (store : PrincipalStore) (relationship : Option String) (fromId : String) (positive : 1 ≤ depth) :
    ((ancestors store fromId relationship (some depth)).map Principal.id).Nodup ∧
      ∀ principal, principal ∈ ancestors store fromId relationship (some depth) ↔
        principal ∈ store.principals ∧ Within (Climbs store (applied relationship)) depth fromId principal.id := by
  have spec := relatives_spec (oriented_parent store) relationship fromId (some depth)
  rwa [depthOf_positive positive] at spec

theorem not_within_of_unconnected (unconnected : Unconnected store relationship fromId toId depth) :
    ¬ Within (Climbs store relationship) depth fromId toId := by
  intro ⟨ids, labels, trail, positive, short⟩
  have connected := connected_of_climb trail
  rw [unconnected labels.length positive short] at connected
  cases connected

/-- The path of the code is as promised where the nearest connection climbs. -/
theorem NearestClimbs.path (nearest : NearestClimbs store relationship fromId toId depth) :
    ((findPath store fromId toId relationship (some depth)).isSome = true ↔ Within (Climbs store relationship) depth fromId toId) ∧
      ∀ path, findPath store fromId toId relationship (some depth) = some path →
        Trail (Climbs store relationship) fromId toId path.principals path.relationships ∧ path.length ≤ depth ∧
          ∀ ids labels, Trail (Climbs store relationship) fromId toId ids labels → 1 ≤ labels.length →
            path.length ≤ labels.length := by
  obtain ⟨n, route, positive, within, shortest, first, trail⟩ := nearest
  have long : route.pathRels.length = n := connections_length (List.mem_of_find?_eq_some first)
  have bound : depthOf (some depth) = depth := depthOf_positive (by omega)
  have returned := findPath_some positive (show n ≤ depthOf (some depth) + 1 by omega) shortest first
  constructor
  · constructor
    · intro _
      exact ⟨route.pathIds, route.pathRels, trail, by omega, by omega⟩
    · intro _
      rw [returned]
      rfl
  · intro path shown
    rw [returned] at shown
    cases shown
    refine ⟨trail, (Nat.le_of_eq long).trans within, ?_⟩
    intro ids labels climb nonempty
    change route.pathRels.length ≤ labels.length
    rw [long]
    by_contra shorter
    have connected := connected_of_climb climb
    rw [shortest labels.length nonempty (by omega)] at connected
    cases connected

theorem Upward.nearest {maxDepth : Nat} (positive : 1 ≤ maxDepth) (upward : Upward store relationship fromId toId maxDepth)
    (connected : ¬ Unconnected store relationship fromId toId (maxDepth + 1)) :
    NearestClimbs store relationship fromId toId maxDepth := by
  have some : ∃ n, 1 ≤ n ∧ n ≤ maxDepth + 1 ∧ firstConnection store relationship fromId toId n ≠ none := by
    by_contra missing
    apply connected
    intro n lower upper
    by_contra present
    exact missing ⟨n, lower, upper, present⟩
  classical
  obtain ⟨lower, upper, present⟩ := Nat.find_spec some
  have shortest : Unconnected store relationship fromId toId (Nat.find some - 1) := by
    intro n early late
    by_contra present
    exact Nat.find_min some (by omega) ⟨early, by omega, present⟩
  obtain ⟨route, first⟩ := Option.ne_none_iff_exists'.mp present
  have within : Nat.find some ≤ depthOf (Option.some maxDepth) + 1 := by rwa [depthOf_positive positive]
  have returned := findPath_some lower within shortest first
  obtain ⟨trail, short, -⟩ := upward.real _ returned
  have long : route.pathRels.length = Nat.find some := connections_length (List.mem_of_find?_eq_some first)
  exact ⟨Nat.find some, route, lower, long ▸ short, shortest, first, trail⟩

/-- The walks go upward within the depth if and only if nothing else is in their
way: `find_path` looks both ways and one relationship too far, and an empty
label is no filter to either. -/
theorem upward_iff (store : PrincipalStore) (relationship : Option String) (fromId toId : String) {maxDepth : Nat}
    (positive : 1 ≤ maxDepth) : Upward store relationship fromId toId maxDepth ↔
      (Unconnected store relationship fromId toId (maxDepth + 1) ∨ NearestClimbs store relationship fromId toId maxDepth) ∧
        EmptyLabelSuffices store relationship fromId maxDepth := by
  obtain ⟨once, listed⟩ := ancestors_spec store relationship fromId positive
  constructor
  · intro upward
    constructor
    · by_cases unconnected : Unconnected store relationship fromId toId (maxDepth + 1)
      · exact .inl unconnected
      · exact .inr (upward.nearest positive unconnected)
    · rintro rfl principal known climbs
      have member := (listed principal).mpr ⟨known, climbs⟩
      exact ((upward.ancestors principal).mp member).2
  · rintro ⟨ways, empty⟩
    have path : ((findPath store fromId toId relationship (some maxDepth)).isSome = true ↔
          Within (Climbs store relationship) maxDepth fromId toId) ∧
        ∀ path, findPath store fromId toId relationship (some maxDepth) = some path →
          Trail (Climbs store relationship) fromId toId path.principals path.relationships ∧ path.length ≤ maxDepth ∧
            ∀ ids labels, Trail (Climbs store relationship) fromId toId ids labels → 1 ≤ labels.length →
              path.length ≤ labels.length := by
      rcases ways with unconnected | nearest
      · have nothing : findPath store fromId toId relationship (some maxDepth) = none := by
          apply findPath_none
          rwa [depthOf_positive positive]
        have sooner : Unconnected store relationship fromId toId maxDepth :=
          fun n lower upper => unconnected n lower (by omega)
        rw [nothing]
        exact ⟨⟨nofun, fun climb => absurd climb (not_within_of_unconnected sooner)⟩, nofun⟩
      · exact nearest.path
    refine ⟨path.1, path.2, once, ?_⟩
    intro principal
    rw [listed]
    apply and_congr_right
    intro known
    constructor
    · intro ⟨ids, labels, trail, bounds⟩
      by_cases blank : relationship = some ""
      · subst blank
        exact empty rfl principal known ⟨ids, labels, trail, bounds⟩
      · rw [applied, if_neg blank] at trail
        exact ⟨ids, labels, trail, bounds⟩
    · intro ⟨ids, labels, trail, bounds⟩
      exact ⟨ids, labels, trail.mono climbs_applied, bounds⟩

section Sample

private def principal (id : String) : Principal := ⟨id, "user", id, "", "t0", "system", .active, .obj []⟩

private def membership (id childId parentId : String) : PrincipalRelationship :=
  ⟨id, parentId, childId, "member_of", "t0", "system", .obj []⟩

/-- A user in a team, and the team in an organisation. -/
def staff : PrincipalStore where
  principals := [principal "user", principal "team", principal "org"]
  relationships := [membership "r1" "user" "team", membership "r2" "team" "org"]
  distinct := by decide
  parents := by decide
  children := by decide

private theorem staff_climbs : Trail (Climbs staff none) "user" "org" ["user", "team", "org"] ["member_of", "member_of"] :=
  .step (.step .here ⟨membership "r1" "user" "team", by simp [staff], rfl, rfl, rfl, nofun⟩)
    ⟨membership "r2" "team" "org", by simp [staff], rfl, rfl, rfl, nofun⟩

theorem upward_staff : Upward staff none "user" "org" 2 := by
  apply (upward_iff staff none "user" "org" (by decide)).mpr
  refine ⟨.inr ⟨2, ⟨"org", ["user", "team", "org"], ["member_of", "member_of"]⟩, by decide, by decide, ?_, ?_, ?_⟩, nofun⟩
  · intro n lower upper
    obtain rfl : n = 1 := by omega
    decide +kernel
  · decide +kernel
  · exact staff_climbs

/-- With a depth of one, a path of two relationships is found. -/
theorem path_exceeds_depth : ¬ Upward staff none "user" "org" 1 := by
  intro upward
  have returned : findPath staff "user" "org" none (some 1) =
      some ⟨["user", "team", "org"], ["member_of", "member_of"]⟩ := by
    decide +kernel
  obtain ⟨-, short, -⟩ := upward.real _ returned
  exact absurd short (by decide)

end Sample
end PyScoped.Legacy.Principals
