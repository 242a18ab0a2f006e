import PyScoped.Foundation.Rows
import PyScoped.Foundation.Search
import PyScoped.Legacy.Tenancy

/-! The walks over the tree of scopes of version 1: up to the root along the parents,
and down to the descendants, nearest first. -/

namespace PyScoped.Legacy.ScopeTree
open Foundation

abbrev Scopes := Rows Scope.id

def Scopes.ids (table : Scopes) : List String := table.list.map Scope.id

variable (table : Scopes)

/-- `children`: a page of the child scopes that are not archived, in the order of the table. -/
def children (scopeId : String) (limit : Nat) : List Scope :=
  (table.list.filter fun scope => scope.parentScopeId = some scopeId && !scope.isArchived).take limit

section Ancestors

/-- The loop of `ancestors`. It ends at a scope that was seen, at one that is not there,
and where there is no parent, for which an empty id is taken as well. -/
def ancestorsFrom (scopeId : String) (seen : List String) : Option String → List Scope
  | none => []
  | some currentId =>
    if currentId = "" then []
    else if fresh : currentId ∈ seen then []
    else match found : table.find currentId with
      | none => []
      | some scope =>
        have : Search.room table.ids (currentId :: seen) + 1 ≤ Search.room table.ids seen := by
          obtain ⟨inside, rfl⟩ := Rows.find_eq_some.mp found
          exact Search.room_cons (List.mem_map_of_mem inside) fresh
        let rest := ancestorsFrom scopeId (currentId :: seen) scope.parentScopeId
        if currentId ≠ scopeId then scope :: rest else rest
  termination_by Search.room table.ids seen

def ancestors (scopeId : String) : List Scope := ancestorsFrom table scopeId [] (some scopeId)

/-- The way from the root to a scope. -/
def path (scopeId : String) : List Scope := (ancestors table scopeId).reverse ++ (table.find scopeId).toList

end Ancestors

section Descendants

/-- What the search has found, and what it has yet to look behind, with its depth. -/
structure Walk where
  result : List Scope
  queue : List (String × Nat)
  seen : List String

variable (maxDepth maxTotal : Int)

/-- The children of one scope. Those that were not seen yet are found, up to the total. -/
def visit (depth : Nat) : Walk → List Scope → Walk
  | walk, [] => walk
  | walk, child :: kids =>
    if child.id ∈ walk.seen then visit depth walk kids
    else
      let seen := child.id :: walk.seen
      let result := walk.result ++ [child]
      if maxTotal ≤ result.length then ⟨result, walk.queue, seen⟩
      else visit depth ⟨result, walk.queue ++ [(child.id, depth + 1)], seen⟩ kids

/-- What is queued takes up room, so that the search ends. -/
theorem visit_measure (depth : Nat) (walk : Walk) {kids : List Scope} (inside : ∀ child ∈ kids, child.id ∈ table.ids) :
    (visit maxTotal depth walk kids).queue.length + Search.room table.ids (visit maxTotal depth walk kids).seen ≤
      walk.queue.length + Search.room table.ids walk.seen := by
  induction kids generalizing walk with
  | nil => exact Nat.le_refl _
  | cons child kids ih =>
    have rest := fun walk => ih walk fun other member => inside other (List.mem_cons_of_mem _ member)
    unfold visit
    split
    · exact rest walk
    next fresh =>
      have taken := Search.room_cons (inside child List.mem_cons_self) fresh
      dsimp only
      split
      · dsimp only
        omega
      · have behind := rest ⟨walk.result ++ [child], walk.queue ++ [(child.id, depth + 1)], child.id :: walk.seen⟩
        dsimp only at behind
        rw [List.length_append, List.length_singleton] at behind
        omega

theorem children_inside {scopeId : String} {limit : Nat} {child : Scope} (member : child ∈ children table scopeId limit) :
    child ∈ table.list ∧ child.parentScopeId = some scopeId ∧ child.lifecycle ≠ .archived := by
  obtain ⟨inside, chosen⟩ := List.mem_filter.mp (List.mem_of_mem_take member)
  simpa [Scope.isArchived] using And.intro inside chosen

/-- The loop of `descendants`. -/
def drain (result : List Scope) (seen : List String) : List (String × Nat) → List Scope
  | [] => result
  | (currentId, depth) :: queue =>
    if maxTotal ≤ result.length then result
    else if maxDepth ≤ depth then drain result seen queue
    else
      let walk := visit maxTotal depth ⟨result, queue, seen⟩ (children table currentId 1000)
      drain walk.result walk.seen walk.queue
  termination_by queue => queue.length + Search.room table.ids seen
  decreasing_by
    · rw [List.length_cons]
      omega
    · have inside : ∀ child ∈ children table currentId 1000, child.id ∈ table.ids := fun child member =>
        List.mem_map_of_mem (children_inside table member).1
      have measure := visit_measure table maxTotal depth ⟨result, queue, seen⟩ inside
      rw [List.length_cons]
      dsimp only at measure
      omega

def descendants (scopeId : String) : List Scope := drain table maxDepth maxTotal [] [scopeId] [(scopeId, 0)]

end Descendants
end PyScoped.Legacy.ScopeTree
