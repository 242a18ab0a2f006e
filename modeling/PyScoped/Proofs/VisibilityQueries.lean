import PyScoped.Foundation.Paging
import PyScoped.Legacy.VisibilityQueries

/-! What the visibility queries answer, in terms of owners, memberships and projections
along the parent chain, and that the reads of the object manager agree on it. -/

namespace PyScoped.Legacy
open Foundation

variable {object : ScopedObject}

namespace VisibilityEngine

variable {tables : VisibilityTables} {now principalId objectId scopeId : String} {objectType : Option String}

section Visible

/-- The parent that a scope of the table names. -/
def parentId (tables : VisibilityTables) (scopeId : String) : Option String :=
  (tables.scopes.find scopeId).bind Scope.parentScopeId

theorem parentIds_eq (tables : VisibilityTables) : parentIds tables = fun scopeId => (parentId tables scopeId).toList := by
  funext scopeId
  unfold parentIds parentId
  rw [Rows.filter_key]
  cases tables.scopes.find scopeId with
  | none => rfl
  | some scope =>
    rw [Option.toList_some, Option.bind_some]
    cases up : scope.parentScopeId <;> simp [up]

/-- The principal owns the object, which is not archived. -/
def Owned (tables : VisibilityTables) (principalId objectId : String) : Prop :=
  ∃ object, tables.objects.find objectId = some object ∧ object.ownerId = principalId ∧ object.lifecycle ≠ .archived

/-- The principal is a member of a scope, and the object is projected into the scope so
many levels above it. -/
def SharedAt (tables : VisibilityTables) (now principalId objectId : String) (levels : Nat) : Prop :=
  ∃ membership ∈ tables.memberships.list, ∃ projection ∈ tables.projections.list,
    (membership.principalId = principalId ∧ membership.holds now = true) ∧
    (projection.objectId = objectId ∧ projection.lifecycle = .active) ∧
    RecursiveQuery.climb (parentId tables) levels membership.scopeId = some projection.scopeId

def Shared (tables : VisibilityTables) (now principalId objectId : String) : Prop :=
  ∃ levels ≤ 20, SharedAt tables now principalId objectId levels

theorem mem_visibleScopes {row : String × Nat} : row ∈ visibleScopes tables now principalId ↔
    row.2 ≤ 20 ∧ ∃ membership ∈ tables.memberships.list, (membership.principalId = principalId ∧ membership.holds now = true) ∧
      RecursiveQuery.climb (parentId tables) row.2 membership.scopeId = some row.1 := by
  unfold visibleScopes
  rw [parentIds_eq, RecursiveQuery.mem_deepen, RecursiveQuery.round_climb, List.mem_filterMap]
  apply and_congr_right
  intro _
  constructor
  · intro reached
    obtain ⟨start, member, climbed⟩ := reached
    obtain ⟨membership, listed, rfl⟩ := List.mem_map.mp member
    obtain ⟨inside, held⟩ := List.mem_filter.mp listed
    rw [Bool.and_eq_true, decide_eq_true_eq] at held
    exact ⟨membership, inside, held, climbed⟩
  · intro reached
    obtain ⟨membership, inside, held, climbed⟩ := reached
    refine ⟨membership.scopeId, ?_, climbed⟩
    apply List.mem_map.mpr
    refine ⟨membership, List.mem_filter.mpr ⟨inside, ?_⟩, rfl⟩
    rw [Bool.and_eq_true, decide_eq_true_eq]
    exact held

theorem mem_projectedTo {projection : ScopeProjection} : projection ∈ projectedTo tables now principalId objectId ↔
    projection ∈ tables.projections.list ∧ (projection.objectId = objectId ∧ projection.lifecycle = .active) ∧
      ∃ membership ∈ tables.memberships.list, membership.scopeId = projection.scopeId ∧
        membership.principalId = principalId ∧ membership.holds now = true := by
  unfold projectedTo
  rw [List.mem_flatMap]
  constructor
  · intro joined
    obtain ⟨other, inside, joined⟩ := joined
    obtain ⟨membership, listed, rfl⟩ := List.mem_map.mp joined
    obtain ⟨member, met⟩ := List.mem_filter.mp listed
    simp only [Bool.and_eq_true, decide_eq_true_eq] at met
    obtain ⟨⟨⟨⟨scope, object⟩, principal⟩, active⟩, holds⟩ := met
    exact ⟨inside, ⟨object, active⟩, membership, member, scope.symm, principal, holds⟩
  · intro joined
    obtain ⟨inside, projected, membership, member, scope, principal, holds⟩ := joined
    refine ⟨projection, inside, List.mem_map.mpr ⟨membership, List.mem_filter.mpr ⟨member, ?_⟩, rfl⟩⟩
    simp only [Bool.and_eq_true, decide_eq_true_eq]
    exact ⟨⟨⟨⟨scope.symm, projected.1⟩, principal⟩, projected.2⟩, holds⟩

theorem projectedTo_iff : (!(projectedTo tables now principalId objectId).isEmpty) = true ↔
    SharedAt tables now principalId objectId 0 := by
  rw [Bool.not_eq_true', List.isEmpty_eq_false_iff_exists_mem]
  constructor
  · intro joined
    obtain ⟨projection, joined⟩ := joined
    obtain ⟨inside, projected, membership, member, scope, held⟩ := mem_projectedTo.mp joined
    exact ⟨membership, member, projection, inside, held, projected, congrArg some scope⟩
  · intro shared
    obtain ⟨membership, member, projection, inside, held, projected, climbed⟩ := shared
    exact ⟨projection, mem_projectedTo.mpr ⟨inside, projected, membership, member, Option.some.inj climbed, held⟩⟩

theorem visibleViaHierarchy_iff : visibleViaHierarchy tables now principalId objectId = true ↔
    ∃ levels ≤ 20, 0 < levels ∧ SharedAt tables now principalId objectId levels := by
  unfold visibleViaHierarchy
  dsimp only
  rw [List.any_eq_true]
  constructor
  · intro above
    obtain ⟨projection, inside, met⟩ := above
    simp only [Bool.and_eq_true, decide_eq_true_eq] at met
    obtain ⟨projected, listed⟩ := met
    obtain ⟨row, stands, same⟩ := List.mem_map.mp listed
    obtain ⟨stands, deep⟩ := List.mem_filter.mp stands
    obtain ⟨bound, membership, member, held, climbed⟩ := mem_visibleScopes.mp stands
    rw [same] at climbed
    exact ⟨row.2, bound, of_decide_eq_true deep, membership, member, projection, inside, held, projected, climbed⟩
  · intro above
    obtain ⟨levels, bound, deep, membership, member, projection, inside, held, projected, climbed⟩ := above
    refine ⟨projection, inside, ?_⟩
    simp only [Bool.and_eq_true, decide_eq_true_eq]
    refine ⟨projected, List.mem_map.mpr ⟨(projection.scopeId, levels), List.mem_filter.mpr ⟨?_, decide_eq_true deep⟩, rfl⟩⟩
    exact mem_visibleScopes.mpr ⟨bound, membership, member, held, climbed⟩

theorem owned_iff : (tables.objects.list.any fun object =>
    object.id = objectId && object.ownerId = principalId && object.lifecycle ≠ .archived) = true ↔
      Owned tables principalId objectId := by
  simp only [Bool.and_assoc, Rows.any_key, Option.any_eq_true, Bool.and_eq_true, decide_eq_true_eq]
  rfl

/-- A principal sees what it owns, archived objects apart, and what is projected into a
scope that it is a member of or that is up to twenty levels above such a scope. -/
theorem canSee_iff (tables : VisibilityTables) (now principalId objectId : String) :
    canSee tables now principalId objectId = true ↔ Owned tables principalId objectId ∨ Shared tables now principalId objectId := by
  unfold canSee
  split
  next own => exact iff_of_true rfl (.inl (owned_iff.mp own))
  next foreign =>
    rw [owned_iff] at foreign
    rw [or_iff_right foreign]
    split
    next direct =>
      exact iff_of_true rfl ⟨0, Nat.zero_le _, projectedTo_iff.mp direct⟩
    next indirect =>
      rw [projectedTo_iff] at indirect
      rw [visibleViaHierarchy_iff]
      constructor
      · intro above
        obtain ⟨levels, bound, -, shared⟩ := above
        exact ⟨levels, bound, shared⟩
      · intro shared
        obtain ⟨levels, bound, shared⟩ := shared
        refine ⟨levels, bound, Nat.pos_of_ne_zero ?_, shared⟩
        intro zero
        exact indirect (zero ▸ shared)

end Visible

section Listing

/-- The object type that a listing is asked for; an empty one is none. -/
def OfType (tables : VisibilityTables) (objectType : Option String) (objectId : String) : Prop :=
  ∀ wanted, objectType = some wanted → wanted ≠ "" → ∃ object, tables.objects.find objectId = some object ∧ object.objectType = wanted

theorem mem_ownedObjectIds {oid : String} : oid ∈ ownedObjectIds tables principalId objectType ↔
    Owned tables principalId oid ∧ OfType tables objectType oid := by
  unfold ownedObjectIds
  rw [List.mem_map]
  constructor
  · intro listed
    obtain ⟨object, listed, rfl⟩ := listed
    obtain ⟨member, met⟩ := List.mem_filter.mp listed
    rw [Bool.and_eq_true, Bool.and_eq_true, decide_eq_true_eq, decide_eq_true_eq, Option.all_eq_true] at met
    obtain ⟨owned, typed⟩ := met
    refine ⟨⟨object, Rows.find_mem member, owned⟩, ?_⟩
    intro wanted asked named
    have typed := typed wanted asked
    rw [Bool.or_eq_true, decide_eq_true_eq, decide_eq_true_eq] at typed
    exact ⟨object, Rows.find_mem member, typed.resolve_left named⟩
  · intro stands
    obtain ⟨⟨object, found, owned⟩, typed⟩ := stands
    obtain ⟨member, same⟩ := Rows.find_eq_some.mp found
    refine ⟨object, List.mem_filter.mpr ⟨member, ?_⟩, same⟩
    rw [Bool.and_eq_true, Bool.and_eq_true, decide_eq_true_eq, decide_eq_true_eq, Option.all_eq_true]
    refine ⟨owned, ?_⟩
    intro wanted asked
    rw [Bool.or_eq_true, decide_eq_true_eq, decide_eq_true_eq]
    by_cases named : wanted = ""
    · exact .inl named
    · obtain ⟨object', found', typed⟩ := typed wanted asked named
      rw [found] at found'
      cases found'
      exact .inr typed

theorem mem_projectedObjectIds {oid : String} : oid ∈ projectedObjectIds tables now principalId objectType ↔
    Shared tables now principalId oid ∧ OfType tables objectType oid := by
  unfold projectedObjectIds
  dsimp only
  rw [List.mem_dedup, List.mem_map]
  have typed (projection : ScopeProjection) : (objectType.all fun wanted =>
      wanted = "" || (tables.objects.find projection.objectId).any fun object => object.objectType = wanted) = true ↔
        OfType tables objectType projection.objectId := by
    rw [Option.all_eq_true]
    unfold OfType
    apply forall₂_congr
    intro wanted _
    rw [Bool.or_eq_true, decide_eq_true_eq, Option.any_eq_true, or_iff_not_imp_left]
    simp only [decide_eq_true_eq]
  constructor
  · intro listed
    obtain ⟨projection, listed, rfl⟩ := listed
    obtain ⟨inside, met⟩ := List.mem_filter.mp listed
    rw [Bool.and_eq_true, Bool.and_eq_true, typed, decide_eq_true_eq, decide_eq_true_eq] at met
    obtain ⟨⟨active, typed⟩, reached⟩ := met
    obtain ⟨row, stands, same⟩ := List.mem_map.mp reached
    obtain ⟨bound, membership, member, held, climbed⟩ := mem_visibleScopes.mp stands
    rw [same] at climbed
    exact ⟨⟨row.2, bound, membership, member, projection, inside, held, ⟨rfl, active⟩, climbed⟩, typed⟩
  · intro stands
    obtain ⟨⟨levels, bound, membership, member, projection, inside, held, ⟨rfl, active⟩, climbed⟩, kept⟩ := stands
    refine ⟨projection, List.mem_filter.mpr ⟨inside, ?_⟩, rfl⟩
    rw [Bool.and_eq_true, Bool.and_eq_true, typed, decide_eq_true_eq, decide_eq_true_eq]
    refine ⟨⟨active, kept⟩, List.mem_map.mpr ⟨(projection.scopeId, levels), ?_, rfl⟩⟩
    exact mem_visibleScopes.mpr ⟨bound, membership, member, held, climbed⟩

/-- What the merge comes to: each id once, all of them unless the limit ended it. -/
structure Merged (limit : Int) (result oids merged : List String) : Prop where
  nodup : merged.Nodup
  prefixed : result <+: merged
  listed : ∀ oid ∈ merged, oid ∈ result ∨ oid ∈ oids
  bounded : (merged.length : Int) ≤ max limit (result.length + 1)
  all : (merged.length : Int) < limit → ∀ oid ∈ oids, oid ∈ merged

theorem merge_merged {limit : Int} {seen result : List String} (oids : List String) (same : ∀ oid, oid ∈ seen ↔ oid ∈ result)
    (nodup : result.Nodup) : Merged limit result oids (merge limit seen result oids) := by
  induction oids generalizing seen result with
  | nil =>
    rw [merge]
    constructor
    · exact nodup
    · exact List.prefix_rfl
    · exact fun oid member => .inl member
    · omega
    · exact fun _ oid member => absurd member List.not_mem_nil
  | cons first oids ih =>
    rw [merge]
    -- the ids that are kept with the first one
    obtain ⟨kept, kept_eq⟩ : ∃ kept, kept = if decide (first ∈ seen) = true then result else result ++ [first] := ⟨_, rfl⟩
    obtain ⟨marked, marked_eq⟩ : ∃ marked, marked = if decide (first ∈ seen) = true then seen else first :: seen := ⟨_, rfl⟩
    rw [← kept_eq, ← marked_eq]
    have grown : kept.Nodup ∧ result <+: kept ∧ (∀ oid, oid ∈ kept ↔ oid ∈ result ∨ oid = first) ∧
        (∀ oid, oid ∈ marked ↔ oid ∈ kept) ∧ kept.length ≤ result.length + 1 := by
      by_cases known : first ∈ seen
      · rw [if_pos (decide_eq_true known)] at kept_eq marked_eq
        subst kept_eq marked_eq
        refine ⟨nodup, List.prefix_rfl, ?_, same, Nat.le_succ _⟩
        intro oid
        constructor
        · exact .inl
        · intro either
          rcases either with member | rfl
          · exact member
          · exact (same _).mp known
      · rw [if_neg (by simpa using known)] at kept_eq marked_eq
        subst kept_eq marked_eq
        have fresh : first ∉ result := fun member => known ((same first).mpr member)
        refine ⟨?_, List.prefix_append _ _, ?_, ?_, ?_⟩
        · exact nodup.append (List.nodup_singleton first) (by simpa using fresh)
        · intro oid
          rw [List.mem_append, List.mem_singleton]
        · intro oid
          rw [List.mem_cons, List.mem_append, List.mem_singleton, same oid, or_comm]
        · rw [List.length_append, List.length_singleton]
    obtain ⟨distinct, extends_, members, same', length⟩ := grown
    split
    next full =>
      constructor
      · exact distinct
      · exact extends_
      · intro oid member
        rcases (members oid).mp member with old | rfl
        · exact .inl old
        · exact .inr List.mem_cons_self
      · omega
      · intro below
        exact absurd full (Int.not_le.mpr below)
    next room =>
      have rest := ih same' distinct
      constructor
      · exact rest.nodup
      · exact extends_.trans rest.prefixed
      · intro oid member
        rcases rest.listed oid member with inside | later
        · rcases (members oid).mp inside with old | rfl
          · exact .inl old
          · exact .inr List.mem_cons_self
        · exact .inr (List.mem_cons_of_mem _ later)
      · have bounded := rest.bounded
        omega
      · intro below oid member
        rcases List.mem_cons.mp member with rfl | later
        · exact rest.prefixed.subset ((members _).mpr (.inr rfl))
        · exact rest.all below oid later

theorem visibleObjectIds_merged (tables : VisibilityTables) (now principalId : String) (objectType : Option String) (limit : Int) :
    Merged limit [] (ownedObjectIds tables principalId objectType ++ projectedObjectIds tables now principalId objectType)
      (visibleObjectIds tables now principalId objectType limit) :=
  merge_merged _ (fun _ => Iff.rfl) List.nodup_nil

theorem mem_sources {oid : String} :
    oid ∈ ownedObjectIds tables principalId objectType ++ projectedObjectIds tables now principalId objectType ↔
      canSee tables now principalId oid = true ∧ OfType tables objectType oid := by
  rw [List.mem_append, mem_ownedObjectIds, mem_projectedObjectIds, canSee_iff, or_and_right]

/-- The listing has ids that the check grants, each once, and a listing that the limit
has not ended has all of them. -/
theorem visibleObjectIds_granted (tables : VisibilityTables) (now principalId : String) (objectType : Option String) (limit : Int) :
    (visibleObjectIds tables now principalId objectType limit).Nodup ∧
    ((visibleObjectIds tables now principalId objectType limit).length : Int) ≤ max limit 1 ∧
    (∀ oid ∈ visibleObjectIds tables now principalId objectType limit,
      canSee tables now principalId oid = true ∧ OfType tables objectType oid) ∧
    (((visibleObjectIds tables now principalId objectType limit).length : Int) < limit → ∀ oid,
      oid ∈ visibleObjectIds tables now principalId objectType limit ↔
        canSee tables now principalId oid = true ∧ OfType tables objectType oid) := by
  have merged := visibleObjectIds_merged tables now principalId objectType limit
  have sound : ∀ oid ∈ visibleObjectIds tables now principalId objectType limit,
      canSee tables now principalId oid = true ∧ OfType tables objectType oid := by
    intro oid member
    exact mem_sources.mp ((merged.listed oid member).resolve_left List.not_mem_nil)
  refine ⟨merged.nodup, merged.bounded, sound, ?_⟩
  intro below oid
  constructor
  · exact sound oid
  · intro granted
    exact merged.all below oid (mem_sources.mpr granted)

end Listing

section Levels

/-- The principal is a member of a scope that the object is projected into at a level. -/
def SharedDirectly (tables : VisibilityTables) (now principalId objectId : String) (level : AccessLevel) : Prop :=
  ∃ projection ∈ tables.projections.list,
    (projection.objectId = objectId ∧ projection.lifecycle = .active ∧ projection.accessLevel = level) ∧
    ∃ membership ∈ tables.memberships.list, membership.scopeId = projection.scopeId ∧
      membership.principalId = principalId ∧ membership.holds now = true

theorem mem_levels {level : AccessLevel} :
    level ∈ (projectedTo tables now principalId objectId).map ScopeProjection.accessLevel ↔
      SharedDirectly tables now principalId objectId level := by
  rw [List.mem_map]
  constructor
  · intro listed
    obtain ⟨projection, joined, same⟩ := listed
    obtain ⟨inside, projected, member⟩ := mem_projectedTo.mp joined
    exact ⟨projection, inside, ⟨projected.1, projected.2, same⟩, member⟩
  · intro shared
    obtain ⟨projection, inside, projected, member⟩ := shared
    exact ⟨projection, mem_projectedTo.mpr ⟨inside, ⟨projected.1, projected.2.1⟩, member⟩, projected.2.2⟩

theorem SharedDirectly.shared {level : AccessLevel} (shared : SharedDirectly tables now principalId objectId level) :
    Shared tables now principalId objectId := by
  obtain ⟨projection, inside, projected, membership, member, scope, held⟩ := shared
  exact ⟨0, Nat.zero_le _, membership, member, projection, inside, held, ⟨projected.1, projected.2.1⟩, congrArg some scope⟩

theorem owner_iff (found : tables.objects.find objectId = some object) :
    (tables.objects.list.any fun object => object.id = objectId && object.ownerId = principalId) = true ↔
      object.ownerId = principalId := by
  rw [Rows.any_key, found, Option.any_some, decide_eq_true_eq]

theorem argmax_any_iff {levels above : List AccessLevel}
    (upward : ∀ level ∈ above, ∀ higher, level.priority ≤ higher.priority → higher ∈ above) :
    (levels.argmax AccessLevel.priority).any (fun level => level ∈ above) = true ↔ ∃ level ∈ levels, level ∈ above := by
  cases highest : levels.argmax AccessLevel.priority with
  | none =>
    rw [List.argmax_eq_none.mp highest]
    simp
  | some level =>
    rw [Option.any_some, decide_eq_true_eq]
    constructor
    · intro high
      exact ⟨level, List.argmax_mem highest, high⟩
    · intro some_
      obtain ⟨lower, member, high⟩ := some_
      exact upward lower high level (List.le_of_mem_argmax member highest)

end Levels

end VisibilityEngine

namespace ObjectReads
open VisibilityEngine

variable {manager : ObjectReads} {tables : VisibilityTables} {now principalId objectId required : String}
  {objectType : Option String}

section Single

theorem get_iff : manager.get tables now principalId objectId = some object ↔
    tables.objects.find objectId = some object ∧
      (object.ownerId = principalId ∨ manager.visibility = true ∧ Shared tables now principalId objectId) := by
  unfold get
  cases found : tables.objects.find objectId with
  | none => simp
  | some stored =>
    dsimp only
    rw [Option.some.injEq]
    split
    next own =>
      have owner : stored.ownerId = principalId := of_decide_eq_true own
      rw [Option.some.injEq]
      constructor
      · intro same
        exact ⟨same, .inl (same ▸ owner)⟩
      · exact And.left
    next foreign =>
      have foreign : stored.ownerId ≠ principalId := fun owner => foreign (decide_eq_true owner)
      have hidden : ¬ Owned tables principalId objectId := by
        intro owned
        obtain ⟨other, found', owner, -⟩ := owned
        rw [found] at found'
        cases found'
        exact foreign owner
      have seeing : (manager.visibility && canSee tables now principalId objectId) = true ↔
          manager.visibility = true ∧ Shared tables now principalId objectId := by
        rw [Bool.and_eq_true, canSee_iff, or_iff_right hidden]
      split
      next seen =>
        rw [Option.some.injEq]
        constructor
        · intro same
          exact ⟨same, .inr (seeing.mp seen)⟩
        · exact And.left
      next unseen =>
        rw [seeing] at unseen
        constructor
        · intro none_
          cases none_
        · intro stands
          obtain ⟨rfl, owner | seen⟩ := stands
          · exact absurd owner foreign
          · exact absurd seen unseen

theorem getOrRaise_iff : manager.getOrRaise tables now principalId objectId = .ok object ↔
    manager.get tables now principalId objectId = some object := by
  unfold getOrRaise get
  cases tables.objects.find objectId with
  | none => simp
  | some stored =>
    dsimp only
    split
    · simp
    · split <;> simp

theorem requiredLevels_upward (required : String) : ∀ level ∈ requiredLevels required, ∀ higher : AccessLevel,
    level.priority ≤ higher.priority → higher ∈ requiredLevels required := by
  intro level high higher above
  unfold requiredLevels at high ⊢
  split at high
  · cases higher <;> simp
  · cases higher <;> cases level <;> simp_all [AccessLevel.priority]
  · cases higher <;> cases level <;> simp_all [AccessLevel.priority]
  · cases high

theorem checkAccessLevel_iff (found : tables.objects.find objectId = some object) :
    checkAccessLevel ⟨true⟩ tables now principalId objectId required = .ok () ↔
      object.ownerId = principalId ∨ ∃ level ∈ requiredLevels required, SharedDirectly tables now principalId objectId level := by
  unfold checkAccessLevel
  rw [found]
  dsimp only
  rw [Bool.not_true, if_neg Bool.false_ne_true]
  split
  next own => exact iff_of_true rfl (.inl (of_decide_eq_true own))
  next foreign =>
    have foreign : object.ownerId ≠ principalId := fun owner => foreign (decide_eq_true owner)
    have level : accessLevel tables now principalId objectId =
        ((projectedTo tables now principalId objectId).map ScopeProjection.accessLevel).argmax AccessLevel.priority := by
      unfold accessLevel
      rw [if_neg]
      rw [owner_iff found]
      exact foreign
    rw [or_iff_right foreign]
    have enough : ((accessLevel tables now principalId objectId).any fun level => level ∈ requiredLevels required) = true ↔
        ∃ level ∈ requiredLevels required, SharedDirectly tables now principalId objectId level := by
      rw [level, argmax_any_iff (requiredLevels_upward required)]
      constructor
      · intro high
        obtain ⟨level, member, high⟩ := high
        exact ⟨level, high, mem_levels.mp member⟩
      · intro high
        obtain ⟨level, high, shared⟩ := high
        exact ⟨level, mem_levels.mpr shared, high⟩
    split
    next high => exact iff_of_true rfl (enough.mp high)
    next low =>
      rw [enough] at low
      constructor
      · intro error
        cases error
      · intro high
        exact absurd high low

/-- What the writes of the manager ask first. Reading follows the projections up the
hierarchy, and the level of access only those of the principal's own scopes. -/
theorem admitted_iff (tables : VisibilityTables) (now principalId objectId required : String) :
    ((∃ object, getOrRaise ⟨true⟩ tables now principalId objectId = .ok object) ↔
      ∃ object, tables.objects.find objectId = some object ∧
        (object.ownerId = principalId ∨ Shared tables now principalId objectId)) ∧
    ((∃ object, getOrRaise ⟨true⟩ tables now principalId objectId = .ok object) ∧
        checkAccessLevel ⟨true⟩ tables now principalId objectId required = .ok () ↔
      ∃ object, tables.objects.find objectId = some object ∧
        (object.ownerId = principalId ∨ ∃ level ∈ requiredLevels required, SharedDirectly tables now principalId objectId level)) := by
  have readable : (∃ object, getOrRaise ⟨true⟩ tables now principalId objectId = .ok object) ↔
      ∃ object, tables.objects.find objectId = some object ∧
        (object.ownerId = principalId ∨ Shared tables now principalId objectId) := by
    apply exists_congr
    intro object
    rw [getOrRaise_iff, get_iff]
    simp only [true_and]
  refine ⟨readable, ?_⟩
  rw [readable]
  constructor
  · intro passed
    obtain ⟨⟨object, found, -⟩, checked⟩ := passed
    exact ⟨object, found, (checkAccessLevel_iff found).mp checked⟩
  · intro allowed
    obtain ⟨object, found, allowed⟩ := allowed
    refine ⟨⟨object, found, allowed.imp_right ?_⟩, (checkAccessLevel_iff found).mpr allowed⟩
    intro high
    obtain ⟨level, -, shared⟩ := high
    exact shared.shared

end Single

section Listing

/-- The type that the rows of a listing have. -/
def TypedAs (objectType : Option String) (object : ScopedObject) : Prop := ∀ wanted, objectType = some wanted → object.objectType = wanted

theorem typedAs_iff :
    (objectType.all fun wanted => decide (object.objectType = wanted)) = true ↔ TypedAs objectType object := by
  simp only [Option.all_eq_true, decide_eq_true_eq]
  rfl

theorem mem_visibilityFilteredSelect_wired :
    object ∈ visibilityFilteredSelect ⟨true⟩ tables now principalId objectType ↔ object ∈ tables.objects.list ∧
      object.id ∈ visibleObjectIds tables now principalId objectType 10000 ∧ TypedAs objectType object := by
  unfold visibilityFilteredSelect
  rw [Bool.not_true, if_neg Bool.false_ne_true]
  dsimp only
  split
  next none_ =>
    rw [List.isEmpty_iff.mp none_]
    simp
  next some_ => rw [List.mem_filter, Bool.and_eq_true, decide_eq_true_eq, typedAs_iff]

theorem mem_visibilityFilteredSelect_plain :
    object ∈ visibilityFilteredSelect ⟨false⟩ tables now principalId objectType ↔
      object ∈ tables.objects.list ∧ object.ownerId = principalId ∧ TypedAs objectType object := by
  unfold visibilityFilteredSelect
  rw [Bool.not_false, if_pos rfl, List.mem_filter, Bool.and_eq_true, decide_eq_true_eq, typedAs_iff]

theorem visibilityFilteredSelect_sublist : (manager.visibilityFilteredSelect tables now principalId objectType).Sublist
    tables.objects.list := by
  unfold visibilityFilteredSelect
  dsimp only
  split
  · exact List.filter_sublist
  · split
    · exact List.nil_sublist _
    · exact List.filter_sublist

/-- The objects that a listing has where nothing ends it early: an archived object is
only listed where it is shared, its owner's own listing included. -/
def Listed (manager : ObjectReads) (tables : VisibilityTables) (now principalId : String) (objectType : Option String)
    (object : ScopedObject) : Prop :=
  manager.get tables now principalId object.id = some object ∧ TypedAs objectType object ∧
    (manager.visibility = true → object.lifecycle = .archived → Shared tables now principalId object.id)

theorem visibilityFilteredSelect_listed
    (member : object ∈ manager.visibilityFilteredSelect tables now principalId objectType) :
    Listed manager tables now principalId objectType object := by
  obtain ⟨visibility⟩ := manager
  cases visibility with
  | false =>
    obtain ⟨inside, owner, typed⟩ := mem_visibilityFilteredSelect_plain.mp member
    refine ⟨get_iff.mpr ⟨Rows.find_mem inside, .inl owner⟩, typed, ?_⟩
    intro wired
    cases wired
  | true =>
    obtain ⟨inside, listed, typed⟩ := mem_visibilityFilteredSelect_wired.mp member
    obtain ⟨-, -, sound, -⟩ := visibleObjectIds_granted tables now principalId objectType 10000
    have found := Rows.find_mem inside
    rcases (canSee_iff tables now principalId object.id).mp (sound object.id listed).1 with owned | shared
    · obtain ⟨other, found', owner, live⟩ := owned
      rw [found] at found'
      cases found'
      exact ⟨get_iff.mpr ⟨found, .inl owner⟩, typed, fun _ archived => absurd archived live⟩
    · exact ⟨get_iff.mpr ⟨found, .inr ⟨rfl, shared⟩⟩, typed, fun _ _ => shared⟩

theorem mem_visibilityFilteredSelect
    (room : manager.visibility = true → (visibleObjectIds tables now principalId objectType 10000).length < 10000) :
    object ∈ manager.visibilityFilteredSelect tables now principalId objectType ↔
      Listed manager tables now principalId objectType object := by
  constructor
  · exact visibilityFilteredSelect_listed
  · intro listed
    obtain ⟨got, typed, live⟩ := listed
    obtain ⟨found, access⟩ := get_iff.mp got
    have inside := (Rows.find_eq_some.mp found).1
    obtain ⟨visibility⟩ := manager
    cases visibility with
    | false =>
      have owner := access.resolve_right fun shared => Bool.false_ne_true shared.1
      exact mem_visibilityFilteredSelect_plain.mpr ⟨inside, owner, typed⟩
    | true =>
      obtain ⟨-, -, -, all⟩ := visibleObjectIds_granted tables now principalId objectType 10000
      refine mem_visibilityFilteredSelect_wired.mpr ⟨inside, ?_, typed⟩
      apply (all (by exact_mod_cast room rfl) object.id).mpr
      constructor
      · rw [canSee_iff]
        by_cases archived : object.lifecycle = .archived
        · exact .inr (live rfl archived)
        · rcases access with owner | shared
          · exact .inl ⟨object, found, owner, archived⟩
          · exact .inr shared.2
      · intro wanted asked _
        exact ⟨object, found, typed wanted asked⟩

/-- A number of pages of a listing, one behind the other, each from a query of its own. -/
def pages (manager : ObjectReads) (tables : VisibilityTables) (now principalId : String) (objectType : Option String)
    (includeTombstoned : Bool) (orderBy : String) (limit rounds : Nat) (ties : Nat → ScopedObject → Nat) : List ScopedObject :=
  (List.range rounds).flatMap fun i =>
    manager.listObjects tables now principalId objectType includeTombstoned orderBy limit (i * limit) (ties i)

/-- The queries give rows of the same text in the same order. -/
def Agree (rows : List ScopedObject) (orderBy : String) (ties : Nat → ScopedObject → Nat) : Prop :=
  ∀ i, ∀ object ∈ rows, ∀ other ∈ rows, orderText orderBy object = orderText orderBy other →
    (ties i object ≤ ties i other ↔ ties 0 object ≤ ties 0 other)

theorem Agree.of_distinct {rows : List ScopedObject} {orderBy : String} (distinct : (rows.map (orderText orderBy)).Nodup)
    (ties : Nat → ScopedObject → Nat) : Agree rows orderBy ties := by
  intro i object member other member' same
  obtain rfl := List.inj_on_of_nodup_map distinct member member' same
  simp

theorem Agree.sorted {rows : List ScopedObject} {orderBy : String} {ties : Nat → ScopedObject → Nat} (agree : Agree rows orderBy ties)
    (i : Nat) : rows.insertionSort (fun first second => precedes orderBy (ties i) first second) =
      rows.insertionSort fun first second => precedes orderBy (ties 0) first second := by
  have same := List.map_insertionSort (fun first second => (precedes orderBy (ties i) first second : Prop))
    (fun first second => precedes orderBy (ties 0) first second) id rows fun first member second member' => by
      unfold precedes
      by_cases equal : orderText orderBy first = orderText orderBy second
      · simp [equal, agree i first member second member' equal]
      · simp [equal]
  simpa only [List.map_id] using same

theorem listObjects_listed {includeTombstoned : Bool} {orderBy : String} {limit offset : Nat} {ties : ScopedObject → Nat}
    (member : object ∈ manager.listObjects tables now principalId objectType includeTombstoned orderBy limit offset ties) :
    Listed manager tables now principalId objectType object := by
  have inside := (List.mem_insertionSort _).mp (List.mem_of_mem_drop (List.mem_of_mem_take member))
  exact visibilityFilteredSelect_listed (List.mem_filter.mp inside).1

/-- Each object of a page is one that is got by its id. Where the queries agree on rows
of the same text and the principal sees less than ten thousand, pages together have
every object once that is counted, and these are all that are got, archived objects of
the principal's own apart. -/
theorem pages_got (manager : ObjectReads) (tables : VisibilityTables) (now principalId : String) (objectType : Option String)
    (includeTombstoned : Bool) (orderBy : String) (limit rounds : Nat) (ties : Nat → ScopedObject → Nat)
    (enough : manager.count tables now principalId objectType includeTombstoned ≤ rounds * limit) :
    (∀ object ∈ manager.pages tables now principalId objectType includeTombstoned orderBy limit rounds ties,
      Listed manager tables now principalId objectType object) ∧
    (Agree (manager.selected tables now principalId objectType includeTombstoned) orderBy ties →
      (manager.visibility = true → (visibleObjectIds tables now principalId objectType 10000).length < 10000) →
      (manager.pages tables now principalId objectType includeTombstoned orderBy limit rounds ties).Nodup ∧
      (manager.pages tables now principalId objectType includeTombstoned orderBy limit rounds ties).length =
        manager.count tables now principalId objectType includeTombstoned ∧
      ∀ object, object ∈ manager.pages tables now principalId objectType includeTombstoned orderBy limit rounds ties ↔
        Listed manager tables now principalId objectType object ∧ (includeTombstoned = true ∨ object.lifecycle ≠ .archived)) := by
  constructor
  · intro object member
    obtain ⟨i, -, listed⟩ := List.mem_flatMap.mp member
    exact listObjects_listed listed
  intro agree room
  have perm := List.perm_insertionSort (fun first second => (precedes orderBy (ties 0) first second : Prop))
    (manager.selected tables now principalId objectType includeTombstoned)
  have whole : manager.pages tables now principalId objectType includeTombstoned orderBy limit rounds ties =
      (manager.selected tables now principalId objectType includeTombstoned).insertionSort
        fun first second => precedes orderBy (ties 0) first second := by
    unfold pages listObjects
    simp only [agree.sorted]
    rw [Paging.flatMap_pages, List.take_of_length_le (by rw [perm.length_eq]; exact enough)]
  rw [whole]
  refine ⟨?_, perm.length_eq, fun object => ?_⟩
  · apply perm.nodup_iff.mpr
    exact tables.objects.unique.of_map.sublist (List.filter_sublist.trans visibilityFilteredSelect_sublist)
  · rw [perm.mem_iff, selected, List.mem_filter, Bool.or_eq_true, decide_eq_true_eq, mem_visibilityFilteredSelect room]

end Listing

section Example

def plan : ScopedObject :=
  ⟨"plan", "Document", "ann", 1, ⟨2024, 1, 1, 0, 0, 0, 0, DateTime.newYear_bounded⟩, .active, none⟩

/-- Bob is a member of a team. Ann shares a plan with the whole company, and keeps a
note that she has archived. -/
def company : VisibilityTables where
  objects := ⟨[⟨"note", "Document", "ann", 1, ⟨2024, 1, 1, 0, 0, 0, 0, DateTime.newYear_bounded⟩, .archived, none⟩, plan],
    by decide⟩
  scopes := ⟨[⟨"all", "Company", "ann", none, .active⟩, ⟨"team", "Team", "ann", some "all", .active⟩], by decide⟩
  memberships := ⟨[⟨"m", "team", "bob", .viewer, "2024-01-01", "ann", none, .active⟩], by decide⟩
  projections := ⟨[⟨"p", "all", "plan", "2024-01-01", "ann", .admin, .active⟩], by decide⟩

theorem pages_got_company : plan ∈ pages ⟨true⟩ company "2024-06-01" "bob" none true "-created_at" 1 2 fun i _ => i := by
  obtain ⟨-, all⟩ := pages_got ⟨true⟩ company "2024-06-01" "bob" none true "-created_at" 1 2 (fun i _ => i) (by decide)
  refine ((all (Agree.of_distinct (by decide) _) fun _ => by decide).2.2 plan).mpr ⟨⟨by decide, ?_, ?_⟩, .inl rfl⟩
  · intro wanted asked
    cases asked
  · intro _ archived
    cases archived

end Example

end ObjectReads

end PyScoped.Legacy
