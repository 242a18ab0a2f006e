import Mathlib.Data.List.Chain
import Mathlib.Data.List.Forall2
import Mathlib.Data.List.Induction

/-! Chains of sealed records. Each record names the digest of its predecessor,
and a retained head names the digest of the last one. Nothing here depends on
how a record is sealed, only on what a digest determines. -/

namespace Foundation.HashChain

variable {α β : Type*} (digest previous : α → β) (Sealed : α → Prop)

/-- The records lead from the start digest to the head without a gap. -/
def Linked (start : β) : List α → β → Prop
  | [], head => head = start
  | record :: records, head => previous record = start ∧ Sealed record ∧ Linked (digest record) records head

variable {digest previous Sealed}

theorem linked_concat {start head : β} (records : List α) (record : α) :
    Linked digest previous Sealed start (records ++ [record]) head ↔
      Linked digest previous Sealed start records (previous record) ∧ Sealed record ∧ head = digest record := by
  induction records generalizing start with
  | nil => exact ⟨fun ⟨link, valid, last⟩ => ⟨link, valid, last⟩, fun ⟨link, valid, last⟩ => ⟨link, valid, last⟩⟩
  | cons first records ih =>
    simp only [List.cons_append, Linked, ih]
    exact ⟨fun ⟨link, valid, rest⟩ => ⟨⟨link, valid, rest.1⟩, rest.2⟩,
      fun ⟨⟨link, valid, rest⟩, last⟩ => ⟨link, valid, rest, last⟩⟩

variable {records : List α}

theorem Linked.sealed {start head : β}
    (linked : Linked digest previous Sealed start records head) : ∀ record ∈ records, Sealed record := by
  induction records generalizing start with
  | nil => simp
  | cons first records ih =>
    obtain ⟨_, valid, rest⟩ := linked
    exact List.forall_mem_cons.mpr ⟨valid, ih rest⟩

/-- Two chains of one length that end in one head agree position by position,
as far as equal digests of sealed records determine them. The induction runs
backwards from the head: each determined record hands its predecessor's digest
to the step before. -/
theorem Linked.agree {start start' head : β} {records' : List α} {Agree : α → α → Prop}
    (linked : Linked digest previous Sealed start records head)
    (linked' : Linked digest previous Sealed start' records' head)
    (lengths : records.length = records'.length)
    (determined : ∀ pair ∈ records.zip records', Sealed pair.1 → Sealed pair.2 →
      digest pair.1 = digest pair.2 → previous pair.1 = previous pair.2 ∧ Agree pair.1 pair.2) :
    List.Forall₂ Agree records records' := by
  induction records using List.reverseRecOn generalizing records' head with
  | nil =>
    cases records' with
    | nil => exact .nil
    | cons _ _ => simp at lengths
  | append_singleton records record ih =>
    cases records' using List.reverseRecOn with
    | nil => simp at lengths
    | append_singleton records' record' =>
      have same : records.length = records'.length := by simpa using lengths
      have pairs : (records ++ [record]).zip (records' ++ [record']) =
          records.zip records' ++ [(record, record')] := by
        rw [List.zip_append same]; rfl
      rw [pairs] at determined
      obtain ⟨before, valid, last⟩ := (linked_concat records record).mp linked
      obtain ⟨before', valid', last'⟩ := (linked_concat records' record').mp linked'
      obtain ⟨link, agree⟩ := determined (record, record') (by simp) valid valid' (last.symm.trans last')
      have earlier := ih before (link ▸ before') same
        (fun pair member => determined pair (List.mem_append_left _ member))
      exact List.rel_append earlier (.cons agree .nil)

section Gaps

variable {kept : α → Bool}

/-- What is dropped between two records that stay leaves no gap: the last one that is
dropped has the digest of the one that stays before it. -/
def Gapless (digest : α → β) (kept : α → Bool) (records : List α) : Prop :=
  ∀ before first gone last second after, records = before ++ first :: (gone ++ last :: second :: after) →
    kept first = true → (∀ record ∈ gone, ¬ kept record = true) → ¬ kept last = true → kept second = true →
    digest last = digest first

/-- Records of a chain that stay are a chain where what is dropped leaves no gap. -/
theorem filter_chain_iff (chain : records.IsChain fun first second => previous second = digest first) :
    ((records.filter kept).IsChain fun first second => previous second = digest first) ↔ Gapless digest kept records := by
  have linked := List.isChain_iff_forall_rel_of_append_cons_cons.mp chain
  rw [List.isChain_iff_forall_rel_of_append_cons_cons]
  constructor
  · intro stays before first gone last second after split first' gone' last' second'
    have none : gone.filter kept = [] := List.filter_eq_nil_iff.mpr gone'
    have remains : records.filter kept = before.filter kept ++ first :: second :: after.filter kept := by
      rw [split, List.filter_append, List.filter_cons_of_pos first', List.filter_append, none,
        List.filter_cons_of_neg last', List.filter_cons_of_pos second', List.nil_append]
    have joined : previous second = digest first := stays remains
    have whole : records = (before ++ first :: gone) ++ last :: second :: after := by
      rw [split]
      simp
    have adjacent : previous second = digest last := linked whole
    exact adjacent.symm.trans joined
  · intro gapless first second before after split
    obtain ⟨front, back, parted, -, rest⟩ := List.filter_eq_append_iff.mp split
    obtain ⟨lead, behind, same, -, first', rest⟩ := List.filter_eq_cons_iff.mp rest
    obtain ⟨gone, tail, same', gone', second', -⟩ := List.filter_eq_cons_iff.mp rest
    have whole : records = (front ++ lead) ++ first :: (gone ++ second :: tail) := by
      rw [parted, same, same', List.append_assoc]
    rcases List.eq_nil_or_concat gone with rfl | ⟨init, last, rfl⟩
    · exact linked whole
    · rw [List.concat_append] at whole
      have last' := gone' last (by simp)
      have regrouped : records = (front ++ lead ++ first :: init) ++ last :: second :: tail := by
        rw [whole]
        simp
      have adjacent : previous second = digest last := linked regrouped
      exact adjacent.trans (gapless (front ++ lead) first init last second tail whole first'
        (fun record inside => gone' record (by simp [inside])) last' second')

/-- Nothing is missing between two records that stay where all that is dropped comes first. -/
theorem gapless_of_rising
    (rising : records.Pairwise fun first second => kept first = true → kept second = true) : Gapless digest kept records := by
  intro before first gone last second after split stays _ drops _
  rw [split] at rising
  have behind := (List.pairwise_cons.mp (List.pairwise_append.mp rising).2.1).1
  exact absurd (behind last (List.mem_append_right _ List.mem_cons_self) stays) drops

end Gaps

end Foundation.HashChain
