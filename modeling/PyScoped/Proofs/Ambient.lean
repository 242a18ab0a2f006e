import PyScoped.Core.Ambient

/-! What is current once all scope managers have been left, and while streamed bodies
run. Both follow from what the tokens of the open blocks remember. -/

namespace PyScoped.Ambient
open Foundation

section Scopes

variable {ι : Type} {contexts : ι → Active}

/-- Each block is entered once and then left once. -/
structure Paired (turns : List (Turn ι)) : Prop where
  once : turns.Nodup
  entered : ∀ block before after, turns = before ++ .exit block :: after → .enter block ∈ before
  left : ∀ block, .enter block ∈ turns → .exit block ∈ turns

/-- Going back from the last turn, from an exit to what precedes the entry of the same
block: nothing comes before, or the entry of another block does. -/
inductive ComesFrom : List (Turn ι) → Option ι → Prop where
  | start : ComesFrom [] none
  | enter (before : List (Turn ι)) (block : ι) : ComesFrom (before ++ [.enter block]) (some block)
  | exit {before : List (Turn ι)} {origin : Option ι} (block : ι) (between : List (Turn ι)) (comes : ComesFrom before origin) :
      ComesFrom (before ++ .enter block :: (between ++ [.exit block])) origin

/-- Blocks that are left in the opposite order of their entries. -/
inductive Nested : List (Turn ι) → Prop where
  | nil : Nested []
  | block {inner rest : List (Turn ι)} (block : ι) (inside : Nested inner) (onward : Nested rest) :
      Nested (.enter block :: (inner ++ .exit block :: rest))

/-- Where the current context comes from, it was current at the start. -/
private def origin (contexts : ι → Active) (start : Option Active) : Option ι → Option Active
  | none => start
  | some block => some (contexts block)

/-- What is current after some turns, and what the tokens of the open blocks remember. -/
private structure Remembers (contexts : ι → Active) (start : Option Active) (turns : List (Turn ι)) (managers : Managers ι) :
    Prop where
  current : ∀ source, ComesFrom turns source → managers.current = origin contexts start source
  entered : ∀ block, .exit block ∈ turns → .enter block ∈ turns
  opened : ∀ block, managers.tokens block ≠ none ↔ .enter block ∈ turns ∧ .exit block ∉ turns
  tokens : ∀ block before after source, managers.tokens block ≠ none → turns = before ++ .enter block :: after →
    ComesFrom before source → managers.tokens block = some (origin contexts start source)

variable {turns : List (Turn ι)}

private theorem ComesFrom.entered {block : ι} {source : Option ι}
    (comes : ComesFrom (turns ++ [.enter block]) source) : source = some block := by
  generalize whole : turns ++ [.enter block] = all at comes
  cases comes with
  | start => simp at whole
  | enter before other =>
    obtain ⟨-, same⟩ := List.append_inj' whole rfl
    cases same
    rfl
  | @exit before source other between comes =>
    rw [← List.cons_append, ← List.append_assoc] at whole
    obtain ⟨-, same⟩ := List.append_inj' whole rfl
    cases same

private theorem ComesFrom.exited {block : ι} {source : Option ι} (comes : ComesFrom (turns ++ [.exit block]) source) :
    ∃ before between, turns = before ++ .enter block :: between ∧ ComesFrom before source := by
  generalize whole : turns ++ [.exit block] = all at comes
  cases comes with
  | start => simp at whole
  | enter before other =>
    obtain ⟨-, same⟩ := List.append_inj' whole rfl
    cases same
  | @exit before source other between comes =>
    rw [← List.cons_append, ← List.append_assoc] at whole
    obtain ⟨prior, same⟩ := List.append_inj' whole rfl
    cases same
    exact ⟨before, between, prior, comes⟩

private theorem split_snoc {before after : List (Turn ι)} {turn last : Turn ι} (different : turn ≠ last)
    (whole : turns ++ [last] = before ++ turn :: after) : ∃ rest, turns = before ++ turn :: rest := by
  rcases List.eq_nil_or_concat after with rfl | ⟨rest, other, rfl⟩
  · obtain ⟨-, same⟩ := List.append_inj' whole rfl
    cases same
    exact absurd rfl different
  · rw [List.concat_eq_append, ← List.cons_append, ← List.append_assoc] at whole
    exact ⟨rest, (List.append_inj' whole rfl).1⟩

private theorem Paired.comesFrom
    (entered : ∀ block before after, turns = before ++ .exit block :: after → .enter block ∈ before) :
    ∃ source, ComesFrom turns source := by
  induction size : turns.length using Nat.strong_induction_on generalizing turns with
  | h length ih =>
    rcases List.eq_nil_or_concat turns with rfl | ⟨prior, last, rfl⟩
    · exact ⟨_, .start⟩
    rw [List.concat_eq_append] at entered size ⊢
    cases last with
    | enter block => exact ⟨_, .enter prior block⟩
    | exit block =>
      obtain ⟨before, between, rfl⟩ := List.append_of_mem (entered block prior [] rfl)
      obtain ⟨source, comes⟩ := ih before.length (by simp at size; omega)
        (fun other first rest whole => entered other first (rest ++ .enter block :: between ++ [.exit block]) (by simp [whole])) rfl
      refine ⟨source, ?_⟩
      rw [List.append_assoc, List.cons_append]
      exact .exit block between comes

theorem Nested.comesFrom {before : List (Turn ι)} {source : Option ι} (nested : Nested turns)
    (comes : ComesFrom before source) : ComesFrom (before ++ turns) source := by
  induction nested generalizing before with
  | nil => simpa using comes
  | @block inner rest block _ _ _ ih =>
    have left : ComesFrom ((before ++ .enter block :: (inner ++ [.exit block])) ++ rest) source :=
      ih (.exit block inner comes)
    simpa using left

variable [DecidableEq ι]

private theorem enter_remembers {start : Option Active} {managers : Managers ι} {block : ι}
    (remembers : Remembers contexts start turns managers) (fresh : Turn.enter block ∉ turns) :
    ∃ next, managers.enter contexts block = .ok next ∧ Remembers contexts start (turns ++ [.enter block]) next := by
  have unused : managers.tokens block = none := by
    by_contra used
    exact fresh ((remembers.opened block).mp used).1
  refine ⟨⟨some (contexts block), Function.update managers.tokens block (some managers.current)⟩, ?_, ?_⟩
  · rw [Managers.enter, unused]
  refine ⟨fun source comes => ?_, fun other left => ?_, fun other => ?_,
    fun other before after source used whole comes => ?_⟩
  · rw [comes.entered]
    rfl
  · obtain left | same := List.mem_append.mp left
    · exact List.mem_append_left _ (remembers.entered other left)
    · cases List.mem_singleton.mp same
  · by_cases same : other = block
    · subst other
      have unleft : Turn.exit block ∉ turns := fun left => fresh (remembers.entered block left)
      simp [unleft]
    · simp [remembers.opened other, same]
  · by_cases same : other = block
    · subst other
      rcases List.eq_nil_or_concat after with rfl | ⟨rest, last, rfl⟩
      · obtain ⟨rfl, -⟩ := List.append_inj' whole rfl
        rw [remembers.current source comes]
        exact Function.update_self ..
      · rw [List.concat_eq_append, ← List.cons_append, ← List.append_assoc] at whole
        obtain ⟨rfl, -⟩ := List.append_inj' whole rfl
        exact absurd (List.mem_append_right _ List.mem_cons_self) fresh
    · simp only [Function.update_of_ne same] at used ⊢
      obtain ⟨rest, prior⟩ := split_snoc (fun equal => same (Turn.enter.inj equal)) whole
      exact remembers.tokens other before rest source used prior comes

private theorem exit_remembers {start : Option Active} {managers : Managers ι} {block : ι}
    (remembers : Remembers contexts start turns managers) (entered : Turn.enter block ∈ turns)
    (unleft : Turn.exit block ∉ turns) :
    ∃ next, managers.exit block = .ok next ∧ Remembers contexts start (turns ++ [.exit block]) next := by
  have used : managers.tokens block ≠ none := (remembers.opened block).mpr ⟨entered, unleft⟩
  obtain ⟨previous, token⟩ := Option.ne_none_iff_exists'.mp used
  refine ⟨⟨previous, Function.update managers.tokens block none⟩, ?_, ?_⟩
  · rw [Managers.exit, token]
  refine ⟨fun source comes => ?_, fun other left => ?_, fun other => ?_,
    fun other before after source used whole comes => ?_⟩
  · obtain ⟨before, between, whole, comes⟩ := comes.exited
    have kept := remembers.tokens block before between source used whole comes
    exact Option.some.inj (token.symm.trans kept)
  · obtain left | same := List.mem_append.mp left
    · exact List.mem_append_left _ (remembers.entered other left)
    · cases List.mem_singleton.mp same
      exact List.mem_append_left _ entered
  · by_cases same : other = block
    · subst other
      simp
    · simp [remembers.opened other, same]
  · have different : other ≠ block := by
      rintro rfl
      exact used (Function.update_self ..)
    simp only [Function.update_of_ne different] at used ⊢
    obtain ⟨rest, prior⟩ := split_snoc (fun equal => by cases equal) whole
    exact remembers.tokens other before rest source used prior comes

private theorem run_remembers {start : Option Active} (once : turns.Nodup)
    (entered : ∀ block before after, turns = before ++ .exit block :: after → .enter block ∈ before) :
    ∃ managers, (Managers.outside start).run contexts turns = .ok managers ∧ Remembers contexts start turns managers := by
  induction turns using List.reverseRecOn with
  | nil =>
    refine ⟨_, rfl, fun source comes => ?_, nofun, fun block => ?_, fun block before after source used => absurd rfl used⟩
    · generalize none : ([] : List (Turn ι)) = turns at comes
      cases comes with
      | start => rfl
      | enter before block => simp at none
      | exit block between comes => simp at none
    · simp [Managers.outside]
  | append_singleton prior last ih =>
    obtain ⟨once, -, new⟩ := List.nodup_append.mp once
    obtain ⟨managers, ran, remembers⟩ := ih once fun block before after whole =>
      entered block before (after ++ [last]) (by simp [whole])
    have unseen : last ∉ prior := fun member => new last member last List.mem_cons_self rfl
    unfold Managers.run at ran ⊢
    rw [List.foldlM_append, ran]
    cases last with
    | enter block =>
      obtain ⟨next, step, remembers⟩ := enter_remembers remembers unseen
      refine ⟨next, ?_, remembers⟩
      change (managers.enter contexts block).bind pure = _
      rw [step]
      rfl
    | exit block =>
      obtain ⟨next, step, remembers⟩ := exit_remembers remembers (entered block prior [] rfl) unseen
      refine ⟨next, ?_, remembers⟩
      change (managers.exit block).bind pure = _
      rw [step]
      rfl

/-- Once all blocks have been left, the first context is current again just when going back
from the last exit one gets to the start, or to a block with that very context. -/
theorem scopes_restore_iff {turns : List (Turn ι)} (paired : Paired turns) (contexts : ι → Active) (start : Option Active) :
    ∃ managers, (Managers.outside start).run contexts turns = .ok managers ∧ (∀ block, managers.tokens block = none) ∧
      (managers.current = start ↔ ∃ source, ComesFrom turns source ∧ ∀ block ∈ source, some (contexts block) = start) := by
  obtain ⟨managers, ran, remembers⟩ : ∃ managers, (Managers.outside start).run contexts turns = .ok managers ∧
    Remembers contexts start turns managers := run_remembers paired.once paired.entered
  refine ⟨managers, ran, fun block => ?_, fun restored => ?_, fun ⟨source, comes, same⟩ => ?_⟩
  · by_contra used
    obtain ⟨entered, unleft⟩ := (remembers.opened block).mp used
    exact unleft (paired.left block entered)
  · obtain ⟨source, comes⟩ := Paired.comesFrom paired.entered
    refine ⟨source, comes, ?_⟩
    rintro block rfl
    exact (remembers.current _ comes).symm.trans restored
  · rw [remembers.current source comes]
    cases source with
    | none => rfl
    | some block => exact same block rfl

/-- Two managers, of which the one that was entered first is left first. -/
private def crossed : List (Turn Bool) := [.enter true, .enter false, .exit true, .exit false]

private def nested : List (Turn Bool) := [.enter true, .enter false, .exit false, .exit true]

private def member (block : Bool) : Active :=
  ⟨⟨"a", if block then "s" else "t", "", "", by decide, by cases block <;> decide, by decide⟩, block.toNat⟩

private theorem paired_of (turns : List (Turn Bool)) (once : turns.Nodup) (entered : ∀ block, ∀ position : Fin turns.length,
    turns[position] = .exit block → .enter block ∈ turns.take position)
    (left : ∀ block, .enter block ∈ turns → .exit block ∈ turns) : Paired turns := by
  refine ⟨once, fun block before after whole => ?_, left⟩
  have inside : before.length < turns.length := by simp [whole]
  have found := entered block ⟨before.length, inside⟩ (by simp [whole])
  simpa [whole] using found

/-- The block that was entered first is left first: its own context stays current. -/
theorem left_scope_current : ∃ managers, Paired crossed ∧ (Managers.outside none).run member crossed = .ok managers ∧
    (∀ block, managers.tokens block = none) ∧ managers.current ≠ none := by
  obtain ⟨managers, ran, unused⟩ : ∃ managers, (Managers.outside none).run member crossed = .ok managers ∧
      (∀ block, managers.tokens block = none) ∧ managers.current = some (member true) :=
    ⟨_, rfl, by decide, rfl⟩
  refine ⟨managers, paired_of crossed (by decide) (by decide) (by decide), ran, unused.1, ?_⟩
  rw [unused.2]
  exact Option.some_ne_none _

theorem scopes_restore_iff_nested : ∃ managers, (Managers.outside none).run member nested = .ok managers ∧
    (∀ block, managers.tokens block = none) ∧ managers.current = none := by
  have paired : Paired nested := paired_of nested (by decide) (by decide) (by decide)
  obtain ⟨managers, ran, unused, iff⟩ := scopes_restore_iff paired member none
  refine ⟨managers, ran, unused, iff.mpr ⟨none, ?_, nofun⟩⟩
  exact (Nested.block true (.block false .nil .nil) .nil).comesFrom .start

end Scopes

section Streams

/-- The current context is the consumer's, and was the body's own whenever a body had control. -/
structure Thread.Faithful (thread : Thread) : Prop where
  ambient : thread.current = thread.consumer
  moments : ∀ moment ∈ thread.moments, moment.actual = moment.expected

/-- Faithful at the start and after every step. -/
def Thread.Throughout (thread : Thread) : List Step → Prop
  | [] => thread.Faithful
  | step :: steps => thread.Faithful ∧ (thread.step step).Throughout steps

/-- The context that is to be current when the body gives up control, by the blocks it has open. -/
def Body.rest (request : Option Active) : Body → List Active → Option Active
  | .pure _, _ => request
  | .raise _, _ => request
  | .request (.emit _) _, contexts => innermost request contexts
  | .request (.enter context) next, contexts => Body.rest request (next (.ok ())) (context :: contexts)
  | .request .leave next, contexts => Body.rest request (next (.ok ())) contexts.tail
  | .request .current next, contexts => Body.rest request (next (.ok (innermost request contexts))) contexts

/-- The context in which a body goes on that was suspended. -/
def Generator.inside (request : Option Active) : Generator → Option (Option Active)
  | .suspended _ blocks => some (innermost request (blocks.map (·.context)))
  | _ => none

/-- A pull or a close gives control to a body that was suspended in no nested block, or in
one with the context of the request. A body is dropped before it began, after it ended, or
where its own context is the consumer's and will be when it has reacted. -/
def Thread.Clean (thread : Thread) : Step → Prop
  | .pull index => ∀ stream ∈ thread.streams[index]?, stream.phase ≠ .finished →
      ∀ context ∈ stream.source.inside stream.request, context = stream.request
  | .close index => ∀ stream ∈ thread.streams[index]?, stream.phase = .suspended → stream.closable = true →
      ∀ context ∈ stream.source.inside stream.request, context = stream.request
  | .drop index => ∀ stream ∈ thread.streams[index]?, ∀ rest blocks, stream.source = .suspended rest blocks →
      innermost stream.request (blocks.map (·.context)) = thread.consumer ∧
        (rest (.error generatorExit)).rest stream.request (blocks.map (·.context)) = thread.consumer
  | _ => True

def Thread.Cleanly (thread : Thread) : List Step → Prop
  | [] => True
  | step :: steps => thread.Clean step ∧ (thread.step step).Cleanly steps

/-- The token of each open block is the context around it. -/
def Linked (request : Option Active) : List Block → Prop
  | [] => True
  | block :: blocks => block.token = innermost request (blocks.map (·.context)) ∧ Linked request blocks

def Generator.Sound (request : Option Active) : Generator → Prop
  | .suspended _ blocks => Linked request blocks
  | _ => True

theorem Linked.unwound {request current : Option Active} {blocks : List Block} (linked : Linked request blocks)
    (own : current = innermost request (blocks.map (·.context))) : unwind current blocks = request := by
  induction blocks generalizing current with
  | nil => exact own
  | cons block blocks ih => exact ih linked.2 linked.1

theorem Body.run_own {request : Option Active} (body : Body) {current : Option Active} {blocks : List Block}
    {moments : List Moment} (linked : Linked request blocks) (own : current = innermost request (blocks.map (·.context)))
    (before : ∀ moment ∈ moments, moment.actual = moment.expected) :
    (∀ moment ∈ (body.run request current blocks moments).moments, moment.actual = moment.expected) ∧
      (body.run request current blocks moments).generator.Sound request ∧
      (body.run request current blocks moments).current = body.rest request (blocks.map (·.context)) := by
  have now : ∀ moment ∈ ⟨current, innermost request (blocks.map (·.context))⟩ :: moments,
      moment.actual = moment.expected := List.forall_mem_cons.mpr ⟨own, before⟩
  induction body generalizing current blocks moments with
  | pure value => exact ⟨now, trivial, linked.unwound own⟩
  | raise error => exact ⟨now, trivial, linked.unwound own⟩
  | request asked next ih =>
    cases asked with
    | emit chunk => exact ⟨now, linked, own⟩
    | enter context =>
      exact ih _ ⟨own, linked⟩ rfl now (List.forall_mem_cons.mpr ⟨rfl, now⟩)
    | leave =>
      cases blocks with
      | nil => exact ih _ linked own now (List.forall_mem_cons.mpr ⟨own, now⟩)
      | cons block blocks => exact ih _ linked.2 linked.1 now (List.forall_mem_cons.mpr ⟨linked.1, now⟩)
    | current =>
      have onward := ih (.ok current) linked own now (List.forall_mem_cons.mpr ⟨own, now⟩)
      rw [own] at onward ⊢
      exact onward

theorem Body.run_moments {request : Option Active} (body : Body) (current : Option Active) (blocks : List Block)
    (moments : List Moment) : ⟨current, innermost request (blocks.map (·.context))⟩ ∈ (body.run request current blocks moments).moments ∧
      moments ⊆ (body.run request current blocks moments).moments := by
  induction body generalizing current blocks moments with
  | pure value => exact ⟨List.mem_cons_self, List.subset_cons_self _ _⟩
  | raise error => exact ⟨List.mem_cons_self, List.subset_cons_self _ _⟩
  | request asked next ih =>
    cases asked with
    | emit chunk => exact ⟨List.mem_cons_self, List.subset_cons_self _ _⟩
    | enter context =>
      have later := (ih (.ok ()) (some context) (⟨context, current⟩ :: blocks)
        (⟨current, innermost request (blocks.map (·.context))⟩ :: moments)).2
      exact ⟨later List.mem_cons_self, fun moment member => later (List.mem_cons_of_mem _ member)⟩
    | leave =>
      have later := (ih (.ok ()) (match blocks with | [] => current | block :: _ => block.token) blocks.tail
        (⟨current, innermost request (blocks.map (·.context))⟩ :: moments)).2
      exact ⟨later List.mem_cons_self, fun moment member => later (List.mem_cons_of_mem _ member)⟩
    | current =>
      have later := (ih (.ok current) current blocks
        (⟨current, innermost request (blocks.map (·.context))⟩ :: moments)).2
      exact ⟨later List.mem_cons_self, fun moment member => later (List.mem_cons_of_mem _ member)⟩

def Agree (moments : List Moment) : Prop := ∀ moment ∈ moments, moment.actual = moment.expected

theorem Body.run_agree {request : Option Active} (body : Body) {current : Option Active} {blocks : List Block}
    {moments : List Moment} (linked : Linked request blocks) (before : Agree moments) :
    Agree (body.run request current blocks moments).moments ↔ current = innermost request (blocks.map (·.context)) :=
  ⟨fun agree => agree _ (body.run_moments current blocks moments).1, fun own => (body.run_own linked own before).1⟩

theorem Body.run_ended {request : Option Active} (body : Body) (current : Option Active) (blocks : List Block)
    (moments : List Moment) (ended : ∀ chunk, (body.run request current blocks moments).result ≠ .ok (some chunk)) :
    (body.run request current blocks moments).generator = .finished := by
  induction body generalizing current blocks moments with
  | pure value | raise error => rfl
  | request asked next ih =>
    cases asked with
    | emit chunk => exact absurd rfl (ended chunk)
    | enter context => exact ih _ _ _ _ ended
    | leave => exact ih _ _ _ _ ended
    | current => exact ih _ _ _ _ ended

section Pulls

variable {generator : Generator} {request : Option Active} {moments : List Moment}

theorem Generator.next_agree (sound : generator.Sound request) (before : Agree moments) :
    Agree (generator.next request request moments).moments ↔ ∀ context ∈ generator.inside request, context = request := by
  cases generator with
  | fresh body => 
    have linked : Linked request [] := trivial
    exact iff_of_true (body.run_own linked rfl before).1 nofun
  | suspended rest blocks =>
    refine ((rest (.ok ())).run_agree sound before).trans ⟨?_, fun own => (own _ rfl).symm⟩
    rintro own context ⟨⟩
    exact own.symm
  | finished => exact iff_of_true before nofun

theorem Generator.next_sound (sound : generator.Sound request) (before : Agree moments)
    (own : ∀ context ∈ generator.inside request, context = request) :
    (generator.next request request moments).generator.Sound request := by
  cases generator with
  | fresh body =>
    have linked : Linked request [] := trivial
    exact (body.run_own linked rfl before).2.1
  | suspended rest blocks => exact ((rest (.ok ())).run_own sound (own _ rfl).symm before).2.1
  | finished => trivial

theorem Generator.close_agree (sound : generator.Sound request) (before : Agree moments) :
    Agree (generator.close request request moments).moments ↔ ∀ context ∈ generator.inside request, context = request := by
  cases generator with
  | fresh body => exact iff_of_true before nofun
  | suspended rest blocks =>
    refine ((rest (.error generatorExit)).run_agree sound before).trans ⟨?_, fun own => (own _ rfl).symm⟩
    rintro own context ⟨⟩
    exact own.symm
  | finished => exact iff_of_true before nofun

theorem Generator.close_sound (sound : generator.Sound request) (before : Agree moments)
    (own : ∀ context ∈ generator.inside request, context = request) :
    (generator.close request request moments).generator.Sound request := by
  cases generator with
  | fresh body => trivial
  | suspended rest blocks => exact ((rest (.error generatorExit)).run_own sound (own _ rfl).symm before).2.1
  | finished => trivial

theorem Generator.next_ended (ended : ∀ chunk, (generator.next request request moments).result ≠ .ok (some chunk)) :
    (generator.next request request moments).generator = .finished := by
  cases generator with
  | fresh body => exact body.run_ended _ _ _ ended
  | suspended rest blocks => exact (rest (.ok ())).run_ended _ _ _ ended
  | finished => rfl

end Pulls

section Steps

variable {stream : Stream} {current : Option Active} {moments : List Moment}

theorem Stream.closeSource_finished (ended : stream.source = .finished) :
    stream.closeSource current moments = ⟨.ok none, .finished, current, moments⟩ := by
  unfold Stream.closeSource
  rw [ended]
  split <;> rfl

theorem Stream.pull_eq (stream : Stream) (current : Option Active) (moments : List Moment) (running : stream.phase ≠ .finished) : ∃ phase, stream.pull current moments =
    ({ stream with source := (stream.source.next stream.request stream.request moments).generator, phase := phase }, current,
      (stream.source.next stream.request stream.request moments).moments) := by
  unfold Stream.pull
  split
  next ended => exact absurd ended running
  extract_lets pulled
  split
  · exact ⟨_, rfl⟩
  next closed _ ended =>
    have finished : pulled.generator = .finished := Generator.next_ended fun chunk same => ended chunk same
    have silent : closed = ⟨.ok none, .finished, current, pulled.moments⟩ := Stream.closeSource_finished finished
    refine ⟨.finished, ?_⟩
    change _ = ({ stream with source := pulled.generator, phase := .finished }, current, pulled.moments)
    rw [silent, finished]

theorem Stream.close_eq (stream : Stream) (current : Option Active) (moments : List Moment) : ∃ phase, stream.close current moments =
    if stream.phase = .suspended ∧ stream.closable = true then
      ({ stream with source := (stream.source.close stream.request stream.request moments).generator, phase := phase }, current,
        (stream.source.close stream.request stream.request moments).moments)
    else ({ stream with phase := phase }, current, moments) := by
  refine ⟨.finished, ?_⟩
  unfold Stream.close Stream.closeSource
  split
  next suspended =>
    by_cases closable : stream.closable = true
    · simp only [closable, suspended, and_self, if_true]
      rfl
    · simp only [closable, and_false, Bool.false_eq_true, if_false]
  next other => rw [if_neg fun both => other both.1]

private theorem close_clean (current : Option Active) (sound : stream.source.Sound stream.request) (before : Agree moments) :
    (Agree (stream.close current moments).2.2 ↔ (stream.phase = .suspended → stream.closable = true →
      ∀ context ∈ stream.source.inside stream.request, context = stream.request)) ∧
    (stream.close current moments).2.1 = current ∧ (stream.close current moments).1.request = stream.request ∧
    ((stream.phase = .suspended → stream.closable = true →
      ∀ context ∈ stream.source.inside stream.request, context = stream.request) →
      (stream.close current moments).1.source.Sound stream.request) := by
  obtain ⟨phase, same⟩ := stream.close_eq current moments
  rw [same]
  split
  next both =>
    refine ⟨(Generator.close_agree sound before).trans ⟨fun own _ _ => own, fun own => own both.1 both.2⟩, rfl, rfl,
      fun own => Generator.close_sound sound before (own both.1 both.2)⟩
  next other => exact ⟨iff_of_true before fun suspended closable => absurd ⟨suspended, closable⟩ other, rfl, rfl, fun _ => sound⟩

private theorem pull_clean (current : Option Active) (sound : stream.source.Sound stream.request) (before : Agree moments) :
    (Agree (stream.pull current moments).2.2 ↔ (stream.phase ≠ .finished →
      ∀ context ∈ stream.source.inside stream.request, context = stream.request)) ∧
    (stream.pull current moments).2.1 = current ∧ (stream.pull current moments).1.request = stream.request ∧
    ((stream.phase ≠ .finished → ∀ context ∈ stream.source.inside stream.request, context = stream.request) →
      (stream.pull current moments).1.source.Sound stream.request) := by
  by_cases ended : stream.phase = .finished
  · have same : stream.pull current moments = (stream, current, moments) := by
      unfold Stream.pull
      rw [ended]
    rw [same]
    exact ⟨iff_of_true before fun running => absurd ended running, rfl, rfl, fun _ => sound⟩
  · obtain ⟨phase, same⟩ := stream.pull_eq current moments ended
    rw [same]
    exact ⟨(Generator.next_agree sound before).trans ⟨fun own _ => own, fun own => own ended⟩, rfl, rfl,
      fun own => Generator.next_sound sound before (own ended)⟩

end Steps

section Runs

def Thread.Sound (thread : Thread) : Prop := ∀ stream ∈ thread.streams, stream.source.Sound stream.request

variable {thread : Thread}

private theorem onStream_iff (index : Nat) (act : Stream → Option Active → List Moment → Stream × Option Active × List Moment)
    (clean : Stream → Prop) (sound : thread.Sound) (faithful : thread.Faithful)
    (each : ∀ stream : Stream, stream.source.Sound stream.request →
      ((act stream thread.current thread.moments).2.1 = thread.consumer ∧ Agree (act stream thread.current thread.moments).2.2 ↔
        clean stream) ∧ (act stream thread.current thread.moments).1.request = stream.request ∧
      (clean stream → (act stream thread.current thread.moments).1.source.Sound stream.request)) :
    ((thread.onStream index act).Faithful ↔ ∀ stream ∈ thread.streams[index]?, clean stream) ∧
      ((∀ stream ∈ thread.streams[index]?, clean stream) → (thread.onStream index act).Sound) := by
  unfold Thread.onStream
  cases found : thread.streams[index]? with
  | none => exact ⟨iff_of_true faithful nofun, fun _ => sound⟩
  | some stream =>
    obtain ⟨iff, request, kept⟩ := each stream (sound stream (List.mem_of_getElem? found))
    refine ⟨⟨fun after => ?_, fun own => ?_⟩, fun own other member => ?_⟩
    · rintro other ⟨⟩
      exact iff.mp ⟨after.ambient, after.moments⟩
    · obtain ⟨ambient, agree⟩ := iff.mpr (own stream rfl)
      exact ⟨ambient, agree⟩
    · obtain member | rfl := List.mem_or_eq_of_mem_set member
      · exact sound other member
      · rw [request]
        exact kept (own stream rfl)

/-- A step from a faithful thread leads to a faithful one just when it is clean. -/
theorem step_faithful_iff (sound : thread.Sound) (faithful : thread.Faithful) (step : Step) :
    ((thread.step step).Faithful ↔ thread.Clean step) ∧ (thread.Clean step → (thread.step step).Sound) := by
  cases step with
  | respond body request closable =>
    refine ⟨iff_of_true ⟨faithful.ambient, faithful.moments⟩ trivial, fun _ => ?_⟩
    exact List.forall_mem_append.mpr ⟨sound, List.forall_mem_singleton.mpr trivial⟩
  | pull index =>
    refine onStream_iff index Stream.pull (fun stream => stream.phase ≠ .finished →
      ∀ context ∈ stream.source.inside stream.request, context = stream.request) sound faithful fun stream own => ?_
    obtain ⟨agree, current, request, kept⟩ := pull_clean thread.current own faithful.moments
    exact ⟨⟨fun both => agree.mp both.2, fun clean => ⟨current.trans faithful.ambient, agree.mpr clean⟩⟩, request, kept⟩
  | close index =>
    refine onStream_iff index Stream.close (fun stream => stream.phase = .suspended → stream.closable = true →
      ∀ context ∈ stream.source.inside stream.request, context = stream.request) sound faithful fun stream own => ?_
    obtain ⟨agree, current, request, kept⟩ := close_clean thread.current own faithful.moments
    exact ⟨⟨fun both => agree.mp both.2, fun clean => ⟨current.trans faithful.ambient, agree.mpr clean⟩⟩, request, kept⟩
  | drop index =>
    refine onStream_iff index Stream.drop (fun stream => ∀ rest blocks, stream.source = .suspended rest blocks →
      innermost stream.request (blocks.map (·.context)) = thread.consumer ∧
        (rest (.error generatorExit)).rest stream.request (blocks.map (·.context)) = thread.consumer)
      sound faithful fun stream own => ?_
    obtain ⟨request, closable, source, phase⟩ := stream
    cases source with
    | fresh body => exact ⟨iff_of_true ⟨faithful.ambient, faithful.moments⟩ nofun, rfl, fun _ => trivial⟩
    | finished => exact ⟨iff_of_true ⟨faithful.ambient, faithful.moments⟩ nofun, rfl, fun _ => trivial⟩
    | suspended rest blocks =>
      have linked : Linked request blocks := own
      refine ⟨⟨fun ⟨ambient, agree⟩ => ?_, fun clean => ?_⟩, rfl, fun clean => ?_⟩
      · rintro rest' blocks' ⟨⟩
        have inside := ((rest (.error generatorExit)).run_agree linked faithful.moments).mp agree
        refine ⟨inside.symm.trans faithful.ambient, ?_⟩
        rw [← ((rest (.error generatorExit)).run_own linked inside faithful.moments).2.2]
        exact ambient
      · obtain ⟨inside, left⟩ := clean rest blocks rfl
        obtain ⟨agree, -, current⟩ := (rest (.error generatorExit)).run_own linked (faithful.ambient.trans inside.symm)
          faithful.moments
        exact ⟨current.trans left, agree⟩
      · obtain ⟨inside, -⟩ := clean rest blocks rfl
        exact ((rest (.error generatorExit)).run_own linked (faithful.ambient.trans inside.symm) faithful.moments).2.1
  | consume context => exact ⟨iff_of_true ⟨rfl, faithful.moments⟩ trivial, fun _ => sound⟩

/-- Over every schedule, bodies run in their own contexts and leave the consumer its own,
just when every step is clean. -/
theorem streams_faithful_iff {start : Thread} (unstreamed : start.streams = []) (unseen : start.moments = [])
    (own : start.current = start.consumer) (steps : List Step) : start.Throughout steps ↔ start.Cleanly steps := by
  have faithful : start.Faithful := ⟨own, by simp [unseen]⟩
  have sound : start.Sound := by simp [Thread.Sound, unstreamed]
  clear unstreamed unseen own
  induction steps generalizing start with
  | nil => exact iff_of_true faithful trivial
  | cons step steps ih =>
    obtain ⟨iff, kept⟩ := step_faithful_iff sound faithful step
    constructor
    · rintro ⟨-, onward⟩
      have after : (start.step step).Faithful := by
        cases steps with
        | nil => exact onward
        | cons _ _ => exact onward.1
      have clean := iff.mp after
      exact ⟨clean, (ih after (kept clean)).mp onward⟩
    · rintro ⟨clean, onward⟩
      exact ⟨faithful, (ih (iff.mpr clean) (kept clean)).mpr onward⟩

end Runs

private def idle : Thread := ⟨none, [], none, []⟩

/-- Yields in a nested block, and goes on in it. -/
private def yieldsInside : Body :=
  .request (.enter (member false)) fun _ => .request (.emit "1") fun _ => .request .current fun _ =>
    .request .leave fun _ => .pure ()

/-- Yields between two nested blocks. -/
private def yieldsBetween : Body :=
  .request (.enter (member false)) fun _ => .request .leave fun _ => .request (.emit "1") fun _ =>
    .request (.enter (member false)) fun _ => .request .current fun _ => .request .leave fun _ => .pure ()

private def pulls (body : Body) : List Step := [.respond body (some (member true)) true, .pull 0, .pull 0]

/-- The second pull binds the request's context on top of the nested block's. -/
theorem nested_block_overridden : ¬ idle.Throughout (pulls yieldsInside) := by
  rintro ⟨-, -, -, faithful⟩
  have resumed : ⟨some (member true), some (member false)⟩ ∈
      (((idle.step (.respond yieldsInside (some (member true)) true)).step (.pull 0)).step (.pull 0)).moments :=
    List.mem_cons_of_mem _ (List.mem_cons_of_mem _ List.mem_cons_self)
  have same := congrArg (Option.map Active.token) (faithful.moments _ resumed)
  exact absurd same (by decide)

theorem streams_faithful_iff_between : idle.Throughout (pulls yieldsBetween) := by
  refine (streams_faithful_iff rfl rfl rfl (pulls yieldsBetween)).mpr ⟨trivial, ?_, ?_, trivial⟩
  · rintro stream ⟨⟩ - context inside
    cases inside
  · rintro stream ⟨⟩ - context inside
    exact (Option.some.inj inside).symm

end Streams

end PyScoped.Ambient
