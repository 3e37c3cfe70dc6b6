import BatchWriter.Proofs.Bench.Speech

/-!
# How far a write is with an element

From what a write has said since it took an element up one sees how far it is with it. It is held
back with one event, told how the buffer fares and let in, at most once; then its element is
converted once, and what comes of that is appended or is the end of the write.
-/

set_option autoImplicit false

namespace BatchWriter

/-- How far a write is with the element at hand. -/
inductive Phase where
  | fresh
  /-- It was told that the full buffer blocks it. -/
  | blocked
  /-- It was told that the buffer has recovered. -/
  | recovered
  | refused
  | accepted

namespace Doing

def level? : Doing → Option Level
  | .published event => some event.level
  | _ => none

def outcome? : Doing → Option (Except Fault Value)
  | .converted outcome => some outcome
  | _ => none

def entry? : Doing → Option Value
  | .appended entry => some entry
  | _ => none

def levels (ds : List Doing) : List Level := ds.filterMap level?

def outcomes (ds : List Doing) : List (Except Fault Value) := ds.filterMap outcome?

def entries (ds : List Doing) : List Value := ds.filterMap entry?

theorem levels_append (ds more : List Doing) : levels (ds ++ more) = levels ds ++ levels more :=
  List.filterMap_append

theorem outcomes_append (ds more : List Doing) :
    outcomes (ds ++ more) = outcomes ds ++ outcomes more := List.filterMap_append

theorem entries_append (ds more : List Doing) :
    entries (ds ++ more) = entries ds ++ entries more := List.filterMap_append

end Doing

namespace Level

/-- A write that is let in has not been blocked, or it was blocked and told of slots that it
waited for until the buffer had recovered. -/
def Bracket (ls : List Level) : Prop :=
  ls = [] ∨ ∃ m, ls = .hard :: List.replicate m .soft ++ [.ok]

/-- Once its element is accepted, a write is told of slots that it waits for only. -/
def Word (ls : List Level) : Prop :=
  ∃ bracket m, Bracket bracket ∧ ls = bracket ++ List.replicate m .soft

theorem Bracket.word {ls : List Level} (h : Bracket ls) : Word ls :=
  ⟨ls, 0, h, (List.append_nil ls).symm⟩

theorem Word.soft {ls : List Level} (h : Word ls) : Word (ls ++ [.soft]) := by
  obtain ⟨bracket, m, hb, rfl⟩ := h
  refine ⟨bracket, m + 1, hb, ?_⟩
  rw [List.append_assoc, List.replicate_succ']

end Level

open Doing (levels outcomes entries)

def Phase.Shows (ds : List Doing) : Phase → Prop
  | .fresh => ds = []
  | .blocked => (∃ m, levels ds = .hard :: List.replicate m .soft) ∧ outcomes ds = [] ∧
    entries ds = []
  | .recovered => (∃ m, levels ds = .hard :: List.replicate m .soft ++ [.ok]) ∧
    outcomes ds = [] ∧ entries ds = []
  | .refused => Level.Bracket (levels ds) ∧ (∃ fault, outcomes ds = [.error fault]) ∧
    entries ds = []
  | .accepted => Level.Word (levels ds) ∧ ∃ entry, outcomes ds = [.ok entry] ∧ entries ds = [entry]

/-- The phases in which a write may be at a point. Nobody waits for a slot who was not told that
the full buffer blocks it, or whose element is accepted. -/
def WritePoint.In : WritePoint → Phase → Prop
  | .start, phase => phase = .fresh
  | .gate blocked, phase => phase = if blocked then .blocked else .fresh
  | .flush (.filling blocked), phase | .dispatch (.filling blocked), phase =>
    phase = if blocked then .blocked else .fresh
  | .slot (.filling blocked), phase | .woken (.filling blocked), phase =>
    blocked = true ∧ phase = .blocked
  | .accept, phase => phase = .fresh ∨ phase = .recovered
  | .batching, phase | .flush .batching, phase | .slot .batching, phase
  | .woken .batching, phase | .dispatch .batching, phase => phase = .accepted
  | .publishing _ next, phase => next.In phase

namespace WritePoint

def Informed : WritePoint → Prop
  | .flush (.filling false) => False
  | .publishing _ next => next.Informed
  | _ => True

def Sees (w : Writer) (point : WritePoint) : Prop :=
  point.Informed ∨ point = .flush (.filling false) ∧ w.hasCapacity = true

/-- Only at the gate a write that has not been told anything may turn to a full buffer. -/
theorem Informed.follows {w : Writer} {job : WriteJob} {point next : WritePoint}
    (h : point.Informed) (follows : w.Follows job point next) : next.Informed ∨
      point = .gate false ∧ next = .flush (.filling false) ∧ w.buffer.isFull = true ∧
        w.hasCapacity = true := by
  cases follows with
  | @full blocked full known =>
    cases blocked with
    | true => exact .inl trivial
    | false => exact .inr ⟨rfl, rfl, full, known.resolve_left Bool.false_ne_true⟩
  | @sent stage => cases stage <;> exact .inl trivial
  | hearing | heard => exact .inl h
  | _ => exact .inl trivial

theorem Sees.follows {w : Writer} {job : WriteJob} {point next : WritePoint}
    (h : point.Sees w) (follows : w.Follows job point next) : next.Informed ∨
      point = .gate false ∧ next = .flush (.filling false) ∧ w.buffer.isFull = true ∧
        w.hasCapacity = true := by
  rcases h with informed | ⟨rfl, -⟩
  · exact informed.follows follows
  · cases follows <;> exact .inl trivial

end WritePoint

namespace Phase

variable {ds : List Doing} {phase : Phase} {w : Writer} {job : WriteJob} {point : WritePoint}

theorem Shows.quiet (h : Shows ds phase) : Shows (ds ++ []) phase := by
  rwa [List.append_nil]

/-! What a write says next brings it to the next phase. -/

theorem Shows.hard (h : Shows ds .fresh) {event : Event} (level : event.level = .hard) :
    Shows (ds ++ [Doing.published event]) .blocked := by
  subst h
  exact ⟨⟨0, congrArg (fun l => [l]) level⟩, rfl, rfl⟩

theorem tells_only (ds : List Doing) (event : Event) :
    levels (ds ++ [Doing.published event]) = levels ds ++ [event.level] ∧
      outcomes (ds ++ [Doing.published event]) = outcomes ds ∧
        entries (ds ++ [Doing.published event]) = entries ds :=
  ⟨Doing.levels_append ds _, (Doing.outcomes_append ds _).trans (List.append_nil _),
    (Doing.entries_append ds _).trans (List.append_nil _)⟩

theorem Shows.soft (h : Shows ds .blocked) {event : Event} (level : event.level = .soft) :
    Shows (ds ++ [Doing.published event]) .blocked := by
  obtain ⟨⟨m, told⟩, none, empty⟩ := h
  obtain ⟨levels, outcomes, entries⟩ := tells_only ds event
  refine ⟨⟨m + 1, ?_⟩, outcomes.trans none, entries.trans empty⟩
  rw [levels, told, level, List.replicate_succ', List.cons_append]

theorem Shows.ok (h : Shows ds .blocked) {event : Event} (level : event.level = .ok) :
    Shows (ds ++ [Doing.published event]) .recovered := by
  obtain ⟨⟨m, told⟩, none, empty⟩ := h
  obtain ⟨levels, outcomes, entries⟩ := tells_only ds event
  exact ⟨⟨m, by rw [levels, told, level]⟩, outcomes.trans none, entries.trans empty⟩

theorem Shows.late (h : Shows ds .accepted) {event : Event} (level : event.level = .soft) :
    Shows (ds ++ [Doing.published event]) .accepted := by
  obtain ⟨word, entry, once, appended⟩ := h
  obtain ⟨levels, outcomes, entries⟩ := tells_only ds event
  refine ⟨?_, entry, outcomes.trans once, entries.trans appended⟩
  rw [levels, level]
  exact word.soft

/-- A write that may convert its element has been let in and has not converted it. -/
theorem Shows.admitted (h : Shows ds phase) (inside : phase = .fresh ∨ phase = .recovered) :
    Level.Bracket (levels ds) ∧ outcomes ds = [] ∧ entries ds = [] := by
  rcases inside with rfl | rfl
  · subst h
    exact ⟨.inl rfl, rfl, rfl⟩
  · obtain ⟨told, none, empty⟩ := h
    exact ⟨.inr told, none, empty⟩

theorem Shows.converts (h : Shows ds phase) (inside : phase = .fresh ∨ phase = .recovered) :
    (∀ fault, Shows (ds ++ [Doing.converted (.error fault)]) .refused) ∧
      ∀ entry, Shows (ds ++ [Doing.converted (.ok entry), .appended entry]) .accepted := by
  obtain ⟨bracket, none, empty⟩ := h.admitted inside
  -- Neither converting nor appending is an event.
  have same : ∀ more : List Doing, levels more = [] → levels (ds ++ more) = levels ds :=
    fun more untold => by rw [Doing.levels_append, untold, List.append_nil]
  refine ⟨fun fault => ⟨?_, ⟨fault, ?_⟩, ?_⟩, fun entry => ⟨?_, entry, ?_, ?_⟩⟩
  · rwa [same _ rfl]
  · rw [Doing.outcomes_append, none]
    rfl
  · rw [Doing.entries_append, empty]
    rfl
  · rw [same _ rfl]
    exact bracket.word
  · rw [Doing.outcomes_append, none]
    rfl
  · rw [Doing.entries_append, empty]
    rfl

/-- What a write says at the point brings it from here to a phase that it may be in wherever it
goes on. -/
def Leads (w : Writer) (job : WriteJob) (ds : List Doing) (point : WritePoint) : Prop :=
  ∃ after : Phase, after.Shows (ds ++ w.utters job point) ∧
    ∀ next, w.Follows job point next → next.In after

theorem Shows.stays (h : Shows ds phase) (silent : w.utters job point = [])
    (goes : ∀ next, w.Follows job point next → next.In phase) : Leads w job ds point :=
  ⟨phase, by rwa [silent, List.append_nil], goes⟩

theorem Shows.gate {blocked : Bool} (h : Shows ds (if blocked then .blocked else .fresh)) :
    Leads w job ds (.gate blocked) := by
  unfold Leads
  rw [Writer.utters]
  split
  · next full =>
    split
    · next unknown =>
      simp only [Bool.and_eq_true, Bool.not_eq_true'] at unknown
      obtain ⟨rfl, busy⟩ := unknown
      refine ⟨.blocked, h.hard rfl, fun next follows => ?_⟩
      cases follows with
      | blocked => rfl
      | full _ known => simp [busy] at known
      | clear room => rw [full] at room; cases room
    · next known =>
      refine ⟨_, h.quiet, fun next follows => ?_⟩
      cases follows with
      | blocked _ busy => simp [busy] at known
      | full => rfl
      | clear room => rw [full] at room; cases room
  · next room =>
    split
    · next was =>
      cases was
      refine ⟨.recovered, h.ok rfl, fun next follows => ?_⟩
      cases follows with
      | full full => exact absurd full room
      | clear => exact .inr rfl
    · next fresh =>
      have unblocked : blocked = false := by simpa using fresh
      subst unblocked
      refine ⟨.fresh, h.quiet, fun next follows => ?_⟩
      cases follows with
      | blocked full | full full => exact absurd full room
      | clear => exact .inl rfl

/-- Without a free slot a write is told that it waits, unless it has to be told first that the
full buffer blocks it. -/
theorem Shows.flush {stage : Stage} (h : Shows ds phase)
    (inside : (WritePoint.flush stage).In phase) (sees : (WritePoint.flush stage).Sees w) :
    Leads w job ds (.flush stage) := by
  unfold Leads
  rw [Writer.utters]
  split
  · next room =>
    refine ⟨phase, h.quiet, fun next follows => ?_⟩
    cases follows with
    | held busy => rw [room] at busy; cases busy
    | free => cases stage <;> exact inside
  · next busy =>
    cases stage with
    | filling blocked =>
      cases blocked with
      | false => exact absurd (sees.resolve_left id).2 busy
      | true =>
        cases inside
        refine ⟨.blocked, h.soft rfl, fun next follows => ?_⟩
        cases follows with
        | held => exact ⟨rfl, rfl⟩
        | free room => exact absurd room busy
    | batching =>
      cases inside
      refine ⟨.accepted, h.late rfl, fun next follows => ?_⟩
      cases follows with
      | held => rfl
      | free room => exact absurd room busy

theorem Shows.accept (h : Shows ds phase) (inside : phase = .fresh ∨ phase = .recovered) :
    Leads w job ds .accept := by
  obtain ⟨refuses, accepts⟩ := h.converts inside
  unfold Leads
  rw [Writer.utters]
  cases converts : w.conversion job with
  | error fault =>
    refine ⟨.refused, refuses fault, fun next follows => ?_⟩
    cases follows with
    | accepted known => rw [converts] at known; cases known
  | ok entry =>
    refine ⟨.accepted, accepts entry, fun next follows => ?_⟩
    cases follows
    rfl

/-- At each of its points a write comes from a phase that it may be in there to one that it may
be in next. -/
theorem Shows.utters (h : Shows ds phase) (job : WriteJob) (inside : point.In phase)
    (sees : point.Sees w) : Leads w job ds point := by
  cases point with
  | start =>
    refine h.stays rfl fun next follows => ?_
    cases follows
    exact inside
  | gate blocked =>
    cases inside
    exact h.gate
  | flush stage => exact h.flush inside sees
  | slot stage =>
    refine h.stays rfl fun next follows => ?_
    cases stage with
    | filling blocked =>
      obtain ⟨rfl, rfl⟩ := inside
      cases follows with
      | found => rfl
      | waits => exact ⟨rfl, rfl⟩
    | batching => cases follows <;> exact inside
  | woken stage =>
    refine h.stays rfl fun next follows => ?_
    cases follows
    cases stage <;> exact inside
  | dispatch stage =>
    refine h.stays rfl fun next follows => ?_
    cases follows
    cases stage <;> exact inside
  | accept => exact h.accept inside
  | batching =>
    refine h.stays rfl fun next follows => ?_
    cases follows
    exact inside
  | publishing d next =>
    refine h.stays rfl fun next follows => ?_
    cases follows <;> exact inside

end Phase
end BatchWriter
