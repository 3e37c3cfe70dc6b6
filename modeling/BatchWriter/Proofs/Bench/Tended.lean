import BatchWriter.Proofs.Bench.Advance

/-!
# Sends on the list of their destination

A destination keeps a send on its list until the send has ended, and whoever drains the
destination waits for all that are on the list when it begins to wait. Of the sends that there
were until then, none is still under way once the drain has returned.
-/

set_option autoImplicit false

namespace BatchWriter

def Program.sendsTo? : Program → Option Nat
  | .send job _ => some job.destination
  | _ => none

/-- A send stays a send to its destination, and nothing else becomes one. -/
theorem Program.Becomes.sendsTo? {p q : Program} (h : p.Becomes q) :
    q.sendsTo? = p.sendsTo? := by
  cases p with
  | send job point =>
    cases q with
    | send next after => exact congrArg some h.1
    | _ => exact h.elim
  | _ =>
    cases q with
    | send next after => exact h.elim
    | _ => rfl

def Progress.AtJob (p : Program) (progress : Progress) : Prop :=
  ∀ q, progress.program? = some q → q = p ∨ p.Becomes q

/-- A call that stays at its job sends where it sent before. -/
theorem Progress.AtJob.sendsTo? {progress : Progress} {p : Program} (job : progress.AtJob p) :
    (progress.program?.getD p).sendsTo? = p.sendsTo? := by
  cases hp : progress.program? with
  | none => rfl
  | some q =>
    rcases job q hp with rfl | becomes
    · rfl
    · exact becomes.sendsTo?

def Scenario.Idle (s : Scenario) : Prop := ∀ d ∈ s.destinations, d.pending = []

namespace Bench

variable {old : Nat → Prop} {b b' b₀ : Bench} {id i k n : Nat} {c c' : Call}

def SendsTo (b : Bench) (i id : Nat) : Prop :=
  ∃ c : Call, b.calls[id]? = some c ∧ c.program.sendsTo? = some i

def Gathering (b : Bench) (i k : Nat) : Prop :=
  ∃ c : Call, b.calls[k]? = some c ∧ c.program = .drainSends i .gathered

def Returns (b : Bench) (i k : Nat) : Prop :=
  ∃ (c : Call) (point : DrainPoint) (v : Value), b.running = some k ∧ b.calls[k]? = some c ∧
    c.program = .drainSends i point ∧
    (b.advanceProgram k c.loop c.program).2 = .finish (.ok v)

/-- If the call is a drain that has begun to wait, it waits for the send, unless that has
ended. -/
def Heeds (b : Bench) (k i id : Nat) : Prop :=
  ∀ c : Call, b.calls[k]? = some c → c.program = .drainSends i .gathered →
    b.Ended id ∨ c.Gathers id

structure Tended (old : Nat → Prop) (b : Bench) : Prop where
  truthful : b.Truthful old
  known : b.Known old
  listed : ∀ i id : Nat, b.SendsTo i id → b.Ended id ∨ b.Lists i id

theorem Heeds.of_not_gathering (h : ¬ b.Gathering i k) : b.Heeds k i id :=
  fun c hc drains => absurd ⟨c, hc, drains⟩ h

/-- A drain that waits no more has nothing to wait for. -/
theorem Heeds.idle (h : b.Heeds k i id) (hc : b.calls[k]? = some c)
    (idle : ∀ left r, c.status ≠ .waiting (.calls left r))
    (drains : c.program = .drainSends i .gathered) : b.Ended id := by
  refine (h c hc drains).resolve_right ?_
  rintro ⟨left, r, waits, -⟩
  exact idle left r waits

/-! While no call gets on. -/

theorem Stays.sends (h : Stays old b b') (sends : b.SendsTo i id) : b'.SendsTo i id := by
  obtain ⟨c, hc, aim⟩ := sends
  obtain ⟨c', hc', keeps⟩ := h.kept id c hc
  exact ⟨c', hc', keeps.program ▸ aim⟩

theorem Stays.sendsTo (h : Stays old b b') (sends : b'.SendsTo i id) :
    b.SendsTo i id ∨ b'.Lists i id := by
  obtain ⟨c', hc', aim⟩ := sends
  rcases h.origin hc' with ⟨c, hc, keeps⟩ | ⟨-, begins, -⟩
  · exact .inl ⟨c, hc, keeps.program ▸ aim⟩
  · refine .inr ?_
    generalize c'.program = p at aim begins
    cases p with
    | send job point => exact Option.some.inj aim ▸ begins.2
    | _ => cases aim

theorem Tended.stays (h : Tended old b) (stays : Stays old b b') : Tended old b' where
  truthful name cb hm := by
    rcases stays.callbacks name cb hm with hm | due
    · exact stays.due (h.truthful name cb hm)
    · exact due
  known := stays.known h.known
  listed i id sends := by
    rcases stays.sendsTo sends with sends | lists
    · rcases h.listed i id sends with ended | lists
      · exact .inl ((stays.ended id).2 ended)
      · exact (stays.lists i id lists).imp_left (stays.ended id).2
    · exact .inr lists

theorem Heeds.stays (h : b.Heeds k i id) (stays : Stays old b b') (fresh : ¬ old id) :
    b'.Heeds k i id := by
  intro c' hc' drains
  rcases stays.origin hc' with ⟨c, hc, keeps⟩ | ⟨-, begins, -⟩
  · rcases h c hc (keeps.program ▸ drains) with ended | gathers
    · exact .inl ((stays.ended id).2 ended)
    · refine (keeps.gathers id gathers).imp_left fun due => ?_
      exact (stays.ended id).2 (due.resolve_left fresh)
  · rw [drains] at begins
    cases begins

/-! When a call gets on. -/

section Resolve

variable {progress : Progress}

theorem ended_resolve (hc : b.calls[k]? = some c) (live : c.isEnded = false)
    (ended : b.Ended id) : (b.resolve k progress).Ended id := by
  by_cases own : id = k
  · rw [own, ended_iff hc, live] at ended
    cases ended
  · rwa [Ended, (resolved hc progress).others id own]

theorem sendsTo_resolve (hc : b.calls[k]? = some c)
    (same : (progress.program?.getD c.program).sendsTo? = c.program.sendsTo?) :
    (b.resolve k progress).SendsTo i id ↔ b.SendsTo i id := by
  have after := resolved hc progress
  by_cases own : id = k
  · subst own
    obtain ⟨c', hc', -, -, program⟩ := after.own
    simp only [SendsTo, hc', hc, Option.some.injEq, exists_eq_left', program, same]
  · rw [SendsTo, SendsTo, after.others id own]

theorem tended_resolve (h : Tended old b) (hc : b.calls[k]? = some c) (live : c.isEnded = false)
    (same : (progress.program?.getD c.program).sendsTo? = c.program.sendsTo?) :
    Tended old (b.resolve k progress) := by
  have after := resolved hc progress
  refine ⟨fun name cb hm => ?_, fun i id lists => ?_, fun i id sends => ?_⟩
  · rcases after.callbacks name cb hm with hm | due
    · have was := h.truthful name cb hm
      cases cb with
      | forget _ child => exact ended_resolve hc live was
      | gathered _ child => exact was.imp_right (ended_resolve hc live)
      | resume _ | report _ _ _ => trivial
    · exact due old
  · rw [Lists, after.destinations] at lists
    refine (h.known i id lists).imp_right fun called => ?_
    by_cases own : id = k
    · obtain ⟨c', hc', -⟩ := after.own
      simp [own, hc']
    · rwa [after.others id own]
  · refine (h.listed i id ((sendsTo_resolve hc same).1 sends)).imp (ended_resolve hc live) ?_
    rw [Lists, Lists, after.destinations]
    exact fun lists => lists

/-- A drain that gets on sees to it that it waits for what it has to wait for. -/
theorem heeds_resolve (h : b.Heeds n i id) (hc : b.calls[k]? = some c) (live : c.isEnded = false)
    (gathers : k = n → progress.program?.getD c.program = .drainSends i .gathered →
      b.Ended id ∨ ∃ left r, progress.status = .waiting (.calls left r) ∧ id ∈ left) :
    (b.resolve k progress).Heeds n i id := by
  have after := resolved hc progress
  intro u hu drains
  by_cases own : n = k
  · subst own
    obtain ⟨-, status, program⟩ := after.call hu
    refine (gathers rfl (program ▸ drains)).imp (ended_resolve hc live) ?_
    rintro ⟨left, r, waits, hm⟩
    exact ⟨left, r, status.trans waits, hm⟩
  · rw [after.others n own] at hu
    exact (h u hu drains).imp_left (ended_resolve hc live)

end Resolve

/-- A drain that begins waits for every send on the list. -/
theorem gathers_drainStep (h : Tended old b) {name : LoopName} {point : DrainPoint}
    (leads : (b.drainStep k name i point).2.program? = some (.drainSends i .gathered))
    (sends : b.SendsTo i id) : b.Ended id ∨ ∃ left r,
      (b.drainStep k name i point).2.status = .waiting (.calls left r) ∧ id ∈ left := by
  refine (h.listed i id sends).imp_right ?_
  rintro ⟨d, hd, hm⟩
  cases point with
  | gathered | astray => cases leads
  | start =>
    rw [drainStep] at leads ⊢
    simp only [hd] at leads ⊢
    rw [if_neg (by simp [List.ne_nil_of_mem hm])] at leads ⊢
    split at leads
    · next own =>
      rw [if_pos own]
      exact ⟨d.pending, false, rfl, hm⟩
    · split at leads <;> cases leads

/-- A drain returns at its beginning only where no send is on the list. -/
theorem not_lists_of_returns {loop : LoopName} {v : Value}
    (returns : (b.advanceProgram k loop (.drainSends i .start)).2 = .finish (.ok v)) :
    ¬ b.Lists i id := by
  rintro ⟨d, hd, hm⟩
  rw [advanceProgram, drainStep] at returns
  simp only [hd] at returns
  rw [if_neg (by simp [List.ne_nil_of_mem hm])] at returns
  split at returns
  · cases returns
  · split at returns <;> cases returns

/-! From one move to the next. -/

/-- Others do what they do, and then at most one call gets on, which stays at its job. -/
def OneGoesOn (old : Nat → Prop) (b b' : Bench) : Prop :=
  ∃ b₁, Stays old b b₁ ∧ (b' = b₁ ∨ ∃ (k : Nat) (c : Call) (progress : Progress),
    b₁.calls[k]? = some c ∧ c.isEnded = false ∧ progress.AtJob c.program ∧
      b' = b₁.resolve k progress)

theorem Shift.parts (h : Shift old b b') (orderly : Orderly b) (known : b.Known old) :
    OneGoesOn old b b' := by
  cases h with
  | beside noProgress _ => exact ⟨b', noProgress.toStays, .inl rfl⟩
  | @woken k c b₀ _ hc queued noProgress _ calls same =>
    exact ⟨b₀, noProgress.toStays,
      .inr ⟨k, c, .go c.program, calls ▸ hc, by rw [Call.isEnded, queued],
      fun q leads => .inl (Option.some.inj leads).symm, same⟩⟩
  | @advanced k c running hc same =>
    obtain ⟨-, live, -, -⟩ := orderly.runs running hc
    have stays := stays_advanceProgram known k c.loop c.program
    obtain ⟨c₁, hc₁, keeps⟩ := stays.kept k c hc
    refine ⟨_, stays, .inr ⟨k, c₁, _, hc₁, keeps.ended.trans live, ?_, same⟩⟩
    rw [keeps.program]
    exact fun q leads => .inr (from_advanceProgram b k c.loop c.program q leads)
  | @interrupted k c b₀ _ hc queued noProgress _ same =>
    have stays := noProgress.toStays.trans (stays_interruptProgram b₀ k c.program)
    obtain ⟨c₁, hc₁, keeps⟩ := stays.kept k c hc
    refine ⟨_, stays, .inr ⟨k, c₁, _, hc₁, by rw [keeps.ended, Call.isEnded, queued], ?_, same⟩⟩
    intro q leads
    rw [interruptProgram_ends] at leads
    cases leads

namespace OneGoesOn

theorem tended (h : OneGoesOn old b b') (tended : Tended old b) : Tended old b' := by
  obtain ⟨b₁, stays, rfl | ⟨k, c, progress, hc, live, job, rfl⟩⟩ := h
  · exact tended.stays stays
  · exact tended_resolve (tended.stays stays) hc live job.sendsTo?

theorem ended (h : OneGoesOn old b b') (ended : b.Ended id) : b'.Ended id := by
  obtain ⟨b₁, stays, rfl | ⟨k, c, progress, hc, live, -, rfl⟩⟩ := h
  · exact (stays.ended id).2 ended
  · exact ended_resolve hc live ((stays.ended id).2 ended)

theorem sends (h : OneGoesOn old b b') (sends : b.SendsTo i id) : b'.SendsTo i id := by
  obtain ⟨b₁, stays, rfl | ⟨k, c, progress, hc, -, job, rfl⟩⟩ := h
  · exact stays.sends sends
  · exact (sendsTo_resolve hc job.sendsTo?).2 (stays.sends sends)

theorem job (h : OneGoesOn old b b') (hc : b.calls[id]? = some c) :
    ∃ c' : Call, b'.calls[id]? = some c' ∧
      (c'.program = c.program ∨ c.program.Becomes c'.program) := by
  obtain ⟨b₁, stays, rfl | ⟨k, c₁, progress, hk, -, job, rfl⟩⟩ := h
  · obtain ⟨c', hc', keeps⟩ := stays.kept id c hc
    exact ⟨c', hc', .inl keeps.program⟩
  · obtain ⟨c', hc', keeps⟩ := stays.kept id c hc
    have after := resolved hk progress
    by_cases own : id = k
    · subst own
      cases hc'.symm.trans hk
      obtain ⟨c'', hc'', -, -, program⟩ := after.own
      refine ⟨c'', hc'', ?_⟩
      rw [program, ← keeps.program]
      cases leads : progress.program? with
      | none => exact .inl rfl
      | some q => exact job q leads
    · exact ⟨c', (after.others id own).trans hc', .inl keeps.program⟩

end OneGoesOn

/-- A drain that gets on by one point heeds what it heeded. One that begins to wait heeds every
send that there is. -/
theorem heeds_advance (tended : Tended old b) (fresh : ¬ old id) (sends : b.SendsTo i id)
    (heeds : b.Heeds n i id) (hc : b.calls[k]? = some c) (running : c.status = .running) :
    ((b.advanceProgram k c.loop c.program).1.resolve k
      (b.advanceProgram k c.loop c.program).2).Heeds n i id := by
  have stays := stays_advanceProgram tended.known k c.loop c.program
  obtain ⟨c₁, hc₁, keeps⟩ := stays.kept k c hc
  refine heeds_resolve (heeds.stays stays fresh) hc₁ (by rw [keeps.ended, Call.isEnded, running])
    fun own drains => ?_
  subst own
  rw [keeps.program] at drains
  cases hp : (b.advanceProgram k c.loop c.program).2.program? with
  | none =>
    rw [hp] at drains
    exact .inl ((stays.ended id).2 (heeds.idle hc (by simp [running]) drains))
  | some q =>
    rw [hp] at drains
    cases drains
    have becomes := from_advanceProgram b k c.loop c.program _ hp
    -- Only a drain that begins comes to wait for others.
    cases starts : c.program with
    | drainSends j point =>
      rw [starts] at becomes hp stays
      obtain ⟨rfl, -, -⟩ := becomes
      exact (gathers_drainStep tended hp sends).imp_left (stays.ended id).2
    | _ =>
      rw [starts] at becomes
      exact becomes.elim

theorem Shift.heeds (h : Shift old b b') (orderly : Orderly b) (tended : Tended old b)
    (fresh : ¬ old id) (sends : b.SendsTo i id) (heeds : b.Heeds n i id) : b'.Heeds n i id := by
  cases h with
  | beside noProgress _ => exact heeds.stays noProgress.toStays fresh
  | @woken k c b₀ _ hc queued noProgress _ calls same =>
    have still := heeds.stays noProgress.toStays fresh
    rw [same]
    refine heeds_resolve still (calls ▸ hc) (by rw [Call.isEnded, queued]) fun own drains => ?_
    subst own
    exact .inl (still.idle (calls ▸ hc) (by simp [queued]) drains)
  | @advanced k c running hc same =>
    obtain ⟨status, -⟩ := orderly.runs running hc
    rw [same]
    exact heeds_advance tended fresh sends heeds hc status
  | @interrupted k c b₀ _ hc queued noProgress calls same =>
    have stays := noProgress.toStays.trans (stays_interruptProgram b₀ k c.program)
    have still := heeds.stays stays fresh
    obtain ⟨c₁, hc₁, keeps⟩ := stays.kept k c hc
    rw [same]
    refine heeds_resolve still hc₁ (by rw [keeps.ended, Call.isEnded, queued]) fun own drains => ?_
    subst own
    rw [interruptProgram_ends] at drains
    refine .inl (still.idle hc₁ (fun left r waits => ?_) drains)
    have doomed := keeps.doomed (.inl queued)
    simp [Status.Doomed, waits] at doomed

/-! Over a run. -/

theorem tended_start {s : Scenario} (known : s.start.Known old) : Tended old s.start where
  truthful name cb hm := by cases name <;> cases hm
  known := known
  listed i id sends := by
    obtain ⟨c, hc, -⟩ := sends
    cases hc

theorem Reachable.tended (h : Reachable b) : Tended anyId b := by
  induction h with
  | init s _ => exact tended_start (known_any _)
  | move h m ih => exact ((m.shift h.orderly ih.truthful).parts h.orderly ih.known).tended ih

theorem Shift.subscribers (h : Shift old b b') : b'.subscribers = b.subscribers := by
  cases h with
  | beside noProgress _ => exact noProgress.subscribers
  | @woken id c b₀ _ hc _ noProgress _ calls same =>
    rw [same, (resolved (calls ▸ hc) _).subscribers, noProgress.subscribers]
  | @advanced id c _ hc same =>
    have stays := stays_advanceProgram (known_any b) id c.loop c.program
    obtain ⟨c', hc', -⟩ := stays.kept id c hc
    rw [same, (resolved hc' _).subscribers, stays.subscribers]
  | @interrupted id c b₀ _ hc _ noProgress calls same =>
    have stays := noProgress.toStays.trans (stays_interruptProgram b₀ id c.program)
    obtain ⟨c', hc', -⟩ := stays.kept id c hc
    rw [same, (resolved hc' _).subscribers, stays.subscribers]

theorem Reachable.shift (h : Reachable b) (m : Move b b') : Shift anyId b b' :=
  m.shift h.orderly h.tended.truthful

theorem Reachable.parts (h : Reachable b) (m : Move b b') : OneGoesOn anyId b b' :=
  (h.shift m).parts h.orderly h.tended.known

end Bench
end BatchWriter
