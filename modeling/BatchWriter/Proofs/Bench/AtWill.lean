import BatchWriter.Proofs.Bench.Tended

/-!
# Sends at will

What a client's send does from its first point to its last is the client's affair: it may wait
for whatever it wants to, as often as it wants to, change its mind about how it will end, hand
over further entries, and go on after its cancellation. What it comes to in the end is reported as
for any send. A bench stays orderly, and no send is forgotten before its end.
-/

set_option autoImplicit false

namespace BatchWriter

def SendPoint.Midway : SendPoint → Prop
  | .yields _ | .hang => True
  | .start | .sleep | .conclude => False

/-- How a send goes on at will: as a send of the same batch that is past its start, with whatever
behaviour it has in mind by then. -/
inductive SendJob.GoesOn (job : SendJob) : Progress → Prop where
  | goes {behaviour : Behaviour} {point : SendPoint} (begun : point ≠ .start)
      (ends : point = .conclude → behaviour.hangs = false) :
      GoesOn job (.go (.send { job with behaviour } point))
  | yields {behaviour : Behaviour} {point : SendPoint} (midway : point.Midway) :
      GoesOn job (.yield (.send { job with behaviour } point))
  | sleeps (delay : Option Nat) {behaviour : Behaviour} {point : SendPoint}
      (midway : point.Midway) : GoesOn job (.sleep delay (.send { job with behaviour } point))
  | hangs {behaviour : Behaviour} {point : SendPoint} (midway : point.Midway) :
      GoesOn job (.wait .forever (.send { job with behaviour } point))

/-- Whatever a send has in mind to end with, some behaviour ends so. -/
theorem Ending.exists_conclude (outcome : Except Fault Value) :
    ∃ ending : Ending, ∀ (d : Destination) (batch : List Value),
      (d.conclude ending batch).1 = outcome := by
  cases outcome with
  | error fault => exact ⟨.raises fault, fun _ _ => rfl⟩
  | ok result => exact ⟨.returns result, fun _ _ => rfl⟩

namespace SendJob.GoesOn

variable {job : SendJob} {progress : Progress}

theorem leads (h : job.GoesOn progress) : ∃ (behaviour : Behaviour) (point : SendPoint),
    progress.program? = some (.send { job with behaviour } point) := by
  cases h <;> exact ⟨_, _, rfl⟩

theorem atJob (h : job.GoesOn progress) (point : SendPoint) :
    progress.AtJob (.send job point) := by
  obtain ⟨behaviour, after, leads⟩ := h.leads
  rintro q hq
  rw [leads, Option.some.injEq] at hq
  subst hq
  exact .inr ⟨rfl, rfl, rfl⟩

theorem fits (h : job.GoesOn progress) {b : Bench} {name : LoopName}
    (known : b.HandleFits job.handle) : progress.Fits b name := by
  cases h with
  | goes begun ends => exact ⟨known, trivial⟩
  | yields midway => exact ⟨known, trivial⟩
  | sleeps delay midway => exact ⟨known, trivial, rfl⟩
  | hangs midway => exact ⟨known, trivial, rfl, by simp⟩

end SendJob.GoesOn

namespace Bench

/-- What may happen to a bench next when its sends go on at will. -/
inductive MoveAtWill (b : Bench) : Bench → Prop where
  | moves {b' : Bench} (m : Move b b') : MoveAtWill b b'
  /-- A send hands further entries to a destination. -/
  | submits {id : Nat} {c : Call} {job : SendJob} {point : SendPoint}
      (running : b.running = some id) (hc : b.calls[id]? = some c)
      (sends : c.program = .send job point) (destination : Nat) (entries : List Value)
      {handle : Handle} (fits : b.HandleFits handle) :
      MoveAtWill b (b.submit destination (some c.loop) entries handle).2
  /-- A send that has begun runs on at will. -/
  | works {id : Nat} {c : Call} {job : SendJob} {point : SendPoint} {progress : Progress}
      (running : b.running = some id) (hc : b.calls[id]? = some c)
      (sends : c.program = .send job point) (begun : point ≠ .start)
      (goesOn : job.GoesOn progress) : MoveAtWill b (b.resolve id progress)
  /-- A send that has begun is resumed with its cancellation, and goes on at will. -/
  | swallows {name : LoopName} {id : Nat} {b₀ : Bench} {c : Call} {job : SendJob}
      {point : SendPoint} {progress : Progress} (idle : b.running = none)
      (next : b.nextCallback? = some (name, .resume id, b₀)) (hc : b.calls[id]? = some c)
      (cancelled : c.status = .queued true) (sends : c.program = .send job point)
      (begun : point ≠ .start) (goesOn : job.GoesOn progress) :
      MoveAtWill b (b₀.resolve id progress)
  /-- What a send waits for comes about before its alarm rings, if that ever does. -/
  | rouses {id : Nat} {c : Call} {job : SendJob} {point : SendPoint} (hc : b.calls[id]? = some c)
      (sends : c.program = .send job point) (waits : c.status = .waiting .alarm) :
      MoveAtWill b (b.queue id c false)

abbrev MovesAtWill : Bench → Bench → Prop := Relation.ReflTransGen MoveAtWill

/-- The benches of all runs of all scenarios in which sends go on at will. -/
inductive ReachableAtWill : Bench → Prop where
  | init (s : Scenario) (unused : s.Unused) : ReachableAtWill s.start
  | move {b b' : Bench} (h : ReachableAtWill b) (m : MoveAtWill b b') : ReachableAtWill b'

variable {old : Nat → Prop} {b b' b₀ : Bench} {id i k n : Nat} {name : LoopName} {c : Call}

theorem Moves.atWill (moves : Moves b b') : MovesAtWill b b' :=
  Relation.ReflTransGen.mono (fun _ _ => .moves) _ _ moves

theorem Reachable.atWill (h : Reachable b) : ReachableAtWill b := by
  induction h with
  | init s unused => exact .init s unused
  | move _ m ih => exact ih.move (.moves m)

theorem ReachableAtWill.moves (h : ReachableAtWill b) (moves : MovesAtWill b b') :
    ReachableAtWill b' := by
  induction moves with
  | refl => exact h
  | tail _ m ih => exact ih.move m

/-! ## Order -/

/-- While a send runs, other things may happen to the writers. -/
theorem Orderly.whileSends (h : Orderly b) (running : b.running = some id)
    (hc : b.calls[id]? = some c) {job : SendJob} {point : SendPoint}
    (sends : c.program = .send job point) (hp : Passes none b b') : Orderly b' where
  coherent := hp.coherent
  current k hk := by
    rw [hp.running, running] at hk
    cases hk
    obtain ⟨c', hc', continues⟩ := hp.calls id c hc
    obtain ⟨status, same⟩ := continues.2 (h.runs running hc).1
    refine ⟨c', hc', status, ?_⟩
    rw [same, sends]
    trivial
  watched := h.watched.passes hp fun _ _ none => by cases none

/-- A cancelled send that goes on is in hand, and on no writer's list. -/
theorem Orderly.swallows (h : Orderly b) (idle : b.running = none)
    (next : b.nextCallback? = some (name, .resume id, b₀)) (hc : b.calls[id]? = some c)
    (cancelled : c.status = .queued true) {job : SendJob} {point : SendPoint}
    (sends : c.program = .send job point) {progress : Progress} (goesOn : job.GoesOn progress) :
    Orderly (b₀.resolve id progress) := by
  obtain ⟨turn, l, popped, rfl⟩ := next_pops next
  have turned := h.turn turn
  obtain ⟨passes, taken⟩ := turned.takes idle popped hc (by simp [cancelled])
  have fits := (h.coherent.calls id c hc (by simp) (by rw [Call.isEnded, cancelled])).1
  have apart := turned.coherent.apart hc (.inl (by rw [sends]; rfl))
  rw [sends] at fits
  exact orderly_resolve ⟨taken, passes.apart apart⟩ (goesOn.fits (passes.grows.handle fits))

theorem MoveAtWill.orderly (m : MoveAtWill b b') (h : Orderly b) : Orderly b' := by
  cases m with
  | moves m => exact m.orderly h
  | submits running hc sends destination entries fits =>
    exact h.whileSends running hc sends (hands_submit h.coherent destination _ entries _ fits).1
  | works running hc sends begun goesOn =>
    obtain ⟨-, -, fits, -⟩ := h.runs running hc
    rw [sends] at fits
    exact orderly_resolve (h.inHand running hc) (goesOn.fits fits)
  | swallows idle next hc cancelled sends begun goesOn =>
    exact h.swallows idle next hc cancelled sends goesOn
  | rouses hc sends waits =>
    exact h.aside (passes_queue h.coherent hc waits (by simp)) (writers_post _ _ _)

/-! ## What a move at will comes to -/

inductive Wills (old : Nat → Prop) (b b' : Bench) : Prop
  | beside (noProgress : NoProgress old b b')
  | goesOn {id : Nat} {c : Call} {job : SendJob} {point : SendPoint} {progress : Progress}
      {b₀ : Bench} (hc : b.calls[id]? = some c) (live : c.isEnded = false)
      (sends : c.program = .send job point) (comes : job.GoesOn progress)
      (noProgress : NoProgress old b b₀) (same : b' = b₀.resolve id progress)

theorem MoveAtWill.shift (m : MoveAtWill b b') (h : Orderly b) (truthful : b.Truthful old) :
    Shift old b b' ∨ Wills old b b' := by
  cases m with
  | moves m => exact .inl (m.shift h truthful)
  | submits running hc sends destination entries fits =>
    exact .inr (.beside (noProgress_submit b _ _ _ _))
  | works running hc sends begun goesOn =>
    obtain ⟨-, live, -⟩ := h.runs running hc
    exact .inr (.goesOn hc live sends goesOn (.refl b) rfl)
  | swallows idle next hc cancelled sends begun goesOn =>
    obtain ⟨noProgress, -⟩ := noProgress_next truthful next
    exact .inr (.goesOn hc (by rw [Call.isEnded, cancelled]) sends goesOn noProgress rfl)
  | rouses hc sends waits => exact .inr (.beside (noProgress_queue hc waits .rung))

theorem Wills.parts (h : Wills old b b') : OneGoesOn old b b' := by
  cases h with
  | beside noProgress => exact ⟨b', noProgress.toStays, .inl rfl⟩
  | @goesOn id c job point progress b₀ hc live sends comes noProgress same =>
    obtain ⟨c₀, hc₀, keeps⟩ := noProgress.kept id c hc
    refine ⟨b₀, noProgress.toStays, .inr ⟨id, c₀, progress, hc₀, keeps.ended.trans live, ?_, same⟩⟩
    rw [keeps.program, sends]
    exact comes.atJob point

theorem MoveAtWill.parts (m : MoveAtWill b b') (h : Orderly b) (tended : Tended old b) :
    OneGoesOn old b b' :=
  (m.shift h tended.truthful).elim (·.parts h tended.known) (·.parts)

/-- A send that goes on at will is no drain, so drains heed what they heeded. -/
theorem Wills.heeds (h : Wills old b b') (fresh : ¬ old id) (heeds : b.Heeds n i id) :
    b'.Heeds n i id := by
  cases h with
  | beside noProgress => exact heeds.stays noProgress.toStays fresh
  | goesOn hc live sends comes noProgress same =>
    obtain ⟨c₀, hc₀, keeps⟩ := noProgress.kept _ _ hc
    rw [same]
    refine heeds_resolve (heeds.stays noProgress.toStays fresh) hc₀ (keeps.ended.trans live)
      fun _ drains => ?_
    obtain ⟨behaviour, after, leads⟩ := comes.leads
    rw [leads] at drains
    cases drains

/-! ## Over a run -/

/-- A bench of a run in which sends go on at will, some ids being older than the run. -/
structure Underway (old : Nat → Prop) (b : Bench) : Prop where
  orderly : Orderly b
  tended : Tended old b

theorem underway_start {s : Scenario} (unused : s.Unused) (idle : s.Idle) :
    Underway (fun _ => False) s.start := by
  refine ⟨(Reachable.init s unused).orderly, tended_start ?_⟩
  rintro i id ⟨d, hd, hm⟩
  rw [idle d (List.mem_of_getElem? hd)] at hm
  cases hm

namespace Underway

theorem move (h : Underway old b) (m : MoveAtWill b b') : Underway old b' :=
  ⟨m.orderly h.orderly, (m.parts h.orderly h.tended).tended h.tended⟩

theorem moves (h : Underway old b) (moves : MovesAtWill b b') : Underway old b' := by
  induction moves with
  | refl => exact h
  | tail _ m ih => exact ih.move m

/-- What a drain heeds it goes on to heed, and what is sent after it is no less sent. -/
theorem heeds (h : Underway old b) (fresh : ¬ old id) (sends : b.SendsTo i id)
    (heeds : b.Heeds k i id) (moves : MovesAtWill b b') :
    b'.SendsTo i id ∧ b'.Heeds k i id := by
  induction moves with
  | refl => exact ⟨sends, heeds⟩
  | tail moves m ih =>
    obtain ⟨sends, heeds⟩ := ih
    have still := h.moves moves
    refine ⟨(m.parts still.orderly still.tended).sends sends, ?_⟩
    rcases m.shift still.orderly still.tended.truthful with shift | wills
    · exact shift.heeds still.orderly still.tended fresh sends heeds
    · exact wills.heeds fresh heeds

theorem ended (h : Underway old b) (ended : b.Ended id) (moves : MovesAtWill b b') :
    b'.Ended id := by
  induction moves with
  | refl => exact ended
  | tail moves m ih =>
    have still := h.moves moves
    exact (m.parts still.orderly still.tended).ended ih

/-- A drain that returns has nothing left to wait for. -/
theorem ended_of_returns (h : Underway old b) (sends : b.SendsTo i id) (heeds : b.Heeds k i id)
    (returns : b.Returns i k) : b.Ended id := by
  obtain ⟨c, stage, v, running, hc, drains, returns⟩ := returns
  obtain ⟨status, -⟩ := h.orderly.runs running hc
  cases stage with
  | gathered => exact heeds.idle hc (by simp [status]) drains
  | astray => cases drains ▸ returns
  | start =>
    rw [drains] at returns
    exact (h.tended.listed i id sends).resolve_right (not_lists_of_returns returns)

end Underway

theorem ReachableAtWill.underway (h : ReachableAtWill b) : Underway anyId b := by
  induction h with
  | init s unused => exact ⟨(Reachable.init s unused).orderly, tended_start (known_any _)⟩
  | move h m ih => exact ih.move m

end Bench
end BatchWriter
