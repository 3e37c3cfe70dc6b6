import BatchWriter.Proofs.Bench.Accrual

/-!
# Sends that do as they like

What a client's send does between its points is the client's affair: it may wait for whatever it
wants to, as often as it wants to, end in any way, hand over further entries, and go on after its
cancellation. A stride is a move, or something of this kind. Each stride comes to a few
fragments, of which most only add something to the bench.
-/

set_option autoImplicit false

namespace BatchWriter

def SendJob.Continues (job : SendJob) (p : Program) : Prop :=
  ∃ (behaviour : Behaviour) (point : SendPoint), point ≠ .start ∧
    p = .send { job with behaviour } point

/-- What a send may come to of its own accord. -/
inductive SendJob.MayCome (job : SendJob) : Progress → Prop where
  | goes {p : Program} (continues : job.Continues p) : MayCome job (.go p)
  | yields {p : Program} (continues : job.Continues p) : MayCome job (.yield p)
  | sleeps {p : Program} (delay : Option Nat) (continues : job.Continues p) :
      MayCome job (.sleep delay p)
  | hangs {p : Program} (continues : job.Continues p) : MayCome job (.wait .forever p)
  | ends (outcome : Except Fault Value) : MayCome job (.finish outcome)

theorem SendJob.MayCome.leads {job : SendJob} {progress : Progress} {q : Program}
    (h : job.MayCome progress) (point : SendPoint) (leads : progress.program? = some q) :
    (Program.send job point).Becomes q ∧ ∀ i, q ≠ .drainSends i .gathered := by
  cases h with
  | goes continues | yields continues | sleeps _ continues | hangs continues =>
    obtain ⟨behaviour, after, -, rfl⟩ := continues
    cases leads
    exact ⟨⟨rfl, rfl, rfl⟩, by simp⟩
  | ends outcome => cases leads

namespace Bench

/-- What may happen to a bench next when its sends do as they like. -/
inductive Stride (b : Bench) : Bench → Prop where
  | moves {b' : Bench} (m : Move b b') : Stride b b'
  /-- Whoever runs hands entries to a destination. -/
  | submits {id : Nat} {c : Call} (running : b.running = some id) (hc : b.calls[id]? = some c)
      (destination : Nat) (entries : List Value) (handle : Handle) :
      Stride b (b.submit destination (some c.loop) entries handle).2
  /-- A send that has begun runs on as it likes. -/
  | works {id : Nat} {c : Call} {job : SendJob} {point : SendPoint} {progress : Progress}
      (running : b.running = some id) (hc : b.calls[id]? = some c)
      (sends : c.program = .send job point) (begun : point ≠ .start)
      (comes : job.MayCome progress) : Stride b (b.resolve id progress)
  /-- A send that has begun is resumed with its cancellation, and goes on as it likes. -/
  | swallows {name : LoopName} {id : Nat} {b₀ : Bench} {c : Call} {job : SendJob}
      {point : SendPoint} {progress : Progress} (idle : b.running = none)
      (next : b.nextCallback? = some (name, .resume id, b₀)) (hc : b.calls[id]? = some c)
      (cancelled : c.status = .queued true) (sends : c.program = .send job point)
      (begun : point ≠ .start) (comes : job.MayCome progress) : Stride b (b₀.resolve id progress)
  /-- What a send waits for comes about. -/
  | rouses {id : Nat} {c : Call} {job : SendJob} {point : SendPoint} (hc : b.calls[id]? = some c)
      (sends : c.program = .send job point)
      (waits : c.status = .waiting .alarm ∨ c.status = .waiting .forever) :
      Stride b (b.queue id c false)

abbrev Strides : Bench → Bench → Prop := Relation.ReflTransGen Stride

inductive Fragment (b : Bench) : Bench → Prop where
  | accrues {b' : Bench} (h : Accrues b b') : Fragment b b'
  /-- A callback that tells of no end is taken off its loop. -/
  | takes {name : LoopName} {cb : Callback} {l : EventLoop Callback}
      (popped : (b.loop name).pop? = some (cb, l)) (plain : cb.Plain) :
      Fragment b (b.setLoop name l)
  | forgets {name : LoopName} {i id : Nat} {l : EventLoop Callback}
      (popped : (b.loop name).pop? = some (.forget i id, l)) :
      Fragment b ((b.setLoop name l).forget i id)
  | counts {name : LoopName} {k id : Nat} {l : EventLoop Callback}
      (popped : (b.loop name).pop? = some (.gathered k id, l)) :
      Fragment b ((b.setLoop name l).countGathered k id)
  /-- The running call begins to gather another one, on its own loop. -/
  | gathers {k child : Nat} {c u : Call} (hc : b.calls[k]? = some c)
      (hu : b.calls[child]? = some u) (together : u.loop = c.loop) :
      Fragment b (gather k c.loop b child)
  /-- A call takes in its progress. If it has just begun to drain a destination, it waits for
  all sends that are on the list. -/
  | resolves {k : Nat} {c : Call} {progress : Progress} (hc : b.calls[k]? = some c)
      (live : c.isEnded = false) (alone : ∀ child, ¬ c.Gathers child)
      (job : progress.AtJob c.program)
      (drains : ∀ i, progress.program? = some (.drainSends i .gathered) →
        c.program = .drainSends i .gathered ∨ ∃ left r,
          progress.status = .waiting (.calls left r) ∧ ∀ id, b.Lists i id → id ∈ left) :
      Fragment b (b.resolve k progress)
  | closes (name : LoopName) : Fragment b (b.closeLoop name)

abbrev Fragments : Bench → Bench → Prop := Relation.ReflTransGen Fragment

def Lively (b : Bench) : Prop :=
  ∀ id, b.running = some id → ∃ c : Call, b.calls[id]? = some c ∧ c.status = .running

variable {b b' b₀ : Bench} {id i k : Nat} {name : LoopName} {c : Call}

theorem Accrues.fragment (h : Accrues b b') : Fragments b b' := .single (.accrues h)

theorem not_gathers {s : Status} (was : c.status = s)
    (alone : ∀ left r, s ≠ .waiting (.calls left r)) (child : Nat) : ¬ c.Gathers child := by
  rintro ⟨left, r, waits, -⟩
  exact alone left r (was.symm.trans waits)

/-! Drains -/

theorem destinations_interruptAll (ids : List Nat) (b : Bench) :
    (b.interruptAll ids).destinations = b.destinations := by
  have each : ∀ (b : Bench) (id : Nat), (b.interruptOne id).2.destinations = b.destinations := by
    intro b id
    unfold interruptOne
    split
    · rfl
    · split <;> first | rfl | exact destinations_setLoop _ _ _
  unfold interruptAll
  induction ids generalizing b with
  | nil => rfl
  | cons id rest ih => rw [List.foldl_cons, ih, each]

/-- A call that is gathered has a watcher more, or whoever gathers it is about to be told. -/
theorem gather_eq {child : Nat} {u : Call} (hu : b.calls[child]? = some u) (k : Nat)
    (loop : LoopName) : gather k loop b child = if u.isEnded then b.post loop (.gathered k child)
      else b.setCall child { u with watchers := u.watchers ++ [.gather k] } := by
  have ended : b.isEnded child = u.isEnded := by simp [isEnded, hu]
  rw [gather, ended, modify_call hu]
  rfl

theorem destinations_gather (k : Nat) (loop : LoopName) (b : Bench) (child : Nat) :
    (gather k loop b child).destinations = b.destinations := by
  unfold gather
  split
  · exact destinations_setLoop _ _ _
  · rfl

/-- Of the calls, only the watchers of the one that is gathered change. -/
theorem call_gather {n : Nat} (hc : b.calls[n]? = some c) (k : Nat) (loop : LoopName)
    (child : Nat) : ∃ watchers, (gather k loop b child).calls[n]? = some { c with watchers } := by
  cases hu : b.calls[child]? with
  | none =>
    have ended : b.isEnded child = true := by simp [isEnded, hu]
    rw [gather, if_pos ended, post, calls_setLoop]
    exact ⟨c.watchers, hc⟩
  | some u =>
    rw [gather_eq hu]
    split
    · rw [post, calls_setLoop]
      exact ⟨c.watchers, hc⟩
    · rw [call_kept hc]
      split
      · next same =>
        subst same
        cases hc.symm.trans hu
        exact ⟨_, rfl⟩
      · exact ⟨c.watchers, rfl⟩

theorem fragments_gatherAll {children : List Nat} (hc : b.calls[k]? = some c)
    (near : ∀ child ∈ children, ∃ u : Call, b.calls[child]? = some u ∧ u.loop = c.loop) :
    Fragments b (children.foldl (gather k c.loop) b) ∧
      (children.foldl (gather k c.loop) b).destinations = b.destinations ∧
      ∃ watchers, (children.foldl (gather k c.loop) b).calls[k]? = some { c with watchers } := by
  induction children generalizing b c with
  | nil => exact ⟨.refl, rfl, c.watchers, hc⟩
  | cons child rest ih =>
    obtain ⟨u, hu, together⟩ := near child List.mem_cons_self
    obtain ⟨watchers, hc'⟩ := call_gather hc k c.loop child
    have first : Fragment b (gather k c.loop b child) := .gathers hc hu together
    obtain ⟨others, destinations, watchers', own⟩ := ih hc' fun other hm => by
      obtain ⟨v, hv, together⟩ := near other (List.mem_cons_of_mem _ hm)
      obtain ⟨_, hv'⟩ := call_gather hv k c.loop child
      exact ⟨_, hv', together⟩
    exact ⟨.head first others, destinations.trans (destinations_gather _ _ _ _), watchers', own⟩

theorem fragments_leaves {point : DrainPoint} {progress : Progress} (accrues : Accrues b b')
    (hc : b.calls[k]? = some c) (running : c.status = .running)
    (drains : c.program = .drainSends i point)
    (leads : ∀ q, progress.program? = some q → q = .drainSends i .astray ∧ point = .start) :
    Fragments b (b'.resolve k progress) := by
  obtain ⟨c', hc', lingers⟩ := accrues.kept k c hc
  refine accrues.fragment.tail (.resolves hc' ?_ ?_ (fun q next => ?_) fun j next => ?_)
  · exact lingers.ended.trans (by rw [Call.isEnded, running])
  · exact not_gathers (lingers.running running) (by simp)
  · obtain ⟨rfl, rfl⟩ := leads q next
    rw [lingers.program, drains]
    exact .inr ⟨rfl, rfl, by simp⟩
  · cases (leads _ next).1

/-- A drain that comes to wait does so for all sends on the list. -/
theorem fragments_waits {d : Destination} (hc : b.calls[k]? = some c)
    (running : c.status = .running) (drains : c.program = .drainSends i .start)
    (hd : b.destinations[i]? = some d)
    (near : ∀ child ∈ d.pending, ∃ u : Call, b.calls[child]? = some u ∧ u.loop = c.loop) :
    Fragments b ((d.pending.foldl (gather k c.loop) (b.interruptAll d.pending)).resolve k
      (.wait (.calls d.pending false) (.drainSends i .gathered))) := by
  have cancelled := Accrues.interruptAll b d.pending
  obtain ⟨c', hc', lingers⟩ := cancelled.kept k c hc
  obtain ⟨gathering, destinations, watchers, hc₂⟩ := fragments_gatherAll hc' fun child hm => by
    obtain ⟨u, hu, together⟩ := near child hm
    obtain ⟨u', hu', still⟩ := cancelled.kept child u hu
    exact ⟨u', hu', by rw [still.loop, lingers.loop, together]⟩
  rw [lingers.loop] at gathering destinations hc₂
  refine (cancelled.fragment.trans gathering).tail (.resolves hc₂ ?_ ?_ ?_ ?_)
  · exact lingers.ended.trans (by rw [Call.isEnded, running])
  · exact not_gathers (lingers.running running) (by simp)
  · rintro q leads
    cases leads
    refine .inr ?_
    change c'.program.Becomes _
    rw [lingers.program, drains]
    exact ⟨rfl, rfl, by simp⟩
  · rintro j leads
    cases leads
    refine .inr ⟨d.pending, false, rfl, fun id listed => ?_⟩
    rw [Lists, destinations, destinations_interruptAll] at listed
    obtain ⟨u, hu, hm⟩ := listed
    cases hd.symm.trans hu
    exact hm

theorem fragments_drainStep {point : DrainPoint} (hc : b.calls[k]? = some c)
    (running : c.status = .running) (drains : c.program = .drainSends i point)
    (known : ∀ id, b.Lists i id → b.calls[id]? ≠ none) :
    Fragments b ((b.drainStep k c.loop i point).1.resolve k (b.drainStep k c.loop i point).2) := by
  have ends : ∀ {b₁ : Bench}, Accrues b b₁ → ∀ outcome : Except Fault Value,
      Fragments b (b₁.resolve k (.finish outcome)) := fun accrues outcome =>
    fragments_leaves accrues hc running drains fun q next => by cases next
  cases point with
  | gathered => exact ends (.refl b) (.ok .null)
  | astray => exact ends (.refl b) (.error .foreignFuture)
  | start =>
    rw [drainStep]
    split
    · exact ends (.refl b) (.ok .null)
    · next d hd =>
      split
      · exact ends (.refl b) (.ok .null)
      · dsimp only
        split
        · next own =>
          refine fragments_waits hc running drains hd fun child hm => ?_
          obtain ⟨u, hu⟩ := Option.ne_none_iff_exists'.1 (known child ⟨d, hd, hm⟩)
          have together := List.all_eq_true.1 own child hm
          rw [isOn, hu] at together
          exact ⟨u, hu, of_decide_eq_true together⟩
        · have cancelled := Accrues.interruptAll b d.pending
          split
          · exact ends cancelled (.error .mixedLoops)
          · refine fragments_leaves cancelled hc running drains fun q next => ?_
            exact ⟨(Option.some.inj next).symm, rfl⟩

/-! Steps -/

theorem fragments_proceed (hc : b.calls[k]? = some c) (running : c.status = .running)
    (known : ∀ i id, b.Lists i id → b.calls[id]? ≠ none) : Fragments b (b.proceed k) := by
  unfold proceed
  simp only [hc]
  by_cases drains : ∃ i point, c.program = .drainSends i point
  · obtain ⟨i, point, drains⟩ := drains
    rw [drains]
    exact fragments_drainStep hc running drains (known i)
  · have accrues := Accrues.advanceProgram (fun i point same => drains ⟨i, point, same⟩) b k c.loop
    obtain ⟨c₁, hc₁, lingers⟩ := accrues.kept k c hc
    refine accrues.fragment.tail (.resolves hc₁ ?_ ?_ ?_ ?_)
    · exact lingers.ended.trans (by rw [Call.isEnded, running])
    · exact not_gathers (lingers.running running) (by simp)
    · rw [lingers.program]
      exact fun q leads => .inr (from_advanceProgram b k c.loop c.program q leads)
    · intro i leads
      have becomes := from_advanceProgram b k c.loop c.program _ leads
      cases hp : c.program with
      | drainSends j point => exact absurd ⟨j, point, hp⟩ drains
      | _ =>
        rw [hp] at becomes
        exact becomes.elim

theorem fragments_resume (b : Bench) (k : Nat) : Fragments b (b.resume k) := by
  unfold resume
  split
  · exact .refl
  · next c hc =>
    split
    · next queued =>
      have accrues := Accrues.interruptProgram b k c.program
      obtain ⟨c₁, hc₁, lingers⟩ := accrues.kept k c hc
      have ends := interruptProgram_ends b k c.program
      refine accrues.fragment.tail (.resolves hc₁ ?_ ?_ ?_ ?_)
      · exact lingers.ended.trans (by rw [Call.isEnded, queued])
      · exact fun child gathers =>
          not_gathers queued (by simp) child ((lingers.gathers child).1 gathers)
      · intro q leads
        rw [ends] at leads
        cases leads
      · intro i leads
        rw [ends] at leads
        cases leads
    · next queued =>
      have same : setCall { b with running := some k } k { c with status := .running } =
          b.resolve k (.go c.program) := by
        rw [resolve, modify_call hc]
        rfl
      rw [same]
      refine .single (.resolves hc (by rw [Call.isEnded, queued]) (not_gathers queued (by simp))
        (fun q leads => .inl (Option.some.inj leads).symm) fun i leads => ?_)
      exact .inl (Option.some.inj leads)
    · exact .refl

theorem fragments_runCallback {cb : Callback} {l : EventLoop Callback}
    (popped : (b.loop name).pop? = some (cb, l)) :
    Fragments b ((b.setLoop name l).runCallback name cb) := by
  cases cb with
  | resume id => exact .head (.takes popped trivial) (fragments_resume _ id)
  | report i batch report =>
    have learned : Accrues (b.setLoop name l) _ :=
      .endCallback (.receive (b.setLoop name l) name i batch report)
    exact .head (.takes popped trivial) learned.fragment
  | forget i id => exact .single (.forgets popped)
  | gathered k id => exact .single (.counts popped)

theorem fragments_step (lively : b.Lively) (known : ∀ i id, b.Lists i id → b.calls[id]? ≠ none)
    (hs : b.step = some b') : Fragments b b' := by
  unfold step at hs
  split at hs
  · next id running =>
    obtain ⟨c, hc, status⟩ := lively id running
    cases hs
    exact fragments_proceed hc status known
  · obtain ⟨⟨name, cb, b₀⟩, next, rfl⟩ := Option.map_eq_some_iff.1 hs
    obtain ⟨turn, l, popped, rfl⟩ := next_pops next
    have turned : Fragment b { b with turn } := .accrues (.of_same rfl rfl rfl rfl rfl)
    exact .head turned (fragments_runCallback (b := { b with turn }) popped)

theorem Move.fragments (m : Move b b') (lively : b.Lively)
    (known : ∀ i id, b.Lists i id → b.calls[id]? ≠ none) : Fragments b b' := by
  cases m with
  | step next => exact fragments_step lively known next
  | turn name => exact Accrues.fragment (.of_same rfl rfl rfl rfl rfl)
  | ring idle due => exact ((Accrues.time b _).trans (.ring _ _)).fragment
  | wait instant => exact (Accrues.time b _).fragment
  | create name spec => exact (Accrues.create b name spec).fragment
  | start name known => exact (Accrues.start b _ _ (begins_programOf known) _).fragment
  | endJobs label name destination =>
    exact (Accrues.start b _ _ (p := .shutDown destination) trivial _).fragment
  | submitOutside idle destination entries label => exact (Accrues.submit b _ _ _ _).fragment
  | interrupt id => exact (Accrues.interrupt b id).fragment
  | tell fits report => exact (Accrues.tellHandle b _ _).fragment
  | runJob destination job => exact (Accrues.runJob b _ _).fragment
  | cancelJob destination job => exact (Accrues.cancelJob b _ _).fragment
  | shutDown destination => exact (Accrues.shutDown b _).fragment
  | subscribe bus name => exact (Accrues.subscribe b _ _).fragment
  | unsubscribe bus name => exact (Accrues.unsubscribe b _ _).fragment
  | closeLoop idle name => exact .single (.closes name)

/-- What a send comes to of its own accord it takes in as any other progress. -/
theorem fragment_mayCome {job : SendJob} {point : SendPoint} {progress : Progress}
    (hc : b.calls[k]? = some c) {s : Status} (was : c.status = s) (live : s ≠ .ended)
    (alone : ∀ left r, s ≠ .waiting (.calls left r)) (sends : c.program = .send job point)
    (comes : job.MayCome progress) : Fragment b (b.resolve k progress) := by
  refine .resolves hc (Call.live_of_status was live) (not_gathers was alone) ?_ ?_
  · rw [sends]
    exact fun q leads => .inr (comes.leads _ leads).1
  · exact fun i leads => absurd rfl ((comes.leads point leads).2 i)

theorem Stride.fragments (h : Stride b b') (lively : b.Lively)
    (known : ∀ i id, b.Lists i id → b.calls[id]? ≠ none) : Fragments b b' := by
  cases h with
  | moves m => exact m.fragments lively known
  | submits running hc destination entries handle => exact (Accrues.submit b _ _ _ _).fragment
  | works running hc sends begun comes =>
    obtain ⟨c, hc', status⟩ := lively _ running
    cases hc.symm.trans hc'
    exact .single (fragment_mayCome hc status (by simp) (by simp) sends comes)
  | swallows idle next hc cancelled sends begun comes =>
    obtain ⟨turn, l, popped, rfl⟩ := next_pops next
    have turned : Fragment b { b with turn } := .accrues (.of_same rfl rfl rfl rfl rfl)
    refine .head turned (.head (.takes popped trivial) (.single ?_))
    exact fragment_mayCome (by rwa [calls_setLoop]) cancelled (by simp) (by simp) sends comes
  | rouses hc sends waits =>
    rcases waits with waits | waits
    · exact (Accrues.queue hc waits (by simp) (by simp) (by simp)).fragment
    · exact (Accrues.queue hc waits (by simp) (by simp) (by simp)).fragment

end Bench
end BatchWriter
