import BatchWriter.Proofs.Bench.Tended

/-!
# What only accrues

Most of what a bench does tells of no call's end and takes no send off a list: calls stand where
they stood with the same watchers, new callbacks wait behind all others, and whoever comes to a
list is a send that has just been started. There is one lemma for each thing that a bench does.
-/

set_option autoImplicit false

namespace BatchWriter

def Callback.Plain : Callback → Prop
  | .forget _ _ | .gathered _ _ => False
  | _ => True

theorem Call.live_of_status {c : Call} {s : Status} (was : c.status = s) (live : s ≠ .ended) :
    c.isEnded = false := by
  rw [Call.isEnded, was]
  cases s with
  | ended => exact absurd rfl live
  | queued _ | running | waiting _ => rfl

structure Call.Lingers (c c' : Call) : Prop where
  program : c'.program = c.program
  loop : c'.loop = c.loop
  ended : c'.isEnded = c.isEnded
  watchers : c'.watchers = c.watchers
  running : c.status = .running → c'.status = .running
  gathers : ∀ child, c'.Gathers child ↔ c.Gathers child

namespace Call.Lingers

variable {c c' c'' : Call}

theorem refl (c : Call) : c.Lingers c := ⟨rfl, rfl, rfl, rfl, fun h => h, fun _ => .rfl⟩

theorem trans (h : c.Lingers c') (h' : c'.Lingers c'') : c.Lingers c'' where
  program := h'.program.trans h.program
  loop := h'.loop.trans h.loop
  ended := h'.ended.trans h.ended
  watchers := h'.watchers.trans h.watchers
  running := h'.running ∘ h.running
  gathers child := (h'.gathers child).trans (h.gathers child)

theorem of_queued {s : Status} (was : c.status = s) (live : s ≠ .ended) (running : s ≠ .running)
    (alone : ∀ left r, s ≠ .waiting (.calls left r)) (r : Bool) :
    c.Lingers { c with status := .queued r } where
  program := rfl
  loop := rfl
  ended := (Call.live_of_status was live).symm
  watchers := rfl
  running runs := absurd (was.symm.trans runs) running
  gathers child := by
    constructor
    · rintro ⟨left, r, waits, -⟩
      cases waits
    · rintro ⟨left, r, waits, -⟩
      exact absurd (was.symm.trans waits) (alone left r)

end Call.Lingers

namespace Bench

def SentAfresh (b b' : Bench) (i id : Nat) : Prop :=
  b.calls[id]? = none ∧ ∃ c' : Call, b'.calls[id]? = some c' ∧ c'.program.sendsTo? = some i ∧
    c'.watchers = [.forget i]

structure Accrues (b b' : Bench) : Prop where
  running : b'.running = b.running
  kept : ∀ (id : Nat) (c : Call), b.calls[id]? = some c →
    ∃ c' : Call, b'.calls[id]? = some c' ∧ c.Lingers c'
  begun : ∀ (id : Nat) (c' : Call), b'.calls[id]? = some c' → b.calls[id]? = none →
    c'.isEnded = false ∧ b'.Begins id c'.program
  ready : ∀ name, ∃ more, (b'.loop name).ready = (b.loop name).ready ++ more ∧
    ∀ cb ∈ more, cb.Plain
  closed : ∀ name, (b'.loop name).closed = (b.loop name).closed
  lists : ∀ (i : Nat) (d : Destination), b.destinations[i]? = some d →
    ∃ (d' : Destination) (more : List Nat), b'.destinations[i]? = some d' ∧
      d'.pending = d.pending ++ more ∧ more.Pairwise (· < ·) ∧ ∀ id ∈ more, b.SentAfresh b' i id
  destinations : b'.destinations.length = b.destinations.length

variable {b b' b'' : Bench} {id i : Nat} {c c' : Call}

namespace Accrues

theorem unborn (h : Accrues b b') (unborn : b'.calls[id]? = none) : b.calls[id]? = none := by
  cases hc : b.calls[id]? with
  | none => rfl
  | some c =>
    obtain ⟨c', hc', -⟩ := h.kept id c hc
    rw [unborn] at hc'
    cases hc'

theorem of_same (running : b'.running = b.running) (calls : b'.calls = b.calls)
    (main : b'.main = b.main) (alt : b'.alt = b.alt)
    (destinations : b'.destinations = b.destinations) : Accrues b b' where
  running := running
  kept id c hc := ⟨c, calls ▸ hc, .refl c⟩
  begun _ _ hc' none := by rw [calls, none] at hc'; cases hc'
  ready name := by
    refine ⟨[], ?_, by simp⟩
    cases name with
    | main => simp [loop, main]
    | alt => simp [loop, alt]
  closed name := by
    cases name with
    | main => simp [loop, main]
    | alt => simp [loop, alt]
  lists i d hd := ⟨d, [], by rw [destinations, hd], by simp, .nil, by simp⟩
  destinations := congrArg List.length destinations

theorem refl (b : Bench) : Accrues b b := of_same rfl rfl rfl rfl rfl

theorem trans (h : Accrues b b') (h' : Accrues b' b'') : Accrues b b'' where
  running := h'.running.trans h.running
  kept id c hc := by
    obtain ⟨c', hc', lingers⟩ := h.kept id c hc
    obtain ⟨c'', hc'', lingers'⟩ := h'.kept id c' hc'
    exact ⟨c'', hc'', lingers.trans lingers'⟩
  begun id c'' hc'' none := by
    cases hc' : b'.calls[id]? with
    | none => exact h'.begun id c'' hc'' hc'
    | some c' =>
      obtain ⟨live, begins⟩ := h.begun id c' hc' none
      obtain ⟨c₂, hc₂, lingers⟩ := h'.kept id c' hc'
      cases hc''.symm.trans hc₂
      refine ⟨lingers.ended.trans live, lingers.program ▸ ?_⟩
      cases hp : c'.program with
      | send job point =>
        rw [hp] at begins
        obtain ⟨start, d', hd', hm⟩ := begins
        obtain ⟨d'', more, hd'', same, -⟩ := h'.lists _ _ hd'
        exact ⟨start, d'', hd'', same ▸ List.mem_append_left _ hm⟩
      | _ =>
        rw [hp] at begins
        exact begins
  ready name := by
    obtain ⟨more, same, plain⟩ := h.ready name
    obtain ⟨more', same', plain'⟩ := h'.ready name
    refine ⟨more ++ more', by rw [same', same, List.append_assoc], fun cb hm => ?_⟩
    exact (List.mem_append.1 hm).elim (plain cb) (plain' cb)
  closed name := (h'.closed name).trans (h.closed name)
  lists i d hd := by
    obtain ⟨d', more, hd', same, sorted, sent⟩ := h.lists i d hd
    obtain ⟨d'', more', hd'', same', sorted', sent'⟩ := h'.lists i d' hd'
    refine ⟨d'', more ++ more', hd'', by rw [same', same, List.append_assoc], ?_, ?_⟩
    · refine List.pairwise_append.2 ⟨sorted, sorted', fun k hk n hn => ?_⟩
      -- The later ones are no calls yet when the earlier ones are.
      obtain ⟨-, c, hc, -⟩ := sent k hk
      have known := (List.getElem?_eq_some_iff.1 hc).1
      have unknown := List.getElem?_eq_none_iff.1 (sent' n hn).1
      exact Nat.lt_of_lt_of_le known unknown
    · intro k hk
      rcases List.mem_append.1 hk with hk | hk
      · obtain ⟨none, c', hc', aim, watchers⟩ := sent k hk
        obtain ⟨c'', hc'', lingers⟩ := h'.kept k c' hc'
        exact ⟨none, c'', hc'', by rw [lingers.program, aim], by rw [lingers.watchers, watchers]⟩
      · obtain ⟨none, c', hc', aim⟩ := sent' k hk
        exact ⟨h.unborn none, c', hc', aim⟩
  destinations := h'.destinations.trans h.destinations

theorem foldl {α : Type} {f : Bench → α → Bench} (each : ∀ b x, Accrues b (f b x)) (xs : List α)
    (b : Bench) : Accrues b (xs.foldl f b) := by
  induction xs generalizing b with
  | nil => exact refl b
  | cons x rest ih => exact (each b x).trans (ih _)

/-! Calls, loops and tales. -/

theorem tell (b : Bench) (happening : Happening) : Accrues b (b.tell happening) :=
  of_same rfl rfl rfl rfl rfl

theorem log (b : Bench) (n : Notice) : Accrues b (b.log n) := tell b _

theorem time (b : Bench) (time : Timetable Ring) : Accrues b { b with time } :=
  of_same rfl rfl rfl rfl rfl

theorem post (b : Bench) (name : LoopName) {cb : Callback} (plain : cb.Plain) :
    Accrues b (b.post name cb) where
  running := running_setLoop _ _ _
  kept id c hc := ⟨c, by rw [Bench.post, calls_setLoop, hc], .refl c⟩
  begun _ _ hc' none := by rw [Bench.post, calls_setLoop, none] at hc'; cases hc'
  ready other := by
    rw [Bench.post, loop_setLoop]
    split
    · next same =>
      subst same
      unfold EventLoop.post
      split
      · exact ⟨[], by simp, by simp⟩
      · exact ⟨[cb], rfl, by simpa using plain⟩
    · exact ⟨[], by simp, by simp⟩
  closed other := closed_post b name other cb
  lists i d hd := ⟨d, [], by rw [Bench.post, destinations_setLoop, hd], by simp, .nil, by simp⟩
  destinations := congrArg List.length (destinations_setLoop _ _ _)

theorem setCall (hc : b.calls[id]? = some c) (lingers : c.Lingers c') :
    Accrues b (b.setCall id c') where
  running := rfl
  kept k u hk := by
    refine ⟨_, call_kept hk c', ?_⟩
    split
    · next same =>
      subst same
      cases hc.symm.trans hk
      exact lingers
    · exact .refl u
  begun k u hk none := by
    rcases call_setCall hk with ⟨rfl, -⟩ | ⟨-, hk⟩
    · rw [hc] at none
      cases none
    · rw [hk] at none
      cases none
  ready name := ⟨[], by cases name <;> simp [Bench.setCall, loop], by simp⟩
  closed name := by cases name <;> rfl
  lists i d hd := ⟨d, [], hd, by simp, .nil, by simp⟩
  destinations := rfl

/-- A call that waits alone goes to the end of its loop's ready queue. -/
theorem queue (hc : b.calls[id]? = some c) {s : Status} {r : Bool} (was : c.status = s)
    (live : s ≠ .ended) (running : s ≠ .running) (alone : ∀ left r, s ≠ .waiting (.calls left r)) :
    Accrues b (b.queue id c r) :=
  (setCall hc (.of_queued was live running alone r)).trans (post _ _ trivial)

theorem setDestination {d d' : Destination} (hd : b.destinations[i]? = some d)
    (same : d'.pending = d.pending) : Accrues b (b.setDestination i d') where
  running := rfl
  kept id c hc := ⟨c, hc, .refl c⟩
  begun _ _ hc' none := by rw [Bench.setDestination, none] at hc'; cases hc'
  ready name := ⟨[], by cases name <;> simp [Bench.setDestination, loop], by simp⟩
  closed name := by cases name <;> rfl
  lists j u hu := by
    by_cases own : i = j
    · subst own
      cases hd.symm.trans hu
      refine ⟨d', [], ?_, by simp [same], .nil, by simp⟩
      exact List.getElem?_set_self (List.getElem?_eq_some_iff.1 hd).1
    · exact ⟨u, [], (List.getElem?_set_ne own).trans hu, by simp, .nil, by simp⟩
  destinations := List.length_set

/-- A call takes its place after all others; if it is a send, at the end of a list as well. -/
theorem append {c : Call} {destinations : List Destination} (status : c.status = .queued false)
    (begins : Begins { b with calls := b.calls ++ [c], destinations } b.calls.length c.program)
    (same : destinations.length = b.destinations.length)
    (lists : ∀ (i : Nat) (d : Destination), b.destinations[i]? = some d →
      ∃ d' : Destination, destinations[i]? = some d' ∧ (d'.pending = d.pending ∨
        d'.pending = d.pending ++ [b.calls.length] ∧ c.program.sendsTo? = some i ∧
          c.watchers = [.forget i])) :
    Accrues b { b with calls := b.calls ++ [c], destinations } where
  running := rfl
  kept k u hk := by
    have known := (List.getElem?_eq_some_iff.1 hk).1
    exact ⟨u, (List.getElem?_append_left known).trans hk, .refl u⟩
  begun k u hk none := by
    obtain ⟨rfl, rfl⟩ := call_of_append hk none
    exact ⟨by rw [Call.isEnded, status], begins⟩
  ready name := ⟨[], by cases name <;> simp [loop], by simp⟩
  closed name := by cases name <;> rfl
  lists i d hd := by
    obtain ⟨d', hd', same | ⟨same, aim, watchers⟩⟩ := lists i d hd
    · exact ⟨d', [], hd', by simp [same], .nil, by simp⟩
    · refine ⟨d', _, hd', same, List.pairwise_singleton _ _, fun k hk => ?_⟩
      rw [List.mem_singleton.1 hk]
      exact ⟨by simp, c, by simp, aim, watchers⟩
  destinations := same

theorem start (b : Bench) (name : LoopName) (label : Option String) {p : Program}
    (begins : p.Begins) (watchers : List Watcher) :
    Accrues b (b.start name label p watchers) := by
  have started : Accrues b { b with
      calls := b.calls ++ [{ label, loop := name, program := p, watchers }] } := by
    refine append rfl ?_ rfl fun i d hd => ⟨d, hd, .inl rfl⟩
    cases p with
    | send job point => exact begins.elim
    | _ => exact begins
  exact started.trans (post _ _ trivial)

theorem send {job : SendJob} {d d' : Destination} (hd : b.destinations[job.destination]? = some d)
    (listed : d'.pending = d.pending ++ [b.calls.length]) (name : LoopName) :
    Accrues b ((b.setDestination job.destination d').start name none (.send job .start)
      [.forget job.destination]) := by
  have set : (b.destinations.set job.destination d')[job.destination]? = some d' :=
    List.getElem?_set_self (List.getElem?_eq_some_iff.1 hd).1
  have started : Accrues b { b with
      calls := b.calls ++ [⟨none, name, .send job .start, .queued false, [.forget job.destination]⟩]
      destinations := b.destinations.set job.destination d' } := by
    refine append rfl ⟨rfl, d', set, by simp [listed]⟩ List.length_set fun j u hu => ?_
    by_cases own : job.destination = j
    · subst own
      cases hd.symm.trans hu
      exact ⟨d', set, .inr ⟨listed, rfl, rfl⟩⟩
    · exact ⟨u, (List.getElem?_set_ne own).trans hu, .inl rfl⟩
  exact started.trans (post _ _ trivial)

/-! Changes of writers. -/

theorem wake (b : Bench) (id : Nat) : Accrues b (b.wake id) := by
  unfold Bench.wake
  split
  · next c hc =>
    split
    · next waits => exact queue hc waits (by simp) (by simp) (by simp)
    · exact refl b
  · exact refl b

theorem perform (i : Nat) (label : String) (b : Bench) (e : Effect) :
    Accrues b (perform i label b e) := by
  cases e with
  | notice n => exact log b n
  | measure m => exact of_same rfl rfl rfl rfl rfl
  | setAlarm alarm delay => exact time b _
  | cancelAlarm alarm => exact time b _
  | wake call => exact wake b call

theorem change (b : Bench) (i : Nat) (f : Writer → Change) : Accrues b (b.change i f).2 := by
  unfold Bench.change
  split
  · exact refl b
  · next w _ =>
    have changed : Accrues b { b with writers := b.writers.set i (f w).writer } :=
      of_same rfl rfl rfl rfl rfl
    exact changed.trans (foldl (perform i _) _ _)

theorem tellHandle (b : Bench) (handle : Handle) (report : Report) :
    Accrues b (b.tellHandle handle report) := by
  cases handle with
  | recorder label => exact tell b _
  | batch i name batch =>
    unfold Bench.tellHandle
    dsimp only
    split
    · exact log b _
    · exact post b _ trivial

/-! Buses and deliveries. -/

theorem openBus (b : Bench) (name : String) : Accrues b (b.openBus name) := by
  have aside := Aside.openBus b name
  exact of_same aside.running aside.calls aside.main aside.alt aside.destinations

theorem subscribe (b : Bench) (bus name : String) : Accrues b (b.subscribe bus name) := by
  have aside := Aside.subscribe b bus name
  exact of_same aside.running aside.calls aside.main aside.alt aside.destinations

theorem unsubscribe (b : Bench) (bus name : String) : Accrues b (b.unsubscribe bus name) := by
  have aside := Aside.unsubscribe b bus name
  exact of_same aside.running aside.calls aside.main aside.alt aside.destinations

theorem publication (b : Bench) (bus : String) (event : Event) :
    Accrues b (b.publication bus event).1 := by
  refine (openBus b bus).trans ?_
  unfold Bench.publication
  dsimp only
  split
  · exact refl _
  · exact log _ _

theorem subscriberFault (b : Bench) (d : Delivery) (fault : Fault) :
    Accrues b (b.subscriberFault d fault).1 := by
  unfold Bench.subscriberFault
  split
  · exact log b _
  · exact refl b

theorem react (b : Bench) (d : Delivery) (reaction : Reaction) :
    Accrues b (b.react d reaction).1 := by
  cases reaction with
  | collect | yield _ => exact refl b
  | raise fault => exact subscriberFault b d fault
  | sleep milliseconds =>
    unfold Bench.react
    dsimp only
    split
    · exact subscriberFault b d _
    · exact refl b
    · exact refl b
  | unsubscribe bus name => exact unsubscribe b bus name
  | subscribe bus name => exact subscribe b bus name
  | close name =>
    unfold Bench.react
    dsimp only
    split
    · exact change b _ _
    · exact subscriberFault b d _
  | complete destination call =>
    unfold Bench.react
    dsimp only
    split
    · exact tellHandle b _ _
    · exact subscriberFault b d _

theorem attend (b : Bench) (d : Delivery) : Accrues b (b.attend d).1 := by
  unfold Bench.attend
  split
  · exact refl b
  · split
    · exact refl b
    · exact refl b
    · exact refl b
    · split
      · exact subscriberFault b d _
      · exact (tell b _).trans (react _ _ _)

/-! Handing batches over. -/

theorem clearEntries (b : Bench) (destination call : Nat) (handle : Handle) :
    Accrues b (b.clearEntries destination call handle) := by
  unfold Bench.clearEntries
  dsimp only
  cases handle with
  | batch i _ batch =>
    refine trans ?_ (change _ i _)
    split
    · next d hd => exact setDestination hd rfl
    · exact refl b
  | recorder _ =>
    dsimp only
    split
    · next d hd => exact setDestination hd rfl
    · exact refl b

theorem respond (destination call : Nat) (handle : Handle) (responses : List Response)
    (b : Bench) : Accrues b (respond destination call handle responses b).2 := by
  induction responses generalizing b with
  | nil => exact refl b
  | cons response rest ih =>
    cases response with
    | complete places =>
      rw [Bench.respond]
      split
      · exact refl b
      · exact (tellHandle b _ _).trans (ih _)
    | fail fault => exact (tellHandle b _ _).trans (ih _)
    | raise fault => exact refl b
    | clear => exact (clearEntries b _ _ _).trans (ih _)

theorem reach {d d' : Destination} (hd : b.destinations[i]? = some d)
    (same : d'.pending = d.pending) (entries : List Value) : Accrues b (b.reach i d' entries) :=
  have set : Accrues b (b.setDestination i { d' with reached := d'.reached + 1 }) :=
    setDestination hd same
  set.trans (tell _ _)

theorem submit (b : Bench) (destination : Nat) (loop : Option LoopName) (entries : List Value)
    (handle : Handle) : Accrues b (b.submit destination loop entries handle).2 := by
  unfold Bench.submit
  split
  · exact refl b
  · next d hd =>
    dsimp only
    split
    · have reached : Accrues b
          (b.reach destination { d with calls := d.calls ++ [(handle, entries)] } entries) :=
        reach hd (by rfl) entries
      exact reached.trans (respond _ _ _ _ _)
    · exact refl b
    · refine send (d := d) ?_ ?_ _
      · exact hd
      · rfl
    · split
      · exact refl b
      · exact setDestination hd rfl

theorem dispatch (b : Bench) (i : Nat) (loop : LoopName) : Accrues b (b.dispatch i loop).2 := by
  unfold Bench.dispatch
  split
  · exact refl b
  · dsimp only
    split
    · exact change b i _
    · exact ((change b i _).trans (submit _ _ _ _ _)).trans (change _ i _)

theorem timedFlush (b : Bench) (i : Nat) (loop : LoopName) :
    Accrues b (b.timedFlush i loop).2 := by
  have dispatched := (change b i (·.beginTimedFlush b.now)).trans (dispatch _ i loop)
  unfold Bench.timedFlush
  dsimp only
  split
  · split <;> exact dispatched
  · exact dispatched.trans (change _ i _)

theorem deferredFlush (i : Nat) (loop : LoopName) (b : Bench) :
    Accrues b (b.deferredFlush i loop).2 := by
  unfold Bench.deferredFlush
  split
  · exact refl b
  · split
    · exact (change b i _).trans (timedFlush _ _ _)
    · exact refl b

theorem thenDo {r : Option Fault × Bench} {next : Bench → Option Fault × Bench}
    (first : Accrues b r.2) (second : Accrues r.2 (next r.2).2) :
    Accrues b (thenDo r next).2 := by
  unfold Bench.thenDo
  split
  · exact first
  · exact first.trans second

theorem receive (b : Bench) (loop : LoopName) (i batch : Nat) (report : Report) :
    Accrues b (b.receive loop i batch report).2 := by
  cases report with
  | failed fault => exact change b i _
  | completed failed =>
    unfold Bench.receive
    dsimp only
    split
    · exact refl b
    · split
      · exact log b _
      · exact thenDo (thenDo (change b i _) (deferredFlush _ _ _)) (change _ i _)

theorem bufferAlarm (b : Bench) (i : Nat) : Accrues b (b.bufferAlarm i).2 := by
  unfold Bench.bufferAlarm
  split
  · exact refl b
  · dsimp only
    split
    · exact (change b i _).trans (timedFlush _ _ _)
    · exact change b i _

theorem endCallback {r : Option Fault × Bench} (h : Accrues b r.2) :
    Accrues b (endCallback r) := by
  unfold Bench.endCallback
  split
  · exact h.trans (tell _ _)
  · exact h

/-! Calls that are cancelled, and jobs. -/

theorem interruptOne (b : Bench) (id : Nat) : Accrues b (b.interruptOne id).2 := by
  unfold Bench.interruptOne
  split
  · exact refl b
  · next c hc =>
    split
    · exact refl b
    · exact refl b
    · next was => exact setCall hc (.of_queued was (by simp) (by simp) (by simp) true)
    · next was =>
      exact (time b _).trans (queue (b := { b with time := b.time.cancel (.wake id) }) hc was
        (by simp) (by simp) (by simp))
    · next was => exact queue hc was (by simp) (by simp) (by simp)
    · next was => exact queue hc was (by simp) (by simp) (by simp)
    · next left r was =>
      refine setCall hc ⟨rfl, rfl, by simp [Call.isEnded, was], rfl, by simp [was], fun child => ?_⟩
      simp [Call.Gathers, was]

theorem interruptAll (b : Bench) (ids : List Nat) : Accrues b (b.interruptAll ids) :=
  foldl interruptOne ids b

theorem interrupt (b : Bench) (id : Nat) : Accrues b (b.interrupt id).2 := by
  unfold Bench.interrupt
  split
  · exact (interruptAll b _).trans (interruptOne _ _)
  · exact interruptOne b id

theorem answerJob (b : Bench) (destination i : Nat) (job : Job) (report : Report) :
    Accrues b (b.answerJob destination i job report) := by
  have noted : Accrues b { b with jobAnswers := ((destination, i), report) :: b.jobAnswers } :=
    of_same rfl rfl rfl rfl rfl
  exact noted.trans (tellHandle _ _ _)

theorem endJob (b : Bench) (destination i : Nat) (job : Job) (outcome : Except Fault Value) :
    Accrues b (b.endJob destination i job outcome) := by
  unfold Bench.endJob
  split
  · exact (log b _).trans (answerJob _ _ _ _ _)
  · split
    · exact answerJob b _ _ _ _
    · exact refl b

theorem runJob (b : Bench) (destination job : Nat) : Accrues b (b.runJob destination job).2 := by
  unfold Bench.runJob
  split
  · exact refl b
  · next d hd =>
    split
    · refine ((setDestination hd ?_).trans (tell _ _)).trans (endJob _ _ _ _ _)
      exact pending_conclude _ _ _
    · exact refl b

theorem cancelJob (b : Bench) (destination job : Nat) :
    Accrues b (b.cancelJob destination job).2 := by
  unfold Bench.cancelJob
  split
  · exact refl b
  · next d hd =>
    split
    · exact refl b
    · next found _ =>
      split
      · exact refl b
      · exact refl b
      · have set : Accrues b (b.setJob destination d job { found with state := .cancelled }) :=
          setDestination hd (by rfl)
        exact set.trans (answerJob _ _ _ _ _)

theorem shutDown (b : Bench) (destination : Nat) : Accrues b (b.shutDown destination) := by
  unfold Bench.shutDown
  split
  · exact refl b
  · next d hd => exact setDestination hd rfl

/-! Points of writes, commits and sends. -/

theorem withWriter {i : Nat} {f : Writer → Bench × Progress}
    (each : ∀ w : Writer, Accrues b (f w).1) : Accrues b (b.withWriter i f).1 := by
  unfold Bench.withWriter
  split
  · exact each _
  · exact refl b

theorem publishLevel (b : Bench) (job : WriteJob) (w : Writer) (level : Level) (reason : String)
    (next : WritePoint) : Accrues b (b.publishLevel job w level reason next).1 :=
  (change b job.writer _).trans (publication _ _ _)

theorem writeStep (b : Bench) (id : Nat) (loop : LoopName) (job : WriteJob) (point : WritePoint) :
    Accrues b (b.writeStep id loop job point).1 := by
  cases point with
  | start =>
    rw [Bench.writeStep, writeStart]
    split
    · exact refl b
    · exact change b _ _
  | gate blocked =>
    refine withWriter fun w => ?_
    split
    · split
      · exact (change b _ _).trans (publishLevel _ _ _ _ _ _)
      · exact refl b
    · split
      · exact publishLevel b _ _ _ _ _
      · exact refl b
  | flush stage =>
    refine withWriter fun w => ?_
    split
    · exact refl b
    · exact (change b _ _).trans (publishLevel _ _ _ _ _ _)
  | slot stage =>
    refine withWriter fun w => ?_
    split
    · exact refl b
    · exact change b _ _
  | woken stage => exact change b _ _
  | dispatch stage => exact dispatch b job.writer loop
  | accept =>
    refine withWriter fun w => ?_
    split
    · exact refl b
    · exact change b _ _
  | batching =>
    refine withWriter fun w => ?_
    split
    · exact refl b
    · exact change b _ _
  | publishing delivery next => exact attend b delivery

theorem commitStep (b : Bench) (id : Nat) (loop : LoopName) (job : CommitJob)
    (point : CommitPoint) : Accrues b (b.commitStep id loop job point).1 := by
  cases point with
  | start | woken => exact change b _ _
  | drain =>
    refine withWriter fun w => ?_
    split
    · split
      · exact dispatch b job.writer loop
      · exact change b _ _
    · exact change b _ _

theorem endSend (b : Bench) (id : Nat) (job : SendJob) (outcome : Except Fault Value) :
    Accrues b (b.endSend id job outcome).1 := by
  have answer : ∀ (b : Bench) (report : Report), Accrues b (b.answer id job report) := by
    intro b report
    have noted : Accrues b { b with answers := (id, report) :: b.answers } :=
      of_same rfl rfl rfl rfl rfl
    exact noted.trans (tellHandle _ _ _)
  unfold Bench.endSend
  split
  · split
    · exact answer b _
    · split
      · exact (log b _).trans (answer _ _)
      · exact refl b
  · split
    · exact answer b _
    · exact refl b

theorem concludeSend (b : Bench) (id : Nat) (job : SendJob) (ending : Ending) :
    Accrues b (b.concludeSend id job ending).1 := by
  unfold Bench.concludeSend
  split
  · exact refl b
  · next d hd =>
    exact (setDestination hd (pending_conclude d ending job.entries)).trans (endSend _ _ _ _)

theorem sendStep (b : Bench) (id : Nat) (job : SendJob) (point : SendPoint) :
    Accrues b (b.sendStep id job point).1 := by
  cases point with
  | start =>
    rw [Bench.sendStep]
    split
    · exact refl b
    · next d hd => exact reach hd rfl _
  | yields times => cases times <;> exact refl b
  | sleep =>
    rw [Bench.sendStep]
    split
    · exact refl b
    · split
      · exact endSend b _ _ _
      · exact refl b
      · exact refl b
  | hang =>
    rw [Bench.sendStep]
    split <;> exact refl b
  | conclude => exact concludeSend b _ _ _

theorem sendInterrupted (b : Bench) (id : Nat) (job : SendJob) (point : SendPoint) :
    Accrues b (b.sendInterrupted id job point).1 := by
  unfold Bench.sendInterrupted
  split
  · exact refl b
  · split
    · exact concludeSend b _ _ _
    · exact endSend b _ _ _

/-! All programs but drains, alarms, and writers that are built. -/

theorem advanceProgram {p : Program} (other : ∀ i point, p ≠ .drainSends i point) (b : Bench)
    (id : Nat) (name : LoopName) : Accrues b (b.advanceProgram id name p).1 := by
  cases p with
  | write job point => exact writeStep b id name job point
  | commit job point => exact commitStep b id name job point
  | close i | enter i => exact change b i _
  | publish bus event => exact publication b bus event
  | deliver delivery => exact attend b delivery
  | send job point => exact sendStep b id job point
  | drainSends i point => exact absurd rfl (other i point)
  | shutDown destination => exact shutDown b destination
  | rest => exact refl b
  | submit destination entries label => exact submit b _ _ _ _

theorem interruptProgram (b : Bench) (id : Nat) (p : Program) :
    Accrues b (b.interruptProgram id p).1 := by
  cases p with
  | write job point => exact change b job.writer _
  | commit job point => exact change b job.writer _
  | send job point => exact sendInterrupted b id job point
  | _ => exact refl b

theorem ring (b : Bench) (r : Ring) : Accrues b (b.ring r) := by
  cases r with
  | writer i alarm =>
    cases alarm with
    | flush => exact endCallback (bufferAlarm b i)
    | expire batch => exact endCallback (change b i _)
  | wake id =>
    unfold Bench.ring
    dsimp only
    split
    · next c hc =>
      split
      · next waits => exact queue hc waits (by simp) (by simp) (by simp)
      · exact refl b
    · exact refl b

theorem create (b : Bench) (name : String) (spec : WriterSpec) :
    Accrues b (b.create name spec).2 := by
  unfold Bench.create
  dsimp only
  split
  · exact refl b
  · next c _ =>
    have added : Accrues b { b with
        writers := b.writers ++ [c.writer]
        names := b.names.alter name b.writers.length fun _ => b.writers.length
        metrics := b.metrics.register c.writer.label } := of_same rfl rfl rfl rfl rfl
    exact added.trans (foldl (perform _ _) _ _)

end Accrues
end Bench
end BatchWriter
