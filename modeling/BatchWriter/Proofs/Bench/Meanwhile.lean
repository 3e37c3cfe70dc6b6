import BatchWriter.Proofs.Bench.NoProgress

/-!
# Who makes no progress meanwhile

Function by function: what happens to loops, calls, writers, buses and destinations beside the
call that moves takes no call on. Only what was due is on the ready queues, and only a send
that has ended leaves its destination's list.
-/

set_option autoImplicit false

namespace BatchWriter
namespace Bench

variable {old : Nat → Prop} {b : Bench} {id i : Nat} {c c' : Call}

/-! Calls, loops and tales. -/

theorem subscribers_setLoop (b : Bench) (name : LoopName) (l : EventLoop Callback) :
    (b.setLoop name l).subscribers = b.subscribers := by cases name <;> rfl

theorem answers_setLoop (b : Bench) (name : LoopName) (l : EventLoop Callback) :
    (b.setLoop name l).answers = b.answers := by cases name <;> rfl

/-- A loop may run a callback, be closed, or take one on that is due. -/
theorem noProgress_setLoop {name : LoopName} {l : EventLoop Callback}
    (ready : ∀ cb ∈ l.ready, cb ∈ (b.loop name).ready ∨ b.Due old cb) :
    NoProgress old b (b.setLoop name l) where
  running := running_setLoop _ _ _
  subscribers := subscribers_setLoop _ _ _
  kept id c hc := ⟨c, by rw [calls_setLoop, hc], .refl b c⟩
  begun _ _ hc' none := by rw [calls_setLoop, none] at hc'; cases hc'
  callbacks other cb hm := by
    have due : (b.setLoop name l).Due old cb ↔ b.Due old cb := by
      cases cb <;> simp only [Due, Ended, calls_setLoop]
    rw [due]
    rw [loop_setLoop] at hm
    split at hm
    · next same =>
      rw [same]
      exact ready cb hm
    · exact .inl hm
  lists i id listed := by
    refine .inr ?_
    rw [Lists, destinations_setLoop]
    exact listed
  known known i id listed := by
    rw [Lists, destinations_setLoop] at listed
    rw [calls_setLoop]
    exact known i id listed
  toUnfed := .of_writers (writers_setLoop _ _ _)
  answers := answers_setLoop _ _ _

theorem noProgress_post (b : Bench) (name : LoopName) {cb : Callback} (due : b.Due old cb) :
    NoProgress old b (b.post name cb) := by
  refine noProgress_setLoop fun x hm => ?_
  unfold EventLoop.post at hm
  split at hm
  · exact .inl hm
  · rcases List.mem_append.1 hm with hm | hm
    · exact .inl hm
    · exact .inr (List.mem_singleton.1 hm ▸ due)

theorem noProgress_tell (b : Bench) (happening : Happening) : NoProgress old b (b.tell happening) :=
  .of_same rfl rfl rfl rfl rfl rfl rfl rfl

theorem noProgress_log (b : Bench) (n : Notice) : NoProgress old b (b.log n) := noProgress_tell b _

theorem noProgress_time (b : Bench) (time : Timetable Ring) : NoProgress old b { b with time } :=
  .of_same rfl rfl rfl rfl rfl rfl rfl rfl

/-- A destination changes; only sends that have ended may leave its list. -/
theorem noProgress_listDestination {d d' : Destination} (hd : b.destinations[i]? = some d)
    (rest : ∀ id ∈ d.pending, b.Ended id ∨ id ∈ d'.pending)
    (fewer : ∀ id ∈ d'.pending, id ∈ d.pending) : NoProgress old b (b.setDestination i d') where
  running := rfl
  subscribers := rfl
  kept id c hc := ⟨c, hc, .refl b c⟩
  begun _ _ hc' none := by rw [setDestination, none] at hc'; cases hc'
  callbacks _ _ hm := .inl hm
  lists j id listed := by
    obtain ⟨u, hu, hm⟩ := listed
    by_cases same : i = j
    · subst same
      rw [hd, Option.some.injEq] at hu
      refine (rest id (hu ▸ hm)).imp_right fun hm => ⟨d', ?_, hm⟩
      exact List.getElem?_set_self (List.getElem?_eq_some_iff.1 hd).1
    · exact .inr ⟨u, (List.getElem?_set_ne same).trans hu, hm⟩
  known known j id listed := by
    obtain ⟨u, hu, hm⟩ := listed
    by_cases same : i = j
    · subst same
      have set : (b.destinations.set i d')[i]? = some d' :=
        List.getElem?_set_self (List.getElem?_eq_some_iff.1 hd).1
      rw [setDestination, set, Option.some.injEq] at hu
      exact known i id ⟨d, hd, fewer id (hu ▸ hm)⟩
    · exact known j id ⟨u, (List.getElem?_set_ne same).symm.trans hu, hm⟩
  toUnfed := .of_writers rfl
  answers := rfl

theorem noProgress_setDestination {d d' : Destination} (hd : b.destinations[i]? = some d)
    (same : d'.pending = d.pending) : NoProgress old b (b.setDestination i d') :=
  noProgress_listDestination hd (fun _ hm => .inr (same ▸ hm)) fun _ hm => same ▸ hm

theorem noProgress_setCall (hc : b.calls[id]? = some c) (keeps : b.Keeps old c c') :
    NoProgress old b (b.setCall id c') where
  running := rfl
  subscribers := rfl
  kept k u hk := by
    refine ⟨_, call_kept hk c', ?_⟩
    split
    · next same =>
      rw [same, hc, Option.some.injEq] at hk
      exact hk ▸ keeps
    · exact .refl b u
  begun k u hk none := by
    rcases call_setCall hk with ⟨rfl, -⟩ | ⟨-, hk⟩
    · rw [hc] at none
      cases none
    · rw [hk] at none
      cases none
  callbacks _ _ hm := .inl hm
  lists _ _ listed := .inr listed
  known known i k listed := by
    refine (known i k listed).imp_right fun called none => called ?_
    rwa [setCall, List.getElem?_eq_none_iff, List.length_set, ← List.getElem?_eq_none_iff] at none
  toUnfed := .of_writers rfl
  answers := rfl

/-- A call that waits goes to the end of its loop's ready queue. -/
theorem noProgress_queue (hc : b.calls[id]? = some c) {s : Status} {r : Bool} (was : c.status = s)
    (alters : b.Alters old s (.queued r)) : NoProgress old b (b.queue id c r) :=
  (noProgress_setCall hc (.of_alters was alters)).trans (noProgress_post _ _ trivial)

/-- A call takes its place after all others, and is on the list where it has to be. -/
theorem noProgress_append (b : Bench) {c : Call} {destinations : List Destination}
    (begins : Begins { b with calls := b.calls ++ [c], destinations } b.calls.length c.program)
    (status : c.status = .queued false)
    (lists : ∀ i id, b.Lists i id → Lists { b with destinations } i id)
    (fewer : ∀ i id, Lists { b with destinations } i id → b.Lists i id ∨ id = b.calls.length) :
    NoProgress old b { b with calls := b.calls ++ [c], destinations } where
  running := rfl
  subscribers := rfl
  kept k u hk := by
    have known := (List.getElem?_eq_some_iff.1 hk).1
    exact ⟨u, (List.getElem?_append_left known).trans hk, .refl b u⟩
  begun k u hk none := by
    obtain ⟨rfl, rfl⟩ := call_of_append hk none
    exact ⟨begins, by rw [Call.isEnded, status], by simp [status]⟩
  callbacks _ _ hm := .inl hm
  lists i id listed := .inr (lists i id listed)
  known known i id listed := by
    rcases fewer i id listed with listed | rfl
    · refine (known i id listed).imp_right fun called none => called ?_
      rw [List.getElem?_eq_none_iff, List.length_append] at none
      exact List.getElem?_eq_none_iff.2 (by omega)
    · exact .inr (by simp)
  toUnfed := .of_writers rfl
  answers := rfl

theorem noProgress_start (b : Bench) (name : LoopName) (label : Option String) {p : Program}
    (begins : p.Begins) (watchers : List Watcher) :
    NoProgress old b (b.start name label p watchers) := by
  have started : NoProgress old b { b with
      calls := b.calls ++ [{ label, loop := name, program := p, watchers }] } := by
    refine noProgress_append b ?_ rfl (fun _ _ listed => listed) fun _ _ listed => .inl listed
    cases p with
    | send job point => exact begins.elim
    | _ => exact begins
  exact started.trans (noProgress_post _ _ trivial)

theorem noProgress_send {job : SendJob} {d d' : Destination}
    (hd : b.destinations[job.destination]? = some d)
    (listed : d'.pending = d.pending ++ [b.calls.length]) (name : LoopName) :
    NoProgress old b ((b.setDestination job.destination d').start name none (.send job .start)
      [.forget job.destination]) := by
  have set : (b.destinations.set job.destination d')[job.destination]? = some d' :=
    List.getElem?_set_self (List.getElem?_eq_some_iff.1 hd).1
  have started : NoProgress old b { b with
      calls := b.calls ++ [⟨none, name, .send job .start, .queued false, [.forget job.destination]⟩]
      destinations := b.destinations.set job.destination d' } := by
    refine noProgress_append b ⟨rfl, d', set, by simp [listed]⟩ rfl ?_ ?_
    · rintro j id ⟨u, hu, hm⟩
      by_cases same : job.destination = j
      · subst same
        rw [hd, Option.some.injEq] at hu
        exact ⟨d', set, listed ▸ List.mem_append_left _ (hu ▸ hm)⟩
      · exact ⟨u, (List.getElem?_set_ne same).trans hu, hm⟩
    · rintro j id ⟨u, hu, hm⟩
      by_cases same : job.destination = j
      · subst same
        rw [set, Option.some.injEq] at hu
        rw [← hu, listed, List.mem_append, List.mem_singleton] at hm
        exact hm.imp_left fun hm => ⟨d, hd, hm⟩
      · exact .inl ⟨u, (List.getElem?_set_ne same).symm.trans hu, hm⟩
  exact started.trans (noProgress_post _ _ trivial)

theorem noProgress_foldl {α : Type} {f : Bench → α → Bench} (each : ∀ b x, NoProgress old b (f b x))
    (xs : List α) (b : Bench) : NoProgress old b (xs.foldl f b) := by
  induction xs generalizing b with
  | nil => exact .refl b
  | cons x rest ih => exact (each b x).trans (ih _)

/-! Changes of writers. -/

theorem noProgress_wake (b : Bench) (id : Nat) : NoProgress old b (b.wake id) := by
  unfold wake
  split
  · next c hc =>
    split
    · next waits => exact noProgress_queue hc waits .changed
    · exact .refl b
  · exact .refl b

theorem noProgress_perform (i : Nat) (label : String) (b : Bench) (e : Effect) :
    NoProgress old b (perform i label b e) := by
  cases e with
  | notice n => exact noProgress_log b n
  | measure m => exact .of_same rfl rfl rfl rfl rfl rfl rfl rfl
  | setAlarm alarm delay => exact noProgress_time b _
  | cancelAlarm alarm => exact noProgress_time b _
  | wake call => exact noProgress_wake b call

/-- Whatever a writer's change is, it takes no call on. -/
theorem stays_change (b : Bench) (i : Nat) (f : Writer → Change) :
    Stays old b (b.change i f).2 := by
  unfold change
  split
  · exact (NoProgress.refl b).toStays
  · next w _ =>
    have changed : Stays old b { b with writers := b.writers.set i (f w).writer } :=
      .of_same rfl rfl rfl rfl rfl rfl
    exact changed.trans (noProgress_foldl (noProgress_perform i _) _ _).toStays

theorem answers_change (b : Bench) (i : Nat) (f : Writer → Change) :
    (b.change i f).2.answers = b.answers := by
  unfold change
  split
  · rfl
  · next w _ =>
    have performed := @noProgress_foldl anyId _ _ (noProgress_perform i w.label) (f w).effects
      { b with writers := b.writers.set i (f w).writer }
    exact performed.answers

theorem noProgress_change (i : Nat) {f : Writer → Change}
    (unfed : ∀ w : Writer, w.Unfed (f w).writer) :
    NoProgress old b (b.change i f).2 := by
  refine ⟨stays_change b i f, ?_, answers_change b i f⟩
  cases hw : b.writers[i]? with
  | none =>
    rw [change_of_none hw]
    exact .of_writers rfl
  | some w =>
    refine ⟨fun j u hu => ?_, fun j u hu none => ?_⟩
    · by_cases same : j = i
      · subst same
        rw [hw, Option.some.injEq] at hu
        exact ⟨_, writer_change hw f, hu ▸ unfed w⟩
      · exact ⟨u, by rw [writer_change_of_ne hw f same, hu], .refl u⟩
    · have other : j ≠ i := fun same => by rw [same, hw] at none; cases none
      rw [writer_change_of_ne hw f other, none] at hu
      cases hu

theorem noProgress_tellHandle (b : Bench) (handle : Handle) (report : Report) :
    NoProgress old b (b.tellHandle handle report) := by
  cases handle with
  | recorder label => exact noProgress_tell b _
  | batch i name batch =>
    unfold tellHandle
    dsimp only
    split
    · exact noProgress_log b _
    · exact noProgress_post b _ trivial

/-! Buses. -/

theorem noProgress_openBus (b : Bench) (name : String) : NoProgress old b (b.openBus name) := by
  unfold openBus
  split
  · exact .refl b
  · have opened : NoProgress old b { b with buses := b.buses.ensure name [] } :=
      .of_same rfl rfl rfl rfl rfl rfl rfl rfl
    dsimp only
    split
    · exact opened.trans (noProgress_log _ _)
    · exact opened

theorem noProgress_subscribe (b : Bench) (bus name : String) :
    NoProgress old b (b.subscribe bus name) := by
  refine (noProgress_openBus b bus).trans ?_
  unfold subscribe
  dsimp only
  split
  · exact .refl _
  · exact .of_same rfl rfl rfl rfl rfl rfl rfl rfl

theorem noProgress_unsubscribe (b : Bench) (bus name : String) :
    NoProgress old b (b.unsubscribe bus name) := by
  refine (noProgress_openBus b bus).trans ?_
  unfold unsubscribe
  dsimp only
  split
  · exact .of_same rfl rfl rfl rfl rfl rfl rfl rfl
  · exact .refl _

theorem noProgress_publication (b : Bench) (bus : String) (event : Event) :
    NoProgress old b (b.publication bus event).1 := by
  refine (noProgress_openBus b bus).trans ?_
  unfold publication
  dsimp only
  split
  · exact .refl _
  · exact noProgress_log _ _

/-! Handing batches over. -/

theorem noProgress_clearEntries (b : Bench) (destination call : Nat) (handle : Handle) :
    NoProgress old b (b.clearEntries destination call handle) := by
  unfold clearEntries
  dsimp only
  cases handle with
  | batch i _ batch =>
    refine NoProgress.trans ?_ (noProgress_change i fun w => .of_history rfl rfl)
    split
    · next d hd => exact noProgress_setDestination hd rfl
    · exact .refl b
  | recorder _ =>
    dsimp only
    split
    · next d hd => exact noProgress_setDestination hd rfl
    · exact .refl b

theorem noProgress_respond (destination call : Nat) (handle : Handle) (responses : List Response)
    (b : Bench) : NoProgress old b (respond destination call handle responses b).2 := by
  induction responses generalizing b with
  | nil => exact .refl b
  | cons response rest ih =>
    cases response with
    | complete places =>
      rw [respond]
      split
      · exact .refl b
      · exact (noProgress_tellHandle b _ _).trans (ih _)
    | fail fault => exact (noProgress_tellHandle b _ _).trans (ih _)
    | raise fault => exact .refl b
    | clear => exact (noProgress_clearEntries b _ _ _).trans (ih _)

theorem noProgress_reach {d d' : Destination} (hd : b.destinations[i]? = some d)
    (same : d'.pending = d.pending) (entries : List Value) :
    NoProgress old b (b.reach i d' entries) :=
  have set : NoProgress old b (b.setDestination i { d' with reached := d'.reached + 1 }) :=
    noProgress_setDestination hd same
  set.trans (noProgress_tell _ _)

theorem noProgress_submit (b : Bench) (destination : Nat) (loop : Option LoopName)
    (entries : List Value) (handle : Handle) :
    NoProgress old b (b.submit destination loop entries handle).2 := by
  unfold submit
  split
  · exact .refl b
  · next d hd =>
    dsimp only
    split
    · have reached : NoProgress old b
          (b.reach destination { d with calls := d.calls ++ [(handle, entries)] } entries) :=
        noProgress_reach hd (by rfl) entries
      exact reached.trans (noProgress_respond _ _ _ _ _)
    · exact .refl b
    · refine noProgress_send (d := d) ?_ ?_ _
      · exact hd
      · rfl
    · split
      · exact .refl b
      · exact noProgress_setDestination hd rfl

theorem noProgress_dispatch (b : Bench) (i : Nat) (loop : LoopName) :
    NoProgress old b (b.dispatch i loop).2 := by
  unfold dispatch
  split
  · exact .refl b
  · have opened : NoProgress old b (b.change i fun w => (w.startDispatch loop b.now).1).2 :=
      noProgress_change i fun w => w.unfed_startDispatch loop b.now
    dsimp only
    split
    · exact opened
    · exact (opened.trans (noProgress_submit _ _ _ _ _)).trans
        (noProgress_change i fun w => w.unfed_concludeDispatch _ _ _)

theorem noProgress_timedFlush (b : Bench) (i : Nat) (loop : LoopName) :
    NoProgress old b (b.timedFlush i loop).2 := by
  have begun : NoProgress old b (b.change i (·.beginTimedFlush b.now)).2 :=
    noProgress_change i fun w => .noted w b.now (by simp)
  have dispatched := begun.trans (noProgress_dispatch _ i loop)
  unfold timedFlush
  dsimp only
  split
  · split <;> exact dispatched
  · exact dispatched.trans (noProgress_change i fun w => w.unfed_endTimedFlush)

theorem noProgress_deferredFlush (b : Bench) (i : Nat) (loop : LoopName) :
    NoProgress old b (b.deferredFlush i loop).2 := by
  unfold deferredFlush
  split
  · exact .refl b
  · split
    · exact (noProgress_change i fun w => .of_history rfl rfl).trans (noProgress_timedFlush _ _ _)
    · exact .refl b

theorem noProgress_thenDo {r : Option Fault × Bench} {next : Bench → Option Fault × Bench}
    (first : NoProgress old b r.2) (second : NoProgress old r.2 (next r.2).2) :
    NoProgress old b (thenDo r next).2 := by
  unfold thenDo
  split
  · exact first
  · exact first.trans second

theorem noProgress_receive (b : Bench) (loop : LoopName) (i batch : Nat) (report : Report) :
    NoProgress old b (b.receive loop i batch report).2 := by
  cases report with
  | failed fault => exact noProgress_change i fun w => w.unfed_reportFailed _ _ _
  | completed failed =>
    unfold receive
    dsimp only
    split
    · exact .refl b
    · split
      · exact noProgress_log b _
      · have completed : NoProgress old b (b.change i (·.complete b.now batch failed)).2 :=
          noProgress_change i fun w => w.unfed_complete _ _ _
        exact noProgress_thenDo (noProgress_thenDo completed (noProgress_deferredFlush _ _ _))
          (noProgress_change i fun w => .of_history rfl rfl)

theorem noProgress_bufferAlarm (b : Bench) (i : Nat) : NoProgress old b (b.bufferAlarm i).2 := by
  unfold bufferAlarm
  split
  · exact .refl b
  · have rung : NoProgress old b (b.change i (·.bufferTimeOver.1)).2 :=
      noProgress_change i fun w => w.unfed_bufferTimeOver
    dsimp only
    split
    · exact rung.trans (noProgress_timedFlush _ _ _)
    · exact rung

theorem noProgress_endCallback {r : Option Fault × Bench} (h : NoProgress old b r.2) :
    NoProgress old b (endCallback r) := by
  unfold endCallback
  split
  · exact h.trans (noProgress_tell _ _)
  · exact h

/-! Deliveries. -/

theorem noProgress_subscriberFault (b : Bench) (d : Delivery) (fault : Fault) :
    NoProgress old b (b.subscriberFault d fault).1 := by
  unfold subscriberFault
  split
  · exact noProgress_log b _
  · exact .refl b

theorem noProgress_react (b : Bench) (d : Delivery) (reaction : Reaction) :
    NoProgress old b (b.react d reaction).1 := by
  cases reaction with
  | collect | yield _ => exact .refl b
  | raise fault => exact noProgress_subscriberFault b d fault
  | sleep milliseconds =>
    unfold react
    dsimp only
    split
    · exact noProgress_subscriberFault b d _
    · exact .refl b
    · exact .refl b
  | unsubscribe bus name => exact noProgress_unsubscribe b bus name
  | subscribe bus name => exact noProgress_subscribe b bus name
  | close name =>
    unfold react
    dsimp only
    split
    · exact noProgress_change _ fun w => w.unfed_close _
    · exact noProgress_subscriberFault b d _
  | complete destination call =>
    unfold react
    dsimp only
    split
    · exact noProgress_tellHandle b _ _
    · exact noProgress_subscriberFault b d _

theorem noProgress_attend (b : Bench) (d : Delivery) : NoProgress old b (b.attend d).1 := by
  unfold attend
  split
  · exact .refl b
  · split
    · exact .refl b
    · exact .refl b
    · exact .refl b
    · split
      · exact noProgress_subscriberFault b d _
      · exact (noProgress_tell b _).trans (noProgress_react _ _ _)

/-! Calls that cancel, gather and forget others, and jobs. -/

theorem noProgress_interruptOne (b : Bench) (id : Nat) :
    NoProgress old b (b.interruptOne id).2 := by
  unfold interruptOne
  split
  · exact .refl b
  · next c hc =>
    split
    · exact .refl b
    · exact .refl b
    · next queued => exact noProgress_setCall hc (.of_alters queued .recalled)
    · next waits =>
      exact (noProgress_time b _).trans
        (noProgress_queue (b := { b with time := b.time.cancel (.wake id) })
        hc waits (.cancelled (by simp)))
    · next waits => exact noProgress_queue hc waits (.cancelled (by simp))
    · next waits => exact noProgress_queue hc waits (.cancelled (by simp))
    · next waits => exact noProgress_setCall hc (.of_alters waits .flagged)

theorem noProgress_interruptAll (b : Bench) (ids : List Nat) :
    NoProgress old b (b.interruptAll ids) :=
  noProgress_foldl noProgress_interruptOne ids b

theorem noProgress_interrupt (b : Bench) (id : Nat) : NoProgress old b (b.interrupt id).2 := by
  unfold interrupt
  split
  · exact (noProgress_interruptAll b _).trans (noProgress_interruptOne _ _)
  · exact noProgress_interruptOne b id

/-- A call gets another watcher, or it has ended and whoever gathers it is told. -/
theorem noProgress_gather (id : Nat) (loop : LoopName) {child : Nat}
    (known : old child ∨ b.calls[child]? ≠ none) : NoProgress old b (gather id loop b child) := by
  unfold gather
  cases hc : b.calls[child]? with
  | none =>
    have ended : b.isEnded child = true := by simp [isEnded, hc]
    rw [if_pos ended]
    exact noProgress_post b _ (known.imp_right fun called => absurd hc called)
  | some c =>
    split
    · next ended =>
      exact noProgress_post b _ (.inr ((ended_iff hc).2 (by simpa [isEnded, hc] using ended)))
    · rw [modify_call hc]
      exact noProgress_setCall hc
        ⟨rfl, rfl, rfl, .rfl, fun r h => ⟨r, h⟩, fun h => h, fun _ h => .inr h⟩

theorem noProgress_gatherAll (id : Nat) (loop : LoopName) {children : List Nat}
    (known : ∀ child ∈ children, old child ∨ b.calls[child]? ≠ none) :
    NoProgress old b (children.foldl (gather id loop) b) := by
  induction children generalizing b with
  | nil => exact .refl b
  | cons child rest ih =>
    have first : NoProgress old b _ := noProgress_gather id loop (known child List.mem_cons_self)
    refine first.trans (ih fun other hm => ?_)
    exact (known other (List.mem_cons_of_mem _ hm)).imp_right first.called

theorem noProgress_countGathered (b : Bench) (id : Nat) {child : Nat}
    (due : old child ∨ b.Ended child) : NoProgress old b (b.countGathered id child) := by
  unfold countGathered
  split
  · exact .refl b
  · next c hc =>
    split
    · next waits =>
      dsimp only
      split
      · next last => exact noProgress_queue hc waits (.gathered due (List.isEmpty_iff.1 last))
      · exact noProgress_setCall hc (.of_alters waits (.counted due))
    · exact .refl b

theorem noProgress_forget (b : Bench) (destination : Nat) (ended : b.Ended id) :
    NoProgress old b (b.forget destination id) := by
  unfold forget
  split
  · exact .refl b
  · next d hd =>
    refine noProgress_listDestination hd (fun other hm => ?_) fun _ hm => (List.mem_filter.1 hm).1
    by_cases same : other = id
    · exact .inl (same ▸ ended)
    · exact .inr (List.mem_filter.2 ⟨hm, by simpa using same⟩)

theorem noProgress_answerJob (b : Bench) (destination i : Nat) (job : Job) (report : Report) :
    NoProgress old b (b.answerJob destination i job report) := by
  have noted : NoProgress old b
    { b with jobAnswers := ((destination, i), report) :: b.jobAnswers } :=
    .of_same rfl rfl rfl rfl rfl rfl rfl rfl
  exact noted.trans (noProgress_tellHandle _ _ _)

theorem noProgress_endJob (b : Bench) (destination i : Nat) (job : Job)
    (outcome : Except Fault Value) :
    NoProgress old b (b.endJob destination i job outcome) := by
  unfold endJob
  split
  · exact (noProgress_log b _).trans (noProgress_answerJob _ _ _ _ _)
  · split
    · exact noProgress_answerJob b _ _ _ _
    · exact .refl b

theorem pending_conclude (d : Destination) (ending : Ending) (batch : List Value) :
    (d.conclude ending batch).2.pending = d.pending := by
  cases ending with
  | byRule =>
    unfold Destination.conclude
    dsimp only
    split <;> rfl
  | raises _ | returns _ | fails _ => rfl

theorem noProgress_runJob (b : Bench) (destination job : Nat) :
    NoProgress old b (b.runJob destination job).2 := by
  unfold runJob
  split
  · exact .refl b
  · next d hd =>
    split
    · refine ((noProgress_setDestination hd ?_).trans (noProgress_tell _ _)).trans
        (noProgress_endJob _ _ _ _ _)
      exact pending_conclude _ _ _
    · exact .refl b

theorem noProgress_cancelJob (b : Bench) (destination job : Nat) :
    NoProgress old b (b.cancelJob destination job).2 := by
  unfold cancelJob
  split
  · exact .refl b
  · next d hd =>
    split
    · exact .refl b
    · next found _ =>
      split
      · exact .refl b
      · exact .refl b
      · have set : NoProgress old b
          (b.setJob destination d job { found with state := .cancelled }) :=
          noProgress_setDestination hd (by rfl)
        exact set.trans (noProgress_answerJob _ _ _ _ _)

theorem noProgress_shutDown (b : Bench) (destination : Nat) :
    NoProgress old b (b.shutDown destination) := by
  unfold shutDown
  split
  · exact .refl b
  · next d hd => exact noProgress_setDestination hd rfl

end Bench
end BatchWriter
