import BatchWriter.Proofs.Bench.Lockstep
import BatchWriter.Proofs.Bench.Tended

/-!
# Whole steps of twins

A call takes in what its point came to, and a whole step comes to the same for twins. So does an
alarm that rings, a loop that is closed, and a writer or a call that is new.
-/

set_option autoImplicit false

namespace BatchWriter
namespace Bench

/-! ## A bench with a new writer -/

section New

variable {b : Bench} {name other : String} {w : Writer} {i : Nat}

theorem get?_withNew (b : Bench) (name other : String) (w : Writer) :
    (b.withNew name w).names.get? other =
      if other = name then some b.writers.length else b.names.get? other := by
  rw [withNew]
  split
  · next same =>
    subst same
    exact Ledger.get?_alter_self _ _ _ _
  · next apart => exact Ledger.get?_alter_of_ne _ apart _ _

/-- Whoever goes by a name is the new writer, or went by the name before. -/
theorem known_withNew (known : (b.withNew name w).names.get? other = some i) :
    other = name ∧ i = b.writers.length ∨ other ≠ name ∧ b.names.get? other = some i := by
  rw [get?_withNew] at known
  split at known
  · next same => exact .inl ⟨same, (Option.some.inj known).symm⟩
  · next apart => exact .inr ⟨apart, known⟩

theorem Coherent.named_withNew {hand : Option Nat} (h : Coherent hand b)
    (named : ∀ one other i, b.names.get? one = some i → b.names.get? other = some i → one = other)
    (one other : String) (i : Nat) (known : (b.withNew name w).names.get? one = some i)
    (known' : (b.withNew name w).names.get? other = some i) : one = other := by
  rcases known_withNew known with ⟨same, new⟩ | ⟨-, old⟩
  · rcases known_withNew known' with ⟨same', -⟩ | ⟨-, old'⟩
    · exact same.trans same'.symm
    · exact absurd new (Nat.ne_of_lt (h.names _ _ old').lt)
  · rcases known_withNew known' with ⟨-, new'⟩ | ⟨-, old'⟩
    · exact absurd new' (Nat.ne_of_lt (h.names _ _ old).lt)
    · exact named one other i old old'

theorem issued_withNew {handle : Handle} (issued : b.Issued handle) :
    (b.withNew name w).Issued handle := by
  cases handle with
  | recorder label => trivial
  | batch j loop batch =>
    obtain ⟨u, hu, few⟩ := issued
    exact ⟨u, writer_kept hu name w, few⟩

end New

namespace Twins

variable {κ : Kinship} {b c : Bench} {id i : Nat} {name loop : LoopName}

/-! ## Calls -/

theorem watched (h : Twins κ b c) (loop : LoopName) (id : Nat) (watchers : List Watcher) :
    Twins κ (watchers.foldl (fun b w => b.post loop (w.callback id)) b)
      (watchers.foldl (fun b w => b.post loop (w.callback id)) c) := by
  induction watchers generalizing b c with
  | nil => exact h
  | cons w rest ih =>
    cases w with
    | forget destination =>
      exact ih (h.post rfl (.forget destination id) fun _ _ _ _ report => by cases report)
    | gather call =>
      exact ih (h.post rfl (.gathered call id) fun _ _ _ _ report => by cases report)

theorem shown {outcome outcome' : Except Fault Value} (label : String) :
    κ.OutcomeTwins outcome outcome' → κ.HappeningTwins
      (.ended label (match outcome with
        | .error fault => if fault.isCancelled then .error .cancelled else outcome
        | .ok _ => outcome))
      (.ended label (match outcome' with
        | .error fault => if fault.isCancelled then .error .cancelled else outcome'
        | .ok _ => outcome')) := by
  intro same
  cases same with
  | ok v => exact .inl rfl
  | error same =>
    rcases same with rfl | ⟨i, rfl⟩
    · exact .inl rfl
    · dsimp only
      rw [Fault.isCancelled_shifted]
      split
      · exact .inl rfl
      · exact .inr ⟨i, rfl⟩

theorem finish (h : Twins κ b c) (id : Nat) {outcome outcome' : Except Fault Value}
    (same : κ.OutcomeTwins outcome outcome') :
    Twins κ (b.finish id outcome) (c.finish id outcome') := by
  unfold Bench.finish
  rcases h.call id with ⟨none, none'⟩ | ⟨k, k', hk, hk', twins⟩
  · rw [none, none']
    exact h.rest
  · obtain ⟨label, loop, program, status, watchers⟩ := k
    obtain ⟨label', loop', program', status', watchers'⟩ := k'
    have known := twins
    obtain ⟨rfl, rfl, -, rfl, -, -⟩ := known
    simp only [hk, hk']
    have ended : Twins κ
        (Bench.setCall { b with running := none } id { label, loop, program, status := .ended })
        (Bench.setCall { c with running := none } id
          { label, loop, program := program', status := .ended }) :=
      h.rest.setCall id ⟨rfl, rfl, rfl, rfl, (fun live => nomatch live), fun live => nomatch live⟩
        fun _ _ sends => h.held _ (holds_call hk' sends)
    refine Twins.watched ?_ loop id watchers
    split
    · exact ended.tell (shown _ same)
    · exact ended

/-- A call takes the program and the status that its progress gives it. -/
theorem resolve (h : Twins κ b c) (id : Nat) {progress progress' : Progress}
    (same : ProgressTwins κ c loop progress progress')
    (own : ∀ k', c.calls[id]? = some k' → k'.loop = loop) :
    Twins κ (b.resolve id progress) (c.resolve id progress') := by
  -- A call goes on with the next program.
  have taken : ∀ {p p' : Program} (s : Status), NextTwins κ c loop p p' →
      Twins κ
        { b with calls := b.calls.modify id fun k => { k with program := p, status := s } }
        { c with calls := c.calls.modify id fun k => { k with program := p', status := s } } := by
    intro p p' s next
    rcases h.call id with ⟨none, none'⟩ | ⟨k, k', hk, hk', twins⟩
    · rw [List.modify_eq_set_getElem?, List.modify_eq_set_getElem?, none, none']
      exact h
    · rw [modify_call hk, modify_call hk']
      refine h.setCall id ⟨twins.label, twins.loop, rfl, twins.watchers, fun _ => next.alike,
        fun _ => ?_⟩ next.issued
      rw [own k' hk']
      exact next.welcome
  cases same with
  | go next => exact (taken .running next).run id
  | yield next =>
    have queued := taken (.queued false) next
    unfold Bench.resolve
    rcases h.call id with ⟨none, none'⟩ | ⟨k, k', hk, hk', twins⟩
    · simp only [none, none']
      exact h.rest
    · rw [modify_call hk, modify_call hk'] at queued
      simp only [hk, hk']
      exact queued.rest.post twins.loop (.resume id) fun _ _ _ _ report => by cases report
  | sleep delay next =>
    exact ((taken (.waiting .alarm) next).setAlarm delay (x := .wake id) fun _ _ own => by
      cases own).rest
  | wait on next => exact (taken (.waiting on) next).rest
  | finish same => exact h.finish id same

theorem proceed (h : Twins κ b c) (orderly : Orderly b) (running : b.running = some id)
    (mute : κ.silent = true → ∀ k, b.calls[id]? = some k → b.tells k.program = false) :
    Twins κ (b.proceed id) (c.proceed id) := by
  unfold Bench.proceed
  rcases h.call id with ⟨none, none'⟩ | ⟨k, k', hk, hk', twins⟩
  · rw [none, none']
    exact h.rest
  · obtain ⟨status, live, fits, -⟩ := orderly.runs running hk
    have live' : k'.isEnded = false := twins.isEnded.symm.trans live
    have next : NextTwins κ c k'.loop k.program k'.program :=
      { alike := twins.program live'
        welcome := twins.welcome live'
        issued := fun _ _ sends => h.held _ (holds_call hk' sends) }
    simp only [hk, hk', twins.loop] at fits ⊢
    have point := h.advanceProgram id next fits fun silent => mute silent k hk
    refine point.bench.resolve id point.progress fun u hu => ?_
    obtain ⟨v, hv, keeps⟩ :=
      (stays_advanceProgram (known_any c) id k'.loop k'.program).kept id k' hk'
    rw [hu, Option.some.injEq] at hv
    exact hv ▸ keeps.loop

theorem resume (h : Twins κ b c) (id : Nat) : Twins κ (b.resume id) (c.resume id) := by
  unfold Bench.resume
  rcases h.call id with ⟨none, none'⟩ | ⟨k, k', hk, hk', twins⟩
  · rw [none, none']
    exact h
  · simp only [hk, hk', twins.status]
    split
    · next queued =>
      have live : k'.isEnded = false := by rw [Call.isEnded, queued]
      have next : NextTwins κ c k'.loop k.program k'.program :=
        { alike := twins.program live
          welcome := twins.welcome live
          issued := fun _ _ sends => h.held _ (holds_call hk' sends) }
      have point := h.interruptProgram id next
      refine point.bench.resolve id point.progress fun u hu => ?_
      obtain ⟨v, hv, keeps⟩ :=
        (@stays_interruptProgram anyId c id k'.program).kept id k' hk'
      rw [hu, Option.some.injEq] at hv
      exact hv ▸ keeps.loop
    · next queued =>
      exact (h.run id).setStatus hk' twins (by rw [Call.isEnded, queued]) .running
    · exact h

/-! ## Steps -/

/-- A callback runs that was on the ready queue of the loop. -/
theorem runCallback (h : Twins κ b c) (lawful : ∀ (j : Nat) (w : Writer),
    c.writers[j]? = some w → w.Lawful) (loop : LoopName) {cb : Callback}
    (fits : b.CallbackFits loop (κ.callback cb))
    (late : ∀ i batch report, κ.retired = some i → cb = .report i batch report →
      batch ≤ (κ.writer κ.heir).shift) :
    Twins κ (b.runCallback loop (κ.callback cb)) (c.runCallback loop cb) := by
  cases cb with
  | resume call => exact h.resume call
  | report i batch report =>
    by_cases gone : κ.retired = some i
    · exact (h.receive_past lawful gone (late i batch report gone rfl) loop report).endCallback
    · exact (h.receive gone fits batch report).endCallback
  | forget destination call => exact h.forget destination call
  | gathered call child => exact h.countGathered call child

theorem pop_eventLoop (l : EventLoop Callback) :
    (κ.eventLoop l).pop? = l.pop?.map fun x => (κ.callback x.1, κ.eventLoop x.2) := by
  unfold EventLoop.pop?
  cases hr : l.ready with
  | nil => simp [Kinship.eventLoop, hr]
  | cons cb rest => simp [Kinship.eventLoop, hr]

/-- The next callback of a loop leaves its ready queue and runs. -/
theorem popped (h : Twins κ b c) (orderly : Orderly b) (orderly' : Orderly c) {loop : LoopName}
    {l : EventLoop Callback} {cb : Callback} (pop : (c.loop loop).pop? = some (cb, l)) :
    Twins κ ((b.setLoop loop (κ.eventLoop l)).runCallback loop (κ.callback cb))
      ((c.setLoop loop l).runCallback loop cb) := by
  obtain ⟨ready, -⟩ := ready_of_pop pop
  have late : ∀ x ∈ (c.loop loop).ready, ∀ i batch report, κ.retired = some i →
      x = .report i batch report → batch ≤ (κ.writer κ.heir).shift := by
    rintro x hm i batch report gone rfl
    exact h.late i batch report loop gone hm
  rw [ready] at late
  have taken := h.setLoop loop (l := l) fun i batch report gone hm =>
    late _ (List.mem_cons_of_mem _ hm) i batch report gone rfl
  have fits : b.CallbackFits loop (κ.callback cb) := by
    refine orderly.coherent.callbacks loop _ ?_
    rw [h.loop]
    exact List.mem_map_of_mem (ready ▸ List.mem_cons_self)
  refine taken.runCallback (fun j w hw => ?_) loop ?_ (late cb List.mem_cons_self)
  · rw [writers_setLoop] at hw
    exact orderly'.coherent.writers w (List.mem_of_getElem? hw)
  · exact (Extends.of_writers (writers_setLoop _ _ _)).callback fits

/-- Both benches take a step or both are idle. -/
theorem step (h : Twins κ b c) (orderly : Orderly b) (orderly' : Orderly c)
    (mute : κ.silent = true → ∀ id k, b.running = some id → b.calls[id]? = some k →
      b.tells k.program = false) : Option.Rel (Twins κ) b.step c.step := by
  unfold Bench.step
  rw [← h.running]
  cases running : b.running with
  | some id =>
    exact .some (h.proceed orderly running fun silent k hk => mute silent id k running hk)
  | none =>
    dsimp only
    unfold Bench.nextCallback?
    rw [h.loop, h.loop, h.turn, pop_eventLoop, pop_eventLoop]
    cases own : (c.loop c.turn).pop? with
    | some next => exact .some (h.popped orderly orderly' own)
    | none =>
      cases other : (c.loop c.turn.other).pop? with
      | none => exact .none
      | some next =>
        have swap : ∀ (a : Bench) (name : LoopName) (l : EventLoop Callback),
            ({ a with turn := name } : Bench).setLoop name l =
              { a.setLoop name l with turn := name } := by
          intro a name l
          cases name <;> rfl
        have same : ({ c with turn := c.turn.other } : Bench).loop c.turn.other =
            c.loop c.turn.other := by cases c.turn.other <;> rfl
        have turned := (h.setTurn c.turn.other).popped (orderly.turn _) (orderly'.turn _)
          ((congrArg EventLoop.pop? same).trans other)
        rw [swap, swap] at turned
        exact .some turned

/-- The alarm at a place rings on both benches or on neither. -/
theorem ringAt?_timetable (h : Twins κ b c) (limit place : Nat) : b.time.ringAt? limit place =
    (c.time.ringAt? limit place).map fun x => (κ.ring x.1, κ.timetable x.2) := by
  have first : ∀ due, (κ.timetable c.time).alarms.all (fun a => a.due.all (due ≤ ·)) =
      c.time.alarms.all fun a => a.due.all (due ≤ ·) := fun due => List.all_map
  unfold Timetable.ringAt?
  rw [h.time]
  simp only [first]
  rw [show (κ.timetable c.time).alarms[place]? = _ from List.getElem?_map]
  cases known : c.time.alarms[place]? with
  | none => rfl
  | some a =>
    obtain ⟨due, action⟩ := a
    cases due with
    | none => rfl
    | some instant =>
      have own := h.alarms _ (List.mem_of_getElem? known)
      dsimp only [Option.map_some]
      rw [cancel_timetable h.alarms own]
      split <;> rfl

theorem setTime (h : Twins κ b c) {t : Timetable Ring}
    (alarms : ∀ a ∈ t.alarms, ∀ i alarm, a.action = .writer i alarm → κ.Live i) :
    Twins κ { b with time := κ.timetable t } { c with time := t } :=
  { h with time := rfl, alarms }

theorem ring (h : Twins κ b c) (orderly : Orderly c) {limit : Nat} {r : Ring}
    {time : Timetable Ring} (due : c.time.Rings limit r time) :
    Twins κ (Bench.ring { b with time := κ.timetable time } (κ.ring r))
      (Bench.ring { c with time } r) := by
  obtain ⟨-, kept, a, set, action⟩ := rung due
  have passed := h.setTime (t := time) fun x hx => by
    rw [kept] at hx
    exact h.alarms x (List.mem_of_mem_filter hx)
  cases r with
  | writer i alarm =>
    have live := h.alarms a set i alarm action
    cases alarm with
    | flush =>
      have bound := orderly.coherent.alarms a set
      rw [action] at bound
      exact (passed.bufferAlarm live bound).endCallback
    | expire batch =>
      refine (passed.change live (fun w w' _ _ same => ?_)
        fun w' => (w'.regular_expire time.now batch).later).endCallback
      exact .expire same time.now batch
  | wake id =>
    simp only [Kinship.ring, Bench.ring]
    rcases passed.call id with ⟨none, none'⟩ | ⟨k, k', hk, hk', twins⟩
    · simp only [none, none']
      exact passed
    · simp only [hk, hk', twins.status]
      split
      · next waits => exact passed.queue hk' twins (by rw [Call.isEnded, waits]) false
      · exact passed

theorem wait (h : Twins κ b c) (instant : Nat) :
    Twins κ { b with time := b.time.moveTo instant } { c with time := c.time.moveTo instant } := by
  have moved := h.setTime (t := c.time.moveTo instant) h.alarms
  rw [h.time]
  exact moved

theorem loopOf (h : Twins κ b c) (orderly : Orderly c) (timely : Timely c) {a : Alarm Ring}
    (set : a ∈ c.time.alarms) : b.loopOf (κ.ring a.action) = c.loopOf a.action := by
  cases action : a.action with
  | wake id =>
    unfold Bench.loopOf
    rcases h.call id with ⟨none, none'⟩ | ⟨k, k', hk, hk', twins⟩
    · simp only [Kinship.ring, none, none']
    · simp only [Kinship.ring, hk, hk', Option.map_some, twins.loop]
  | writer i alarm =>
    have live := h.alarms a set i alarm action
    unfold Bench.loopOf
    rcases h.writer live with ⟨none, none'⟩ | ⟨w, w', hw, hw', twins⟩
    · simp only [Kinship.ring, none, none']
    · simp only [Kinship.ring, hw, hw', Option.bind_some]
      congr 1
      refine twins.loop.resolve_right ?_
      rintro ⟨free, -, -, none⟩
      have ringing : c.alarmsOf i alarm = true :=
        List.any_eq_true.2 ⟨a, set, decide_eq_true action⟩
      cases alarm with
      | flush =>
        have bound := orderly.coherent.alarms a set
        rw [action] at bound
        obtain ⟨name, u, hu, bound⟩ := bound
        rw [Option.some.inj (hu.symm.trans hw'), free] at bound
        cases bound
      | expire n =>
        have isOpen := (timely.timed i w' hw').expire n ringing
        rw [InFlight.ids, none] at isOpen
        cases isOpen

theorem closeLoop (h : Twins κ b c) (orderly : Orderly c) (timely : Timely c) (name : LoopName) :
    Twins κ (b.closeLoop name) (c.closeLoop name) := by
  have kept := h.setTime (t := { c.time with
    alarms := c.time.alarms.filter fun a => c.loopOf a.action ≠ name })
    fun a hm => h.alarms a (List.mem_of_mem_filter hm)
  have same : { b.time with alarms := b.time.alarms.filter fun a => b.loopOf a.action ≠ name } =
      κ.timetable { c.time with
        alarms := c.time.alarms.filter fun a => c.loopOf a.action ≠ name } := by
    rw [h.time]
    simp only [Kinship.timetable, List.filter_map, Timetable.mk.injEq, true_and]
    congr 1
    refine List.filter_congr fun a hm => ?_
    simp only [Function.comp_apply, h.loopOf orderly timely hm]
  unfold Bench.closeLoop
  dsimp only at same ⊢
  rw [same]
  exact kept.setLoop name (l := { ready := [], closed := true }) fun _ _ _ _ hm => by cases hm

/-! ## New writers and calls -/

/-- A new writer takes its place after all others on both sides. -/
theorem writers_withNew (h : Twins κ b c) (name : String) (w : Writer) {j : Nat}
    (lives : κ.Live j) :
    Option.Rel (Writer.Twins (κ.writer j)) (b.withNew name w).writers[κ.place j]?
      (c.withNew name w).writers[j]? := by
  obtain ⟨place, base⟩ := h.size
  obtain ⟨-, kin, live⟩ := κ.onward _ base
  show Option.Rel _ (b.writers ++ [w])[κ.place j]? (c.writers ++ [w])[j]?
  by_cases own : j = c.writers.length
  · subst own
    rw [place, List.getElem?_concat_length, List.getElem?_concat_length, kin]
    exact .some (.refl w)
  · rcases h.writer lives with ⟨none, none'⟩ | ⟨u, u', hu, hu', twins⟩
    · have apart : κ.place j ≠ b.writers.length := fun same =>
        own (κ.injective j _ lives live (same.trans place.symm))
      rw [List.getElem?_eq_none_iff] at none none'
      rw [List.getElem?_eq_none (by simp; omega), List.getElem?_eq_none (by simp; omega)]
      exact .none
    · rw [List.getElem?_append_left (List.getElem?_eq_some_iff.1 hu).1, hu,
        List.getElem?_append_left (List.getElem?_eq_some_iff.1 hu').1, hu']
      exact .some twins

theorem withNew (h : Twins κ b c) (orderly : Orderly c) (name : String) (w : Writer) :
    Twins κ (b.withNew name w) (c.withNew name w) := by
  obtain ⟨place, base⟩ := h.size
  obtain ⟨onward, -, live⟩ := κ.onward _ base
  refine { h with
    writers := fun j lives => h.writers_withNew name w lives
    named := orderly.coherent.named_withNew h.named
    held := fun handle holds => issued_withNew (h.held handle holds)
    size := ?_, names := fun other => ?_, retired := fun i gone => ?_
    living := fun other i known => ?_, titled := fun other i gone known => ?_ }
  · simp only [Bench.withNew, List.length_append, List.length_singleton]
    omega
  · rw [get?_withNew, get?_withNew]
    split
    · rw [Option.map_some, place]
    · exact h.names other
  · obtain ⟨u, hu, rest⟩ := h.retired i gone
    exact ⟨u, writer_kept hu name w, rest⟩
  · rcases known_withNew known with ⟨-, rfl⟩ | ⟨-, known⟩
    · exact live
    · exact h.living other i known
  · rcases known_withNew known with ⟨-, new⟩ | ⟨-, known⟩
    · have before := (κ.inherits i gone).2.2
      omega
    · exact h.titled other i gone known

theorem create (h : Twins κ b c) (orderly : Orderly c) (name : String) (spec : WriterSpec) :
    (b.create name spec).1 = (c.create name spec).1 ∧
      Twins κ (b.create name spec).2 (c.create name spec).2 := by
  have found : b.destinationFor spec.destination = c.destinationFor spec.destination := by
    rw [Bench.destinationFor, h.destinationIndex?, Bench.destinationFor]
  obtain ⟨place, base⟩ := h.size
  obtain ⟨-, kin, live⟩ := κ.onward _ base
  unfold Bench.create
  dsimp only
  rw [h.now, found]
  split
  · exact ⟨rfl, h⟩
  · next new _ =>
    have added := h.withNew orderly name new.writer
    have measured : Twins κ
        { b.withNew name new.writer with metrics := b.metrics.register new.writer.label }
        { c.withNew name new.writer with metrics := c.metrics.register new.writer.label } :=
      { added with
        metrics := fun silent => congrArg (·.register new.writer.label) (h.metrics silent) }
    have told := measured.foldl_perform (i := c.writers.length) live new.writer.label new.effects
    have same :
        new.effects.map (Effect.shifted (κ.writer c.writers.length).shift) = new.effects := by
      rw [kin, show Effect.shifted ({} : Writer.Kinship).shift = id from funext Effect.shifted_zero,
        List.map_id]
    rw [same, place] at told
    exact ⟨rfl, told⟩

theorem writerIndex (h : Twins κ b c) (name : String) :
    b.writerIndex name = (c.writerIndex name).map κ.place := by
  unfold Bench.writerIndex
  rw [h.names]
  cases c.names.get? name <;> rfl

/-- A task has the same program, on the writer in its place. -/
theorem programOf (h : Twins κ b c) (label : String) (task : Task) :
    b.programOf label task = (c.programOf label task).map κ.program := by
  have index : ∀ name, b.destinationIndex name = c.destinationIndex name := fun name => by
    rw [Bench.destinationIndex, h.destinationIndex?, Bench.destinationIndex]
  cases task with
  | write name element context =>
    simp only [Bench.programOf, h.writerIndex]
    cases c.writerIndex name with
    | error fault => rfl
    | ok i => cases context.mapM Context.ofArguments <;> rfl
  | writeAll name elements =>
    simp only [Bench.programOf, h.writerIndex]
    cases c.writerIndex name <;> rfl
  | commit name flush =>
    simp only [Bench.programOf, h.writerIndex]
    cases c.writerIndex name <;> rfl
  | close name | enter name =>
    simp only [Bench.programOf, h.writerIndex]
    cases c.writerIndex name <;> rfl
  | publish bus event =>
    simp only [Bench.programOf]
    cases Event.ofArguments event <;> rfl
  | submit name entries =>
    simp only [Bench.programOf, index]
    cases c.destinationIndex name <;> rfl
  | drain name =>
    simp only [Bench.programOf, index]
    cases c.destinationIndex name with
    | error fault => rfl
    | ok i =>
      have adapter : (b.destinations[i]?).map Destination.adapter =
          (c.destinations[i]?).map Destination.adapter := by
        rw [h.destination, Option.map_map]
        rfl
      simp only [Bind.bind, Except.bind, adapter]
      split <;> rfl

end Twins
end Bench
end BatchWriter
