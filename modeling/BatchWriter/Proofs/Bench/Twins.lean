import BatchWriter.Proofs.Bench.Gate
import BatchWriter.Proofs.Bench.Timely
import BatchWriter.Proofs.Writer.Twins

/-!
# Twin benches

Two benches are twins if they differ only in the places of their writers, in the numbers of the
batches and, where the second one is silent, in what is published and told to subscribers. Each
thing of the second bench stands for a thing of the first one. The second bench may have one
writer more, which is retired: nothing works with it, and reports for it come to nothing.
-/

set_option autoImplicit false

namespace BatchWriter

section Lists

variable {α β : Type} {R : α → β → Prop} {xs : List α} {ys : List β}

theorem rel_cases {x : Option α} {y : Option β} (h : Option.Rel R x y) :
    (x = none ∧ y = none) ∨ ∃ a b, x = some a ∧ y = some b ∧ R a b := by
  cases h with
  | none => exact .inl ⟨rfl, rfl⟩
  | some related => exact .inr ⟨_, _, rfl, rfl, related⟩

theorem forall₂_getElem? (h : List.Forall₂ R xs ys) (i : Nat) : Option.Rel R xs[i]? ys[i]? := by
  induction h generalizing i with
  | nil => exact .none
  | cons first _ ih =>
    cases i with
    | zero => exact .some first
    | succ i => exact ih i

theorem forall₂_set (h : List.Forall₂ R xs ys) (i : Nat) {x : α} {y : β} (related : R x y) :
    List.Forall₂ R (xs.set i x) (ys.set i y) := by
  induction h generalizing i with
  | nil => exact .nil
  | cons first rest ih =>
    cases i with
    | zero => exact .cons related rest
    | succ i => exact .cons first (ih i)

end Lists

def Happening.shifted (n : Nat) : Happening → Happening
  | .ended label (.error fault) => .ended label (.error (fault.shifted n))
  | .noticed notice => .noticed (notice.shifted n)
  | .escaped fault => .escaped (fault.shifted n)
  | other => other

theorem Happening.shifted_zero (x : Happening) : x.shifted 0 = x := by
  cases x with
  | ended label outcome => cases outcome <;> simp [Happening.shifted]
  | noticed n => exact congrArg Happening.noticed n.shifted_zero
  | escaped fault => simp [Happening.shifted]
  | _ => rfl

def Program.worksOn? : Program → Option Nat
  | .write job _ => some job.writer
  | .commit job _ => some job.writer
  | .close writer | .enter writer => some writer
  | _ => none

def WritePoint.Plain : WritePoint → Prop
  | .publishing _ _ => False
  | _ => True

def Program.Plain : Program → Prop
  | .write _ point => point.Plain
  | .deliver _ => False
  | _ => True

namespace Bench

/-- How the second one of two benches is to be read as the first one. -/
structure Kinship where
  /-- The place in the first bench of the writer at a place of the second one. -/
  place : Nat → Nat
  /-- How the writers at a place are related. -/
  writer : Nat → Writer.Kinship
  /-- The place in the second bench of a writer with which nothing works any more. -/
  retired : Option Nat := none
  /-- The place of the writer that was built in its stead. -/
  heir : Nat := 0
  /-- The name under which it was built. -/
  title : String := ""
  /-- From this place on writers were built in both benches. -/
  base : Nat := 0
  /-- The buses of the second bench have no subscribers. -/
  silent : Bool := false
  injective : ∀ i j, retired ≠ some i → retired ≠ some j → place i = place j → i = j
  succeeds : retired ≠ some heir
  inherits : ∀ i, retired = some i → place heir = place i ∧ (writer i).shift = 0 ∧ heir < base
  onward : ∀ i, base ≤ i → place (i + 1) = place i + 1 ∧ writer i = {} ∧ retired ≠ some i

namespace Kinship

variable (κ : Kinship)

def Live (i : Nat) : Prop := κ.retired ≠ some i

def ring : Ring → Ring
  | .writer i alarm => .writer (κ.place i) (alarm.shifted (κ.writer i).shift)
  | .wake call => .wake call

def callback : Callback → Callback
  | .report i batch report => .report (κ.place i) (batch + (κ.writer i).shift) report
  | other => other

def handle : Handle → Handle
  | .batch i loop batch => .batch (κ.place i) loop (batch + (κ.writer i).shift)
  | .recorder label => .recorder label

def timetable (t : Timetable Ring) : Timetable Ring :=
  { t with alarms := t.alarms.map fun a => { a with action := κ.ring a.action } }

def eventLoop (l : EventLoop Callback) : EventLoop Callback :=
  { l with ready := l.ready.map κ.callback }

def job (j : Job) : Job := { j with handle := κ.handle j.handle }

def destination (d : Destination) : Destination :=
  { d with calls := d.calls.map fun c => (κ.handle c.1, c.2), jobs := d.jobs.map κ.job }

def writeJob (j : WriteJob) : WriteJob := { j with writer := κ.place j.writer }

def commitJob (j : CommitJob) : CommitJob := { j with writer := κ.place j.writer }

def sendJob (j : SendJob) : SendJob := { j with handle := κ.handle j.handle }

def program : Program → Program
  | .write job point => .write (κ.writeJob job) point
  | .commit job point => .commit (κ.commitJob job) point
  | .close i => .close (κ.place i)
  | .enter i => .enter (κ.place i)
  | .send job point => .send (κ.sendJob job) point
  | other => other

section Same

variable {κ}

theorem timetable_eq {t : Timetable Ring} (same : ∀ a ∈ t.alarms, κ.ring a.action = a.action) :
    κ.timetable t = t := by
  have alarms : (t.alarms.map fun a => { a with action := κ.ring a.action }) = t.alarms :=
    (List.map_congr_left fun a ha => by rw [same a ha]; rfl).trans (List.map_id _)
  rw [timetable, alarms]

theorem eventLoop_eq {l : EventLoop Callback} (same : ∀ cb ∈ l.ready, κ.callback cb = cb) :
    κ.eventLoop l = l := by
  have ready : l.ready.map κ.callback = l.ready :=
    (List.map_congr_left same).trans (List.map_id _)
  rw [eventLoop, ready]

theorem destination_eq {d : Destination} (calls : ∀ c ∈ d.calls, κ.handle c.1 = c.1)
    (jobs : ∀ j ∈ d.jobs, κ.handle j.handle = j.handle) : κ.destination d = d := by
  have called : (d.calls.map fun c => (κ.handle c.1, c.2)) = d.calls :=
    (List.map_congr_left fun c hc => by rw [calls c hc]; rfl).trans (List.map_id _)
  have queued : d.jobs.map κ.job = d.jobs :=
    (List.map_congr_left fun j hj => by rw [job, jobs j hj]; rfl).trans (List.map_id _)
  rw [destination, called, queued]

end Same

/-- The programs do the same. Where the second bench is silent, nobody is told anything there. -/
inductive Alike : Program → Program → Prop
  | same (p : Program) (plain : κ.silent = true → p.Plain) : Alike (κ.program p) p
  | telling (silent : κ.silent = true) (job : WriteJob) (delivery : Delivery) {next : WritePoint}
      (plain : next.Plain) (prompt : delivery.attention.Prompt) :
      Alike (.write (κ.writeJob job) (.publishing delivery next)) (.write job next)
  | delivering (silent : κ.silent = true) (delivery : Delivery) (bus : String) (event : Event)
      (prompt : delivery.attention.Prompt) :
      Alike (.deliver delivery) (.publish bus event)

/-- On the loop the program may work on its writer, which is bound there in the first bench. -/
def Welcome (loop : LoopName) (p : Program) : Prop :=
  ∀ i, p.worksOn? = some i → κ.Live i ∧ ∀ home, (κ.writer i).home = some home → loop = home

structure CallTwins (c c' : Call) : Prop where
  label : c.label = c'.label
  loop : c.loop = c'.loop
  status : c.status = c'.status
  watchers : c.watchers = c'.watchers
  program : c'.isEnded = false → κ.Alike c.program c'.program
  welcome : c'.isEnded = false → κ.Welcome c'.loop c'.program

theorem CallTwins.isEnded {κ : Kinship} {c c' : Call} (h : κ.CallTwins c c') :
    c.isEnded = c'.isEnded := by
  rw [Call.isEnded, Call.isEnded, h.status]

def FaultTwins (f f' : Fault) : Prop := f = f' ∨ ∃ i, f = f'.shifted (κ.writer i).shift

def HappeningTwins (x x' : Happening) : Prop := x = x' ∨ ∃ i, x = x'.shifted (κ.writer i).shift

/-- Whether what happened is to be seen in both benches. Where the second one is silent that
leaves out whatever subscribers are told and all notices; else, that reports came to nothing
and that a writer was built with entries. -/
def Heeds (x : Happening) : Bool :=
  match x with
  | .noticed n =>
    !κ.silent && match n with
      | .completionAfterClose _ _ | .completionUnknown _ _ | .failureUnknown _ _ _
      | .restored _ _ => false
      | _ => true
  | .delivered _ _ => !κ.silent
  | _ => true

end Kinship

def Issued (b : Bench) : Handle → Prop
  | .batch i _ batch => ∃ w : Writer, b.writers[i]? = some w ∧ batch ≤ w.inFlight.issued
  | .recorder _ => True

def Holds (b : Bench) (handle : Handle) : Prop :=
  (∃ d ∈ b.destinations, (∃ c ∈ d.calls, c.1 = handle) ∨ ∃ j ∈ d.jobs, j.handle = handle) ∨
    ∃ c ∈ b.calls, ∃ job point, c.program = .send job point ∧ job.handle = handle

/-- The second bench is to be read as the first one. -/
structure Twins (κ : Kinship) (b c : Bench) : Prop where
  time : b.time = κ.timetable c.time
  main : b.main = κ.eventLoop c.main
  alt : b.alt = κ.eventLoop c.alt
  turn : b.turn = c.turn
  running : b.running = c.running
  calls : List.Forall₂ κ.CallTwins b.calls c.calls
  writers : ∀ i, κ.Live i →
    Option.Rel (Writer.Twins (κ.writer i)) b.writers[κ.place i]? c.writers[i]?
  size : κ.place c.writers.length = b.writers.length ∧ κ.base ≤ c.writers.length
  names : ∀ name, b.names.get? name = (c.names.get? name).map κ.place
  destinations : b.destinations = c.destinations.map κ.destination
  subscribers : b.subscribers = c.subscribers
  answers : b.answers = c.answers
  buses : if κ.silent then ∀ bus, c.subscribersOf bus = [] else b.buses = c.buses
  metrics : κ.silent = true → b.metrics = c.metrics
  trace : List.Forall₂ κ.HappeningTwins (b.trace.filter κ.Heeds) (c.trace.filter κ.Heeds)
  /-- The retired writer has no batch under way and opens none. -/
  retired : ∀ i, κ.retired = some i → ∃ w : Writer, c.writers[i]? = some w ∧
    w.inFlight.requests = [] ∧ w.inFlight.issued ≤ (κ.writer κ.heir).shift
  /-- Reports for the retired writer are late. -/
  late : ∀ i batch report name, κ.retired = some i →
    Callback.report i batch report ∈ (c.loop name).ready → batch ≤ (κ.writer κ.heir).shift
  alarms : ∀ a ∈ c.time.alarms, ∀ i alarm, a.action = .writer i alarm → κ.Live i
  /-- Each name stands for a writer of its own. -/
  named : ∀ name other i, c.names.get? name = some i → c.names.get? other = some i → name = other
  living : ∀ name i, c.names.get? name = some i → κ.Live i
  titled : ∀ name i, κ.retired = some i → c.names.get? name = some κ.heir → name = κ.title
  held : ∀ handle, c.Holds handle → c.Issued handle

namespace Twins

variable {κ : Kinship} {b c : Bench} {id i : Nat} {name : LoopName}

/-! ## What twins have in common -/

section Common

variable (h : Twins κ b c)
include h

theorem now : b.now = c.now := by
  rw [Bench.now, h.time]
  rfl

theorem loop (name : LoopName) : b.loop name = κ.eventLoop (c.loop name) := by
  cases name with
  | main => exact h.main
  | alt => exact h.alt

theorem closed (name : LoopName) : (b.loop name).closed = (c.loop name).closed := by
  rw [h.loop]
  rfl

theorem call (id : Nat) : (b.calls[id]? = none ∧ c.calls[id]? = none) ∨
    ∃ k k', b.calls[id]? = some k ∧ c.calls[id]? = some k' ∧ κ.CallTwins k k' :=
  rel_cases (forall₂_getElem? h.calls id)

theorem writer (live : κ.Live i) :
    (b.writers[κ.place i]? = none ∧ c.writers[i]? = none) ∨
      ∃ w w', b.writers[κ.place i]? = some w ∧ c.writers[i]? = some w' ∧
        Writer.Twins (κ.writer i) w w' :=
  rel_cases (h.writers i live)

theorem length_calls : b.calls.length = c.calls.length := h.calls.length_eq

theorem destination (i : Nat) :
    b.destinations[i]? = (c.destinations[i]?).map κ.destination := by
  rw [h.destinations, List.getElem?_map]

end Common

/-! ## Small changes on both sides -/

theorem heeds_shifted (n : Nat) (x : Happening) : κ.Heeds (x.shifted n) = κ.Heeds x := by
  cases x with
  | ended label outcome => cases outcome <;> rfl
  | noticed notice =>
    cases notice with
    | completionDropped batch =>
      simp only [Happening.shifted, Notice.shifted]
      split <;> simp_all [Kinship.Heeds]
    | _ => rfl
  | _ => rfl

theorem heeds_eq {x x' : Happening} (same : κ.HappeningTwins x x') : κ.Heeds x = κ.Heeds x' := by
  rcases same with rfl | ⟨i, rfl⟩
  · rfl
  · exact heeds_shifted _ _

theorem tell (h : Twins κ b c) {x y : Happening} (same : κ.HappeningTwins x y) :
    Twins κ (b.tell x) (c.tell y) := by
  refine { h with trace := ?_ }
  show List.Forall₂ _ ((x :: b.trace).filter κ.Heeds) ((y :: c.trace).filter κ.Heeds)
  rw [List.filter_cons, List.filter_cons, heeds_eq same]
  split
  · exact .cons same h.trace
  · exact h.trace

theorem log (h : Twins κ b c) (n : Notice) : Twins κ (b.log n) (c.log n) := h.tell (.inl rfl)

theorem tell_first (h : Twins κ b c) {x : Happening} (hidden : κ.Heeds x = false) :
    Twins κ (b.tell x) c := by
  refine { h with trace := ?_ }
  show List.Forall₂ _ ((x :: b.trace).filter κ.Heeds) _
  rw [List.filter_cons, hidden]
  exact h.trace

theorem tell_second (h : Twins κ b c) {x : Happening} (hidden : κ.Heeds x = false) :
    Twins κ b (c.tell x) := by
  refine { h with trace := ?_ }
  show List.Forall₂ _ _ ((x :: c.trace).filter κ.Heeds)
  rw [List.filter_cons, hidden]
  exact h.trace

theorem setTurn (h : Twins κ b c) (name : LoopName) :
    Twins κ { b with turn := name } { c with turn := name } := { h with turn := rfl }

theorem rest (h : Twins κ b c) : Twins κ { b with running := none } { c with running := none } :=
  { h with running := rfl }

theorem run (h : Twins κ b c) (id : Nat) :
    Twins κ { b with running := some id } { c with running := some id } := { h with running := rfl }

theorem setLoop (h : Twins κ b c) (name : LoopName) {l : EventLoop Callback}
    (late : ∀ i batch report, κ.retired = some i → Callback.report i batch report ∈ l.ready →
      batch ≤ (κ.writer κ.heir).shift) :
    Twins κ (b.setLoop name (κ.eventLoop l)) (c.setLoop name l) := by
  cases name with
  | main =>
    refine { h with main := rfl, late := fun i batch report name gone hm => ?_ }
    cases name with
    | main => exact late i batch report gone hm
    | alt => exact h.late i batch report .alt gone hm
  | alt =>
    refine { h with alt := rfl, late := fun i batch report name gone hm => ?_ }
    cases name with
    | main => exact h.late i batch report .main gone hm
    | alt => exact late i batch report gone hm

theorem post_eventLoop (l : EventLoop Callback) (cb : Callback) :
    (κ.eventLoop l).post (κ.callback cb) = κ.eventLoop (l.post cb) := by
  unfold EventLoop.post
  by_cases closed : l.closed = true
  · rw [if_pos closed, if_pos (by exact closed)]
  · rw [if_neg closed, if_neg (by exact closed)]
    simp [Kinship.eventLoop]

theorem post (h : Twins κ b c) {name name' : LoopName} (same : name = name') (cb : Callback)
    (late : ∀ i batch report, κ.retired = some i → cb = .report i batch report →
      batch ≤ (κ.writer κ.heir).shift) :
    Twins κ (b.post name (κ.callback cb)) (c.post name' cb) := by
  subst same
  rw [Bench.post, h.loop, post_eventLoop]
  refine h.setLoop name fun i batch report gone hm => ?_
  have was := h.late i batch report name gone
  unfold EventLoop.post at hm
  split at hm
  · exact was hm
  · rcases List.mem_append.1 hm with hm | hm
    · exact was hm
    · exact late i batch report gone (List.mem_singleton.1 hm).symm

theorem setCall (h : Twins κ b c) (id : Nat) {k k' : Call} (same : κ.CallTwins k k')
    (held : ∀ job point, k'.program = .send job point → c.Issued job.handle) :
    Twins κ (b.setCall id k) (c.setCall id k') := by
  refine { h with calls := forall₂_set h.calls id same, held := ?_ }
  rintro handle (destinations | ⟨k'', hm, job, point, sends, rfl⟩)
  · exact h.held handle (.inl destinations)
  · rcases List.mem_or_eq_of_mem_set hm with hm | rfl
    · exact h.held _ (.inr ⟨k'', hm, job, point, sends, rfl⟩)
    · exact held job point sends

theorem setDestination (h : Twins κ b c) (i : Nat) {d : Destination}
    (held : ∀ handle, (∃ k ∈ d.calls, k.1 = handle) ∨ (∃ j ∈ d.jobs, j.handle = handle) →
      c.Issued handle) :
    Twins κ (b.setDestination i (κ.destination d)) (c.setDestination i d) := by
  refine { h with destinations := ?_, held := ?_ }
  · show b.destinations.set i _ = (c.destinations.set i d).map _
    rw [h.destinations, List.map_set]
  · rintro handle (⟨d', hm, holds⟩ | calls)
    · rcases List.mem_or_eq_of_mem_set hm with hm | rfl
      · exact h.held handle (.inl ⟨d', hm, holds⟩)
      · exact held handle holds
    · exact h.held handle (.inr calls)

/-! ### Calls -/

theorem holds_call {k : Call} {job : SendJob} {point : SendPoint} (hk : c.calls[id]? = some k)
    (sends : k.program = .send job point) : c.Holds job.handle :=
  .inr ⟨k, List.mem_of_getElem? hk, job, point, sends, rfl⟩

theorem setStatus (h : Twins κ b c) {k k' : Call} (hk' : c.calls[id]? = some k')
    (same : κ.CallTwins k k') (live : k'.isEnded = false) (s : Status) :
    Twins κ (b.setCall id { k with status := s }) (c.setCall id { k' with status := s }) :=
  h.setCall id { same with
      status := rfl
      program := fun _ => same.program live
      welcome := fun _ => same.welcome live }
    fun _ _ sends => h.held _ (holds_call hk' sends)

theorem queue (h : Twins κ b c) {k k' : Call} (hk' : c.calls[id]? = some k')
    (same : κ.CallTwins k k') (live : k'.isEnded = false) (interrupted : Bool) :
    Twins κ (b.queue id k interrupted) (c.queue id k' interrupted) :=
  (h.setStatus hk' same live (.queued interrupted)).post same.loop (.resume id)
    fun _ _ _ _ report => by cases report

theorem wake (h : Twins κ b c) (id : Nat) : Twins κ (b.wake id) (c.wake id) := by
  unfold Bench.wake
  rcases h.call id with ⟨none, none'⟩ | ⟨k, k', hk, hk', same⟩
  · rw [none, none']
    exact h
  · simp only [hk, hk', same.status]
    split
    · next waits => exact h.queue hk' same (by rw [Call.isEnded, waits]) false
    · exact h

/-! ### Writers -/

theorem ring_inj {x y : Ring} (live : ∀ i alarm, x = .writer i alarm → κ.Live i)
    (live' : ∀ i alarm, y = .writer i alarm → κ.Live i) (same : κ.ring x = κ.ring y) : x = y := by
  cases x with
  | writer i alarm =>
    cases y with
    | writer j alarm' =>
      simp only [Kinship.ring, Ring.writer.injEq] at same
      have place := κ.injective i j (live i alarm rfl) (live' j alarm' rfl) same.1
      subst place
      rw [WriterAlarm.shifted_inj same.2]
    | wake call => cases same
  | wake call =>
    cases y with
    | writer j alarm' => cases same
    | wake other => exact same

theorem cancel_timetable {t : Timetable Ring} {x : Ring}
    (alarms : ∀ a ∈ t.alarms, ∀ i alarm, a.action = .writer i alarm → κ.Live i)
    (live : ∀ i alarm, x = .writer i alarm → κ.Live i) :
    (κ.timetable t).cancel (κ.ring x) = κ.timetable (t.cancel x) := by
  simp only [Timetable.cancel, Kinship.timetable, List.filter_map, Timetable.mk.injEq, true_and]
  congr 1
  refine List.filter_congr fun a ha => ?_
  have same : κ.ring a.action = κ.ring x ↔ a.action = x :=
    ⟨ring_inj (alarms a ha) live, congrArg κ.ring⟩
  simp [same]

theorem setAlarm (h : Twins κ b c) (delay : Option Nat) {x : Ring}
    (live : ∀ i alarm, x = .writer i alarm → κ.Live i) :
    Twins κ { b with time := b.time.set delay (κ.ring x) }
      { c with time := c.time.set delay x } := by
  refine { h with time := ?_, alarms := fun a hm i alarm own => ?_ }
  · show b.time.set delay (κ.ring x) = _
    rw [h.time]
    simp [Timetable.set, Kinship.timetable]
  · rcases List.mem_append.1 hm with hm | hm
    · exact h.alarms a hm i alarm own
    · rw [List.mem_singleton.1 hm] at own
      exact live i alarm own

theorem cancelAlarm (h : Twins κ b c) {x : Ring}
    (live : ∀ i alarm, x = .writer i alarm → κ.Live i) :
    Twins κ { b with time := b.time.cancel (κ.ring x) } { c with time := c.time.cancel x } := by
  refine { h with time := ?_, alarms := fun a hm => ?_ }
  · show b.time.cancel (κ.ring x) = _
    rw [h.time, cancel_timetable h.alarms live]
  · exact h.alarms a (List.mem_of_mem_filter hm)

theorem perform (h : Twins κ b c) (live : κ.Live i) (label : String) (e : Effect) :
    Twins κ (b.perform (κ.place i) label (e.shifted (κ.writer i).shift)) (c.perform i label e) := by
  have own : ∀ alarm j other, Ring.writer i alarm = .writer j other → κ.Live j := by
    intro alarm j other same
    cases same
    exact live
  cases e with
  | notice n => exact h.tell (.inr ⟨i, rfl⟩)
  | measure m => exact { h with
      metrics := fun silent => congrArg (·.record label m) (h.metrics silent) }
  | setAlarm alarm delay => exact h.setAlarm delay (own alarm)
  | cancelAlarm alarm => exact h.cancelAlarm (own alarm)
  | wake call => exact h.wake call

theorem setWriter (h : Twins κ b c) (live : κ.Live i) {w' u u' : Writer}
    (hw' : c.writers[i]? = some w') (same : Writer.Twins (κ.writer i) u u')
    (issued : w'.inFlight.issued ≤ u'.inFlight.issued) :
    Twins κ { b with writers := b.writers.set (κ.place i) u }
      { c with writers := c.writers.set i u' } := by
  refine { h with writers := fun j lives => ?_, size := ?_, retired := ?_, held := ?_ }
  · by_cases own : j = i
    · subst own
      obtain ⟨w, v, hw, -⟩ := (h.writer lives).resolve_left fun none => by
        rw [hw'] at none
        cases none.2
      have known := (List.getElem?_eq_some_iff.1 hw).1
      have known' := (List.getElem?_eq_some_iff.1 hw').1
      rw [List.getElem?_set_self known, List.getElem?_set_self known']
      exact .some same
    · have apart : κ.place i ≠ κ.place j := fun place =>
        own (κ.injective j i lives live place.symm)
      rw [List.getElem?_set_ne apart, List.getElem?_set_ne (Ne.symm own)]
      exact h.writers j lives
  · rw [List.length_set, List.length_set]
    exact h.size
  · intro j gone
    have apart : i ≠ j := fun own => live (own ▸ gone)
    rw [List.getElem?_set_ne apart]
    exact h.retired j gone
  · intro handle holds
    have was := h.held handle holds
    cases handle with
    | recorder label => trivial
    | batch j loop batch =>
      obtain ⟨v, hv, few⟩ := was
      by_cases own : i = j
      · subst own
        rw [Option.some.inj (hv.symm.trans hw')] at few
        have known := (List.getElem?_eq_some_iff.1 hw').1
        exact ⟨u', List.getElem?_set_self known, Nat.le_trans few issued⟩
      · exact ⟨v, (List.getElem?_set_ne own).trans hv, few⟩

theorem foldl_perform (h : Twins κ b c) (live : κ.Live i) (label : String) (effects : List Effect) :
    Twins κ ((effects.map (Effect.shifted (κ.writer i).shift)).foldl
        (Bench.perform (κ.place i) label) b)
      (effects.foldl (Bench.perform i label) c) := by
  induction effects generalizing b c with
  | nil => exact h
  | cons e rest ih => exact ih (h.perform live label e)

end Twins

structure ResultTwins (κ : Kinship) (r r' : Option Fault × Bench) : Prop where
  fault : Option.Rel κ.FaultTwins r.1 r'.1
  bench : Twins κ r.2 r'.2

namespace ResultTwins

variable {κ : Kinship} {b c : Bench} {r r' : Option Fault × Bench} {i : Nat}

theorem of_same (same : r.1 = r'.1) (h : Twins κ r.2 r'.2) : ResultTwins κ r r' := by
  refine ⟨?_, h⟩
  rw [same]
  cases r'.1 with
  | none => exact .none
  | some f => exact .some (.inl rfl)

theorem of_bench (h : Twins κ b c) (fault : Option Fault) : ResultTwins κ (fault, b) (fault, c) :=
  .of_same rfl h

theorem cases (h : ResultTwins κ r r') : (r.1 = none ∧ r'.1 = none) ∨
    ∃ f f', r.1 = some f ∧ r'.1 = some f' ∧ κ.FaultTwins f f' :=
  rel_cases h.fault

theorem thenDo (h : ResultTwins κ r r') {next next' : Bench → Option Fault × Bench}
    (each : Twins κ r.2 r'.2 → ResultTwins κ (next r.2) (next' r'.2)) :
    ResultTwins κ (Bench.thenDo r next) (Bench.thenDo r' next') := by
  unfold Bench.thenDo
  rcases h.cases with ⟨none, none'⟩ | ⟨f, f', fails, fails', -⟩
  · rw [none, none']
    exact each h.bench
  · rw [fails, fails']
    exact h

theorem endCallback (h : ResultTwins κ r r') :
    Twins κ (Bench.endCallback r) (Bench.endCallback r') := by
  unfold Bench.endCallback
  rcases h.cases with ⟨none, none'⟩ | ⟨f, f', fails, fails', same⟩
  · rw [none, none']
    exact h.bench
  · rw [fails, fails']
    refine h.bench.tell (same.imp (congrArg _) ?_)
    rintro ⟨i, rfl⟩
    exact ⟨i, rfl⟩

end ResultTwins

namespace Twins

variable {κ : Kinship} {b c : Bench} {id i : Nat} {name : LoopName}

theorem change (h : Twins κ b c) (live : κ.Live i) {f g : Writer → Change}
    (each : ∀ w w', b.writers[κ.place i]? = some w → c.writers[i]? = some w' →
      Writer.Twins (κ.writer i) w w' → Writer.ChangeTwins (κ.writer i) (f w) (g w'))
    (later : ∀ w' : Writer, w'.Later (g w').writer) :
    ResultTwins κ (b.change (κ.place i) f) (c.change i g) := by
  unfold Bench.change
  rcases h.writer live with ⟨none, none'⟩ | ⟨w, w', hw, hw', twins⟩
  · rw [none, none']
    exact .of_bench h Option.none
  · simp only [hw, hw']
    have changed := each w w' hw hw' twins
    refine ⟨?_, ?_⟩
    · rw [changed.fault]
      cases (g w').fault with
      | none => exact .none
      | some fault => exact .some (.inr ⟨i, rfl⟩)
    · rw [changed.effects, twins.label]
      exact (h.setWriter live hw' changed.writer (later w').issued).foldl_perform live _ _

end Twins
end Bench
end BatchWriter
