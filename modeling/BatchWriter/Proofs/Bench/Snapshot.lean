import BatchWriter.Proofs.Bench.Command
import BatchWriter.Proofs.Bench.Full

/-!
# Snapshots

Once nothing is under way that works on a writer, and no batch of it is open, the entries in its
buffer are all there is to it, unless it limits their time there. A writer that is built with them
in its stead does whatever the writer would have done.
-/

set_option autoImplicit false

namespace BatchWriter

theorem Config.room_of_ofArguments {args : Arguments} {config : Config}
    (h : ofArguments args = .ok config) : config.maxBuffered.le (.int 0) = false := by
  have above : ∀ {fault : ConfigFault} {v : Value} {n : Number},
      positive fault v = .ok n → n.le (.int 0) = false := by
    intro fault v n accepted
    obtain ⟨m, -, accepted⟩ := Bench.ok_of_bind accepted
    dsimp only at accepted
    split at accepted
    · cases accepted
    · next above =>
      cases accepted
      simpa using above
  obtain ⟨_, -, h⟩ := Bench.ok_of_bind h
  obtain ⟨_, -, h⟩ := Bench.ok_of_bind h
  obtain ⟨_, -, h⟩ := Bench.ok_of_bind h
  obtain ⟨buffered, accepted, h⟩ := Bench.ok_of_bind h
  dsimp only at h
  split at h
  · cases h
  · obtain ⟨_, -, h⟩ := Bench.ok_of_bind h
    obtain ⟨_, -, h⟩ := Bench.ok_of_bind h
    cases h
    exact above accepted

def Effect.Introduces : Effect → Prop
  | .notice (.restored _ _) | .measure _ => True
  | _ => False

namespace Writer

variable {now : Nat} {w : Writer} {p q : Writer × Dues}

def Unarmed (w : Writer) : Prop := w.config.maxTimeInBuffer = none → w.timerArmed = false

theorem Tick.unarmed (t : Tick now p q) (h : p.1.Unarmed) : q.1.Unarmed := by
  cases t with
  | untimed same => exact fun none => same.armed.trans (h (same.later.config ▸ none))
  | arm limited _ _ _ =>
    intro none
    cases limited.symm.trans none
  | disarm _ => exact fun _ => rfl
  | opening same => exact fun none => same.armed.trans (h (same.later.config ▸ none))
  | drop _ _ _ => exact h

theorem Ticks.unarmed (t : Ticks now p q) (h : p.1.Unarmed) : q.1.Unarmed := by
  induction t with
  | refl => exact h
  | tail _ t ih => exact t.unarmed ih

theorem unarmed_bufferTimeOver (w : Writer) : w.bufferTimeOver.1.writer.Unarmed := by
  intro _
  unfold bufferTimeOver
  dsimp only
  split
  · rfl
  · split <;> rfl

/-- A new writer like this one that was given what is in the buffer. -/
def renewed (w : Writer) (now : Nat) : Writer where
  id := w.id
  config := w.config
  converter := w.converter
  destination := w.destination
  bus := w.bus
  buffer := w.buffer
  inFlight := { limit := w.inFlight.limit }
  history := [(now, .restored w.buffer.entries)]

def renewal (w : Writer) (now : Nat) : Kinship where
  shift := w.inFlight.issued
  home := w.loop
  past := w.history
  start := (w.renewed now).history

/-- The new writer is a twin of the old one if that has nothing but its buffer. -/
theorem twins_renewed (now : Nat) (usable : w.refusal? = none)
    (untimed : w.config.maxTimeInBuffer = none) (unopened : w.inFlight.requests = [])
    (unarmed : w.timerArmed = false) (calm : w.deferred = false) (alone : w.waiters = []) :
    Twins (w.renewal now) w (w.renewed now) := by
  obtain ⟨isOpen, sound⟩ := refusal?_eq_none_iff.1 usable
  refine
    { id := rfl, config := rfl, converter := rfl, destination := rfl, bus := rfl, buffer := rfl
      waiters := alone, armed := unarmed, deferred := calm, closed := isOpen
      inFlight := ?_
      failure := sound
      history := ⟨[], rfl, rfl⟩
      loop := .inr ⟨rfl, rfl, untimed, rfl⟩ }
  show w.inFlight = { limit := w.inFlight.limit, issued := 0 + w.inFlight.issued }
  rw [Nat.zero_add, ← unopened]

theorem restore_renewed (lawful : w.Lawful) (now : Nat) : ∃ c : Change,
    restore now w.id w.config w.converter w.destination w.bus w.buffer.entries = .ok c ∧
      c.writer = w.renewed now ∧ ∀ e ∈ c.effects, e.Introduces := by
  obtain ⟨_, accepted⟩ := lawful.accepted
  have buffer : Buffer.ofEntries w.config.maxBuffered w.buffer.entries = .ok w.buffer := by
    unfold Buffer.ofEntries
    rw [Config.room_of_ofArguments accepted, ← lawful.capacity]
    rfl
  have inFlight : (InFlight.ofLimit w.config.maxInFlight : Except Fault (InFlight Value)) =
      .ok { limit := w.inFlight.limit } := by
    unfold InFlight.ofLimit
    rw [← lawful.bounded.limit, lawful.bounded.positive]
    rfl
  unfold restore
  rw [buffer, inFlight]
  refine ⟨_, rfl, ?_⟩
  split
  · refine ⟨rfl, fun e hm => ?_⟩
    cases List.mem_singleton.1 hm
    trivial
  · refine ⟨rfl, fun e hm => ?_⟩
    rcases List.mem_pair.1 hm with rfl | rfl <;> trivial

end Writer

namespace Bench

variable {b c : Bench} {i n : Nat} {w : Writer} {name : String}

/-- The spec is the writer's own, with a snapshot to begin with that was taken under the name. -/
structure Rebuilds (b : Bench) (name : String) (w : Writer) (spec : WriterSpec) : Prop where
  config : Config.ofArguments spec.config = .ok w.config
  converter : spec.converter = some w.converter
  id : spec.id = w.id
  destination : b.destinationFor spec.destination = .ok w.destination
  bus : spec.bus = w.bus
  initial : (b.act 0 (.snapshot name)).1 = .ok spec.initial

/-- The writer goes by the name and accepts work. No batch of it is open, nothing that is under way
works on it, and it does not limit the time in its buffer. -/
structure Rested (b : Bench) (i : Nat) (name : String) (w : Writer) : Prop where
  writer : b.writers[i]? = some w
  named : b.names.get? name = some i
  usable : w.refusal? = none
  untimed : w.config.maxTimeInBuffer = none
  unopened : w.inFlight.requests = []
  reports : ∀ loop batch report, Callback.report i batch report ∉ (b.loop loop).ready
  calls : ∀ k ∈ b.calls, k.program.worksOn? = some i → k.isEnded = true

/-- Once all that was ready has run, only suspended calls can still work on a writer. -/
theorem rested_of_settled (h : Reachable b) (writer : b.writers[i]? = some w)
    (named : b.names.get? name = some i) (usable : w.refusal? = none)
    (untimed : w.config.maxTimeInBuffer = none) (unopened : w.inFlight.requests = [])
    (idle : b.running = none)
    (ready : ∀ loop, (b.loop loop).closed = false ∧ (b.loop loop).ready = [])
    (awake : ∀ k ∈ b.calls, k.program.worksOn? = some i → ∀ on, k.status ≠ .waiting on) :
    b.Rested i name w where
  writer := writer
  named := named
  usable := usable
  untimed := untimed
  unopened := unopened
  reports loop batch report hm := by
    rw [(ready loop).2] at hm
    cases hm
  calls k hm works := by
    by_contra live
    obtain ⟨id, hk⟩ := List.mem_iff_getElem?.1 hm
    have stands := (h.orderly.coherent.calls id k hk (by simp) (by simpa using live)).2
    unfold StatusFits at stands
    cases status : k.status with
    | queued interrupted =>
      rw [status] at stands
      obtain ⟨isOpen, empty⟩ := ready k.loop
      rcases stands.2 with closed | queued
      · rw [isOpen] at closed
        cases closed
      · rw [empty] at queued
        cases queued
    | running =>
      rw [status, idle] at stands
      cases stands
    | waiting on => exact awake k hm works on status
    | ended => exact live (by rw [Call.isEnded, status])

theorem held_of_fits {p : Program} {loop : LoopName} (fits : p.Fits b loop)
    (works : p.worksOn? = some i) : b.Held i := by
  cases p with
  | write job point =>
    cases works
    exact Program.Fits.writer fits
  | commit job point =>
    cases works
    cases point with
    | start => exact fits
    | _ => exact Owned.held fits
  | close j | enter j =>
    cases works
    exact fits
  | _ => cases works

/-- In the second bench the writer at `i` is retired, and the one at `n`, after all others, was
built in its stead. -/
def Kinship.renewal (i n : Nat) (before : i < n) (name : String) (k : Writer.Kinship) :
    Kinship where
  place j := if j < n then j else if j = n then i else j - 1
  writer j := if j = n then k else {}
  retired := some i
  heir := n
  title := name
  base := n + 1
  injective j j' live live' same := by
    have apart : j ≠ i := fun own => live (congrArg some own.symm)
    have apart' : j' ≠ i := fun own => live' (congrArg some own.symm)
    split at same <;> split at same <;> (try split at same) <;> (try split at same) <;> omega
  succeeds same := by
    cases same
    exact absurd before (Nat.lt_irrefl _)
  inherits j gone := by
    cases gone
    refine ⟨?_, ?_, Nat.lt_succ_self n⟩
    · rw [if_neg (Nat.lt_irrefl n), if_pos rfl, if_pos before]
    · rw [if_neg (Nat.ne_of_lt before)]
  onward j after := by
    refine ⟨?_, if_neg (by omega), fun gone => ?_⟩
    · rw [if_neg (by omega), if_neg (by omega), if_neg (by omega), if_neg (by omega)]
      omega
    · cases gone
      omega

section Renewal

variable (before : i < n) (name : String) (k : Writer.Kinship) {j : Nat}

theorem Kinship.place_renewal (older : j < n) : (renewal i n before name k).place j = j :=
  if_pos older

theorem Kinship.writer_renewal (older : j < n) : (renewal i n before name k).writer j = {} :=
  if_neg (Nat.ne_of_lt older)

theorem Kinship.place_renewal_heir : (renewal i n before name k).place n = i := by
  show (if _ then _ else if _ then _ else _) = i
  rw [if_neg (Nat.lt_irrefl n), if_pos rfl]

theorem Kinship.place_renewal_after (newer : n < j) :
    (renewal i n before name k).place j = j - 1 := by
  show (if _ then _ else if _ then _ else _) = j - 1
  rw [if_neg (by omega), if_neg (by omega)]

theorem Kinship.handle_renewal {handle : Handle}
    (older : ∀ j loop batch, handle = .batch j loop batch → j < n) :
    (renewal i n before name k).handle handle = handle := by
  cases handle with
  | recorder label => rfl
  | batch j loop batch =>
    have lt := older j loop batch rfl
    rw [Kinship.handle, place_renewal before name k lt, writer_renewal before name k lt]
    rfl

theorem Kinship.ring_renewal {r : Ring} (older : ∀ j alarm, r = .writer j alarm → j < n) :
    (renewal i n before name k).ring r = r := by
  cases r with
  | wake call => rfl
  | writer j alarm =>
    have lt := older j alarm rfl
    rw [Kinship.ring, place_renewal before name k lt, writer_renewal before name k lt,
      WriterAlarm.shifted_zero]

theorem Kinship.callback_renewal {cb : Callback}
    (older : ∀ j batch report, cb = .report j batch report → j < n) :
    (renewal i n before name k).callback cb = cb := by
  cases cb with
  | report j batch report =>
    have lt := older j batch report rfl
    rw [Kinship.callback, place_renewal before name k lt, writer_renewal before name k lt]
    rfl
  | _ => rfl

theorem Kinship.program_renewal {p : Program} (works : ∀ j, p.worksOn? = some j → j < n)
    (sends : ∀ job point, p = .send job point →
      ∀ j loop batch, job.handle = .batch j loop batch → j < n) :
    (renewal i n before name k).program p = p := by
  cases p with
  | write job _ | commit job _ =>
    have place := place_renewal before name k (works job.writer rfl)
    simp only [Kinship.program, writeJob, commitJob, place]
  | close j | enter j =>
    have place := place_renewal before name k (works j rfl)
    simp only [Kinship.program, place]
  | send job point =>
    have handle := handle_renewal before name k (sends job point rfl)
    simp only [Kinship.program, sendJob, handle]
  | _ => rfl

end Renewal

/-! ## The bench with a writer that was built from a snapshot -/

theorem Spell.unarmed {p q : Bench × Writer} (s : Spell i p q) (h : p.2.Unarmed) :
    q.2.Unarmed := by
  obtain ⟨b, w⟩ := p
  obtain ⟨b', w'⟩ := q
  cases s.course with
  | ticks ticks => exact ticks.unarmed h
  | lapse _ _ _ _ _ => exact w.unarmed_bufferTimeOver
  | flush _ _ _ _ flushed => exact flushed.ticks.unarmed w.unarmed_bufferTimeOver
  | deferred completed _ _ flushed => exact flushed.ticks.unarmed (completed.unarmed h)
  | expire _ _ _ ends ticks =>
    rcases ends with rfl | ⟨-, rfl⟩
    · exact ticks.unarmed h
    · exact ticks.unarmed h
  | closes _ _ _ _ => exact h

theorem Reachable.unarmed (h : Reachable b) (hw : b.writers[i]? = some w) : w.Unarmed :=
  h.by_spells (P := fun p => p.2.Unarmed) hw (fun _ _ _ new _ _ _ => new.timer)
    fun _ _ spell => spell.unarmed

/-- What only tells that a writer was built leaves the bench to be read as it was. -/
theorem Twins.introduces {κ : Kinship} (loud : κ.silent = false) (twins : Twins κ b c)
    {effects : List Effect} (each : ∀ e ∈ effects, e.Introduces) (j : Nat) (label : String) :
    Twins κ b (effects.foldl (Bench.perform j label) c) := by
  induction effects generalizing c with
  | nil => exact twins
  | cons e rest ih =>
    have first : Twins κ b (c.perform j label e) :=
      match e, each e List.mem_cons_self with
      | .notice (.restored _ _), _ => twins.tell_second (by simp [Kinship.Heeds])
      | .measure _, _ => { twins with metrics := fun silent => nomatch loud.symm.trans silent }
    exact ih first fun e hm => each e (List.mem_cons_of_mem _ hm)

namespace Rested

variable (rested : b.Rested i name w) (h : Reachable b)
include rested

theorem lt : i < b.writers.length := (List.getElem?_eq_some_iff.1 rested.writer).1

def kinship : Kinship := .renewal i b.writers.length rested.lt name (w.renewal b.now)

theorem writer_heir : rested.kinship.writer b.writers.length = w.renewal b.now := if_pos rfl

include h

theorem waiters : w.waiters = [] := by
  refine List.eq_nil_iff_forall_not_mem.2 fun id hm => ?_
  obtain ⟨k, hk, on, stands⟩ :=
    (h.orderly.coherent.waiters i w rested.writer).2 id hm (by simp)
  have works : k.program.worksOn? = some i := by
    generalize k.program = p at on
    cases p with
    | write _ point | commit _ point =>
      cases point with
      | woken => exact on
      | _ => cases on
    | _ => cases on
  have ended := rested.calls k (List.mem_of_getElem? hk) works
  rcases stands with waits | queued
  · rw [Call.isEnded, waits] at ended
    cases ended
  · rw [Call.isEnded, queued] at ended
    cases ended

theorem twins_renewed : Writer.Twins (w.renewal b.now) w (w.renewed b.now) := by
  have only : ∀ u : Writer, b.writers[i]? = some u → u.config.maxTimeInBuffer = none :=
    fun u hu => Option.some.inj (rested.writer.symm.trans hu) ▸ rested.untimed
  exact Writer.twins_renewed b.now rested.usable rested.untimed rested.unopened
    (h.unarmed rested.writer rested.untimed) (h.calm only w rested.writer) (rested.waiters h)

theorem alarms {a : Alarm Ring} (hm : a ∈ b.time.alarms) (alarm : WriterAlarm) :
    a.action ≠ .writer i alarm := by
  intro own
  have set : b.alarmsOf i alarm = true := List.any_eq_true.2 ⟨a, hm, by simpa using own⟩
  have timed := h.timely.timed i w rested.writer
  cases alarm with
  | flush =>
    have armed := timed.flush set
    rw [h.unarmed rested.writer rested.untimed] at armed
    cases armed
  | expire batch =>
    have isOpen := timed.expire batch set
    rw [InFlight.ids, rested.unopened] at isOpen
    cases isOpen

theorem calls_twins {k : Call} (hm : k ∈ b.calls) : rested.kinship.CallTwins k k := by
  obtain ⟨id, hk⟩ := List.mem_iff_getElem?.1 hm
  have works : k.isEnded = false → ∀ j, k.program.worksOn? = some j →
      j < b.writers.length ∧ j ≠ i := by
    intro live j on
    have fits := (h.orderly.coherent.calls id k hk (by simp) live).1
    refine ⟨(held_of_fits fits on).lt, ?_⟩
    rintro rfl
    rw [rested.calls k hm on] at live
    cases live
  refine ⟨rfl, rfl, rfl, rfl, fun live => ?_, fun live j on => ?_⟩
  · have same : rested.kinship.program k.program = k.program := by
      refine Kinship.program_renewal rested.lt name _ (fun j on => (works live j on).1) ?_
      intro job point sends j loop batch own
      have fits := (h.orderly.coherent.calls id k hk (by simp) live).1
      rw [sends] at fits
      have reports : b.HandleFits job.handle := fits
      rw [own] at reports
      exact (Owned.held reports).lt
    have alike : rested.kinship.Alike (rested.kinship.program k.program) k.program :=
      .same k.program fun silent => by cases silent
    rwa [same] at alike
  · obtain ⟨older, apart⟩ := works live j on
    refine ⟨fun gone => apart (Option.some.inj gone).symm, fun home bound => ?_⟩
    have free := Kinship.writer_renewal rested.lt name (w.renewal b.now) older
    rw [show rested.kinship.writer j = {} from free] at bound
    cases bound

/-- Each writer of the bench with the new writer stands for one that there is. -/
theorem writers_twins {j : Nat} (live : rested.kinship.Live j) :
    Option.Rel (Writer.Twins (rested.kinship.writer j)) b.writers[rested.kinship.place j]?
      (b.writers ++ [w.renewed b.now])[j]? := by
  rcases Nat.lt_trichotomy j b.writers.length with older | rfl | newer
  · have place : rested.kinship.place j = j := Kinship.place_renewal rested.lt name _ older
    have writer : rested.kinship.writer j = {} := Kinship.writer_renewal rested.lt name _ older
    rw [place, writer, List.getElem?_append_left older, List.getElem?_eq_getElem older]
    exact .some (.refl _)
  · have place : rested.kinship.place b.writers.length = i :=
      Kinship.place_renewal_heir rested.lt name _
    rw [place, rested.writer_heir, rested.writer, List.getElem?_concat_length]
    exact .some (rested.twins_renewed h)
  · have place : rested.kinship.place j = j - 1 :=
      Kinship.place_renewal_after rested.lt name _ newer
    rw [place, List.getElem?_eq_none (by omega),
      List.getElem?_eq_none (by rw [List.length_append, List.length_singleton]; omega)]
    exact .none

/-! ### What there is belongs to writers that keep their places -/

omit h in
theorem handle_kept {handle : Handle} (fits : b.HandleFits handle) :
    rested.kinship.handle handle = handle := by
  refine Kinship.handle_renewal rested.lt name _ fun j loop batch same => ?_
  rw [same] at fits
  exact (Owned.held fits).lt

theorem destinations_kept : b.destinations.map rested.kinship.destination = b.destinations := by
  refine (List.map_congr_left fun d hm => ?_).trans (List.map_id _)
  obtain ⟨calls, jobs⟩ := h.orderly.coherent.destinations d hm
  exact Kinship.destination_eq (fun call hc => rested.handle_kept (calls call hc))
    fun job hj => rested.handle_kept (jobs job hj)

theorem loop_kept (loop : LoopName) : rested.kinship.eventLoop (b.loop loop) = b.loop loop := by
  refine Kinship.eventLoop_eq fun cb hm => ?_
  refine Kinship.callback_renewal rested.lt name _ fun j batch report same => ?_
  have fits := h.orderly.coherent.callbacks loop cb hm
  rw [same] at fits
  exact (Owned.held fits).lt

theorem time_kept : rested.kinship.timetable b.time = b.time := by
  refine Kinship.timetable_eq fun a hm => ?_
  refine Kinship.ring_renewal rested.lt name _ fun j alarm same => ?_
  have fits := h.orderly.coherent.alarms a hm
  rw [same] at fits
  cases alarm with
  | flush => exact fits.choose_spec.held.lt
  | expire batch => exact Held.lt ⟨_, fits.choose_spec.1⟩

theorem names_kept (other : String) : b.names.get? other =
    ((b.withNew name (w.renewed b.now)).names.get? other).map rested.kinship.place := by
  rw [get?_withNew]
  split
  · next same =>
    rw [same, rested.named]
    exact congrArg some (Kinship.place_renewal_heir rested.lt name _).symm
  · cases known : b.names.get? other with
    | none => rfl
    | some j =>
      have older := (h.orderly.coherent.names _ _ known).lt
      exact congrArg some (Kinship.place_renewal rested.lt name _ older).symm

theorem twins_withNew : Twins rested.kinship b (b.withNew name (w.renewed b.now)) := by
  have coherent := h.orderly.coherent
  have own := h.twins
  refine
    { time := (rested.time_kept h).symm, main := (rested.loop_kept h .main).symm
      alt := (rested.loop_kept h .alt).symm, turn := rfl, running := rfl
      calls := List.forall₂_same.2 fun k hm => rested.calls_twins h hm
      writers := fun j live => rested.writers_twins h live, names := rested.names_kept h
      destinations := (rested.destinations_kept h).symm, subscribers := rfl, answers := rfl
      buses := rfl, metrics := fun silent => by cases silent
      trace := List.forall₂_same.2 fun _ _ => .inl rfl
      named := coherent.named_withNew own.named
      held := fun handle holds => issued_withNew (own.held handle holds)
      size := ?_, retired := ?_, late := ?_, alarms := ?_, living := ?_, titled := ?_ }
  · have size : (b.withNew name (w.renewed b.now)).writers.length = b.writers.length + 1 :=
      List.length_append
    rw [size]
    exact ⟨Kinship.place_renewal_after rested.lt name _ (Nat.lt_succ_self _), Nat.le_refl _⟩
  · intro j gone
    cases gone
    have shift : (rested.kinship.writer b.writers.length).shift = w.inFlight.issued := by
      rw [rested.writer_heir]
      rfl
    exact ⟨w, writer_kept rested.writer name _, rested.unopened, shift.ge⟩
  · intro j batch report loop gone hm
    cases gone
    exact absurd (by cases loop <;> exact hm) (rested.reports loop batch report)
  · intro a hm j alarm same gone
    cases gone
    exact rested.alarms h hm alarm same
  · intro other j known gone
    cases gone
    rcases known_withNew known with ⟨-, new⟩ | ⟨apart, known⟩
    · exact absurd new (Nat.ne_of_lt rested.lt)
    · exact apart (own.named other name i known rested.named)
  · intro other j gone known
    rcases known_withNew known with ⟨same, -⟩ | ⟨-, known⟩
    · exact same
    · exact absurd (coherent.names _ _ known).lt (Nat.lt_irrefl _)

/-- The new writer is built, from all that is in the buffer of the old one. -/
theorem create_renewed {spec : WriterSpec} (same : b.Rebuilds name w spec) :
    ∃ effects : List Effect, (∀ e ∈ effects, e.Introduces) ∧ b.create name spec =
      (.ok .null, effects.foldl (perform b.writers.length w.label)
        { b.withNew name (w.renewed b.now) with metrics := b.metrics.register w.label }) := by
  obtain ⟨c, built, renewed, introduces⟩ := Writer.restore_renewed
    (h.orderly.coherent.writers w (List.mem_of_getElem? rested.writer)) b.now
  have initial : spec.initial = .list w.buffer.entries := by
    have taken := same.initial
    simp only [act, view, writerIndex, rested.named, rested.writer, Option.elim,
      Option.map] at taken
    exact (Except.ok.inj taken).symm
  have members : spec.initial.initialMembers = .ok w.buffer.entries := by
    rw [initial]
    cases w.buffer.entries <;> rfl
  refine ⟨c.effects, introduces, ?_⟩
  unfold create
  rw [same.config, same.converter, same.destination, members, same.id, same.bus]
  simp only [Bind.bind, Except.bind, Option.elim, built, renewed]
  rfl

theorem twins_create {spec : WriterSpec} (same : b.Rebuilds name w spec) :
    Twins rested.kinship b (b.create name spec).2 := by
  obtain ⟨effects, introduces, created⟩ := rested.create_renewed h same
  rw [created]
  have added := rested.twins_withNew h
  have measured : Twins rested.kinship b
      { b.withNew name (w.renewed b.now) with metrics := b.metrics.register w.label } :=
    { added with metrics := fun silent => nomatch silent }
  exact measured.introduces rfl introduces _ _

omit h in
/-- A task works on the new writer where the old one is at home. -/
theorem welcome {b' c' : Bench} (twins : Twins rested.kinship b' c') {label : String}
    {loop : LoopName} {task : Task} {p : Program}
    (driven : task.writer? = some name → ∀ home, w.loop = some home → loop = home)
    (known : c'.programOf label task = .ok p) : rested.kinship.Welcome loop p := by
  intro j works
  obtain ⟨other, task, named⟩ := named_of_programOf known works
  refine ⟨twins.living other j named, fun home bound => ?_⟩
  by_cases heir : j = b.writers.length
  · subst heir
    have same : other = name := twins.titled other i rfl named
    rw [rested.writer_heir] at bound
    exact driven (same ▸ task) home bound
  · rw [show rested.kinship.writer j = {} from if_neg heir] at bound
    cases bound

end Rested

/-! ## The same from there on -/

end Bench

/-- What happened is no notice that a report came to nothing or that a writer had entries when it
was built. -/
def Happening.isSeen : Happening → Bool
  | .noticed (.completionAfterClose _ _) | .noticed (.completionUnknown _ _)
  | .noticed (.failureUnknown _ _ _) | .noticed (.restored _ _) => false
  | _ => true

def Destination.anonymous (d : Destination) : Destination :=
  { d with
    calls := d.calls.map fun c => (.recorder "", c.2)
    jobs := d.jobs.map fun j => { j with handle := .recorder "" } }

namespace Bench

variable {b c : Bench} {i n : Nat} {w : Writer} {name : String}

/-- What the writer at `i` does in the first bench, the one at `j` does in the second one: it has
the same entries in its buffer and in its open batches, accepts work or has closed or failed as
the other one, and the same became of the same batches since. All else is the same, but for the
numbers of the batches. -/
structure CarriesOn (i j : Nat) (k : Writer.Kinship) (b c : Bench) : Prop where
  writer : ∃ w w', b.writers[i]? = some w ∧ c.writers[j]? = some w' ∧ Writer.Twins k w w'
  older : ∀ l, l < j → l ≠ i → b.writers[l]? = c.writers[l]?
  newer : ∀ l, j ≤ l → b.writers[l]? = c.writers[l + 1]?
  now : b.now = c.now
  dues : b.time.alarms.map (·.due) = c.time.alarms.map (·.due)
  turn : b.turn = c.turn
  running : b.running = c.running
  calls : b.calls.map (fun k => (k.label, k.loop, k.status)) =
    c.calls.map fun k => (k.label, k.loop, k.status)
  destinations : b.destinations.map Destination.anonymous = c.destinations.map Destination.anonymous
  buses : b.buses = c.buses
  answers : b.answers = c.answers
  /-- Task outcomes, calls of the destinations, events that were delivered, notices and faults. -/
  happenings : List.Forall₂ (fun x y => x = y ∨ x = y.shifted k.shift)
    (b.trace.filter Happening.isSeen) (c.trace.filter Happening.isSeen)

namespace Rested

variable (rested : b.Rested i name w)
include rested

/-- All writers but the one that was built anew are the same. -/
theorem writer_of_twins {b' c' : Bench} (twins : Twins rested.kinship b' c') {j : Nat}
    (live : j ≠ i) (apart : j ≠ b.writers.length) :
    b'.writers[rested.kinship.place j]? = c'.writers[j]? := by
  have same : rested.kinship.writer j = {} := if_neg apart
  rcases twins.writer (show rested.kinship.Live j from fun gone =>
    live (Option.some.inj gone).symm) with ⟨none, none'⟩ | ⟨u, u', hu, hu', alike⟩
  · exact none.trans none'.symm
  · rw [same] at alike
    exact hu.trans ((congrArg some alike.eq).trans hu'.symm)

theorem carriesOn_of_twins {b' c' : Bench} (twins : Twins rested.kinship b' c') :
    CarriesOn i b.writers.length (w.renewal b.now) b' c' where
  writer := by
    have live : rested.kinship.Live b.writers.length := fun gone =>
      Nat.ne_of_lt rested.lt (Option.some.inj gone)
    have there : b.writers.length < c'.writers.length := twins.size.2
    obtain ⟨u, u', hu, hu', alike⟩ := (twins.writer live).resolve_left fun none =>
      absurd (List.getElem?_eq_none_iff.1 none.2) (Nat.not_le.2 there)
    rw [show rested.kinship.place b.writers.length = i from
      Kinship.place_renewal_heir rested.lt name _] at hu
    exact ⟨u, u', hu, hu', rested.writer_heir ▸ alike⟩
  older l older apart := by
    have same := rested.writer_of_twins twins apart (Nat.ne_of_lt older)
    rwa [show rested.kinship.place l = l from Kinship.place_renewal rested.lt name _ older] at same
  newer l newer := by
    have lt := rested.lt
    have same := rested.writer_of_twins twins (j := l + 1) (by omega) (by omega)
    rwa [show rested.kinship.place (l + 1) = l from
      Kinship.place_renewal_after rested.lt name _ (by omega)] at same
  now := twins.now
  dues := by
    rw [twins.time, Kinship.timetable, List.map_map]
    rfl
  turn := twins.turn
  running := twins.running
  calls := by
    refine List.forall₂_eq_eq_eq ▸ ?_
    rw [List.forall₂_map_left_iff, List.forall₂_map_right_iff]
    refine twins.calls.imp fun k k' alike => ?_
    rw [alike.label, alike.loop, alike.status]
  destinations := by
    rw [twins.destinations, List.map_map]
    refine List.map_congr_left fun d _ => ?_
    simp [Destination.anonymous, Kinship.destination, Kinship.job]
  buses := twins.buses
  answers := twins.answers
  happenings := by
    have seen : rested.kinship.Heeds = Happening.isSeen := by
      funext x
      cases x with
      | noticed notice => cases notice <;> rfl
      | _ => rfl
    rw [← seen]
    refine twins.trace.imp fun x y same => ?_
    rcases same with same | ⟨j, same⟩
    · exact .inl same
    by_cases heir : j = b.writers.length
    · rw [heir, rested.writer_heir] at same
      exact .inr same
    · rw [show rested.kinship.writer j = {} from if_neg heir] at same
      exact .inl (same.trans y.shifted_zero)

end Rested

/-- **Snapshots.** In every run, a writer at rest that accepts work, has no batch open and does not
limit the time in its buffer may be replaced by one that is built like it from a snapshot. Whatever
is done from there on, with tasks on the writer started on its loop, the new writer does what the
old one would have done, and all else is as it would have been. Only the batches have lower
numbers, by how many the old writer had issued; reports for those come to nothing. -/
theorem snapshot_carries_over (h : Reachable b) (rested : b.Rested i name w) {spec : WriterSpec}
    (same : b.Rebuilds name w spec) (cmds : List Command)
    (driven : ∀ label loop task, Command.start label loop task ∈ cmds →
      task.writer? = some name → ∀ home, w.loop = some home → loop = home) :
    (b.create name spec).1 = .ok .null ∧
      Option.Rel (CarriesOn i b.writers.length (w.renewal b.now)) (b.obeyAll cmds)
        ((b.create name spec).2.obeyAll cmds) := by
  obtain ⟨effects, -, created⟩ := rested.create_renewed h same
  refine ⟨congrArg Prod.fst created, ?_⟩
  have both := (rested.twins_create h same).obeyAll h (h.move (.create name spec)) rfl cmds
    fun label loop task started b' c' p twins known =>
      rested.welcome twins (driven label loop task started) known
  rcases rel_cases both with ⟨none, none'⟩ | ⟨b', c', done, done', twins⟩
  · rw [none, none']
    exact .none
  · rw [done, done']
    exact .some (rested.carriesOn_of_twins twins)

def pausing : Bench :=
  run 30 (beginWrite 3 (beginWrite 2 (beginWrite 1 (single [("max_batch_size", .nat 2)] []))))

def paused : Bench := run 9 (pausing.tellHandle (.batch 0 .main 1) (.completed []))

theorem reachable_paused : Reachable paused := by
  have before : Reachable pausing :=
    .run ((((reachable_single _ _).beginWrite rfl 1).beginWrite rfl 2).beginWrite rfl 3) 30
  have fits : pausing.HandleFits (.batch 0 .main 1) := ⟨_, rfl, rfl⟩
  exact (before.move (.tell fits _)).run 9

def pausedSpec : WriterSpec where
  config := [("max_batch_size", .nat 2)]
  initial := .list [.nat 3]
  destination := "sink"

def resuming : List Command :=
  .start "next" .main (.write "w" (.nat 4) none) :: List.replicate 9 .step ++
    [.tell (.call 0 0) (.completed [.nat 1]), .step,
      .tell (.call 0 1) (.failed .indexOutOfRange), .step]

theorem snapshot_carries_over_paused : ∃ (w u u' : Writer) (b c : Bench),
    paused.Rested 0 "w" w ∧ paused.Rebuilds "w" w pausedSpec ∧ w.inFlight.issued = 1 ∧
    paused.obeyAll resuming = some b ∧
    (paused.create "w" pausedSpec).2.obeyAll resuming = some c ∧
    CarriesOn 0 1 (w.renewal paused.now) b c ∧
    b.writers[0]? = some u ∧ u.failure.isSome = true ∧ u.inFlight.issued = 2 ∧
    c.writers[1]? = some u' ∧ u'.failure.isSome = true ∧ u'.inFlight.issued = 1 := by
  have ended : paused.calls.all Call.isEnded = true := rfl
  have awake : ∀ k ∈ paused.calls, k.program.worksOn? = some 0 → ∀ on, k.status ≠ .waiting on := by
    intro k hm _ on waits
    have done := List.all_eq_true.1 ended k hm
    rw [Call.isEnded, waits] at done
    cases done
  have ready : ∀ loop, (paused.loop loop).closed = false ∧ (paused.loop loop).ready = [] := by
    intro loop
    cases loop <;> exact ⟨rfl, rfl⟩
  obtain ⟨w, rested, rebuilds, issued, home⟩ : ∃ w, paused.Rested 0 "w" w ∧
      paused.Rebuilds "w" w pausedSpec ∧ w.inFlight.issued = 1 ∧ w.loop = some .main :=
    ⟨_, rested_of_settled reachable_paused rfl rfl rfl rfl rfl rfl ready awake,
      ⟨rfl, rfl, rfl, rfl, rfl, rfl⟩, rfl, rfl⟩
  have driven : ∀ label loop task, Command.start label loop task ∈ resuming →
      task.writer? = some "w" → ∀ own, w.loop = some own → loop = own := by
    intro label loop task hm _ own bound
    cases home.symm.trans bound
    have only : label = "next" ∧ loop = .main ∧ task = .write "w" (.nat 4) none := by
      simpa [resuming] using hm
    exact only.2.1
  have both := (snapshot_carries_over reachable_paused rested rebuilds resuming driven).2
  obtain ⟨b, u, done, first⟩ : ∃ (b : Bench) (u : Writer), paused.obeyAll resuming = some b ∧
      b.writers[0]? = some u ∧ u.failure.isSome = true ∧ u.inFlight.issued = 2 :=
    ⟨_, _, rfl, rfl, rfl, rfl⟩
  obtain ⟨c, u', done', second⟩ : ∃ (c : Bench) (u' : Writer),
      (paused.create "w" pausedSpec).2.obeyAll resuming = some c ∧
      c.writers[1]? = some u' ∧ u'.failure.isSome = true ∧ u'.inFlight.issued = 1 :=
    ⟨_, _, rfl, rfl, rfl, rfl⟩
  rw [done, done'] at both
  cases both with
  | some carries =>
    obtain ⟨hu, failed, later⟩ := first
    exact ⟨w, u, u', b, c, rested, rebuilds, issued, done, done', carries, hu,
      failed, later, second⟩

end Bench
end BatchWriter
