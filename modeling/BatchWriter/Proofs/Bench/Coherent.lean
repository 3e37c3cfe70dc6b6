import BatchWriter.Bench.Step
import BatchWriter.Proofs.Writer.Binds
import BatchWriter.Proofs.Writer.Lawful

/-!
# Coherent benches

What ties the parts of a bench together: calls stand where their status lets them stand,
a writer's waiting calls are the calls that wait for it, and whatever may act on a writer
later runs on the writer's own loop.

While a call runs through one of its points it is in hand, and nothing is said about it.
-/

set_option autoImplicit false

namespace BatchWriter
namespace Bench

def Owned (b : Bench) (i : Nat) (name : LoopName) : Prop :=
  ∃ w : Writer, b.writers[i]? = some w ∧ w.loop = some name

def Held (b : Bench) (i : Nat) : Prop := ∃ w : Writer, b.writers[i]? = some w

theorem Owned.held {b : Bench} {i : Nat} {name : LoopName} (own : b.Owned i name) : b.Held i :=
  own.imp fun _ known => known.1

theorem Held.lt {b : Bench} {i : Nat} (held : b.Held i) : i < b.writers.length :=
  have ⟨_, known⟩ := held
  (List.getElem?_eq_some_iff.1 known).1

def Extends (b b' : Bench) : Prop :=
  ∀ (i : Nat) (w : Writer), b.writers[i]? = some w →
    ∃ w' : Writer, b'.writers[i]? = some w' ∧ w.Later w'

def HandleFits (b : Bench) : Handle → Prop
  | .batch i name _ => b.Owned i name
  | .recorder _ => True

def DestinationFits (b : Bench) (d : Destination) : Prop :=
  (∀ call ∈ d.calls, b.HandleFits call.1) ∧ ∀ job ∈ d.jobs, b.HandleFits job.handle

/-- A buffer's alarm is set only for a writer that is bound to a loop, one for a batch only for
a writer whose batches have a limit. -/
def AlarmFits (b : Bench) : Ring → Prop
  | .writer i .flush => ∃ name, b.Owned i name
  | .writer i (.expire _) =>
    ∃ w : Writer, b.writers[i]? = some w ∧ w.config.requestTimeout.isSome = true
  | .wake _ => True

def CallbackFits (b : Bench) (name : LoopName) : Callback → Prop
  | .report i _ _ => b.Owned i name
  | _ => True

end Bench

def WritePoint.Resumes : WritePoint → Prop
  | .flush _ | .slot _ | .accept => True
  | _ => False

namespace Program

def Fits (b : Bench) (name : LoopName) : Program → Prop
  | .write job .start => b.Held job.writer
  | .write job (.publishing _ next) => b.Owned job.writer name ∧ next.Resumes
  | .write job _ => b.Owned job.writer name
  | .commit job .start => b.Held job.writer
  | .commit job _ => b.Owned job.writer name
  | .close writer | .enter writer => b.Held writer
  | .send job _ => b.HandleFits job.handle
  | _ => True

theorem Fits.writer {b : Bench} {name : LoopName} {job : WriteJob} {point : WritePoint}
    (fits : (write job point).Fits b name) : b.Held job.writer := by
  cases point with
  | start => exact fits
  | publishing _ _ => exact fits.1.held
  | _ => exact Bench.Owned.held fits

def Rests : Program → Prop
  | .write _ .start | .write _ (.woken _) | .write _ (.publishing _ _) => True
  | .write _ _ => False
  | .commit _ .drain => False
  | _ => True

def waitsOn? : Program → Option Nat
  | .write job (.woken _) => some job.writer
  | .commit job .woken => some job.writer
  | _ => none

def Poised (b : Bench) : Program → Prop
  | .write job (.dispatch _) => ∀ w, b.writers[job.writer]? = some w → w.hasCapacity = true
  | .commit job .drain => ∀ w, b.writers[job.writer]? = some w → w.refusal? = none
  | _ => True

/-- Why a program waits: no free slot, a batch in flight, or entries in the buffer. -/
def Blocked (w : Writer) : Program → Prop
  | .write _ (.woken _) => w.hasCapacity = false
  | .commit job .woken =>
    if job.flush.isPresent then 0 < w.inFlight.count ∨ w.hasCapacity = false
    else w.isBusy = true
  | _ => True

end Program

namespace Bench

def Queued (b : Bench) (id : Nat) (name : LoopName) : Prop :=
  (b.loop name).closed = true ∨ Callback.resume id ∈ (b.loop name).ready

/-- The call's status is what its place in the bench allows. -/
def StatusFits (b : Bench) (id : Nat) (c : Call) : Prop :=
  match c.status with
  | .queued _ => c.program.Rests ∧ b.Queued id c.loop
  | .running => b.running = some id
  | .waiting .change =>
    ∃ i w, c.program.waitsOn? = some i ∧ b.writers[i]? = some w ∧ id ∈ w.waiters
  | .waiting _ => c.program.Rests ∧ c.program.waitsOn? = none
  | .ended => True

def CallFits (b : Bench) (id : Nat) (c : Call) : Prop :=
  c.program.Fits b c.loop ∧ b.StatusFits id c

def Awaits (i : Nat) (c : Call) : Prop :=
  c.program.waitsOn? = some i ∧ (c.status = .waiting .change ∨ c.status = .queued true)

/-- All parts of a bench fit together, the call in hand left aside. -/
structure Coherent (hand : Option Nat) (b : Bench) : Prop where
  calls : ∀ (id : Nat) (c : Call), b.calls[id]? = some c → some id ≠ hand → c.isEnded = false →
    b.CallFits id c
  waiters : ∀ (i : Nat) (w : Writer), b.writers[i]? = some w → w.waiters.Nodup ∧
    ∀ id ∈ w.waiters, some id ≠ hand → ∃ c, b.calls[id]? = some c ∧ Awaits i c
  callbacks : ∀ name, ∀ cb ∈ (b.loop name).ready, b.CallbackFits name cb
  destinations : ∀ d ∈ b.destinations, b.DestinationFits d
  alarms : ∀ a ∈ b.time.alarms, b.AlarmFits a.action
  names : ∀ (name : String) (i : Nat), b.names.get? name = some i → b.Held i
  writers : ∀ w ∈ b.writers, w.Lawful

def Apart (b : Bench) (id : Nat) : Prop := ∀ w ∈ b.writers, id ∉ w.waiters

def Continues (c c' : Call) : Prop :=
  c'.loop = c.loop ∧ (c.status = .running → c'.status = .running ∧ c'.program = c.program)

theorem Continues.refl (c : Call) : Continues c c := ⟨rfl, fun h => ⟨h, rfl⟩⟩

theorem Continues.trans {c c' c'' : Call} (h : Continues c c') (h' : Continues c' c'') :
    Continues c c'' :=
  ⟨h'.1.trans h.1, fun hr =>
    ⟨(h'.2 (h.2 hr).1).1, (h'.2 (h.2 hr).1).2.trans (h.2 hr).2⟩⟩

/-- A later bench of the same run: it is coherent, keeps what writers and calls it has, and
no call but the one in hand has begun to wait for a writer. -/
structure Follows (hand : Option Nat) (b b' : Bench) : Prop where
  coherent : Coherent hand b'
  running : b'.running = b.running
  grows : b.Extends b'
  calls : ∀ (id : Nat) (c : Call), b.calls[id]? = some c →
    ∃ c' : Call, b'.calls[id]? = some c' ∧ Continues c c'
  waiters : ∀ (i : Nat) (w' : Writer), b'.writers[i]? = some w' → ∀ id ∈ w'.waiters,
    ∃ w : Writer, b.writers[i]? = some w ∧ id ∈ w.waiters
  waiting : ∀ (id : Nat) (c' : Call), b'.calls[id]? = some c' → c'.status = .waiting .change →
    ∃ c : Call, b.calls[id]? = some c ∧ c.status = .waiting .change ∧ c.program = c'.program

/-- What a writer's callers wait for has not come about unbeknownst to them. -/
def MindsAt (b b' : Bench) (i : Nat) : Prop :=
  ∀ w' : Writer, b'.writers[i]? = some w' → w'.config.Tame → w'.waiters = [] ∨
    ∃ w : Writer, b.writers[i]? = some w ∧ w.config = w'.config ∧ w.Binds w'

def Minds (b b' : Bench) : Prop := ∀ i, b.MindsAt b' i

structure Passes (hand : Option Nat) (b b' : Bench) : Prop extends Follows hand b b' where
  minds : b.Minds b'

variable {hand : Option Nat} {b b' b'' : Bench}

namespace Extends

theorem of_writers (h : b'.writers = b.writers) : b.Extends b' :=
  fun _ w hw => ⟨w, by rw [h, hw], .refl w⟩

theorem refl (b : Bench) : b.Extends b := .of_writers rfl

theorem trans (h : b.Extends b') (h' : b'.Extends b'') : b.Extends b'' := by
  intro i w hw
  obtain ⟨w', hw', later⟩ := h i w hw
  obtain ⟨w'', hw'', later'⟩ := h' i w' hw'
  exact ⟨w'', hw'', later.trans later'⟩

variable (h : b.Extends b')
include h

theorem held (i : Nat) (hi : b.Held i) : b'.Held i := by
  obtain ⟨w, hw⟩ := hi
  obtain ⟨w', hw', -⟩ := h i w hw
  exact ⟨w', hw'⟩

theorem owned (i : Nat) (name : LoopName) (ho : b.Owned i name) : b'.Owned i name := by
  obtain ⟨w, hw, hl⟩ := ho
  obtain ⟨w', hw', later⟩ := h i w hw
  exact ⟨w', hw', later.loop name hl⟩

theorem handle {handle : Handle} (hh : b.HandleFits handle) : b'.HandleFits handle := by
  cases handle with
  | batch i name _ => exact h.owned i name hh
  | recorder _ => trivial

theorem destination {d : Destination} (hd : b.DestinationFits d) : b'.DestinationFits d :=
  ⟨fun call hc => h.handle (hd.1 call hc), fun job hj => h.handle (hd.2 job hj)⟩

theorem alarm {ring : Ring} (ha : b.AlarmFits ring) : b'.AlarmFits ring := by
  cases ring with
  | writer i alarm =>
    cases alarm with
    | flush => exact ha.imp fun name ho => h.owned i name ho
    | expire _ =>
      obtain ⟨w, hw, limited⟩ := ha
      obtain ⟨w', hw', later⟩ := h i w hw
      exact ⟨w', hw', later.config ▸ limited⟩
  | wake _ => trivial

theorem callback {name : LoopName} {cb : Callback} (hc : b.CallbackFits name cb) :
    b'.CallbackFits name cb := by
  cases cb with
  | report i _ _ => exact h.owned i name hc
  | resume _ | forget _ _ | gathered _ _ => trivial

theorem program {name : LoopName} {p : Program} (hp : p.Fits b name) : p.Fits b' name := by
  cases p with
  | write job point =>
    cases point with
    | start => exact h.held _ hp
    | publishing _ next => exact ⟨h.owned _ _ hp.1, hp.2⟩
    | gate _ | flush _ | slot _ | woken _ | dispatch _ | accept | batching => exact h.owned _ _ hp
  | commit job point =>
    cases point with
    | start => exact h.held _ hp
    | drain | woken => exact h.owned _ _ hp
  | close i | enter i => exact h.held i hp
  | send job _ => exact h.handle hp
  | _ => trivial

end Extends

theorem MindsAt.of_writer {i : Nat} (h : b'.writers[i]? = b.writers[i]?) : b.MindsAt b' i :=
  fun w hw _ => .inr ⟨w, h ▸ hw, rfl, .refl w⟩

theorem Minds.of_rest {i : Nat} (rest : ∀ j, j ≠ i → b.MindsAt b' j) (own : b.MindsAt b' i) :
    b.Minds b' := by
  intro j
  by_cases hj : j = i
  · exact hj ▸ own
  · exact rest j hj

theorem Minds.of_writers (h : b'.writers = b.writers) : b.Minds b' :=
  fun _ => .of_writer (by rw [h])

theorem MindsAt.trans {i : Nat} (h : b.MindsAt b' i) (h' : b'.MindsAt b'' i)
    (hf : Follows hand b' b'') : b.MindsAt b'' i := by
  intro w'' hw'' tame
  rcases h' w'' hw'' tame with none | ⟨w', hw', config, binds⟩
  · exact .inl none
  · rcases h w' hw' (config ▸ tame) with none | ⟨w, hw, config', binds'⟩
    · refine .inl (List.eq_nil_iff_forall_not_mem.2 fun id hid => ?_)
      obtain ⟨u, hu, hm⟩ := hf.waiters i w'' hw'' id hid
      rw [hw', Option.some.injEq] at hu
      rw [← hu, none] at hm
      exact List.not_mem_nil hm
    · exact .inr ⟨w, hw, config'.trans config, binds'.trans binds⟩

theorem Follows.refl (h : Coherent hand b) : Follows hand b b where
  coherent := h
  running := rfl
  grows := .refl b
  calls _ c hc := ⟨c, hc, .refl c⟩
  waiters _ w hw _ hid := ⟨w, hw, hid⟩
  waiting _ c hc hs := ⟨c, hc, hs, rfl⟩

theorem Follows.trans (h : Follows hand b b') (h' : Follows hand b' b'') :
    Follows hand b b'' where
  coherent := h'.coherent
  running := h'.running.trans h.running
  grows := h.grows.trans h'.grows
  calls id c hc := by
    obtain ⟨c', hc', hl'⟩ := h.calls id c hc
    obtain ⟨c'', hc'', hl''⟩ := h'.calls id c' hc'
    exact ⟨c'', hc'', hl'.trans hl''⟩
  waiters i w'' hw'' id hid := by
    obtain ⟨w', hw', hid'⟩ := h'.waiters i w'' hw'' id hid
    exact h.waiters i w' hw' id hid'
  waiting id c'' hc'' hs := by
    obtain ⟨c', hc', hs', hp'⟩ := h'.waiting id c'' hc'' hs
    obtain ⟨c, hc, hs, hp⟩ := h.waiting id c' hc' hs'
    exact ⟨c, hc, hs, hp.trans hp'⟩

theorem Passes.refl (h : Coherent hand b) : Passes hand b b :=
  ⟨.refl h, .of_writers rfl⟩

theorem Passes.trans (h : Passes hand b b') (h' : Passes hand b' b'') : Passes hand b b'' :=
  ⟨h.toFollows.trans h'.toFollows, fun i => (h.minds i).trans (h'.minds i) h'.toFollows⟩

theorem Passes.andThen (h : Passes hand b b') (next : Coherent hand b' → Passes hand b' b'') :
    Passes hand b b'' :=
  h.trans (next h.coherent)

theorem Follows.apart {id : Nat} (h : Follows hand b b') (ha : b.Apart id) : b'.Apart id := by
  intro w' hm hid
  obtain ⟨i, hw'⟩ := List.mem_iff_getElem?.1 hm
  obtain ⟨w, hw, hid'⟩ := h.waiters i w' hw' id hid
  exact ha w (List.mem_of_getElem? hw) hid'

end Bench
end BatchWriter
