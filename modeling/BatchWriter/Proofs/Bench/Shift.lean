import BatchWriter.Proofs.Bench.Meanwhile
import BatchWriter.Proofs.Bench.Programs

/-!
# What a move comes to

In a move of a bench nobody makes progress, or one call begins to run, goes on by one point or goes
on with its cancellation. What holds of every call is therefore checked for the call that moves,
and for all others once.
-/

set_option autoImplicit false

namespace BatchWriter
namespace Progress

def status : Progress → Status
  | .go _ => .running
  | .yield _ => .queued false
  | .sleep _ _ => .waiting .alarm
  | .wait on _ => .waiting on
  | .finish _ => .ended

def goesOn : Progress → Bool
  | .go _ => true
  | _ => false

theorem status_ne_running {progress : Progress} (rests : progress.goesOn = false) :
    progress.status ≠ .running := by
  cases progress with
  | go p => cases rests
  | yield p | sleep delay p | wait on p | finish outcome => simp [status]

end Progress

namespace Bench

variable {old : Nat → Prop} {b b' b₀ : Bench} {id : Nat} {c : Call}

structure Resolved (b : Bench) (id : Nat) (c : Call) (progress : Progress) (b' : Bench) :
    Prop where
  writers : b'.writers = b.writers
  subscribers : b'.subscribers = b.subscribers
  answers : b'.answers = b.answers
  destinations : b'.destinations = b.destinations
  running : b'.running = if progress.goesOn then some id else none
  own : ∃ c' : Call, b'.calls[id]? = some c' ∧ c'.loop = c.loop ∧ c'.status = progress.status ∧
    c'.program = progress.program?.getD c.program
  others : ∀ k, k ≠ id → b'.calls[k]? = b.calls[k]?
  callbacks : ∀ (name : LoopName) (cb : Callback), cb ∈ (b'.loop name).ready →
    cb ∈ (b.loop name).ready ∨ ∀ old, b'.Due old cb

/-- The call is put back, whatever becomes of the alarms and the trace. -/
theorem Resolved.of_put (hc : b.calls[id]? = some c) {progress : Progress} {k : Call}
    (writers : b'.writers = b.writers) (subscribers : b'.subscribers = b.subscribers)
    (answers : b'.answers = b.answers) (destinations : b'.destinations = b.destinations)
    (running : b'.running = if progress.goesOn then some id else none)
    (calls : b'.calls = b.calls.set id k) (loop : k.loop = c.loop)
    (status : k.status = progress.status) (program : k.program = progress.program?.getD c.program)
    (callbacks : ∀ (name : LoopName) (cb : Callback), cb ∈ (b'.loop name).ready →
      cb ∈ (b.loop name).ready ∨ ∀ old, b'.Due old cb) : Resolved b id c progress b' where
  writers := writers
  subscribers := subscribers
  answers := answers
  destinations := destinations
  running := running
  own := ⟨k, by rw [calls]; exact setCall_self hc k, loop, status, program⟩
  others other ho := by rw [calls, List.getElem?_set_ne (Ne.symm ho)]
  callbacks := callbacks

/-- Posting the callbacks of whoever watches a call touches nothing but the loops. -/
theorem posted_watchers {α : Type} (view : Bench → α)
    (same : ∀ (b : Bench) (name : LoopName) (cb : Callback), view (b.post name cb) = view b)
    (watchers : List Watcher) (name : LoopName) (id : Nat) (b : Bench) :
    view (watchers.foldl (fun b w => b.post name (w.callback id)) b) = view b := by
  induction watchers generalizing b with
  | nil => rfl
  | cons w rest ih => exact (ih _).trans (same _ _ _)

theorem ready_watchers (watchers : List Watcher) (name : LoopName) (id : Nat) (b : Bench)
    {other : LoopName} {cb : Callback}
    (hm : cb ∈ ((watchers.foldl (fun b w => b.post name (w.callback id)) b).loop other).ready) :
    cb ∈ (b.loop other).ready ∨ ∃ w : Watcher, cb = w.callback id := by
  induction watchers generalizing b with
  | nil => exact .inl hm
  | cons w rest ih =>
    rcases ih _ hm with hm | told
    · rcases (mem_ready_post b name other _ _).1 hm with hm | ⟨-, -, same⟩
      · exact .inl hm
      · exact .inr ⟨w, same⟩
    · exact .inr told

theorem resolved_finish (hc : b.calls[id]? = some c) (outcome : Except Fault Value) :
    Resolved b id c (.finish outcome) (b.resolve id (.finish outcome)) := by
  have ended : ∀ {α : Type} (view : Bench → α),
      (∀ (b : Bench) (name : LoopName) (cb : Callback), view (b.post name cb) = view b) →
      (∀ (b : Bench) (happening : Happening), view (b.tell happening) = view b) →
      view (b.finish id outcome) = view (setCall { b with running := none } id
        { c with status := .ended, watchers := [] }) := by
    intro α view post tell
    unfold finish
    simp only [hc]
    rw [posted_watchers view post]
    split
    · exact tell _ _
    · rfl
  have calls := ended (·.calls) (fun _ _ _ => calls_setLoop _ _ _) fun _ _ => rfl
  rw [resolve]
  refine .of_put hc (k := { c with status := .ended, watchers := [] })
    (ended (·.writers) writers_post fun _ _ => rfl)
    (ended (·.subscribers) (fun _ _ _ => subscribers_setLoop _ _ _) fun _ _ => rfl)
    (ended (·.answers) (fun _ _ _ => answers_setLoop _ _ _) fun _ _ => rfl)
    (ended (·.destinations) (fun _ _ _ => destinations_setLoop _ _ _) fun _ _ => rfl)
    (ended (·.running) (fun _ _ _ => running_setLoop _ _ _) fun _ _ => rfl)
    calls rfl rfl rfl fun name cb hm => ?_
  have gone : (b.finish id outcome).Ended id :=
    ⟨_, by rw [calls]; exact setCall_self (b := { b with running := none }) hc _, rfl⟩
  unfold finish at hm
  simp only [hc] at hm
  rcases ready_watchers _ _ _ _ hm with hm | ⟨w, rfl⟩
  · split at hm <;> exact .inl hm
  · cases w with
    | forget _ => exact .inr fun _ => gone
    | gather _ => exact .inr fun _ => .inr gone

/-- A call takes what its progress gives it, and nothing else is touched. -/
theorem resolved (hc : b.calls[id]? = some c) (progress : Progress) :
    Resolved b id c progress (b.resolve id progress) := by
  cases progress with
  | finish outcome => exact resolved_finish hc outcome
  | go program =>
    rw [resolve, modify_call hc]
    exact .of_put hc rfl rfl rfl rfl rfl rfl rfl rfl rfl fun _ _ hm => .inl hm
  | yield program =>
    simp only [resolve, hc, queue, post]
    refine .of_put hc (writers_setLoop _ _ _) (subscribers_setLoop _ _ _) (answers_setLoop _ _ _)
      (destinations_setLoop _ _ _) (running_setLoop _ _ _) (calls_setLoop _ _ _) rfl rfl rfl
      fun name cb hm => ?_
    rcases (mem_ready_post _ _ _ _ _).1 hm with hm | ⟨-, -, rfl⟩
    · exact .inl hm
    · exact .inr fun _ => trivial
  | sleep delay program =>
    rw [resolve, modify_call hc]
    exact .of_put hc rfl rfl rfl rfl rfl rfl rfl rfl rfl fun _ _ hm => .inl hm
  | wait on program =>
    rw [resolve, modify_call hc]
    exact .of_put hc rfl rfl rfl rfl rfl rfl rfl rfl rfl fun _ _ hm => .inl hm

namespace Resolved

variable {progress : Progress} {c' : Call}

theorem call (h : Resolved b id c progress b') (hc' : b'.calls[id]? = some c') :
    c'.loop = c.loop ∧ c'.status = progress.status ∧
      c'.program = progress.program?.getD c.program := by
  obtain ⟨k, hk, own⟩ := h.own
  rw [hc', Option.some.injEq] at hk
  exact hk ▸ own

/-- The call ends unless its progress leads to another point. -/
theorem isEnded (h : Resolved b id c progress b') (hc' : b'.calls[id]? = some c') :
    c'.isEnded = progress.program?.isNone := by
  rw [Call.isEnded, (h.call hc').2.1]
  cases progress <;> rfl

end Resolved

def Spares (b b' : Bench) : Prop :=
  ∀ (i : Nat) (w : Writer), b.writers[i]? = some w → b'.writers[i]? = some w

theorem Spares.of_writers (h : b'.writers = b.writers) : b.Spares b' := fun _ _ hw => h ▸ hw

/-- What a move comes to. -/
inductive Shift (old : Nat → Prop) (b b' : Bench) : Prop
  /-- While a call runs, nobody else touches a writer. -/
  | beside (noProgress : NoProgress old b b') (spares : b.running = none ∨ b.Spares b')
  /-- A call begins to run, or to run again. -/
  | woken {id : Nat} {c : Call} {b₀ : Bench} (idle : b.running = none)
      (hc : b.calls[id]? = some c) (queued : c.status = .queued false)
      (noProgress : NoProgress old b b₀) (spares : b.Spares b₀) (calls : b₀.calls = b.calls)
      (same : b' = b₀.resolve id (.go c.program))
  /-- The running call goes on by one point. -/
  | advanced {id : Nat} {c : Call} (running : b.running = some id) (hc : b.calls[id]? = some c)
      (same : b' = (b.advanceProgram id c.loop c.program).1.resolve id
        (b.advanceProgram id c.loop c.program).2)
  /-- A call goes on with its cancellation. -/
  | interrupted {id : Nat} {c : Call} {b₀ : Bench} (idle : b.running = none)
      (hc : b.calls[id]? = some c) (queued : c.status = .queued true)
      (noProgress : NoProgress old b b₀) (calls : b₀.calls = b.calls)
      (same : b' = (b₀.interruptProgram id c.program).1.resolve id
        (b₀.interruptProgram id c.program).2)

theorem shift_runCallback (idle : b.running = none) (noProgress : NoProgress old b b₀)
    (spares : b.Spares b₀) (calls : b₀.calls = b.calls) (name : LoopName) {cb : Callback}
    (due : b₀.Due old cb) : Shift old b (b₀.runCallback name cb) := by
  cases cb with
  | report i batch report =>
    exact .beside (noProgress.trans
      (noProgress_endCallback (noProgress_receive _ _ _ _ _))) (.inl idle)
  | forget destination call =>
    exact .beside (noProgress.trans (noProgress_forget _ _ due)) (.inl idle)
  | gathered call child =>
    exact .beside (noProgress.trans (noProgress_countGathered _ _ due)) (.inl idle)
  | resume id =>
    unfold runCallback
    dsimp only
    unfold resume
    split
    · exact .beside noProgress (.inl idle)
    · next c hc =>
      rw [calls] at hc
      split
      · next queued => exact .interrupted idle hc queued noProgress calls rfl
      · next queued =>
        refine .woken idle hc queued noProgress spares calls ?_
        rw [resolve, modify_call (calls ▸ hc)]
        rfl
      · exact .beside noProgress (.inl idle)

theorem noProgress_pop (truthful : b.Truthful old) {name : LoopName} {l : EventLoop Callback}
    {cb : Callback} (popped : (b.loop name).pop? = some (cb, l)) :
    NoProgress old b (b.setLoop name l) ∧ (b.setLoop name l).Due old cb := by
  have ready := ready_of_pop popped
  have noProgress : NoProgress old b (b.setLoop name l) := noProgress_setLoop fun x hm =>
    .inl (by rw [ready.1]; exact List.mem_cons_of_mem _ hm)
  refine ⟨noProgress, noProgress.due (truthful name cb ?_)⟩
  rw [ready.1]
  exact List.mem_cons_self

theorem noProgress_next (truthful : b.Truthful old) {name : LoopName} {cb : Callback}
    (next : b.nextCallback? = some (name, cb, b₀)) :
    NoProgress old b b₀ ∧ b₀.Due old cb ∧ b₀.writers = b.writers ∧ b₀.calls = b.calls := by
  obtain ⟨turn, l, popped, rfl⟩ := next_pops next
  have turned : NoProgress old b { b with turn } := .of_same rfl rfl rfl rfl rfl rfl rfl rfl
  obtain ⟨noProgress, due⟩ := noProgress_pop (b := { b with turn }) truthful popped
  exact ⟨turned.trans noProgress, due, writers_setLoop _ _ _, calls_setLoop _ _ _⟩

theorem shift_step (h : Orderly b) (truthful : b.Truthful old) (hs : b.step = some b') :
    Shift old b b' := by
  unfold step at hs
  split at hs
  · next id running =>
    obtain ⟨c, hc, -⟩ := h.current id running
    refine .advanced running hc ?_
    rw [← Option.some.inj hs, proceed]
    simp only [hc]
  · next idle =>
    obtain ⟨⟨name, cb, b₀⟩, next, rfl⟩ := Option.map_eq_some_iff.1 hs
    obtain ⟨noProgress, due, writers, calls⟩ := noProgress_next truthful next
    exact shift_runCallback idle noProgress (.of_writers writers) calls _ due

theorem noProgress_ring (b : Bench) (r : Ring) : NoProgress old b (b.ring r) := by
  cases r with
  | writer i alarm =>
    cases alarm with
    | flush => exact noProgress_endCallback (noProgress_bufferAlarm b i)
    | expire batch => exact noProgress_endCallback (noProgress_change i fun w => w.unfed_expire _ _)
  | wake id =>
    unfold ring
    dsimp only
    split
    · next c hc =>
      split
      · next waits => exact noProgress_queue hc waits .rung
      · exact .refl b
    · exact .refl b

theorem begins_programOf {label : String} {task : Task} {p : Program}
    (known : b.programOf label task = .ok p) : p.Begins := by
  cases task with
  | write n element context =>
    obtain ⟨i, -, known⟩ := ok_of_bind known
    obtain ⟨_, -, known⟩ := ok_of_bind known
    cases known
    exact ⟨rfl, rfl, rfl⟩
  | writeAll n elements =>
    obtain ⟨i, -, known⟩ := ok_of_bind known
    cases known
    exact ⟨rfl, rfl, rfl⟩
  | commit n flush =>
    obtain ⟨i, -, known⟩ := ok_of_bind known
    cases known
    rfl
  | close n | enter n | publish bus event | submit n entries =>
    obtain ⟨_, -, rfl⟩ := ok_of_map known
    trivial
  | drain n =>
    obtain ⟨d, -, known⟩ := ok_of_bind known
    dsimp only at known
    split at known <;> cases known <;> trivial

theorem noProgress_withNew (b : Bench) (name : String) {w : Writer} (fresh : w.Fresh) :
    NoProgress old b (b.withNew name w) where
  toStays := .of_same rfl rfl rfl rfl rfl rfl
  answers := rfl
  writers i u hu := ⟨u, writer_kept hu name w, .refl u⟩
  built i u hu none := by
    rcases writer_withNew hu with hu | rfl
    · rw [hu] at none
      cases none
    · exact ⟨u, fresh, .refl u⟩

theorem shift_create (b : Bench) (name : String) (spec : WriterSpec) :
    Shift old b (b.create name spec).2 := by
  rcases create_cases b name spec with same | ⟨c, built⟩
  · rw [same]
    exact .beside (.refl b) (.inr (.of_writers rfl))
  · have measured : NoProgress old (b.withNew name c.writer)
        { b.withNew name c.writer with metrics := b.metrics.register c.writer.label } :=
      .of_same rfl rfl rfl rfl rfl rfl rfl rfl
    have told := measured.trans
      (noProgress_foldl (noProgress_perform b.writers.length c.writer.label) c.effects _)
    rw [← built.same] at told
    exact .beside ((noProgress_withNew b name built.fresh).trans told)
      (.inr fun _ _ => built.kept)

theorem noProgress_closeLoop (b : Bench) (name : LoopName) : NoProgress old b (b.closeLoop name) :=
  (noProgress_time b _).trans (noProgress_setLoop fun _ hm => absurd hm List.not_mem_nil)

theorem Move.shift (m : Move b b') (h : Orderly b) (truthful : b.Truthful old) :
    Shift old b b' := by
  have aside : NoProgress old b b' → b'.writers = b.writers → Shift old b b' :=
    fun noProgress writers => .beside noProgress (.inr (.of_writers writers))
  cases m with
  | step next => exact shift_step h truthful next
  | turn name => exact aside (.of_same rfl rfl rfl rfl rfl rfl rfl rfl) rfl
  | ring idle due => exact .beside ((noProgress_time b _).trans (noProgress_ring _ _)) (.inl idle)
  | wait instant => exact aside (noProgress_time b _) rfl
  | create name spec => exact shift_create b name spec
  | start name known =>
    exact aside (noProgress_start b _ _ (begins_programOf known) _) (writers_post _ _ _)
  | endJobs label name destination =>
    exact aside (noProgress_start b _ _ (p := .shutDown destination) trivial _) (writers_post _ _ _)
  | submitOutside idle destination entries label =>
    exact .beside (noProgress_submit b _ _ _ _) (.inl idle)
  | interrupt id => exact aside (noProgress_interrupt b id) (writers_interrupt _ _)
  | tell fits report => exact aside (noProgress_tellHandle b _ _) (writers_tellHandle _ _ _)
  | runJob destination job => exact aside (noProgress_runJob b _ _) (writers_runJob _ _ _)
  | cancelJob destination job => exact aside (noProgress_cancelJob b _ _) (writers_cancelJob _ _ _)
  | shutDown destination => exact aside (noProgress_shutDown b _) (writers_shutDown _ _)
  | subscribe bus name =>
    exact aside (noProgress_subscribe b _ _) (Aside.subscribe b bus name).writers
  | unsubscribe bus name =>
    exact aside (noProgress_unsubscribe b _ _) (Aside.unsubscribe b bus name).writers
  | closeLoop idle name => exact .beside (noProgress_closeLoop b name) (.inl idle)

end Bench
end BatchWriter
