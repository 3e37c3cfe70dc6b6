import BatchWriter.Proofs.Bench.Coherent

/-!
# Changes beside the writers

Telling, posting, setting alarms, starting calls and cancelling them leave the writers
alone. Each is shown to pass a coherent bench on, whoever does it and at whatever point.
-/

set_option autoImplicit false

namespace BatchWriter

theorem Program.rests_of_waitsOn {p : Program} {i : Nat} (h : p.waitsOn? = some i) : p.Rests := by
  cases p with
  | write job point => cases point <;> trivial
  | commit job point => cases point <;> trivial
  | _ => trivial

namespace Bench

variable {hand : Option Nat} {b b' b'' : Bench}

structure Aside (b b' : Bench) : Prop where
  calls : b'.calls = b.calls
  writers : b'.writers = b.writers
  main : b'.main = b.main
  alt : b'.alt = b.alt
  running : b'.running = b.running
  destinations : b'.destinations = b.destinations
  time : b'.time = b.time
  names : b'.names = b.names

namespace Aside

theorem refl (b : Bench) : Aside b b := ⟨rfl, rfl, rfl, rfl, rfl, rfl, rfl, rfl⟩

theorem trans (h : Aside b b') (h' : Aside b' b'') : Aside b b'' where
  calls := h'.calls.trans h.calls
  writers := h'.writers.trans h.writers
  main := h'.main.trans h.main
  alt := h'.alt.trans h.alt
  running := h'.running.trans h.running
  destinations := h'.destinations.trans h.destinations
  time := h'.time.trans h.time
  names := h'.names.trans h.names

theorem tell (b : Bench) (happening : Happening) : Aside b (b.tell happening) :=
  ⟨rfl, rfl, rfl, rfl, rfl, rfl, rfl, rfl⟩

theorem log (b : Bench) (n : Notice) : Aside b (b.log n) := tell b _

theorem openBus (b : Bench) (name : String) : Aside b (b.openBus name) := by
  unfold Bench.openBus
  dsimp only
  split
  · exact refl b
  · split <;> exact ⟨rfl, rfl, rfl, rfl, rfl, rfl, rfl, rfl⟩

theorem subscribe (b : Bench) (bus name : String) : Aside b (b.subscribe bus name) := by
  refine (openBus b bus).trans ?_
  unfold Bench.subscribe
  dsimp only
  split
  · exact refl _
  · exact ⟨rfl, rfl, rfl, rfl, rfl, rfl, rfl, rfl⟩

theorem unsubscribe (b : Bench) (bus name : String) : Aside b (b.unsubscribe bus name) := by
  refine (openBus b bus).trans ?_
  unfold Bench.unsubscribe
  dsimp only
  split
  · exact ⟨rfl, rfl, rfl, rfl, rfl, rfl, rfl, rfl⟩
  · exact refl _

theorem publication (b : Bench) (bus : String) (event : Event) :
    Aside b (b.publication bus event).1 := by
  refine (openBus b bus).trans ?_
  unfold Bench.publication
  dsimp only
  split
  · exact refl _
  · exact log _ _

theorem loop (h : Aside b b') (name : LoopName) : b'.loop name = b.loop name := by
  cases name with
  | main => exact h.main
  | alt => exact h.alt

theorem extends_ (h : Aside b b') : b.Extends b' := .of_writers h.writers

end Aside

/-- A status fits on when calls stay queued and keep waiting. -/
theorem StatusFits.mono {id : Nat} {c : Call} (hs : b.StatusFits id c)
    (running : b.running = some id → b'.running = some id)
    (queued : ∀ r, c.status = .queued r → b.Queued id c.loop → b'.Queued id c.loop)
    (waiters : c.status = .waiting .change → ∀ (i : Nat) (w : Writer), b.writers[i]? = some w →
      id ∈ w.waiters → ∃ w' : Writer, b'.writers[i]? = some w' ∧ id ∈ w'.waiters) :
    b'.StatusFits id c := by
  unfold StatusFits at hs ⊢
  split
  · next hq =>
    simp only [hq] at hs
    exact ⟨hs.1, queued _ hq hs.2⟩
  · next hr =>
    simp only [hr] at hs
    exact running hs
  · next hw =>
    simp only [hw] at hs
    obtain ⟨i, w, hi, hm, hid⟩ := hs
    obtain ⟨w', hm', hid'⟩ := waiters hw i w hm hid
    exact ⟨i, w', hi, hm', hid'⟩
  · next on hn hw =>
    simp only [hw] at hs
    cases on with
    | change => exact absurd rfl hn
    | alarm | forever | calls _ _ => exact hs
  · trivial

theorem StatusFits.same {id : Nat} {c : Call} (hs : b.StatusFits id c)
    (writers : b'.writers = b.writers) (running : b'.running = b.running)
    (queued : ∀ name, b.Queued id name → b'.Queued id name) : b'.StatusFits id c :=
  hs.mono running.trans (fun _ _ => queued _) fun _ _ w hw hid => ⟨w, writers ▸ hw, hid⟩

theorem passes_of_same (coherent : Coherent hand b') (running : b'.running = b.running)
    (calls : b'.calls = b.calls) (writers : b'.writers = b.writers) : Passes hand b b' where
  coherent := coherent
  running := running
  grows := .of_writers writers
  calls _ c hc := ⟨c, calls ▸ hc, .refl c⟩
  waiters _ w hw _ hid := ⟨w, writers ▸ hw, hid⟩
  waiting _ c hc hs := ⟨c, calls ▸ hc, hs, rfl⟩
  minds := .of_writers writers

theorem passes_of_aside (h : Coherent hand b) (ha : Aside b b') : Passes hand b b' :=
  passes_of_same
    { calls := by
        intro id c hc hh he
        rw [ha.calls] at hc
        obtain ⟨hp, hs⟩ := h.calls id c hc hh he
        refine ⟨ha.extends_.program hp, hs.same ha.writers ha.running fun name hq => ?_⟩
        rwa [Queued, ha.loop]
      waiters := by rw [ha.writers, ha.calls]; exact h.waiters
      callbacks := by
        intro name cb hc
        rw [ha.loop] at hc
        exact ha.extends_.callback (h.callbacks name cb hc)
      destinations := by
        intro d hd
        rw [ha.destinations] at hd
        exact ha.extends_.destination (h.destinations d hd)
      alarms := by
        intro a hm
        rw [ha.time] at hm
        exact ha.extends_.alarm (h.alarms a hm)
      names := by
        intro name i hn
        rw [ha.names] at hn
        exact ha.extends_.held i (h.names name i hn)
      writers := by rw [ha.writers]; exact h.writers }
    ha.running ha.calls ha.writers

theorem passes_time (h : Coherent hand b) (time : Timetable Ring)
    (fits : ∀ a ∈ time.alarms, b.AlarmFits a.action) : Passes hand b { b with time } :=
  passes_of_same { h with alarms := fits } rfl rfl rfl

theorem passes_setDestination (h : Coherent hand b) (i : Nat) {d : Destination}
    (fits : b.DestinationFits d) : Passes hand b (b.setDestination i d) := by
  refine passes_of_same { h with destinations := fun e he => ?_ } rfl rfl rfl
  rcases List.mem_or_eq_of_mem_set he with he | rfl
  · exact h.destinations e he
  · exact fits

/-! What is on a ready queue stays there when something is posted. -/

section SetLoop

variable (b : Bench) (name : LoopName) (l : EventLoop Callback)

theorem calls_setLoop : (b.setLoop name l).calls = b.calls := by cases name <;> rfl

theorem writers_setLoop : (b.setLoop name l).writers = b.writers := by cases name <;> rfl

theorem running_setLoop : (b.setLoop name l).running = b.running := by cases name <;> rfl

theorem destinations_setLoop : (b.setLoop name l).destinations = b.destinations := by
  cases name <;> rfl

theorem time_setLoop : (b.setLoop name l).time = b.time := by cases name <;> rfl

theorem names_setLoop : (b.setLoop name l).names = b.names := by cases name <;> rfl

theorem loop_setLoop (other : LoopName) :
    (b.setLoop name l).loop other = if other = name then l else b.loop other := by
  cases name <;> cases other <;> rfl

end SetLoop

theorem closed_post (b : Bench) (name other : LoopName) (cb : Callback) :
    ((b.post name cb).loop other).closed = (b.loop other).closed := by
  rw [post, loop_setLoop]
  split
  · next h => rw [EventLoop.closed_post, h]
  · rfl

theorem mem_ready_post (b : Bench) (name other : LoopName) (cb x : Callback) :
    x ∈ ((b.post name cb).loop other).ready ↔
      x ∈ (b.loop other).ready ∨ (other = name ∧ (b.loop name).closed = false ∧ x = cb) := by
  rw [post, loop_setLoop]
  split
  · next h =>
    subst h
    cases hc : (b.loop other).closed with
    | true => simp [EventLoop.post, hc]
    | false => simp [EventLoop.ready_post_of_open hc]
  · next h => simp [h]

theorem Queued.post {id : Nat} {name : LoopName} (h : b.Queued id name) (other : LoopName)
    (cb : Callback) : (b.post other cb).Queued id name := by
  rw [Queued, closed_post]
  exact h.imp_right fun hm => (mem_ready_post _ _ _ _ _).2 (.inl hm)

theorem queued_post (b : Bench) (id : Nat) (name : LoopName) :
    (b.post name (.resume id)).Queued id name := by
  rw [Queued, closed_post, mem_ready_post]
  cases (b.loop name).closed <;> simp

/-- A loop may change as long as whoever is queued there stays queued. -/
theorem passes_setLoop (h : Coherent hand b) (name : LoopName) {l : EventLoop Callback}
    (fits : ∀ cb ∈ l.ready, b.CallbackFits name cb)
    (queued : ∀ (id : Nat) (c : Call) (r : Bool), some id ≠ hand → b.calls[id]? = some c →
      c.status = .queued r → b.Queued id name → l.closed = true ∨ .resume id ∈ l.ready) :
    Passes hand b (b.setLoop name l) := by
  have grows : b.Extends (b.setLoop name l) := .of_writers (writers_setLoop _ _ _)
  refine ⟨⟨⟨?_, ?_, ?_, ?_, ?_, ?_, ?_⟩, running_setLoop _ _ _, grows, ?_, ?_, ?_⟩,
    .of_writers (writers_setLoop _ _ _)⟩
  · intro id c hc hh he
    rw [calls_setLoop] at hc
    obtain ⟨hp, hs⟩ := h.calls id c hc hh he
    refine ⟨grows.program hp, hs.mono (running_setLoop _ _ _).trans (fun r hr hq => ?_) ?_⟩
    · rw [Queued, loop_setLoop]
      split
      · next same => exact queued id c r hh hc hr (same ▸ hq)
      · exact hq
    · rw [writers_setLoop]
      exact fun _ i w hw hid => ⟨w, hw, hid⟩
  · rw [writers_setLoop, calls_setLoop]
    exact h.waiters
  · intro other cb hm
    rw [loop_setLoop] at hm
    split at hm
    · next same => exact grows.callback (same ▸ fits cb hm)
    · exact grows.callback (h.callbacks other cb hm)
  · rw [destinations_setLoop]
    exact fun d hd => grows.destination (h.destinations d hd)
  · rw [time_setLoop]
    exact fun a ha => grows.alarm (h.alarms a ha)
  · rw [names_setLoop]
    exact fun n i hn => grows.held i (h.names n i hn)
  · rw [writers_setLoop]
    exact h.writers
  · rw [calls_setLoop]
    exact fun id c hc => ⟨c, hc, .refl c⟩
  · rw [writers_setLoop]
    exact fun i w hw id hid => ⟨w, hw, hid⟩
  · rw [calls_setLoop]
    exact fun id c hc hs => ⟨c, hc, hs, rfl⟩

theorem passes_post (h : Coherent hand b) (name : LoopName) (cb : Callback)
    (fits : b.CallbackFits name cb) : Passes hand b (b.post name cb) := by
  have stays : ∀ x ∈ (b.loop name).ready, x ∈ ((b.loop name).post cb).ready := by
    intro x hx
    unfold EventLoop.post
    split
    · exact hx
    · exact List.mem_append_left _ hx
  refine passes_setLoop h name (fun x hx => ?_) fun id c r _ _ _ hq => ?_
  · unfold EventLoop.post at hx
    split at hx
    · exact h.callbacks name x hx
    · rcases List.mem_append.1 hx with hx | hx
      · exact h.callbacks name x hx
      · rw [List.mem_singleton.1 hx]
        exact fits
  · rw [EventLoop.closed_post]
    exact hq.imp_right (stays _)

theorem passes_tellHandle (h : Coherent hand b) {handle : Handle} (fits : b.HandleFits handle)
    (report : Report) : Passes hand b (b.tellHandle handle report) := by
  cases handle with
  | recorder label => exact passes_of_aside h (.tell _ _)
  | batch i name batch =>
    unfold tellHandle
    dsimp only
    split
    · exact passes_of_aside h (.log _ _)
    · exact passes_post h name _ fits

/-- How a call that is not in hand may come to a new status. -/
inductive NextStatus (b : Bench) (id : Nat) (c : Call) : Status → Prop where
  | same : NextStatus b id c c.status
  | queued {on : Wait} (r : Bool) (waits : c.status = .waiting on) (queued : b.Queued id c.loop)
      (told : on = .change → r = true) : NextStatus b id c (.queued r)
  | interrupted {r : Bool} (queued : c.status = .queued r) : NextStatus b id c (.queued true)
  | left {l l' : List Nat} {r r' : Bool} (waits : c.status = .waiting (.calls l r)) :
      NextStatus b id c (.waiting (.calls l' r'))

theorem NextStatus.fits {id : Nat} {c : Call} {s : Status} (h : NextStatus b id c s)
    (hs : b.StatusFits id c) (watchers : List Watcher) :
    b.StatusFits id { c with status := s, watchers } := by
  unfold StatusFits at hs ⊢
  cases h with
  | same => exact hs
  | @queued on r waits queued told =>
    simp only [waits] at hs
    refine ⟨?_, queued⟩
    cases on with
    | change =>
      obtain ⟨i, _, hi, _⟩ := hs
      exact Program.rests_of_waitsOn hi
    | alarm | forever | calls _ _ => exact hs.1
  | interrupted queued =>
    simp only [queued] at hs
    exact hs
  | left waits =>
    simp only [waits] at hs
    exact hs

theorem NextStatus.awaits {id i : Nat} {c : Call} {s : Status} (h : NextStatus b id c s)
    (ha : Awaits i c) (watchers : List Watcher) : Awaits i { c with status := s, watchers } := by
  refine ⟨ha.1, ?_⟩
  cases h with
  | same => exact ha.2
  | queued r waits _ told =>
    rcases ha.2 with hw | hq
    · rw [waits, Status.waiting.injEq] at hw
      exact .inr (by rw [told hw])
    · rw [waits] at hq
      cases hq
  | interrupted => exact .inr rfl
  | left waits =>
    rcases ha.2 with hw | hq
    · rw [waits] at hw
      cases hw
    · rw [waits] at hq
      cases hq

theorem call_setCall {id k : Nat} {c c' : Call} (h : (b.setCall id c).calls[k]? = some c') :
    (k = id ∧ c' = c) ∨ (k ≠ id ∧ b.calls[k]? = some c') := by
  by_cases he : k = id
  · subst he
    rw [setCall, List.getElem?_set] at h
    split at h
    · split at h
      · exact .inl ⟨rfl, (Option.some.inj h).symm⟩
      · cases h
    · next hn => exact absurd rfl hn
  · rw [setCall, List.getElem?_set_ne (Ne.symm he)] at h
    exact .inr ⟨he, h⟩

theorem setCall_self {id : Nat} {c : Call} (h : b.calls[id]? = some c) (new : Call) :
    (b.setCall id new).calls[id]? = some new :=
  List.getElem?_set_self (List.getElem?_eq_some_iff.1 h).1

theorem call_kept {id k : Nat} {c : Call} (h : b.calls[k]? = some c) (new : Call) :
    (b.setCall id new).calls[k]? = some (if k = id then new else c) := by
  split
  · next he =>
    subst he
    exact setCall_self h new
  · next he => rw [setCall, List.getElem?_set_ne (Ne.symm he), h]

theorem passes_setCall (h : Coherent hand b) {id : Nat} {c : Call} (hc : b.calls[id]? = some c)
    {s : Status} (comes : NextStatus b id c s) (watchers : List Watcher) :
    Passes hand b (b.setCall id { c with status := s, watchers }) := by
  refine ⟨⟨{ h with calls := ?_, waiters := ?_ }, rfl, .of_writers rfl, ?_, ?_, ?_⟩,
    .of_writers rfl⟩
  · intro k c' hk hh he
    rcases call_setCall hk with ⟨rfl, rfl⟩ | ⟨-, hk⟩
    · have hl : c.isEnded = false := by
        cases comes with
        | same => exact he
        | queued _ hs | interrupted hs | left hs => rw [Call.isEnded, hs]
      obtain ⟨hp, hs⟩ := h.calls k c hc hh hl
      exact ⟨hp, comes.fits hs watchers⟩
    · exact h.calls k c' hk hh he
  · intro i w hw
    refine ⟨(h.waiters i w hw).1, fun k hk hh => ?_⟩
    obtain ⟨c', hc', ha⟩ := (h.waiters i w hw).2 k hk hh
    refine ⟨_, call_kept hc' _, ?_⟩
    split
    · next he =>
      subst he
      rw [hc, Option.some.injEq] at hc'
      subst hc'
      exact comes.awaits ha watchers
    · exact ha
  · intro k c' hk
    refine ⟨_, call_kept hk _, ?_⟩
    split
    · next he =>
      subst he
      rw [hc, Option.some.injEq] at hk
      subst hk
      refine ⟨rfl, fun hr => ?_⟩
      cases comes with
      | same => exact ⟨hr, rfl⟩
      | queued _ hs | interrupted hs | left hs => rw [hs] at hr; cases hr
    · exact .refl c'
  · exact fun i w hw k hk => ⟨w, hw, hk⟩
  · intro k c' hk hs
    rcases call_setCall hk with ⟨rfl, rfl⟩ | ⟨-, hk⟩
    · refine ⟨c, hc, ?_, rfl⟩
      cases comes with
      | same => exact hs
      | queued | interrupted | left => cases hs
    · exact ⟨c', hk, hs, rfl⟩

/-- A call that waits goes to the end of its loop's ready queue. -/
theorem passes_queue (h : Coherent hand b) {id : Nat} {c : Call} (hc : b.calls[id]? = some c)
    {on : Wait} (waits : c.status = .waiting on) {interrupted : Bool}
    (told : on = .change → interrupted = true) : Passes hand b (b.queue id c interrupted) := by
  have posted := passes_post h c.loop (.resume id) trivial
  have hc' : (b.post c.loop (.resume id)).calls[id]? = some c := by rw [post, calls_setLoop, hc]
  have set := passes_setCall posted.coherent hc'
    (.queued interrupted waits (queued_post _ _ _) told) c.watchers
  have same : (b.post c.loop (.resume id)).setCall id
      { c with status := .queued interrupted, watchers := c.watchers } =
      b.queue id c interrupted := by
    rw [queue, setCall, setCall, post, post]
    cases c.loop <;> rfl
  exact same ▸ posted.trans set

/-- A call that is queued already takes its place behind all others. -/
theorem passes_append (h : Coherent hand b) {c : Call} (fits : c.program.Fits b c.loop)
    (rests : c.program.Rests) (status : c.status = .queued false)
    (queued : b.Queued b.calls.length c.loop) :
    Passes hand b { b with calls := b.calls ++ [c] } := by
  have look : ∀ (k : Nat) (c' : Call), (b.calls ++ [c])[k]? = some c' →
      b.calls[k]? = some c' ∨ (k = b.calls.length ∧ c' = c) := by
    intro k c' hk
    by_cases hlt : k < b.calls.length
    · rw [List.getElem?_append_left hlt] at hk
      exact .inl hk
    · rw [List.getElem?_append_right (by omega), List.getElem?_singleton] at hk
      split at hk
      · exact .inr ⟨by omega, (Option.some.inj hk).symm⟩
      · cases hk
  have old : ∀ (k : Nat) (c' : Call), b.calls[k]? = some c' → (b.calls ++ [c])[k]? = some c' := by
    intro k c' hk
    rw [List.getElem?_append_left (List.getElem?_eq_some_iff.1 hk).1, hk]
  refine ⟨⟨{ h with calls := ?_, waiters := ?_ }, rfl, .of_writers rfl, ?_, ?_, ?_⟩,
    .of_writers rfl⟩
  · intro k c' hk hh he
    rcases look k c' hk with hk | ⟨rfl, rfl⟩
    · exact h.calls k c' hk hh he
    · refine ⟨fits, ?_⟩
      rw [StatusFits, status]
      exact ⟨rests, queued⟩
  · intro i w hw
    refine ⟨(h.waiters i w hw).1, fun k hk hh => ?_⟩
    obtain ⟨c', hc', ha⟩ := (h.waiters i w hw).2 k hk hh
    exact ⟨c', old k c' hc', ha⟩
  · exact fun k c' hk => ⟨c', old k c' hk, .refl c'⟩
  · exact fun i w hw k hk => ⟨w, hw, hk⟩
  · intro k c' hk hs
    rcases look k c' hk with hk | ⟨-, rfl⟩
    · exact ⟨c', hk, hs, rfl⟩
    · rw [status] at hs
      cases hs

/-- A new call may start anywhere where programs rest. -/
theorem passes_start (h : Coherent hand b) (name : LoopName) (label : Option String)
    {program : Program} (watchers : List Watcher) (fits : program.Fits b name)
    (rests : program.Rests) : Passes hand b (b.start name label program watchers) := by
  have posted := passes_post h name (.resume b.calls.length) trivial
  have added := passes_append posted.coherent (c := { label, loop := name, program, watchers })
    (posted.grows.program fits) rests rfl (by rw [post, calls_setLoop]; exact queued_post _ _ _)
  have same : ({ b.post name (.resume b.calls.length) with
      calls := (b.post name (.resume b.calls.length)).calls ++
        [{ label, loop := name, program, watchers }] } : Bench) =
      b.start name label program watchers := by
    rw [start, post, post, calls_setLoop]
    cases name <;> rfl
  exact same ▸ posted.trans added

end Bench
end BatchWriter
