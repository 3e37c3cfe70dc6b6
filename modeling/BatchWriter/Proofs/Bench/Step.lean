import BatchWriter.Proofs.Bench.Points
import BatchWriter.Proofs.Timetable

/-!
# A step keeps a bench orderly

The running call goes on by one point, or the next callback runs; between the steps an alarm
may ring and a loop may be closed. Each of them leaves an orderly bench behind.
-/

set_option autoImplicit false

namespace BatchWriter

theorem Program.poised_of_rests {p : Program} (h : p.Rests) (b : Bench) : p.Poised b := by
  cases p with
  | write job point => cases point <;> trivial
  | commit job point => cases point <;> trivial
  | _ => trivial

namespace Bench

variable {hand : Option Nat} {b b' : Bench} {id : Nat} {name : LoopName}

theorem Coherent.take (h : Coherent none b) (hand : Option Nat) : Coherent hand b :=
  { h with
    calls := fun id c hc _ => h.calls id c hc (by simp)
    waiters := fun i w hw =>
      ⟨(h.waiters i w hw).1, fun id hid _ => (h.waiters i w hw).2 id hid (by simp)⟩ }

/-- Only a call that waits for a writer, or was cancelled meanwhile, is on a writer's list. -/
theorem Coherent.apart (h : Coherent none b) {c : Call} (hc : b.calls[id]? = some c)
    (away : c.program.waitsOn? = none ∨
      (c.status ≠ .waiting .change ∧ c.status ≠ .queued true)) : b.Apart id := by
  intro w hm hid
  obtain ⟨i, hw⟩ := List.mem_iff_getElem?.1 hm
  obtain ⟨u, hu, on, status⟩ := (h.waiters i w hw).2 id hid (by simp)
  rw [hc, Option.some.injEq] at hu
  subst hu
  rcases away with none | away
  · rw [none] at on
    cases on
  · exact status.elim away.1 away.2

theorem Orderly.inHand (h : Orderly b) (running : b.running = some id) {c : Call}
    (hc : b.calls[id]? = some c) : InHand b id c.loop := by
  obtain ⟨status, -⟩ := h.runs running hc
  exact
    { coherent := h.coherent.take _
      running := .inr running
      watched := h.watched
      call := ⟨c, hc, rfl, by simp [status]⟩
      apart := h.coherent.apart hc (.inr (by simp [status])) }

theorem orderly_proceed (h : Orderly b) (running : b.running = some id) :
    Orderly (b.proceed id) := by
  obtain ⟨c, hc, -⟩ := h.current id running
  obtain ⟨-, -, fits, poised⟩ := h.runs running hc
  have inHand := h.inHand running hc
  unfold proceed
  simp only [hc]
  exact (leads_advanceProgram inHand fits poised).orderly inHand

/-! A callback leaves its ready queue before it runs. -/

theorem ready_of_pop {l l' : EventLoop Callback} {cb : Callback} (h : l.pop? = some (cb, l')) :
    l.ready = cb :: l'.ready ∧ l'.closed = l.closed := by
  unfold EventLoop.pop? at h
  split at h
  · cases h
  · next hr =>
    cases h
    exact ⟨hr, rfl⟩

/-- The first callback of a loop is taken off; the call that it resumes is in hand. -/
theorem passes_pop (h : Coherent hand b) {l : EventLoop Callback} {cb : Callback}
    (popped : (b.loop name).pop? = some (cb, l))
    (safe : ∀ (id : Nat) (c : Call) (r : Bool), cb = .resume id → some id ≠ hand →
      b.calls[id]? = some c → c.status ≠ .queued r) : Passes hand b (b.setLoop name l) := by
  obtain ⟨ready, closed⟩ := ready_of_pop popped
  refine passes_setLoop h name (fun x hx => ?_) fun id c r hh hc hr hq => ?_
  · exact h.callbacks name x (by rw [ready]; exact List.mem_cons_of_mem _ hx)
  · rw [closed]
    refine hq.imp_right fun hm => ?_
    rw [ready] at hm
    exact (List.mem_cons.1 hm).resolve_left fun he => safe id c r he.symm hh hc hr

/-- The call that a callback resumes is taken in hand when the callback leaves its loop. -/
theorem Orderly.takes (h : Orderly b) (idle : b.running = none) {l : EventLoop Callback}
    (popped : (b.loop name).pop? = some (.resume id, l)) {c : Call} (hc : b.calls[id]? = some c)
    (still : c.status ≠ .waiting .change) :
    Passes (some id) b (b.setLoop name l) ∧ Taken (b.setLoop name l) id c.loop := by
  have passes : Passes (some id) b (b.setLoop name l) :=
    passes_pop (h.coherent.take _) popped fun k _ _ he hh =>
      absurd (congrArg some (Callback.resume.inj he)).symm hh
  exact ⟨passes, .passes ⟨h.coherent.take _, .inl idle, h.watched, c, hc, rfl, still⟩ passes⟩

theorem inHand_dropWaiter (h : Taken b id name) {i : Nat}
    (own : ∀ (j : Nat) (w : Writer), b.writers[j]? = some w → id ∈ w.waiters → j = i) :
    InHand (b.change i (·.dropWaiter id)).2 id name := by
  cases hw : b.writers[i]? with
  | none =>
    rw [change_of_none hw]
    refine ⟨h, fun u hm hid => ?_⟩
    obtain ⟨j, hu⟩ := List.mem_iff_getElem?.1 hm
    rw [own j u hu hid, hw] at hu
    cases hu
  | some w =>
    have same : (b.change i (·.dropWaiter id)).2 = b.relist i w (w.waiters.filter (· ≠ id)) := by
      simp only [change, hw]
      rfl
    rw [same]
    refine ⟨h.relist hw _ ?_ fun k hk => by simp [hk], fun u hm hid => ?_⟩
    · exact (h.coherent.waiters i w hw).1.filter _
    · obtain ⟨j, hu⟩ := List.mem_iff_getElem?.1 hm
      rcases writer_relist hw hu with ⟨rfl, rfl⟩ | ⟨hne, hu⟩
      · simp at hid
      · exact hne (own j u hu hid)

/-- A call that was cancelled ends, or goes on with a send that knows what to do. -/
theorem orderly_interrupt (h : Taken b id name) {p : Program} (fits : p.Fits b name)
    (own : ∀ (j : Nat) (w : Writer), b.writers[j]? = some w → id ∈ w.waiters →
      p.waitsOn? = some j) :
    Orderly ((b.interruptProgram id p).1.resolve id (b.interruptProgram id p).2) := by
  have apart : p.waitsOn? = none → b.Apart id := by
    intro none w hm hid
    obtain ⟨j, hw⟩ := List.mem_iff_getElem?.1 hm
    have := own j w hw hid
    rw [none] at this
    cases this
  have writer : ∀ i, (∀ j, p.waitsOn? = some j → j = i) →
      Orderly ((b.change i (·.dropWaiter id)).2.resolve id (.stop .cancelled)) := by
    intro i hi
    exact orderly_resolve (inHand_dropWaiter h fun j w hw hid => hi j (own j w hw hid)) trivial
  cases p with
  | write job point =>
    refine writer job.writer fun j hj => ?_
    cases point with
    | woken _ => exact (Option.some.inj hj).symm
    | _ => cases hj
  | commit job point =>
    refine writer job.writer fun j hj => ?_
    cases point with
    | woken => exact (Option.some.inj hj).symm
    | _ => cases hj
  | send job point =>
    have inHand : InHand b id name := ⟨h, apart rfl⟩
    exact (Leads.on (goes_sendInterrupted h.coherent fits point)).orderly inHand
  | close _ | enter _ | publish _ _ | deliver _ | drainSends _ _ | shutDown _ | rest
  | submit _ _ _ => exact orderly_resolve ⟨h, apart rfl⟩ trivial

theorem orderly_resume (h : Orderly b) (idle : b.running = none) {l : EventLoop Callback}
    (popped : (b.loop name).pop? = some (.resume id, l)) :
    Orderly ((b.setLoop name l).resume id) := by
  have calls := calls_setLoop b name l
  -- Unless the call is queued, its callback is stale.
  have stale : (∀ (c : Call) (r : Bool), b.calls[id]? = some c → c.status ≠ .queued r) →
      Orderly (b.setLoop name l) := by
    intro hs
    refine h.passes idle (passes_pop h.coherent popped fun k c r he _ hc => ?_)
    cases he
    exact hs c r hc
  unfold resume
  split
  · next hn =>
    rw [calls] at hn
    exact stale fun c r hc => by rw [hn] at hc; cases hc
  · next c hc =>
    rw [calls] at hc
    split
    · next hs =>
      obtain ⟨passes, taken⟩ := h.takes idle popped hc (by simp [hs])
      have fits := (h.coherent.calls id c hc (by simp) (by rw [Call.isEnded, hs])).1
      refine orderly_interrupt taken (passes.grows.program fits) ?_
      intro j w hw hid
      rw [writers_setLoop] at hw
      obtain ⟨u, hu, on, -⟩ := (h.coherent.waiters j w hw).2 id hid (by simp)
      rw [hc, Option.some.injEq] at hu
      rw [hu, on]
    · next hs =>
      obtain ⟨passes, taken⟩ := h.takes idle popped hc (by simp [hs])
      obtain ⟨fits, stands⟩ := h.coherent.calls id c hc (by simp) (by rw [Call.isEnded, hs])
      rw [StatusFits, hs] at stands
      have inHand : InHand (b.setLoop name l) id c.loop :=
        ⟨taken, passes.apart (h.coherent.apart hc (.inr (by simp [hs])))⟩
      exact orderly_put inHand.toTaken (inHand.settles { c with status := .running }
        (fun _ => ⟨passes.grows.program fits, rfl⟩)
        (.inr ⟨rfl, rfl, Program.poised_of_rests stands.1 _⟩) (by simp))
    · next hi hq =>
      refine stale fun c' r hc' hs => ?_
      rw [hc, Option.some.injEq] at hc'
      subst hc'
      cases r with
      | true => exact hi hs
      | false => exact hq hs

theorem orderly_runCallback (h : Orderly b) (idle : b.running = none) {l : EventLoop Callback}
    {cb : Callback} (popped : (b.loop name).pop? = some (cb, l)) :
    Orderly ((b.setLoop name l).runCallback name cb) := by
  have ready : cb ∈ (b.loop name).ready := by
    rw [(ready_of_pop popped).1]
    exact List.mem_cons_self
  have fits := h.coherent.callbacks name cb ready
  have passes : (∀ id, cb ≠ .resume id) → Passes none b (b.setLoop name l) :=
    fun hn => passes_pop h.coherent popped fun id _ _ he => absurd he (hn id)
  cases cb with
  | resume id => exact orderly_resume h idle popped
  | report i batch report =>
    have first := passes (by simp)
    exact h.passes idle (first.andThen fun h =>
      passes_endCallback (passes_receive h (first.grows.owned i name fits) batch report))
  | forget destination call =>
    exact h.passes idle ((passes (by simp)).andThen fun h => passes_forget h destination call)
  | gathered call child =>
    exact h.passes idle ((passes (by simp)).andThen fun h => passes_countGathered h call child)

theorem Orderly.turn (h : Orderly b) (turn : LoopName) : Orderly { b with turn } :=
  h.beside (passes_of_aside h.coherent ⟨rfl, rfl, rfl, rfl, rfl, rfl, rfl, rfl⟩)
    fun _ _ hw => hw

/-- The next callback is taken off its loop, which has the turn then. -/
theorem next_pops {cb : Callback} {b₀ : Bench} (next : b.nextCallback? = some (name, cb, b₀)) :
    ∃ (turn : LoopName) (l : EventLoop Callback), (b.loop name).pop? = some (cb, l) ∧
      b₀ = ({ b with turn } : Bench).setLoop name l := by
  unfold nextCallback? at next
  split at next
  · next popped =>
    cases next
    exact ⟨b.turn, _, popped, rfl⟩
  · split at next
    · next popped =>
      cases next
      refine ⟨b.turn.other, _, popped, ?_⟩
      cases b.turn.other <;> rfl
    · cases next

theorem orderly_step (h : Orderly b) (hs : b.step = some b') : Orderly b' := by
  unfold step at hs
  split at hs
  · next id running =>
    rw [← Option.some.inj hs]
    exact orderly_proceed h running
  · next idle =>
    obtain ⟨⟨name, cb, b₀⟩, next, rfl⟩ := Option.map_eq_some_iff.1 hs
    obtain ⟨turn, l, popped, rfl⟩ := next_pops next
    exact orderly_runCallback (h.turn turn) idle popped

/-! Between steps alarms ring and loops are closed. -/

theorem orderly_ring (h : Orderly b) (idle : b.running = none) {r : Ring}
    (fits : b.AlarmFits r) : Orderly (b.ring r) := by
  unfold ring
  split
  · exact h.passes idle (passes_endCallback (passes_bufferAlarm h.coherent fits))
  · exact h.passes idle (passes_endCallback (passes_change h.coherent fun _ _ => .expire b.now _))
  · split
    · next c hc =>
      split
      · next hs => exact h.passes idle (passes_queue h.coherent hc hs (by simp))
      · exact h
    · exact h

theorem orderly_ringNext (h : Orderly b) (idle : b.running = none) {limit : Nat} {r : Ring}
    {time : Timetable Ring} (hr : b.time.Rings limit r time) :
    Orderly (ring { b with time } r) := by
  obtain ⟨due, -, set, -, rfl⟩ := hr
  have rang : Passes none b { b with time := { b.time.cancel r with now := max b.time.now due } } :=
    passes_time h.coherent _ fun a ha => h.coherent.alarms a (List.mem_of_mem_filter ha)
  exact orderly_ring (h.passes idle rang) idle (rang.grows.alarm (h.coherent.alarms _ set))

theorem orderly_closeLoop (h : Orderly b) (idle : b.running = none) (name : LoopName) :
    Orderly (b.closeLoop name) := by
  have kept := passes_time h.coherent
    { b.time with alarms := b.time.alarms.filter fun a => b.loopOf a.action ≠ name }
    fun a ha => h.coherent.alarms a (List.mem_of_mem_filter ha)
  refine h.passes idle (kept.andThen fun h => passes_setLoop h name ?_ ?_)
  · exact fun cb hm => by cases hm
  · exact fun _ _ _ _ _ _ _ => .inl rfl

end Bench
end BatchWriter
