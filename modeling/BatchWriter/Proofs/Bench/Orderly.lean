import BatchWriter.Proofs.Bench.Outcome

/-!
# Orderly benches

Between two steps a bench is coherent, the running call stands where it has just made sure
of what it does next, and whoever waits for a writer waits for something that has not come
about. What passes a bench on keeps all of this; so does a call that ends its point.
-/

set_option autoImplicit false

namespace BatchWriter

theorem Program.Blocked.mono {p : Program} {w w' : Writer} (h : p.Blocked w)
    (limit : w'.inFlight.limit = w.inFlight.limit) (sound : w'.inFlight.Sound)
    (count : w.inFlight.count ≤ w'.inFlight.count) (busy : w.isBusy = true → w'.isBusy = true) :
    p.Blocked w' := by
  have full : w.hasCapacity = false → w'.hasCapacity = false := by
    intro hw
    by_contra room
    -- A batch was opened in a slot that was not there.
    rcases Nat.lt_or_eq_of_le count with lt | eq
    · have := sound.room _ lt
      rw [limit] at this
      rw [Writer.hasCapacity, InFlight.hasCapacity, this] at hw
      cases hw
    · rw [Writer.hasCapacity, InFlight.hasCapacity, limit, ← eq] at room
      exact room hw
  cases p with
  | write job point =>
    cases point with
    | woken _ => exact full h
    | _ => trivial
  | commit job point =>
    cases point with
    | woken =>
      simp only [Blocked] at h ⊢
      split
      · next flush =>
        rw [if_pos flush] at h
        exact h.imp (fun hc => Nat.lt_of_lt_of_le hc count) full
      · next flush =>
        rw [if_neg flush] at h
        exact busy h
    | _ => trivial
  | _ => trivial

/-- What a call has made sure of of its writer stays so while the writer stays the same. -/
theorem Program.Poised.keep {b b' : Bench} {p : Program} {name : LoopName} (h : p.Poised b)
    (fits : p.Fits b name)
    (kept : ∀ (i : Nat) (w : Writer), b.writers[i]? = some w → b'.writers[i]? = some w) :
    p.Poised b' := by
  have known : ∀ {i : Nat} {u : Writer}, b.Owned i name → b'.writers[i]? = some u →
      b.writers[i]? = some u := by
    intro i u ho hu
    obtain ⟨w, hw, -⟩ := ho
    rw [kept i w hw] at hu
    exact hu ▸ hw
  cases p with
  | write job point =>
    cases point with
    | dispatch _ => exact fun u hu => h u (known fits hu)
    | _ => trivial
  | commit job point =>
    cases point with
    | drain => exact fun u hu => h u (known fits hu)
    | _ => trivial
  | _ => trivial

namespace Bench

variable {hand : Option Nat} {b b' : Bench} {id : Nat} {c : Call}

/-- Whoever waits for a writer waits for a usable one, and for something that has not come
about. -/
def Watched (b : Bench) : Prop :=
  ∀ (id : Nat) (c : Call) (i : Nat) (w : Writer), b.calls[id]? = some c →
    c.status = .waiting .change → c.program.waitsOn? = some i → b.writers[i]? = some w →
    w.config.Tame → w.refusal? = none ∧ c.program.Blocked w

structure Orderly (b : Bench) : Prop where
  coherent : Coherent none b
  current : ∀ id, b.running = some id →
    ∃ c : Call, b.calls[id]? = some c ∧ c.status = .running ∧ c.program.Poised b
  watched : Watched b

/-- The call that runs has not ended, and stands where it has made sure of what it does next. -/
theorem Orderly.runs (h : Orderly b) (running : b.running = some id) (hc : b.calls[id]? = some c) :
    c.status = .running ∧ c.isEnded = false ∧ c.program.Fits b c.loop ∧ c.program.Poised b := by
  obtain ⟨c', hc', status, poised⟩ := h.current id running
  cases hc.symm.trans hc'
  have live : c.isEnded = false := by rw [Call.isEnded, status]
  exact ⟨status, live, (h.coherent.calls id c hc (by simp) live).1, poised⟩

theorem Watched.passes (h : Watched b) (hp : Passes hand b b')
    (idle : ∀ (id : Nat) (c : Call), hand = some id → b.calls[id]? = some c →
      c.status ≠ .waiting .change) : Watched b' := by
  intro id c' i w' hc' waits' on hw' tame
  obtain ⟨c, hc, waits, same⟩ := hp.waiting id c' hc' waits'
  have elsewhere : some id ≠ hand := fun he => idle id c he.symm hc waits
  obtain ⟨-, stands⟩ := hp.coherent.calls id c' hc' elsewhere (by rw [Call.isEnded, waits'])
  rw [StatusFits, waits'] at stands
  obtain ⟨j, u, hj, hu, hid⟩ := stands
  rw [on, Option.some.injEq] at hj
  subst hj
  rw [hw', Option.some.injEq] at hu
  subst hu
  rcases hp.minds i w' hw' tame with none | ⟨w, hw, config, binds⟩
  · rw [none] at hid
    cases hid
  · obtain ⟨usable, blocked⟩ := h id c i w hc waits (same ▸ on) hw (config ▸ tame)
    obtain ⟨usable', count, busy⟩ := binds usable
    obtain ⟨v, hv, later⟩ := hp.grows i w hw
    rw [hw', Option.some.injEq] at hv
    subst hv
    have sound := (hp.coherent.writers w' (List.mem_of_getElem? hw')).tracked.sound
    exact ⟨usable', same ▸ blocked.mono later.limit sound count busy⟩

theorem Orderly.passes (h : Orderly b) (idle : b.running = none) (hp : Passes none b b') :
    Orderly b' where
  coherent := hp.coherent
  current id hr := by
    rw [hp.running, idle] at hr
    cases hr
  watched := h.watched.passes hp fun _ _ he => by cases he

theorem Orderly.beside (h : Orderly b) (hp : Passes none b b')
    (kept : ∀ (i : Nat) (w : Writer), b.writers[i]? = some w → b'.writers[i]? = some w) :
    Orderly b' where
  coherent := hp.coherent
  current id hr := by
    rw [hp.running] at hr
    obtain ⟨c, hc, running, poised⟩ := h.current id hr
    obtain ⟨c', hc', continues⟩ := hp.calls id c hc
    obtain ⟨running', same⟩ := continues.2 running
    have fits := (h.coherent.calls id c hc (by simp) (by rw [Call.isEnded, running])).1
    exact ⟨c', hc', running', same ▸ poised.keep fits kept⟩
  watched := h.watched.passes hp fun _ _ he => by cases he

end Bench
end BatchWriter
