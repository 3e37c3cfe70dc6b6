import BatchWriter.Proofs.Bench.Orderly

/-!
# From one point to the next

A call is in hand while it runs through a point. At the end of the point it goes on, gives
way, waits or ends, and the bench is orderly again; a call that waits for a writer puts
itself on the writer's list, after it has seen that there is something to wait for.
-/

set_option autoImplicit false

namespace BatchWriter

def Progress.Fits (b : Bench) (name : LoopName) : Progress → Prop
  | .go p => p.Fits b name ∧ p.Poised b
  | .yield p => p.Fits b name ∧ p.Rests
  | .sleep _ p => p.Fits b name ∧ p.Rests ∧ p.waitsOn? = none
  | .wait on p => p.Fits b name ∧ p.Rests ∧ p.waitsOn? = none ∧ on ≠ .change
  | .finish _ => True

namespace Bench

variable {hand : Option Nat} {b b' : Bench} {id : Nat} {name : LoopName}

/-- One call has been taken in hand; nothing else is out of order. -/
structure Taken (b : Bench) (id : Nat) (name : LoopName) : Prop where
  coherent : Coherent (some id) b
  running : b.running = none ∨ b.running = some id
  watched : Watched b
  call : ∃ c : Call, b.calls[id]? = some c ∧ c.loop = name ∧ c.status ≠ .waiting .change

structure InHand (b : Bench) (id : Nat) (name : LoopName) : Prop extends Taken b id name where
  apart : b.Apart id

theorem Taken.passes (h : Taken b id name) (hp : Passes (some id) b b') : Taken b' id name where
  coherent := hp.coherent
  running := by rw [hp.running]; exact h.running
  watched := by
    obtain ⟨c, hc, -, hs⟩ := h.call
    refine h.watched.passes hp fun k u hk hu => ?_
    rw [← Option.some.inj hk, hc, Option.some.injEq] at hu
    exact hu ▸ hs
  call := by
    obtain ⟨c, hc, hl, hs⟩ := h.call
    obtain ⟨c', hc', continues⟩ := hp.calls id c hc
    refine ⟨c', hc', continues.1.trans hl, fun waits => ?_⟩
    obtain ⟨u, hu, waits', -⟩ := hp.waiting id c' hc' waits
    rw [hc, Option.some.injEq] at hu
    exact hs (hu ▸ waits')

theorem InHand.passes (h : InHand b id name) (hp : Passes (some id) b b') : InHand b' id name :=
  ⟨h.toTaken.passes hp, hp.apart h.apart⟩

structure Settles (b : Bench) (id : Nat) (new : Call) (running : Option Nat) : Prop where
  fits : new.isEnded = false → new.program.Fits b new.loop ∧
    StatusFits { b.setCall id new with running } id new
  awaits : ∀ (i : Nat) (w : Writer), b.writers[i]? = some w → id ∈ w.waiters → Awaits i new
  ready : running = none ∨ running = some id ∧ new.status = .running ∧ new.program.Poised b
  watched : new.status = .waiting .change → ∀ (i : Nat) (w : Writer),
    new.program.waitsOn? = some i → b.writers[i]? = some w → w.config.Tame →
      w.refusal? = none ∧ new.program.Blocked w

theorem orderly_put (h : Taken b id name) {new : Call} {running : Option Nat}
    (settles : Settles b id new running) : Orderly { b.setCall id new with running } := by
  refine ⟨{ h.coherent with calls := ?_, waiters := ?_ }, ?_, ?_⟩
  · intro k c hk _ he
    rcases call_setCall hk with ⟨rfl, rfl⟩ | ⟨hne, hk⟩
    · exact settles.fits he
    · obtain ⟨hp, hs⟩ := h.coherent.calls k c hk (by simpa using hne) he
      refine ⟨hp, hs.mono (fun hr => ?_) (fun _ _ hq => hq) fun _ i w hw hid => ⟨w, hw, hid⟩⟩
      -- Only the call in hand may have been running.
      rcases h.running with none | some
      · rw [none] at hr
        cases hr
      · rw [some, Option.some.injEq] at hr
        exact absurd hr.symm hne
  · intro i w hw
    refine ⟨(h.coherent.waiters i w hw).1, fun k hk _ => ?_⟩
    by_cases hne : k = id
    · subst hne
      obtain ⟨c, hc, -⟩ := h.call
      exact ⟨new, setCall_self hc new, settles.awaits i w hw hk⟩
    · obtain ⟨c, hc, ha⟩ := (h.coherent.waiters i w hw).2 k hk (by simpa using hne)
      exact ⟨c, by rw [call_kept hc, if_neg hne], ha⟩
  · intro k hk
    rcases settles.ready with none | ⟨some, status, poised⟩
    · rw [none] at hk
      cases hk
    · obtain ⟨c, hc, -⟩ := h.call
      rw [some, Option.some.injEq] at hk
      subst hk
      exact ⟨new, setCall_self hc new, status, poised⟩
  · intro k c i w hk waits on hw tame
    rcases call_setCall hk with ⟨rfl, rfl⟩ | ⟨-, hk⟩
    · exact settles.watched waits i w on hw tame
    · exact h.watched k c i w hk waits on hw tame

/-- A call that is on no list and does not wait for a writer. -/
theorem InHand.settles (h : InHand b id name) (new : Call) {running : Option Nat}
    (fits : new.isEnded = false → new.program.Fits b new.loop ∧
      StatusFits { b.setCall id new with running } id new)
    (ready : running = none ∨ running = some id ∧ new.status = .running ∧ new.program.Poised b)
    (still : new.status ≠ .waiting .change) : Settles b id new running where
  fits := fits
  awaits _ w hw hid := absurd hid (h.apart w (List.mem_of_getElem? hw))
  ready := ready
  watched waits := absurd waits still

theorem statusFits_waiting {c : Call} {on : Wait}
    (rests : c.program.Rests ∧ c.program.waitsOn? = none ∧ on ≠ .change) :
    b.StatusFits id { c with status := .waiting on } := by
  cases on with
  | change => exact absurd rfl rests.2.2
  | alarm | forever | calls _ _ => exact ⟨rests.1, rests.2.1⟩

theorem modify_call {c : Call} (hc : b.calls[id]? = some c) (f : Call → Call) :
    b.calls.modify id f = b.calls.set id (f c) := by
  rw [List.modify_eq_set_getElem?, hc]
  rfl

theorem passes_watchers (h : Coherent none b) (loop : LoopName) (child : Nat)
    (watchers : List Watcher) :
    Passes none b (watchers.foldl (fun b w => b.post loop (w.callback child)) b) := by
  induction watchers generalizing b with
  | nil => exact .refl h
  | cons w rest ih =>
    exact (passes_post h loop (w.callback child) (by cases w <;> trivial)).andThen ih

theorem orderly_finish (h : InHand b id name) (outcome : Except Fault Value) :
    Orderly (b.finish id outcome) := by
  obtain ⟨c, hc, -⟩ := h.call
  have ended := orderly_put h.toTaken (h.settles { c with status := .ended, watchers := [] }
    (fun he => by cases he) (.inl rfl) (by simp))
  have watched : ∀ d : Bench, Orderly d → d.running = none →
      Orderly (c.watchers.foldl (fun b w => b.post c.loop (w.callback id)) d) :=
    fun d hd idle => hd.passes idle (passes_watchers hd.coherent _ _ _)
  unfold finish
  simp only [hc]
  refine watched _ ?_ (by split <;> rfl)
  split
  · exact ended.passes rfl (passes_of_aside ended.coherent (.tell _ _))
  · exact ended

theorem orderly_resolve (h : InHand b id name) {progress : Progress}
    (fits : progress.Fits b name) : Orderly (b.resolve id progress) := by
  obtain ⟨c, hc, rfl, -⟩ := h.call
  cases progress with
  | finish outcome => exact orderly_finish h outcome
  | go program =>
    rw [resolve, modify_call hc]
    exact orderly_put h.toTaken
      (h.settles _ (fun _ => ⟨fits.1, rfl⟩) (.inr ⟨rfl, rfl, fits.2⟩) (by simp))
  | yield program =>
    have posted := passes_post h.coherent c.loop (.resume id) trivial
    have h := h.passes posted
    have same : queue { b with running := none } id { c with program } false =
        { (b.post c.loop (.resume id)).setCall id { c with program, status := .queued false } with
          running := none } := by
      unfold queue setCall post
      cases c.loop <;> rfl
    rw [resolve]
    simp only [hc]
    rw [same]
    exact orderly_put h.toTaken (h.settles _
      (fun _ => ⟨posted.grows.program fits.1, fits.2, queued_post _ _ _⟩) (.inl rfl) (by simp))
  | sleep delay program =>
    have h := h.passes (passes_time h.coherent (b.time.set delay (.wake id)) fun a ha => by
      rcases List.mem_append.1 ha with ha | ha
      · exact h.coherent.alarms a ha
      · rw [List.mem_singleton.1 ha]
        trivial)
    rw [resolve, modify_call hc]
    exact orderly_put h.toTaken (h.settles _ (fun _ => ⟨fits.1, fits.2⟩) (.inl rfl) (by simp))
  | wait on program =>
    rw [resolve, modify_call hc]
    exact orderly_put h.toTaken (h.settles _
      (fun _ => ⟨fits.1, statusFits_waiting (c := { c with program }) fits.2⟩) (.inl rfl)
      (by simp [fits.2.2.2]))

/-! The call in hand may put itself on a writer's list or take itself off. -/

def relist (b : Bench) (i : Nat) (w : Writer) (ids : List Nat) : Bench :=
  { b with writers := b.writers.set i { w with waiters := ids } }

section Relist

variable {i : Nat} {w : Writer} {ids : List Nat}

theorem writer_relist (hw : b.writers[i]? = some w) {j : Nat} {u : Writer}
    (hu : (b.relist i w ids).writers[j]? = some u) :
    (j = i ∧ u = { w with waiters := ids }) ∨ (j ≠ i ∧ b.writers[j]? = some u) := by
  by_cases hj : j = i
  · subst hj
    rw [relist, List.getElem?_set_self (List.getElem?_eq_some_iff.1 hw).1] at hu
    exact .inl ⟨rfl, (Option.some.inj hu).symm⟩
  · rw [relist, List.getElem?_set_ne (Ne.symm hj)] at hu
    exact .inr ⟨hj, hu⟩

theorem relisted (hw : b.writers[i]? = some w) {j : Nat} {u : Writer}
    (hu : b.writers[j]? = some u) :
    (b.relist i w ids).writers[j]? = some (if j = i then { w with waiters := ids } else u) := by
  split
  · next hj =>
    subst hj
    exact List.getElem?_set_self (List.getElem?_eq_some_iff.1 hw).1
  · next hj => rw [relist, List.getElem?_set_ne (Ne.symm hj), hu]

theorem later_relist (w : Writer) (ids : List Nat) : w.Later { w with waiters := ids } :=
  { Writer.Later.refl w with }

theorem extends_relist (hw : b.writers[i]? = some w) : b.Extends (b.relist i w ids) := by
  intro j u hu
  refine ⟨_, relisted hw hu, ?_⟩
  split
  · next hj =>
    subst hj
    rw [hw, Option.some.injEq] at hu
    exact hu ▸ later_relist w ids
  · exact .refl u

theorem coherent_relist (h : Coherent (some id) b) (hw : b.writers[i]? = some w)
    (distinct : ids.Nodup) (others : ∀ k, k ≠ id → (k ∈ ids ↔ k ∈ w.waiters)) :
    Coherent (some id) (b.relist i w ids) := by
  have grows : b.Extends (b.relist i w ids) := extends_relist hw
  refine ⟨?_, ?_, ?_, ?_, ?_, ?_, ?_⟩
  · intro k c hk hh he
    obtain ⟨hp, hs⟩ := h.calls k c hk hh he
    refine ⟨grows.program hp, hs.mono (fun hr => hr) (fun _ _ hq => hq) fun _ j u hu hid => ?_⟩
    refine ⟨_, relisted hw hu, ?_⟩
    split
    · next hj =>
      subst hj
      rw [hw, Option.some.injEq] at hu
      exact (others k (by simpa using hh)).2 (hu ▸ hid)
    · exact hid
  · intro j u hu
    rcases writer_relist hw hu with ⟨rfl, rfl⟩ | ⟨-, hu⟩
    · refine ⟨distinct, fun k hk hh => (h.waiters j w hw).2 k ?_ hh⟩
      exact (others k (by simpa using hh)).1 hk
    · exact h.waiters j u hu
  · exact fun n cb hm => grows.callback (h.callbacks n cb hm)
  · exact fun d hd => grows.destination (h.destinations d hd)
  · exact fun a ha => grows.alarm (h.alarms a ha)
  · exact fun n j hn => grows.held j (h.names n j hn)
  · intro u hu
    rcases List.mem_or_eq_of_mem_set hu with hu | rfl
    · exact h.writers u hu
    · refine Writer.Episode.lawful ?_ (h.writers w (List.mem_of_getElem? hw))
      exact .silent (later_relist w ids) ⟨rfl, rfl, rfl, rfl⟩

theorem Taken.relist (h : Taken b id name) (hw : b.writers[i]? = some w) (ids : List Nat)
    (distinct : ids.Nodup) (others : ∀ k, k ≠ id → (k ∈ ids ↔ k ∈ w.waiters)) :
    Taken (b.relist i w ids) id name where
  coherent := coherent_relist h.coherent hw distinct others
  running := h.running
  watched := by
    intro k c j u hk waits on hu tame
    rcases writer_relist hw hu with ⟨rfl, rfl⟩ | ⟨-, hu⟩
    · exact h.watched k c j w hk waits on hw tame
    · exact h.watched k c j u hk waits on hu tame
  call := h.call

/-- A call that has seen what it waits for may wait for it. -/
theorem orderly_park (h : InHand b id name) (hw : b.writers[i]? = some w)
    (usable : w.refusal? = none) {next : Program} (blocked : next.Blocked w)
    (waits : next.waitsOn? = some i) (fits : next.Fits b name) :
    Orderly ((b.relist i w (w.waiters ++ [id])).resolve id (.wait .change next)) := by
  have absent : id ∉ w.waiters := h.apart w (List.mem_of_getElem? hw)
  have distinct : (w.waiters ++ [id]).Nodup := by
    refine List.nodup_append.2 ⟨(h.coherent.waiters i w hw).1, List.nodup_singleton _, ?_⟩
    intro k hk x hx he
    rw [List.mem_singleton.1 hx] at he
    exact absent (he ▸ hk)
  have taken := h.toTaken.relist hw _ distinct fun k hk => by simp [hk]
  have found : (b.relist i w (w.waiters ++ [id])).writers[i]? =
      some { w with waiters := w.waiters ++ [id] } := by
    rw [relisted hw hw, if_pos rfl]
  obtain ⟨c, hc, rfl, -⟩ := h.call
  rw [resolve, modify_call (b := b.relist i w (w.waiters ++ [id])) hc]
  refine orderly_put taken ⟨fun _ => ⟨(extends_relist hw).program fits, ?_⟩, ?_, .inl rfl, ?_⟩
  · exact ⟨i, _, waits, found, by simp⟩
  · intro j u hu hid
    rcases writer_relist hw hu with ⟨rfl, -⟩ | ⟨-, hu⟩
    · exact ⟨waits, .inl rfl⟩
    · exact absurd hid (h.apart u (List.mem_of_getElem? hu))
  · intro _ j u on hu _
    have hj : j = i := Option.some.inj (on.symm.trans waits)
    subst hj
    rw [found, Option.some.injEq] at hu
    subst hu
    exact ⟨usable, blocked⟩

end Relist

end Bench
end BatchWriter
