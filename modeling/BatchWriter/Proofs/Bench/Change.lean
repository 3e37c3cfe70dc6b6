import BatchWriter.Proofs.Bench.Frame

/-!
# Changes of a writer on the bench

A writer's change takes place and the bench does what the change asks for: calls that it
wakes are queued, alarms are set or given up. A turn of a writer passes a coherent bench on.
-/

set_option autoImplicit false

namespace BatchWriter
namespace Bench

variable {hand : Option Nat} {b b' b'' : Bench}

structure Enacts (i : Nat) (effects : List Effect) (b b' : Bench) : Prop where
  writers : b'.writers = b.writers
  running : b'.running = b.running
  destinations : b'.destinations = b.destinations
  names : b'.names = b.names
  queued : ∀ (id : Nat) (name : LoopName), b.Queued id name → b'.Queued id name
  kept : ∀ (id : Nat) (c : Call), b.calls[id]? = some c → ∃ c' : Call, b'.calls[id]? = some c'
  calls : ∀ (id : Nat) (c' : Call), b'.calls[id]? = some c' → ∃ c : Call, b.calls[id]? = some c ∧
    ((c' = c ∧ (c.status = .waiting .change → Effect.wake id ∉ effects)) ∨
      (c' = { c with status := .queued false } ∧ c.status = .waiting .change ∧
        Effect.wake id ∈ effects ∧ b'.Queued id c.loop))
  callbacks : ∀ (name : LoopName) (cb : Callback), cb ∈ (b'.loop name).ready →
    cb ∈ (b.loop name).ready ∨ ∃ id, cb = .resume id
  alarms : ∀ a ∈ b'.time.alarms, a ∈ b.time.alarms ∨
    ∃ alarm delay, Effect.setAlarm alarm delay ∈ effects ∧ a.action = .writer i alarm

theorem Enacts.trans {i : Nat} {effects effects' : List Effect} (h : Enacts i effects b b')
    (h' : Enacts i effects' b' b'') : Enacts i (effects ++ effects') b b'' where
  writers := h'.writers.trans h.writers
  running := h'.running.trans h.running
  destinations := h'.destinations.trans h.destinations
  names := h'.names.trans h.names
  queued id name hq := h'.queued id name (h.queued id name hq)
  kept id c hc := by
    obtain ⟨c', hc'⟩ := h.kept id c hc
    exact h'.kept id c' hc'
  calls id c'' hc'' := by
    obtain ⟨c', hc', same' | woken'⟩ := h'.calls id c'' hc''
    · obtain ⟨c, hc, same | woken⟩ := h.calls id c' hc'
      · refine ⟨c, hc, .inl ⟨same'.1.trans same.1, fun hw hm => ?_⟩⟩
        rcases List.mem_append.1 hm with hm | hm
        · exact same.2 hw hm
        · exact same'.2 (by rw [same.1, hw]) hm
      · exact ⟨c, hc, .inr ⟨same'.1.trans woken.1, woken.2.1, List.mem_append_left _ woken.2.2.1,
          h'.queued _ _ woken.2.2.2⟩⟩
    · obtain ⟨c, hc, same | woken⟩ := h.calls id c' hc'
      · obtain ⟨rfl, -⟩ := same
        exact ⟨c', hc, .inr ⟨woken'.1, woken'.2.1, List.mem_append_right _ woken'.2.2.1,
          woken'.2.2.2⟩⟩
      · have hs := woken'.2.1
        rw [woken.1] at hs
        cases hs
  callbacks name cb hm := by
    rcases h'.callbacks name cb hm with hm | hm
    · exact h.callbacks name cb hm
    · exact .inr hm
  alarms a ha := by
    rcases h'.alarms a ha with ha | ⟨alarm, delay, hm, he⟩
    · rcases h.alarms a ha with ha | ⟨alarm, delay, hm, he⟩
      · exact .inl ha
      · exact .inr ⟨alarm, delay, List.mem_append_left _ hm, he⟩
    · exact .inr ⟨alarm, delay, List.mem_append_right _ hm, he⟩

/-- An effect that wakes nobody and leaves the ready queues alone. -/
theorem Enacts.of_same {i : Nat} {effect : Effect} (writers : b'.writers = b.writers)
    (running : b'.running = b.running) (destinations : b'.destinations = b.destinations)
    (names : b'.names = b.names) (calls : b'.calls = b.calls) (main : b'.main = b.main)
    (alt : b'.alt = b.alt) (wakes : ∀ id, effect ≠ .wake id)
    (alarms : ∀ a ∈ b'.time.alarms, a ∈ b.time.alarms ∨
      ∃ alarm delay, effect = .setAlarm alarm delay ∧ a.action = .writer i alarm) :
    Enacts i [effect] b b' := by
  have loop : ∀ name, b'.loop name = b.loop name := by
    intro name
    cases name
    · exact main
    · exact alt
  refine ⟨writers, running, destinations, names, ?_, ?_, ?_, ?_, ?_⟩
  · intro id name hq
    rwa [Queued, loop]
  · exact fun id c hc => ⟨c, calls ▸ hc⟩
  · intro id c hc
    refine ⟨c, calls ▸ hc, .inl ⟨rfl, fun _ hm => ?_⟩⟩
    exact wakes id (List.mem_singleton.1 hm).symm
  · intro name cb hm
    rw [loop] at hm
    exact .inl hm
  · intro a ha
    rcases alarms a ha with ha | ⟨alarm, delay, he, hr⟩
    · exact .inl ha
    · exact .inr ⟨alarm, delay, he ▸ List.mem_singleton_self _, hr⟩

theorem enacts_wake (b : Bench) (i id : Nat) : Enacts i [.wake id] b (b.wake id) := by
  have still : (∀ c, b.calls[id]? = some c → c.status ≠ .waiting .change) →
      Enacts i [.wake id] b b := by
    intro hs
    refine ⟨rfl, rfl, rfl, rfl, fun _ _ h => h, fun _ c hc => ⟨c, hc⟩, ?_, fun _ _ h => .inl h,
      fun _ h => .inl h⟩
    intro k c hc
    refine ⟨c, hc, .inl ⟨rfl, fun hw hm => ?_⟩⟩
    cases List.mem_singleton.1 hm
    exact hs c hc hw
  unfold wake
  split
  · next c hc =>
    split
    · next hw =>
      have calls : (b.queue id c false).calls =
          (b.setCall id { c with status := .queued false }).calls := calls_setLoop _ _ _
      refine ⟨writers_setLoop _ _ _, running_setLoop _ _ _, destinations_setLoop _ _ _,
        names_setLoop _ _ _,
        fun k name hq => (show (b.setCall id _).Queued k name from hq).post _ _, ?_, ?_, ?_, ?_⟩
      · intro k c' hk
        rw [calls]
        exact ⟨_, call_kept hk _⟩
      · intro k c' hk
        rw [calls] at hk
        rcases call_setCall hk with ⟨rfl, rfl⟩ | ⟨hne, hk⟩
        · exact ⟨c, hc, .inr ⟨rfl, hw, List.mem_singleton_self _, queued_post _ _ _⟩⟩
        · refine ⟨c', hk, .inl ⟨rfl, fun _ hm => hne ?_⟩⟩
          exact Effect.wake.inj (List.mem_singleton.1 hm)
      · intro name cb hm
        rcases (mem_ready_post _ _ _ _ _).1 hm with hm | ⟨-, -, rfl⟩
        · exact .inl hm
        · exact .inr ⟨id, rfl⟩
      · intro a ha
        rw [queue, post, time_setLoop] at ha
        exact .inl ha
    · next hn =>
      refine still fun c' hc' hw => ?_
      rw [hc, Option.some.injEq] at hc'
      exact hn (hc' ▸ hw)
  · next hn =>
    refine still fun c hc => ?_
    rw [hn] at hc
    cases hc

theorem enacts_perform (b : Bench) (i : Nat) (label : String) (e : Effect) :
    Enacts i [e] b (perform i label b e) := by
  cases e with
  | notice n =>
    exact .of_same rfl rfl rfl rfl rfl rfl rfl (by simp) fun _ ha => .inl ha
  | measure m =>
    exact .of_same rfl rfl rfl rfl rfl rfl rfl (by simp) fun _ ha => .inl ha
  | setAlarm alarm delay =>
    refine .of_same rfl rfl rfl rfl rfl rfl rfl (by simp) fun a ha => ?_
    rcases List.mem_append.1 ha with ha | ha
    · exact .inl ha
    · rw [List.mem_singleton.1 ha]
      exact .inr ⟨alarm, delay, rfl, rfl⟩
  | cancelAlarm alarm =>
    refine .of_same rfl rfl rfl rfl rfl rfl rfl (by simp) fun a ha => ?_
    exact .inl (List.mem_of_mem_filter ha)
  | wake call => exact enacts_wake b i call

theorem enacts_foldl (i : Nat) (label : String) (effects : List Effect) (b : Bench) :
    Enacts i effects b (effects.foldl (perform i label) b) := by
  induction effects generalizing b with
  | nil =>
    refine ⟨rfl, rfl, rfl, rfl, fun _ _ h => h, fun _ c hc => ⟨c, hc⟩, ?_, fun _ _ h => .inl h,
      fun _ h => .inl h⟩
    exact fun _ c hc => ⟨c, hc, .inl ⟨rfl, fun _ hm => by cases hm⟩⟩
  | cons e rest ih => exact (enacts_perform b i label e).trans (ih _)

open Change (Regular)
open Writer (Turn Episodes)

variable {i : Nat} {w : Writer} {f : Writer → Change}

theorem change_of_none (h : b.writers[i]? = none) (f : Writer → Change) :
    b.change i f = (none, b) := by
  simp [change, h]

theorem enacts_change (hw : b.writers[i]? = some w) (f : Writer → Change) :
    Enacts i (f w).effects { b with writers := b.writers.set i (f w).writer } (b.change i f).2 := by
  simp only [change, hw]
  exact enacts_foldl _ _ _ _

theorem fault_change (hw : b.writers[i]? = some w) (f : Writer → Change) :
    (b.change i f).1 = (f w).fault := by
  simp [change, hw]

theorem writers_change (hw : b.writers[i]? = some w) (f : Writer → Change) :
    (b.change i f).2.writers = b.writers.set i (f w).writer :=
  (enacts_change hw f).writers

theorem writer_change (hw : b.writers[i]? = some w) (f : Writer → Change) :
    (b.change i f).2.writers[i]? = some (f w).writer := by
  rw [writers_change hw, List.getElem?_set_self (List.getElem?_eq_some_iff.1 hw).1]

theorem writer_change_of_ne (hw : b.writers[i]? = some w) (f : Writer → Change) {j : Nat}
    (hj : j ≠ i) : (b.change i f).2.writers[j]? = b.writers[j]? := by
  rw [writers_change hw, List.getElem?_set_ne (Ne.symm hj)]

theorem extends_change (hw : b.writers[i]? = some w) (later : w.Later (f w).writer) :
    b.Extends (b.change i f).2 := by
  intro j u hu
  by_cases hj : j = i
  · subst hj
    rw [hw, Option.some.injEq] at hu
    subst hu
    exact ⟨_, writer_change hw f, later⟩
  · exact ⟨u, by rw [writer_change_of_ne hw f hj, hu], .refl u⟩

theorem Enacts.unwoken {effects : List Effect} (acts : Enacts i effects b b') {id : Nat} {c : Call}
    (hc : b.calls[id]? = some c) (asleep : Effect.wake id ∉ effects) : b'.calls[id]? = some c := by
  obtain ⟨c', hc'⟩ := acts.kept id c hc
  obtain ⟨c₀, hc₀, ⟨rfl, -⟩ | ⟨-, -, woken, -⟩⟩ := acts.calls id c' hc'
  · rw [hc', Option.some.inj (hc₀.symm.trans hc)]
  · exact absurd woken asleep

/-- Calls stand where they may: one that was not woken is still on its writer's list. -/
theorem callFits_change (h : Coherent hand b) (hw : b.writers[i]? = some w)
    (regular : Regular w (f w)) {id : Nat} {c' : Call}
    (hc' : (b.change i f).2.calls[id]? = some c') (hh : some id ≠ hand)
    (he : c'.isEnded = false) : (b.change i f).2.CallFits id c' := by
  have acts := enacts_change hw f
  have grows := extends_change hw regular.later
  obtain ⟨c, hc, ⟨rfl, unwoken⟩ | ⟨rfl, waits, -, hq⟩⟩ := acts.calls id c' hc'
  · obtain ⟨hp, hs⟩ := h.calls id c' hc hh he
    refine ⟨grows.program hp, hs.mono acts.running.trans (fun _ _ hq => acts.queued _ _ hq) ?_⟩
    intro waits j u hu hid
    by_cases hji : j = i
    · subst hji
      rw [hw, Option.some.injEq] at hu
      subst hu
      exact ⟨_, writer_change hw f, (regular.told id hid).resolve_right (unwoken waits)⟩
    · exact ⟨u, by rw [writer_change_of_ne hw f hji, hu], hid⟩
  · obtain ⟨hp, hs⟩ := h.calls id c hc hh (by rw [Call.isEnded, waits])
    refine ⟨grows.program hp, ?_⟩
    rw [StatusFits, waits] at hs
    obtain ⟨j, u, hj, -⟩ := hs
    exact ⟨Program.rests_of_waitsOn hj, hq⟩

/-- The lists of waiting calls stay right: a writer wakes only calls of its own list, and
takes them off it. -/
theorem waiters_change (h : Coherent hand b) (hw : b.writers[i]? = some w)
    (regular : Regular w (f w)) {j : Nat} {u : Writer}
    (hu : (b.change i f).2.writers[j]? = some u) : u.waiters.Nodup ∧
      ∀ id ∈ u.waiters, some id ≠ hand →
        ∃ c, (b.change i f).2.calls[id]? = some c ∧ Awaits j c := by
  have acts := enacts_change hw f
  by_cases hji : j = i
  · subst hji
    rw [writer_change hw f, Option.some.injEq] at hu
    subst hu
    refine ⟨(h.waiters j w hw).1.sublist regular.waiters, fun id hid hh => ?_⟩
    obtain ⟨c, hc, awaits⟩ := (h.waiters j w hw).2 id (regular.waiters.subset hid) hh
    exact ⟨c, acts.unwoken hc fun hm => (regular.woken id hm).2 hid, awaits⟩
  · rw [writer_change_of_ne hw f hji] at hu
    refine ⟨(h.waiters j u hu).1, fun id hid hh => ?_⟩
    obtain ⟨c, hc, awaits⟩ := (h.waiters j u hu).2 id hid hh
    refine ⟨c, acts.unwoken hc fun hm => hji ?_, awaits⟩
    -- A call waits for one writer only.
    obtain ⟨c', hc', awaits'⟩ := (h.waiters i w hw).2 id (regular.woken id hm).1 hh
    rw [hc, Option.some.injEq] at hc'
    subst hc'
    exact Option.some.inj (awaits.1.symm.trans awaits'.1)

/-- A regular change goes on coherently: whom it takes off the list of waiting calls, it
wakes. -/
theorem coherent_change (h : Coherent hand b) (hw : b.writers[i]? = some w)
    (regular : Regular w (f w)) (episodes : w.Episodes (f w).writer) :
    Coherent hand (b.change i f).2 := by
  have acts := enacts_change hw f
  have grows := extends_change hw regular.later
  refine ⟨fun _ _ => callFits_change h hw regular, fun _ _ => waiters_change h hw regular,
    ?_, ?_, ?_, ?_, ?_⟩
  · intro name cb hm
    rcases acts.callbacks name cb hm with hm | ⟨id, rfl⟩
    · exact grows.callback (h.callbacks name cb hm)
    · trivial
  · rw [acts.destinations]
    exact fun d hd => grows.destination (h.destinations d hd)
  · intro a ha
    rcases acts.alarms a ha with ha | ⟨alarm, delay, hm, he⟩
    · exact grows.alarm (h.alarms a ha)
    · rw [he]
      cases alarm with
      | flush =>
        obtain ⟨name, hl⟩ := Option.isSome_iff_exists.1 (regular.alarm delay hm)
        exact ⟨name, _, writer_change hw f, hl⟩
      | expire n => exact ⟨_, writer_change hw f, regular.timeout n delay hm⟩
  · rw [acts.names]
    exact fun n j hn => grows.held j (h.names n j hn)
  · rw [writers_change hw f]
    intro u hu
    rcases List.mem_or_eq_of_mem_set hu with hu | rfl
    · exact h.writers u hu
    · exact episodes.lawful (h.writers w (List.mem_of_getElem? hw))

theorem follows_change (h : Coherent hand b) (hw : b.writers[i]? = some w)
    (regular : Regular w (f w)) (episodes : w.Episodes (f w).writer) :
    Follows hand b (b.change i f).2 where
  coherent := coherent_change h hw regular episodes
  running := (enacts_change hw f).running
  grows := extends_change hw regular.later
  calls id c hc := by
    obtain ⟨c', hc'⟩ := (enacts_change hw f).kept id c hc
    obtain ⟨c₀, hc₀, ⟨rfl, -⟩ | ⟨rfl, waits, -⟩⟩ := (enacts_change hw f).calls id c' hc'
    · exact ⟨c', hc', by rw [Option.some.inj (hc₀.symm.trans hc)]; exact .refl c⟩
    · rw [Option.some.inj (hc₀.symm.trans hc)] at waits hc'
      exact ⟨_, hc', rfl, fun hr => by rw [waits] at hr; cases hr⟩
  waiters j u hu id hid := by
    by_cases hji : j = i
    · subst hji
      rw [writer_change hw f, Option.some.injEq] at hu
      subst hu
      exact ⟨w, hw, regular.waiters.subset hid⟩
    · rw [writer_change_of_ne hw f hji] at hu
      exact ⟨u, hu, hid⟩
  waiting id c' hc' hs := by
    obtain ⟨c, hc, ⟨rfl, -⟩ | ⟨rfl, -⟩⟩ := (enacts_change hw f).calls id c' hc'
    · exact ⟨c', hc, hs, rfl⟩
    · cases hs

theorem passes_change (h : Coherent hand b)
    (turn : ∀ w : Writer, b.writers[i]? = some w → Turn w (f w)) :
    Passes hand b (b.change i f).2 := by
  cases hw : b.writers[i]? with
  | none => rw [change_of_none hw]; exact .refl h
  | some w =>
    have regular := (turn w hw).regular
    refine ⟨follows_change h hw regular (turn w hw).episodes,
      .of_rest (fun j hj => .of_writer (writer_change_of_ne hw f hj)) fun u hu _ => ?_⟩
    rw [writer_change hw f, Option.some.injEq] at hu
    subst hu
    exact (turn w hw).binds.imp_right fun binds => ⟨w, hw, regular.later.config.symm, binds⟩

end Bench
end BatchWriter
