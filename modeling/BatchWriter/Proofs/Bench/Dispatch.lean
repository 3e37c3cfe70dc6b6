import BatchWriter.Bench.Dispatch
import BatchWriter.Proofs.Bench.Change

/-!
# Handing over a batch

A destination that is handed a batch may respond, start a send or queue a job. It leaves
the writers as they are, but for the list of the batch, which it may empty; so the batch
is still the one opened last when the writer learns whether it was refused.
-/

set_option autoImplicit false

namespace BatchWriter

/-- A writer to which nothing happened that its history tells or its callers wait for. -/
structure Writer.Still (w w' : Writer) : Prop where
  silent : w.Silent w'
  refusal : w'.refusal? = w.refusal?

namespace Bench

variable {hand : Option Nat} {b b' b'' : Bench}

def Quiet (b b' : Bench) : Prop :=
  ∀ (i : Nat) (w : Writer), b.writers[i]? = some w →
    ∃ w' : Writer, b'.writers[i]? = some w' ∧ w.Still w'

namespace Quiet

theorem of_writers (h : b'.writers = b.writers) : b.Quiet b' :=
  fun i w hw => ⟨w, by rw [h, hw], ⟨w.silent_refl, rfl⟩⟩

theorem trans (h : b.Quiet b') (h' : b'.Quiet b'') : b.Quiet b'' := by
  intro i w hw
  obtain ⟨w', hw', still⟩ := h i w hw
  obtain ⟨w'', hw'', still'⟩ := h' i w' hw'
  refine ⟨w'', hw'', ⟨?_, still'.refusal.trans still.refusal⟩⟩
  exact ⟨still'.silent.history.trans still.silent.history,
    still'.silent.buffer.trans still.silent.buffer, still'.silent.ids.trans still.silent.ids,
    still'.silent.issued.trans still.silent.issued⟩

end Quiet

theorem writers_tellHandle (b : Bench) (handle : Handle) (report : Report) :
    (b.tellHandle handle report).writers = b.writers := by
  unfold tellHandle
  split
  · rfl
  · split
    · rfl
    · exact writers_setLoop _ _ _

theorem quiet_emptyBatch (b : Bench) (i batch : Nat) :
    b.Quiet (b.change i (·.emptyBatch batch)).2 := by
  intro j u hu
  cases hw : b.writers[i]? with
  | none => rw [change_of_none hw]; exact Quiet.of_writers rfl j u hu
  | some w =>
    by_cases hj : j = i
    · subst hj
      rw [hw, Option.some.injEq] at hu
      subst hu
      refine ⟨_, writer_change hw _, ⟨rfl, rfl, ?_, rfl⟩, rfl⟩
      exact InFlight.ids_update _ (fun r => { r with entries := [] }) fun _ => rfl
    · exact ⟨u, by rw [writer_change_of_ne hw _ hj, hu], ⟨u.silent_refl, rfl⟩⟩

/-- What is asked of an act that is carried out while a batch is handed over. -/
def Hands (hand : Option Nat) (b b' : Bench) : Prop := Passes hand b b' ∧ b.Quiet b'

theorem Hands.trans (h : Hands hand b b') (h' : Hands hand b' b'') : Hands hand b b'' :=
  ⟨h.1.trans h'.1, h.2.trans h'.2⟩

theorem hands_tellHandle (h : Coherent hand b) {handle : Handle} (fits : b.HandleFits handle)
    (report : Report) : Hands hand b (b.tellHandle handle report) :=
  ⟨passes_tellHandle h fits report, .of_writers (writers_tellHandle _ _ _)⟩

theorem hands_setDestination (h : Coherent hand b) (i : Nat) {d : Destination}
    (fits : b.DestinationFits d) : Hands hand b (b.setDestination i d) :=
  ⟨passes_setDestination h i fits, .of_writers rfl⟩

theorem destinationFits_of_getElem (h : Coherent hand b) {i : Nat} {d : Destination}
    (hd : b.destinations[i]? = some d) : b.DestinationFits d :=
  h.destinations d (List.mem_of_getElem? hd)

theorem hands_clearEntries (h : Coherent hand b) (destination call : Nat) (handle : Handle) :
    Hands hand b (b.clearEntries destination call handle) := by
  have emptied : ∀ (d : Destination), b.destinations[destination]? = some d →
      Hands hand b (b.setDestination destination
        { d with calls := d.calls.modify call fun c => (c.1, []) }) := by
    intro d hd
    have known := destinationFits_of_getElem h hd
    refine hands_setDestination h destination ⟨fun x hx => ?_, known.2⟩
    obtain ⟨k, hk⟩ := List.mem_iff_getElem?.1 hx
    rw [List.getElem?_modify] at hk
    cases hy : d.calls[k]? with
    | none => simp [hy] at hk
    | some y =>
      rw [hy] at hk
      have same : x.1 = y.1 := by
        rw [← Option.some.inj hk]
        split <;> rfl
      rw [same]
      exact known.1 y (List.mem_of_getElem? hy)
  have batch : ∀ (c : Bench) (i batch : Nat), Hands hand b c →
      Hands hand b (c.change i (·.emptyBatch batch)).2 := fun c i batch hc =>
    hc.trans ⟨passes_change hc.1.coherent fun w _ => .emptyBatch batch, quiet_emptyBatch _ _ _⟩
  unfold clearEntries
  cases hd : b.destinations[destination]? with
  | none =>
    cases handle with
    | recorder _ => exact ⟨.refl h, .of_writers rfl⟩
    | batch i _ n => exact batch _ i n ⟨.refl h, .of_writers rfl⟩
  | some d =>
    cases handle with
    | recorder _ => exact emptied d hd
    | batch i _ n => exact batch _ i n (emptied d hd)

/-- Whatever a destination responds, it does nothing else to the writers. -/
theorem hands_respond (h : Coherent hand b) (destination call : Nat) {handle : Handle}
    (fits : b.HandleFits handle) (responses : List Response) :
    Hands hand b (respond destination call handle responses b).2 := by
  induction responses generalizing b with
  | nil => exact ⟨.refl h, .of_writers rfl⟩
  | cons response rest ih =>
    cases response with
    | complete places =>
      rw [respond]
      split
      · exact ⟨.refl h, .of_writers rfl⟩
      · next failed _ =>
        have told := hands_tellHandle h fits (.completed failed)
        exact told.trans (ih told.1.coherent (told.1.grows.handle fits))
    | fail fault =>
      have told := hands_tellHandle h fits (.failed fault)
      exact told.trans (ih told.1.coherent (told.1.grows.handle fits))
    | raise fault => exact ⟨.refl h, .of_writers rfl⟩
    | clear =>
      have cleared := hands_clearEntries h destination call handle
      exact cleared.trans (ih cleared.1.coherent (cleared.1.grows.handle fits))

theorem hands_reach (h : Coherent hand b) (destination : Nat) {d : Destination}
    (fits : b.DestinationFits d) (entries : List Value) :
    Hands hand b (b.reach destination d entries) := by
  have set := hands_setDestination h destination (d := { d with reached := d.reached + 1 }) fits
  exact set.trans ⟨passes_of_aside set.1.coherent (.tell _ _), .of_writers rfl⟩

/-- Handing entries over leaves the writers alone, whatever the destination makes of them. -/
theorem hands_submit (h : Coherent hand b) (destination : Nat) (loop : Option LoopName)
    (entries : List Value) (handle : Handle) (fits : b.HandleFits handle) :
    Hands hand b (b.submit destination loop entries handle).2 := by
  unfold submit
  split
  · exact ⟨.refl h, .of_writers rfl⟩
  · next d hd =>
    have known := destinationFits_of_getElem h hd
    split
    · have called : b.DestinationFits { d with calls := d.calls ++ [(handle, entries)] } := by
        refine ⟨fun call hc => ?_, known.2⟩
        rcases List.mem_append.1 hc with hc | hc
        · exact known.1 call hc
        · rw [List.mem_singleton.1 hc]
          exact fits
      have reached := hands_reach h destination called entries
      exact reached.trans (hands_respond reached.1.coherent _ _ (reached.1.grows.handle fits) _)
    · exact ⟨.refl h, .of_writers rfl⟩
    · next name _ =>
      have set := hands_setDestination h destination
        (d := { d with pending := d.pending ++ [b.calls.length] }) known
      refine set.trans ⟨passes_start set.1.coherent name none _ ?_ trivial, ?_⟩
      · exact set.1.grows.handle fits
      · exact .of_writers (writers_setLoop _ _ _)
    · split
      · exact ⟨.refl h, .of_writers rfl⟩
      · refine hands_setDestination h destination ⟨known.1, ?_⟩
        intro job hj
        rcases List.mem_append.1 hj with hj | hj
        · exact known.2 job hj
        · rw [List.mem_singleton.1 hj]
          exact fits

open Writer (Turn)

/-- A fault has woken everybody or comes with one more open batch, if the limits give no
other cause for it. -/
def Refilled (w : Writer) (fault : Option Fault) (w' : Writer) : Prop :=
  fault ≠ none → w.refusal? = none → w.config.Tame →
    w'.waiters = [] ∨ (w'.refusal? = none ∧ w.inFlight.count + 1 ≤ w'.inFlight.count)

/-- The end of a dispatch, when the batch is still the one opened last: everybody is woken
and there is a fault, or the writer accepts work as before and has the same batches open. -/
theorem conclude_spec (h : Coherent hand b) {i now : Nat} {u : Writer} {parcel : Writer.Parcel}
    (hu : b.writers[i]? = some u) (refusal : Option Fault)
    (last : ∃ t earlier, u.history = (t, .opened parcel.batch parcel.entries) :: earlier)
    (isOpen : parcel.batch ∈ u.inFlight.ids) :
    Passes hand b (b.change i (·.concludeDispatch now parcel refusal)).2 ∧
      ∃ w', (b.change i (·.concludeDispatch now parcel refusal)).2.writers[i]? = some w' ∧
        (now, .handed parcel.batch parcel.entries) ∈ w'.history ∧
        ((w'.waiters = [] ∧ (b.change i (·.concludeDispatch now parcel refusal)).1 ≠ none) ∨
          (w'.refusal? = u.refusal? ∧ w'.inFlight.count = u.inFlight.count)) := by
  have passes : Passes hand b (b.change i (·.concludeDispatch now parcel refusal)).2 := by
    refine passes_change h fun v hv => ?_
    rw [hu, Option.some.injEq] at hv
    subst hv
    exact .concludeDispatch now parcel refusal last isOpen
  refine ⟨passes, _, writer_change hu _, u.handed_of_concludeDispatch now parcel refusal, ?_⟩
  rw [fault_change hu]
  refine (u.concludeDispatch_cases now parcel refusal).imp_right fun same => ?_
  rw [same]
  exact ⟨rfl, rfl⟩

/-- A dispatch on the writer's loop, with a slot free, passes the bench on. If it calls the
destination, the writer's history has it. -/
theorem dispatch_spec (h : Coherent hand b) {i : Nat} {w : Writer} {loop : LoopName}
    (hw : b.writers[i]? = some w) (bound : w.loop = some loop) (room : w.hasCapacity = true) :
    Passes hand b (b.dispatch i loop).2 ∧ ∃ w', (b.dispatch i loop).2.writers[i]? = some w' ∧
      ((b.dispatch i loop).1 = none → w'.refusal? = w.refusal?) ∧
        Refilled w (b.dispatch i loop).1 w' ∧
        ∀ parcel, (w.startDispatch loop b.now).2 = some parcel →
          (b.now, .handed parcel.batch parcel.entries) ∈ w'.history := by
  have begun : Passes hand b (b.change i fun w => (w.startDispatch loop b.now).1).2 := by
    refine passes_change h fun u hu => ?_
    rw [hw, Option.some.injEq] at hu
    subst hu
    exact .startDispatch loop b.now bound room
  have first := writer_change hw fun w => (w.startDispatch loop b.now).1
  unfold dispatch
  simp only [hw]
  rcases Writer.startDispatch_cases bound b.now with
    ⟨none, refusal, faultless⟩ | ⟨parcel, some, faultless, usable, number, opened⟩
  · simp only [none]
    refine ⟨begun, _, first, fun _ => refusal, fun hf usable tame => ?_, fun _ hp => by cases hp⟩
    rw [fault_change hw] at hf
    exact absurd (faultless usable tame) hf
  · simp only [some]
    have fits : (b.change i fun w => (w.startDispatch loop b.now).1).2.HandleFits
        (.batch i loop parcel.batch) := begun.grows.owned i loop ⟨w, hw, bound⟩
    have given := hands_submit begun.coherent w.destination (Option.some loop) parcel.entries _ fits
    obtain ⟨u, hu, still⟩ := given.2 i _ first
    have last : u.history = (b.now, .opened parcel.batch parcel.entries) :: w.history := by
      rw [still.silent.history, opened.history, number]
    have isOpen : parcel.batch ∈ u.inFlight.ids := by
      rw [still.silent.ids, opened.ids, number]
      exact List.mem_append_right _ (List.mem_singleton_self _)
    have more : u.inFlight.count = w.inFlight.count + 1 := by
      rw [← opened.count, ← InFlight.length_ids, still.silent.ids, InFlight.length_ids]
    generalize Bench.submit _ w.destination _ parcel.entries _ = submitted at given hu
    obtain ⟨concluded, v, hv, handed, ends⟩ :=
      conclude_spec given.1.coherent hu submitted.1 ⟨_, _, last⟩ isOpen
    refine ⟨(begun.trans given.1).trans concluded, v, hv, fun hf => ?_, fun _ _ _ => ?_, ?_⟩
    · rcases ends with ⟨-, hn⟩ | ⟨same, -⟩
      · exact absurd hf hn
      · exact same.trans (still.refusal.trans opened.refusal)
    · refine ends.imp (fun woken => woken.1) fun ⟨same, count⟩ => ⟨?_, by omega⟩
      exact same.trans (still.refusal.trans (opened.refusal.trans usable))
    · intro p hp
      rw [← Option.some.inj hp]
      exact handed

end Bench
end BatchWriter
