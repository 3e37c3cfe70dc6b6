import BatchWriter.Bench.Delivery

/-!
# Faults that come up in a delivery

Whatever goes wrong in a delivery by itself is an ordinary fault: a number that is too large, a
value that is no number, a name that nobody has. Only a subscriber that raises one on purpose
brings up a fault that is not ordinary.
-/

set_option autoImplicit false

namespace BatchWriter

theorem ordinary_delay {x : Number} {fault : Fault} (refused : x.delayMilliseconds = .error fault) :
    fault.isOrdinary = true := by
  unfold Number.delayMilliseconds delayMicroseconds at refused
  dsimp only at refused
  split at refused
  · split at refused <;> cases refused
    decide
  · cases refused
    decide

theorem ordinary_pause {x : Number} {fault : Fault} (refused : pauseDelay x = .error fault) :
    fault.isOrdinary = true := by
  unfold pauseDelay at refused
  split at refused
  · cases refused
  · cases delayed : x.delayMilliseconds with
    | error other =>
      rw [delayed] at refused
      cases refused
      exact ordinary_delay delayed
    | ok delay =>
      rw [delayed] at refused
      cases refused

theorem Event.ordinary_quotient {x y : Number} {fault : Fault}
    (unfit : Event.quotient x y = .error fault) : fault.isOrdinary = true := by
  have large : Fault.quotientTooLarge.isOrdinary = true ∧
    Fault.numberTooLarge.isOrdinary = true := by
    decide
  unfold Event.quotient at unfit
  dsimp only at unfit
  split at unfit
  · next n d _ _ =>
    cases quotient : Binary64.ofQuotient? n d with
    | some z =>
      rw [quotient] at unfit
      cases unfit
    | none =>
      rw [quotient] at unfit
      cases unfit
      exact large.1
  · split at unfit
    · cases unfit
    · cases unfit
      exact large.2

theorem Event.ordinary_row {event : Event} {fault : Fault} (unfit : event.row = .error fault) :
    fault.isOrdinary = true := by
  have typed : (!Fault.passingKinds.contains "TypeError") = true := by decide
  unfold Event.row at unfit
  cases used : event.utilization with
  | ok u =>
    rw [used] at unfit
    cases unfit
  | error other =>
    rw [used] at unfit
    cases unfit
    unfold Event.utilization at used
    split at used
    · split at used
      · split at used
        · exact Event.ordinary_quotient used
        · cases used
          exact typed
      · cases used
    · cases used
      exact typed

namespace Bench

variable {b : Bench} {d : Delivery} {fault : Fault}

theorem ordinary_handle {destination : String} {call : Int}
    (unfit : b.handleOf destination call = .error fault) : fault.isOrdinary = true := by
  have missing : (Fault.missingKey (.text destination)).isOrdinary = true := by rfl
  have outside : Fault.indexOutOfRange.isOrdinary = true := by decide
  unfold handleOf at unfit
  split at unfit
  · cases unfit
    exact missing
  · split at unfit
    · cases unfit
      exact outside
    · next d _ =>
      cases found : entryAt? d.calls call with
      | none =>
        rw [found] at unfit
        cases unfit
        exact outside
      | some c =>
        rw [found] at unfit
        cases unfit

theorem stops_subscriberFault {other : Fault}
    (stops : (b.subscriberFault d other).2 = .stop fault) :
    other = fault ∧ fault.isOrdinary = false := by
  unfold subscriberFault at stops
  split at stops
  · cases stops
  · next passes =>
    cases stops
    exact ⟨rfl, by simpa using passes⟩

/-- A delivery is stopped by a subscriber that raises the fault. -/
theorem raised_react {reaction : Reaction} (stops : (b.react d reaction).2 = .stop fault) :
    reaction = .raise fault := by
  have unordinary : ∀ {other : Fault}, (b.subscriberFault d other).2 = .stop fault →
      other.isOrdinary = true → reaction = .raise fault := fun stops ordinary => by
    obtain ⟨rfl, passes⟩ := stops_subscriberFault stops
    rw [ordinary] at passes
    cases passes
  cases reaction with
  | raise other => rw [(stops_subscriberFault stops).1]
  | sleep milliseconds =>
    unfold react at stops
    dsimp only at stops
    split at stops
    · next unfit => exact unordinary stops (ordinary_pause unfit)
    · cases stops
    · cases stops
  | close name =>
    unfold react at stops
    dsimp only at stops
    split at stops
    · cases stops
    · exact unordinary stops rfl
  | complete destination call =>
    unfold react at stops
    dsimp only at stops
    split at stops
    · cases stops
    · next unfit => exact unordinary stops (ordinary_handle unfit)
  | _ => cases stops

theorem raised_attend (stops : (b.attend d).2 = .stop fault) :
    ∃ s : Subscriber, d.remaining.head? >>= b.subscriber? = some s ∧ s.reaction = .raise fault := by
  unfold attend at stops
  split at stops
  · cases stops
  · next name rest remaining =>
    split at stops
    · cases stops
    · cases stops
    · cases stops
    · split at stops
      · next unfit =>
        obtain ⟨rfl, passes⟩ := stops_subscriberFault stops
        rw [Event.ordinary_row unfit] at passes
        cases passes
      · have raises := raised_react stops
        cases found : b.subscriber? name with
        | none =>
          rw [found] at raises
          cases raises
        | some s =>
          rw [found] at raises
          exact ⟨s, by simpa [remaining] using found, raises⟩

end Bench
end BatchWriter
