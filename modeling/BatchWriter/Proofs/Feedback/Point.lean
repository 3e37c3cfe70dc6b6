import BatchWriter.Bench.Delivery
import BatchWriter.Proofs.Feedback.Roll
import Mathlib.Data.List.Infix
import Mathlib.Data.Prod.Lex

/-!
# Points of a delivery

At each point of a delivery the subscriber that has the turn is called, or keeps the turn while
its call takes its time, or passes the turn on. What it does to the bench beside is of no account
to the delivery; what it asks of buses takes effect at once.
-/

set_option autoImplicit false

namespace BatchWriter

inductive Signal where
  | called (name : String) (event : Event)
  /-- The call has come back, or has raised a fault. -/
  | ended (name : String)

inductive Stand where
  | delivering (delivery : Delivery)
  | returned
  | failed (fault : Fault)
  | cancelled

def Delivery.isOut (d : Delivery) : Bool :=
  match d.remaining, d.attention with
  | [], _ | _, .fresh => false
  | _, _ => true

namespace Stand

def isOut : Stand → Bool
  | .delivering d => d.isOut
  | _ => false

end Stand

def DeliveryProgress.stand : DeliveryProgress → Stand
  | .go d | .yield d | .sleep _ d => .delivering d
  | .done => .returned
  | .stop fault => .failed fault

def Delivery.signals (d : Delivery) (next : Stand) : List Signal :=
  match d.remaining with
  | [] => []
  | name :: _ =>
    (if d.isOut then [] else [.called name d.event]) ++ if next.isOut then [] else [.ended name]

def Delivery.rows (d : Delivery) : List (String × List Value) :=
  match d.remaining, d.isOut, d.event.row with
  | name :: _, false, .ok row => [(name, row)]
  | _, _, _ => []

def word (audience : List String) (event : Event) : List Signal :=
  audience.flatMap fun name => [.called name event, .ended name]

def Reaction.asks : Reaction → List Ask
  | .subscribe bus name => [.join bus name]
  | .unsubscribe bus name => [.leave bus name]
  | _ => []

namespace Bench

def asksOf (b : Bench) (d : Delivery) : List Ask :=
  match d.remaining, d.isOut, d.event.row with
  | name :: _, false, .ok _ =>
    Reaction.asks (((b.subscriber? name).map Subscriber.reaction).getD .collect)
  | _, _, _ => []

end Bench

/-! ## One point of a delivery -/

namespace Delivery

/-- How far a delivery is from its end. A call that is out comes back after its turns. -/
def rank (d : Delivery) : ℕ ×ₗ ℕ :=
  match d.attention with
  | .fresh => toLex (2 * d.remaining.length + 1, 0)
  | .yields n => toLex (2 * d.remaining.length, n + 1)
  | .asleep => toLex (2 * d.remaining.length, 0)

inductive Point (d : Delivery) : Stand → Prop
  | done (none : d.remaining = []) : Point d .returned
  /-- The subscriber that has the turn keeps it. -/
  | holds {d' : Delivery} (some : d.remaining ≠ []) (remaining : d'.remaining = d.remaining)
      (event : d'.event = d.event) (out : d'.isOut = true) (nearer : d'.rank < d.rank) :
      Point d (.delivering d')
  | next (some : d.remaining ≠ []) : Point d (.delivering d.next)
  | failed (some : d.remaining ≠ []) {fault : Fault} (passes : fault.isOrdinary = false) :
      Point d (.failed fault)

variable {d : Delivery}

theorem isOut_of_attention (some : d.remaining ≠ []) {attention : Attention}
    (waits : attention ≠ .fresh) : ({ d with attention } : Delivery).isOut = true := by
  obtain ⟨event, remaining, _⟩ := d
  cases remaining with
  | nil => exact absurd rfl some
  | cons name rest =>
    cases attention with
    | fresh => exact absurd rfl waits
    | _ => rfl

theorem remaining_of_isOut (out : d.isOut = true) : d.remaining ≠ [] := by
  intro none
  rw [isOut, none] at out
  cases out

theorem isOut_next : d.next.isOut = false := by
  unfold isOut
  split <;> simp_all [next]

theorem rank_next (some : d.remaining ≠ []) : d.next.rank < d.rank := by
  have less : 2 * d.next.remaining.length + 1 < 2 * d.remaining.length := by
    have length := List.length_pos_iff.2 some
    simp only [next, List.length_drop]
    omega
  unfold rank
  split <;> split <;> simp_all [Prod.Lex.toLex_lt_toLex, next]
  all_goals omega

end Delivery

namespace Bench

variable {b : Bench} {d : Delivery}

theorem point_subscriberFault (b : Bench) (some : d.remaining ≠ []) (fault : Fault) :
    d.Point (b.subscriberFault d fault).2.stand := by
  unfold subscriberFault
  split
  · exact .next some
  · next passes => exact .failed some (by simpa using passes)

theorem point_react (b : Bench) (some : d.remaining ≠ []) (fresh : d.attention = .fresh)
    (reaction : Reaction) : d.Point (b.react d reaction).2.stand := by
  have keeps : ∀ attention : Attention, attention ≠ .fresh →
      d.Point (.delivering { d with attention }) := by
    intro attention waits
    refine .holds some rfl rfl (Delivery.isOut_of_attention some waits) ?_
    cases attention with
    | fresh => exact absurd rfl waits
    | _ => simp [Delivery.rank, fresh, Prod.Lex.toLex_lt_toLex]
  cases reaction with
  | raise fault => exact point_subscriberFault b some fault
  | sleep milliseconds =>
    unfold react
    dsimp only
    split
    · exact point_subscriberFault b some _
    · exact keeps _ nofun
    · exact keeps _ nofun
  | yield times => exact keeps _ nofun
  | close name =>
    unfold react
    dsimp only
    split
    · exact .next some
    · exact point_subscriberFault b some _
  | complete destination call =>
    unfold react
    dsimp only
    split
    · exact .next some
    · exact point_subscriberFault b some _
  | _ => exact .next some

theorem point_attend (b : Bench) (d : Delivery) : d.Point (b.attend d).2.stand := by
  unfold attend
  split
  · next none => exact .done none
  · next asked =>
    have some : d.remaining ≠ [] := by simp [asked]
    split
    · exact .next some
    · exact .next some
    · next n waits =>
      refine .holds some rfl rfl (Delivery.isOut_of_attention some nofun) ?_
      simp [Delivery.rank, waits, Prod.Lex.toLex_lt_toLex]
    · next fresh =>
      split
      · exact point_subscriberFault b some _
      · exact point_react (b.tell _) some fresh _

/-! ## What a point does to the bench -/

def recorded (b : Bench) : List (String × List Value) :=
  b.trace.filterMap fun
    | .delivered name row => some (name, row)
    | _ => none

structure NobodyCalled (b b' : Bench) : Prop where
  buses : b'.buses = b.buses
  recorded : b'.recorded = b.recorded

namespace NobodyCalled

theorem refl (b : Bench) : NobodyCalled b b := ⟨rfl, rfl⟩

theorem trans {b' b'' : Bench} (h : NobodyCalled b b') (h' : NobodyCalled b' b'') :
    NobodyCalled b b'' :=
  ⟨h'.buses.trans h.buses, h'.recorded.trans h.recorded⟩

theorem log (b : Bench) (n : Notice) : NobodyCalled b (b.log n) := ⟨rfl, rfl⟩

theorem post (b : Bench) (name : LoopName) (callback : Callback) :
    NobodyCalled b (b.post name callback) := by
  cases name <;> exact ⟨rfl, rfl⟩

theorem wake (b : Bench) (id : ℕ) : NobodyCalled b (b.wake id) := by
  unfold Bench.wake
  split
  · split
    · exact (⟨rfl, rfl⟩ : NobodyCalled b (b.setCall _ _)).trans (post _ _ _)
    · exact .refl b
  · exact .refl b

theorem change (b : Bench) (i : ℕ) (f : Writer → Change) : NobodyCalled b (b.change i f).2 := by
  have perform : ∀ (label : String) (effects : List Effect) (b : Bench),
      NobodyCalled b (effects.foldl (perform i label) b) := by
    intro label effects
    induction effects with
    | nil => exact refl
    | cons e rest ih =>
      intro b
      refine NobodyCalled.trans ?_ (ih _)
      cases e with
      | wake call => exact wake b call
      | _ => exact ⟨rfl, rfl⟩
  unfold Bench.change
  split
  · exact .refl b
  · refine NobodyCalled.trans ?_ (perform _ _ _)
    exact ⟨rfl, rfl⟩

theorem tellHandle (b : Bench) (handle : Handle) (report : Report) :
    NobodyCalled b (b.tellHandle handle report) := by
  unfold Bench.tellHandle
  split
  · exact ⟨rfl, rfl⟩
  · split
    · exact log b _
    · exact post b _ _

theorem subscriberFault (b : Bench) (d : Delivery) (fault : Fault) :
    NobodyCalled b (b.subscriberFault d fault).1 := by
  unfold Bench.subscriberFault
  split
  · exact log b _
  · exact refl b

end NobodyCalled

theorem recorded_ask (b : Bench) (a : Ask) : (b.ask a).recorded = b.recorded := by
  have opened : ∀ bus, (b.openBus bus).recorded = b.recorded := by
    intro bus
    unfold openBus
    split
    · rfl
    · dsimp only
      split <;> rfl
  cases a with
  | join bus name =>
    unfold ask subscribe
    dsimp only
    split <;> exact opened bus
  | leave bus name =>
    unfold ask unsubscribe
    dsimp only
    split <;> exact opened bus

structure Asks (asked : List Ask) (b b' : Bench) : Prop where
  subscribers : ∀ bus, b'.subscribersOf bus = asked.foldl (fun names a => a.roll bus names)
    (b.subscribersOf bus)
  recorded : b'.recorded = b.recorded

theorem NobodyCalled.asks {b' : Bench} (h : NobodyCalled b b') : Asks [] b b' :=
  ⟨fun bus => by rw [subscribersOf, h.buses]; rfl, h.recorded⟩

theorem asks_react (b : Bench) (d : Delivery) (reaction : Reaction) :
    Asks reaction.asks b (b.react d reaction).1 := by
  cases reaction with
  | raise fault => exact (NobodyCalled.subscriberFault b d fault).asks
  | sleep milliseconds =>
    unfold react
    dsimp only
    split
    · exact (NobodyCalled.subscriberFault b d _).asks
    · exact (NobodyCalled.refl b).asks
    · exact (NobodyCalled.refl b).asks
  | unsubscribe bus name =>
    exact ⟨subscribersOf_ask b (.leave bus name), recorded_ask b (.leave bus name)⟩
  | subscribe bus name =>
    exact ⟨subscribersOf_ask b (.join bus name), recorded_ask b (.join bus name)⟩
  | close name =>
    unfold react
    dsimp only
    split
    · exact (NobodyCalled.change b _ _).asks
    · exact (NobodyCalled.subscriberFault b d _).asks
  | complete destination call =>
    unfold react
    dsimp only
    split
    · exact (NobodyCalled.tellHandle b _ _).asks
    · exact (NobodyCalled.subscriberFault b d _).asks
  | _ => exact (NobodyCalled.refl b).asks

/-- The subscribers of each bus change as is asked at the point, and a subscriber that is called
records the event, if that has a row. -/
theorem attend_asks (b : Bench) (d : Delivery) :
    (∀ bus, (b.attend d).1.subscribersOf bus =
      (b.asksOf d).foldl (fun names a => a.roll bus names) (b.subscribersOf bus)) ∧
    (b.attend d).1.recorded = d.rows ++ b.recorded := by
  unfold attend asksOf Delivery.rows Delivery.isOut
  split
  · next none => simp [none]
  · next name rest some =>
    split
    · next waits => simp [some, waits]
    · next waits => simp [some, waits]
    · next n waits => simp [some, waits]
    · next fresh =>
      cases row : d.event.row with
      | error fault =>
        have quiet := (NobodyCalled.subscriberFault b d fault).asks
        simpa [some, fresh, row] using ⟨quiet.subscribers, quiet.recorded⟩
      | ok row' =>
        have asks := asks_react (b.tell (.delivered name row')) d
          (((b.subscriber? name).map Subscriber.reaction).getD .collect)
        simpa [some, fresh, row] using ⟨asks.subscribers, asks.recorded⟩

end Bench
end BatchWriter
