import BatchWriter.Proofs.Feedback.Faults
import BatchWriter.Proofs.Feedback.Point
import Mathlib.Data.List.Infix

/-!
# Publications among each other

A bus is used by anybody at any time: by those who publish, by subscribers that are being called,
and by whoever else runs while a call of a subscriber takes its time. Here all of that may happen
between any two points of a publication, in any order, and any number of publications may be on
their way, to the same bus or not, one started by a subscriber of another or not.
-/

set_option autoImplicit false

namespace BatchWriter

structure Publication where
  event : Event
  /-- Whoever was subscribed when it started. -/
  audience : List String
  stand : Stand
  signals : List Signal := []

def Publication.goTo (p : Publication) (d : Delivery) (next : Stand) : Publication :=
  { p with stand := next, signals := p.signals ++ d.signals next }

structure Forum where
  bench : Bench
  /-- What was asked of buses so far. -/
  asked : List Ask := []
  publications : List Publication := []

namespace Forum

inductive Step where
  /-- Somebody asks a bus, between publications or while some are on their way. -/
  | ask (a : Ask)
  /-- A publication starts. -/
  | publish (bus : String) (event : Event)
  /-- A publication goes on by one point. -/
  | advance (i : ℕ)
  /-- The subscriber that a publication has called raises a fault. -/
  | raise (i : ℕ) (fault : Fault)
  | cancel (i : ℕ)
  /-- Anything that leaves the buses alone; subscribers may change their minds, too. -/
  | meanwhile (bench : Bench)

def advance (f : Forum) (i : ℕ) (p : Publication) (d : Delivery) (asked : List Ask)
    (r : Bench × DeliveryProgress) : Forum where
  bench := r.1
  asked := f.asked ++ asked
  publications := f.publications.set i (p.goTo d r.2.stand)

def act (f : Forum) : Step → Forum
  | .ask a => { f with bench := f.bench.ask a, asked := f.asked ++ [a] }
  | .publish bus event =>
    let r := f.bench.publication bus event
    { f with
      bench := r.1
      publications := f.publications ++
        [{ event
           audience := f.bench.subscribersOf bus
           stand := r.2.elim .returned .delivering }] }
  | .advance i =>
    match f.publications[i]? with
    | some p =>
      match p.stand with
      | .delivering d => f.advance i p d (f.bench.asksOf d) (f.bench.attend d)
      | _ => f
    | none => f
  | .raise i fault =>
    match f.publications[i]? with
    | some p =>
      match p.stand with
      | .delivering d => if d.isOut then f.advance i p d [] (f.bench.subscriberFault d fault) else f
      | _ => f
    | none => f
  | .cancel i =>
    match f.publications[i]? with
    | some p =>
      match p.stand with
      | .delivering _ =>
        { f with publications := f.publications.set i { p with stand := .cancelled } }
      | _ => f
    | none => f
  | .meanwhile bench => { f with bench := { bench with buses := f.bench.buses } }

def after (bench : Bench) (steps : List Step) : Forum :=
  steps.foldl act { bench := { bench with buses := {} } }

end Forum

/-! ## One publication -/

/-- What can be said of a publication at any time: its subscribers are called in order, one call
at a time, and it ends early only by a fault that is not an ordinary one. -/
structure Publication.Exact (p : Publication) : Prop where
  heard : p.signals <+: word p.audience p.event
  returns : p.stand = .returned → p.signals = word p.audience p.event
  fails : ∀ fault, p.stand = .failed fault → fault.isOrdinary = false

def Delivery.rest (d : Delivery) : List Signal :=
  match d.remaining with
  | [] => []
  | name :: others =>
    if d.isOut then .ended name :: word others d.event else word d.remaining d.event

structure Publication.Sound (p : Publication) : Prop extends Exact p where
  left : ∀ d, p.stand = .delivering d →
    d.event = p.event ∧ p.signals ++ d.rest = word p.audience p.event

namespace Publication

variable {p : Publication} {d : Delivery} {next : Stand}

theorem word_cons (name : String) (rest : List String) (event : Event) :
    word (name :: rest) event = .called name event :: .ended name :: word rest event := rfl

/-- What is heard at a point is the next of what is left. -/
theorem signals_rest (point : d.Point next) :
    (∀ d', next = .delivering d' → d.signals next ++ d'.rest = d.rest) ∧ d.signals next <+: d.rest ∧
      (next = .returned → d.rest = d.signals next) := by
  cases point with
  | done none =>
    refine ⟨fun _ same => (by cases same), ?_, fun _ => ?_⟩ <;>
      simp [Delivery.signals, Delivery.rest, none]
  | @holds d' some remaining event out _ =>
    obtain ⟨name, others, asked⟩ := List.exists_cons_of_ne_nil some
    have whole : d.signals (.delivering d') ++ d'.rest = d.rest := by
      cases was : d.isOut <;>
        simp [Delivery.signals, Delivery.rest, asked, remaining, event, out, was,
          Stand.isOut, word_cons]
    refine ⟨fun e same => ?_, ⟨_, whole⟩, fun same => by cases same⟩
    cases same
    exact whole
  | next some =>
    obtain ⟨name, others, asked⟩ := List.exists_cons_of_ne_nil some
    have whole : d.signals (.delivering d.next) ++ d.next.rest = d.rest := by
      have rest : d.next.rest = word others d.event := by
        have left : d.next.remaining = others := by simp [Delivery.next, asked]
        unfold Delivery.rest
        rw [left, Delivery.isOut_next]
        cases others <;> rfl
      rw [rest]
      cases was : d.isOut <;>
        simp [Delivery.signals, Delivery.rest, asked, was, Stand.isOut,
          Delivery.isOut_next, word_cons]
    refine ⟨fun e same => ?_, ⟨_, whole⟩, fun same => by cases same⟩
    cases same
    exact whole
  | failed some passes =>
    obtain ⟨name, others, asked⟩ := List.exists_cons_of_ne_nil some
    refine ⟨fun _ same => (by cases same), ?_, fun same => by cases same⟩
    cases was : d.isOut <;>
      simp [Delivery.signals, Delivery.rest, asked, was, Stand.isOut, word_cons]

theorem Sound.goTo (h : p.Sound) (stands : p.stand = .delivering d) (point : d.Point next) :
    (p.goTo d next).Sound := by
  obtain ⟨event, whole⟩ := h.left d stands
  obtain ⟨goes, begins, ends⟩ := signals_rest point
  refine ⟨⟨?_, fun returned => ?_, fun fault failed => ?_⟩, fun d' same => ?_⟩
  · show p.signals ++ d.signals next <+: word p.audience p.event
    rw [← whole]
    exact (List.prefix_append_right_inj _).2 begins
  · exact (congrArg (p.signals ++ ·) (ends returned).symm).trans whole
  · cases point with
    | failed _ passes =>
      cases failed
      exact passes
    | _ => cases failed
  · refine ⟨?_, ?_⟩
    · cases point with
      | holds _ _ kept =>
        cases same
        exact kept.trans event
      | next _ =>
        cases same
        exact event
      | _ => cases same
    · rw [Publication.goTo, List.append_assoc, goes d' same]
      exact whole

theorem Sound.cancel (h : p.Sound) : ({ p with stand := .cancelled } : Publication).Sound :=
  ⟨⟨h.heard, nofun, nofun⟩, nofun⟩

end Publication

/-! ## One step -/

namespace Forum

open Ask (Registered)

variable {f : Forum} {p p' : Publication} {step : Step} {i : ℕ}

inductive Becomes (step : Step) (i : ℕ) (p : Publication) : Publication → Prop
  | same (other : step = .advance i → ∀ d, p.stand ≠ .delivering d) : Becomes step i p p
  | moves {d : Delivery} {next : Stand} (stands : p.stand = .delivering d) (point : d.Point next) :
      Becomes step i p (p.goTo d next)
  | cancels {d : Delivery} (stands : p.stand = .delivering d) (cancel : step = .cancel i) :
      Becomes step i p { p with stand := .cancelled }

theorem becomes_of_set {q : Publication} {j : ℕ} (h : f.publications[i]? = some p)
    (target : f.publications[j]? = some q) (q' : Publication) (becomes : Becomes step j q q')
    (mine : step = .advance i → i = j) :
    ∃ p', (f.publications.set j q')[i]? = some p' ∧ Becomes step i p p' := by
  by_cases same : j = i
  · subst same
    cases h.symm.trans target
    exact ⟨q', List.getElem?_set_self (List.getElem?_eq_some_iff.1 h).1, becomes⟩
  · exact ⟨p, by rw [List.getElem?_set_ne same, h],
      .same fun advance => absurd (mine advance).symm same⟩

theorem becomes_act (h : f.publications[i]? = some p) (step : Step) :
    ∃ p', (f.act step).publications[i]? = some p' ∧ Becomes step i p p' := by
  cases step with
  | ask a => exact ⟨p, h, .same nofun⟩
  | publish bus event =>
    refine ⟨p, ?_, .same nofun⟩
    rw [act, List.getElem?_append_left (List.getElem?_eq_some_iff.1 h).1, h]
  | meanwhile bench => exact ⟨p, h, .same nofun⟩
  | advance j =>
    rw [act]
    split
    · next q target =>
      split
      · next d stands =>
        refine becomes_of_set h target _ (.moves stands (Bench.point_attend _ d)) fun same => ?_
        cases same
        rfl
      · next ended =>
        refine ⟨p, h, .same fun same d stands => ?_⟩
        cases same
        cases h.symm.trans target
        exact ended d stands
    · next missing =>
      refine ⟨p, h, .same fun same => ?_⟩
      cases same
      rw [h] at missing
      cases missing
  | raise j fault =>
    rw [act]
    split
    · next q target =>
      split
      · next d stands =>
        split
        · next out =>
          exact becomes_of_set h target _ (.moves stands
            (Bench.point_subscriberFault _ (Delivery.remaining_of_isOut out) fault)) nofun
        · exact ⟨p, h, .same nofun⟩
      · exact ⟨p, h, .same nofun⟩
    · exact ⟨p, h, .same nofun⟩
  | cancel j =>
    rw [act]
    split
    · next q target =>
      split
      · next d stands => exact becomes_of_set h target _ (.cancels stands rfl) nofun
      · exact ⟨p, h, .same nofun⟩
    · exact ⟨p, h, .same nofun⟩

def started (b : Bench) (bus : String) (event : Event) : Publication :=
  { event
    audience := b.subscribersOf bus
    stand := (b.publication bus event).2.elim .returned .delivering }

theorem publication_eq (b : Bench) (bus : String) (event : Event) :
    (b.publication bus event).2 = if b.subscribersOf bus = [] then none
      else some { event, remaining := b.subscribersOf bus } := by
  simp only [Bench.publication, Bench.subscribersOf_openBus]
  cases listed : b.subscribersOf bus <;> rfl

theorem sound_started (b : Bench) (bus : String) (event : Event) :
    (started b bus event).Sound := by
  by_cases none : b.subscribersOf bus = []
  · have same : started b bus event = { event, audience := [], stand := .returned } := by
      rw [started, publication_eq, if_pos none, none]
      rfl
    rw [same]
    exact ⟨⟨List.nil_prefix, fun _ => rfl, nofun⟩, nofun⟩
  · have same : started b bus event =
        { event
          audience := b.subscribersOf bus
          stand := .delivering { event, remaining := b.subscribersOf bus } } := by
      rw [started, publication_eq, if_neg none]
      rfl
    rw [same]
    refine ⟨⟨List.nil_prefix, nofun, nofun⟩, fun d stands => ?_⟩
    cases stands
    obtain ⟨name, others, some⟩ := List.exists_cons_of_ne_nil none
    refine ⟨rfl, ?_⟩
    simp [Delivery.rest, Delivery.isOut, some]

/-- Publications that are on the forum after a step were there before, or start with it. -/
theorem origin_act (h : (f.act step).publications[i]? = some p') :
    (∃ p, f.publications[i]? = some p) ∨ ∃ bus event, step = .publish bus event ∧
      p' = started f.bench bus event := by
  have known : ∀ {q : Publication} {j : ℕ},
      (f.publications.set j q)[i]? = some p' → ∃ p, f.publications[i]? = some p := by
    intro q j there
    have within := (List.getElem?_eq_some_iff.1 there).1
    rw [List.length_set] at within
    exact ⟨_, List.getElem?_eq_getElem within⟩
  cases step with
  | ask a => exact .inl ⟨p', h⟩
  | publish bus event =>
    rw [act, List.getElem?_append] at h
    split at h
    · exact .inl ⟨p', h⟩
    · exact .inr ⟨bus, event, rfl, List.mem_singleton.1 (List.mem_of_getElem? h)⟩
  | meanwhile bench => exact .inl ⟨p', h⟩
  | advance j =>
    rw [act] at h
    split at h
    · split at h
      · exact .inl (known h)
      · exact .inl ⟨p', h⟩
    · exact .inl ⟨p', h⟩
  | raise j fault =>
    rw [act] at h
    split at h
    · split at h
      · split at h
        · exact .inl (known h)
        · exact .inl ⟨p', h⟩
      · exact .inl ⟨p', h⟩
    · exact .inl ⟨p', h⟩
  | cancel j =>
    rw [act] at h
    split at h
    · split at h
      · exact .inl (known h)
      · exact .inl ⟨p', h⟩
    · exact .inl ⟨p', h⟩

theorem Becomes.sound (h : Becomes step i p p') (sound : p.Sound) : p'.Sound := by
  cases h with
  | same => exact sound
  | moves stands point => exact sound.goTo stands point
  | cancels => exact sound.cancel

theorem sound_act (sound : ∀ p ∈ f.publications, p.Sound) (step : Step) :
    ∀ p ∈ (f.act step).publications, p.Sound := by
  intro p' hp
  obtain ⟨i, there⟩ := List.mem_iff_getElem?.1 hp
  rcases origin_act there with ⟨p, was⟩ | ⟨bus, event, -, rfl⟩
  · obtain ⟨q, now, becomes⟩ := becomes_act was step
    cases there.symm.trans now
    exact becomes.sound (sound p (List.mem_of_getElem? was))
  · exact sound_started f.bench bus event

/-- The subscriber that has the turn raises the fault: it does so when it is called, or while its
call takes its time. -/
inductive Raises (f : Forum) (i : ℕ) (fault : Fault) : Step → Prop
  | called {p : Publication} {d : Delivery} {s : Subscriber} (h : f.publications[i]? = some p)
      (stands : p.stand = .delivering d) (turn : d.remaining.head? >>= f.bench.subscriber? = some s)
      (raises : s.reaction = .raise fault) : Raises f i fault (.advance i)
  | later : Raises f i fault (.raise i fault)

theorem stops_of_stand {progress : DeliveryProgress} {fault : Fault}
    (failed : progress.stand = .failed fault) : progress = .stop fault := by
  cases progress with
  | stop other => cases failed; rfl
  | _ => cases failed

/-- A publication has failed before, or a subscriber raises its fault. -/
theorem failed_act {fault : Fault} (h : (f.act step).publications[i]? = some p)
    (failed : p.stand = .failed fault) : f.publications[i]? = some p ∨ Raises f i fault step := by
  cases step with
  | ask a => exact .inl h
  | meanwhile bench => exact .inl h
  | publish bus event =>
    rcases origin_act h with ⟨q, was⟩ | ⟨_, _, -, rfl⟩
    · rw [act, List.getElem?_append_left (List.getElem?_eq_some_iff.1 was).1] at h
      exact .inl h
    · rw [started] at failed
      cases delivers : (f.bench.publication _ _).2 with
      | none => rw [delivers] at failed; cases failed
      | some d => rw [delivers] at failed; cases failed
  | advance j =>
    rw [act] at h
    split at h
    · next q target =>
      split at h
      · next d stands =>
        rw [advance, List.getElem?_set] at h
        split at h
        · next own =>
          subst own
          rw [if_pos (List.getElem?_eq_some_iff.1 target).1, Option.some.injEq] at h
          subst h
          obtain ⟨s, turn, raises⟩ := Bench.raised_attend (stops_of_stand failed)
          exact .inr (.called target stands turn raises)
        · exact .inl h
      · exact .inl h
    · exact .inl h
  | raise j other =>
    rw [act] at h
    split at h
    · next q target =>
      split at h
      · next d stands =>
        split at h
        · rw [advance, List.getElem?_set] at h
          split at h
          · next own =>
            subst own
            rw [if_pos (List.getElem?_eq_some_iff.1 target).1, Option.some.injEq] at h
            subst h
            obtain ⟨rfl, -⟩ := Bench.stops_subscriberFault (stops_of_stand failed)
            exact .inr .later
          · exact .inl h
        · exact .inl h
      · exact .inl h
    · exact .inl h
  | cancel j =>
    rw [act] at h
    split at h
    · next q target =>
      split at h
      · next d stands =>
        rw [List.getElem?_set] at h
        split at h
        · next own =>
          subst own
          rw [if_pos (List.getElem?_eq_some_iff.1 target).1, Option.some.injEq] at h
          subst h
          cases failed
        · exact .inl h
      · exact .inl h
    · exact .inl h

theorem registered_act (h : ∀ bus, Registered f.asked bus (f.bench.subscribersOf bus))
    (step : Step) (bus : String) :
    Registered (f.act step).asked bus ((f.act step).bench.subscribersOf bus) := by
  have all : ∀ (asks asked : List Ask) (names : List String), Registered asked bus names →
      Registered (asked ++ asks) bus (asks.foldl (fun names a => a.roll bus names) names) := by
    intro asks
    induction asks with
    | nil =>
      intro asked names registered
      rwa [List.append_nil]
    | cons a rest ih =>
      intro asked names registered
      have next := ih _ _ (registered.snoc a)
      rwa [List.append_assoc] at next
  have quiet : ∀ {b : Bench}, f.bench.NobodyCalled b → Registered f.asked bus
    (b.subscribersOf bus) := by
    intro b nobodyCalled
    rw [Bench.subscribersOf, nobodyCalled.buses]
    exact h bus
  cases step with
  | ask a =>
    rw [act, Bench.subscribersOf_ask]
    exact (h bus).snoc a
  | publish other event =>
    have same : (f.bench.publication other event).1.subscribersOf bus =
        f.bench.subscribersOf bus := by
      rw [← Bench.subscribersOf_openBus f.bench other bus]
      simp only [Bench.publication]
      split <;> rfl
    rw [act, same]
    exact h bus
  | meanwhile bench => exact h bus
  | advance j =>
    rw [act]
    split
    · split
      · next d _ =>
        rw [advance, (Bench.attend_asks f.bench d).1]
        exact all _ _ _ (h bus)
      · exact h bus
    · exact h bus
  | raise j fault =>
    rw [act]
    split
    · split
      · next d _ =>
        split
        · rw [advance, List.append_nil]
          exact quiet (Bench.NobodyCalled.subscriberFault f.bench d fault)
        · exact h bus
      · exact h bus
    · exact h bus
  | cancel j =>
    rw [act]
    split
    · split <;> exact h bus
    · exact h bus

/-! ## All steps -/

variable {bench : Bench} {steps : List Step}

theorem after_append (steps more : List Step) :
    after bench (steps ++ more) = more.foldl act (after bench steps) :=
  List.foldl_append

theorem after_snoc (steps : List Step) (step : Step) :
    after bench (steps ++ [step]) = (after bench steps).act step := after_append steps [step]

theorem sound_after (steps : List Step) : ∀ p ∈ (after bench steps).publications, p.Sound := by
  induction steps using List.reverseRecOn with
  | nil => exact nofun
  | append_singleton steps step ih =>
    rw [after_snoc]
    exact sound_act ih step

theorem registered_after (steps : List Step) (bus : String) :
    Registered (after bench steps).asked bus ((after bench steps).bench.subscribersOf bus) := by
  induction steps using List.reverseRecOn generalizing bus with
  | nil => exact .init bus
  | append_singleton steps step ih =>
    rw [after_snoc]
    exact registered_act ih step bus

theorem failed_after {fault : Fault} (h : (after bench steps).publications[i]? = some p)
    (failed : p.stand = .failed fault) : ∃ (earlier later : List Step) (step : Step),
      steps = earlier ++ step :: later ∧ Raises (after bench earlier) i fault step := by
  induction steps using List.reverseRecOn with
  | nil => cases h
  | append_singleton steps step ih =>
    rw [after_snoc] at h
    rcases failed_act h failed with was | raises
    · obtain ⟨earlier, later, raiser, rfl, raises⟩ := ih was
      exact ⟨earlier, later ++ [step], raiser, by simp, raises⟩
    · exact ⟨steps, [], step, rfl, raises⟩

/-- Later steps leave the event and the audience of a publication as they are, and what was heard
of it. -/
theorem kept_after (h : (after bench steps).publications[i]? = some p) (more : List Step) :
    ∃ p', (after bench (steps ++ more)).publications[i]? = some p' ∧ p'.event = p.event ∧
      p'.audience = p.audience ∧ p.signals <+: p'.signals := by
  induction more using List.reverseRecOn with
  | nil =>
    rw [List.append_nil]
    exact ⟨p, h, rfl, rfl, List.prefix_refl _⟩
  | append_singleton more step ih =>
    obtain ⟨q, there, event, audience, heard⟩ := ih
    rw [← List.append_assoc, after_snoc]
    obtain ⟨q', now, becomes⟩ := becomes_act there step
    refine ⟨q', now, ?_⟩
    cases becomes with
    | same => exact ⟨event, audience, heard⟩
    | moves => exact ⟨event, audience, heard.trans (List.prefix_append _ _)⟩
    | cancels => exact ⟨event, audience, heard⟩

/-! ## Publications come to an end -/

variable {turns : ℕ → Step} {n : ℕ} {d : Delivery}

def upTo (turns : ℕ → Step) (n : ℕ) : List Step := (List.range n).map turns

theorem after_succ (turns : ℕ → Step) (n : ℕ) :
    after bench (upTo turns (n + 1)) = (after bench (upTo turns n)).act (turns n) := by
  rw [upTo, List.range_succ, List.map_append]
  exact after_snoc _ _

theorem not_cancelled (never : ∀ m, turns m ≠ .cancel i)
    (h : (after bench (upTo turns n)).publications[i]? = some p) : p.stand ≠ .cancelled := by
  induction n generalizing p with
  | zero => cases h
  | succ n ih =>
    rw [after_succ] at h
    rcases origin_act h with ⟨q, was⟩ | ⟨bus, event, -, rfl⟩
    · obtain ⟨q', now, becomes⟩ := becomes_act was (turns n)
      cases h.symm.trans now
      cases becomes with
      | same => exact ih was
      | moves _ point => cases point <;> exact nofun
      | cancels _ cancel => exact absurd cancel (never n)
    · rw [started]
      cases (Bench.publication (after bench (upTo turns n)).bench bus event).2 <;> exact nofun

/-- A publication on its way stays where it is until it has its turn; with every move it comes
nearer to its end. -/
theorem nearer_act (h : f.publications[i]? = some p) (stands : p.stand = .delivering d)
    (goesOn : step ≠ .cancel i) : ∃ p', (f.act step).publications[i]? = some p' ∧
      (p'.stand = .delivering d ∧ step ≠ .advance i ∨ (∀ d', p'.stand ≠ .delivering d') ∨
        ∃ d', p'.stand = .delivering d' ∧ d'.rank < d.rank) := by
  obtain ⟨p', there, becomes⟩ := becomes_act h step
  refine ⟨p', there, ?_⟩
  cases becomes with
  | same other => exact .inl ⟨stands, fun advance => other advance d stands⟩
  | moves was point =>
    cases stands.symm.trans was
    cases point with
    | holds _ _ _ _ nearer => exact .inr (.inr ⟨_, rfl, nearer⟩)
    | next some => exact .inr (.inr ⟨_, rfl, Delivery.rank_next some⟩)
    | _ => exact .inr (.inl nofun)
  | cancels _ cancel => exact absurd cancel goesOn

/-- A publication that has its turn comes nearer to its end. -/
theorem nearer_after {k : ℕ} (never : ∀ m, turns m ≠ .cancel i) (due : turns k = .advance i)
    (gap : ℕ) (before : n + gap = k)
    (h : (after bench (upTo turns n)).publications[i]? = some p)
    (stands : p.stand = .delivering d) : ∃ m > n, ∃ p',
      (after bench (upTo turns m)).publications[i]? = some p' ∧
        ((∀ d', p'.stand ≠ .delivering d') ∨
          ∃ d', p'.stand = .delivering d' ∧ d'.rank < d.rank) := by
  induction gap generalizing n p with
  | zero =>
    obtain ⟨p', there, ⟨-, other⟩ | moved⟩ := nearer_act h stands (never n)
    · rw [Nat.add_zero] at before
      exact absurd (before ▸ due) other
    · exact ⟨n + 1, Nat.lt_succ_self n, p', after_succ turns n ▸ there, moved⟩
  | succ gap ih =>
    obtain ⟨p', there, ⟨still, -⟩ | moved⟩ := nearer_act h stands (never n)
    · obtain ⟨m, later, found⟩ := ih (n := n + 1) (by omega) (after_succ turns n ▸ there) still
      exact ⟨m, by omega, found⟩
    · exact ⟨n + 1, Nat.lt_succ_self n, p', after_succ turns n ▸ there, moved⟩

/-- A publication that has its turn again and again comes to its end. -/
theorem ends_after (never : ∀ m, turns m ≠ .cancel i) (fair : ∀ m, ∃ k ≥ m, turns k = .advance i)
    (h : (after bench (upTo turns n)).publications[i]? = some p)
    (stands : p.stand = .delivering d) : ∃ m > n, ∃ p',
      (after bench (upTo turns m)).publications[i]? = some p' ∧
        ∀ d', p'.stand ≠ .delivering d' := by
  induction rank : d.rank using WellFoundedLT.induction generalizing n p d with
  | _ r ih =>
    obtain ⟨k, later, due⟩ := fair n
    obtain ⟨m, after_, p', there, ended | ⟨d', still, less⟩⟩ :=
      nearer_after never due (k - n) (by omega) h stands
    · exact ⟨m, after_, p', there, ended⟩
    · obtain ⟨m', later', found⟩ := ih d'.rank (rank ▸ less) there still rfl
      exact ⟨m', by omega, found⟩

/-! ## What a forum does -/

/-- Subscribers are listed in the order in which they have joined. Whoever publishes has those
called that are listed then, one after the other, each once and with the event, whatever happens
on the way, and the publication returns, unless it is cancelled or fails. It fails with a fault
that a subscriber raised and that is not an ordinary one, so where subscribers raise ordinary
faults only, a publication that is not cancelled returns. -/
structure DeliversExactly (bench : Bench) : Prop where
  listed : ∀ steps bus,
    Registered (after bench steps).asked bus ((after bench steps).bench.subscribersOf bus)
  starts : ∀ steps bus event, ∃ p : Publication,
    (after bench (steps ++ [.publish bus event])).publications =
      (after bench steps).publications ++ [p] ∧
    p.event = event ∧ p.audience = (after bench steps).bench.subscribersOf bus ∧ p.signals = []
  keeps : ∀ (steps more : List Step) (i : ℕ) (p : Publication),
    (after bench steps).publications[i]? = some p → ∃ p' : Publication,
    (after bench (steps ++ more)).publications[i]? = some p' ∧ p'.event = p.event ∧
      p'.audience = p.audience ∧ p.signals <+: p'.signals
  exact : ∀ steps, ∀ p ∈ (after bench steps).publications, p.Exact
  /-- What the subscribers record is what they are called with. -/
  records : ∀ (steps : List Step) (i : ℕ) (p : Publication) (d : Delivery),
    (after bench steps).publications[i]? = some p →
    p.stand = .delivering d →
      (after bench (steps ++ [.advance i])).bench.recorded =
        d.rows ++ (after bench steps).bench.recorded
  returns : ∀ (turns : ℕ → Step) (i n : ℕ) (p : Publication),
    (∀ m, turns m ≠ .cancel i) → (∀ m, ∃ k ≥ m, turns k = .advance i) →
    (after bench (upTo turns n)).publications[i]? = some p →
    ∃ m ≥ n, ∃ p' : Publication, (after bench (upTo turns m)).publications[i]? = some p' ∧
      (p'.stand = .returned ∨ ∃ fault, p'.stand = .failed fault)
  fails : ∀ (steps : List Step) (i : ℕ) (p : Publication) (fault : Fault),
    (after bench steps).publications[i]? = some p → p.stand = .failed fault →
    fault.isOrdinary = false ∧ ∃ (earlier later : List Step) (step : Step),
      steps = earlier ++ step :: later ∧ Raises (after bench earlier) i fault step

theorem delivers_exactly (bench : Bench) : DeliversExactly bench where
  listed := registered_after
  starts steps bus event := ⟨started (after bench steps).bench bus event,
    congrArg Forum.publications (after_snoc steps (.publish bus event)), rfl, rfl, rfl⟩
  keeps steps more i p h := kept_after h more
  exact steps p hp := (sound_after steps p hp).toExact
  records steps i p d h stands := by
    rw [after_snoc, act, h]
    dsimp only
    rw [stands]
    exact (Bench.attend_asks _ d).2
  returns turns i n p never fair h := by
    have ended : ∃ m ≥ n, ∃ p', (after bench (upTo turns m)).publications[i]? = some p' ∧
        ∀ d', p'.stand ≠ .delivering d' := by
      cases stands : p.stand with
      | delivering d =>
        obtain ⟨m, later, found⟩ := ends_after never fair h stands
        exact ⟨m, later.le, found⟩
      | _ => exact ⟨n, Nat.le_refl n, p, h, fun d' going => by rw [stands] at going; cases going⟩
    obtain ⟨m, later, p', there, done⟩ := ended
    refine ⟨m, later, p', there, ?_⟩
    cases stands : p'.stand with
    | delivering d => exact absurd stands (done d)
    | returned => exact .inl rfl
    | failed fault => exact .inr ⟨fault, rfl⟩
    | cancelled => exact absurd stands (not_cancelled never there)
  fails steps i p fault h failed :=
    ⟨(sound_after steps p (List.mem_of_getElem? h)).fails fault failed, failed_after h failed⟩

end Forum
end BatchWriter
