import BatchWriter.Proofs.Bench.Buses
import BatchWriter.Proofs.Bench.Tended
import BatchWriter.Proofs.Feedback.Forum
import Mathlib.Logic.Function.Basic

/-!
# The runs of a bench are runs of a forum

Calls of a bench publish what they are asked to publish, and writes what they have to tell. Every
delivery that a call is at is a publication of its own, which moves as the call does; whatever
else a run does, a forum takes in as something that happens meanwhile.
-/

set_option autoImplicit false

namespace BatchWriter
namespace Bench

variable {old : ℕ → Prop} {b b' : Bench} {c : Call} {k id : ℕ}

def deliveryOf (b : Bench) (k : ℕ) : Option Delivery :=
  (b.calls[k]?).bind fun c => if c.isEnded then none else c.program.delivery?

theorem deliveryOf_of_live (hc : b.calls[k]? = some c) (live : c.isEnded = false) :
    b.deliveryOf k = c.program.delivery? := by
  rw [deliveryOf, hc, Option.bind_some, if_neg (by simp [live])]

theorem deliveryOf_of_calls (same : b'.calls[k]? = b.calls[k]?) :
    b'.deliveryOf k = b.deliveryOf k := by
  rw [deliveryOf, deliveryOf, same]

theorem delivery?_of_begins {p : Program} (begins : b.Begins k p) : p.delivery? = none := by
  cases p with
  | write job point =>
    obtain ⟨rfl, -⟩ := begins
    rfl
  | deliver d => exact begins.elim
  | _ => rfl

theorem Stays.deliveryOf (h : Stays old b b') (k : ℕ) : b'.deliveryOf k = b.deliveryOf k := by
  cases hc : b.calls[k]? with
  | some c =>
    obtain ⟨c', hc', keeps⟩ := h.kept k c hc
    rw [Bench.deliveryOf, Bench.deliveryOf, hc, hc', Option.bind_some, Option.bind_some,
      keeps.ended, keeps.program]
  | none =>
    rw [Bench.deliveryOf, Bench.deliveryOf, hc]
    cases hc' : b'.calls[k]? with
    | none => rfl
    | some c' =>
      obtain ⟨begins, live, -⟩ := h.begun k c' hc' hc
      rw [Option.bind_some, if_neg (by simp [live]), delivery?_of_begins begins]
      rfl

theorem deliveryOf_resolve (hc : b.calls[k]? = some c) (progress : Progress) :
    (b.resolve k progress).deliveryOf k = progress.delivery? ∧
      ∀ n, n ≠ k → (b.resolve k progress).deliveryOf n = b.deliveryOf n := by
  have after := resolved hc progress
  obtain ⟨c', hc', -, -, program⟩ := after.own
  refine ⟨?_, fun n other => deliveryOf_of_calls (after.others n other)⟩
  rw [deliveryOf, hc', Option.bind_some, after.isEnded hc', program, Progress.delivery?]
  cases progress.program? <;> rfl

structure Aired (b : Bench) (id : ℕ) (p : Program) (r : Bench × Progress) : Prop where
  airs : Airs b p r
  before : b.deliveryOf id = p.delivery?
  after : (b.proceed id).deliveryOf id = r.2.delivery?
  others : ∀ n, n ≠ id → (b.proceed id).deliveryOf n = b.deliveryOf n
  buses : (b.proceed id).buses = r.1.buses

theorem Reachable.aired (h : b.Reachable) (running : b.running = some id) :
    ∃ p r, Aired b id p r := by
  obtain ⟨c, hc, -⟩ := h.orderly.current id running
  obtain ⟨-, live, fits, -⟩ := h.orderly.runs running hc
  have stays := stays_advanceProgram b.known_any id c.loop c.program
  obtain ⟨c', hc', -⟩ := stays.kept id c hc
  obtain ⟨own, others⟩ := deliveryOf_resolve hc' (b.advanceProgram id c.loop c.program).2
  have same : b.proceed id = (b.advanceProgram id c.loop c.program).1.resolve id
      (b.advanceProgram id c.loop c.program).2 := by
    rw [proceed]
    simp only [hc]
  refine ⟨c.program, b.advanceProgram id c.loop c.program, airs_advanceProgram fits id,
    deliveryOf_of_live hc live, ?_, fun n other => ?_, ?_⟩
  · rw [same, own]
  · rw [same, others n other, stays.deliveryOf]
  · rw [same, buses_resolve]

end Bench

theorem Stand.delivery?_eq_some {stand : Stand} {d : Delivery} :
    stand.delivery? = some d ↔ stand = .delivering d := by
  cases stand <;> simp [Stand.delivery?]

namespace Forum

variable {f f' : Forum} {b b' : Bench} {q : Publication} {d : Delivery} {k id : ℕ} {place : ℕ → ℕ}

/-- The forum stands for the bench: each delivery that a call is at is a publication of its own
on its way, and there are no others on their way. -/
structure Stages (f : Forum) (b : Bench) (place : ℕ → ℕ) : Prop where
  bench : f.bench = b
  here : ∀ k d, b.deliveryOf k = some d →
    ∃ p, f.publications[place k]? = some p ∧ p.stand = .delivering d
  there : ∀ (i : ℕ) (p : Publication) (d : Delivery), f.publications[i]? = some p →
    p.stand = .delivering d → ∃ k, place k = i ∧ b.deliveryOf k = some d
  apart : ∀ k l, b.deliveryOf k ≠ none → b.deliveryOf l ≠ none → place k = place l → k = l

namespace Stages

theorem same (h : Stages f b place) (bench : f'.bench = b')
    (publications : f'.publications = f.publications)
    (deliveries : ∀ k, b'.deliveryOf k = b.deliveryOf k) : Stages f' b' place := by
  obtain ⟨-, here, there, apart⟩ := h
  refine ⟨bench, ?_, ?_, ?_⟩
  · simpa only [publications, deliveries] using here
  · simpa only [publications, deliveries] using there
  · simpa only [deliveries] using apart

theorem put (h : Stages f b place) (delivers : b.deliveryOf k = some d) (bench : f'.bench = b')
    (publications : f'.publications = f.publications.set (place k) q)
    (own : q.stand.delivery? = b'.deliveryOf k)
    (others : ∀ n, n ≠ k → b'.deliveryOf n = b.deliveryOf n) : Stages f' b' place := by
  obtain ⟨p, known, -⟩ := h.here k d delivers
  have within := (List.getElem?_eq_some_iff.1 known).1
  have delivered : ∀ n, b'.deliveryOf n ≠ none → b.deliveryOf n ≠ none := by
    intro n some
    by_cases same : n = k
    · rw [same, delivers]
      exact Option.some_ne_none d
    · rwa [← others n same]
  refine ⟨bench, fun n e at_ => ?_, fun i p e known stands => ?_, fun n l hn hl =>
    h.apart n l (delivered n hn) (delivered l hl)⟩
  · rw [publications]
    by_cases same : n = k
    · subst same
      exact ⟨q, List.getElem?_set_self within, Stand.delivery?_eq_some.1 (own.trans at_)⟩
    · have at_ := (others n same).symm.trans at_
      obtain ⟨p, known, stands⟩ := h.here n e at_
      refine ⟨p, ?_, stands⟩
      rw [List.getElem?_set_ne fun clash => same ?_, known]
      exact (h.apart k n (by simp [delivers]) (by simp [at_]) clash).symm
  · rw [publications] at known
    by_cases same : place k = i
    · subst same
      rw [List.getElem?_set_self within] at known
      cases known
      exact ⟨k, rfl, own.symm.trans (Stand.delivery?_eq_some.2 stands)⟩
    · rw [List.getElem?_set_ne same] at known
      obtain ⟨n, rfl, at_⟩ := h.there i p e known stands
      refine ⟨n, rfl, (others n ?_).trans at_⟩
      rintro rfl
      exact same rfl

theorem add (h : Stages f b place) (silent : b.deliveryOf k = none) (bench : f'.bench = b')
    (publications : f'.publications = f.publications ++ [q])
    (own : q.stand.delivery? = b'.deliveryOf k)
    (others : ∀ n, n ≠ k → b'.deliveryOf n = b.deliveryOf n) :
    Stages f' b' (Function.update place k f.publications.length) := by
  have earlier : ∀ n, n ≠ k → b'.deliveryOf n ≠ none → place n < f.publications.length := by
    intro n other some
    rw [others n other] at some
    obtain ⟨e, at_⟩ := Option.ne_none_iff_exists'.1 some
    obtain ⟨p, known, -⟩ := h.here n e at_
    exact (List.getElem?_eq_some_iff.1 known).1
  refine ⟨bench, fun n e at_ => ?_, fun i p e known stands => ?_, fun n l hn hl clash => ?_⟩
  · rw [publications]
    by_cases same : n = k
    · subst same
      rw [Function.update_self]
      exact ⟨q, List.getElem?_concat_length, Stand.delivery?_eq_some.1 (own.trans at_)⟩
    · rw [Function.update_of_ne same]
      obtain ⟨p, known, stands⟩ := h.here n e ((others n same).symm.trans at_)
      exact ⟨p, by rw [List.getElem?_append_left (earlier n same (by simp [at_])), known], stands⟩
  · rw [publications, List.getElem?_append] at known
    split at known
    · obtain ⟨n, rfl, at_⟩ := h.there i p e known stands
      have other : n ≠ k := by
        rintro rfl
        rw [silent] at at_
        cases at_
      exact ⟨n, Function.update_of_ne other _ _, (others n other).trans at_⟩
    · next beyond =>
      obtain ⟨last, rfl⟩ : i = f.publications.length ∧ q = p := by
        rw [List.getElem?_singleton] at known
        split at known
        · next first =>
          cases known
          exact ⟨by omega, rfl⟩
        · cases known
      refine ⟨k, ?_, own.symm.trans (Stand.delivery?_eq_some.2 stands)⟩
      rw [Function.update_self, last]
  · by_cases first : n = k
    · by_cases second : l = k
      · rw [first, second]
      · rw [first, Function.update_self, Function.update_of_ne second] at clash
        exact absurd (earlier l second hl) (by omega)
    · by_cases second : l = k
      · rw [second, Function.update_self, Function.update_of_ne first] at clash
        exact absurd (earlier n first hn) (by omega)
      · rw [Function.update_of_ne first, Function.update_of_ne second] at clash
        exact h.apart n l (others n first ▸ hn) (others l second ▸ hl) clash

end Stages

/-! ## What a move comes to on the forum -/

theorem act_meanwhile (buses : b'.buses = f.bench.buses) :
    (f.act (.meanwhile b')).bench = b' := by
  rw [act, ← buses]

theorem exists_step (aside : (∃ a, b' = b.ask a) ∨ b'.buses = b.buses) (bench : f.bench = b) :
    ∃ step, (f.act step).bench = b' ∧ (f.act step).publications = f.publications := by
  subst bench
  rcases aside with ⟨a, rfl⟩ | buses
  · exact ⟨.ask a, rfl, rfl⟩
  · exact ⟨.meanwhile b', act_meanwhile buses, rfl⟩

/-- The forum has come to stand for a later bench. The publication of a call is the one that it
was, or one that has started since. -/
def Follows (f : Forum) (place : ℕ → ℕ) (b : Bench) : Prop :=
  ∃ (steps : List Step) (place' : ℕ → ℕ), Stages (steps.foldl act f) b place' ∧
    ∀ k, place' k = place k ∨ f.publications.length ≤ place' k

theorem length_act (f : Forum) (step : Step) :
    f.publications.length ≤ (f.act step).publications.length := by
  by_contra less
  obtain ⟨p', known, -⟩ := becomes_act (f := f)
    (List.getElem?_eq_getElem (by omega : (f.act step).publications.length < _)) step
  exact absurd (List.getElem?_eq_some_iff.1 known).1 (Nat.lt_irrefl _)

theorem length_steps (steps : List Step) (f : Forum) :
    f.publications.length ≤ (steps.foldl act f).publications.length := by
  induction steps generalizing f with
  | nil => exact Nat.le_refl _
  | cons step rest ih => exact (length_act f step).trans (ih _)

theorem follows_proceed (h : Stages f b place) (reachable : b.Reachable)
    (running : b.running = some id) : Follows f place (b.proceed id) := by
  obtain ⟨program, r, airs, before, after, others, buses⟩ := reachable.aired running
  obtain rfl := h.bench
  cases airs with
  | quiet silent quiet next =>
    refine ⟨[.meanwhile (f.bench.proceed id)], place,
      h.same (act_meanwhile (buses.trans quiet)) rfl fun n => ?_, fun _ => .inl rfl⟩
    by_cases mine : n = id
    · rw [mine, after, before, silent, next]
    · exact others n mine
  | @begins b₀ bus event silent quiet bench next =>
    have noted := act_meanwhile quiet
    refine ⟨[.meanwhile b₀, .publish bus event, .meanwhile (f.bench.proceed id)],
      Function.update place id f.publications.length,
      h.add (q := started b₀ bus event) (before.trans silent) ?_ ?_ ?_ others, fun n => ?_⟩
    · refine act_meanwhile (buses.trans ?_)
      rw [bench, act, noted]
    · rw [List.foldl_cons, List.foldl_cons, started, ← noted]
      rfl
    · rw [after, next, started]
      cases (b₀.publication bus event).2 <;> rfl
    · by_cases mine : n = id
      · rw [mine, Function.update_self]
        exact .inr (Nat.le_refl _)
      · exact .inl (Function.update_of_ne mine _ _)
  | @goes d delivers bench next =>
    have at_ := before.trans delivers
    obtain ⟨p, known, stands⟩ := h.here id d at_
    have goes : f.act (.advance (place id)) =
        f.advance (place id) p d (f.bench.asksOf d) (f.bench.attend d) := by
      rw [act, known]
      simp only [stands]
    refine ⟨[.advance (place id), .meanwhile (f.bench.proceed id)], place,
      h.put (q := p.goTo d (f.bench.attend d).2.stand) at_ (act_meanwhile ?_) ?_ ?_ others,
      fun _ => .inl rfl⟩
    · rw [buses, bench, goes]
      rfl
    · rw [List.foldl_cons, goes]
      rfl
    · exact (after.trans next).symm

/-- A call that was at a delivery gives it up. -/
theorem follows_cancelled (h : Stages f b place)
    (aside : (∃ a, b' = b.ask a) ∨ b'.buses = b.buses) (ends : b'.deliveryOf k = none)
    (others : ∀ n, n ≠ k → b'.deliveryOf n = b.deliveryOf n) : Follows f place b' := by
  cases delivers : b.deliveryOf k with
  | none =>
    obtain ⟨step, bench, publications⟩ := exists_step aside h.bench
    refine ⟨[step], place, h.same bench publications fun n => ?_, fun _ => .inl rfl⟩
    by_cases mine : n = k
    · rw [mine, ends, delivers]
    · exact others n mine
  | some d =>
    obtain ⟨p, known, stands⟩ := h.here k d delivers
    have cancels : f.act (.cancel (place k)) =
        { f with publications := f.publications.set (place k) { p with stand := .cancelled } } := by
      rw [act, known]
      simp only [stands]
    obtain ⟨step, bench, publications⟩ :=
      exists_step (f := f.act (.cancel (place k))) aside (by rw [cancels, h.bench])
    refine ⟨[.cancel (place k), step], place,
      h.put (q := { p with stand := .cancelled }) delivers bench
        (publications.trans (by rw [cancels])) ends.symm others, fun _ => .inl rfl⟩

/-- Each move of a bench comes to some steps of the forum. -/
theorem follows_move (h : Stages f b place) (reachable : b.Reachable) (m : Bench.Move b b') :
    Follows f place b' := by
  rcases m.airs with ⟨id, running, rfl⟩ | aside
  · exact follows_proceed h reachable running
  have still : (∀ n, b'.deliveryOf n = b.deliveryOf n) → Follows f place b' := fun same => by
    obtain ⟨step, bench, publications⟩ := exists_step aside h.bench
    exact ⟨[step], place, h.same bench publications same, fun _ => .inl rfl⟩
  cases reachable.shift m with
  | beside noProgress _ => exact still noProgress.toStays.deliveryOf
  | @woken id c b₀ _ hc queued _ _ calls same =>
    subst same
    obtain ⟨own, others⟩ := Bench.deliveryOf_resolve (calls ▸ hc) (.go c.program)
    have kept : ∀ n, b₀.deliveryOf n = b.deliveryOf n := fun n =>
      Bench.deliveryOf_of_calls (by rw [calls])
    refine still fun n => ?_
    by_cases mine : n = id
    · rw [mine, own, Bench.deliveryOf_of_live hc (by rw [Call.isEnded, queued])]
      rfl
    · exact (others n mine).trans (kept n)
  | @advanced id c running hc same =>
    have proceeds : b' = b.proceed id := by
      rw [same, Bench.proceed]
      simp only [hc]
    exact proceeds ▸ follows_proceed h reachable running
  | @interrupted id c b₀ _ hc _ _ calls same =>
    have stays : Bench.Stays Bench.anyId b₀ _ := Bench.stays_interruptProgram b₀ id c.program
    obtain ⟨c', hc', -⟩ := stays.kept id c (calls ▸ hc)
    obtain ⟨own, others⟩ := Bench.deliveryOf_resolve hc' (b₀.interruptProgram id c.program).2
    subst same
    refine follows_cancelled (k := id) h aside ?_ fun n other => ?_
    · exact own.trans (by rw [Progress.delivery?, Bench.interruptProgram_ends]; rfl)
    · refine (others n other).trans ((stays.deliveryOf n).trans ?_)
      exact Bench.deliveryOf_of_calls (by rw [calls])

theorem follows_moves (h : Stages f b place) (reachable : b.Reachable)
    (run : Bench.Moves b b') : Follows f place b' := by
  induction run with
  | refl => exact ⟨[], place, h, fun _ => .inl rfl⟩
  | @tail b₁ b₂ before m ih =>
    obtain ⟨steps, place₁, stages, kept⟩ := ih
    obtain ⟨more, place₂, stages', kept'⟩ := follows_move stages (reachable.moves before) m
    refine ⟨steps ++ more, place₂, by rwa [List.foldl_append], fun k => ?_⟩
    rcases kept' k with same | later
    · exact same ▸ kept k
    · exact .inr ((length_steps steps f).trans later)

/-- A forum on which nothing was done stands for a bench on which nothing runs. -/
theorem stages_start (s : Scenario) : Stages (after s.start []) s.start fun k => k := by
  have silent : ∀ k, s.start.deliveryOf k = none := fun _ => rfl
  refine ⟨rfl, fun k d at_ => ?_, fun i p d known => ?_, fun k l some => absurd (silent k) some⟩
  · rw [silent] at at_
    cases at_
  · cases known

/-- All runs of the scenario are runs of a forum, which stands for each bench of a run and
follows it from there. -/
def FollowsRuns (s : Scenario) : Prop :=
  ∀ b₀ b, Bench.Moves s.start b₀ → Bench.Moves b₀ b → ∃ steps place,
    Stages (after s.start steps) b₀ place ∧ Follows (after s.start steps) place b

theorem followsRuns {s : Scenario} (unused : s.Unused) : FollowsRuns s := by
  intro b₀ b first later
  have reachable := Bench.Reachable.init s unused
  obtain ⟨steps, place, stages, -⟩ := follows_moves (stages_start s) reachable first
  exact ⟨steps, place, stages, follows_moves stages (reachable.moves first) later⟩

/-! A run in which a subscriber takes the next one off the bus. -/

def leaving : Scenario := ⟨[], [⟨"first", .unsubscribe "feedback" "second"⟩], []⟩

def alert : Event where
  writer := .text "writer"
  buffered := .nat 0
  capacity := .nat 0
  inFlight := .nat 0
  level := .hard

def heralding : Bench :=
  ((leaving.start.subscribe "feedback" "first").subscribe "feedback" "second").start .main
    (some "herald") (.publish "feedback" alert) []

theorem moves_heralding : Bench.Moves leaving.start heralding := by
  have known :
      ((leaving.start.subscribe "feedback" "first").subscribe "feedback" "second").programOf
        "herald" (.publish "feedback" [("writer_id", .text "writer"), ("buffered", .nat 0),
          ("capacity", .nat 0), ("in_flight", .nat 0), ("level", .text "hard")]) =
      .ok (.publish "feedback" alert) := rfl
  exact ((Relation.ReflTransGen.single (.subscribe "feedback" "first")).tail
    (.subscribe "feedback" "second")).tail (.start .main known)

def midway : Bench := Bench.run 3 heralding

/-- **Publications are exact.** However publications, calls of subscribers and what is asked of
buses interleave, each publication calls those that were subscribed when it started, in order and
once each, and returns; and what calls and writes of a bench publish is published like this. -/
theorem publications_are_exact :
    (∀ bench, DeliversExactly bench) ∧ ∀ s : Scenario, s.Unused → FollowsRuns s :=
  ⟨delivers_exactly, fun _ => followsRuns⟩

theorem publications_are_exact_midway : leaving.Unused ∧
    midway.subscribersOf "feedback" = ["first"] ∧ ∃ steps place p,
      (after leaving.start steps).bench = midway ∧
      (after leaving.start steps).publications[place 0]? = some p ∧
      p.stand = .delivering { event := alert, remaining := ["second"] } ∧
      p.signals <+: word p.audience p.event ∧
      Follows (after leaving.start steps) place (Bench.run 3 midway) := by
  have unused : leaving.Unused := fun d listed => by cases listed
  have delivers : midway.deliveryOf 0 = some { event := alert, remaining := ["second"] } := rfl
  obtain ⟨exactly, follows⟩ := publications_are_exact
  obtain ⟨steps, place, stages, follows⟩ := follows leaving unused midway _
    (moves_heralding.trans (Bench.moves_run _ 3)) (Bench.moves_run midway 3)
  obtain ⟨p, known, stands⟩ := stages.here 0 _ delivers
  exact ⟨unused, rfl, steps, place, p, stages.bench, known, stands,
    ((exactly leaving.start).exact steps p (List.mem_of_getElem? known)).heard, follows⟩

end Forum
end BatchWriter
