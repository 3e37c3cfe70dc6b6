import Mathlib.Data.List.Sort
import BatchWriter.Proofs.Bench.Answers
import BatchWriter.Proofs.Bench.Roster

/-!
# Draining a destination

A destination counts its pending sends. When its loop is idle these are the sends that have not
ended; when a drain returns, none of them was there before the drain began to wait.
-/

set_option autoImplicit false

namespace BatchWriter
namespace Bench

variable {b b' b₀ : Bench} {id i k n : Nat} {name : LoopName} {c c' : Call}

/-! No fragment loses a call. -/

structure Counted (b : Bench) (k child : Nat) (b' : Bench) : Prop where
  running : b'.running = b.running
  destinations : b'.destinations = b.destinations
  length : b'.calls.length = b.calls.length
  calls : ∀ (n : Nat) (u : Call), b.calls[n]? = some u → ∃ u' : Call, b'.calls[n]? = some u' ∧
    u'.program = u.program ∧ u'.isEnded = u.isEnded ∧
    (u.status = .running → u'.status = .running) ∧
    ∀ other, (n = k → other ≠ child) → u.Gathers other → u'.Gathers other

namespace Counted

variable {child : Nat}

theorem refl (b : Bench) : Counted b k child b :=
  ⟨rfl, rfl, rfl, fun _ u hu => ⟨u, hu, rfl, rfl, fun h => h, fun _ _ h => h⟩⟩

theorem post (h : Counted b k child b') (name : LoopName) (cb : Callback) :
    Counted b k child (b'.post name cb) where
  running := (running_setLoop _ _ _).trans h.running
  destinations := (destinations_setLoop _ _ _).trans h.destinations
  length := (congrArg List.length (calls_setLoop _ _ _)).trans h.length
  calls n u hu := by
    rw [Bench.post, calls_setLoop]
    exact h.calls n u hu

theorem setCall (hc : b.calls[k]? = some c) {left : List Nat} {r : Bool}
    (waits : c.status = .waiting (.calls left r)) {s : Status} (live : s ≠ .ended)
    (keeps : ∀ other ∈ left.filter (· ≠ child), Call.Gathers { c with status := s } other) :
    Counted b k child (b.setCall k { c with status := s }) where
  running := rfl
  destinations := rfl
  length := List.length_set
  calls n u hu := by
    refine ⟨_, call_kept hu _, ?_⟩
    split
    · next own =>
      subst own
      cases hu.symm.trans hc
      refine ⟨rfl, ?_, by simp [waits], fun other differs gathers => ?_⟩
      · exact (Call.live_of_status rfl live).trans (Call.live_of_status waits (by simp)).symm
      · obtain ⟨left', r', waits', hm⟩ := gathers
        cases waits.symm.trans waits'
        exact keeps other (List.mem_filter.2 ⟨hm, by simpa using differs rfl⟩)
    · exact ⟨rfl, rfl, fun h => h, fun _ _ h => h⟩

end Counted

theorem counted (b : Bench) (k child : Nat) : Counted b k child (b.countGathered k child) := by
  unfold countGathered
  split
  · exact .refl b
  · next c hc =>
    split
    · next left r waits =>
      dsimp only
      split
      · next last =>
        refine (Counted.setCall hc waits (by simp) fun other hm => ?_).post _ _
        rw [List.isEmpty_iff.1 last] at hm
        cases hm
      · exact .setCall hc waits (by simp) fun other hm => ⟨_, r, rfl, hm⟩
    · exact .refl b

theorem length_gather (k : Nat) (loop : LoopName) (b : Bench) (child : Nat) :
    (gather k loop b child).calls.length = b.calls.length := by
  unfold gather
  split
  · exact congrArg List.length (calls_setLoop _ _ _)
  · exact List.length_modify _ _ _

theorem not_new (length : b'.calls.length = b.calls.length) (hc' : b'.calls[n]? = some c') :
    ∃ c : Call, b.calls[n]? = some c := by
  have known := (List.getElem?_eq_some_iff.1 hc').1
  rw [length] at known
  exact ⟨_, List.getElem?_eq_getElem known⟩

theorem Fragment.lasts (f : Fragment b b') : b.Lasts b' := by
  cases f with
  | accrues accrues => exact accrues.lasts
  | takes popped plain => exact .of_calls (calls_setLoop _ _ _)
  | forgets popped => exact .of_calls (by rw [calls_forget, calls_setLoop])
  | @counts name k id l popped =>
    intro n u hu
    obtain ⟨u', hu', program, ended, -⟩ :=
      (counted (b.setLoop name l) k id).calls n u (by rwa [calls_setLoop])
    exact ⟨u', hu', by rw [program], fun ends => ended.trans ends⟩
  | gathers hc hu together =>
    intro n u hn
    obtain ⟨watchers, hn'⟩ := call_gather hn _ _ _
    exact ⟨_, hn', rfl, fun ends => ends⟩
  | @resolves k c progress hc live alone job drains =>
    have after := resolved hc progress
    intro n u hn
    by_cases own : n = k
    · subst own
      cases hc.symm.trans hn
      obtain ⟨u', hu', -, -, program⟩ := after.own
      refine ⟨u', hu', by rw [program, job.sendsTo?], fun ends => ?_⟩
      rw [live] at ends
      cases ends
    · exact ⟨u, (after.others n own).trans hn, rfl, fun ends => ends⟩
  | closes name => exact .of_calls (calls_setLoop _ _ _)

theorem Fragment.lively (f : Fragment b b') (lively : b.Lively) : b'.Lively := by
  have kept : ∀ {b' : Bench}, b'.running = b.running → b'.calls = b.calls → b'.Lively := by
    intro b' running calls id hr
    rw [calls]
    exact lively id (running ▸ hr)
  cases f with
  | accrues accrues =>
    intro id hr
    obtain ⟨c, hc, status⟩ := lively id (accrues.running ▸ hr)
    obtain ⟨c', hc', lingers⟩ := accrues.kept id c hc
    exact ⟨c', hc', lingers.running status⟩
  | takes popped plain => exact kept (running_setLoop _ _ _) (calls_setLoop _ _ _)
  | @forgets name i n l popped =>
    refine kept ?_ (by rw [calls_forget, calls_setLoop])
    rw [← running_setLoop b name l]
    unfold forget
    split <;> rfl
  | @counts name k n l popped =>
    have counts := counted (b.setLoop name l) k n
    intro id hr
    rw [counts.running, running_setLoop] at hr
    obtain ⟨c, hc, status⟩ := lively id hr
    obtain ⟨c', hc', -, -, runs, -⟩ := counts.calls id c (by rwa [calls_setLoop])
    exact ⟨c', hc', runs status⟩
  | @gathers k child c u hc hu together =>
    intro id hr
    have running : (gather k c.loop b child).running = b.running := by
      rw [gather_eq hu]
      split
      · exact running_setLoop _ _ _
      · rfl
    obtain ⟨v, hv, status⟩ := lively id (running ▸ hr)
    obtain ⟨watchers, hv'⟩ := call_gather hv k c.loop child
    exact ⟨_, hv', status⟩
  | @resolves k c progress hc live alone job drains =>
    have after := resolved hc progress
    intro id hr
    rw [after.running] at hr
    split at hr
    · next goes =>
      cases hr
      obtain ⟨u', hu', -, status, -⟩ := after.own
      refine ⟨u', hu', status.trans ?_⟩
      cases progress with
      | go p => rfl
      | yield _ | sleep _ _ | wait _ _ | finish _ => cases goes
    · cases hr
  | closes name => exact kept (running_setLoop _ _ _) (calls_setLoop _ _ _)

/-! What a drain waits for -/

namespace Lasts

theorem sends (h : b.Lasts b') (sends : b.SendsTo i id) : b'.SendsTo i id := by
  obtain ⟨c, hc, aim⟩ := sends
  obtain ⟨c', hc', aim', -⟩ := h id c hc
  exact ⟨c', hc', aim'.trans aim⟩

theorem sends_before (h : b.Lasts b') (called : b.calls[id]? ≠ none) (sends : b'.SendsTo i id) :
    b.SendsTo i id := by
  obtain ⟨c, hc⟩ := Option.ne_none_iff_exists'.1 called
  obtain ⟨c', hc', aim⟩ := sends
  obtain ⟨c₂, hc₂, aim', -⟩ := h id c hc
  cases hc'.symm.trans hc₂
  exact ⟨c, hc, aim'.symm.trans aim⟩

end Lasts

theorem called_of_sends (sends : b.SendsTo i id) : b.calls[id]? ≠ none := by
  obtain ⟨c, hc, -⟩ := sends
  simp [hc]

/-- If the call is a drain that has begun to wait, it waits for the send, unless that has ended
and is forgotten. -/
def Reckons (b : Bench) (k i id : Nat) : Prop :=
  ∀ u : Call, b.calls[k]? = some u → u.program = .drainSends i .gathered →
    u.Gathers id ∨ b.Ended id ∧ ¬ b.Lists i id

theorem Reckons.of_not_gathering (h : ¬ b.Gathering i k) : b.Reckons k i id :=
  fun u hu drains => absurd ⟨u, hu, drains⟩ h

/-- The drain is still what it was, and nobody has come to the list. -/
theorem Reckons.keep (h : b.Reckons k i id) (lasts : b.Lasts b')
    (lists : b'.Lists i id → b.Lists i id)
    (same : ∀ u', b'.calls[k]? = some u' → u'.program = .drainSends i .gathered →
      ∃ u, b.calls[k]? = some u ∧ u.program = .drainSends i .gathered ∧
        (u.Gathers id → u'.Gathers id)) : b'.Reckons k i id := by
  intro u' hu' drains
  obtain ⟨u, hu, drains, gathers⟩ := same u' hu' drains
  exact (h u hu drains).imp gathers fun gone => ⟨lasts.ended gone.1, mt lists gone.2⟩

theorem Reckons.of_calls (h : b.Reckons k i id) (calls : b'.calls = b.calls)
    (lists : b'.Lists i id → b.Lists i id) : b'.Reckons k i id :=
  h.keep (.of_calls calls) lists fun u' hu' drains =>
    ⟨u', calls ▸ hu', drains, fun gathers => gathers⟩

/-- A drain counts a send only when the destination has forgotten it. -/
theorem reckons_counts (booked : Booked b) {l : EventLoop Callback} {child : Nat}
    (popped : (b.loop name).pop? = some (.gathered n child, l)) (h : b.Reckons k i id) :
    ((b.setLoop name l).countGathered n child).Reckons k i id := by
  have counts := counted (b.setLoop name l) n child
  have lists : ((b.setLoop name l).countGathered n child).Lists i id → b.Lists i id := by
    rw [Lists, counts.destinations, destinations_setLoop]
    exact fun listed => listed
  have lasts := (Fragment.counts popped).lasts
  intro u' hu' drains
  obtain ⟨u, hu⟩ := not_new counts.length hu'
  obtain ⟨u₂, hu₂, program, -, -, gathers⟩ := counts.calls k u hu
  cases hu'.symm.trans hu₂
  rw [calls_setLoop] at hu
  by_cases own : k = n ∧ id = child
  · -- Were the send on the list, the word to forget it would stand before this one.
    obtain ⟨rfl, rfl⟩ := own
    obtain ⟨ended, first⟩ := booked.order name [] (.gathered k id) (by
      rw [(ready_of_pop popped).1]
      exact (List.cons_prefix_cons).2 ⟨rfl, List.nil_prefix⟩)
    exact .inr ⟨lasts.ended ended, fun listed => List.not_mem_nil (first i (lists listed))⟩
  · exact (h u hu (program ▸ drains)).imp (gathers id fun same differs => own ⟨same, differs⟩)
      fun gone => ⟨lasts.ended gone.1, mt lists gone.2⟩

theorem reckons_resolve (booked : Booked b) (sends : b.SendsTo i id) (hc : b.calls[n]? = some c)
    (live : c.isEnded = false) (alone : ∀ child, ¬ c.Gathers child) {progress : Progress}
    (job : progress.AtJob c.program)
    (drains : ∀ i, progress.program? = some (.drainSends i .gathered) →
      c.program = .drainSends i .gathered ∨ ∃ left r,
        progress.status = .waiting (.calls left r) ∧ ∀ id, b.Lists i id → id ∈ left)
    (h : b.Reckons k i id) : (b.resolve n progress).Reckons k i id := by
  have after := resolved hc progress
  have lasts := (Fragment.resolves hc live alone job drains).lasts
  have lists : (b.resolve n progress).Lists i id → b.Lists i id := by
    rw [Lists, after.destinations]
    exact fun listed => listed
  by_cases own : k = n
  · subst own
    intro u' hu' gathering
    obtain ⟨-, status, program⟩ := after.call hu'
    -- A drain that waited before gathers nobody any more.
    have still : c.program = .drainSends i .gathered → b.Ended id ∧ ¬ b.Lists i id :=
      fun same => (h c hc same).resolve_left (alone id)
    have gone : b.Ended id ∧ ¬ b.Lists i id → (b.resolve k progress).Ended id ∧
        ¬ (b.resolve k progress).Lists i id := fun gone => ⟨lasts.ended gone.1, mt lists gone.2⟩
    rw [program] at gathering
    cases leads : progress.program? with
    | none =>
      rw [leads] at gathering
      exact .inr (gone (still gathering))
    | some q =>
      rw [leads] at gathering
      rcases drains i (gathering ▸ leads) with same | ⟨left, r, waits, all⟩
      · exact .inr (gone (still same))
      · by_cases listed : b.Lists i id
        · exact .inl ⟨left, r, status.trans waits, all id listed⟩
        · exact .inr (gone ⟨(booked.listed i id sends).resolve_right listed, listed⟩)
  · refine h.keep lasts lists fun u' hu' gathering => ?_
    exact ⟨u', (after.others k own).symm.trans hu', gathering, fun gathers => gathers⟩

theorem Fragment.reckons (f : Fragment b b') (booked : Booked b) (sends : b.SendsTo i id)
    (h : b.Reckons k i id) : b'.Reckons k i id := by
  cases f with
  | accrues accrues =>
    refine h.keep accrues.lasts (fun listed => ?_) fun u' hu' drains => ?_
    · exact (accrues.lists_before listed).resolve_right fun sent => called_of_sends sends sent.1
    · cases hu : b.calls[k]? with
      | none =>
        have begins := (accrues.begun k u' hu' hu).2
        rw [drains] at begins
        cases begins
      | some u =>
        obtain ⟨u₂, hu₂, lingers⟩ := accrues.kept k u hu
        cases hu'.symm.trans hu₂
        exact ⟨u, rfl, lingers.program ▸ drains, (lingers.gathers id).2⟩
  | takes popped plain =>
    refine h.of_calls (calls_setLoop _ _ _) fun listed => ?_
    rwa [Lists, destinations_setLoop] at listed
  | forgets popped =>
    refine h.of_calls (by rw [calls_forget, calls_setLoop]) fun listed => ?_
    have listed := (lists_forget.1 listed).1
    rwa [Lists, destinations_setLoop] at listed
  | counts popped => exact reckons_counts booked popped h
  | @gathers n child c u hc hu together =>
    have lasts := (Fragment.gathers hc hu together).lasts
    refine h.keep lasts (fun listed => ?_) fun u' hu' drains => ?_
    · rwa [Lists, destinations_gather] at listed
    · obtain ⟨v, hv⟩ := not_new (length_gather _ _ _ _) hu'
      obtain ⟨watchers, hv'⟩ := call_gather hv n c.loop child
      cases hu'.symm.trans hv'
      exact ⟨v, hv, drains, fun gathers => gathers⟩
  | resolves hc live alone job drains =>
    exact reckons_resolve booked sends hc live alone job drains h
  | closes name =>
    refine h.of_calls (calls_setLoop _ _ _) fun listed => ?_
    rwa [Lists, closeLoop, destinations_setLoop] at listed

/-! Over a run -/

structure Succeeds (b b' : Bench) : Prop where
  booked : Booked b'
  lively : b'.Lively
  lasts : b.Lasts b'
  reckons : ∀ k i id, b.SendsTo i id → b.Reckons k i id → b'.Reckons k i id

theorem Succeeds.refl (booked : Booked b) (lively : b.Lively) : Succeeds b b :=
  ⟨booked, lively, .of_calls rfl, fun _ _ _ _ h => h⟩

theorem Succeeds.trans {b'' : Bench} (h : Succeeds b b') (h' : Succeeds b' b'') :
    Succeeds b b'' where
  booked := h'.booked
  lively := h'.lively
  lasts := h.lasts.trans h'.lasts
  reckons k i id sends reckons :=
    h'.reckons k i id (h.lasts.sends sends) (h.reckons k i id sends reckons)

theorem Fragment.succeeds (f : Fragment b b') (booked : Booked b) (lively : b.Lively) :
    Succeeds b b' :=
  ⟨f.booked booked, f.lively lively, f.lasts, fun _ _ _ sends h => f.reckons booked sends h⟩

theorem succeeds_fragments (fragments : Fragments b b') (booked : Booked b) (lively : b.Lively) :
    Succeeds b b' := by
  induction fragments with
  | refl => exact .refl booked lively
  | tail _ f ih => exact ih.trans (f.succeeds ih.booked ih.lively)

theorem Stride.succeeds (h : Stride b b') (booked : Booked b) (lively : b.Lively) :
    Succeeds b b' :=
  succeeds_fragments (h.fragments lively fun _ _ => booked.called) booked lively

theorem succeeds_strides (run : Strides b b') (booked : Booked b) (lively : b.Lively) :
    Succeeds b b' := by
  induction run with
  | refl => exact .refl booked lively
  | tail _ h ih => exact ih.trans (h.succeeds ih.booked ih.lively)

theorem booked_start {s : Scenario} (idle : s.Idle) : Booked s.start where
  sorted i d hd := by
    rw [idle d (List.mem_of_getElem? hd)]
    exact .nil
  announced i id listed := by
    obtain ⟨d, hd, hm⟩ := listed
    rw [idle d (List.mem_of_getElem? hd)] at hm
    cases hm
  listed i id sends := by
    obtain ⟨c, hc, -⟩ := sends
    cases hc
  order name pre cb front := by
    cases name <;> simpa [Scenario.start, loop] using front.length_le

theorem lively_start (s : Scenario) : s.start.Lively := fun _ hr => by cases hr

/-! What is pending -/

/-- The sends to a destination that have not ended, in the order of submission. -/
def unfinished (b : Bench) (i : Nat) : List Nat :=
  (List.range b.calls.length).filter fun id =>
    (b.calls[id]?).any fun c => decide (c.program.sendsTo? = some i) && !c.isEnded

theorem mem_unfinished : id ∈ b.unfinished i ↔ b.SendsTo i id ∧ ¬ b.Ended id := by
  rw [unfinished, List.mem_filter, List.mem_range]
  cases hc : b.calls[id]? with
  | none => simp [SendsTo, hc]
  | some c =>
    have known := (List.getElem?_eq_some_iff.1 hc).1
    rw [ended_iff hc]
    simp only [SendsTo, hc, known, true_and, Option.any_some, Option.some.injEq, exists_eq_left',
      Bool.and_eq_true, decide_eq_true_eq, Bool.not_eq_true', Bool.not_eq_true]

def Resting (b : Bench) (i : Nat) : Prop :=
  ∀ (id : Nat) (c : Call), b.calls[id]? = some c → c.program.sendsTo? = some i →
    (b.loop c.loop).closed = false ∧ (b.loop c.loop).ready = []

theorem Booked.pending_eq (h : Booked b) (resting : b.Resting i) {d : Destination}
    (hd : b.destinations[i]? = some d) : d.pending = b.unfinished i := by
  refine (h.sorted i d hd).eq_of_mem_iff (List.pairwise_lt_range.filter _) fun {id} => ?_
  rw [mem_unfinished]
  constructor
  · intro hm
    obtain ⟨c, hc, aim, -, gone⟩ := h.announced i id ⟨d, hd, hm⟩
    refine ⟨⟨c, hc, aim⟩, fun ended => ?_⟩
    obtain ⟨opened, nothing⟩ := resting id c hc aim
    rcases gone ((ended_iff hc).1 ended) with shut | ready
    · rw [opened] at shut
      cases shut
    · rw [nothing] at ready
      cases ready
  · rintro ⟨sends, live⟩
    obtain ⟨u, hu, hm⟩ := (h.listed i id sends).resolve_left live
    cases hd.symm.trans hu
    exact hm

/-- When a drain returns, every send that it has reckoned with has ended and is off the list. -/
theorem over_of_returns (booked : Booked b) (lively : b.Lively) (returns : b.Returns i k)
    (sends : b.SendsTo i id) (reckons : b.Reckons k i id) : b.Ended id ∧ ¬ b.Lists i id := by
  obtain ⟨c, point, v, running, hc, drains, returns⟩ := returns
  cases point with
  | astray => cases drains ▸ returns
  | start =>
    rw [drains] at returns
    have off : ¬ b.Lists i id := not_lists_of_returns returns
    exact ⟨(booked.listed i id sends).resolve_right off, off⟩
  | gathered =>
    obtain ⟨u, hu, status⟩ := lively k running
    cases hc.symm.trans hu
    exact (reckons c hc drains).resolve_left (not_gathers status (by simp) id)

/-! A run in which a send swallows its cancellation. -/

theorem strides_of_moves (moves : Moves b b') : Strides b b' := by
  induction moves with
  | refl => exact .refl
  | tail _ m ih => exact ih.tail (.moves m)

def contested : Bench :=
  ((run 7 (sending [{ hangs := true }, { hangs := true }])).start .main (some "drain")
    (.drainSends 0 .start) []).start .main (some "late") (.submit 0 [.nat 3] "late") []

theorem moves_contested : Moves (sink [{ hangs := true }, { hangs := true }]).start contested := by
  have drains : (run 7 (sending [{ hangs := true }, { hangs := true }])).programOf "drain"
      (.drain "sink") = .ok (.drainSends 0 .start) := rfl
  have submits : ((run 7 (sending [{ hangs := true }, { hangs := true }])).start .main
      (some "drain") (.drainSends 0 .start) []).programOf "late" (.submit "sink" [.nat 3]) =
      .ok (.submit 0 [.nat 3] "late") := rfl
  exact (((moves_sending _).trans (moves_run _ 7)).tail (.start .main drains)).tail
    (.start .main submits)

def defiant : Bench :=
  ((run 4 contested).setLoop .main { ready := [.resume 4] }).resolve 1 (.yield (stubborn {}))

theorem strides_defiant : Strides contested defiant := by
  obtain ⟨c, hc, cancelled, sends⟩ : ∃ c : Call, (run 4 contested).calls[1]? = some c ∧
      c.status = .queued true ∧ c.program = stubborn { hangs := true } := ⟨_, rfl, rfl, rfl⟩
  refine (strides_of_moves (moves_run contested 4)).tail ?_
  exact .swallows (by rfl) (by rfl) hc cancelled sends (by simp)
    (.yields ⟨{}, .conclude, by simp, rfl⟩)

def outlasted : Bench := run 10 defiant

/-- **Drains.** Whatever the sends of a destination do, whoever submits and cancels, and however
many drains there are: where nothing is ready, the sends that are pending are exactly those that
have not ended. When a drain returns, every send has ended that there was before the drain came
to wait, and whatever is pending was submitted later. -/
theorem drains_are_complete {s : Scenario} (idle : s.Idle) (run : Strides s.start b₀)
    (later : Strides b₀ b) {d : Destination} (hd : b.destinations[i]? = some d) :
    (b.Resting i → d.pending = b.unfinished i) ∧
      ∀ k, b.Returns i k → ¬ b₀.Gathering i k →
        (∀ id, b₀.SendsTo i id → b.Ended id) ∧ ∀ id ∈ d.pending, b₀.calls[id]? = none := by
  have first := succeeds_strides run (booked_start idle) (lively_start s)
  have after := succeeds_strides later first.booked first.lively
  refine ⟨fun resting => after.booked.pending_eq resting hd, fun k returns waits => ?_⟩
  have gone : ∀ id, b₀.SendsTo i id → b.Ended id ∧ ¬ b.Lists i id := fun id sends =>
    over_of_returns after.booked after.lively returns (after.lasts.sends sends)
      (after.reckons k i id sends (.of_not_gathering waits))
  refine ⟨fun id sends => (gone id sends).1, fun id hm => ?_⟩
  by_contra called
  obtain ⟨c, hc, aim, -⟩ := after.booked.announced i id ⟨d, hd, hm⟩
  exact (gone id (after.lasts.sends_before called ⟨c, hc, aim⟩)).2 ⟨d, hd, hm⟩

theorem drains_are_complete_outlasted : outlasted.Returns 0 2 ∧ contested.SendsTo 0 1 ∧
    outlasted.Ended 1 ∧ ∃ d : Destination, outlasted.destinations[0]? = some d ∧
      d.pending = [4] ∧ d.pending = outlasted.unfinished 0 ∧ contested.calls[4]? = none := by
  have returns : outlasted.Returns 0 2 := ⟨_, .gathered, .null, rfl, rfl, rfl, rfl⟩
  have fresh : ¬ contested.Gathering 0 2 := by
    rintro ⟨drain, hk, drains⟩
    cases hk
    cases drains
  have sent : contested.SendsTo 0 1 := ⟨_, rfl, rfl⟩
  have resting : outlasted.Resting 0 := by
    have loops : outlasted.calls.map (·.loop) = [.main, .main, .main, .main, .main] := rfl
    intro id c hc _
    have home : c.loop ∈ outlasted.calls.map (·.loop) :=
      List.mem_map.2 ⟨c, List.mem_of_getElem? hc, rfl⟩
    have main : c.loop = .main := by simpa [loops] using home
    rw [main]
    exact ⟨rfl, rfl⟩
  obtain ⟨d, hd, pending⟩ : ∃ d : Destination, outlasted.destinations[0]? = some d ∧
      d.pending = [4] := ⟨_, rfl, rfl⟩
  obtain ⟨atRest, complete⟩ := drains_are_complete (idle_sink _) (strides_of_moves moves_contested)
    (strides_defiant.trans (strides_of_moves (moves_run _ 10))) hd
  obtain ⟨ended, later⟩ := complete 2 returns fresh
  exact ⟨returns, sent, ended 1 sent, d, hd, pending, atRest resting,
    later 4 (by simp [pending])⟩

end Bench
end BatchWriter
