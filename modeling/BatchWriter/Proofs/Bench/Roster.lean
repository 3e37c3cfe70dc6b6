import BatchWriter.Proofs.Bench.Stride

/-!
# Who is on the lists

A send is on its destination's list from when it is started until the destination was told of its
end. The destination watches the send before anybody gathers it, so on the ready queue the word
that the send may be forgotten stands before the word that it was gathered.
-/

set_option autoImplicit false

namespace BatchWriter

/-- A callback is one of those in front, or stands behind them all. -/
theorem prefix_of_append {α : Type} {pre l more : List α} {x : α} (h : pre ++ [x] <+: l ++ more) :
    pre ++ [x] <+: l ∨ ∃ s, pre = l ++ s ∧ s ++ [x] <+: more := by
  rcases Nat.lt_or_ge pre.length l.length with shorter | longer
  · refine .inl (List.prefix_of_prefix_length_le h (List.prefix_append l more) ?_)
    rw [List.length_append, List.length_singleton]
    exact shorter
  · have before : pre <+: l ++ more := (List.prefix_append pre [x]).trans h
    obtain ⟨s, rfl⟩ := List.prefix_of_prefix_length_le (List.prefix_append l more) before longer
    rw [List.append_assoc, List.prefix_append_right_inj] at h
    exact .inr ⟨s, rfl, h⟩

structure Call.Widens (c c' : Call) : Prop where
  loop : c'.loop = c.loop
  aim : c'.program.sendsTo? = c.program.sendsTo?
  ended : c'.isEnded = c.isEnded
  watchers : ∃ more, c'.watchers = c.watchers ++ more

namespace Bench

/-- The destination is told of the send's end: before anybody else when the send ends, or, once
it has ended, by a callback on its loop. -/
def Announced (b : Bench) (i id : Nat) : Prop :=
  ∃ c : Call, b.calls[id]? = some c ∧ c.program.sendsTo? = some i ∧
    (c.isEnded = false → ∃ rest, c.watchers = .forget i :: rest) ∧
    (c.isEnded = true →
      (b.loop c.loop).closed = true ∨ .forget i id ∈ (b.loop c.loop).ready)

/-- What is told of an end is so, and whoever gathers a send is told after the destination. -/
def Heralded (b : Bench) (pre : List Callback) : Callback → Prop
  | .forget _ id => b.Ended id
  | .gathered _ id => b.Ended id ∧ ∀ i, b.Lists i id → .forget i id ∈ pre
  | _ => True

/-- The lists of sends are in order. -/
structure Booked (b : Bench) : Prop where
  sorted : ∀ (i : Nat) (d : Destination), b.destinations[i]? = some d →
    d.pending.Pairwise (· < ·)
  announced : ∀ i id, b.Lists i id → b.Announced i id
  listed : ∀ i id, b.SendsTo i id → b.Ended id ∨ b.Lists i id
  order : ∀ (name : LoopName) (pre : List Callback) (cb : Callback),
    pre ++ [cb] <+: (b.loop name).ready → b.Heralded pre cb

def Lasts (b b' : Bench) : Prop :=
  ∀ (n : Nat) (c : Call), b.calls[n]? = some c → ∃ c' : Call, b'.calls[n]? = some c' ∧
    c'.program.sendsTo? = c.program.sendsTo? ∧ (c.isEnded = true → c'.isEnded = true)

variable {b b' b'' : Bench} {id i k n : Nat} {name : LoopName} {c c' : Call}

namespace Lasts

theorem of_calls (calls : b'.calls = b.calls) : b.Lasts b' :=
  fun _ c hc => ⟨c, calls ▸ hc, rfl, fun h => h⟩

theorem trans (h : b.Lasts b') (h' : b'.Lasts b'') : b.Lasts b'' := by
  intro n c hc
  obtain ⟨c', hc', aim, ended⟩ := h n c hc
  obtain ⟨c'', hc'', aim', ended'⟩ := h' n c' hc'
  exact ⟨c'', hc'', aim'.trans aim, ended' ∘ ended⟩

theorem ended (h : b.Lasts b') (ended : b.Ended n) : b'.Ended n := by
  obtain ⟨c, hc, ends⟩ := ended
  obtain ⟨c', hc', -, ended⟩ := h n c hc
  exact ⟨c', hc', ended ends⟩

theorem heralded (h : b.Lasts b')
    (lists : ∀ i n, b.calls[n]? ≠ none → b'.Lists i n → b.Lists i n) {pre : List Callback}
    {cb : Callback} (heralded : b.Heralded pre cb) : b'.Heralded pre cb := by
  cases cb with
  | forget i n => exact h.ended heralded
  | gathered k n =>
    obtain ⟨ended, first⟩ := heralded
    refine ⟨h.ended ended, fun i listed => first i (lists i n ?_ listed)⟩
    obtain ⟨c, hc, -⟩ := ended
    simp [hc]
  | _ => trivial

end Lasts

namespace Booked

theorem called (h : Booked b) (listed : b.Lists i id) : b.calls[id]? ≠ none := by
  obtain ⟨c, hc, -⟩ := h.announced i id listed
  simp [hc]

theorem of_same (h : Booked b) (calls : b'.calls = b.calls) (main : b'.main = b.main)
    (alt : b'.alt = b.alt) (destinations : b'.destinations = b.destinations) : Booked b' := by
  have loops : b'.loop = b.loop := by
    funext name
    cases name with
    | main => exact main
    | alt => exact alt
  obtain ⟨sorted, announced, listed, order⟩ := h
  refine ⟨?_, ?_, ?_, ?_⟩
  · rwa [destinations]
  · simp only [Announced, Lists, calls, loops, destinations]
    exact announced
  · simp only [SendsTo, Ended, Lists, calls, destinations]
    exact listed
  · intro name pre cb front
    rw [loops] at front
    refine (Lasts.of_calls calls).heralded (fun i n _ listed => ?_) (order name pre cb front)
    rwa [Lists, destinations] at listed

end Booked

/-! What only accrues -/

namespace Accrues

/-- Whoever is on a list was there before, or has just been sent. -/
theorem lists_before (h : Accrues b b') (listed : b'.Lists i id) :
    b.Lists i id ∨ b.SentAfresh b' i id := by
  obtain ⟨d', hd', hm⟩ := listed
  have known := (List.getElem?_eq_some_iff.1 hd').1
  rw [h.destinations] at known
  obtain ⟨d₂, more, hd₂, same, -, sent⟩ := h.lists i _ (List.getElem?_eq_getElem known)
  cases hd'.symm.trans hd₂
  rw [same] at hm
  exact (List.mem_append.1 hm).imp (fun hm => ⟨_, List.getElem?_eq_getElem known, hm⟩) (sent id)

theorem lists_after (h : Accrues b b') (listed : b.Lists i id) : b'.Lists i id := by
  obtain ⟨d, hd, hm⟩ := listed
  obtain ⟨d', more, hd', same, -⟩ := h.lists i d hd
  exact ⟨d', hd', same ▸ List.mem_append_left _ hm⟩

theorem lasts (h : Accrues b b') : b.Lasts b' := by
  intro n c hc
  obtain ⟨c', hc', lingers⟩ := h.kept n c hc
  exact ⟨c', hc', by rw [lingers.program], fun ends => lingers.ended.trans ends⟩

theorem announced (h : Accrues b b') (announced : b.Announced i id) : b'.Announced i id := by
  obtain ⟨c, hc, aim, live, gone⟩ := announced
  obtain ⟨c', hc', lingers⟩ := h.kept id c hc
  refine ⟨c', hc', lingers.program ▸ aim, fun ends => ?_, fun ends => ?_⟩
  · rw [lingers.watchers]
    exact live (lingers.ended ▸ ends)
  · rw [lingers.loop, h.closed]
    refine (gone (lingers.ended ▸ ends)).imp_right fun hm => ?_
    obtain ⟨more, same, -⟩ := h.ready c.loop
    exact same ▸ List.mem_append_left _ hm

theorem booked (h : Accrues b b') (booked : Booked b) : Booked b' where
  sorted i d' hd' := by
    have known := (List.getElem?_eq_some_iff.1 hd').1
    rw [h.destinations] at known
    have hd := List.getElem?_eq_getElem known
    obtain ⟨d₂, more, hd₂, same, sorted, sent⟩ := h.lists i _ hd
    cases hd'.symm.trans hd₂
    rw [same]
    refine List.pairwise_append.2 ⟨booked.sorted i _ hd, sorted, fun x hx y hy => ?_⟩
    obtain ⟨c, hc, -⟩ := booked.announced i x ⟨_, hd, hx⟩
    have old := (List.getElem?_eq_some_iff.1 hc).1
    have new := List.getElem?_eq_none_iff.1 (sent y hy).1
    exact Nat.lt_of_lt_of_le old new
  announced i id listed := by
    rcases h.lists_before listed with listed | ⟨none, c', hc', aim, watchers⟩
    · exact h.announced (booked.announced i id listed)
    · refine ⟨c', hc', aim, fun _ => ⟨[], watchers⟩, fun ends => ?_⟩
      rw [(h.begun id c' hc' none).1] at ends
      cases ends
  listed i id sends := by
    obtain ⟨c', hc', aim⟩ := sends
    cases hc : b.calls[id]? with
    | some c =>
      obtain ⟨c₂, hc₂, lingers⟩ := h.kept id c hc
      cases hc'.symm.trans hc₂
      exact (booked.listed i id ⟨c, hc, lingers.program ▸ aim⟩).imp h.lasts.ended h.lists_after
    | none =>
      refine .inr ?_
      have begins := (h.begun id c' hc' hc).2
      cases hp : c'.program with
      | send job point =>
        rw [hp] at begins aim
        exact Option.some.inj aim ▸ begins.2
      | _ =>
        rw [hp] at aim
        cases aim
  order name pre cb front := by
    obtain ⟨more, same, plain⟩ := h.ready name
    rw [same] at front
    rcases prefix_of_append front with front | ⟨s, -, front⟩
    · refine h.lasts.heralded (fun i n called listed => ?_) (booked.order name pre cb front)
      exact (h.lists_before listed).resolve_right fun sent => called sent.1
    · -- What is new tells of no end.
      have harmless := plain cb (front.subset (by simp))
      cases cb with
      | forget i id | gathered k id => exact harmless.elim
      | resume id | report i batch report => trivial

end Accrues

/-! Callbacks -/

/-- What stands on the queues once the first callback of a loop is off. -/
theorem order_pop (h : Booked b) {first : Callback} {l : EventLoop Callback}
    (popped : (b.loop name).pop? = some (first, l)) {other : LoopName} {pre : List Callback}
    {cb : Callback} (front : pre ++ [cb] <+: ((b.setLoop name l).loop other).ready) :
    b.Heralded pre cb ∨ b.Heralded (first :: pre) cb := by
  rw [loop_setLoop] at front
  split at front
  · next same =>
    subst same
    refine .inr (h.order other (first :: pre) cb ?_)
    rw [(ready_of_pop popped).1]
    exact (List.cons_prefix_cons).2 ⟨rfl, front⟩
  · exact .inl (h.order other pre cb front)

/-- Of the announcements none is lost but the one that is being made. -/
theorem announced_pop {first : Callback} {l : EventLoop Callback}
    (popped : (b.loop name).pop? = some (first, l)) (other : first ≠ .forget i id)
    (announced : b.Announced i id) : (b.setLoop name l).Announced i id := by
  obtain ⟨c, hc, aim, live, gone⟩ := announced
  refine ⟨c, by rw [calls_setLoop, hc], aim, live, fun ends => ?_⟩
  obtain ⟨ready, closed⟩ := ready_of_pop popped
  rw [loop_setLoop]
  split
  · next same =>
    refine (gone ends).imp (fun shut => by rw [closed, ← same, shut]) fun hm => ?_
    rw [same, ready] at hm
    exact (List.mem_cons.1 hm).resolve_left fun same => other same.symm
  · exact gone ends

theorem booked_takes (h : Booked b) {cb : Callback} {l : EventLoop Callback}
    (popped : (b.loop name).pop? = some (cb, l)) (other : ∀ i id, cb ≠ .forget i id) :
    Booked (b.setLoop name l) := by
  have lists : ∀ i n, (b.setLoop name l).Lists i n ↔ b.Lists i n := by
    intro i n
    rw [Lists, destinations_setLoop, Lists]
  have lasts : b.Lasts (b.setLoop name l) := .of_calls (calls_setLoop _ _ _)
  refine ⟨?_, fun i n listed => ?_, fun i n sends => ?_, fun loop pre x front => ?_⟩
  · rw [destinations_setLoop]
    exact h.sorted
  · exact announced_pop popped (other i n) (h.announced i n ((lists i n).1 listed))
  · rw [SendsTo, calls_setLoop] at sends
    exact (h.listed i n sends).imp lasts.ended (lists i n).2
  · refine lasts.heralded (fun i n _ listed => (lists i n).1 listed) ?_
    refine (order_pop h popped front).elim id fun heralded => ?_
    cases x with
    | gathered k n =>
      refine ⟨heralded.1, fun i listed => ?_⟩
      exact (List.mem_cons.1 (heralded.2 i listed)).resolve_left fun same => other i n same.symm
    | _ => exact heralded

theorem lists_forget {j : Nat} :
    (b.forget i id).Lists j n ↔ b.Lists j n ∧ ¬ (j = i ∧ n = id) := by
  unfold forget
  cases hd : b.destinations[i]? with
  | none =>
    refine ⟨fun listed => ⟨listed, ?_⟩, And.left⟩
    rintro ⟨rfl, -⟩
    obtain ⟨d, hd', -⟩ := listed
    rw [hd] at hd'
    cases hd'
  | some d =>
    have known := (List.getElem?_eq_some_iff.1 hd).1
    by_cases own : i = j
    · subst own
      simp only [Lists, setDestination, List.getElem?_set_self known, hd, Option.some.injEq,
        exists_eq_left', List.mem_filter]
      simp
    · have other : ¬ j = i := fun same => own same.symm
      simp only [Lists, setDestination, List.getElem?_set_ne own, other, false_and,
        not_false_eq_true, and_true]

theorem calls_forget : (b.forget i id).calls = b.calls := by
  unfold forget
  split <;> rfl

theorem loop_forget : (b.forget i id).loop = b.loop := by
  unfold forget
  split
  · rfl
  · funext name
    cases name <;> rfl

theorem sorted_forget (sorted : ∀ (j : Nat) (d : Destination), b.destinations[j]? = some d →
      d.pending.Pairwise (· < ·)) {j : Nat} {d : Destination}
    (hd : (b.forget i id).destinations[j]? = some d) : d.pending.Pairwise (· < ·) := by
  unfold forget at hd
  split at hd
  · exact sorted j d hd
  · next d₀ hd₀ =>
    rw [setDestination, List.getElem?_set] at hd
    split at hd
    · split at hd
      · cases hd
        exact (sorted i d₀ hd₀).filter _
      · cases hd
    · exact sorted j d hd

theorem booked_forgets (h : Booked b) {l : EventLoop Callback}
    (popped : (b.loop name).pop? = some (.forget i id, l)) :
    Booked ((b.setLoop name l).forget i id) := by
  have lists : ∀ j n, ((b.setLoop name l).forget i id).Lists j n ↔
      b.Lists j n ∧ ¬ (j = i ∧ n = id) := by
    intro j n
    rw [lists_forget, Lists, destinations_setLoop, Lists]
  have calls : ((b.setLoop name l).forget i id).calls = b.calls := by
    rw [calls_forget, calls_setLoop]
  have lasts : b.Lasts ((b.setLoop name l).forget i id) := .of_calls calls
  refine ⟨fun j d hd => ?_, fun j n listed => ?_, fun j n sends => ?_, fun loop pre cb front => ?_⟩
  · exact sorted_forget (by rw [destinations_setLoop]; exact h.sorted) hd
  · obtain ⟨listed, other⟩ := (lists j n).1 listed
    have another : Callback.forget i id ≠ .forget j n := fun same =>
      other (by cases same; exact ⟨rfl, rfl⟩)
    have kept := announced_pop popped another (h.announced j n listed)
    rwa [Announced, calls_forget, loop_forget]
  · rw [SendsTo, calls] at sends
    rcases h.listed j n sends with ended | listed
    · exact .inl (lasts.ended ended)
    · by_cases own : j = i ∧ n = id
      · obtain ⟨rfl, rfl⟩ := own
        have ended : b.Ended n := h.order name [] (.forget j n) (by
          rw [(ready_of_pop popped).1]
          exact (List.cons_prefix_cons).2 ⟨rfl, List.nil_prefix⟩)
        exact .inl (lasts.ended ended)
      · exact .inr ((lists j n).2 ⟨listed, own⟩)
  · rw [loop_forget] at front
    have fewer : ∀ j n, ((b.setLoop name l).forget i id).Lists j n → b.Lists j n :=
      fun j n listed => ((lists j n).1 listed).1
    rcases order_pop h popped front with heralded | heralded
    · exact lasts.heralded (fun j n _ => fewer j n) heralded
    · cases cb with
      | gathered k n =>
        refine ⟨lasts.ended heralded.1, fun j listed => ?_⟩
        obtain ⟨listed, other⟩ := (lists j n).1 listed
        refine (List.mem_cons.1 (heralded.2 j listed)).resolve_left fun same => other ?_
        cases same
        exact ⟨rfl, rfl⟩
      | forget j n => exact lasts.ended heralded
      | resume n | report j batch report => trivial

/-! Calls -/

theorem lasts_setCall (hc : b.calls[id]? = some c)
    (aim : c'.program.sendsTo? = c.program.sendsTo?)
    (ended : c.isEnded = true → c'.isEnded = true) : b.Lasts (b.setCall id c') := by
  intro n u hu
  refine ⟨_, call_kept hu c', ?_⟩
  split
  · next same =>
    subst same
    cases hc.symm.trans hu
    exact ⟨aim, ended⟩
  · exact ⟨rfl, fun h => h⟩

theorem sends_setCall (hc : b.calls[id]? = some c)
    (aim : c'.program.sendsTo? = c.program.sendsTo?) (sends : (b.setCall id c').SendsTo i n) :
    b.SendsTo i n := by
  obtain ⟨u, hu, aims⟩ := sends
  rcases call_setCall hu with ⟨rfl, rfl⟩ | ⟨-, hu⟩
  · exact ⟨c, hc, aim ▸ aims⟩
  · exact ⟨u, hu, aims⟩

theorem booked_setCall (h : Booked b) (hc : b.calls[id]? = some c) (widens : c.Widens c') :
    Booked (b.setCall id c') := by
  have lasts : b.Lasts (b.setCall id c') :=
    lasts_setCall hc widens.aim fun ends => widens.ended.trans ends
  refine ⟨h.sorted, fun j n listed => ?_, fun j n sends => ?_, fun loop pre cb front => ?_⟩
  · obtain ⟨u, hu, aim, live, gone⟩ := h.announced j n listed
    refine ⟨_, call_kept hu c', ?_⟩
    split
    · next same =>
      subst same
      cases hc.symm.trans hu
      refine ⟨widens.aim.trans aim, fun ends => ?_, fun ends => ?_⟩
      · obtain ⟨rest, first⟩ := live (widens.ended ▸ ends)
        obtain ⟨more, watchers⟩ := widens.watchers
        exact ⟨rest ++ more, by rw [watchers, first, List.cons_append]⟩
      · rw [widens.loop]
        exact gone (widens.ended ▸ ends)
    · exact ⟨aim, live, gone⟩
  · exact (h.listed j n (sends_setCall hc widens.aim sends)).imp_left lasts.ended
  · exact lasts.heralded (fun _ _ _ listed => listed) (h.order loop pre cb front)

theorem announced_post (announced : b.Announced i id) (name : LoopName) (cb : Callback) :
    (b.post name cb).Announced i id := by
  obtain ⟨c, hc, aim, live, gone⟩ := announced
  refine ⟨c, by rw [post, calls_setLoop, hc], aim, live, fun ends => ?_⟩
  rw [closed_post, mem_ready_post]
  exact (gone ends).imp_right .inl

/-- Whoever gathers a call that has ended is told of it behind all others. -/
theorem booked_gathered (h : Booked b) {u : Call} (hu : b.calls[id]? = some u)
    (together : u.loop = c.loop) (ended : u.isEnded = true) :
    Booked (b.post c.loop (.gathered k id)) := by
  have lists : ∀ i n, (b.post c.loop (.gathered k id)).Lists i n ↔ b.Lists i n := by
    intro i n
    rw [Lists, post, destinations_setLoop, Lists]
  have lasts : b.Lasts (b.post c.loop (.gathered k id)) := .of_calls (calls_setLoop _ _ _)
  refine ⟨?_, fun j n listed => ?_, fun j n sends => ?_, fun name pre cb front => ?_⟩
  · rw [post, destinations_setLoop]
    exact h.sorted
  · exact announced_post (h.announced j n ((lists j n).1 listed)) _ _
  · rw [SendsTo, post, calls_setLoop] at sends
    exact (h.listed j n sends).imp lasts.ended (lists j n).2
  · have old : pre ++ [cb] <+: (b.loop name).ready →
        (b.post c.loop (.gathered k id)).Heralded pre cb := fun front =>
      lasts.heralded (fun i n _ listed => (lists i n).1 listed) (h.order name pre cb front)
    rw [post, loop_setLoop] at front
    split at front
    · next same =>
      subst same
      unfold EventLoop.post at front
      split at front
      · exact old front
      · next opened =>
        rcases prefix_of_append front with front | ⟨s, rfl, behind⟩
        · exact old front
        · have last : s = [] ∧ cb = .gathered k id := by
            cases s with
            | nil => simpa using behind
            | cons x rest => simpa using behind.length_le
          obtain ⟨rfl, rfl⟩ := last
          refine ⟨lasts.ended ⟨u, hu, ended⟩, fun i listed => ?_⟩
          obtain ⟨v, hv, -, -, gone⟩ := h.announced i id ((lists i id).1 listed)
          cases hu.symm.trans hv
          rw [List.append_nil, ← together]
          exact (gone ended).resolve_left (together ▸ opened)
    · exact old front

theorem booked_gather (h : Booked b) {u : Call} (hu : b.calls[id]? = some u)
    (together : u.loop = c.loop) : Booked (gather k c.loop b id) := by
  rw [gather_eq hu]
  split
  · next ended => exact booked_gathered h hu together ended
  · exact booked_setCall h hu ⟨rfl, rfl, rfl, _, rfl⟩

theorem booked_countGathered (h : Booked b) (k id : Nat) : Booked (b.countGathered k id) := by
  unfold countGathered
  split
  · exact h
  · next c hc =>
    split
    · next left r waits =>
      have widens : ∀ s, s ≠ .ended → c.Widens { c with status := s } := fun s live =>
        ⟨rfl, rfl, (Call.live_of_status rfl live).trans
          (Call.live_of_status waits (by simp)).symm, [], by simp⟩
      dsimp only
      split
      · exact (Accrues.post _ _ (by trivial)).booked (booked_setCall h hc (widens _ (by simp)))
      · exact booked_setCall h hc (widens _ (by simp))
    · exact h

/-! A call that takes in its progress -/

/-- Those who watch a call are told in turn, on the call's loop. -/
theorem loop_watchers (watchers : List Watcher) (b : Bench) (name other : LoopName) (id : Nat) :
    ((watchers.foldl (fun b w => b.post name (w.callback id)) b).loop other).closed =
        (b.loop other).closed ∧
      ((watchers.foldl (fun b w => b.post name (w.callback id)) b).loop other).ready =
        (b.loop other).ready ++ if other = name ∧ (b.loop name).closed = false
          then watchers.map (Watcher.callback id) else [] := by
  induction watchers generalizing b with
  | nil => simp
  | cons w rest ih =>
    obtain ⟨closed, ready⟩ := ih (b.post name (w.callback id))
    rw [closed_post] at closed
    refine ⟨closed, ?_⟩
    rw [List.foldl_cons, ready, closed_post, post, loop_setLoop]
    by_cases same : other = name
    · subst same
      cases shut : (b.loop other).closed <;> simp [EventLoop.post, shut]
    · simp [same]

structure Finished (b : Bench) (id : Nat) (c : Call) (b' : Bench) : Prop where
  calls : b'.calls = b.calls.set id { c with status := .ended, watchers := [] }
  destinations : b'.destinations = b.destinations
  loops : ∀ name, (b'.loop name).closed = (b.loop name).closed ∧
    (b'.loop name).ready = (b.loop name).ready ++
      if name = c.loop ∧ (b.loop c.loop).closed = false
        then c.watchers.map (Watcher.callback id) else []

theorem finished (hc : b.calls[id]? = some c) (outcome : Except Fault Value) :
    Finished b id c (b.finish id outcome) := by
  have told : ∀ d : Bench, d.calls = b.calls.set id { c with status := .ended, watchers := [] } →
      d.destinations = b.destinations → d.loop = b.loop →
      Finished b id c (c.watchers.foldl (fun b w => b.post c.loop (w.callback id)) d) := by
    intro d calls destinations loops
    refine ⟨?_, ?_, fun name => ?_⟩
    · rw [posted_watchers (·.calls) fun _ _ _ => calls_setLoop _ _ _]
      exact calls
    · rw [posted_watchers (·.destinations) fun _ _ _ => destinations_setLoop _ _ _]
      exact destinations
    · rw [← loops]
      exact loop_watchers c.watchers d c.loop name id
  have same : ∀ d : Bench, d.main = b.main → d.alt = b.alt → d.loop = b.loop := by
    intro d main alt
    funext name
    cases name with
    | main => exact main
    | alt => exact alt
  unfold finish
  simp only [hc]
  refine told _ ?_ ?_ ?_
  · split <;> rfl
  · split <;> rfl
  · split <;> exact same _ rfl rfl

theorem Finished.booked (f : Finished b id c b') (h : Booked b) (hc : b.calls[id]? = some c)
    (live : c.isEnded = false) : Booked b' := by
  have calls : b'.calls = (b.setCall id { c with status := .ended, watchers := [] }).calls :=
    f.calls
  have own : b'.calls[id]? = some { c with status := .ended, watchers := [] } := by
    rw [calls]
    exact setCall_self hc _
  have ends : b.Lasts (b.setCall id { c with status := .ended, watchers := [] }) :=
    lasts_setCall hc rfl fun _ => rfl
  have lasts : b.Lasts b' := ends.trans (.of_calls calls)
  have lists : ∀ j n, b'.Lists j n ↔ b.Lists j n := by
    intro j n
    rw [Lists, f.destinations, Lists]
  refine ⟨?_, fun j n listed => ?_, fun j n sends => ?_, fun name pre cb front => ?_⟩
  · rw [f.destinations]
    exact h.sorted
  · obtain ⟨u, hu, aim, first, gone⟩ := h.announced j n ((lists j n).1 listed)
    obtain ⟨shut, ready⟩ := f.loops u.loop
    by_cases same : n = id
    · subst same
      cases hc.symm.trans hu
      refine ⟨_, own, aim, (fun ends => by cases ends), fun _ => ?_⟩
      obtain ⟨rest, first⟩ := first live
      dsimp only
      rw [shut, ready]
      cases closed : (b.loop c.loop).closed with
      | true => exact .inl rfl
      | false => exact .inr (by simp [first, Watcher.callback])
    · refine ⟨u, ?_, aim, first, fun ends => ?_⟩
      · rw [calls, setCall, List.getElem?_set_ne (Ne.symm same), hu]
      · rw [shut, ready]
        exact (gone ends).imp_right (List.mem_append_left _)
  · have sends : b.SendsTo j n := by
      rw [SendsTo, calls] at sends
      refine sends_setCall hc ?_ sends
      rfl
    exact (h.listed j n sends).imp lasts.ended (lists j n).2
  · rw [(f.loops name).2] at front
    rcases prefix_of_append front with front | ⟨s, rfl, behind⟩
    · exact lasts.heralded (fun j n _ listed => (lists j n).1 listed) (h.order name pre cb front)
    split at behind
    · -- The destination is the first of those who watch a send on its list.
      have hm := behind.subset (List.mem_append_right s (List.mem_singleton_self cb))
      obtain ⟨w, hw, rfl⟩ := List.mem_map.1 hm
      cases w with
      | forget j => exact ⟨_, own, rfl⟩
      | gather k =>
        refine ⟨⟨_, own, rfl⟩, fun j listed => List.mem_append_right _ ?_⟩
        obtain ⟨u, hu, -, first, -⟩ := h.announced j id ((lists j id).1 listed)
        cases hc.symm.trans hu
        obtain ⟨rest, first⟩ := first live
        rw [first, List.map_cons] at behind
        cases s with
        | nil => simp [Watcher.callback] at behind
        | cons x s =>
          rw [List.cons_append, List.cons_prefix_cons] at behind
          rw [behind.1]
          exact List.mem_cons_self
    · simpa using behind.length_le

theorem booked_resolve (h : Booked b) (hc : b.calls[id]? = some c) (live : c.isEnded = false)
    {progress : Progress} (job : progress.AtJob c.program) : Booked (b.resolve id progress) := by
  -- A call that does not end gets on and stays at its job.
  have gets : ∀ (q : Program) (s : Status), progress.program? = some q → s ≠ .ended →
      Booked (b.setCall id { c with program := q, status := s }) := by
    intro q s leads goes
    refine booked_setCall h hc ⟨rfl, ?_, ?_, [], by simp⟩
    · have same := job.sendsTo?
      rwa [leads] at same
    · exact (Call.live_of_status rfl goes).trans live.symm
  cases progress with
  | finish outcome => exact (finished hc outcome).booked h hc live
  | go q =>
    rw [resolve, modify_call hc]
    exact (gets q .running rfl (by simp)).of_same rfl rfl rfl rfl
  | yield q =>
    have put : Booked (setCall { b with running := none } id
        { c with program := q, status := .queued false }) :=
      (gets q (.queued false) rfl (by simp)).of_same rfl rfl rfl rfl
    simp only [resolve, hc]
    exact (Accrues.post _ _ (by trivial)).booked put
  | sleep delay q =>
    rw [resolve, modify_call hc]
    exact (gets q (.waiting .alarm) rfl (by simp)).of_same rfl rfl rfl rfl
  | wait on q =>
    rw [resolve, modify_call hc]
    exact (gets q (.waiting on) rfl (by simp)).of_same rfl rfl rfl rfl

/-- Who waits on a loop that is closed is told nothing any more. -/
theorem booked_closeLoop (h : Booked b) (name : LoopName) : Booked (b.closeLoop name) := by
  have lists : ∀ j n, (b.closeLoop name).Lists j n ↔ b.Lists j n := by
    intro j n
    rw [Lists, closeLoop, destinations_setLoop, Lists]
  have calls : (b.closeLoop name).calls = b.calls := calls_setLoop _ _ _
  have lasts : b.Lasts (b.closeLoop name) := .of_calls calls
  have loops : ∀ other, (b.closeLoop name).loop other =
      if other = name then (b.loop name).close else b.loop other := by
    intro other
    rw [closeLoop, loop_setLoop]
    cases other <;> rfl
  refine ⟨?_, fun j n listed => ?_, fun j n sends => ?_, fun other pre cb front => ?_⟩
  · rw [closeLoop, destinations_setLoop]
    exact h.sorted
  · obtain ⟨c, hc, aim, live, gone⟩ := h.announced j n ((lists j n).1 listed)
    refine ⟨c, calls ▸ hc, aim, live, fun ends => ?_⟩
    rw [loops]
    split
    · exact .inl rfl
    · exact gone ends
  · rw [SendsTo, calls] at sends
    exact (h.listed j n sends).imp lasts.ended (lists j n).2
  · rw [loops] at front
    split at front
    · simpa [EventLoop.close] using front.length_le
    · exact lasts.heralded (fun j n _ listed => (lists j n).1 listed) (h.order other pre cb front)

theorem Fragment.booked (f : Fragment b b') (h : Booked b) : Booked b' := by
  cases f with
  | accrues accrues => exact accrues.booked h
  | takes popped plain =>
    refine booked_takes h popped fun i id same => ?_
    subst same
    exact plain
  | forgets popped => exact booked_forgets h popped
  | counts popped => exact booked_countGathered (booked_takes h popped (by simp)) _ _
  | gathers hc hu together => exact booked_gather h hu together
  | resolves hc live alone job drains => exact booked_resolve h hc live job
  | closes name => exact booked_closeLoop h name

end Bench
end BatchWriter
