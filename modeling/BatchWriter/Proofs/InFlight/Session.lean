import BatchWriter.InFlight.Session
import BatchWriter.Proofs.InFlight
import BatchWriter.Proofs.Limits
import BatchWriter.Proofs.Timetable
import Mathlib.Algebra.BigOperators.Group.List.Basic
import Mathlib.Data.List.Perm.Basic

/-!
# What becomes of batches in a session

Which batches are open after some acts, and which alarms are still set, can be read off the acts
alone: a batch is open from the act that opens it to the first one that returns it, and its alarm
is set until then or until it is given up. A session keeps to that, and so returns no batch twice
and rings no alarm that it should not.
-/

set_option autoImplicit false

namespace BatchWriter

theorem Value.same_nat_unique {v : Value} {j k : ℕ} (hj : v.same (.nat j) = true)
    (hk : v.same (.nat k) = true) : j = k := by
  cases v with
  | number n =>
    have point : ∀ m : ℕ, n.same (.int m) = true → n.size? = some
      (((m : ℚ) : WithTop ℚ) : Line) := by
      intro m same
      rw [Number.same, beq_iff_eq, Number.compare?_eq] at same
      cases place : n.size? with
      | none =>
        rw [place] at same
        cases same
      | some x =>
        rw [place] at same
        exact congrArg some (compare_eq_iff_eq.1 (Option.some.inj same))
    have same := (point j hj).symm.trans (point k hk)
    exact_mod_cast Option.some.inj same
  | _ => simp [Value.same, Value.nat] at hj

/-! ## Batches and alarms by the acts alone -/

namespace InFlightAct

def Returns (k : ℕ) : InFlightAct → Prop
  | .complete id => id.same (.nat k) = true
  | .clear => True
  | _ => False

def GivesUp (k : ℕ) : InFlightAct → Prop
  | .cancelTimeout id => id.same (.nat k) = true
  | _ => False

def opens? : InFlightAct → Option (List Value)
  | .openBatch entries _ => some entries
  | _ => none

def lasts : InFlightAct → ℕ
  | .advance microseconds => microseconds
  | _ => 0

def opened (acts : List InFlightAct) : List (List Value) := acts.filterMap opens?

def elapsed (acts : List InFlightAct) : ℕ := (acts.map lasts).sum

/-- One of the acts opened the batch `k`, being the `k`-th to open one, and none has returned it
since. -/
def Open (acts : List InFlightAct) (k : ℕ) (entries : List Value) : Prop :=
  ∃ before delay after, acts = before ++ .openBatch entries delay :: after ∧
    k = (opened before).length + 1 ∧ ∀ a ∈ after, ¬ a.Returns k

/-- One of the acts opened the batch `k` with an alarm due at an instant, and since then the batch
was not returned nor its alarm given up. -/
def Awaited (acts : List InFlightAct) (k due : ℕ) : Prop :=
  ∃ before entries milliseconds delay after,
    acts = before ++ .openBatch entries (some milliseconds) :: after ∧
      k = (opened before).length + 1 ∧ milliseconds.delayMilliseconds = .ok (some delay) ∧
      due = elapsed before + delay ∧ ∀ a ∈ after, ¬ a.Returns k ∧ ¬ a.GivesUp k

variable {acts before after : List InFlightAct} {a x : InFlightAct} {k due : ℕ}
  {entries : List Value}

/-- An act among others and one more is the last one or was there before. -/
theorem split_snoc (same : acts ++ [a] = before ++ x :: after) :
    (after = [] ∧ x = a ∧ before = acts) ∨
      ∃ rest, after = rest ++ [a] ∧ acts = before ++ x :: rest := by
  rcases List.eq_nil_or_concat' after with rfl | ⟨rest, last, rfl⟩
  · obtain ⟨rfl, last⟩ := List.append_inj' same rfl
    exact .inl ⟨rfl, (List.singleton_inj.1 last).symm, rfl⟩
  · rw [← List.cons_append, ← List.append_assoc] at same
    obtain ⟨rfl, last⟩ := List.append_inj' same rfl
    exact .inr ⟨rest, by rw [last], rfl⟩

theorem opened_snoc : opened (acts ++ [a]) = opened acts ++ a.opens?.toList := by
  rw [opened, List.filterMap_append, ← opened]
  cases h : a.opens? <;> simp [h]

theorem elapsed_snoc : elapsed (acts ++ [a]) = elapsed acts + a.lasts := by
  simp [elapsed]

theorem open_snoc : Open (acts ++ [a]) k entries ↔ (Open acts k entries ∧ ¬ a.Returns k) ∨
    (k = (opened acts).length + 1 ∧ ∃ delay, a = .openBatch entries delay) := by
  constructor
  · rintro ⟨before, delay, after, same, number, kept⟩
    rcases split_snoc same with ⟨rfl, rfl, rfl⟩ | ⟨rest, rfl, rfl⟩
    · exact .inr ⟨number, delay, rfl⟩
    · exact .inl ⟨⟨before, delay, rest, rfl, number, fun b hb => kept b (by simp [hb])⟩,
        kept a (by simp)⟩
  · rintro (⟨⟨before, delay, after, rfl, number, kept⟩, last⟩ | ⟨number, delay, rfl⟩)
    · refine ⟨before, delay, after ++ [a], by simp, number, fun b hb => ?_⟩
      rcases List.mem_append.1 hb with hb | hb
      · exact kept b hb
      · rwa [List.mem_singleton.1 hb]
    · exact ⟨acts, delay, [], rfl, number, by simp⟩

theorem awaited_snoc : Awaited (acts ++ [a]) k due ↔
    (Awaited acts k due ∧ ¬ a.Returns k ∧ ¬ a.GivesUp k) ∨
      (k = (opened acts).length + 1 ∧ ∃ entries milliseconds delay,
        a = .openBatch entries (some milliseconds) ∧
          milliseconds.delayMilliseconds = .ok (some delay) ∧ due = elapsed acts + delay) := by
  constructor
  · rintro ⟨before, entries, milliseconds, delay, after, same, number, accepted, instant, kept⟩
    rcases split_snoc same with ⟨rfl, rfl, rfl⟩ | ⟨rest, rfl, rfl⟩
    · exact .inr ⟨number, entries, milliseconds, delay, rfl, accepted, instant⟩
    · exact .inl ⟨⟨before, entries, milliseconds, delay, rest, rfl, number, accepted, instant,
        fun b hb => kept b (by simp [hb])⟩, kept a (by simp)⟩
  · rintro (⟨⟨before, entries, milliseconds, delay, after, rfl, number, accepted, instant, kept⟩,
      last⟩ | ⟨number, entries, milliseconds, delay, rfl, accepted, instant⟩)
    · refine ⟨before, entries, milliseconds, delay,
        after ++ [a], by simp, number, accepted, instant,
        fun b hb => ?_⟩
      rcases List.mem_append.1 hb with hb | hb
      · exact kept b hb
      · rwa [List.mem_singleton.1 hb]
    · exact ⟨acts, entries, milliseconds, delay, [], rfl, number, accepted, instant, by simp⟩

theorem Awaited.isOpen (h : Awaited acts k due) : ∃ entries, Open acts k entries := by
  obtain ⟨before, entries, milliseconds, _, after, same, number, -, -, kept⟩ := h
  exact ⟨entries, before, some milliseconds, after, same, number, fun a ha => (kept a ha).1⟩

theorem Open.number (h : Open acts k entries) : 0 < k ∧ (opened acts)[k - 1]? = some entries := by
  obtain ⟨before, delay, after, rfl, rfl, -⟩ := h
  refine ⟨Nat.succ_pos _, ?_⟩
  rw [opened, List.filterMap_append, ← opened, Nat.add_sub_cancel,
    List.getElem?_append_right (Nat.le_refl _), Nat.sub_self]
  rfl

theorem Open.le (h : Open acts k entries) : k ≤ (opened acts).length := by
  obtain ⟨pos, known⟩ := h.number
  have := (List.getElem?_eq_some_iff.1 known).1
  omega

end InFlightAct

/-! ## Alarms that ring -/

namespace InFlightSession

open InFlightAct

variable {s s' : InFlightSession} {past : List InFlightAct} {a : InFlightAct} {k due : ℕ}
  {entries : List Value}

/-- All alarms that are due by an instant ring, each once, and leave the timetable. -/
theorem ringUntil_spec {instant rounds : ℕ} (distinct : s.time.Distinct)
    (few : s.time.alarms.length ≤ rounds) (later : s.time.now ≤ instant) : ∃ rung : List ℕ,
      ringUntil instant rounds s =
        { s with
          time := ⟨instant, s.time.alarms.filter fun a => !a.isDue instant⟩
          fired := s.fired ++ rung } ∧
      rung.Nodup ∧ ∀ k, k ∈ rung ↔ ∃ due ≤ instant, ⟨some due, k⟩ ∈ s.time.alarms := by
  induction rounds generalizing s with
  | zero =>
    have none : s.time.alarms = [] := List.eq_nil_of_length_eq_zero (Nat.le_zero.1 few)
    refine ⟨[], ?_, List.nodup_nil, by simp [none]⟩
    simp [ringUntil, Timetable.moveTo, none, later]
  | succ rounds ih =>
    rw [ringUntil]
    cases rings : s.time.ring? instant with
    | none =>
      refine ⟨[], ?_, List.nodup_nil, fun k => ⟨by simp, ?_⟩⟩
      · simp [Timetable.moveTo, Timetable.filter_isDue_of_silent rings, later]
      · rintro ⟨due, early, set⟩
        exact absurd (Timetable.later_of_silent rings set rfl) (Nat.not_lt.2 early)
    | some rung =>
      obtain ⟨id, time⟩ := rung
      obtain ⟨due, early, set, -, rfl⟩ := Timetable.rings_of_ring? rings
      have fewer : (s.time.alarms.filter fun a => a.action ≠ id).length < s.time.alarms.length :=
        List.length_filter_lt_length_iff_exists.2 ⟨_, set, by simp⟩
      obtain ⟨rest, went, nodup, exactly⟩ := @ih
        { s with
          time := { s.time.cancel id with now := max s.time.now due }
          fired := s.fired ++ [id] }
        (distinct.filter _ _) (by simp only [Timetable.cancel]; omega) (by simp; omega)
      have left : ∀ k due',
        ⟨some due', k⟩ ∈ s.time.alarms.filter (fun a => decide (a.action ≠ id)) ↔
          ⟨some due', k⟩ ∈ s.time.alarms ∧ k ≠ id := by simp
      refine ⟨id :: rest, ?_, List.nodup_cons.2 ⟨?_, nodup⟩, fun k => ?_⟩
      · refine went.trans ?_
        simp only [Timetable.filter_isDue_cancel distinct set early, List.append_assoc,
          List.singleton_append]
      · rw [exactly]
        rintro ⟨_, -, set⟩
        exact ((left _ _).1 set).2 rfl
      · rw [List.mem_cons, exactly]
        constructor
        · rintro (rfl | ⟨due', early', set'⟩)
          · exact ⟨due, early, set⟩
          · exact ⟨due', early', ((left _ _).1 set').1⟩
        · rintro ⟨due', early', set'⟩
          by_cases own : k = id
          · exact .inl own
          · exact .inr ⟨due', early', (left _ _).2 ⟨set', own⟩⟩

/-! ## The session beside its acts -/

structure Agrees (past : List InFlightAct) (s : InFlightSession) : Prop where
  issued : s.inFlight.issued = (opened past).length
  known : s.openedAt.length = (opened past).length
  now : s.time.now = elapsed past
  /-- Open batches stand in the order in which they were opened. -/
  sorted : s.inFlight.ids.Pairwise (· < ·)
  requests : ∀ k entries,
    Open past k entries ↔ ∃ r ∈ s.inFlight.requests, r.id = k ∧ r.entries = entries
  alarms : ∀ k due,
    ⟨some due, k⟩ ∈ s.time.alarms ↔ Awaited past k due ∧ elapsed past < due
  distinct : s.time.Distinct
  set : ∀ x ∈ s.time.alarms, x.action ≤ (opened past).length

theorem agrees_ofLimit {limit : Value} (new : ofLimit limit = .ok s) :
    Agrees [] s ∧ s.inFlight.requests = [] := by
  have fresh : ∃ n, s = { inFlight := { limit := n } } := by
    unfold ofLimit at new
    cases number : limit.asLimit with
    | error fault => simp [number, bind, Except.bind] at new
    | ok n =>
      simp only [number, bind, Except.bind, InFlight.ofLimit] at new
      split at new
      · cases new
      · next made =>
        split at made
        · cases made
        · cases made
          cases new
          exact ⟨n, rfl⟩
  obtain ⟨n, rfl⟩ := fresh
  have closed : ∀ k entries, ¬ Open [] k entries := by simp [Open]
  refine ⟨⟨rfl, rfl, rfl, .nil, fun k entries => ?_, fun k due => ?_, List.nodup_nil, nofun⟩, rfl⟩
  · exact iff_of_false (closed k entries) (by simp)
  · refine iff_of_false (by simp) fun awaited => ?_
    obtain ⟨entries, isOpen⟩ := awaited.1.isOpen
    exact closed k entries isOpen

theorem found_spec {id : Value} {r : Request Value} (found : s.find? id = some r) :
    r ∈ s.inFlight.requests ∧ id.same (.nat r.id) = true := by
  have same := List.find?_some found
  exact ⟨List.mem_of_find?_eq_some found, same⟩

theorem Agrees.cleared (h : Agrees past s) : Agrees past { s with fired := [] } :=
  ⟨h.issued, h.known, h.now, h.sorted, h.requests, h.alarms, h.distinct, h.set⟩

namespace Agrees

theorem distinct_ids (h : Agrees past s) : s.inFlight.ids.Nodup := h.sorted.imp Nat.ne_of_lt

theorem open_of_mem (h : Agrees past s) {r : Request Value} (hr : r ∈ s.inFlight.requests) :
    Open past r.id r.entries := (h.requests _ _).2 ⟨r, hr, rfl, rfl⟩

/-- After an act that opens nothing and takes no time: the batches that it does not return are
open, and the alarms that it does not give up either are set. -/
theorem onward (h : Agrees past s) (none : a.opens? = none) (still : a.lasts = 0)
    (issued : s'.inFlight.issued = s.inFlight.issued) (known : s'.openedAt = s.openedAt)
    (now : s'.time.now = s.time.now) (ids : s'.inFlight.ids.Sublist s.inFlight.ids)
    (requests : ∀ k entries, Open past k entries ∧ ¬ a.Returns k ↔
      ∃ r ∈ s'.inFlight.requests, r.id = k ∧ r.entries = entries)
    (keep : Alarm ℕ → Bool) (alarms : s'.time.alarms = s.time.alarms.filter keep)
    (kept : ∀ k due, Awaited past k due →
      (keep ⟨some due, k⟩ = true ↔ ¬ a.Returns k ∧ ¬ a.GivesUp k)) :
    Agrees (past ++ [a]) s' := by
  have count : (opened (past ++ [a])).length = (opened past).length := by simp [opened_snoc, none]
  have clock : elapsed (past ++ [a]) = elapsed past := by simp [elapsed_snoc, still]
  refine ⟨issued ▸ count ▸ h.issued, known ▸ count ▸ h.known, now ▸ clock ▸ h.now,
    h.sorted.sublist ids, fun k entries => ?_, fun k due => ?_, ?_, fun x hx => ?_⟩
  · rw [← requests, open_snoc]
    refine or_iff_left ?_
    rintro ⟨-, delay, rfl⟩
    cases none
  · rw [clock, alarms, List.mem_filter, h.alarms, awaited_snoc]
    constructor
    · rintro ⟨⟨awaited, later⟩, keeps⟩
      exact ⟨.inl ⟨awaited, (kept k due awaited).1 keeps⟩, later⟩
    · rintro ⟨⟨awaited, keeps⟩ | ⟨-, entries, milliseconds, delay, rfl, -⟩, later⟩
      · exact ⟨⟨awaited, later⟩, (kept k due awaited).2 keeps⟩
      · cases none
  · rw [Timetable.Distinct, alarms]
    exact h.distinct.filter keep s.time.now
  · rw [alarms] at hx
    rw [count]
    exact h.set x (List.mem_of_mem_filter hx)

/-- What has no effect on any open batch leaves everything as it was. -/
theorem idle (h : Agrees past s) (none : a.opens? = none) (still : a.lasts = 0)
    (kept : ∀ k entries, Open past k entries → ¬ a.Returns k ∧ ¬ a.GivesUp k) :
    Agrees (past ++ [a]) s := by
  refine h.onward none still rfl rfl rfl (.refl _) (fun k entries => ?_)
    (fun _ => true) (by simp) fun k due awaited => ?_
  · rw [← h.requests]
    exact and_iff_left_of_imp fun isOpen => (kept k entries isOpen).1
  · obtain ⟨entries, isOpen⟩ := awaited.isOpen
    exact iff_of_true rfl (kept k entries isOpen)

/-! Opening. -/

/-- After an act that opens a batch: it is the last one, with its alarm if that was set. -/
theorem opening (h : Agrees past s) {delay : Option Number}
    (issued : s'.inFlight.issued = s.inFlight.issued + 1)
    (known : s'.openedAt.length = s.openedAt.length + 1) (now : s'.time.now = s.time.now)
    (ids : s'.inFlight.ids = s.inFlight.ids ++ [s.inFlight.issued + 1])
    (requests : ∀ k own, (∃ r ∈ s'.inFlight.requests, r.id = k ∧ r.entries = own) ↔
      (∃ r ∈ s.inFlight.requests, r.id = k ∧ r.entries = own) ∨
        k = s.inFlight.issued + 1 ∧ own = entries)
    (set : Option (Option ℕ))
    (alarms : s'.time.alarms = s.time.alarms ++
      (set.map fun wait => ⟨wait.map (s.time.now + ·), s.inFlight.issued + 1⟩).toList)
    (due : ∀ wait, set = some (some wait) ↔
      ∃ milliseconds, delay = some milliseconds ∧ milliseconds.delayMilliseconds = .ok (some wait))
    (positive : ∀ wait, set = some (some wait) → 0 < wait) :
    Agrees (past ++ [.openBatch entries delay]) s' := by
  have count : (opened (past ++ [.openBatch entries delay])).length = (opened past).length + 1 := by
    simp [opened_snoc, opens?]
  have clock : elapsed (past ++ [.openBatch entries delay]) = elapsed past := by
    simp [elapsed_snoc, lasts]
  have untouched : ∀ k, ¬ (InFlightAct.openBatch entries delay).Returns k ∧
      ¬ (InFlightAct.openBatch entries delay).GivesUp k := fun k => ⟨not_false, not_false⟩
  have numbers : ∀ id ∈ s.inFlight.ids, id < s.inFlight.issued + 1 := fun id hid => by
    obtain ⟨r, hr, rfl⟩ := List.mem_map.1 hid
    have := (h.open_of_mem hr).le
    rw [h.issued]
    omega
  refine ⟨by rw [issued, count, h.issued], by rw [known, count, h.known], by rw [now, clock, h.now],
    ?_, fun k own => ?_, fun k instant => ?_, ?_, fun x hx => ?_⟩
  · rw [ids, List.pairwise_append]
    exact ⟨h.sorted, List.pairwise_singleton _ _, by simpa using numbers⟩
  · rw [requests, ← h.requests, open_snoc, h.issued]
    refine or_congr (and_iff_left (untouched k).1) (and_congr_right fun _ => ⟨?_, ?_⟩)
    · rintro ⟨_, same⟩
      cases same
      rfl
    · rintro rfl
      exact ⟨delay, rfl⟩
  · rw [alarms, List.mem_append, h.alarms, awaited_snoc, clock,
      and_iff_left (untouched k), or_and_right,
      ← h.issued, ← h.now]
    refine or_congr_right ?_
    rw [Option.mem_toList, Option.map_eq_some_iff]
    constructor
    · rintro ⟨_ | wait, chosen, same⟩ <;> cases same
      obtain ⟨milliseconds, rfl, accepted⟩ := (due wait).1 chosen
      exact ⟨⟨rfl, entries, milliseconds, wait, rfl, accepted, rfl⟩,
        Nat.lt_add_of_pos_right (positive wait chosen)⟩
    · rintro ⟨⟨rfl, _, milliseconds, wait, same, accepted, rfl⟩, -⟩
      cases same
      exact ⟨some wait, (due wait).2 ⟨milliseconds, rfl, accepted⟩, rfl⟩
  · rw [Timetable.Distinct, alarms, List.map_append, List.nodup_append]
    refine ⟨h.distinct, ?_, fun id hid other new => ?_⟩
    · cases set <;> simp
    · obtain ⟨x, hx, rfl⟩ := List.mem_map.1 hid
      have old := h.set x hx
      rw [← h.issued] at old
      cases set with
      | none => cases new
      | some wait =>
        rw [List.mem_singleton.1 new]
        exact Nat.ne_of_lt (Nat.lt_succ_of_le old)
  · rw [count, ← h.issued]
    rw [alarms, List.mem_append] at hx
    rcases hx with hx | hx
    · have := h.set x hx
      rw [← h.issued] at this
      omega
    · cases set with
      | none => cases hx
      | some wait => exact (List.mem_singleton.1 hx) ▸ Nat.le_refl _

theorem openBatch (h : Agrees past s) (entries : List Value) (delay : Option Number) :
    Agrees (past ++ [.openBatch entries delay]) (s.openBatch entries delay).2 := by
  have requests : ∀ k own,
      (∃ r ∈ (s.inFlight.openBatch entries s.time.now).2.requests, r.id = k ∧ r.entries = own) ↔
      (∃ r ∈ s.inFlight.requests, r.id = k ∧ r.entries = own) ∨
        k = s.inFlight.issued + 1 ∧ own = entries := by
    simp [InFlight.openBatch, or_and_right, exists_or, eq_comm]
  have unset : ∀ wait, (none : Option (Option ℕ)) = some (some wait) → 0 < wait := by simp
  unfold InFlightSession.openBatch
  cases delay with
  | none =>
    exact h.opening rfl (by simp) rfl (InFlight.ids_openBatch _ _) requests none (by simp)
      (by simp) unset
  | some milliseconds =>
    dsimp only
    cases accepted : milliseconds.delayMilliseconds with
    | error fault =>
      exact h.opening rfl (by simp) rfl (InFlight.ids_openBatch _ _) requests none
        (by simp) (by simp [accepted]) unset
    | ok wait =>
      dsimp only
      refine h.opening rfl (by simp) rfl ?_ (fun k own => ?_) (some wait)
        (by simp [Timetable.set, InFlight.openBatch]) (by simp [accepted]) fun n same => ?_
      · rw [← InFlight.ids_openBatch entries s.time.now]
        exact InFlight.ids_update _ _ fun _ => rfl
      · rw [← requests]
        exact InFlight.exists_update _ fun r => .rfl
      · cases same
        exact Number.delayMilliseconds_pos accepted

/-! Returning. -/

theorem not_same_of_closed (h : Agrees past s) {id : Value} (closed : s.find? id = none)
    (isOpen : Open past k entries) : id.same (.nat k) = false := by
  obtain ⟨r, hr, rfl, -⟩ := (h.requests _ _).1 isOpen
  exact Bool.eq_false_iff.2 (List.find?_eq_none.1 closed r hr)

theorem complete (h : Agrees past s) {id : Value} {r : Request Value}
    (found : s.find? id = some r) :
    Agrees (past ++ [.complete id])
      { s with inFlight := s.inFlight.remove r.id, time := s.time.cancel r.id } := by
  obtain ⟨-, own⟩ := found_spec found
  have returns : ∀ k, (InFlightAct.complete id).Returns k ↔ k = r.id := fun k =>
    ⟨fun same => Value.same_nat_unique same own, fun same => same ▸ own⟩
  refine h.onward rfl rfl rfl rfl rfl (List.filter_sublist.map _) (fun k entries => ?_) _ rfl
    fun k due awaited => ?_
  · rw [h.requests, returns]
    constructor
    · rintro ⟨⟨x, hx, rfl, rfl⟩, other⟩
      exact ⟨x, List.mem_filter.2 ⟨hx, by simpa using other⟩, rfl, rfl⟩
    · rintro ⟨x, hx, rfl, rfl⟩
      obtain ⟨hx, other⟩ := List.mem_filter.1 hx
      exact ⟨⟨x, hx, rfl, rfl⟩, by simpa using other⟩
  · rw [returns, decide_eq_true_iff]
    exact (and_iff_left not_false).symm

theorem clear (h : Agrees past s) : Agrees (past ++ [.clear])
    { s with
      inFlight := s.inFlight.clear
      time := s.inFlight.requests.foldl (fun t r => t.cancel r.id) s.time } := by
  refine h.onward rfl rfl rfl rfl ?_ (List.nil_sublist _) (fun k entries => ?_) _
    (congrArg Timetable.alarms (Timetable.foldl_cancel Request.id _ _)) fun k due awaited => ?_
  · dsimp only
    rw [Timetable.foldl_cancel Request.id]
  · exact iff_of_false (fun isOpen => isOpen.2 trivial) (by simp [InFlight.clear])
  · obtain ⟨entries, isOpen⟩ := awaited.isOpen
    obtain ⟨r, hr, rfl, -⟩ := (h.requests _ _).1 isOpen
    exact iff_of_false (by simpa using ⟨r, hr, rfl⟩) fun kept => kept.1 trivial

/-! Giving up alarms. -/

theorem gives_up (h : Agrees past s) {id : Value} {r : Request Value}
    (found : s.find? id = some r) :
    Agrees (past ++ [.cancelTimeout id]) (s.cancelTimeout r.id) := by
  obtain ⟨-, own⟩ := found_spec found
  have gives : ∀ k, (InFlightAct.cancelTimeout id).GivesUp k ↔ k = r.id := fun k =>
    ⟨fun same => Value.same_nat_unique same own, fun same => same ▸ own⟩
  have kept : ∀ k, ¬ (InFlightAct.cancelTimeout id).Returns k := fun _ => not_false
  rw [cancelTimeout]
  have same : (s.inFlight.update r.id fun r => { r with timed := false }).ids = s.inFlight.ids :=
    InFlight.ids_update _ _ fun _ => rfl
  refine h.onward rfl rfl rfl rfl rfl (same ▸ .refl _) (fun k entries => ?_) _ rfl
    fun k due awaited => ?_
  · rw [h.requests, and_iff_left (kept k)]
    exact (InFlight.exists_update r.id (f := fun r => { r with timed := false }) fun _ => .rfl).symm
  · rw [gives, decide_eq_true_iff]
    exact (and_iff_right (kept k)).symm

/-- Who asks for a batch that was never opened asks for none that is open. -/
theorem not_same_of_unknown (h : Agrees past s) {id : Value} (unknown : s.instantOf? id = none)
    (isOpen : Open past k entries) : id.same (.nat k) = false := by
  obtain ⟨pos, -⟩ := isOpen.number
  have bound := isOpen.le
  rw [← h.known] at bound
  have listed : (s.openedAt[k - 1], k) ∈ s.openedAt.zipIdx 1 :=
    List.mk_mem_zipIdx_iff_le_and_getElem?_sub.2 ⟨pos, List.getElem?_eq_getElem _⟩
  rw [instantOf?, Option.map_eq_none_iff, List.find?_eq_none] at unknown
  exact Bool.eq_false_iff.2 (unknown _ listed)

/-! The passing of time. -/

theorem advance (h : Agrees past s) (microseconds : ℕ) : Agrees (past ++ [.advance microseconds])
    (ringUntil (s.time.now + microseconds) s.time.alarms.length s) := by
  obtain ⟨rung, went, -, -⟩ := ringUntil_spec h.distinct (Nat.le_refl _)
    (Nat.le_add_right s.time.now microseconds)
  have count : opened (past ++ [.advance microseconds]) = opened past := by
    simp [opened_snoc, opens?]
  have clock : elapsed (past ++ [.advance microseconds]) = s.time.now + microseconds := by
    rw [elapsed_snoc, h.now, lasts]
  rw [went]
  refine ⟨count ▸ h.issued, count ▸ h.known, clock.symm, h.sorted, fun k entries => ?_,
    fun k due => ?_, h.distinct.filter _ _, fun x hx => ?_⟩
  · rw [← h.requests, open_snoc]
    constructor
    · rintro (⟨isOpen, -⟩ | ⟨-, delay, same⟩)
      · exact isOpen
      · cases same
    · exact fun isOpen => .inl ⟨isOpen, not_false⟩
  · have late : (Alarm.mk (some due) k).isDue (s.time.now + microseconds) = false ↔
        s.time.now + microseconds < due := by
      simp [Alarm.isDue]
    rw [List.mem_filter, h.alarms, Bool.not_eq_true', late, clock, awaited_snoc, ← h.now]
    constructor
    · rintro ⟨⟨awaited, -⟩, later⟩
      exact ⟨.inl ⟨awaited, not_false, not_false⟩, later⟩
    · rintro ⟨⟨awaited, -⟩ | ⟨-, _, _, _, same, -⟩, later⟩
      · exact ⟨⟨awaited, by omega⟩, later⟩
      · cases same
  · rw [count]
    exact h.set x (List.mem_of_mem_filter hx)

theorem act (h : Agrees past s) (a : InFlightAct) : Agrees (past ++ [a]) (s.act a).2 := by
  cases a with
  | openBatch entries delay => exact h.openBatch entries delay
  | complete id =>
    rw [InFlightSession.act]
    split
    · next closed =>
      refine h.idle rfl rfl fun k entries isOpen => ⟨?_, not_false⟩
      exact Bool.eq_false_iff.1 (h.not_same_of_closed closed isOpen)
    · next r found => exact h.complete found
  | clear => exact h.clear
  | cancelTimeout id =>
    rw [InFlightSession.act]
    split
    · next unknown =>
      refine h.idle rfl rfl fun k entries isOpen => ⟨not_false, ?_⟩
      exact Bool.eq_false_iff.1 (h.not_same_of_unknown unknown isOpen)
    · next closed =>
      refine h.idle rfl rfl fun k entries isOpen => ⟨not_false, ?_⟩
      exact Bool.eq_false_iff.1 (h.not_same_of_closed closed isOpen)
    · next r _ found => exact h.gives_up found
  | age id =>
    have same : (s.act (.age id)).2 = s := by
      rw [InFlightSession.act]
      split <;> rfl
    rw [same]
    exact h.idle rfl rfl fun k entries _ => ⟨not_false, not_false⟩
  | advance microseconds => exact h.advance microseconds

end Agrees

end InFlightSession
end BatchWriter
