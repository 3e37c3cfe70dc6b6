import BatchWriter.Proofs.InFlight.Session
import Mathlib.Data.List.Range

/-!
# Batches are returned once

What each act of a session answers follows from the acts before it. Over a whole session the
batches that were returned and those that are open are together the ones that were opened, none
of them twice, and no alarm rings twice.
-/

set_option autoImplicit false

namespace BatchWriter.InFlightSession

open InFlightAct

variable {s : InFlightSession} {past acts : List InFlightAct} {a : InFlightAct}

/-! ## What is told of a session -/

def after (acts : List InFlightAct) (s : InFlightSession) : InFlightSession :=
  acts.foldl (fun s a => ({ s with fired := [] }.act a).2) s

def asRow (r : ℕ × List Value) : Value := .list [.nat r.1, .list r.2, .bool false]

def returnedBy : InFlightAct → Except Fault Value → List Value
  | .complete _, .ok (.list row) => [.list row]
  | .clear, .ok (.list rows) => rows
  | _, _ => []

def returned (acts : List InFlightAct) (s : InFlightSession) : List Value :=
  (acts.zip (session acts s)).flatMap fun x => returnedBy x.1 x.2.1

/-- What an act answers and which alarms ring during it, by the acts before it. -/
structure Answers (past : List InFlightAct) (a : InFlightAct)
    (done : Except Fault Value × InFlightSession) : Prop where
  /-- Ids count from one. A delay that is refused leaves the batch open without an alarm. -/
  opens : ∀ entries delay, a = .openBatch entries delay →
    done.1 = match delay.map Number.delayMilliseconds with
      | some (.error fault) => .error fault
      | _ => .ok (.list [.nat ((opened past).length + 1), .list entries, .bool delay.isSome])
  completes : ∀ id k entries, a = .complete id → Open past k entries → id.same (.nat k) = true →
    done.1 = .ok (asRow (k, entries))
  finds_none : ∀ id, a = .complete id →
    (∀ k entries, Open past k entries → id.same (.nat k) = false) → done.1 = .ok .null
  clears : a = .clear → ∃ rs : List (ℕ × List Value), done.1 = .ok (.list (rs.map asRow)) ∧
    (rs.map Prod.fst).Pairwise (· < ·) ∧ ∀ k entries, (k, entries) ∈ rs ↔ Open past k entries
  rings : done.2.fired.Nodup ∧ ∀ k, k ∈ done.2.fired ↔
    ∃ due, Awaited past k due ∧ elapsed past < due ∧ due ≤ elapsed past + a.lasts

/-- The laws of a session on batches in flight. -/
structure Lawful (acts : List InFlightAct) (s : InFlightSession) : Prop where
  answers : ∀ i a, acts[i]? = some a →
    ∃ done, (session acts s)[i]? = some done ∧ Answers (acts.take i) a done
  counts : ∀ i done, (session acts s)[i]? = some done →
    done.2.inFlight.count + (returned (acts.take (i + 1)) s).length =
      (opened (acts.take (i + 1))).length
  /-- No batch is returned twice, and each with the entries that it was opened with. -/
  returns : ∃ rs : List (ℕ × List Value), returned acts s = rs.map asRow ∧ (rs.map Prod.fst).Nodup ∧
    ∀ r ∈ rs, 0 < r.1 ∧ (opened acts)[r.1 - 1]? = some r.2
  /-- No alarm rings twice. -/
  rings : ((session acts s).flatMap fun done => done.2.fired).Nodup

/-! ## Runs -/

theorem after_snoc : after (acts ++ [a]) s = ({ after acts s with fired := [] }.act a).2 := by
  rw [after, List.foldl_append]
  rfl

theorem session_append (rest : List InFlightAct) :
    session (acts ++ rest) s = session acts s ++ session rest (after acts s) := by
  induction acts generalizing s with
  | nil => rfl
  | cons a acts ih => exact congrArg _ (ih (s := ({ s with fired := [] }.act a).2))

theorem session_snoc :
    session (acts ++ [a]) s = session acts s ++ [{ after acts s with fired := [] }.act a] :=
  session_append [a]

theorem length_session (acts : List InFlightAct) (s : InFlightSession) :
    (session acts s).length = acts.length := by
  induction acts generalizing s with
  | nil => rfl
  | cons a acts ih => exact congrArg (· + 1) (ih _)

theorem session_getElem? {i : ℕ} (h : acts[i]? = some a) :
    (session acts s)[i]? = some ({ after (acts.take i) s with fired := [] }.act a) := by
  obtain ⟨within, rfl⟩ := List.getElem?_eq_some_iff.1 h
  have split : acts = acts.take i ++ acts[i] :: acts.drop (i + 1) := by
    rw [List.cons_getElem_drop_succ, List.take_append_drop]
  have place : (session (acts.take i) s).length = i := by
    rw [length_session, List.length_take, Nat.min_eq_left within.le]
  conv_lhs => rw [split, session_append]
  rw [List.getElem?_append_right place.le, place, Nat.sub_self]
  rfl

theorem returned_snoc : returned (acts ++ [a]) s =
    returned acts s ++ returnedBy a ({ after acts s with fired := [] }.act a).1 := by
  rw [returned, session_snoc, List.zip_append (length_session acts s).symm,
    List.flatMap_append, ← returned]
  simp

theorem Agrees.after (h : Agrees [] s) (acts : List InFlightAct) : Agrees acts (after acts s) := by
  induction acts using List.reverseRecOn with
  | nil => exact h
  | append_singleton acts a ih =>
    rw [after_snoc]
    exact ih.cleared.act a

/-! ## One act -/

theorem fired_of_still (still : ∀ microseconds, a ≠ .advance microseconds) :
    (s.act a).2.fired = s.fired := by
  cases a with
  | openBatch entries delay =>
    rw [act]
    unfold openBatch
    cases delay with
    | none => rfl
    | some milliseconds => cases accepted : milliseconds.delayMilliseconds <;> simp [accepted]
  | complete id =>
    rw [act]
    split <;> rfl
  | clear => rfl
  | cancelTimeout id =>
    rw [act]
    split <;> rfl
  | age id =>
    rw [act]
    split <;> rfl
  | advance microseconds => exact absurd rfl (still microseconds)

theorem ids_openBatch (entries : List Value) (delay : Option Number) :
    (s.openBatch entries delay).2.inFlight.ids = s.inFlight.ids ++ [s.inFlight.issued + 1] := by
  rw [← InFlight.ids_openBatch entries s.time.now]
  unfold openBatch
  cases delay with
  | none => rfl
  | some milliseconds =>
    cases accepted : milliseconds.delayMilliseconds with
    | error fault => simp [accepted]
    | ok wait =>
      simp only [accepted]
      exact InFlight.ids_update _ _ fun _ => rfl

/-- What an act returned makes up, with what is open after it, what was open before it and what
it opened. -/
def Settles (n : ℕ) (a : InFlightAct) (s s' : InFlightSession) (new : List (ℕ × List Value)) :
    Prop :=
  (new.map Prod.fst ++ s'.inFlight.ids).Perm
    (s.inFlight.ids ++ List.range' (1 + n) a.opens?.toList.length)

theorem settles_nothing {n : ℕ} {s' : InFlightSession} (same : s'.inFlight.ids = s.inFlight.ids)
    (none : a.opens? = none) : Settles n a s s' [] := by
  rw [Settles, same, none]
  simp

namespace Agrees

theorem answers_open (h : Agrees past s) (entries : List Value) (delay : Option Number) :
    (s.openBatch entries delay).1 = match delay.map Number.delayMilliseconds with
      | some (.error fault) => .error fault
      | _ => .ok (.list [.nat ((opened past).length + 1), .list entries, .bool delay.isSome]) := by
  rw [← h.issued]
  unfold InFlightSession.openBatch
  cases delay with
  | none => rfl
  | some milliseconds =>
    cases accepted : milliseconds.delayMilliseconds <;>
      simp [accepted, Request.row, InFlight.openBatch]

/-- The batch that is found is the only open one with the id. -/
theorem finds (h : Agrees past s) {id : Value} {k : ℕ} {entries : List Value}
    (isOpen : Open past k entries) (same : id.same (.nat k) = true) :
    ∃ r, s.find? id = some r ∧ r.id = k ∧ r.entries = entries := by
  cases found : s.find? id with
  | none => exact absurd same (Bool.eq_false_iff.1 (h.not_same_of_closed found isOpen))
  | some r =>
    obtain ⟨hr, own⟩ := found_spec found
    obtain rfl := Value.same_nat_unique same own
    have known := (h.open_of_mem hr).number.2
    rw [isOpen.number.2] at known
    exact ⟨r, rfl, rfl, (Option.some.inj known).symm⟩

theorem rings (h : Agrees past s) (quiet : s.fired = []) :
    (s.act a).2.fired.Nodup ∧ ∀ k, k ∈ (s.act a).2.fired ↔
      ∃ due, Awaited past k due ∧ elapsed past < due ∧ due ≤ elapsed past + a.lasts := by
  cases a with
  | advance microseconds =>
    obtain ⟨rung, went, once, exactly⟩ := ringUntil_spec h.distinct (Nat.le_refl _)
      (Nat.le_add_right s.time.now microseconds)
    rw [InFlightSession.act, went, quiet, List.nil_append]
    refine ⟨once, fun k => (exactly k).trans ?_⟩
    rw [h.now, lasts]
    constructor
    · rintro ⟨due, early, set⟩
      obtain ⟨awaited, later⟩ := (h.alarms k due).1 set
      exact ⟨due, awaited, later, early⟩
    · rintro ⟨due, awaited, later, early⟩
      exact ⟨due, early, (h.alarms k due).2 ⟨awaited, later⟩⟩
  | _ =>
    rw [fired_of_still (fun microseconds same => by cases same), quiet]
    refine ⟨List.nodup_nil, fun k => iff_of_false List.not_mem_nil ?_⟩
    rintro ⟨due, -, later, early⟩
    exact absurd (later.trans_le early) (Nat.lt_irrefl _)

theorem answers (h : Agrees past s) (quiet : s.fired = []) (a : InFlightAct) :
    Answers past a (s.act a) where
  opens entries delay same := by
    subst same
    exact h.answers_open entries delay
  completes id k entries same isOpen own := by
    subst same
    obtain ⟨r, found, rfl, rfl⟩ := h.finds isOpen own
    rw [InFlightSession.act, found]
    rfl
  finds_none id same closed := by
    subst same
    rw [InFlightSession.act]
    split
    · rfl
    · next r found =>
      obtain ⟨hr, own⟩ := found_spec found
      rw [closed _ _ (h.open_of_mem hr)] at own
      cases own
  clears same := by
    subst same
    refine ⟨s.inFlight.requests.map fun r => (r.id, r.entries), ?_, ?_, fun k entries => ?_⟩
    · rw [InFlightSession.act, List.map_map]
      rfl
    · rw [List.map_map]
      exact h.sorted
    · rw [h.requests, List.mem_map]
      simp only [Prod.mk.injEq]
  rings := h.rings quiet

theorem settles (h : Agrees past s) (a : InFlightAct) : ∃ new : List (ℕ × List Value),
    returnedBy a (s.act a).1 = new.map asRow ∧ (∀ r ∈ new, Open past r.1 r.2) ∧
      Settles (opened past).length a s (s.act a).2 new := by
  cases a with
  | openBatch entries delay =>
    refine ⟨[], by cases (s.openBatch entries delay).1 <;> rfl, nofun, ?_⟩
    rw [Settles, InFlightSession.act, ids_openBatch, h.issued, Nat.add_comm]
    rfl
  | complete id =>
    rw [InFlightSession.act]
    cases found : s.find? id with
    | none => exact ⟨[], rfl, nofun, settles_nothing rfl rfl⟩
    | some r =>
      obtain ⟨hr, -⟩ := found_spec found
      refine ⟨[(r.id, r.entries)], rfl, ?_, ?_⟩
      · rintro _ hx
        obtain rfl := List.mem_singleton.1 hx
        exact h.open_of_mem hr
      · have left : (s.inFlight.remove r.id).ids = s.inFlight.ids.erase r.id := by
          rw [InFlight.ids_remove, h.distinct_ids.erase_eq_filter]
          refine List.filter_congr fun k _ => ?_
          by_cases same : k = r.id <;> simp [same]
        have parts : (s.inFlight.ids).Perm (r.id :: s.inFlight.ids.erase r.id) :=
          List.perm_cons_erase (List.mem_map_of_mem hr)
        simpa [Settles, left, opens?] using parts.symm
  | clear =>
    refine ⟨s.inFlight.requests.map fun r => (r.id, r.entries), ?_, ?_, ?_⟩
    · rw [InFlightSession.act, List.map_map]
      rfl
    · rintro _ hx
      obtain ⟨r, hr, rfl⟩ := List.mem_map.1 hx
      exact h.open_of_mem hr
    · rw [Settles, InFlightSession.act, List.map_map]
      exact .refl _
  | cancelTimeout id =>
    refine ⟨[], rfl, nofun, settles_nothing ?_ rfl⟩
    rw [InFlightSession.act]
    split
    · rfl
    · rfl
    · exact InFlight.ids_update _ _ fun _ => rfl
  | age id =>
    refine ⟨[], rfl, nofun, settles_nothing ?_ rfl⟩
    rw [InFlightSession.act]
    split <;> rfl
  | advance microseconds =>
    obtain ⟨rung, went, -⟩ := ringUntil_spec h.distinct (Nat.le_refl _)
      (Nat.le_add_right s.time.now microseconds)
    refine ⟨[], rfl, nofun, settles_nothing ?_ rfl⟩
    rw [InFlightSession.act, went]

end Agrees

/-! ## Whole sessions -/

/-- Of the batches that were opened, some have been returned and the others are open. -/
theorem settled (h : Agrees [] s) (fresh : s.inFlight.requests = []) (acts : List InFlightAct) :
    ∃ gone : List (ℕ × List Value), returned acts s = gone.map asRow ∧
      (gone.map Prod.fst ++ (after acts s).inFlight.ids).Perm
        (List.range' 1 (opened acts).length) ∧
      ∀ r ∈ gone, (opened acts)[r.1 - 1]? = some r.2 := by
  induction acts using List.reverseRecOn with
  | nil =>
    refine ⟨[], rfl, ?_, nofun⟩
    simp [after, InFlight.ids, fresh, opened]
  | append_singleton acts a ih =>
    obtain ⟨gone, told, once, own⟩ := ih
    have agrees := (h.after acts).cleared
    obtain ⟨new, more, were, left⟩ := agrees.settles a
    have grown : ∀ k entries, (opened acts)[k]? = some entries →
        (opened (acts ++ [a]))[k]? = some entries := fun k entries known => by
      rw [opened_snoc, List.getElem?_append_left (List.getElem?_eq_some_iff.1 known).1, known]
    refine ⟨gone ++ new, by rw [returned_snoc, told, more, List.map_append], ?_, fun r hr => ?_⟩
    · have ranges : List.range' 1 (opened acts).length ++
          List.range' (1 + (opened acts).length) a.opens?.toList.length =
          List.range' 1 (opened (acts ++ [a])).length := by
        rw [List.range'_append_1, opened_snoc, List.length_append]
      rw [List.map_append, List.append_assoc, after_snoc, ← ranges]
      refine (left.append_left _).trans ?_
      rw [← List.append_assoc]
      exact once.append_right _
    · rcases List.mem_append.1 hr with hr | hr
      · exact grown _ _ (own r hr)
      · exact grown _ _ (were r hr).number.2

theorem rung_once (h : Agrees [] s) (acts : List InFlightAct) :
    ((session acts s).flatMap fun done => done.2.fired).Nodup ∧
      ∀ k ∈ (session acts s).flatMap fun done => done.2.fired, k ≤ (opened acts).length ∧
        ∀ due, Awaited acts k due → due ≤ elapsed acts := by
  induction acts using List.reverseRecOn with
  | nil => exact ⟨List.nodup_nil, nofun⟩
  | append_singleton acts a ih =>
    obtain ⟨once, past⟩ := ih
    have agrees := (h.after acts).cleared
    obtain ⟨nodup, exactly⟩ := agrees.rings (a := a) rfl
    rw [session_snoc, List.flatMap_append, List.flatMap_singleton]
    refine ⟨List.nodup_append.2 ⟨once, nodup, ?_⟩, fun k hk => ?_⟩
    · rintro k old _ new rfl
      obtain ⟨due, awaited, later, -⟩ := (exactly k).1 new
      exact absurd ((past k old).2 due awaited) (by omega)
    · have known : k ≤ (opened acts).length ∧
          ∀ due, Awaited acts k due → due ≤ elapsed (acts ++ [a]) := by
        rw [elapsed_snoc]
        rcases List.mem_append.1 hk with old | new
        · exact ⟨(past k old).1, fun due awaited => ((past k old).2 due awaited).trans (by omega)⟩
        · obtain ⟨due, awaited, later, early⟩ := (exactly k).1 new
          obtain ⟨entries, isOpen⟩ := awaited.isOpen
          refine ⟨isOpen.le, fun other again => ?_⟩
          by_contra beyond
          have same := agrees.distinct.unique ((agrees.alarms k due).2 ⟨awaited, later⟩)
            ((agrees.alarms k other).2 ⟨again, by omega⟩) rfl
          cases same
          omega
      refine ⟨known.1.trans ?_, fun due awaited => ?_⟩
      · rw [opened_snoc, List.length_append]
        exact Nat.le_add_right _ _
      · rcases awaited_snoc.1 awaited with ⟨awaited, -⟩ | ⟨number, -⟩
        · exact known.2 due awaited
        · exact absurd known.1 (by omega)

/-- Batches are numbered as they are opened and returned once, all in order when all are given
up; alarms ring for those that are open and await them, once. -/
theorem batches_are_returned_once {limit : Value} (new : ofLimit limit = .ok s)
    (acts : List InFlightAct) : Lawful acts s := by
  obtain ⟨agrees, fresh⟩ := agrees_ofLimit new
  refine ⟨fun i a act => ⟨_, session_getElem? act, (agrees.after _).cleared.answers rfl a⟩,
    fun i done told => ?_, ?_, (rung_once agrees acts).1⟩
  · have within : i < acts.length := by
      rw [← length_session acts s]
      exact (List.getElem?_eq_some_iff.1 told).1
    have act := List.getElem?_eq_getElem within
    obtain ⟨gone, returned, once, -⟩ := settled agrees fresh (acts.take (i + 1))
    have state : done.2 = after (acts.take (i + 1)) s := by
      rw [session_getElem? act] at told
      rw [List.take_add_one, act, Option.toList, after_snoc, ← Option.some.inj told]
    have sizes := once.length_eq
    rw [List.length_append, List.length_map, List.length_range', InFlight.length_ids] at sizes
    rw [state, returned, List.length_map]
    omega
  · obtain ⟨gone, returned, once, own⟩ := settled agrees fresh acts
    have numbers := (once.nodup_iff.2 List.nodup_range').of_append_left
    refine ⟨gone, returned, numbers, fun r hr => ⟨?_, own r hr⟩⟩
    have listed : r.1 ∈ List.range' 1 (opened acts).length :=
      once.subset (List.mem_append_left _ (List.mem_map_of_mem hr))
    exact (List.mem_range'_1.1 listed).1

/-- Three batches: the first is completed, twice, and the others are given up, one of them with
an alarm that has rung. -/
theorem batches_are_returned_once_cleared : ∃ s,
    ofLimit (.nat 2) = .ok s ∧
      Lawful [.openBatch [.nat 7] none, .complete (.nat 1), .complete (.nat 1),
        .openBatch [.nat 8] (some (.int 5)), .openBatch [.nat 9] none, .advance 5000, .clear] s ∧
      returned [.openBatch [.nat 7] none, .complete (.nat 1), .complete (.nat 1),
        .openBatch [.nat 8] (some (.int 5)), .openBatch [.nat 9] none, .advance 5000, .clear] s =
        [asRow (1, [.nat 7]), asRow (2, [.nat 8]), asRow (3, [.nat 9])] := by
  have new : ofLimit (.nat 2) = .ok { inFlight := { limit := .int 2 } } := by rfl
  exact ⟨_, new, batches_are_returned_once new _, by rfl⟩

end BatchWriter.InFlightSession
