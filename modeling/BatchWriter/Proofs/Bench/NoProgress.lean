import BatchWriter.Proofs.Bench.Reachable
import BatchWriter.Proofs.Writer.Unfed

/-!
# Moves without progress

What goes on beside the call that moves: calls are queued, woken, cancelled or started, but
none of them gets to another point of its program, no entry is accepted and no send answers.
Most of what a step does is of this kind, whatever state the bench is in.
-/

set_option autoImplicit false

namespace BatchWriter

/-- Only its cancellation makes a call go on. -/
def Status.Doomed (s : Status) : Prop := s = .queued true ∨ s = .waiting .forever

def Call.Gathers (c : Call) (child : Nat) : Prop :=
  ∃ left interrupted, c.status = .waiting (.calls left interrupted) ∧ child ∈ left

def Program.Begins : Program → Prop
  | .write job point => point = .start ∧ job.written = 0 ∧ job.published = []
  | .commit _ point => point = .start
  | .drainSends _ point => point = .start
  | .deliver _ | .send _ _ => False
  | _ => True

namespace Bench

def Ended (b : Bench) (id : Nat) : Prop := ∃ c : Call, b.calls[id]? = some c ∧ c.isEnded = true

def Lists (b : Bench) (i id : Nat) : Prop :=
  ∃ d : Destination, b.destinations[i]? = some d ∧ id ∈ d.pending

/-! Ids may have been on the lists before there were any calls. Of these `old` ids nothing is
said. -/

def anyId : Nat → Prop := fun _ => True

def Known (b : Bench) (old : Nat → Prop) : Prop :=
  ∀ i id : Nat, b.Lists i id → old id ∨ b.calls[id]? ≠ none

def Due (b : Bench) (old : Nat → Prop) : Callback → Prop
  | .forget _ child => b.Ended child
  | .gathered _ child => old child ∨ b.Ended child
  | _ => True

/-- Nothing is on the ready queues that is not due. -/
def Truthful (b : Bench) (old : Nat → Prop) : Prop :=
  ∀ (name : LoopName) (cb : Callback), cb ∈ (b.loop name).ready → b.Due old cb

def Begins (b : Bench) (id : Nat) : Program → Prop
  | .send job point => point = .start ∧ b.Lists job.destination id
  | p => p.Begins

/-- How the status of a call may alter while others move. -/
inductive Alters (b : Bench) (old : Nat → Prop) : Status → Status → Prop
  | changed : Alters b old (.waiting .change) (.queued false)
  | rung : Alters b old (.waiting .alarm) (.queued false)
  | recalled {r : Bool} : Alters b old (.queued r) (.queued true)
  | cancelled {on : Wait} (alone : ∀ left r, on ≠ .calls left r) :
      Alters b old (.waiting on) (.queued true)
  | flagged {left : List Nat} {r : Bool} :
      Alters b old (.waiting (.calls left r)) (.waiting (.calls left true))
  | counted {left : List Nat} {r : Bool} {child : Nat} (due : old child ∨ b.Ended child) :
      Alters b old (.waiting (.calls left r)) (.waiting (.calls (left.filter (· ≠ child)) r))
  | gathered {left : List Nat} {r : Bool} {child : Nat} (due : old child ∨ b.Ended child)
      (last : left.filter (· ≠ child) = []) : Alters b old (.waiting (.calls left r)) (.queued r)

structure Keeps (b : Bench) (old : Nat → Prop) (c c' : Call) : Prop where
  program : c'.program = c.program
  loop : c'.loop = c.loop
  ended : c'.isEnded = c.isEnded
  running : c'.status = .running ↔ c.status = .running
  queued : ∀ r, c.status = .queued r → ∃ r', c'.status = .queued r'
  doomed : c.status.Doomed → c'.status.Doomed
  gathers : ∀ child, c.Gathers child → (old child ∨ b.Ended child) ∨ c'.Gathers child

variable {old : Nat → Prop} {b b' b'' : Bench} {id i : Nat} {c c' : Call}

theorem known_any (b : Bench) : b.Known anyId := fun _ _ _ => .inl trivial

theorem ended_iff (hc : b.calls[id]? = some c) : b.Ended id ↔ c.isEnded = true := by
  simp [Ended, hc]

theorem Keeps.refl (b : Bench) (c : Call) : b.Keeps old c c :=
  ⟨rfl, rfl, rfl, .rfl, fun r h => ⟨r, h⟩, fun h => h, fun _ h => .inr h⟩

theorem Keeps.of_alters {s s' : Status} (was : c.status = s) (alters : b.Alters old s s') :
    b.Keeps old c { c with status := s' } := by
  refine ⟨rfl, rfl, ?_, ?_, ?_, fun doomed => ?_, ?_⟩
  · cases alters <;> simp [Call.isEnded, was]
  · cases alters <;> simp [was]
  · cases alters <;> simp [was]
  · cases alters with
    | recalled | cancelled _ => exact .inl rfl
    | changed | rung | flagged | counted _ | gathered _ _ => simp [Status.Doomed, was] at doomed
  · rintro child ⟨left, r, waits, hm⟩
    rw [was] at waits
    cases alters with
    | changed | rung | recalled => cases waits
    | cancelled alone =>
      cases waits
      exact absurd rfl (alone left r)
    | flagged =>
      cases waits
      exact .inr ⟨left, true, rfl, hm⟩
    | @counted _ _ other due =>
      cases waits
      by_cases same : child = other
      · subst same
        exact .inl due
      · exact .inr ⟨_, r, rfl, List.mem_filter.2 ⟨hm, by simpa using same⟩⟩
    | @gathered _ _ other due last =>
      cases waits
      have same := List.filter_eq_nil_iff.1 last child hm
      rw [decide_eq_true_eq, not_not] at same
      subst same
      exact .inl due

/-- From the one bench to the other no call gets on; new calls have not begun. -/
structure Stays (old : Nat → Prop) (b b' : Bench) : Prop where
  running : b'.running = b.running
  subscribers : b'.subscribers = b.subscribers
  kept : ∀ (id : Nat) (c : Call), b.calls[id]? = some c →
    ∃ c' : Call, b'.calls[id]? = some c' ∧ b.Keeps old c c'
  begun : ∀ (id : Nat) (c' : Call), b'.calls[id]? = some c' → b.calls[id]? = none →
    b'.Begins id c'.program ∧ c'.isEnded = false ∧ c'.status ≠ .running
  callbacks : ∀ (name : LoopName) (cb : Callback), cb ∈ (b'.loop name).ready →
    cb ∈ (b.loop name).ready ∨ b'.Due old cb
  /-- A send stays on its destination's list until it has ended. -/
  lists : ∀ (i id : Nat), b.Lists i id → b.Ended id ∨ b'.Lists i id
  known : b.Known old → b'.Known old

structure Unfed (b b' : Bench) : Prop where
  writers : ∀ (i : Nat) (w : Writer), b.writers[i]? = some w →
    ∃ w' : Writer, b'.writers[i]? = some w' ∧ w.Unfed w'
  built : ∀ (i : Nat) (w' : Writer), b'.writers[i]? = some w' → b.writers[i]? = none →
    ∃ w : Writer, w.Fresh ∧ w.Unfed w'

/-- From the one bench to the other no call gets on, no entry is accepted and no send
answers. -/
structure NoProgress (old : Nat → Prop) (b b' : Bench) : Prop
    extends Stays old b b', Unfed b b' where
  answers : b'.answers = b.answers

/-- Behind all calls there is the new one only. -/
theorem call_of_append {k : Nat} {c u : Call} (hk : (b.calls ++ [c])[k]? = some u)
    (none : b.calls[k]? = none) : k = b.calls.length ∧ u = c := by
  have high := List.getElem?_eq_none_iff.1 none
  rw [List.getElem?_append_right high] at hk
  obtain ⟨few, hu⟩ := List.getElem?_eq_some_iff.1 hk
  rw [List.length_singleton] at few
  exact ⟨by omega, by rw [← hu, List.getElem_singleton]⟩

namespace Stays

/-- What happens meanwhile ends no call and brings none back. -/
theorem ended (h : Stays old b b') (id : Nat) : b'.Ended id ↔ b.Ended id := by
  constructor
  · rintro ⟨c', hc', ends⟩
    cases hc : b.calls[id]? with
    | none =>
      rw [(h.begun id c' hc' hc).2.1] at ends
      cases ends
    | some c =>
      obtain ⟨c₂, hc₂, keeps⟩ := h.kept id c hc
      rw [hc', Option.some.injEq] at hc₂
      exact ⟨c, hc, keeps.ended.symm.trans (hc₂ ▸ ends)⟩
  · rintro ⟨c, hc, ends⟩
    obtain ⟨c', hc', keeps⟩ := h.kept id c hc
    exact ⟨c', hc', keeps.ended.trans ends⟩

theorem due (h : Stays old b b') {cb : Callback} (due : b.Due old cb) : b'.Due old cb := by
  cases cb with
  | forget _ child => exact (h.ended child).2 due
  | gathered _ child => exact due.imp_right (h.ended child).2
  | _ => trivial

/-- The calls, the loops and the destinations are what they were. -/
theorem of_same (running : b'.running = b.running) (subscribers : b'.subscribers = b.subscribers)
    (calls : b'.calls = b.calls) (main : b'.main = b.main) (alt : b'.alt = b.alt)
    (destinations : b'.destinations = b.destinations) : Stays old b b' where
  running := running
  subscribers := subscribers
  kept id c hc := ⟨c, calls ▸ hc, .refl b c⟩
  begun _ _ hc' none := by rw [calls, none] at hc'; cases hc'
  callbacks name cb hm := by
    have same : b'.loop name = b.loop name := by
      cases name with
      | main => exact main
      | alt => exact alt
    exact .inl (same ▸ hm)
  lists i id listed := by
    refine .inr ?_
    rw [Lists, destinations]
    exact listed
  known known i id listed := by
    rw [Lists, destinations] at listed
    rw [calls]
    exact known i id listed

theorem refl (b : Bench) : Stays old b b := .of_same rfl rfl rfl rfl rfl rfl

theorem begins (h : Stays old b b') {p : Program} (begins : b.Begins id p) (live : ¬ b.Ended id) :
    b'.Begins id p := by
  cases p with
  | send job point => exact ⟨begins.1, (h.lists _ _ begins.2).resolve_left live⟩
  | _ => exact begins

theorem trans (h : Stays old b b') (h' : Stays old b' b'') : Stays old b b'' where
  running := h'.running.trans h.running
  subscribers := h'.subscribers.trans h.subscribers
  kept id c hc := by
    obtain ⟨c', hc', keeps⟩ := h.kept id c hc
    obtain ⟨c'', hc'', keeps'⟩ := h'.kept id c' hc'
    refine ⟨c'', hc'', keeps'.program.trans keeps.program, keeps'.loop.trans keeps.loop,
      keeps'.ended.trans keeps.ended, keeps'.running.trans keeps.running, fun r queued => ?_,
      fun doomed => keeps'.doomed (keeps.doomed doomed), fun child gathers => ?_⟩
    · obtain ⟨r', queued⟩ := keeps.queued r queued
      exact keeps'.queued r' queued
    rcases keeps.gathers child gathers with ended | gathers
    · exact .inl ended
    · exact (keeps'.gathers child gathers).imp_left (.imp_right (h.ended child).1)
  begun id c'' hc'' none := by
    cases hc' : b'.calls[id]? with
    | none => exact h'.begun id c'' hc'' hc'
    | some c' =>
      obtain ⟨begins, live, still⟩ := h.begun id c' hc' none
      obtain ⟨c₂, hc₂, keeps⟩ := h'.kept id c' hc'
      rw [hc'', Option.some.injEq] at hc₂
      subst hc₂
      have running : ¬ b'.Ended id := by simp [ended_iff hc', live]
      exact ⟨keeps.program ▸ h'.begins begins running, keeps.ended.trans live,
        fun hr => still (keeps.running.1 hr)⟩
  callbacks name cb hm := by
    rcases h'.callbacks name cb hm with hm | due
    · exact (h.callbacks name cb hm).imp_right h'.due
    · exact .inr due
  lists i id listed := by
    rcases h.lists i id listed with ended | listed
    · exact .inl ended
    · exact (h'.lists i id listed).imp_left (h.ended id).1
  known known := h'.known (h.known known)

theorem called (h : Stays old b b') (known : b.calls[id]? ≠ none) : b'.calls[id]? ≠ none := by
  obtain ⟨c, hc⟩ := Option.ne_none_iff_exists'.1 known
  obtain ⟨c', hc', -⟩ := h.kept id c hc
  simp [hc']

/-- A call was there before, at the same point, or has not begun. -/
theorem origin (h : Stays old b b') {c' : Call} (hc' : b'.calls[id]? = some c') :
    (∃ c, b.calls[id]? = some c ∧ b.Keeps old c c') ∨
      b.calls[id]? = none ∧ b'.Begins id c'.program ∧ c'.isEnded = false ∧
        c'.status ≠ .running := by
  cases hc : b.calls[id]? with
  | none => exact .inr ⟨rfl, h.begun id c' hc' hc⟩
  | some c =>
    obtain ⟨c₂, hc₂, keeps⟩ := h.kept id c hc
    rw [hc', Option.some.injEq] at hc₂
    exact .inl ⟨c, rfl, hc₂ ▸ keeps⟩

end Stays

namespace Unfed

theorem of_writers (writers : b'.writers = b.writers) : Unfed b b' where
  writers _ w hw := ⟨w, writers ▸ hw, .refl w⟩
  built _ _ hw' none := by rw [writers, none] at hw'; cases hw'

theorem trans (h : Unfed b b') (h' : Unfed b' b'') : Unfed b b'' where
  writers i w hw := by
    obtain ⟨w', hw', unfed⟩ := h.writers i w hw
    obtain ⟨w'', hw'', unfed'⟩ := h'.writers i w' hw'
    exact ⟨w'', hw'', unfed.trans unfed'⟩
  built i w'' hw'' none := by
    cases hw' : b'.writers[i]? with
    | none => exact h'.built i w'' hw'' hw'
    | some w' =>
      obtain ⟨w, fresh, unfed⟩ := h.built i w' hw' none
      obtain ⟨w₂, hw₂, unfed'⟩ := h'.writers i w' hw'
      rw [hw'', Option.some.injEq] at hw₂
      subst hw₂
      exact ⟨w, fresh, unfed.trans unfed'⟩

/-- A writer was there before, and has accepted nothing since, or is new. -/
theorem origin (h : Unfed b b') {w' : Writer} (hw' : b'.writers[i]? = some w') :
    ∃ w : Writer, (b.writers[i]? = some w ∨ w.Fresh) ∧ w.Unfed w' := by
  cases hw : b.writers[i]? with
  | none =>
    obtain ⟨w, fresh, unfed⟩ := h.built i w' hw' hw
    exact ⟨w, .inr fresh, unfed⟩
  | some w =>
    obtain ⟨w₂, hw₂, unfed⟩ := h.writers i w hw
    rw [hw', Option.some.injEq] at hw₂
    exact ⟨w, .inl rfl, hw₂ ▸ unfed⟩

end Unfed

namespace NoProgress

/-- What is told, measured or set on the clock is of no account, nor are the buses. -/
theorem of_same (running : b'.running = b.running) (subscribers : b'.subscribers = b.subscribers)
    (answers : b'.answers = b.answers) (calls : b'.calls = b.calls) (main : b'.main = b.main)
    (alt : b'.alt = b.alt) (destinations : b'.destinations = b.destinations)
    (writers : b'.writers = b.writers) : NoProgress old b b' where
  toStays := .of_same running subscribers calls main alt destinations
  toUnfed := .of_writers writers
  answers := answers

theorem refl (b : Bench) : NoProgress old b b := of_same rfl rfl rfl rfl rfl rfl rfl rfl

theorem trans (h : NoProgress old b b') (h' : NoProgress old b' b'') : NoProgress old b b'' where
  toStays := h.toStays.trans h'.toStays
  toUnfed := h.toUnfed.trans h'.toUnfed
  answers := h'.answers.trans h.answers

end NoProgress

end Bench
end BatchWriter
