import BatchWriter.Timetable
import Mathlib.Data.List.Nodup
import Mathlib.Order.Nat

/-!
# Alarms of a timetable

The alarm that rings next is set, and no other is due before it. Among several that are due at
that instant the order in which they ring is left open.
-/

set_option autoImplicit false

namespace BatchWriter

theorem delayMicroseconds_pos {seconds : Binary64} {delay : Nat}
    (accepted : delayMicroseconds seconds = .ok (some delay)) : 0 < delay := by
  unfold delayMicroseconds at accepted
  dsimp only at accepted
  split at accepted
  · cases accepted
  · split at accepted <;> cases accepted
    exact Nat.one_pos
  · simp only [Except.ok.injEq, Option.map_eq_some_iff] at accepted
    obtain ⟨n, -, rfl⟩ := accepted
    omega

theorem Number.delaySeconds_pos {limit : Number} {delay : Nat}
    (accepted : limit.delaySeconds = .ok (some delay)) : 0 < delay := by
  unfold delaySeconds at accepted
  split at accepted
  · exact delayMicroseconds_pos accepted
  · cases accepted

theorem Number.delayMilliseconds_pos {limit : Number} {delay : Nat}
    (accepted : limit.delayMilliseconds = .ok (some delay)) : 0 < delay := by
  unfold delayMilliseconds at accepted
  split at accepted
  · exact delayMicroseconds_pos accepted
  · cases accepted

def Alarm.isDue {α : Type} (instant : Nat) (a : Alarm α) : Bool := a.due.any (· ≤ instant)

theorem Alarm.isDue_iff {α : Type} {instant : Nat} {a : Alarm α} :
    a.isDue instant = true ↔ ∃ due ≤ instant, a.due = some due := by
  cases h : a.due <;> simp [isDue, h]

namespace Timetable

variable {α : Type} {t : Timetable α}

theorem earlier_eq (a b : Alarm α) : earlier a b = a ∨ earlier a b = b := by
  unfold earlier
  split
  · split <;> simp
  · exact .inr rfl
  · exact .inl rfl

theorem foldl_earlier_mem (rest : List (Alarm α)) (a : Alarm α) :
    rest.foldl earlier a ∈ a :: rest := by
  induction rest generalizing a with
  | nil => exact List.mem_cons_self
  | cons x rest ih =>
    rw [List.foldl_cons]
    rcases earlier_eq a x with same | same
    · rw [same]
      exact List.cons_subset_cons a (List.subset_cons_self x rest) (ih a)
    · rw [same]
      exact List.mem_cons_of_mem a (ih x)

theorem mem_of_next? {a : Alarm α} (first : t.next? = some a) : a ∈ t.alarms := by
  unfold next? at first
  split at first
  · cases first
  · next y rest alarms =>
    rw [alarms, ← Option.some.inj first]
    exact foldl_earlier_mem rest y

theorem earlier_le (a b : Alarm α) {due : Nat} (set : a.due = some due ∨ b.due = some due) :
    ∃ first ≤ due, (earlier a b).due = some first := by
  unfold earlier
  split
  · next x y hx hy =>
    rw [hx, hy, Option.some.injEq, Option.some.injEq] at set
    split
    · exact ⟨y, by omega, hy⟩
    · exact ⟨x, by omega, hx⟩
  · next y hx hy =>
    have same : y = due := by simpa [hx, hy] using set
    exact ⟨y, same.le, hy⟩
  · next hy =>
    rw [hy] at set
    exact ⟨due, le_rfl, by simpa using set⟩

theorem foldl_earlier_le (rest : List (Alarm α)) (a : Alarm α) {due : Nat}
    (set : a.due = some due ∨ ∃ x ∈ rest, x.due = some due) :
    ∃ first ≤ due, (rest.foldl earlier a).due = some first := by
  induction rest generalizing a due with
  | nil => exact ⟨due, le_rfl, by simpa using set⟩
  | cons x rest ih =>
    rw [List.foldl_cons]
    simp only [List.mem_cons, exists_eq_or_imp] at set
    have sooner : ∀ {due : Nat}, a.due = some due ∨ x.due = some due →
        ∃ first ≤ due, (rest.foldl earlier (earlier a x)).due = some first := fun set => by
      obtain ⟨first, early, set⟩ := earlier_le a x set
      obtain ⟨least, earliest, set⟩ := ih (earlier a x) (.inl set)
      exact ⟨least, earliest.trans early, set⟩
    rcases set with set | set | set
    · exact sooner (.inl set)
    · exact sooner (.inr set)
    · exact ih _ (.inr set)

theorem next?_first {a x : Alarm α} (first : t.next? = some a) (set : x ∈ t.alarms) {due : Nat}
    (later : x.due = some due) : ∃ earliest ≤ due, a.due = some earliest := by
  unfold next? at first
  split at first
  · cases first
  · next y rest alarms =>
    rw [alarms] at set
    rw [← Option.some.inj first]
    rcases List.mem_cons.1 set with rfl | set
    · exact foldl_earlier_le _ _ (.inl later)
    · exact foldl_earlier_le _ _ (.inr ⟨x, set, later⟩)

def Distinct (t : Timetable α) : Prop := (t.alarms.map Alarm.action).Nodup

theorem Distinct.filter (h : t.Distinct) (p : Alarm α → Bool) (now : Nat) :
    Distinct ⟨now, t.alarms.filter p⟩ :=
  h.sublist (List.filter_sublist.map _)

theorem Distinct.unique (h : t.Distinct) {a x : Alarm α} (ha : a ∈ t.alarms) (hx : x ∈ t.alarms)
    (same : a.action = x.action) : a = x :=
  List.inj_on_of_nodup_map h ha hx same

variable [DecidableEq α]

/-- One of the alarms that are due first rings, by an instant: it leaves the timetable, and the
clock stands at its due time. Of alarms that are due at one instant any may be the one. -/
def Rings (t : Timetable α) (limit : Nat) (action : α) (rung : Timetable α) : Prop :=
  ∃ due ≤ limit, ⟨some due, action⟩ ∈ t.alarms ∧
    (∀ a ∈ t.alarms, ∀ other, a.due = some other → due ≤ other) ∧
    rung = { t.cancel action with now := max t.now due }

theorem rings_of_ring? {rung : Timetable α} {limit : Nat} {r : α}
    (rings : t.ring? limit = some (r, rung)) : t.Rings limit r rung := by
  unfold ring? at rings
  split at rings
  · next due action first =>
    split at rings
    · next early =>
      cases rings
      refine ⟨due, early, mem_of_next? first, fun a set other later => ?_, rfl⟩
      obtain ⟨earliest, sooner, same⟩ := next?_first first set later
      cases same
      exact sooner
    · cases rings
  · cases rings

def ringAt? (t : Timetable α) (limit place : Nat) : Option (α × Timetable α) :=
  match t.alarms[place]? with
  | some ⟨some due, action⟩ =>
    if due ≤ limit ∧ t.alarms.all (fun a => a.due.all (due ≤ ·)) = true then
      some (action, { t.cancel action with now := max t.now due })
    else none
  | _ => none

theorem rings_iff_ringAt? {rung : Timetable α} {limit : Nat} {r : α} :
    t.Rings limit r rung ↔ ∃ place, t.ringAt? limit place = some (r, rung) := by
  have first : ∀ due, t.alarms.all (fun a => a.due.all (due ≤ ·)) = true ↔
      ∀ a ∈ t.alarms, ∀ other, a.due = some other → due ≤ other := by simp [Option.all_eq_true]
  constructor
  · rintro ⟨due, early, set, sooner, rfl⟩
    obtain ⟨place, known⟩ := List.getElem?_of_mem set
    exact ⟨place, by simp only [ringAt?, known, first, if_pos (And.intro early sooner)]⟩
  · rintro ⟨place, rings⟩
    unfold ringAt? at rings
    split at rings
    · next due action known =>
      split at rings
      · next both =>
        cases rings
        exact ⟨due, both.1, List.mem_of_getElem? known, (first due).1 both.2, rfl⟩
      · cases rings
    · cases rings

theorem foldl_cancel {β : Type} (f : β → α) (xs : List β) (t : Timetable α) :
    xs.foldl (fun t x => t.cancel (f x)) t =
      { t with alarms := t.alarms.filter fun a => a.action ∉ xs.map f } := by
  induction xs generalizing t with
  | nil => simp
  | cons x rest ih =>
    rw [List.foldl_cons, ih, cancel, List.filter_filter]
    congr 1
    refine List.filter_congr fun a _ => ?_
    by_cases own : a.action = f x <;> simp [own]

theorem later_of_silent {limit : Nat} (silent : t.ring? limit = none) {x : Alarm α}
    (set : x ∈ t.alarms) {due : Nat} (later : x.due = some due) : limit < due := by
  obtain ⟨a, next⟩ : ∃ a, t.next? = some a := by
    unfold next?
    split
    · next none => rw [none] at set; cases set
    · exact ⟨_, rfl⟩
  obtain ⟨earliest, early, rings⟩ := next?_first next set later
  obtain ⟨due', action⟩ := a
  subst rings
  simp only [ring?, next] at silent
  split at silent
  · cases silent
  · omega

/-- An alarm that is due has left when it rings and when all that are due have rung. -/
theorem filter_isDue_cancel (distinct : t.Distinct) {id : α} {due limit : Nat}
    (set : ⟨some due, id⟩ ∈ t.alarms) (early : due ≤ limit) :
    (t.cancel id).alarms.filter (fun a => !a.isDue limit) =
      t.alarms.filter fun a => !a.isDue limit := by
  rw [cancel, List.filter_filter]
  refine List.filter_congr fun a ha => ?_
  by_cases own : a.action = id
  · rw [distinct.unique ha set own]
    simp [Alarm.isDue, early]
  · simp [own]

theorem filter_isDue_of_silent {limit : Nat} (silent : t.ring? limit = none) :
    t.alarms.filter (fun a => !a.isDue limit) = t.alarms := by
  refine List.filter_eq_self.2 fun a ha => ?_
  rw [Bool.not_eq_true', Bool.eq_false_iff, ne_eq, Alarm.isDue_iff]
  rintro ⟨due, early, set⟩
  exact absurd (later_of_silent silent ha set) (Nat.not_lt.2 early)

theorem Rings.early {limit : Nat} {r : α} {rung : Timetable α} (rings : t.Rings limit r rung)
    (moves : rung.now ≠ t.now) {x : Alarm α} (set : x ∈ t.alarms) {due : Nat}
    (later : x.due = some due) : rung.now ≤ due := by
  obtain ⟨first, -, -, sooner, rfl⟩ := rings
  have before := sooner x set due later
  dsimp only at moves ⊢
  omega

end Timetable
end BatchWriter
