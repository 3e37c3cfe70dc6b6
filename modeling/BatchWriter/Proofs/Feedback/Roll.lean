import BatchWriter.Bench.Basic
import Mathlib.Data.List.Nodup
import Mathlib.Order.WellFounded

/-!
# Who is subscribed

What has been asked of the buses so far says who is subscribed to each: whoever has joined and has
not left since, in the order of joining. To join once more changes nothing.
-/

set_option autoImplicit false

namespace BatchWriter

inductive Ask where
  | join (bus name : String)
  | leave (bus name : String)
  deriving DecidableEq

namespace Ask

def roll (bus : String) (names : List String) : Ask → List String
  | join other name => if other = bus ∧ name ∉ names then names ++ [name] else names
  | leave other name => if other = bus then names.filter (· ≠ name) else names

variable {asked : List Ask} {a : Ask} {bus name : String} {names : List String} {i j : ℕ}

/-- It was asked at place `i` to join the bus, which was not joined already, and not asked since
to leave it. -/
structure Joined (asked : List Ask) (bus name : String) (i : ℕ) : Prop where
  here : asked[i]? = some (.join bus name)
  stays : ∀ j > i, asked[j]? ≠ some (.leave bus name)
  first : ∀ j < i, asked[j]? = some (.join bus name) →
    ∃ k, j < k ∧ k < i ∧ asked[k]? = some (.leave bus name)

/-- The names are those that have joined and not left, once each, in the order of joining. -/
structure Registered (asked : List Ask) (bus : String) (names : List String) : Prop where
  distinct : names.Nodup
  joined : ∀ name, name ∈ names ↔ ∃ i, Joined asked bus name i
  ordered : names.Pairwise fun x y =>
    ∀ i j, Joined asked bus x i → Joined asked bus y j → i < j

theorem Joined.lt (h : Joined asked bus name i) : i < asked.length :=
  (List.getElem?_eq_some_iff.1 h.here).1

/-- Whoever has joined and not left since has joined at some place first. -/
theorem exists_joined (join : asked[i]? = some (.join bus name))
    (stays : ∀ j > i, asked[j]? ≠ some (.leave bus name)) : ∃ j, Joined asked bus name j := by
  induction i using Nat.strong_induction_on with
  | _ i ih =>
    by_cases earlier : ∃ j < i, asked[j]? = some (.join bus name) ∧
        ∀ k > j, asked[k]? ≠ some (.leave bus name)
    · obtain ⟨j, before, again, since⟩ := earlier
      exact ih j before again since
    · refine ⟨i, join, stays, fun j before again => ?_⟩
      by_contra none
      refine earlier ⟨j, before, again, fun k after leave => ?_⟩
      refine none ⟨k, after, Nat.lt_of_le_of_ne (Nat.le_of_not_lt fun late => ?_) ?_, leave⟩
      · exact stays k late leave
      · rintro rfl
        rw [join] at leave
        cases leave

theorem getElem?_snoc_of_lt (h : i < asked.length) : (asked ++ [a])[i]? = asked[i]? :=
  List.getElem?_append_left h

theorem joined_snoc : Joined (asked ++ [a]) bus name i ↔
    (Joined asked bus name i ∧ a ≠ .leave bus name) ∨
      (i = asked.length ∧ a = .join bus name ∧ ¬ ∃ j, Joined asked bus name j) := by
  constructor
  · intro h
    have place : i < asked.length ∨ i = asked.length := by
      have := h.lt
      rw [List.length_append, List.length_singleton] at this
      omega
    rcases place with within | rfl
    · refine .inl ⟨⟨getElem?_snoc_of_lt within ▸ h.here, fun j after leave => ?_, ?_⟩, ?_⟩
      · have known := (List.getElem?_eq_some_iff.1 leave).1
        exact h.stays j after ((getElem?_snoc_of_lt known).trans leave)
      · intro j before join
        obtain ⟨k, after, until_, leave⟩ :=
          h.first j before ((getElem?_snoc_of_lt (before.trans within)).trans join)
        exact ⟨k, after, until_, getElem?_snoc_of_lt (until_.trans within) ▸ leave⟩
      · rintro rfl
        exact h.stays asked.length within (by simp)
    · have last : a = .join bus name := by simpa using h.here
      refine .inr ⟨rfl, last, ?_⟩
      rintro ⟨j, before⟩
      obtain ⟨k, after, within, leave⟩ :=
        h.first j before.lt ((getElem?_snoc_of_lt before.lt).trans before.here)
      exact before.stays k after (getElem?_snoc_of_lt within ▸ leave)
  · rintro (⟨h, other⟩ | ⟨rfl, rfl, none⟩)
    · refine ⟨(getElem?_snoc_of_lt h.lt).trans h.here, fun j after leave => ?_, ?_⟩
      · have place : j < asked.length ∨ j = asked.length := by
          have := (List.getElem?_eq_some_iff.1 leave).1
          rw [List.length_append, List.length_singleton] at this
          omega
        rcases place with within | rfl
        · exact h.stays j after (getElem?_snoc_of_lt within ▸ leave)
        · exact other (by simpa using leave)
      · intro j before join
        obtain ⟨k, after, until_, leave⟩ :=
          h.first j before (getElem?_snoc_of_lt (before.trans h.lt) ▸ join)
        exact ⟨k, after, until_, (getElem?_snoc_of_lt (until_.trans h.lt)).trans leave⟩
    · refine ⟨by simp, fun j after leave => ?_, fun j before join => ?_⟩
      · have := (List.getElem?_eq_some_iff.1 leave).1
        rw [List.length_append, List.length_singleton] at this
        omega
      · rw [getElem?_snoc_of_lt before] at join
        by_contra gone
        refine none (exists_joined join fun k after leave => gone ⟨k, after, ?_, ?_⟩)
        · exact (List.getElem?_eq_some_iff.1 leave).1
        · exact (getElem?_snoc_of_lt (List.getElem?_eq_some_iff.1 leave).1).trans leave

theorem joined_snoc_of_ne (join : a ≠ .join bus name) (leave : a ≠ .leave bus name) :
    Joined (asked ++ [a]) bus name i ↔ Joined asked bus name i := by
  rw [joined_snoc, and_iff_left leave]
  exact or_iff_left fun last => join last.2.1

namespace Registered

theorem init (bus : String) : Registered [] bus [] := by
  refine ⟨List.nodup_nil, fun name => iff_of_false List.not_mem_nil ?_, .nil⟩
  rintro ⟨i, h⟩
  exact absurd h.lt (Nat.not_lt_zero i)

theorem aside (h : Registered asked bus names)
    (same : ∀ name i, Joined (asked ++ [a]) bus name i ↔ Joined asked bus name i) :
    Registered (asked ++ [a]) bus names := by
  refine ⟨h.distinct, fun name => ?_, h.ordered.imp fun before i j hi hj => ?_⟩
  · rw [h.joined]
    exact exists_congr fun i => (same name i).symm
  · exact before i j ((same _ i).1 hi) ((same _ j).1 hj)

theorem join (h : Registered asked bus names) (name : String) :
    Registered (asked ++ [.join bus name]) bus
      (if name ∉ names then names ++ [name] else names) := by
  split
  · next absent =>
    have none : ¬ ∃ j, Joined asked bus name j := fun joined => absent ((h.joined name).2 joined)
    have joined : ∀ other i, Joined (asked ++ [.join bus name]) bus other i ↔
        Joined asked bus other i ∨ i = asked.length ∧ other = name := by
      intro other i
      rw [joined_snoc, and_iff_left (by nofun)]
      refine or_congr_right (and_congr_right fun _ => ⟨?_, ?_⟩)
      · rintro ⟨same, -⟩
        cases same
        rfl
      · rintro rfl
        exact ⟨rfl, none⟩
    refine ⟨?_, fun other => ?_, ?_⟩
    · exact List.nodup_append.2 ⟨h.distinct, List.nodup_singleton _, fun x hx y hy same =>
        absent (List.mem_singleton.1 hy ▸ same ▸ hx)⟩
    · rw [List.mem_append, List.mem_singleton, h.joined]
      simp only [joined, exists_or, exists_eq_left]
    · refine List.pairwise_append.2 ⟨?_, List.pairwise_singleton _ _, fun x hx y hy i j hi hj => ?_⟩
      · refine h.ordered.imp_of_mem fun {x y} hx hy before i j hi hj => ?_
        have old : ∀ {z k}, z ∈ names → Joined (asked ++ [.join bus name]) bus z k →
            Joined asked bus z k := fun {z k} hz hk =>
          ((joined z k).1 hk).resolve_right fun last => absent (last.2 ▸ hz)
        exact before i j (old hx hi) (old hy hj)
      · obtain rfl := List.mem_singleton.1 hy
        rcases (joined x i).1 hi with old | ⟨-, rfl⟩
        · rcases (joined y j).1 hj with again | ⟨rfl, -⟩
          · exact absurd ⟨j, again⟩ none
          · exact old.lt
        · exact absurd hx absent
  · next present =>
    refine h.aside fun other i => ?_
    rw [joined_snoc, and_iff_left (by nofun)]
    refine or_iff_left ?_
    rintro ⟨-, same, none⟩
    cases same
    exact none ((h.joined name).1 (not_not.1 present))

theorem leave (h : Registered asked bus names) (name : String) :
    Registered (asked ++ [.leave bus name]) bus (names.filter (· ≠ name)) := by
  have joined : ∀ other i, Joined (asked ++ [.leave bus name]) bus other i ↔
      Joined asked bus other i ∧ other ≠ name := by
    intro other i
    rw [joined_snoc]
    constructor
    · rintro (⟨old, stays⟩ | ⟨-, same, -⟩)
      · exact ⟨old, fun same => stays (same ▸ rfl)⟩
      · cases same
    · rintro ⟨old, apart⟩
      refine .inl ⟨old, fun same => apart ?_⟩
      cases same
      rfl
  refine ⟨h.distinct.filter _, fun other => ?_, ?_⟩
  · simp only [joined, List.mem_filter, h.joined, decide_eq_true_eq, exists_and_right]
  · refine (h.ordered.filter _).imp fun before i j hi hj => ?_
    exact before i j ((joined _ i).1 hi).1 ((joined _ j).1 hj).1

theorem snoc (h : Registered asked bus names) (a : Ask) :
    Registered (asked ++ [a]) bus (a.roll bus names) := by
  cases a with
  | join other name =>
    by_cases same : other = bus
    · subst same
      simpa [roll] using h.join name
    · rw [roll, if_neg fun both => same both.1]
      exact h.aside fun _ _ => joined_snoc_of_ne (by simp [same]) nofun
  | leave other name =>
    by_cases same : other = bus
    · subst same
      simpa [roll] using h.leave name
    · rw [roll, if_neg same]
      exact h.aside fun _ _ => joined_snoc_of_ne nofun (by simp [same])

end Registered
end Ask

namespace Bench

open Ask (Registered)

variable {b : Bench} {bus : String}

def ask (b : Bench) : Ask → Bench
  | .join bus name => b.subscribe bus name
  | .leave bus name => b.unsubscribe bus name

theorem subscribersOf_openBus (b : Bench) (bus other : String) :
    (b.openBus bus).subscribersOf other = b.subscribersOf other := by
  have ensured : ({ b with buses := b.buses.ensure bus [] } : Bench).subscribersOf other =
      b.subscribersOf other := Ledger.getD_ensure _ _ _ _
  unfold openBus
  split
  · rfl
  · dsimp only
    split <;> exact ensured

theorem subscribersOf_alter (b : Bench) (bus other : String) (f : List String → List String) :
    ({ b with buses := b.buses.alter bus [] f } : Bench).subscribersOf other =
      if bus = other then f (b.subscribersOf other) else b.subscribersOf other := by
  unfold subscribersOf Ledger.getD
  split
  · next same =>
    subst same
    rw [Ledger.get?_alter_self]
    rfl
  · next apart => rw [Ledger.get?_alter_of_ne _ fun same => apart same.symm]

/-- What is asked of the buses becomes of their subscribers. -/
theorem subscribersOf_ask (b : Bench) (a : Ask) (bus : String) :
    (b.ask a).subscribersOf bus = a.roll bus (b.subscribersOf bus) := by
  cases a with
  | join other name =>
    simp only [ask, subscribe, Ask.roll]
    split
    · next known =>
      rw [subscribersOf_openBus] at known ⊢
      rw [if_neg]
      rintro ⟨rfl, absent⟩
      exact absent (List.contains_iff_mem.1 known)
    · next unknown =>
      rw [subscribersOf_openBus] at unknown
      refine (subscribersOf_alter _ _ _ _).trans ?_
      rw [subscribersOf_openBus]
      by_cases same : other = bus
      · subst same
        rw [if_pos rfl, if_pos ⟨rfl, fun known => unknown (List.contains_iff_mem.2 known)⟩]
      · rw [if_neg same, if_neg fun both => same both.1]
  | leave other name =>
    simp only [ask, unsubscribe, Ask.roll]
    split
    · next known =>
      refine (subscribersOf_alter _ _ _ _).trans ?_
      rw [subscribersOf_openBus]
    · next unknown =>
      rw [subscribersOf_openBus] at unknown ⊢
      split
      · next same =>
        subst same
        refine (List.filter_eq_self.2 fun x hx => ?_).symm
        rw [decide_eq_true_eq]
        rintro rfl
        exact unknown (List.contains_iff_mem.2 hx)
      · rfl

end Bench
end BatchWriter
