import BatchWriter.Buffer
import BatchWriter.Proofs.InFlight

/-!
# Equations of a buffer

Entries are put back one by one and taken out one by one. What comes of it is said here in terms
of the list of entries, and from that follow the equations between the operations: what is taken
can be put back, and taking in parts is taking at once.
-/

set_option autoImplicit false

namespace BatchWriter.Buffer

variable {α : Type}

theorem takeCount_of_whole {limit : Number} {n : Int} (whole : limit.whole? = some n) (size : Nat) :
    takeCount limit size = .ok (min n.toNat size) := by
  cases limit with
  | int m =>
    cases whole
    exact takeCount_int _ _
  | bool t =>
    cases whole
    exact (takeCount_bool t size).trans (takeCount_int _ _)
  | float x => cases whole

/-- A whole limit takes that many entries from the head, or all there are. -/
theorem take_of_whole {limit : Number} {n : Int} (whole : limit.whole? = some n) (b : Buffer α) :
    b.take limit =
      .ok (b.entries.take n.toNat, { b with entries := b.entries.drop n.toNat }) := by
  have front : b.entries.take (min n.toNat b.size) = b.entries.take n.toNat :=
    List.take_eq_take_min.symm
  have back : b.entries.drop (min n.toNat b.size) = b.entries.drop n.toNat := by
    rw [List.drop_eq_drop_iff, size, Nat.min_assoc, Nat.min_self]
  rw [take_eq, takeCount_of_whole whole, Except.map, front, back]

def Takes (b : Buffer α) (n : Int) (taken : List α) (rest : Buffer α) : Prop :=
  ∀ limit : Number, limit.whole? = some n → b.take limit = .ok (taken, rest)

structure Equations (b : Buffer α) : Prop where
  /-- Taking twice is taking the sum at once. -/
  take_take : ∀ m n : Int, 0 ≤ m → 0 ≤ n → ∃ xs ys between rest,
    b.Takes m xs between ∧ between.Takes n ys rest ∧ b.Takes (m + n) (xs ++ ys) rest
  /-- What was taken can be put back, be it all there was. -/
  prepend_take : ∀ n : Int, ∃ xs rest, b.Takes n xs rest ∧ rest.prepend xs = b
  prepend_prepend : ∀ xs ys : List α, (b.prepend ys).prepend xs = b.prepend (xs ++ ys)
  append_prepend : ∀ (x : α) (xs : List α), (b.prepend xs).append x = (b.append x).prepend xs
  /-- A new entry does not matter to whoever takes no more than was there before it. -/
  append_take : ∀ (x : α) (n : Int), n ≤ b.size → ∃ xs rest,
    b.Takes n xs rest ∧ (b.append x).Takes n xs (rest.append x)
  take_nothing : ∀ n : Int, n ≤ 0 → b.Takes n [] b

theorem takes (b : Buffer α) (n : Int) :
    b.Takes n (b.entries.take n.toNat) { b with entries := b.entries.drop n.toNat } :=
  fun _ whole => take_of_whole whole b

theorem takes_append_of_le (b : Buffer α) (x : α) {n : Int} (within : n ≤ b.size) :
    (b.append x).Takes n (b.entries.take n.toNat)
      ({ b with entries := b.entries.drop n.toNat }.append x) := by
  have within : n.toNat ≤ b.entries.length := Int.toNat_le.2 within
  have all := (b.append x).takes n
  rwa [entries_append, List.take_append_of_le_length within,
    List.drop_append_of_le_length within] at all

theorem equations (b : Buffer α) : b.Equations where
  take_take m n hm hn := by
    have sum := b.takes (m + n)
    rw [Int.toNat_add hm hn, List.take_add, ← List.drop_drop] at sum
    exact ⟨_, _, _, _, b.takes m, takes _ n, sum⟩
  prepend_take n := by
    refine ⟨_, _, b.takes n, ?_⟩
    rw [prepend_eq, List.take_append_drop]
  prepend_prepend xs ys := by
    rw [prepend_eq, prepend_eq, prepend_eq, List.append_assoc]
  append_prepend x xs := by
    rw [prepend_eq, prepend_eq, append, append, List.append_assoc]
  append_take x n within := ⟨_, _, b.takes n, b.takes_append_of_le x within⟩
  take_nothing n none := by
    have all := b.takes n
    rwa [Int.toNat_of_nonpos none] at all

end BatchWriter.Buffer
