import BatchWriter.InFlight
import Mathlib.Data.List.Nodup

/-!
# Bounded batches

The ids of the open batches are distinct and were all issued, and there is room below
the limit for every batch that is open. Nothing here checks the limit: whoever opens a
batch has to know that there is room.
-/

set_option autoImplicit false

namespace BatchWriter

/-- The whole number that a limit stands for; a double stands for none. -/
def Number.whole? : Number → Option Int
  | .int n => some n
  | .bool b => some (if b then 1 else 0)
  | .float _ => none

/-- A whole limit compares like the whole number it stands for. -/
theorem Number.compare?_of_whole {limit : Number} {n : Int} (h : limit.whole? = some n)
    (a : Number) : a.compare? limit = a.compare? (.int n) ∧
      limit.compare? a = (Number.int n).compare? a := by
  cases limit with
  | int m => simp only [whole?, Option.some.injEq] at h; subst h; exact ⟨rfl, rfl⟩
  | bool b =>
    simp only [whole?, Option.some.injEq] at h
    subst h
    exact ⟨rfl, rfl⟩
  | float x => cases h

theorem Number.lt_of_whole {limit : Number} {n : Int} (h : limit.whole? = some n) (a : Int) :
    (Number.int a).lt limit = decide (a < n) := by
  rw [← Number.lt_int, Number.lt, (compare?_of_whole h _).1, Number.lt]

theorem Number.le_of_whole {limit : Number} {n : Int} (h : limit.whole? = some n) (a : Int) :
    limit.le (.int a) = decide (n ≤ a) := by
  rw [← Number.le_int, Number.le, (compare?_of_whole h _).2, Number.le]

namespace InFlight

variable {α : Type} {t : InFlight α}

def ids (t : InFlight α) : List Nat := t.requests.map (·.id)

structure Sound (t : InFlight α) : Prop where
  distinct : t.ids.Nodup
  issued : ∀ id ∈ t.ids, id ≤ t.issued
  room : ∀ n < t.count, (Number.ofNat n).lt t.limit = true

theorem length_ids (t : InFlight α) : t.ids.length = t.count := List.length_map ..

theorem mem_ids_of_find? {id : Nat} {r : Request α} (h : t.find? id = some r) :
    id ∈ t.ids ∧ r.id = id := by
  have hid : r.id = id := by simpa using List.find?_some h
  exact ⟨List.mem_map.2 ⟨r, List.mem_of_find?_eq_some h, hid⟩, hid⟩

theorem find?_of_not_mem {id : Nat} (h : id ∉ t.ids) : t.find? id = none := by
  cases found : t.find? id with
  | none => rfl
  | some r => exact absurd (mem_ids_of_find? found).1 h

theorem find?_of_mem {id : Nat} (h : id ∈ t.ids) : ∃ r, t.find? id = some r := by
  obtain ⟨r, isOpen, same⟩ := List.mem_map.1 h
  refine Option.ne_none_iff_exists'.1 fun none => ?_
  have other := List.find?_eq_none.1 none r isOpen
  simp [same] at other

theorem ids_openBatch (entries : List α) (now : Nat) :
    (t.openBatch entries now).2.ids = t.ids ++ [t.issued + 1] := by
  simp [openBatch, ids]

theorem ids_remove (id : Nat) : (t.remove id).ids = t.ids.filter (· ≠ id) := by
  simp only [remove, ids, List.filter_map]
  congr 1
  apply List.filter_congr
  intro r _
  by_cases h : r.id = id <;> simp [h]

theorem ids_update (id : Nat) (f : Request α → Request α) (hf : ∀ r, (f r).id = r.id) :
    (t.update id f).ids = t.ids := by
  simp only [update, ids, List.map_map]
  apply List.map_congr_left
  intro r _
  simp only [Function.comp]
  split
  · exact hf r
  · rfl

/-- What is asked of a batch that its update does not concern. -/
theorem exists_update (id : Nat) {f : Request α → Request α} {P : Request α → Prop}
    (same : ∀ r, P (f r) ↔ P r) :
    (∃ r ∈ (t.update id f).requests, P r) ↔ ∃ r ∈ t.requests, P r := by
  have each : ∀ r, P (if r.id = id then f r else r) ↔ P r := fun r => by
    split
    · exact same r
    · exact .rfl
  simp only [update, List.mem_map]
  constructor
  · rintro ⟨_, ⟨r, hr, rfl⟩, h⟩
    exact ⟨r, hr, (each r).1 h⟩
  · rintro ⟨r, hr, h⟩
    exact ⟨_, ⟨r, hr, rfl⟩, (each r).2 h⟩

/-- Every batch that was issued already has the entries that it had, unless somebody has
emptied its list. -/
def Carries (t t' : InFlight α) : Prop :=
  ∀ r' ∈ t'.requests, r'.id ≤ t.issued →
    ∃ r ∈ t.requests, r.id = r'.id ∧ (r'.entries = r.entries ∨ r'.entries = [])

namespace Carries

variable {t' t'' : InFlight α}

theorem of_subset (h : ∀ r ∈ t'.requests, r ∈ t.requests) : t.Carries t' :=
  fun r hr _ => ⟨r, h r hr, rfl, .inl rfl⟩

theorem refl (t : InFlight α) : t.Carries t := of_subset fun _ h => h

theorem trans (h : t.Carries t') (h' : t'.Carries t'') (hi : t.issued ≤ t'.issued) :
    t.Carries t'' := by
  intro r'' hr'' hid
  obtain ⟨r', hr', same', entries'⟩ := h' r'' hr'' (Nat.le_trans hid hi)
  obtain ⟨r, hr, same, entries⟩ := h r' hr' (same' ▸ hid)
  refine ⟨r, hr, same.trans same', ?_⟩
  rcases entries' with e' | e'
  · rw [e']
    exact entries
  · exact .inr e'

theorem update (id : Nat) {f : Request α → Request α} (hf : ∀ r, (f r).id = r.id)
    (he : ∀ r, (f r).entries = r.entries ∨ (f r).entries = []) : t.Carries (t.update id f) := by
  intro r' hr' _
  obtain ⟨r, hr, rfl⟩ := List.mem_map.1 hr'
  refine ⟨r, hr, ?_⟩
  split
  · exact ⟨(hf r).symm, he r⟩
  · exact ⟨rfl, .inl rfl⟩

theorem remove (id : Nat) : t.Carries (t.remove id) := of_subset fun _ h => List.mem_of_mem_filter h

theorem openBatch (entries : List α) (now : Nat) : t.Carries (t.openBatch entries now).2 := by
  intro r hr hid
  rcases List.mem_append.1 hr with hr | hr
  · exact ⟨r, hr, rfl, .inl rfl⟩
  · rw [List.mem_singleton.1 hr] at hid
    simp only at hid
    omega

end Carries

theorem Sound.of_ids {t' : InFlight α} (h : t.Sound) (hi : t'.ids = t.ids)
    (hn : t'.issued = t.issued) (hl : t'.limit = t.limit) : t'.Sound where
  distinct := by rw [hi]; exact h.distinct
  issued := by rw [hi, hn]; exact h.issued
  room := by
    intro n hc
    rw [hl]
    rw [← length_ids, hi, length_ids] at hc
    exact h.room n hc

theorem Sound.opened {t' : InFlight α} (h : t.Sound) (hr : t.hasCapacity = true)
    (hi : t'.ids = t.ids ++ [t.issued + 1]) (hn : t'.issued = t.issued + 1)
    (hl : t'.limit = t.limit) : t'.Sound where
  distinct := by
    rw [hi, List.nodup_append]
    refine ⟨h.distinct, List.nodup_singleton _, ?_⟩
    intro a ha b hb
    have hle := h.issued a ha
    rw [List.mem_singleton.1 hb]
    omega
  issued := by
    intro id hid
    rw [hi] at hid
    rcases List.mem_append.1 hid with ha | ha
    · have := h.issued id ha
      omega
    · exact Nat.le_of_eq ((List.mem_singleton.1 ha).trans hn.symm)
  room := by
    intro n hc
    rw [← length_ids, hi, List.length_append, length_ids] at hc
    simp only [List.length_singleton] at hc
    rw [hl]
    by_cases he : n = t.count
    · rw [he]; exact hr
    · exact h.room n (by omega)

theorem Sound.filtered {t' : InFlight α} {p : Nat → Bool} (h : t.Sound)
    (hi : t'.ids = t.ids.filter p) (hn : t'.issued = t.issued) (hl : t'.limit = t.limit) :
    t'.Sound where
  distinct := by rw [hi]; exact h.distinct.filter _
  issued := by
    intro id hid
    rw [hi] at hid
    rw [hn]
    exact h.issued id (List.mem_of_mem_filter hid)
  room := by
    intro n hc
    rw [← length_ids, hi] at hc
    have hle : (t.ids.filter p).length ≤ t.ids.length := List.length_filter_le _ _
    rw [length_ids] at hle
    rw [hl]
    exact h.room n (by omega)

theorem Sound.filter_ids (h : t.Sound) (id : Nat) : t.ids.filter (· ≠ id) = t.ids.erase id := by
  rw [h.distinct.erase_eq_filter]
  apply List.filter_congr
  intro a _
  by_cases ha : a = id <;> simp [ha]

/-- Closing an open batch frees exactly one slot. -/
theorem Sound.count_remove {id : Nat} (h : t.Sound) (hm : id ∈ t.ids) :
    (t.remove id).count + 1 = t.count := by
  rw [← length_ids, ids_remove, ← length_ids, h.filter_ids, List.length_erase_of_mem hm]
  have := List.length_pos_of_mem hm
  omega

theorem Sound.hasCapacity_remove {id : Nat} (h : t.Sound) (hm : id ∈ t.ids) :
    (t.remove id).hasCapacity = true :=
  h.room _ (by have := h.count_remove hm; omega)

/-- At a whole limit, no more batches are open than the limit allows. -/
theorem Sound.count_le {limit : Int} (h : t.Sound) (hl : t.limit.whole? = some limit)
    (hp : 0 ≤ limit) : (t.count : Int) ≤ limit := by
  cases hc : t.count with
  | zero => simpa using hp
  | succ n =>
    have hr := h.room n (by omega)
    rw [Number.ofNat, Number.lt_of_whole hl, decide_eq_true_eq] at hr
    push_cast
    omega

/-- At a whole limit, a free slot is missing exactly when the limit is reached. -/
theorem Sound.count_eq {limit : Int} (h : t.Sound) (hl : t.limit.whole? = some limit)
    (hp : 0 ≤ limit) (hc : t.hasCapacity = false) : (t.count : Int) = limit := by
  have hle := h.count_le hl hp
  rw [hasCapacity, Number.ofNat, Number.lt_of_whole hl, decide_eq_false_iff_not] at hc
  omega

end InFlight
end BatchWriter
