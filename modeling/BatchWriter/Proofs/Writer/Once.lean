import BatchWriter.Proofs.Writer.Lawful
import BatchWriter.Proofs.Writer.Motion

/-!
# One outcome per batch

Every batch that was issued is open or has ended, and none has ended twice: whatever ends a
batch takes it off the open ones, and what comes later finds it no more.
-/

set_option autoImplicit false

namespace BatchWriter
namespace History

def endings (h : History) : List Nat := h.filterMap fun e => e.2.ended?

variable {h : History} {m : Milestone} {batch : Nat}

theorem endings_cons (now : Nat) (hm : m.ended? = none) : endings ((now, m) :: h) = h.endings :=
  List.filterMap_cons_none hm

theorem endings_ended (now : Nat) (hm : m.ended? = some batch) :
    endings ((now, m) :: h) = batch :: h.endings :=
  List.filterMap_cons_some hm

theorem endings_abandoned (now : Nat) (requests : List (Request Value)) :
    endings (Writer.abandonments now requests ++ h) = requests.map (·.id) ++ h.endings := by
  unfold Writer.abandonments
  induction requests with
  | nil => rfl
  | cons r rest ih =>
    rw [List.map_cons, List.cons_append, endings_ended now rfl, ih, List.map_cons, List.cons_append]

end History

namespace Writer

open History

variable {w w' : Writer}

/-- The batches that were issued, counted from one, are those that are open and those that
ended. -/
def Reckoned (w : Writer) : Prop :=
  (w.inFlight.ids ++ w.history.endings).Perm (List.range' 1 w.inFlight.issued)

theorem Reckoned.ended (h : w.Reckoned) (sound : w.inFlight.Sound) {batch now : Nat}
    {m : Milestone} (hm : m.ended? = some batch) (isOpen : batch ∈ w.inFlight.ids)
    (history : w'.history = (now, m) :: w.history)
    (ids : w'.inFlight.ids = w.inFlight.ids.filter (· ≠ batch))
    (issued : w'.inFlight.issued = w.inFlight.issued) : w'.Reckoned := by
  have taken : (batch :: w.inFlight.ids.erase batch).Perm w.inFlight.ids :=
    (List.perm_cons_erase isOpen).symm
  rw [Reckoned, history, ids, issued, endings_ended now hm, sound.filter_ids]
  exact (List.perm_middle.trans (taken.append_right _)).trans h

theorem Episode.reckoned (h : w.Episode w') (sound : w.inFlight.Sound) (hr : w.Reckoned) :
    w'.Reckoned := by
  cases h with
  | silent _ quiet => rwa [Reckoned, quiet.history, quiet.ids, quiet.issued]
  | told now m plain same =>
    rw [same]
    cases m with
    | flushed | announced _ => exact hr
    | _ => exact plain.elim
  | accepted _ _ _ history _ ids issued | handed _ _ _ _ _ _ history _ ids issued =>
    rwa [Reckoned, history, ids, issued, endings_cons _ rfl]
  | opened _ _ _ _ _ _ _ history ids issued =>
    rw [Reckoned, history, ids, issued, endings_cons _ rfl, List.range'_1_concat,
      List.append_assoc, Nat.add_comm 1]
    exact (List.perm_append_comm.append_left _).trans
      ((List.append_assoc _ _ _).symm ▸ hr.append_right _)
  | completed _ _ _ _ _ isOpen history _ ids issued =>
    exact hr.ended sound rfl isOpen history ids issued
  | lost _ _ _ loss _ _ history _ ids issued isOpen =>
    exact hr.ended sound (Milestone.ended?_of_lost? loss) isOpen history ids issued
  | closed now _ _ history _ ids issued =>
    rw [Reckoned, history, ids, issued, endings_abandoned, List.nil_append, List.map_reverse]
    exact ((List.reverse_perm _).append_right _).trans hr

theorem Lawful.reckoned (h : w.Lawful) : w.Reckoned := by
  have both : w.inFlight.Sound ∧ w.Reckoned := by
    refine h.keeps (P := fun u => u.inFlight.Sound ∧ u.Reckoned) (fun u fresh => ?_)
      fun u v episode kept => ⟨episode.sound kept.1, episode.reckoned kept.1 kept.2⟩
    have sound := fresh.lawful.tracked.sound
    obtain ⟨now, entries, history, -⟩ := fresh.history
    have tracker := fresh.tracker
    unfold InFlight.ofLimit at tracker
    split at tracker
    · cases tracker
    · refine ⟨sound, ?_⟩
      rw [Reckoned, history, ← Except.ok.inj tracker]
      exact List.Perm.nil
  exact both.2

/-- No batch ends twice. -/
theorem Lawful.endings_nodup (h : w.Lawful) : w.history.endings.Nodup :=
  (List.nodup_append.1 (h.reckoned.nodup_iff.2 List.nodup_range')).2.1

theorem Lawful.isOpen_iff (h : w.Lawful) {batch : Nat}
    (issued : 0 < batch ∧ batch ≤ w.inFlight.issued) :
    batch ∈ w.inFlight.ids ↔ batch ∉ w.history.endings := by
  have known : batch ∈ w.inFlight.ids ++ w.history.endings :=
    h.reckoned.mem_iff.2 (List.mem_range'_1.2 ⟨issued.1, by omega⟩)
  have apart := (List.nodup_append.1 (h.reckoned.nodup_iff.2 List.nodup_range')).2.2
  refine ⟨fun isOpen ended => apart batch isOpen batch ended rfl, fun going => ?_⟩
  exact (List.mem_append.1 known).resolve_right going

theorem Lawful.issued (h : w.Lawful) {batch : Nat} (isOpen : batch ∈ w.inFlight.ids) :
    0 < batch ∧ batch ≤ w.inFlight.issued := by
  have known := List.mem_range'_1.1 (h.reckoned.mem_iff.1 (List.mem_append_left _ isOpen))
  omega

theorem Lawful.ended_once (h : w.Lawful) {batch : Nat} {e e' : Nat × Milestone}
    (told : e ∈ w.history) (told' : e' ∈ w.history) (ended : e.2.ended? = some batch)
    (ended' : e'.2.ended? = some batch) : e = e' := by
  have apart := List.pairwise_filterMap.1 h.endings_nodup
  have symmetric : Std.Symm fun x y : Nat × Milestone =>
      ∀ n, x.2.ended? = some n → ∀ m, y.2.ended? = some m → n ≠ m :=
    ⟨fun _ _ both n hn m hm same => both m hm n hn same.symm⟩
  by_contra other
  exact apart.forall told told' other batch ended batch ended' rfl

/-! The first outcome of an open batch takes effect, whichever it is. -/

theorem completed_of_open {batch : Nat} {r : Request Value}
    (found : w.inFlight.find? batch = some r) (now : Nat) (failed : List Value) :
    (now, .completed batch r.entries failed) ∈ (w.complete now batch failed).writer.history := by
  have same := (silent_requeue
    ((note now (.completed batch r.entries failed) w).release batch).writer
    batch r.entries.length failed).history
  unfold complete
  simp only [found]
  rw [Change.writer_andThen rfl, Change.writer_andThen rfl]
  exact same ▸ List.mem_cons_self

theorem reportedFailed_of_open {batch : Nat} {r : Request Value}
    (found : w.inFlight.find? batch = some r) (now : Nat) (fault : Fault) :
    (now, .reportedFailed batch r.entries) ∈ (w.reportFailed now batch fault).writer.history := by
  unfold reportFailed
  simp only [found]
  rw [writer_lost]
  exact List.mem_cons_self

theorem expire_of_open {batch : Nat} {r : Request Value} (found : w.inFlight.find? batch = some r)
    {limit : Number} (limited : w.config.requestTimeout = some limit) (now : Nat) :
    (w.expire now batch).writer = w.losing now batch (.expired batch r.entries)
      (.timeout batch r.entries.length limit) := by
  unfold expire
  simp only [found, limited]
  exact writer_lost _ _ _ _ _

theorem expired_of_open {batch : Nat} {r : Request Value} (found : w.inFlight.find? batch = some r)
    (limited : w.config.requestTimeout.isSome = true) (now : Nat) :
    (now, .expired batch r.entries) ∈ (w.expire now batch).writer.history := by
  obtain ⟨limit, same⟩ := Option.isSome_iff_exists.1 limited
  rw [expire_of_open found same]
  exact List.mem_cons_self

theorem abandoned_of_open (going : w.closed = false) {r : Request Value}
    (isOpen : r ∈ w.inFlight.requests) (now : Nat) :
    (now, .abandoned r.id r.entries) ∈ (w.close now).writer.history := by
  rw [writer_close going]
  exact List.mem_append_left _ (List.mem_map.2 ⟨r, List.mem_reverse.2 isOpen, rfl⟩)

theorem refused_of_ordinary {fault : Fault} (ordinary : fault.isOrdinary = true) (w : Writer)
    (now : Nat) (parcel : Parcel) : (now, .refused parcel.batch parcel.entries) ∈
      (w.concludeDispatch now parcel (some fault)).writer.history := by
  unfold concludeDispatch
  simp only [ordinary, if_true]
  refine Change.keeps_andThen (P := fun u => (now, _) ∈ u.history) ?_ fun _ told => told
  refine Change.keeps_andThen (P := fun u => (now, _) ∈ u.history) List.mem_cons_self
    fun u told => ?_
  rw [(u.recordFailure_writer _).2.1]
  exact told

end Writer
end BatchWriter
