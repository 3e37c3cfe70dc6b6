import BatchWriter.Proofs.Writer.Ticks

/-!
# Flushes that were waited for

The alarm of a buffer is set for a buffer that holds entries, and a timed flush comes no sooner
than the limit of the time in the buffer after that. Whether an entry is still there that was
there when the alarm was set is another matter: batches may have left meanwhile.
-/

set_option autoImplicit false

namespace BatchWriter
namespace History

def puttings : History → List Nat
  | [] => []
  | (now, .restored entries) :: h => puttings h ++ List.replicate entries.length now
  | (now, .accepted _) :: h => puttings h ++ [now]
  | (now, .completed _ _ failed) :: h => puttings h ++ List.replicate failed.length now
  | _ :: h => puttings h

variable {h h' : History}

theorem length_puttings (h : History) : h.puttings.length = h.puts := by
  induction h with
  | nil => rfl
  | cons e rest ih =>
    obtain ⟨now, m⟩ := e
    cases m <;> simp [puttings, puts, ih]

theorem puttings_grow (hs : h <:+ h') : h.puttings <+: h'.puttings := by
  obtain ⟨newer, rfl⟩ := hs
  induction newer with
  | nil => exact List.prefix_refl _
  | cons e rest ih =>
    obtain ⟨now, m⟩ := e
    refine ih.trans ?_
    cases m with
    | restored _ | accepted _ | completed _ _ _ => exact List.prefix_append _ _
    | _ => exact List.prefix_refl _

theorem puttings_le {s : Nat} (before : ∀ e ∈ h, e.1 ≤ s) : ∀ t ∈ h.puttings, t ≤ s := by
  induction h with
  | nil => simp [puttings]
  | cons e rest ih =>
    have earlier := ih fun x hx => before x (List.mem_cons_of_mem _ hx)
    have last := before e List.mem_cons_self
    obtain ⟨now, m⟩ := e
    intro t ht
    cases m with
    | restored entries =>
      rcases List.mem_append.1 ht with old | new
      · exact earlier t old
      · exact (List.eq_of_mem_replicate new).le.trans last
    | accepted entry =>
      rcases List.mem_append.1 ht with old | new
      · exact earlier t old
      · exact (List.mem_singleton.1 new).le.trans last
    | completed _ _ failed =>
      rcases List.mem_append.1 ht with old | new
      · exact earlier t old
      · exact (List.eq_of_mem_replicate new).le.trans last
    | _ => exact earlier t ht

theorem number_lt {e : Value × Nat} (he : e ∈ h.line) : e.2 < h.puts :=
  List.mem_range.1 ((h.parade_numbers.mem_iff).1
    (List.mem_map_of_mem (List.mem_append_right _ he)))

/-- Who stands in line was put there by any instant that is not before its history's. -/
theorem put_by {e : Value × Nat} (he : e ∈ h.line) (hs : h <:+ h') {s : Nat}
    (before : ∀ e ∈ h, e.1 ≤ s) : ∃ t ≤ s, h'.puttings[e.2]? = some t := by
  have known : e.2 < h.puttings.length := by
    rw [length_puttings]
    exact number_lt he
  have same := (puttings_grow hs).getElem known
  refine ⟨h.puttings[e.2], puttings_le before _ (List.getElem_mem known), ?_⟩
  rw [same]
  exact List.getElem?_eq_getElem _

/-- A timed flush that was done before is found among what was told before. -/
theorem flushed_before {newer : History} (others : ∀ e ∈ newer, e.2 ≠ .flushed) {t : Nat}
    {earlier : History} (hs : (t, .flushed) :: earlier <:+ newer ++ h) :
    (t, .flushed) :: earlier <:+ h := by
  induction newer with
  | nil => exact hs
  | cons e rest ih =>
    rcases List.suffix_cons_iff.1 hs with same | hs
    · exact absurd (congrArg Prod.snd (List.cons.inj same).1.symm) (others e List.mem_cons_self)
    · exact ih (fun x hx => others x (List.mem_cons_of_mem _ hx)) hs

end History

namespace Writer

/-- The buffer's alarm, set for what had happened by `since`, is due at an instant. -/
structure AwaitedFrom (config : Config) (h : History) (instant delay since : Nat)
    (begun : History) : Prop where
  limited : ∃ limit, config.maxTimeInBuffer = some limit ∧
    limit.delayMilliseconds = .ok (some delay)
  /-- The buffer held entries when the alarm was set, -/
  filled : begun.line ≠ []
  before : ∀ e ∈ begun, e.1 ≤ since
  /-- and no flush was done for it since. -/
  unflushed : ∃ newer, h = newer ++ begun ∧ ∀ e ∈ newer, e.2 ≠ .flushed
  elapsed : since + delay ≤ instant

def Awaited (config : Config) (h : History) (instant : Nat) : Prop :=
  ∃ delay since begun, AwaitedFrom config h instant delay since begun

namespace Awaited

variable {config : Config} {h : History} {instant : Nat}

theorem later (a : Awaited config h instant) {instant' : Nat} (later : instant ≤ instant') :
    Awaited config h instant' := by
  obtain ⟨delay, since, begun, from'⟩ := a
  exact ⟨delay, since, begun, { from' with elapsed := from'.elapsed.trans later }⟩

theorem extend (a : Awaited config h instant) {newer : History}
    (others : ∀ e ∈ newer, e.2 ≠ .flushed) : Awaited config (newer ++ h) instant := by
  obtain ⟨delay, since, begun, from'⟩ := a
  obtain ⟨between, same, quiet⟩ := from'.unflushed
  refine ⟨delay, since, begun, { from' with unflushed := ⟨newer ++ between, by simp [same], ?_⟩ }⟩
  intro e he
  exact (List.mem_append.1 he).elim (others e) (quiet e)

end Awaited

/-- No alarm of the buffer comes, no flush is put off and none was done too soon. -/
structure Patient (now : Nat) (w : Writer) (dues : Dues) : Prop where
  inLine : w.InLine
  past : ∀ e ∈ w.history, e.1 ≤ now
  armed : ∀ due, some due ∈ dues .flush → Awaited w.config w.history due
  deferred : w.deferred = true → Awaited w.config w.history now
  flushes : ∀ (t : Nat) (earlier : History), (t, .flushed) :: earlier <:+ w.history →
    Awaited w.config earlier t ∧ earlier.line ≠ []

variable {now : Nat} {w w' : Writer} {dues dues' : Dues}

namespace Patient

theorem later (h : Patient now w dues) {now' : Nat} (later : now ≤ now') : Patient now' w dues :=
  { h with
    past := fun e he => (h.past e he).trans later
    deferred := fun on => (h.deferred on).later later }

/-- The history grows, though not by a timed flush, and what is waited for stays. -/
theorem extend (h : Patient now w dues) (config : w'.config = w.config) (newer : History)
    (history : w'.history = newer ++ w.history) (new : ∀ e ∈ newer, e.1 = now ∧ e.2 ≠ .flushed)
    (inLine : w'.InLine) (fewer : ∀ due, some due ∈ dues' .flush →
      some due ∈ dues .flush ∨ Awaited w'.config w'.history due)
    (deferred : w'.deferred = true → w.deferred = true) : Patient now w' dues' where
  inLine := inLine
  past e he := by
    rw [history] at he
    exact (List.mem_append.1 he).elim (fun hn => (new e hn).1.le) (h.past e)
  armed due set := (fewer due set).elim
    (fun was => config ▸ history ▸ (h.armed due was).extend fun e he => (new e he).2)
    fun awaited => awaited
  deferred on :=
    config ▸ history ▸ (h.deferred (deferred on)).extend fun e he => (new e he).2
  flushes t earlier hs := by
    rw [history] at hs
    exact config ▸ h.flushes t earlier (History.flushed_before (fun e he => (new e he).2) hs)

theorem fewer (h : Patient now w dues) (config : w'.config = w.config)
    (history : w'.history = w.history) (buffer : w'.buffer = w.buffer)
    (fewer : ∀ due, some due ∈ dues' .flush → some due ∈ dues .flush)
    (deferred : w'.deferred = true → w.deferred = true) : Patient now w' dues' :=
  h.extend config [] history (by simp) (h.inLine.extend [] (by simp) history buffer)
    (fun due set => .inl (fewer due set)) deferred

theorem tick {p q : Writer × Dues} (t : Tick now p q) (h : Patient now p.1 p.2) :
    Patient now q.1 q.2 := by
  cases t with
  | @untimed w w' dues still =>
    obtain ⟨newer, history, new⟩ := still.history
    refine h.extend still.later.config newer history (fun e he => ⟨(new e he).1, fun flushed =>
      (new e he).2 (flushed ▸ trivial)⟩) (still.inLine h.inLine)
        (fun _ set => .inl set) fun on => ?_
    by_contra off
    rw [still.deferred (by simpa using off)] at on
    cases on
  | @arm w dues limit delay limited accepted unarmed filled =>
    refine h.extend rfl [] rfl (by simp) (h.inLine.extend [] (by simp) rfl rfl)
      (fun due set => ?_) fun on => on
    simp only [Effect.dues, if_true, List.mem_append, List.mem_singleton] at set
    refine set.imp_right fun new => ?_
    obtain ⟨T, rfl, rfl⟩ := Option.map_eq_some_iff.1 new.symm
    refine ⟨T, now, w.history, ⟨limit, limited, accepted⟩, fun none => filled ?_, h.past,
      ⟨[], rfl, by simp⟩, le_rfl⟩
    rw [← h.inLine.buffer, none]
    rfl
  | disarm refused =>
    exact h.fewer rfl rfl rfl (fun due set => by simp [Effect.dues] at set) fun on => by cases on
  | @opening w w' dues entries opens =>
    refine h.extend opens.later.config [_] opens.history (by simp)
      (h.inLine.opened opens.taken opens.history) (fun due set => .inl ?_) fun on => ?_
    · simpa using set
    · by_contra off
      rw [opens.deferred (by simpa using off)] at on
      cases on
  | drop gone openings issued => exact h.fewer rfl rfl rfl (fun _ set => set) fun on => on

theorem ticks {p q : Writer × Dues} (t : Ticks now p q) (h : Patient now p.1 p.2) :
    Patient now q.1 q.2 := by
  induction t with
  | refl => exact h
  | tail _ t ih => exact ih.tick t

/-- A flush that was waited for is done while none other is. -/
theorem flushed {q : Writer × Dues} (h : Patient now w dues)
    (awaited : Awaited w.config w.history now) (filled : w.buffer.entries ≠ [])
    (unset : ∀ due, some due ∉ dues .flush) (undeferred : w.deferred = false)
    (f : Flushed now (w, dues) q) : Patient now q.1 q.2 := by
  refine ticks f.ticks ⟨h.inLine.extend [_] (by simp [Milestone.Inert]) rfl rfl, fun e he => ?_,
    fun due set => absurd set (unset due), fun on => ?_, fun t earlier hs => ?_⟩
  · rcases List.mem_cons.1 he with rfl | old
    · exact le_rfl
    · exact h.past e old
  · exact absurd on (by simp [note, undeferred])
  · rcases List.suffix_cons_iff.1 hs with same | hs
    · obtain ⟨first, rfl⟩ := List.cons.inj same
      cases first
      exact ⟨awaited, fun none => filled (by rw [← h.inLine.buffer, none]; rfl)⟩
    · exact h.flushes t earlier hs

theorem of_idle (lawful : w.Lawful) (idle : w.Idle) (past : ∀ e ∈ w.history, e.1 ≤ now)
    (unset : dues .flush = []) (unflushed : ∀ e ∈ w.history, e.2 ≠ .flushed) :
    Patient now w dues where
  inLine := lawful.inLine
  past := past
  armed due set := by simp [unset] at set
  deferred on := by simp [idle.deferred] at on
  flushes t earlier hs := absurd rfl (unflushed _ (hs.subset List.mem_cons_self))

/-- When the buffer's alarm rings, a flush was waited for. -/
theorem rings (h : Patient now w dues) {due : Nat} (was : some due ∈ dues .flush)
    (late : due ≤ now) : Awaited w.config w.history now := (h.armed due was).later late

theorem lapse (h : Patient now w dues) {due : Nat} (was : some due ∈ dues .flush)
    (late : due ≤ now) : Patient now w.bufferTimeOver.1.writer
      (Effect.dues now dues (.cancelAlarm .flush)) := by
  have awaited := h.rings was late
  have none : ∀ due, some due ∉ Effect.dues now dues (.cancelAlarm .flush) .flush := fun due => by
    simp [Effect.dues]
  unfold bufferTimeOver
  dsimp only
  split
  · exact h.fewer rfl rfl rfl (fun due set => absurd set (none due)) fun on => on
  · split
    · exact h.fewer rfl rfl rfl (fun due set => absurd set (none due)) fun on => on
    · exact { h with
        inLine := h.inLine.extend [] (by simp) rfl rfl
        armed := fun due set => absurd set (none due)
        deferred := fun _ => awaited }

theorem rung {q : Writer × Dues} (h : Patient now w dues) {due : Nat}
    (was : some due ∈ dues .flush) (late : due ≤ now) (undeferred : w.deferred = false)
    (flushes : w.bufferTimeOver.2 = true) (f : Flushed now (w.bufferTimeOver.1.writer,
      Effect.dues now dues (.cancelAlarm .flush)) q) : Patient now q.1 q.2 := by
  have lapsed := h.lapse was late
  rw [(bufferTimeOver_flush flushes).1] at f lapsed
  exact lapsed.flushed (h.rings was late) (filled_of_flush flushes).2
    (fun due => by simp [Effect.dues]) undeferred f

theorem caughtUp {q : Writer × Dues} (h : Patient now w dues) (due : w.flushIsDue = true)
    (unset : dues .flush = []) (f : Flushed now ({ w with deferred := false }, dues) q) :
    Patient now q.1 q.2 := by
  simp only [flushIsDue, Bool.and_eq_true, Bool.not_eq_true'] at due
  have undeferred : Patient now { w with deferred := false } dues :=
    h.fewer rfl rfl rfl (fun _ set => set) fun on => by cases on
  refine undeferred.flushed (h.deferred due.1) (fun none => ?_) (by simp [unset]) rfl f
  rw [(Buffer.isEmpty_iff _).2 none] at due
  cases due.2

theorem outlived (h : Patient now w dues) (batch : Nat) (entries : List Value) :
    Patient now (w.outlived now batch entries)
      (Effect.dues now dues (.cancelAlarm (.expire batch))) :=
  h.extend rfl [(now, .expired batch entries)] rfl (by simp)
    (h.inLine.extend [(now, .expired batch entries)] (by simp [Milestone.Inert]) rfl rfl)
    (fun due set => .inl (by simpa [Effect.dues] using set)) fun on => on

end Patient

end Writer
end BatchWriter
