import BatchWriter.Proofs.Bench.Chronicle

/-!
# How far writes are

At all times the log shows how far a write is. Every element that it has done with was accepted,
it said nothing yet of those to come, and with the one at hand it is as far as its point tells.
-/

set_option autoImplicit false

namespace BatchWriter

/-- What the log shows of a write. Once the write has ended its point tells nothing. -/
structure Log.Stands (log : Log) (id : ℕ) (job : WriteJob) (point : WritePoint) (live : Prop) :
    Prop where
  past : ∀ k < job.written, Phase.accepted.Shows (log.ofTurn id k)
  present : ∃ phase : Phase, phase.Shows (log.ofTurn id job.written) ∧ (live → point.In phase)
  future : ∀ k, job.written < k → log.ofTurn id k = []
  element : point ≠ .start → job.elements ≠ []

namespace Log.Stands

variable {log log' : Log} {id : ℕ} {w : Writer} {job job' : WriteJob} {point point' : WritePoint}
  {live live' : Prop}

theorem keep (h : log.Stands id job point live) (same : ∀ k, log'.ofTurn id k = log.ofTurn id k)
    (less : live' → live) : log'.Stands id job point live' where
  past k hk := by rw [same]; exact h.past k hk
  present := by
    obtain ⟨phase, shows, inside⟩ := h.present
    exact ⟨phase, by rwa [same], fun hl => inside (less hl)⟩
  future k hk := by rw [same]; exact h.future k hk
  element := h.element

theorem opens (none : ∀ k, log.ofTurn id k = []) (first : job.written = 0) :
    log.Stands id job .start live where
  past k hk := by rw [first] at hk; cases hk
  present := ⟨.fresh, none _, fun _ => rfl⟩
  future k _ := none k
  element := fun moved => absurd rfl moved

theorem ends (h : log.Stands id job point True) (sees : point.Sees w) :
    (log ++ job.remarks id (w.utters job point)).Stands id job point False where
  past k hk := by rw [Log.ofTurn_of_ne _ _ _ _ hk.ne']; exact h.past k hk
  present := by
    obtain ⟨phase, shows, inside⟩ := h.present
    obtain ⟨after, speaks, -⟩ := shows.utters job (inside trivial) sees
    exact ⟨after, by rwa [Log.ofTurn_own], False.elim⟩
  future k hk := by rw [Log.ofTurn_of_ne _ _ _ _ hk.ne]; exact h.future k hk
  element := h.element

/-- A write says something at its point and goes on to the next. -/
theorem next (h : log.Stands id job point True) (sees : point.Sees w)
    (proceeds : Bench.Proceeds w job point (.write job' point')) :
    (log ++ job.remarks id (w.utters job point)).Stands id job' point' True := by
  obtain ⟨phase, shows, inside⟩ := h.present
  obtain ⟨after, speaks, leads⟩ := shows.utters job (inside trivial) sees
  rcases proceeds with ⟨job₁, point₁, next, same, own, follows, moves⟩ | ⟨rfl, same⟩
  · obtain ⟨rfl, rfl⟩ := Program.write.inj same
    have written : job'.written = job.written := by rw [own]
    have elements : job'.elements = job.elements := by rw [own]
    refine ⟨fun k hk => ?_, ⟨after, ?_, fun _ => ?_⟩, fun k hk => ?_, fun _ => ?_⟩
    · rw [written] at hk
      rw [Log.ofTurn_of_ne _ _ _ _ hk.ne']
      exact h.past k hk
    · rwa [written, Log.ofTurn_own]
    · have inside := leads next follows
      rcases moves with rfl | ⟨-, d, rfl⟩ <;> exact inside
    · rw [written] at hk
      rw [Log.ofTurn_of_ne _ _ _ _ hk.ne]
      exact h.future k hk
    · rw [elements]
      by_cases first : point = .start
      · subst first
        cases follows with
        | enters some => exact some
      · exact h.element first
  · obtain ⟨rfl, rfl⟩ := Program.write.inj same
    -- With this element the write has done, and of the next it said nothing.
    have quiet : w.utters job .batching = [] := rfl
    have done : phase = .accepted := inside trivial
    have others : ∀ k, (log ++ job.remarks id (w.utters job .batching)).ofTurn id k =
        log.ofTurn id k := by
      intro k
      rw [quiet, Log.ofTurn_append, ite_self, List.append_nil]
    refine ⟨fun k hk => ?_, ⟨.fresh, ?_, fun _ => rfl⟩, fun k hk => ?_,
      fun moved => absurd rfl moved⟩
    · rw [others]
      rcases Nat.lt_succ_iff_lt_or_eq.1 hk with earlier | rfl
      · exact h.past k earlier
      · exact done ▸ shows
    · exact (others _).trans (h.future _ (Nat.lt_succ_self _))
    · exact (others k).trans (h.future k ((Nat.lt_succ_self _).trans hk))

end Log.Stands

def Program.Opens : Program → Prop
  | .write job point => point = .start ∧ job.written = 0
  | _ => True

namespace Bench

variable {old : ℕ → Prop} {b b' b₁ : Bench} {log : Log} {id i k : ℕ} {c c' : Call} {w w' : Writer}
  {job : WriteJob} {point : WritePoint}

theorem Begins.opens {p : Program} (h : b.Begins id p) : p.Opens := by
  cases p with
  | write job point => exact ⟨h.1, h.2.1⟩
  | _ => trivial

/-! ## What becomes of the calls -/

/-- A call is where it was, unless it was cancelled, or it has not begun. -/
def Left (b : Bench) (k : ℕ) (c' : Call) : Prop :=
  (∃ c, b.calls[k]? = some c ∧ c'.program = c.program ∧
      (c'.isEnded = c.isEnded ∨ c.status = .queued true)) ∨
    b.calls[k]? = none ∧ c'.program.Opens

theorem live_of_left (ended : c'.isEnded = c.isEnded ∨ c.status = .queued true)
    (live : c'.isEnded = false) : c.isEnded = false := by
  rcases ended with same | queued
  · exact same ▸ live
  · rw [Call.isEnded, queued]

theorem Stays.left (stays : Stays old b b') (hc' : b'.calls[k]? = some c') : b.Left k c' := by
  rcases stays.origin hc' with ⟨c, hc, keeps⟩ | ⟨new, begins, -⟩
  · exact .inl ⟨c, hc, keeps.program, .inl keeps.ended⟩
  · exact .inr ⟨new, Begins.opens begins⟩

/-- Beside the next point of the running call no call gets on, and the running one keeps its
writer to itself. -/
theorem Reachable.left (h : Reachable b) (m : Move b b')
    (other : ∀ id, b.running = some id → b' ≠ b.proceed id) :
    (∀ (k : ℕ) (c' : Call), b'.calls[k]? = some c' → b.Left k c') ∧
      (b.running ≠ none → b.Spares b') := by
  cases h.shift m with
  | beside noProgress spares => exact ⟨fun k c' => noProgress.toStays.left, spares.resolve_left⟩
  | @woken id c b₀ idle hc queued noProgress spares calls same =>
    have after := resolved (calls ▸ hc) (Progress.go c.program)
    rw [← same] at after
    refine ⟨fun k c' hc' => ?_, fun running => absurd idle running⟩
    by_cases own : k = id
    · subst own
      have live := after.isEnded hc'
      have was : c.isEnded = false := by rw [Call.isEnded, queued]
      exact .inl ⟨c, hc, (after.call hc').2.2, .inl (live.trans was.symm)⟩
    · exact noProgress.toStays.left ((after.others k own).symm.trans hc')
  | @advanced id c running hc same =>
    exact absurd (same.trans (proceed_eq hc).symm) (other id running)
  | @interrupted id c b₀ idle hc queued noProgress calls same =>
    have stays := noProgress.toStays.trans (stays_interruptProgram b₀ id c.program)
    obtain ⟨c₁, hc₁, keeps⟩ := stays.kept id c hc
    have ends := interruptProgram_ends b₀ id c.program
    have after := resolved hc₁ (b₀.interruptProgram id c.program).2
    rw [← same] at after
    refine ⟨fun k c' hc' => ?_, fun running => absurd idle running⟩
    by_cases own : k = id
    · subst own
      have program := (after.call hc').2.2
      rw [ends] at program
      exact .inl ⟨c, hc, program.trans keeps.program, .inr queued⟩
    · exact stays.left ((after.others k own).symm.trans hc')

theorem left_proceed (hc : b.calls[id]? = some c) (other : k ≠ id)
    (hc' : (b.proceed id).calls[k]? = some c') : b.Left k c' := by
  have stays := stays_advanceProgram (known_any b) id c.loop c.program
  obtain ⟨c₁, hc₁, -⟩ := stays.kept id c hc
  rw [proceed_eq hc, (resolved hc₁ _).others k other] at hc'
  exact stays.left hc'

/-- The running call is at the point that its progress leads to, or it has ended. -/
theorem call_proceed (hc : b.calls[id]? = some c) (hc' : (b.proceed id).calls[id]? = some c') :
    c'.program = c.program ∧ c'.isEnded = true ∨
      (b.advanceProgram id c.loop c.program).2.program? = some c'.program := by
  obtain ⟨c₁, hc₁, keeps⟩ :=
    (stays_advanceProgram (known_any b) id c.loop c.program).kept id c hc
  rw [proceed_eq hc] at hc'
  have after := resolved hc₁ (b.advanceProgram id c.loop c.program).2
  have program := (after.call hc').2.2
  have ended := after.isEnded hc'
  cases leads : (b.advanceProgram id c.loop c.program).2.program? with
  | none =>
    rw [leads] at program ended
    exact .inl ⟨program.trans keeps.program, ended⟩
  | some q =>
    rw [leads] at program
    exact .inr (congrArg some program.symm)

theorem writers_proceed (hc : b.calls[id]? = some c) :
    (b.proceed id).writers = (b.advanceProgram id c.loop c.program).1.writers := by
  obtain ⟨c₁, hc₁, -⟩ := (stays_advanceProgram (known_any b) id c.loop c.program).kept id c hc
  rw [proceed_eq hc, (resolved hc₁ _).writers]

/-! ## What writes have seen -/

def Sighted (b : Bench) : Prop :=
  ∀ (id : ℕ) (c : Call) (job : WriteJob) (point : WritePoint) (w : Writer),
    b.calls[id]? = some c → c.program = .write job point → c.isEnded = false →
      b.writers[job.writer]? = some w → point.Sees w

theorem Sighted.left (sighted : b.Sighted) (h : Reachable b) (left : b.Left k c')
    (still : b.running ≠ some k) (live : c'.isEnded = false) (hp : c'.program = .write job point) :
    point.Informed := by
  rcases left with ⟨c, hc, program, ended⟩ | ⟨-, opens⟩
  · have hp := program.symm.trans hp
    have live := live_of_left ended live
    obtain ⟨w, hw⟩ := h.writer_of_write hc live hp
    refine (sighted k c job point w hc hp live hw).resolve_right ?_
    rintro ⟨rfl, -⟩
    have stops := stops_of_still h.orderly.coherent hc live still
    rw [hp] at stops
    exact stops.elim False.elim fun waits => by cases waits
  · rw [hp] at opens
    rw [opens.1]
    trivial

/-- A write that has just seen a free slot finds it as it was. -/
theorem sees_proceed (hc : b.calls[id]? = some c) (hp : c.program = .write job point)
    (hw : b.writers[job.writer]? = some w) (sees : point.Sees w) {job' : WriteJob}
    {point' : WritePoint} (proceeds : Proceeds w job point (.write job' point'))
    (hw' : (b.proceed id).writers[job'.writer]? = some w') : point'.Sees w' := by
  rcases proceeds with ⟨job₁, point₁, next, same, own, follows, moves⟩ | ⟨rfl, same⟩
  · obtain ⟨rfl, rfl⟩ := Program.write.inj same
    rcases sees.follows follows with informed | ⟨rfl, rfl, full, room⟩
    · rcases moves with rfl | ⟨-, d, rfl⟩ <;> exact .inl informed
    · rcases moves with rfl | ⟨said, -⟩
      · have kept : (b.proceed id).writers = b.writers := by
          rw [writers_proceed hc, hp, advanceProgram, writeStep, writeGate, withWriter_some hw,
            if_pos full, if_neg (by simp [room])]
        rw [kept, own, hw, Option.some.injEq] at hw'
        exact .inr ⟨rfl, hw' ▸ room⟩
      · simp [Writer.utters, full, room] at said
  · obtain ⟨rfl, rfl⟩ := Program.write.inj same
    exact .inl trivial

theorem write_of_leads (h : Reachable b) (running : b.running = some id)
    (hc : b.calls[id]? = some c)
    (leads : (b.advanceProgram id c.loop c.program).2.program? = some (.write job point)) :
    ∃ job₀ point₀ w, c.program = .write job₀ point₀ ∧ c.isEnded = false ∧
      b.writers[job₀.writer]? = some w ∧ Proceeds w job₀ point₀ (.write job point) := by
  have becomes := from_advanceProgram b id c.loop c.program _ leads
  rcases h.speaks running with ⟨c₀, job₀, point₀, w, hc₀, hp, live, hw⟩ | ⟨c₀, hc₀, other⟩
  · cases hc.symm.trans hc₀
    rw [hp] at leads
    exact ⟨job₀, point₀, w, hp, live, hw, proceeds_writeStep hw leads⟩
  · cases hc.symm.trans hc₀
    generalize c.program = p at becomes other
    cases p with
    | write job₀ point₀ => exact absurd rfl (other job₀ point₀)
    | _ => exact becomes.elim

theorem Sighted.proceed (sighted : b.Sighted) (h : Reachable b) (running : b.running = some id) :
    (b.proceed id).Sighted := by
  intro k c' job point w' hc' hp' live hw'
  by_cases own : k = id
  · subst own
    obtain ⟨c, hc, -⟩ := h.orderly.current k running
    rcases call_proceed hc hc' with ⟨-, ended⟩ | leads
    · rw [live] at ended
      cases ended
    · rw [hp'] at leads
      obtain ⟨job₀, point₀, w, hp, was, hw, proceeds⟩ := write_of_leads h running hc leads
      exact sees_proceed hc hp hw (sighted k c job₀ point₀ w hc hp was hw) proceeds hw'
  · obtain ⟨c, hc, -⟩ := h.orderly.current id running
    refine .inl (sighted.left h (left_proceed hc own hc') ?_ live hp')
    rw [running]
    exact fun same => own (Option.some.inj same).symm

theorem Sighted.beside (sighted : b.Sighted) (h : Reachable b) (m : Move b b')
    (other : ∀ id, b.running = some id → b' ≠ b.proceed id) : b'.Sighted := by
  intro k c' job point w' hc' hp' live hw'
  obtain ⟨left, spares⟩ := h.left m other
  by_cases running : b.running = some k
  · rcases left k c' hc' with ⟨c, hc, program, ended⟩ | ⟨new, -⟩
    · have hp := program.symm.trans hp'
      have live := live_of_left ended live
      obtain ⟨w, hw⟩ := h.writer_of_write hc live hp
      have kept := spares (by simp [running]) _ w hw
      rw [hw', Option.some.injEq] at kept
      exact kept ▸ sighted k c job point w hc hp live hw
    · obtain ⟨c, hc, -⟩ := h.orderly.current k running
      rw [new] at hc
      cases hc
  · exact .inl (sighted.left h (left k c' hc') running live hp')

theorem Chronicle.sighted (h : Chronicle b log) : b.Sighted := by
  induction h with
  | init s unused => exact fun _ _ _ _ _ hc => by cases hc
  | proceed h running ih => exact ih.proceed h.reachable running
  | beside h m other ih => exact ih.beside h.reachable m other

/-! ## What the log shows -/

/-- The log shows of every write how far it is. -/
def Accounts (b : Bench) (log : Log) : Prop :=
  ∀ (id : ℕ) (c : Call) (job : WriteJob) (point : WritePoint), b.calls[id]? = some c →
    c.program = .write job point → log.Stands id job point (c.isEnded = false)

theorem Left.stands (left : b.Left k c') (accounts : b.Accounts log) (h : Chronicle b log)
    (hp : c'.program = .write job point) : log.Stands k job point (c'.isEnded = false) := by
  rcases left with ⟨c, hc, program, ended⟩ | ⟨new, opens⟩
  · exact (accounts k c job point hc (program.symm.trans hp)).keep (fun _ => rfl)
      (live_of_left ended)
  · rw [hp] at opens
    obtain ⟨rfl, first⟩ := opens
    exact .opens (h.silent new) first

theorem accounts_proceed (accounts : b.Accounts log) (h : Chronicle b log)
    (running : b.running = some id) : (b.proceed id).Accounts (log ++ b.remarks id) := by
  intro k c' job point hc' hp'
  obtain ⟨c, hc, -⟩ := h.reachable.orderly.current id running
  by_cases own : k = id
  · subst own
    rcases call_proceed hc hc' with ⟨program, ended⟩ | leads
    · have hp := program.symm.trans hp'
      obtain ⟨-, live, -, -⟩ := h.reachable.orderly.runs running hc
      obtain ⟨w, hw⟩ := h.reachable.writer_of_write hc live hp
      have stands := (accounts k c job point hc hp).keep (fun _ => rfl) fun _ : True => live
      rw [remarks_write hc hp hw]
      refine (stands.ends (h.sighted k c job point w hc hp live hw)).keep (fun _ => rfl) ?_
      simp [ended]
    · rw [hp'] at leads
      obtain ⟨job₀, point₀, w, hp, live, hw, proceeds⟩ :=
        write_of_leads h.reachable running hc leads
      have stands := (accounts k c job₀ point₀ hc hp).keep (fun _ => rfl) fun _ : True => live
      rw [remarks_write hc hp hw]
      exact (stands.next (h.sighted k c job₀ point₀ w hc hp live hw) proceeds).keep (fun _ => rfl)
        fun _ => trivial
  · exact ((left_proceed hc own hc').stands accounts h hp').keep (ofTurn_remarks b log own)
      fun live => live

/-- In every run the log shows how far the writes are. -/
theorem Chronicle.accounts (h : Chronicle b log) : b.Accounts log := by
  induction h with
  | init s unused => exact fun _ _ _ _ hc => by cases hc
  | proceed h running ih => exact accounts_proceed ih h running
  | beside h m other ih =>
    exact fun k c' job point hc' hp' =>
      ((h.reachable.left m other).1 k c' hc').stands ih h hp'

end Bench
end BatchWriter
