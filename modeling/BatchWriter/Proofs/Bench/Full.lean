import BatchWriter.Proofs.Bench.Excuses
import BatchWriter.Proofs.Bench.Patience

/-!
# Full batches

Without a limit for the time in the buffer and without a commit that flushes, only writes send
batches. Then each batch that is not full was waited for by the write that sent it, since what
that write had seen in the buffer may have left with another one meanwhile.
-/

set_option autoImplicit false

namespace BatchWriter
namespace Bench

variable {old : Nat → Prop} {b b' b₀ : Bench} {i n k id : Nat} {w : Writer} {c : Call}
  {job : WriteJob}

def Unflushed (b : Bench) (i : Nat) : Prop :=
  ∀ (id : Nat) (c : Call) (job : CommitJob) (point : CommitPoint), b.calls[id]? = some c →
    c.program = .commit job point → job.writer = i → job.flush.isPresent = false

/-- Only writes send batches of the writer at `i`, each of up to `n` entries. -/
structure Unhurried (b : Bench) (i n : Nat) : Prop where
  whole : ∀ w : Writer, b.writers[i]? = some w → w.config.maxBatchSize.whole? = some (n : Int)
  untimed : ∀ w : Writer, b.writers[i]? = some w → w.config.maxTimeInBuffer = none
  unflushed : b.Unflushed i

theorem Reachable.calm (h : Reachable b)
    (untimed : ∀ w : Writer, b.writers[i]? = some w → w.config.maxTimeInBuffer = none) :
    b.Calm i := fun w hw => by
  by_contra on
  obtain ⟨_, _, _, awaited⟩ := (h.patient hw).deferred (by simpa using on)
  obtain ⟨limit, limited, -⟩ := awaited.limited
  cases limited.symm.trans (untimed w hw)

theorem Reachable.unset (h : Reachable b)
    (untimed : ∀ w : Writer, b.writers[i]? = some w → w.config.maxTimeInBuffer = none) :
    b.Unset i := fun w hw due set => by
  obtain ⟨_, _, _, awaited⟩ := (h.patient hw).armed due set
  obtain ⟨limit, limited, -⟩ := awaited.limited
  cases limited.symm.trans (untimed w hw)

theorem Sends.there (sends : b.Sends i) (h : Orderly b) : ∃ w, b.writers[i]? = some w := by
  obtain ⟨id, c, running, hc, turn⟩ := sends
  obtain ⟨-, -, fits, -⟩ := h.runs running hc
  rcases Program.sends_cases turn with ⟨job, stage, sends, rfl⟩ | ⟨job, sends, rfl, -⟩
  all_goals
    rw [sends] at fits
    exact fits.imp fun w own => own.1

theorem Unflushed.writes (h : b.Unflushed i) (hc : b.calls[id]? = some c)
    (turn : c.program.sends? = some i) :
    ∃ job stage, c.program = .write job (.dispatch stage) ∧ job.writer = i := by
  refine (Program.sends_cases turn).resolve_right ?_
  rintro ⟨job, sends, own, flushes⟩
  have none := h id c job .drain hc sends own
  rw [flushes] at none
  cases none

/-! The running call goes on by one point. -/

section Proceed

variable (hc : b.calls[id]? = some c)
include hc

theorem proceed_eq : b.proceed id = (b.advanceProgram id c.loop c.program).1.resolve id
    (b.advanceProgram id c.loop c.program).2 := by
  rw [proceed]
  simp only [hc]

theorem historyOf_proceed (i : Nat) :
    (b.proceed id).historyOf i = (b.advanceProgram id c.loop c.program).1.historyOf i := by
  obtain ⟨c₁, hc₁, -⟩ := (stays_advanceProgram (known_any b) id c.loop c.program).kept id c hc
  rw [proceed_eq hc]
  exact historyOf_congr (by rw [(resolved hc₁ _).writers])

/-- Whoever else is excused was before, and the call is where its progress is. -/
theorem excused_proceed (h : Orderly b) (running : b.running = some id)
    (excused : (b.proceed id).Excused i n k) : k ≠ id ∧ b.Excused i n k ∨
      k = id ∧ ∃ q, (b.advanceProgram id c.loop c.program).2.program? = some q ∧
        q.Excused i ((b.advanceProgram id c.loop c.program).1.Stocked i n) := by
  have stays := stays_advanceProgram (known_any b) id c.loop c.program
  obtain ⟨c₁, hc₁, -⟩ := stays.kept id c hc
  rw [proceed_eq hc] at excused
  rcases excused_resolve hc₁ excused with ⟨other, c', hc', live, excused⟩ | own
  · refine .inl ⟨other, ?_⟩
    exact stays.excused h.coherent (by simp [running, Ne.symm other]) hc' live excused
  · exact .inr own

/-- A batch is sent. It is full, or the call was excused. -/
theorem accounted_dispatch (h : Orderly b) (running : b.running = some id)
    (live : c.isEnded = false) {stage : Stage} (sends : c.program = .write job (.dispatch stage))
    (hw : b.writers[job.writer]? = some w) (whole : w.config.maxBatchSize.whole? = some (n : Int))
    (waits : (b.historyOf job.writer).waits ≤ ((b.proceed id).historyOf job.writer).waits)
    (acc : b.Accounted job.writer n) : (b.proceed id).Accounted job.writer n := by
  have fewer : ∀ k, (b.proceed id).Excused job.writer n k → k ≠ id ∧ b.Excused job.writer n k := by
    intro k excused
    refine (excused_proceed hc h running excused).resolve_right ?_
    rintro ⟨-, q, leads, excused⟩
    rw [sends, advanceProgram, writeStep, writeDispatch] at leads
    generalize (b.dispatch job.writer c.loop).1 = fault at leads
    cases fault with
    | none =>
      cases leads
      cases stage <;> exact excused.2.elim
    | some fault => cases leads
  have sent : (b.proceed id).historyOf job.writer =
      (b.dispatch job.writer c.loop).2.historyOf job.writer := by
    rw [historyOf_proceed hc, sends]
    rfl
  rcases batches_dispatch hw c.loop with none | ⟨entries, rest, taken, opened⟩
  · refine acc.keep (History.short_le ?_) waits fun k excused => (fewer k excused).2
    rw [sent, none, historyOf_eq hw]
  · rw [← historyOf_eq hw] at opened
    have size := Buffer.length_take whole taken
    -- A call that was not excused has seen a full batch, and nobody has taken it since.
    by_cases full : n ≤ w.buffer.size
    · refine acc.keep ?_ waits fun k excused => (fewer k excused).2
      have filled : entries.length = n := by omega
      simp [History.short, sent, opened, List.countP_append, filled]
    · have own : b.Excused job.writer n id := by
        refine ⟨c, hc, live, ?_⟩
        rw [sends]
        exact ⟨rfl, fun stocked => full (stocked w hw)⟩
      refine acc.spend own ?_ waits fewer
      rw [History.short, sent, opened, List.countP_append, History.short]
      exact Nat.add_le_add_left List.countP_le_length _

/-- Nothing is sent. The call is excused if it was, or if it announces a wait. -/
theorem accounted_still (h : Reachable b) (running : b.running = some id) (live : c.isEnded = false)
    (whole : ∀ w : Writer, b.writers[i]? = some w →
      w.config.maxBatchSize.whole? = some (n : Int))
    (waits : (b.historyOf i).waits ≤ ((b.proceed id).historyOf i).waits)
    (short : ((b.proceed id).historyOf i).short n ≤ (b.historyOf i).short n)
    (acc : b.Accounted i n) : (b.proceed id).Accounted i n := by
  have others : ∀ k, k ≠ id → (b.proceed id).Excused i n k → b.Excused i n k :=
    fun k other excused =>
      ((excused_proceed hc h.orderly running excused).resolve_right fun own => other own.1).2
  by_cases told : (b.historyOf i).waits < ((b.proceed id).historyOf i).waits
  · exact acc.announce short told others
  · refine acc.keep short waits fun k excused => ?_
    rcases excused_proceed hc h.orderly running excused with ⟨-, was⟩ | ⟨rfl, q, leads, excused⟩
    · exact was
    · have earned := earned_advanceProgram (fun w hw => h.lawful hw) whole c.program q leads excused
      rw [← historyOf_proceed hc] at earned
      exact ⟨c, hc, live, earned.resolve_right told⟩

end Proceed

/-- While a call runs nobody else touches the writer that it is about to send a batch of. -/
theorem Spares.excused (spares : b.Spares b') (stays : Stays old b b') (h : Orderly b)
    (running : b.running = some id) (excused : b'.Excused i n id) : b.Excused i n id := by
  obtain ⟨c, hc, -⟩ := h.current id running
  obtain ⟨-, live, fits, -⟩ := h.runs running hc
  obtain ⟨c', hc', -, excused⟩ := excused
  obtain ⟨c₁, hc₁, keeps⟩ := stays.kept id c hc
  cases hc'.symm.trans hc₁
  refine ⟨c, hc, live, ?_⟩
  rw [keeps.program] at excused
  generalize c.program = p at excused fits
  cases p with
  | write job point =>
    obtain ⟨rfl, excused⟩ := excused
    refine ⟨rfl, ?_⟩
    have stocked (own : b.Owned job.writer c.loop) :
        b'.Stocked job.writer n ↔ b.Stocked job.writer n := by
      obtain ⟨w, hw, -⟩ := own
      exact stocked_congr ((spares _ w hw).trans hw.symm)
    cases point with
    | flush stage | dispatch stage => exact fun full => excused ((stocked fits).2 full)
    | _ => exact excused
  | _ => exact excused.elim

/-! The three kinds of moves in which no call gets on by a point: nobody gets an excuse. -/

theorem excused_beside (h : Orderly b) (noProgress : NoProgress old b b')
    (spares : b.running = none ∨ b.Spares b') (excused : b'.Excused i n k) : b.Excused i n k := by
  by_cases running : b.running = some k
  · exact (spares.resolve_left (by simp [running])).excused noProgress.toStays h running excused
  · obtain ⟨c', hc', live, excused⟩ := excused
    exact noProgress.toStays.excused h.coherent running hc' live excused

theorem excused_woken (h : Orderly b) (idle : b.running = none) (hc : b.calls[id]? = some c)
    (queued : c.status = .queued false) (noProgress : NoProgress old b b₀)
    (calls : b₀.calls = b.calls) (excused : (b₀.resolve id (.go c.program)).Excused i n k) :
    b.Excused i n k := by
  rcases excused_resolve (calls ▸ hc) excused with ⟨-, c', hc', live, excused⟩ |
    ⟨rfl, q, leads, excused⟩
  · exact noProgress.toStays.excused h.coherent (by simp [idle]) hc' live excused
  · cases leads
    exact excused_of_still h.coherent hc (by rw [Call.isEnded, queued]) (by simp [idle]) excused

theorem excused_interrupted (h : Orderly b) (idle : b.running = none) (hc : b.calls[id]? = some c)
    (noProgress : NoProgress old b b₀) (excused : ((b₀.interruptProgram id c.program).1.resolve id
      (b₀.interruptProgram id c.program).2).Excused i n k) : b.Excused i n k := by
  have stays := noProgress.toStays.trans (stays_interruptProgram b₀ id c.program)
  obtain ⟨c₁, hc₁, -⟩ := stays.kept id c hc
  rcases excused_resolve hc₁ excused with ⟨-, c', hc', live, excused⟩ | ⟨-, q, leads, -⟩
  · exact stays.excused h.coherent (by simp [idle]) hc' live excused
  · rw [interruptProgram_ends] at leads
    cases leads

theorem Sends.running (sends : b.Sends i) : b.running ≠ none := by
  obtain ⟨id, c, running, -⟩ := sends
  simp [running]

theorem Reachable.waits_le (h : Reachable b) (m : Move b b') :
    (b.historyOf i).waits ≤ (b'.historyOf i).waits := by
  cases hw : b.writers[i]? with
  | none => simp [historyOf, hw, History.waits]
  | some w =>
    obtain ⟨w', hw', ceases⟩ := h.stills m i w hw
    rw [historyOf_eq hw, historyOf_eq hw']
    exact History.waits_le ceases.later.history

theorem accounted_move (h : Reachable b) (m : Move b b') (unhurried : b.Unhurried i n)
    (acc : b.Accounted i n) : b'.Accounted i n := by
  have waits := h.waits_le m (i := i)
  have mute : ¬b.Sends i → (b'.historyOf i).batches = (b.historyOf i).batches := fun still =>
    ((m.outsideFirst h.orderly).mute still (h.unset unhurried.untimed) (h.calm unhurried.untimed)).2
  cases h.shift m with
  | beside noProgress spares =>
    refine acc.keep (History.short_le ?_) waits fun k => excused_beside h.orderly noProgress spares
    by_cases sends : b.Sends i
    · obtain ⟨w, hw⟩ := sends.there h.orderly
      have kept := spares.resolve_left sends.running i w hw
      rw [historyOf_eq hw, historyOf_eq kept]
    · exact mute sends
  | woken idle hc queued noProgress spares calls same =>
    refine acc.keep (History.short_le (mute fun sends => sends.running idle)) waits fun k => ?_
    exact same ▸ excused_woken h.orderly idle hc queued noProgress calls
  | @advanced id c running hc same =>
    obtain ⟨-, live, -, -⟩ := h.orderly.runs running hc
    rw [← proceed_eq hc] at same
    subst same
    by_cases turn : c.program.sends? = some i
    · obtain ⟨job, stage, sends, rfl⟩ := unhurried.unflushed.writes hc turn
      obtain ⟨w, hw⟩ := Sends.there ⟨id, c, running, hc, turn⟩ h.orderly
      exact accounted_dispatch hc h.orderly running live sends hw (unhurried.whole w hw) waits acc
    · refine accounted_still hc h running live unhurried.whole waits
        (History.short_le (mute ?_)) acc
      rintro ⟨id', c', running', hc', turn'⟩
      cases running.symm.trans running'
      cases hc.symm.trans hc'
      exact turn turn'
  | interrupted idle hc queued noProgress calls same =>
    refine acc.keep (History.short_le (mute fun sends => sends.running idle)) waits fun k => ?_
    exact same ▸ excused_interrupted h.orderly idle hc noProgress

theorem Unhurried.earlier (u : b'.Unhurried i n) (h : Reachable b) (m : Move b b') :
    b.Unhurried i n := by
  have later : ∀ w : Writer, b.writers[i]? = some w →
      ∃ w' : Writer, b'.writers[i]? = some w' ∧ w'.config = w.config := by
    intro w hw
    obtain ⟨w', hw', ceases⟩ := h.stills m i w hw
    exact ⟨w', hw', ceases.later.config⟩
  refine ⟨fun w hw => ?_, fun w hw => ?_, fun id c job point hc hp own => ?_⟩
  · obtain ⟨w', hw', config⟩ := later w hw
    exact config ▸ u.whole w' hw'
  · obtain ⟨w', hw', config⟩ := later w hw
    exact config ▸ u.untimed w' hw'
  · obtain ⟨c', hc', program⟩ := (h.parts m).job hc
    rw [hp] at program
    rcases program with same | becomes
    · exact u.unflushed id c' job point hc' same own
    · cases hp' : c'.program with
      | commit next after =>
        rw [hp'] at becomes
        exact u.unflushed id c' job after hc' (by rw [hp', becomes]) own
      | _ => rw [hp'] at becomes; exact becomes.elim

theorem Reachable.accounted (h : Reachable b) (u : b.Unhurried i n) : b.Accounted i n := by
  induction h with
  | init s unused =>
    have none : s.start.excuses i n = ∅ := Finset.eq_empty_of_forall_notMem fun id hm => by
      obtain ⟨c, hc, -⟩ := mem_excuses.1 hm
      cases hc
    rw [Accounted, none]
    exact Nat.zero_le _
  | move h m ih => exact accounted_move h m (u.earlier h m) (ih (u.earlier h m))

/-- **Batches are full unless waited for.** In every run in which the time in the buffer has no
limit and no commit flushes, however many writes go on at once and whatever is completed: no more
of the batches that the destination was called with are short of a full one than waits were
announced by writes. While none had to wait, all batches are full. -/
theorem batches_are_full_unless_waited_for (h : Reachable b) (hw : b.writers[i]? = some w)
    (whole : w.config.maxBatchSize.whole? = some (n : Int))
    (untimed : w.config.maxTimeInBuffer = none) (unflushed : b.Unflushed i) :
    w.history.deliveries.countP (·.length ≠ n) ≤ w.history.waits ∧
      (w.history.waits = 0 → ∀ batch ∈ w.history.deliveries, batch.length = n) := by
  have unhurried : b.Unhurried i n := by
    refine ⟨fun u hu => ?_, fun u hu => ?_, unflushed⟩
    all_goals
      cases hw.symm.trans hu
      assumption
  have acc := h.accounted unhurried
  rw [Accounted, historyOf_eq hw] at acc
  have sent : w.history.deliveries.Sublist w.history.batches :=
    (h.lawful hw).inTurn _ (List.suffix_refl _)
  have few : w.history.deliveries.countP (·.length ≠ n) ≤ w.history.waits :=
    sent.countP_le.trans ((Nat.le_add_right _ _).trans acc)
  refine ⟨few, fun none batch hm => ?_⟩
  rw [none, Nat.le_zero, List.countP_eq_zero] at few
  simpa using few batch hm

theorem unflushed_of_writes
    (writes : b.calls.all (fun c =>
      match c.program with | .write _ _ => true | _ => false) = true) :
    b.Unflushed i := fun id c job point hc hp => by
  have known := List.all_eq_true.1 writes c (List.mem_of_getElem? hc)
  simp [hp] at known

/-- A batch has left with the first two of five writes. The last two wait for its slot, and both
have seen a full batch. -/
def queuing : Bench :=
  run 35 (beginWrite 5 (beginWrite 4 (beginWrite 3 (beginWrite 2 (beginWrite 1
    (single [("max_batch_size", .nat 2), ("max_in_flight_requests", .nat 1),
      ("max_buffered_requests", .nat 5)] []))))))

theorem reachable_queuing : Reachable queuing :=
  .run ((((((reachable_single _ _).beginWrite rfl 1).beginWrite rfl 2).beginWrite rfl 3).beginWrite
    rfl 4).beginWrite rfl 5) 35

def outrun : Bench := run 10 (queuing.tellHandle (.batch 0 .main 1) (.completed []))

def leftover : Bench := run 7 (outrun.tellHandle (.batch 0 .main 2) (.completed []))

theorem reachable_leftover : Reachable leftover := by
  have first : queuing.HandleFits (.batch 0 .main 1) := ⟨_, rfl, rfl⟩
  have second : outrun.HandleFits (.batch 0 .main 2) := ⟨_, rfl, rfl⟩
  exact (((reachable_queuing.move (.tell first _)).run 10).move (.tell second _)).run 7

theorem unflushed_leftover : leftover.Unflushed 0 := unflushed_of_writes rfl

theorem batches_are_full_unless_waited_for_leftover : ∃ w, leftover.writers[0]? = some w ∧
    w.history.deliveries.length = 3 ∧ w.history.waits = 2 ∧
    w.history.deliveries.countP (·.length ≠ 2) ≤ w.history.waits := by
  obtain ⟨w, hw⟩ : ∃ w, leftover.writers[0]? = some w := ⟨_, rfl⟩
  have known : (leftover.writers[0]?).map (fun w =>
      (w.config.maxBatchSize, w.config.maxTimeInBuffer, w.history.deliveries.length,
        w.history.waits)) = some (.int 2, none, 3, 2) := rfl
  rw [hw, Option.map_some, Option.some.injEq, Prod.mk.injEq, Prod.mk.injEq, Prod.mk.injEq] at known
  obtain ⟨size, untimed, sent, waits⟩ := known
  exact ⟨w, hw, sent, waits, (batches_are_full_unless_waited_for reachable_leftover hw
    (by rw [size]; rfl) untimed unflushed_leftover).1⟩

/-- It is a batch of one. -/
theorem sends_a_short_batch : ∃ w, Reachable leftover ∧ leftover.writers[0]? = some w ∧
    w.config.maxBatchSize = .int 2 ∧ w.config.maxTimeInBuffer = none ∧ leftover.Unflushed 0 ∧
    w.history.deliveries = [[.nat 1, .nat 2], [.nat 3, .nat 4], [.nat 5]] := by
  obtain ⟨w, hw⟩ : ∃ w, leftover.writers[0]? = some w := ⟨_, rfl⟩
  have known : (leftover.writers[0]?).map (fun w =>
      (w.config.maxBatchSize, w.config.maxTimeInBuffer, w.history.deliveries)) =
      some (.int 2, none, [[.nat 1, .nat 2], [.nat 3, .nat 4], [.nat 5]]) := rfl
  rw [hw, Option.map_some, Option.some.injEq, Prod.mk.injEq, Prod.mk.injEq] at known
  obtain ⟨size, untimed, sent⟩ := known
  exact ⟨w, reachable_leftover, hw, size, untimed, unflushed_leftover, sent⟩

end Bench
end BatchWriter
