import BatchWriter.Proofs.Bench.Phases
import BatchWriter.Proofs.Bench.Segment

/-!
# What was said in a run

Beside a run a log is kept of what its writes say, each remark with the call that made it, the
writer that it is about and the element that was at hand. It is read off the histories before and
after each step, and besides it notes when the converter is called. So the log agrees with the
histories of the writers, and it turns out to agree with the meters as well.
-/

set_option autoImplicit false

namespace BatchWriter

/-- A call said this of a writer when it had done with so many of its elements. -/
structure Remark where
  writer : ℕ
  call : ℕ
  turn : ℕ
  doing : Doing

abbrev Log := List Remark

def WriteJob.remarks (job : WriteJob) (id : ℕ) (said : List Doing) : Log :=
  said.map fun d => ⟨job.writer, id, job.written, d⟩

namespace Log

def ofTurn (log : Log) (call turn : ℕ) : List Doing :=
  (log.filter fun r => r.call = call ∧ r.turn = turn).map Remark.doing

def ofWriter (log : Log) (i : ℕ) : List Doing :=
  (log.filter fun r => r.writer = i).map Remark.doing

variable (log : Log) (job : WriteJob) (id : ℕ) (said : List Doing)

theorem ofTurn_append (call k : ℕ) : (log ++ job.remarks id said).ofTurn call k =
    log.ofTurn call k ++ if id = call ∧ job.written = k then said else [] := by
  rw [ofTurn, List.filter_append, List.map_append, ofTurn, WriteJob.remarks, List.filter_map]
  congr 1
  split
  · next own => simp [Function.comp_def, own]
  · next other => simp [Function.comp_def, other]

theorem ofTurn_own : (log ++ job.remarks id said).ofTurn id job.written =
    log.ofTurn id job.written ++ said := by
  rw [ofTurn_append, if_pos ⟨rfl, rfl⟩]

theorem ofTurn_of_ne {k : ℕ} (other : job.written ≠ k) :
    (log ++ job.remarks id said).ofTurn id k = log.ofTurn id k := by
  rw [ofTurn_append, if_neg fun own => other own.2, List.append_nil]

theorem ofWriter_append (j : ℕ) : (log ++ job.remarks id said).ofWriter j =
    log.ofWriter j ++ if j = job.writer then said else [] := by
  rw [ofWriter, List.filter_append, List.map_append, ofWriter, WriteJob.remarks, List.filter_map]
  congr 1
  split
  · next own => simp [Function.comp_def, own]
  · next other => simp [Function.comp_def, Ne.symm other]

end Log

namespace Bench

/-- What the next step of a call adds to the doings that the history of the writer at `i` tells. -/
def adds (b : Bench) (id i : ℕ) : List Doing :=
  ((b.proceed id).historyOf i).doings.drop (b.historyOf i).doings.length

/-- The call of the converter, of which no history tells. -/
def consults (b : Bench) (job : WriteJob) : WritePoint → List Doing
  | .accept => ((b.writers[job.writer]?).map fun w => Doing.converted (w.conversion job)).toList
  | _ => []

/-- What a write says in its next step: what it has the converter do, and what the history of its
writer tells afterwards and did not tell before. -/
def said (b : Bench) (id : ℕ) (job : WriteJob) (point : WritePoint) : List Doing :=
  b.consults job point ++ b.adds id job.writer

end Bench

def Program.remarks (b : Bench) (id : ℕ) : Program → Log
  | .write job point => job.remarks id (b.said id job point)
  | _ => []

theorem Writer.Later.label {w w' : Writer} (h : w.Later w') : w'.label = w.label :=
  congrArg Value.display h.id

namespace Bench

variable {b b' : Bench} {log : Log} {id i k : ℕ} {c c' : Call} {w : Writer} {job : WriteJob}
  {point : WritePoint}

def remarks (b : Bench) (id : ℕ) : Log :=
  match b.calls[id]? with
  | some c => c.program.remarks b id
  | none => []

/-- The benches of all runs, with what was said on the way. -/
inductive Chronicle : Bench → Log → Prop where
  | init (s : Scenario) (unused : s.Unused) : Chronicle s.start []
  /-- The running call goes on by one point. -/
  | proceed {b : Bench} {log : Log} {id : ℕ} (h : Chronicle b log) (running : b.running = some id) :
      Chronicle (b.proceed id) (log ++ b.remarks id)
  /-- Anything else happens. -/
  | beside {b b' : Bench} {log : Log} (h : Chronicle b log) (m : Move b b')
      (other : ∀ id, b.running = some id → b' ≠ b.proceed id) : Chronicle b' log

theorem Chronicle.reachable (h : Chronicle b log) : Reachable b := by
  induction h with
  | init s unused => exact .init s unused
  | proceed h running ih => exact ih.move (move_proceed running)
  | beside h m other ih => exact ih.move m

theorem Reachable.chronicle (h : Reachable b) : ∃ log, Chronicle b log := by
  induction h with
  | init s unused => exact ⟨[], .init s unused⟩
  | @move b b' h m ih =>
    obtain ⟨log, chronicle⟩ := ih
    by_cases next : ∃ id, b.running = some id ∧ b' = b.proceed id
    · obtain ⟨id, running, rfl⟩ := next
      exact ⟨_, chronicle.proceed running⟩
    · exact ⟨log, chronicle.beside m fun id running same => next ⟨id, running, same⟩⟩

theorem remarks_other (hc : b.calls[id]? = some c)
    (other : ∀ job point, c.program ≠ .write job point) : b.remarks id = [] := by
  rw [remarks, hc]
  dsimp only
  generalize c.program = p at other
  cases p with
  | write job point => exact absurd rfl (other job point)
  | _ => rfl

theorem ofTurn_remarks (b : Bench) (log : Log) (other : k ≠ id) (turn : ℕ) :
    (log ++ b.remarks id).ofTurn k turn = log.ofTurn k turn := by
  have none : Log.ofTurn (b.remarks id) k turn = [] := by
    rw [Log.ofTurn, List.map_eq_nil_iff, List.filter_eq_nil_iff]
    unfold remarks
    split
    · next c _ =>
      generalize c.program = p
      unfold Program.remarks
      split
      · simp [WriteJob.remarks, Ne.symm other]
      · simp
    · simp
  rw [Log.ofTurn, List.filter_append, List.map_append, ← Log.ofTurn, ← Log.ofTurn, none,
    List.append_nil]

theorem Reachable.writer_of_write (h : Reachable b) (hc : b.calls[id]? = some c)
    (live : c.isEnded = false) (hp : c.program = .write job point) :
    ∃ w, b.writers[job.writer]? = some w := by
  have fits := (h.orderly.coherent.calls id c hc (by simp) live).1
  rw [hp] at fits
  exact Program.Fits.writer fits

/-- The running call is a write of a writer that is there, or it says nothing. -/
theorem Reachable.speaks (h : Reachable b) (running : b.running = some id) :
    (∃ c job point w, b.calls[id]? = some c ∧ c.program = .write job point ∧
        c.isEnded = false ∧ b.writers[job.writer]? = some w) ∨
      ∃ c, b.calls[id]? = some c ∧ ∀ job point, c.program ≠ .write job point := by
  obtain ⟨c, hc, -⟩ := h.orderly.current id running
  by_cases writes : ∃ job point, c.program = .write job point
  · obtain ⟨job, point, hp⟩ := writes
    obtain ⟨-, live, -, -⟩ := h.orderly.runs running hc
    obtain ⟨w, hw⟩ := h.writer_of_write hc live hp
    exact .inl ⟨c, job, point, w, hc, hp, live, hw⟩
  · exact .inr ⟨c, hc, fun job point hp => writes ⟨job, point, hp⟩⟩

/-! ## Histories and meters -/

theorem tells_proceed (hc : b.calls[id]? = some c) (hp : c.program = .write job point)
    (hw : b.writers[job.writer]? = some w) :
    Tells job.writer w.label (w.utters job point) b (b.proceed id) := by
  have tells := tells_writeStep hw id c.loop point
  have resolved : ∀ progress, NothingSaid (b.advanceProgram id c.loop c.program).1
      ((b.advanceProgram id c.loop c.program).1.resolve id progress) :=
    fun progress => .bypasses (.resolve _ _ _)
  rw [proceed_eq hc]
  refine .andThen ?_ (resolved _)
  rw [hp]
  exact tells

theorem nothingSaid_proceed (hc : b.calls[id]? = some c)
    (other : ∀ job point, c.program ≠ .write job point) : NothingSaid b (b.proceed id) := by
  have nothingSaid : NothingSaid b (b.advanceProgram id c.loop c.program).1 :=
    .advanceProgram other _ _ _
  rw [proceed_eq hc]
  exact nothingSaid.trans (.bypasses (.resolve _ _ _))

theorem said_eq (hc : b.calls[id]? = some c) (hp : c.program = .write job point)
    (hw : b.writers[job.writer]? = some w) : b.said id job point = w.utters job point := by
  have adds : b.adds id job.writer = (w.utters job point).filter Doing.told := by
    rw [adds, (tells_proceed hc hp hw).doings, if_pos rfl, List.drop_left]
  rw [said, adds]
  cases point with
  | accept =>
    cases converts : w.conversion job <;> simp [consults, hw, Writer.utters, converts, Doing.told]
  | gate blocked =>
    simp only [consults, Writer.utters, List.nil_append]
    split_ifs <;> rfl
  | flush stage =>
    simp only [consults, Writer.utters, List.nil_append]
    split_ifs <;> rfl
  | _ => rfl

theorem remarks_write (hc : b.calls[id]? = some c) (hp : c.program = .write job point)
    (hw : b.writers[job.writer]? = some w) :
    b.remarks id = job.remarks id (w.utters job point) := by
  rw [remarks, hc]
  simp only [hp, Program.remarks, said_eq hc hp hw]

/-- A writer's history tells what was said of it, in the same order. -/
theorem Chronicle.doings (h : Chronicle b log) (i : ℕ) :
    (b.historyOf i).doings = (log.ofWriter i).filter Doing.told := by
  induction h with
  | init s unused => rfl
  | beside h m other ih => rw [(m.nothingSaid other).doings, ih]
  | @proceed b log id h running ih =>
    rcases h.reachable.speaks running with ⟨c, job, point, w, hc, hp, -, hw⟩ | ⟨c, hc, other⟩
    · rw [(tells_proceed hc hp hw).doings, ih, remarks_write hc hp hw, Log.ofWriter_append,
        List.filter_append]
      split <;> rfl
    · rw [(nothingSaid_proceed hc other).doings, ih, remarks_other hc other, List.append_nil]

def concerns (b : Bench) (label : String) (r : Remark) : Bool :=
  (b.writers[r.writer]?).any fun w => w.label = label

def Placed (b : Bench) (r : Remark) : Prop :=
  b.calls[r.call]? ≠ none ∧ b.Held r.writer

theorem Placed.move {r : Remark} (placed : b.Placed r) (h : Reachable b) (m : Move b b') :
    b'.Placed r ∧ ∀ label, b'.concerns label r = b.concerns label r := by
  obtain ⟨called, w, hw⟩ := placed
  obtain ⟨w', hw', ceases⟩ := h.stills m r.writer w hw
  obtain ⟨c, hc⟩ := Option.ne_none_iff_exists'.1 called
  obtain ⟨c', hc', -⟩ := (h.parts m).job hc
  refine ⟨⟨by simp [hc'], w', hw'⟩, fun label => ?_⟩
  simp [concerns, hw, hw', ceases.later.label]

theorem Chronicle.placed (h : Chronicle b log) : ∀ r ∈ log, b.Placed r := by
  induction h with
  | init s unused => simp
  | beside h m other ih => exact fun r hr => ((ih r hr).move h.reachable m).1
  | @proceed b log id h running ih =>
    have m := move_proceed running
    intro r hr
    rcases List.mem_append.1 hr with old | new
    · exact ((ih r old).move h.reachable m).1
    · rcases h.reachable.speaks running with ⟨c, job, point, w, hc, hp, -, hw⟩ | ⟨c, hc, other⟩
      · rw [remarks_write hc hp hw] at new
        obtain ⟨d, -, rfl⟩ := List.mem_map.1 new
        exact (Placed.move ⟨by simp [hc], w, hw⟩ h.reachable m).1
      · rw [remarks_other hc other] at new
        cases new

/-- Nobody speaks before it is called. -/
theorem Chronicle.silent (h : Chronicle b log) (new : b.calls[id]? = none) (k : ℕ) :
    log.ofTurn id k = [] := by
  rw [Log.ofTurn, List.map_eq_nil_iff, List.filter_eq_nil_iff]
  intro r hr own
  have own : r.call = id := (of_decide_eq_true own).1
  exact (h.placed r hr).1 (own ▸ new)

theorem Chronicle.concerns_eq (h : Chronicle b log) (m : Move b b') {r : Remark} (hr : r ∈ log)
    (label : String) : b'.concerns label r = b.concerns label r :=
  ((h.placed r hr).move h.reachable m).2 label

def heard (b : Bench) (log : Log) (label : String) (k : Meter) : ℕ :=
  log.countP fun r => b.concerns label r && r.doing.moves k

theorem Chronicle.heard_move (h : Chronicle b log) (m : Move b b') (label : String) (k : Meter) :
    b'.heard log label k = b.heard log label k :=
  List.countP_congr fun r hr => by rw [h.concerns_eq m hr label]

/-- A meter shows what was said of the writers of its label, all in all. -/
theorem Chronicle.meters (h : Chronicle b log) (label : String) (k : Meter) :
    b.metrics.meter label k = b.heard log label k := by
  induction h with
  | init s unused => cases k <;> rfl
  | beside h m other ih => rw [(m.nothingSaid other).meters, ih, h.heard_move m]
  | @proceed b log id h running ih =>
    have m := move_proceed running
    have earlier := h.heard_move m label k
    rcases h.reachable.speaks running with ⟨c, job, point, w, hc, hp, -, hw⟩ | ⟨c, hc, other⟩
    · obtain ⟨w', hw', ceases⟩ := h.reachable.stills m job.writer w hw
      have same := ceases.later.label
      have new : (b.proceed id).heard (b.remarks id) label k =
          if label = w.label then (w.utters job point).countP (Doing.moves k) else 0 := by
        rw [remarks_write hc hp hw, heard, WriteJob.remarks, List.countP_map]
        by_cases own : w.label = label
        · simp [Function.comp_def, concerns, hw', same, own]
        · simp [Function.comp_def, concerns, hw', same, own, Ne.symm own]
      rw [(tells_proceed hc hp hw).meters, ih, ← earlier, ← new, heard, heard, heard,
        List.countP_append]
    · rw [(nothingSaid_proceed hc other).meters, ih, remarks_other hc other,
        List.append_nil, earlier]

end Bench
end BatchWriter
