import BatchWriter.Proofs.Bench.Full
import BatchWriter.Proofs.Writer.Spending
import Mathlib.Data.Prod.Lex

/-!
# Points without a pause come nearer to the end

A write or a commit that goes on without a pause comes nearer to its end with every point. Either
it is further in the element at hand, or its dispatch has left less in the buffer, or it is at a
later point of a round over the same buffer, or its event has fewer subscribers before it. A
dispatch that leaves as much in the buffer has found it empty, which ends the round.
-/

set_option autoImplicit false

namespace BatchWriter

namespace Delivery

def ahead (d : Delivery) : ℕ :=
  2 * d.remaining.length + match d.attention with
    | .fresh => 1
    | _ => 0

theorem ahead_next {d : Delivery} (some : d.remaining ≠ []) : d.next.ahead < d.ahead := by
  have length := List.length_pos_iff.2 some
  simp only [ahead, next, List.length_drop]
  omega

end Delivery

namespace WritePoint

/-- The stretch that a write of so many elements has reached: each element is let in first and
its batches are sent then. -/
def lap (left : ℕ) : WritePoint → ℕ
  | .start => 3 * left
  | .gate _ | .accept => 3 * (left - 1) + 2
  | .batching => 3 * (left - 1) + 1
  | .flush stage | .slot stage | .woken stage | .dispatch stage =>
    match stage with
    | .filling _ => 3 * (left - 1) + 2
    | .batching => 3 * (left - 1) + 1
  | .publishing _ next => lap left next

/-- How far a round is from the next dispatch, or from the end of its stretch. -/
def rank (w : Writer) : WritePoint → ℕ
  | .start | .accept => 0
  | .gate _ => if w.buffer.isFull then 5 else 1
  | .batching => if w.hasFullBatch then 5 else 1
  | .flush _ | .woken _ => 4
  | .slot _ => 3
  | .dispatch _ => 2
  | .publishing _ next => rank w next

def undelivered : WritePoint → ℕ
  | .publishing d _ => d.ahead + 1
  | _ => 0

theorem undelivered_of_resumes {next : WritePoint} (resumes : next.Resumes) :
    next.undelivered = 0 := by
  cases next with
  | publishing _ _ => exact resumes.elim
  | _ => rfl

end WritePoint

def CommitPoint.rank : CommitPoint → ℕ
  | .start | .woken => 1
  | .drain => 0

namespace Program

def works? : Program → Option ℕ
  | .write job _ => some job.writer
  | .commit job _ => some job.writer
  | _ => none

def ahead (w : Writer) : Program → ℕ ×ₗ ℕ ×ₗ ℕ ×ₗ ℕ
  | .write job point => toLex (point.lap job.elements.length,
      toLex (w.buffer.size, toLex (point.rank w, point.undelivered)))
  | .commit _ point => toLex (0, toLex (w.buffer.size, toLex (point.rank, 0)))
  | _ => toLex (0, toLex (0, toLex (0, 0)))

/-- A program reads nothing of its writer but the buffer and the limits. -/
theorem ahead_congr {w w' : Writer} (config : w'.config = w.config) (buffer : w'.buffer = w.buffer)
    (p : Program) : p.ahead w' = p.ahead w := by
  have rank : ∀ point : WritePoint, point.rank w' = point.rank w := by
    intro point
    induction point with
    | gate _ => rw [WritePoint.rank, WritePoint.rank, buffer]
    | batching =>
      rw [WritePoint.rank, WritePoint.rank, Writer.hasFullBatch, Writer.hasFullBatch, config,
        buffer]
    | publishing _ _ ih => exact ih
    | _ => rfl
  cases p with
  | write job point => rw [ahead, ahead, rank, buffer]
  | commit job point => rw [ahead, ahead, buffer]
  | _ => rfl

end Program

/-- The order of quadruples: the first part that differs decides. -/
theorem lex_lt {a b c d a' b' c' d' : ℕ}
    (h : a < a' ∨ a = a' ∧ (b < b' ∨ b = b' ∧ (c < c' ∨ c = c' ∧ d < d'))) :
    (toLex (a, toLex (b, toLex (c, d))) : ℕ ×ₗ ℕ ×ₗ ℕ ×ₗ ℕ) <
      toLex (a', toLex (b', toLex (c', d'))) := by
  simpa [Prod.Lex.toLex_lt_toLex] using h

namespace Writer

variable {w u : Writer} {now : ℕ} {loop : LoopName}

/-- A buffer that holds nothing is neither full nor does it hold a full batch. -/
theorem Lawful.empty (lawful : w.Lawful) (empty : w.buffer.size = 0) :
    w.buffer.isFull = false ∧ w.hasFullBatch = false := by
  obtain ⟨args, accepted⟩ := lawful.accepted
  have kept := Config.kept_of_ofArguments accepted
  refine ⟨?_, ?_⟩
  · rw [Buffer.isFull, lawful.capacity, empty]
    exact Bool.eq_false_iff.2 fun low => kept .buffered ((Number.le_iff _ _).1 low)
  · rw [hasFullBatch, empty]
    exact Bool.eq_false_iff.2 fun low => kept .batchSize ((Number.le_iff _ _).1 low)

theorem Lawful.positive (lawful : w.Lawful) : w.config.maxBatchSize.le (.int 0) = false := by
  obtain ⟨args, accepted⟩ := lawful.accepted
  refine Bool.eq_false_iff.2 fun low => ?_
  exact Config.kept_of_ofArguments accepted .batchSize ((Number.le_iff _ _).1 low)

/-- The destination was called with the batch that was opened. -/
theorem Opens.sends {parcel : Parcel} {inFlight : InFlight Value} (opens : w.Opens now parcel u)
    (ids : inFlight.ids = u.inFlight.ids) (refusal : Option Fault) :
    w.Sends (Writer.concludeDispatch now parcel refusal { u with inFlight }).fault
      (Writer.concludeDispatch now parcel refusal { u with inFlight }).writer parcel.entries := by
  have history : u.history = (now, .opened parcel.batch parcel.entries) :: w.history := by
    rw [opens.same]
  have config : u.config = w.config := by rw [opens.same]
  have batches : u.history.batches = w.history.batches ++ [parcel.entries] := by
    rw [history]
    rfl
  have deliveries : u.history.deliveries = w.history.deliveries := by
    rw [history]
    rfl
  constructor
  · rcases writer_concludeDispatch (w := { u with inFlight }) now parcel refusal with
      same | ⟨fault, -, same⟩
    all_goals
      rw [same]
      exact config
  · exact opens.usable
  · exact opens.some
  · rw [batches_concludeDispatch]
    exact batches
  · rcases writer_concludeDispatch (w := { u with inFlight }) now parcel refusal with
      same | ⟨fault, -, same⟩
    all_goals
      rw [same, ← deliveries]
      exact .inl rfl
  · intro through
    have accepted : refusal = none := by
      cases refusal with
      | none => rfl
      | some fault =>
        simp only [concludeDispatch] at through
        split at through <;> cases through
    subst accepted
    have usable : u.refusal? = none := by rw [opens.same]; exact opens.usable
    refine ⟨usable, ?_, Buffer.size_of_take opens.taken⟩
    show inFlight.count = _
    rw [← InFlight.length_ids, ids, opens.ids, List.length_append, InFlight.length_ids]
    rfl

end Writer

namespace Bench

open Writer (CallChange)

variable {b b' : Bench} {i id : ℕ} {w : Writer} {loop : LoopName}

/-- A dispatch sends a batch, or it has nothing to send unless a fault came up. -/
theorem sends_dispatch (hw : b.writers[i]? = some w) (lawful : w.Lawful)
    (bound : w.loop = some loop) : ∃ w', (b.dispatch i loop).2.writers[i]? = some w' ∧
      (w.Idles w' ∧ ((b.dispatch i loop).1 = none → w.buffer.size = 0) ∨
      ∃ entries, w.Sends (b.dispatch i loop).1 w' entries) := by
  rcases dispatch_parts hw bound with
    ⟨same, kept, -⟩ | ⟨parcel, u, inFlight, r, -, opens, ids, -, -, hu, same⟩
  · rw [same, fault_change hw]
    refine ⟨_, writer_change hw _, ?_⟩
    rcases Writer.startDispatch_idle bound lawful.positive kept with
      idle | ⟨entries, -, sends⟩
    · exact .inl idle
    · exact .inr ⟨entries, sends⟩
  · rw [same, fault_change hu]
    exact ⟨_, writer_change hu _, .inr ⟨parcel.entries, opens.sends ids r.1⟩⟩

/-! ## What subscribers do -/

theorem idles_change (hw : b.writers[i]? = some w) (j : ℕ) {f : Writer → Change}
    (idles : ∀ v : Writer, v.Idles (f v).writer) :
    ∃ w', (b.change j f).2.writers[i]? = some w' ∧ w.Idles w' := by
  cases hv : b.writers[j]? with
  | none => exact ⟨w, by rw [change_of_none hv, hw], .refl w⟩
  | some v =>
    by_cases same : i = j
    · subst same
      cases hw.symm.trans hv
      exact ⟨_, writer_change hw f, idles w⟩
    · exact ⟨w, by rw [writer_change_of_ne hv f same, hw], .refl w⟩

def Attends (i : ℕ) (w : Writer) (d : Delivery) (r : Bench × DeliveryProgress) : Prop :=
  (∃ w', r.1.writers[i]? = some w' ∧ w.Idles w') ∧ ∀ d', r.2 = .go d' → d'.ahead < d.ahead

theorem attends_of_writers {d : Delivery} {progress : DeliveryProgress}
    (hw : b.writers[i]? = some w) (same : b'.writers = b.writers)
    (less : ∀ d', progress = .go d' → d'.ahead < d.ahead) : Attends i w d (b', progress) :=
  ⟨⟨w, by rw [same, hw], .refl w⟩, less⟩

theorem attends_next {d : Delivery} (hw : b.writers[i]? = some w) (same : b'.writers = b.writers)
    (some : d.remaining ≠ []) : Attends i w d (b', .go d.next) := by
  refine attends_of_writers hw same fun d' go => ?_
  cases go
  exact Delivery.ahead_next some

theorem attends_subscriberFault {d : Delivery} (hw : b.writers[i]? = some w)
    (some : d.remaining ≠ []) (fault : Fault) : Attends i w d (b.subscriberFault d fault) := by
  unfold subscriberFault
  split
  · exact attends_next hw rfl some
  · exact attends_of_writers hw rfl nofun

theorem attends_react {d : Delivery} (hw : b.writers[i]? = some w) (some : d.remaining ≠ [])
    (fresh : d.attention = .fresh) (reaction : Reaction) :
    Attends i w d (b.react d reaction) := by
  cases reaction with
  | collect => exact attends_next hw rfl some
  | raise fault => exact attends_subscriberFault hw some fault
  | sleep milliseconds =>
    unfold react
    dsimp only
    split
    · exact attends_subscriberFault hw some _
    · exact attends_of_writers hw rfl nofun
    · exact attends_of_writers hw rfl nofun
  | yield times =>
    refine attends_of_writers hw rfl fun d' go => ?_
    cases go
    simp [Delivery.ahead, fresh]
  | unsubscribe bus name => exact attends_next hw (Aside.unsubscribe b bus name).writers some
  | subscribe bus name => exact attends_next hw (Aside.subscribe b bus name).writers some
  | close name =>
    unfold react
    dsimp only
    split
    · refine ⟨idles_change hw _ fun v => .close v _, fun d' go => ?_⟩
      cases go
      exact Delivery.ahead_next some
    · exact attends_subscriberFault hw some _
  | complete destination call =>
    unfold react
    dsimp only
    split
    · exact attends_next hw (writers_tellHandle _ _ _) some
    · exact attends_subscriberFault hw some _

theorem attends (hw : b.writers[i]? = some w) (d : Delivery) : Attends i w d (b.attend d) := by
  unfold attend
  split
  · exact attends_of_writers hw rfl nofun
  · next asked =>
    have some : d.remaining ≠ [] := by simp [asked]
    split
    · exact attends_next hw rfl some
    · exact attends_next hw rfl some
    · exact attends_of_writers hw rfl nofun
    · next fresh =>
      split
      · exact attends_subscriberFault hw some _
      · exact attends_react (b := b.tell _) hw some fresh _

/-! ## Points without a dispatch -/

/-- One point of a program sends nothing of the writer at `i`, and a program that goes on at once
is nearer to its end. -/
def ComesNearer (i : ℕ) (p : Program) (w : Writer) (r : Bench × Progress) : Prop :=
  ∃ w', r.1.writers[i]? = some w' ∧ w.Holds w' ∧ ∀ q, r.2 = .go q → q.ahead w' < p.ahead w

variable {p q : Program} {job : WriteJob}

theorem comesNearer_go (hw : b.writers[i]? = some w) (nearer : q.ahead w < p.ahead w) :
    ComesNearer i p w (b, .go q) := by
  refine ⟨w, hw, (Writer.Idles.refl w).toHolds, fun q' go => ?_⟩
  cases go
  exact nearer

theorem comesNearer_halt (hw : b.writers[i]? = some w) {progress : Progress}
    (rests : progress.goesOn = false) : ComesNearer i p w (b, progress) := by
  refine ⟨w, hw, (Writer.Idles.refl w).toHolds, fun q' go => ?_⟩
  cases go
  cases rests

theorem comesNearer_changeThen (hw : b.writers[i]? = some w) {f : Writer → Change}
    (idles : w.Idles (f w).writer) (nearer : q.ahead w < p.ahead w) :
    ComesNearer i p w (b.changeThen i f q) := by
  refine ⟨_, writer_change hw f, idles.toHolds, fun q' go => ?_⟩
  rw [changeThen] at go
  cases through : (b.change i f).1 with
  | none =>
    rw [through] at go
    cases go
    rwa [Program.ahead_congr idles.config idles.buffer]
  | some fault =>
    rw [through] at go
    cases go

/-- The event is published and the write goes on from where it resumes. -/
theorem comesNearer_publishLevel (hw : b.writers[job.writer]? = some w) (point next : WritePoint)
    (lap : next.lap job.elements.length = point.lap job.elements.length)
    (rank : next.rank w < point.rank w) (u : Writer) (level : Level) (reason : String) :
    ComesNearer job.writer (.write job point) w (b.publishLevel job u level reason next) := by
  have told : (b.publishLevel job u level reason next).1.writers[job.writer]? =
      some (w.note b.now (.announced (u.event level reason))) := by
    rw [publishLevel]
    dsimp only
    rw [(Aside.publication _ _ _).writers]
    exact writer_change hw _
  have idles : w.Idles (w.note b.now (.announced (u.event level reason))) :=
    .announced w (u.event level reason)
  refine ⟨_, told, idles.toHolds, fun q' go => ?_⟩
  rw [Program.ahead_congr idles.config idles.buffer]
  rw [publishLevel] at go
  dsimp only at go
  split at go
  all_goals
    cases go
    exact lex_lt (.inr ⟨lap, .inr ⟨rfl, .inl rank⟩⟩)

theorem comesNearer_waitForChange (hw : b.writers[i]? = some w) (id : ℕ) (loop : LoopName)
    (next : Program) : ComesNearer i p w (b.waitForChange id i loop next) := by
  have idles : w.Idles ((w.checkUsable.andThen (Writer.bind loop)).andThen
      (Writer.addWaiter id)).writer :=
    ((Writer.Idles.checkUsable w).andThen fun v => .bind v loop).andThen
      fun v => .of_same rfl rfl rfl rfl rfl
  refine ⟨_, writer_change hw _, idles.toHolds, fun q' go => ?_⟩
  rw [waitForChange] at go
  dsimp only at go
  generalize (b.change i _).1 = fault at go
  cases fault <;> cases go

theorem comesNearer_afterWaiting (hw : b.writers[i]? = some w) (id : ℕ)
    (nearer : q.ahead w < p.ahead w) : ComesNearer i p w (b.afterWaiting id i q) := by
  have drops : w.Idles (w.dropWaiter id).writer := .of_same rfl rfl rfl rfl rfl
  exact comesNearer_changeThen hw (drops.andThen fun v => .checkUsable v) nearer

theorem comesNearer_writeStart (hw : b.writers[job.writer]? = some w) :
    ComesNearer job.writer (.write job .start) w (b.writeStart loop job) := by
  unfold writeStart
  split
  · exact comesNearer_halt hw rfl
  · next some =>
    apply comesNearer_changeThen hw ((Writer.Idles.bind w loop).andThen fun v => .checkUsable v)
    have length := List.length_pos_iff.2 some
    apply lex_lt
    simp only [WritePoint.lap]
    omega

theorem comesNearer_writeGate (hw : b.writers[job.writer]? = some w) (blocked : Bool) :
    ComesNearer job.writer (.write job (.gate blocked)) w (b.writeGate job blocked) := by
  rw [writeGate, withWriter_some hw]
  split
  · next full =>
    have rank : (4 : ℕ) < (WritePoint.gate blocked).rank w := by
      rw [WritePoint.rank, if_pos full]
      decide
    split
    · have held : (b.change job.writer (·.holdBack .bufferFull)).2.writers[job.writer]? = some w :=
        writer_change hw _
      exact comesNearer_publishLevel held (.gate blocked) (.flush _) rfl rank _ _ _
    · exact comesNearer_go hw (lex_lt (.inr ⟨rfl, .inr ⟨rfl, .inl rank⟩⟩))
  · next room =>
    have rank : (0 : ℕ) < (WritePoint.gate blocked).rank w := by
      rw [WritePoint.rank, if_neg room]
      decide
    split
    · exact comesNearer_publishLevel hw (.gate blocked) .accept rfl rank _ _ _
    · exact comesNearer_go hw (lex_lt (.inr ⟨rfl, .inr ⟨rfl, .inl rank⟩⟩))

theorem comesNearer_writeFlush (hw : b.writers[job.writer]? = some w) (stage : Stage) :
    ComesNearer job.writer (.write job (.flush stage)) w (b.writeFlush job stage) := by
  rw [writeFlush, withWriter_some hw]
  have lap : ∀ n, (WritePoint.slot stage).lap n = (WritePoint.flush stage).lap n ∧
      (WritePoint.dispatch stage).lap n = (WritePoint.flush stage).lap n := fun n => ⟨rfl, rfl⟩
  split
  · exact comesNearer_go hw
      (lex_lt (.inr ⟨(lap _).2, .inr ⟨rfl, .inl (by simp [WritePoint.rank])⟩⟩))
  · have held : (b.change job.writer (·.holdBack .inFlightLimit)).2.writers[job.writer]? =
        some w := writer_change hw _
    exact comesNearer_publishLevel held (.flush stage) (.slot stage) (lap _).1
      (by simp [WritePoint.rank]) _ _ _

theorem comesNearer_writeSlot (hw : b.writers[job.writer]? = some w) (id : ℕ) (stage : Stage) :
    ComesNearer job.writer (.write job (.slot stage)) w (b.writeSlot id loop job stage) := by
  rw [writeSlot, withWriter_some hw]
  split
  · refine comesNearer_go hw (lex_lt (.inr ⟨?_, .inr ⟨rfl, .inl (by simp [WritePoint.rank])⟩⟩))
    rfl
  · exact comesNearer_waitForChange hw id loop _

/-- The entry is appended and the write has left the first stretch of its element. -/
theorem comesNearer_writeAccept (hw : b.writers[job.writer]? = some w) :
    ComesNearer job.writer (.write job .accept) w (b.writeAccept job) := by
  rw [writeAccept, withWriter_some hw]
  split
  · exact comesNearer_halt hw rfl
  · next entry _ =>
    refine ⟨_, writer_change hw _, .accept w b.now entry, fun q' go => ?_⟩
    rw [changeThen] at go
    dsimp only at go
    generalize (b.change job.writer _).1 = fault at go
    cases fault with
    | some fault => cases go
    | none =>
      cases go
      exact lex_lt (.inl (by simp only [WritePoint.lap]; omega))

theorem comesNearer_writeBatching (hw : b.writers[job.writer]? = some w) :
    ComesNearer job.writer (.write job .batching) w (b.writeBatching job) := by
  rw [writeBatching, withWriter_some hw]
  split
  · next full =>
    refine comesNearer_go hw (lex_lt (.inr ⟨rfl, .inr ⟨rfl, .inl ?_⟩⟩))
    rw [WritePoint.rank, WritePoint.rank, if_pos full]
    decide
  · apply comesNearer_changeThen hw (f := (·.showGauges)) (.refl w)
    apply lex_lt
    simp only [WritePoint.lap, List.length_drop]
    omega

theorem comesNearer_writePublishing (hw : b.writers[job.writer]? = some w) (d : Delivery)
    {next : WritePoint} (resumes : next.Resumes) :
    ComesNearer job.writer (.write job (.publishing d next)) w (b.writePublishing job d next) := by
  obtain ⟨⟨w', hw', idles⟩, less⟩ := attends hw d
  refine ⟨w', hw', idles.toHolds, fun q' go => ?_⟩
  rw [Program.ahead_congr idles.config idles.buffer]
  rw [writePublishing] at go
  dsimp only at go
  split at go
  · next d' goes =>
    cases go
    exact lex_lt (.inr ⟨rfl, .inr ⟨rfl, .inr ⟨rfl, Nat.succ_lt_succ (less d' goes)⟩⟩⟩)
  · cases go
  · cases go
  · cases go
    refine lex_lt (.inr ⟨rfl, .inr ⟨rfl, .inr ⟨rfl, ?_⟩⟩⟩)
    rw [WritePoint.undelivered_of_resumes resumes]
    exact Nat.succ_pos _
  · cases go

theorem comesNearer_commitStart {job : CommitJob} (hw : b.writers[job.writer]? = some w) :
    ComesNearer job.writer (.commit job .start) w (b.commitStart loop job) := by
  apply comesNearer_changeThen hw
    (((Writer.Idles.bind w loop).andThen fun v => .checkUsable v).andThen
    fun v => .of_same rfl rfl rfl rfl rfl)
  exact lex_lt (.inr ⟨rfl, .inr ⟨rfl, .inl (by decide)⟩⟩)

/-! ## Dispatches -/

/-- One point of a program sends one batch of the writer at `i` in a free slot. Unless a fault
came up, a program that goes on at once is nearer to its end. -/
def Ships (i : ℕ) (p : Program) (w : Writer) (r : Bench × Progress) : Prop :=
  ∃ w' fault entries, r.1.writers[i]? = some w' ∧ w.hasCapacity = true ∧ w.Sends fault w' entries ∧
    (fault ≠ none → r.2.goesOn = false) ∧ ∀ q, r.2 = .go q → q.ahead w' < p.ahead w

/-- A dispatch for a program that goes on from there, unless the program was done with a full
buffer or batch and there was nothing to send. -/
theorem ships_dispatch (hw : b.writers[i]? = some w) (lawful : w.Lawful)
    (bound : w.loop = some loop) (room : w.hasCapacity = true)
    (idle : w.buffer.size = 0 → q.ahead w < p.ahead w)
    (nearer : ∀ w' : Writer, w'.buffer.size < w.buffer.size → q.ahead w' < p.ahead w) :
    ComesNearer i p w ((b.dispatch i loop).2, .goUnless (b.dispatch i loop).1 q) ∨
      Ships i p w ((b.dispatch i loop).2, .goUnless (b.dispatch i loop).1 q) := by
  obtain ⟨w', hw', sends⟩ := sends_dispatch hw lawful bound
  generalize b.dispatch i loop = r at hw' sends
  obtain ⟨fault, b'⟩ := r
  dsimp only at hw' sends ⊢
  rcases sends with ⟨idles, nothing⟩ | ⟨entries, sends⟩
  · refine .inl ⟨w', hw', idles.toHolds, fun q' go => ?_⟩
    cases fault with
    | some fault => cases go
    | none =>
      cases go
      rw [Program.ahead_congr idles.config idles.buffer]
      exact idle (nothing rfl)
  · refine .inr ⟨w', fault, entries, hw', room, sends, fun faulty => ?_, fun q' go => ?_⟩
    · cases fault with
      | some fault => rfl
      | none => exact absurd rfl faulty
    · cases fault with
      | some fault => cases go
      | none =>
        cases go
        obtain ⟨-, -, sizes⟩ := sends.onward rfl
        have some := List.length_pos_iff.2 sends.filled
        exact nearer w' (by omega)

theorem ships_writeDispatch (hw : b.writers[job.writer]? = some w) (lawful : w.Lawful)
    (bound : w.loop = some loop) (room : w.hasCapacity = true) (stage : Stage) :
    ComesNearer job.writer (.write job (.dispatch stage)) w (b.writeDispatch loop job stage) ∨
      Ships job.writer (.write job (.dispatch stage)) w (b.writeDispatch loop job stage) := by
  have lap : stage.next.lap job.elements.length =
      (WritePoint.dispatch stage).lap job.elements.length := by cases stage <;> rfl
  refine ships_dispatch hw lawful bound room (fun nothing => ?_) fun w' less => ?_
  · -- An empty buffer ends the round: it is neither full nor does it hold a full batch.
    obtain ⟨room, short⟩ := lawful.empty nothing
    refine lex_lt (.inr ⟨lap, .inr ⟨rfl, .inl ?_⟩⟩)
    cases stage <;> simp [Stage.next, WritePoint.rank, room, short]
  · exact lex_lt (.inr ⟨lap, .inl less⟩)

theorem ships_commitDrain {job : CommitJob} (hw : b.writers[job.writer]? = some w)
    (lawful : w.Lawful) (bound : w.loop = some loop) (id : ℕ) :
    ComesNearer job.writer (.commit job .drain) w (b.commitDrain id loop job) ∨
      Ships job.writer (.commit job .drain) w (b.commitDrain id loop job) := by
  rw [commitDrain, withWriter_some hw]
  split
  · split
    · next ready =>
      simp only [Bool.and_eq_true, Bool.not_eq_true'] at ready
      refine ships_dispatch hw lawful bound ready.2 (fun nothing => ?_) fun w' less => ?_
      · rw [Buffer.size, List.length_eq_zero_iff] at nothing
        simp [Buffer.isEmpty, nothing] at ready
      · exact lex_lt (.inr ⟨rfl, .inl less⟩)
    · exact .inl (comesNearer_waitForChange hw id loop _)
  · have shown : w.Idles (w.showGauges.andThen fun v => v.announce (.drained v.id)).writer :=
      .of_same rfl rfl rfl rfl rfl
    have found := writer_change hw fun v =>
      v.showGauges.andThen fun v => v.announce (.drained v.id)
    refine .inl ⟨_, found, shown.toHolds, fun q go => ?_⟩
    cases go

/-! ## A point of a program -/

/-- A write or a commit gets nearer to its end with each of its points, whatever it does to its
writer. -/
theorem comesNearer_or_ships (hw : b.writers[i]? = some w) (lawful : w.Lawful)
    (works : p.works? = some i) (fits : p.Fits b loop) (poised : p.Poised b) (id : ℕ) :
    ComesNearer i p w (b.advanceProgram id loop p) ∨ Ships i p w (b.advanceProgram id loop p) := by
  have bound : b.Owned i loop → w.loop = some loop := by
    rintro ⟨u, hu, bound⟩
    cases hw.symm.trans hu
    exact bound
  cases p with
  | write job point =>
    cases works
    cases point with
    | start => exact .inl (comesNearer_writeStart hw)
    | gate blocked => exact .inl (comesNearer_writeGate hw blocked)
    | flush stage => exact .inl (comesNearer_writeFlush hw stage)
    | slot stage => exact .inl (comesNearer_writeSlot hw id stage)
    | woken stage =>
      refine .inl (comesNearer_afterWaiting hw id (lex_lt (.inr ⟨?_, .inr ⟨rfl, .inl ?_⟩⟩)))
      · rfl
      · simp [WritePoint.rank]
    | dispatch stage => exact ships_writeDispatch hw lawful (bound fits) (poised w hw) stage
    | accept => exact .inl (comesNearer_writeAccept hw)
    | batching => exact .inl (comesNearer_writeBatching hw)
    | publishing d next => exact .inl (comesNearer_writePublishing hw d fits.2)
  | commit job point =>
    cases works
    cases point with
    | start => exact .inl (comesNearer_commitStart hw)
    | drain => exact ships_commitDrain hw lawful (bound fits) id
    | woken =>
      exact .inl (comesNearer_afterWaiting hw id
        (lex_lt (.inr ⟨rfl, .inr ⟨rfl, .inl (by decide)⟩⟩)))
  | _ => cases works

end Bench
end BatchWriter
