import BatchWriter.Proofs.Writer.Motion
import BatchWriter.Proofs.Writer.Places
import BatchWriter.Proofs.Writer.Unfed

/-!
# What a writer's gauges hold

The gauges hold the sizes that a writer showed last. Whatever happens to a writer either shows
its sizes or leaves them as they are, an appended entry apart: that one is shown later.
-/

set_option autoImplicit false

namespace BatchWriter

def Effect.gauges (held : Nat × Nat) : Effect → Nat × Nat
  | .measure (.gauges buffered inFlight) => (buffered, inFlight)
  | _ => held

def Effect.Dark : Effect → Prop
  | .measure (.gauges _ _) => False
  | _ => True

theorem Effect.gauges_dark {effects : List Effect} (dark : ∀ e ∈ effects, e.Dark)
    (held : Nat × Nat) : effects.foldl Effect.gauges held = held := by
  rw [List.foldl_ext _ (fun held _ => held) held, List.foldl_fixed]
  intro held e he
  cases e with
  | measure m =>
    cases m with
    | gauges _ _ => exact (dark _ he).elim
    | _ => rfl
  | _ => rfl

theorem History.length_written_le {h h' : History} (hs : h <:+ h') :
    h.written.length ≤ h'.written.length := by
  obtain ⟨newer, rfl⟩ := hs
  induction newer with
  | nil => exact Nat.le_refl _
  | cons e rest ih =>
    obtain ⟨now, m⟩ := e
    cases m with
    | accepted entry =>
      show h.written.length ≤ (History.written (rest ++ h) ++ [entry]).length
      rw [List.length_append]
      omega
    | _ => exact ih

theorem Writer.Unfed.written {w w' : Writer} (h : w.Unfed w') :
    w'.history.written = w.history.written := by
  obtain ⟨newer, history, quiet⟩ := h.history
  rw [history]
  clear history
  induction newer with
  | nil => rfl
  | cons e rest ih =>
    have others := ih fun x hx => quiet x (List.mem_cons_of_mem _ hx)
    have first := quiet e List.mem_cons_self
    obtain ⟨now, m⟩ := e
    cases m with
    | accepted entry => exact absurd rfl (first entry)
    | _ => exact others

theorem Writer.Fresh.written {w : Writer} (h : w.Fresh) : w.history.written = [] := by
  obtain ⟨now, entries, history, -⟩ := h.history
  rw [history]
  rfl

namespace Writer

def sizes (w : Writer) : Nat × Nat := (w.buffer.size, w.inFlight.count)

structure Level (w w' : Writer) : Prop where
  sizes : w'.sizes = w.sizes
  limit : w'.inFlight.limit = w.inFlight.limit
  usable : w'.refusal? = none ↔ w.refusal? = none

/-- The sizes are shown, or neither they nor the gauges have changed, or an entry was appended
in between. -/
inductive Gauged (w : Writer) (held : Nat × Nat) (w' : Writer) (held' : Nat × Nat) : Prop where
  | shown (current : held' = w'.sizes)
  | level (same : held' = held) (level : w.Level w')
  | fed (more : w.history.written.length < w'.history.written.length)

variable {now : Nat} {u v w : Writer} {c : Change} {held held' held'' : Nat × Nat}

theorem Level.refl (w : Writer) : w.Level w := ⟨rfl, rfl, .rfl⟩

theorem Level.trans (h : u.Level v) (h' : v.Level w) : u.Level w :=
  ⟨h'.sizes.trans h.sizes, h'.limit.trans h.limit, h'.usable.trans h.usable⟩

theorem Level.of_same (size : w.buffer.size = u.buffer.size)
    (count : w.inFlight.count = u.inFlight.count) (limit : w.inFlight.limit = u.inFlight.limit)
    (refusal : w.refusal? = u.refusal?) : u.Level w :=
  ⟨Prod.ext size count, limit, by rw [refusal]⟩

theorem Gauged.refl (w : Writer) (held : Nat × Nat) : w.Gauged held w held :=
  .level rfl (.refl w)

theorem Gauged.trans (h : u.Gauged held v held') (h' : v.Gauged held' w held'')
    (first : u.Later v) (second : v.Later w) : u.Gauged held w held'' := by
  have grows := History.length_written_le first.history
  have grows' := History.length_written_le second.history
  cases h' with
  | shown current => exact .shown current
  | fed more => exact .fed (by omega)
  | level same level =>
    cases h with
    | shown current => exact .shown (by rw [same, current, level.sizes])
    | level same' level' => exact .level (same.trans same') (level'.trans level)
    | fed more => exact .fed (by omega)

/-! ## Changes -/

def Gauges (w : Writer) (c : Change) : Prop :=
  w.Later c.writer ∧ ∀ held, w.Gauged held c.writer (c.effects.foldl Effect.gauges held)

def Shows (c : Change) : Prop := ∀ held, c.effects.foldl Effect.gauges held = c.writer.sizes

namespace Gauges

theorem andThen {next : Writer → Change} (hc : Gauges w c)
    (hn : c.fault = none → Gauges c.writer (next c.writer)) : Gauges w (c.andThen next) := by
  unfold Change.andThen
  split
  · exact hc
  · next ok =>
    obtain ⟨later, gauged⟩ := hn ok
    refine ⟨hc.1.trans later, fun held => ?_⟩
    rw [List.foldl_append]
    exact (hc.2 held).trans (gauged _) hc.1 later

theorem of_shows (later : w.Later c.writer) (shows : Shows c) : Gauges w c :=
  ⟨later, fun held => .shown (shows held)⟩

theorem of_dark (later : w.Later c.writer) (dark : ∀ e ∈ c.effects, e.Dark)
    (level : w.Level c.writer) : Gauges w c :=
  ⟨later, fun held => .level (Effect.gauges_dark dark held) level⟩

theorem of_mild (same : c.writer = w) (mild : ∀ e ∈ c.effects, e.Mild w) : Gauges w c := by
  suffices told : ∀ held, w.Gauged held w (c.effects.foldl Effect.gauges held) by
    exact ⟨same ▸ .refl w, same ▸ told⟩
  generalize c.effects = effects at mild
  intro held
  induction effects generalizing held with
  | nil => exact .refl w held
  | cons e rest ih =>
    have first : w.Gauged held w (e.gauges held) := by
      have hm := mild e List.mem_cons_self
      cases e with
      | measure m =>
        cases m with
        | gauges buffered inFlight => exact .shown (Prod.ext hm.1 hm.2)
        | _ => exact .refl w held
      | _ => exact .refl w held
    have others := ih (fun x hx => mild x (List.mem_cons_of_mem _ hx)) (e.gauges held)
    exact first.trans others (.refl w) (.refl w)

end Gauges

namespace Shows

theorem last {next : Writer → Change} (ok : c.fault = none) (shows : Shows (next c.writer)) :
    Shows (c.andThen next) := by
  intro held
  rw [Change.effects_andThen ok, Change.writer_andThen ok, List.foldl_append]
  exact shows _

theorem before {next : Writer → Change} (shows : Shows c)
    (dark : ∀ e ∈ (next c.writer).effects, e.Dark)
    (same : (next c.writer).writer.sizes = c.writer.sizes) : Shows (c.andThen next) := by
  intro held
  cases ok : c.fault with
  | none =>
    rw [Change.effects_andThen ok, Change.writer_andThen ok, List.foldl_append,
      Effect.gauges_dark dark, same]
    exact shows held
  | some fault =>
    rw [Change.andThen_of_fault ok]
    exact shows held

theorem showGauges (w : Writer) : Shows w.showGauges := fun _ => rfl

end Shows

theorem dark_notify (w : Writer) : ∀ e ∈ w.notify.effects, e.Dark := by
  intro e he
  obtain ⟨_, -, rfl⟩ := List.mem_map.1 he
  trivial

theorem dark_armTimerIf (w : Writer) (condition : Bool) :
    ∀ e ∈ (w.armTimerIf condition).effects, e.Dark := by
  unfold armTimerIf armTimer
  split
  · split
    · simp [Change.stay]
    · split
      · simp [Change.stay]
      · split <;> simp [Change.stop, Effect.Dark]
  · simp [Change.stay]

theorem Gauges.armTimerIf (w : Writer) (condition : Bool) : Gauges w (w.armTimerIf condition) := by
  obtain ⟨armed, writer⟩ := w.writer_armTimerIf condition
  refine .of_dark ?_ (w.dark_armTimerIf condition) ?_
  · exact (regular_armTimerIf w condition).later
  · rw [writer]
    exact .of_same rfl rfl rfl rfl

theorem fault_keepFailure (w : Writer) (fault : Fault) : (w.keepFailure fault).fault = none := by
  unfold keepFailure
  split <;> rfl

theorem fault_recordFailure (w : Writer) (fault : Fault) :
    (w.recordFailure fault).fault = none := by
  unfold recordFailure
  rw [fault_andThen_calm _ fun _ => rfl, fault_andThen_calm _ fun _ => rfl,
    fault_andThen_calm _ fun _ => rfl, fault_keepFailure]

theorem shows_recordFailure (w : Writer) (fault : Fault) : Shows (w.recordFailure fault) := by
  have cancelled : ((w.keepFailure fault).andThen cancelTimer).fault = none := by
    rw [fault_andThen_calm _ fun _ => rfl, fault_keepFailure]
  exact (Shows.last cancelled (.showGauges _)).before (dark_notify _) rfl

theorem Gauges.bind (w : Writer) (loop : LoopName) : Gauges w (w.bind loop) := by
  have later := (regular_bind w loop).later
  unfold Writer.bind at later ⊢
  split
  · obtain ⟨armed, writer⟩ := writer_armTimerIf { w with loop := some loop } (!w.buffer.isEmpty)
    refine .of_dark (by simpa [*] using later) (dark_armTimerIf _ _) ?_
    rw [writer]
    exact .of_same rfl rfl rfl rfl
  · split
    · exact .of_mild rfl (by simp [Change.stay])
    · exact .of_mild rfl (by simp [Change.stop])

theorem Gauges.close (w : Writer) (now : Nat) : Gauges w (w.close now) := by
  have later := (regular_close w now).later
  unfold Writer.close at later ⊢
  split
  · exact .of_mild rfl (by simp [Change.stay])
  · next opened =>
    rw [if_neg opened] at later
    refine .of_shows later (.before (.last ?_ (.showGauges _)) ?_ rfl)
    · rfl
    · simp [announce, Effect.Dark]

theorem written_accept (w : Writer) (now : Nat) (entry : Value) :
    w.history.written.length < (w.accept now entry).writer.history.written.length := by
  have history : (w.accept now entry).writer.history = (now, .accepted entry) :: w.history := by
    unfold accept
    rw [Change.writer_andThen rfl]
    exact (silent_armTimerIf _ _).history
  rw [history, History.written, List.length_append]
  exact Nat.lt_succ_self _

/-- An appended entry is not shown. -/
theorem dark_accept (w : Writer) (now : Nat) (entry : Value) :
    ∀ e ∈ (w.accept now entry).effects, e.Dark := by
  unfold accept
  rw [Change.effects_andThen rfl]
  intro e he
  rcases List.mem_append.1 he with he | he
  · rw [List.mem_singleton.1 he]
    trivial
  · exact dark_armTimerIf _ _ e he

theorem sizes_accept (w : Writer) (now : Nat) (entry : Value) :
    (w.accept now entry).writer.sizes = (w.buffer.size + 1, w.inFlight.count) ∧
      (w.accept now entry).writer.refusal? = w.refusal? := by
  unfold accept
  rw [Change.writer_andThen rfl]
  obtain ⟨armed, writer⟩ := writer_armTimerIf
    (measure .written
      (note now (.accepted entry) { w with buffer := w.buffer.append entry })).writer
    w.buffer.isEmpty
  rw [writer]
  exact ⟨Prod.ext (Buffer.size_append _ _) rfl, rfl⟩

theorem fault_accept (tame : w.config.Tame) (now : Nat) (entry : Value) :
    (w.accept now entry).fault = none := by
  refine fault_andThen_none rfl (fault_armTimerIf ?_ _)
  exact tame

/-- Whatever calls and subscribers do to a writer, the gauges keep up or an entry is appended. -/
theorem CallChange.gauges (h : CallChange now w c) : Gauges w c := by
  induction h with
  | mild same mild => exact .of_mild same mild
  | andThen _ _ first second => exact first.andThen second
  | note event =>
    exact .of_dark (later_note _ _ _) (by simp [Change.stay]) (.of_same rfl rfl rfl rfl)
  | bind loop => exact .bind _ loop
  | @accept w entry =>
    exact ⟨(regular_accept w now entry).later, fun _ => .fed (w.written_accept _ _)⟩
  | @emptyBatch w batch =>
    exact .of_dark (regular_emptyBatch w batch).later (fun _ he => by cases he)
      (.of_same rfl (InFlight.count_update _ _ _) rfl rfl)
  | @addWaiter w call usable =>
    have callChange : CallChange now w (w.addWaiter call) := .addWaiter call usable
    exact .of_dark callChange.later (fun _ he => by cases he) (.of_same rfl rfl rfl rfl)
  | @dropWaiter w call =>
    have callChange : CallChange now w (w.dropWaiter call) := .dropWaiter call
    exact .of_dark callChange.later (fun _ he => by cases he) (.of_same rfl rfl rfl rfl)
  | close => exact .close _ now

theorem Gauges.reportFailed (w : Writer) (now batch : Nat) (fault : Fault) :
    Gauges w (w.reportFailed now batch fault) := by
  have later := (regular_reportFailed w now batch fault).later
  unfold Writer.reportFailed at later ⊢
  split
  · exact .of_mild rfl (by simp [announce, Effect.Mild])
  · next found =>
    rw [found] at later
    exact .of_shows later (.last rfl (shows_recordFailure _ _))

theorem Gauges.expire (w : Writer) (now batch : Nat) : Gauges w (w.expire now batch) := by
  have later := (regular_expire w now batch).later
  unfold Writer.expire at later ⊢
  split
  · next found limited =>
    rw [found, limited] at later
    exact .of_shows later (.last rfl (shows_recordFailure _ _))
  · exact .of_mild rfl (by simp [Change.stay])

theorem Gauges.bufferTimeOver (w : Writer) : Gauges w w.bufferTimeOver.1 := by
  have later := (regular_bufferTimeOver w).later
  unfold Writer.bufferTimeOver at later ⊢
  dsimp only at later ⊢
  split
  · next idle =>
    rw [if_pos idle] at later
    exact .of_dark later (by simp [Change.stay]) (.of_same rfl rfl rfl rfl)
  · next busy =>
    rw [if_neg busy] at later
    split
    · next room =>
      rw [if_pos room] at later
      exact .of_dark later (by simp [Change.stay]) (.of_same rfl rfl rfl rfl)
    · next full =>
      rw [if_neg full] at later
      exact .of_dark later (by simp [announce, Effect.Dark]) (.of_same rfl rfl rfl rfl)

theorem Gauges.beginTimedFlush (w : Writer) (now : Nat) : Gauges w (w.beginTimedFlush now) :=
  .of_dark (regular_beginTimedFlush w now).later
    (by simp [Writer.beginTimedFlush, announce, Effect.Dark]) (.of_same rfl rfl rfl rfl)

theorem Gauges.endTimedFlush (w : Writer) : Gauges w w.endTimedFlush := by
  have woken : Gauges w w.notify :=
    .of_dark (regular_notify w).later (dark_notify w) (.of_same rfl rfl rfl rfl)
  exact woken.andThen fun _ => .armTimerIf _ _

theorem Gauges.beginDeferredFlush (w : Writer) : Gauges w w.beginDeferredFlush :=
  .of_dark (regular_beginDeferredFlush w).later (by simp [Writer.beginDeferredFlush, Change.stay])
    (.of_same rfl rfl rfl rfl)

theorem shows_endCompletion (w : Writer) : Shows w.endCompletion :=
  (Shows.showGauges w).before (dark_notify _) rfl

/-- A dispatch ends with the sizes shown, whatever the destination said. -/
theorem shows_concludeDispatch (w : Writer) (now : Nat) (parcel : Parcel) (refusal : Option Fault) :
    Shows (w.concludeDispatch now parcel refusal) := by
  unfold concludeDispatch
  split
  · exact .showGauges _
  · dsimp only
    split
    · next fault _ =>
      have recorded : Shows (((note now (.refused parcel.batch parcel.entries)
          (note now (.handed parcel.batch parcel.entries) w)).release parcel.batch
            |>.andThen (recordFailure (.submission parcel.batch fault))).andThen showGauges) := by
        refine .last ?_ (.showGauges _)
        rw [fault_andThen_calm _ fun _ => fault_recordFailure _ _]
        rfl
      exact fun held => recorded held
    · exact fun held => Shows.showGauges (note now (.handed parcel.batch parcel.entries) w) held

theorem shows_restore {id : Value} {config : Config} {converter : Converter} {destination : Nat}
    {bus : Option String} {entries : List Value}
    (built : restore now id config converter destination bus entries = .ok c) : Shows c := by
  obtain ⟨buffer, inFlight, notices, -, -, -, writer, effects⟩ := restored_spec built
  intro held
  rw [effects, writer, List.foldl_append]
  rfl

/-- A usable writer whose limits are accepted has a batch to dispatch when it holds entries. -/
theorem parcel_of_filled {loop : LoopName} (now : Nat) (lawful : w.Lawful)
    (bound : w.loop = some loop) (usable : w.refusal? = none) (tame : w.config.Tame)
    (filled : w.buffer.entries ≠ []) :
    ∃ parcel, (w.startDispatch loop now).2 = some parcel := by
  obtain ⟨args, accepted⟩ := lawful.accepted
  obtain ⟨size, whole⟩ := Option.isSome_iff_exists.1 tame.size
  have positive := Config.pos_of_ofArguments accepted whole
  obtain ⟨⟨entries, rest⟩, taken⟩ := w.buffer.take_ok tame.size
  have some : entries ≠ [] := by
    refine Buffer.some_of_take (n := size.toNat) ?_ (by omega) taken filled
    rw [whole, Int.toNat_of_nonneg (by omega)]
  have opens := fault_openBatch (w := { w with
    buffer := rest, deferred := w.deferred && !rest.isEmpty }) (by exact tame) now entries
  unfold startDispatch
  simp only [usable, taken]
  rw [if_neg (by simpa using some), bind_of_bound (by exact bound), stay_andThen, opens]
  exact ⟨_, rfl⟩

end Writer
end BatchWriter
