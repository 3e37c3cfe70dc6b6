import BatchWriter.Proofs.Writer.Alarms
import BatchWriter.Proofs.Writer.Order

/-!
# Ticks of a writer

What becomes of a writer at one instant, together with when its alarms ring. The buffer's alarm
is set while it is not, and cancelled for good; a batch is opened with its alarm and forgotten
with it. Whatever else happens leaves the alarms as they are.
-/

set_option autoImplicit false

namespace BatchWriter

abbrev Dues := WriterAlarm → List (Option Nat)

def Effect.dues (now : Nat) (dues : Dues) : Effect → Dues
  | .setAlarm alarm delay => fun a => if a = alarm then dues a ++ [delay.map (now + ·)] else dues a
  | .cancelAlarm alarm => fun a => if a = alarm then [] else dues a
  | _ => dues

theorem Effect.dues_timeless {effects : List Effect} (timeless : ∀ e ∈ effects, e.Timeless)
    (now : Nat) (dues : Dues) : effects.foldl (Effect.dues now) dues = dues := by
  rw [List.foldl_ext _ (fun dues _ => dues) dues, List.foldl_fixed]
  intro dues e he
  cases e with
  | setAlarm _ _ | cancelAlarm _ => exact (timeless _ he).elim
  | _ => rfl

theorem Effect.dues_cancel_twice (now : Nat) (dues : Dues) (alarm : WriterAlarm) :
    Effect.dues now (Effect.dues now dues (.cancelAlarm alarm)) (.cancelAlarm alarm) =
      Effect.dues now dues (.cancelAlarm alarm) := by
  funext a
  by_cases same : a = alarm <;> simp [Effect.dues, same]

def Dues.without (dues : Dues) (gone : Nat → Prop) [DecidablePred gone] : Dues
  | .flush => dues .flush
  | .expire batch => if gone batch then [] else dues (.expire batch)

theorem Dues.without_eq (dues : Dues) (now batch : Nat) :
    dues.without (· = batch) = Effect.dues now dues (.cancelAlarm (.expire batch)) := by
  funext a
  cases a <;> simp [Effect.dues, Dues.without]

theorem Effect.dues_cancelled (now : Nat) (requests : List (Request Value)) (dues : Dues) :
    (requests.map fun r => Effect.cancelAlarm (.expire r.id)).foldl (Effect.dues now) dues =
      dues.without fun batch => ∃ r ∈ requests, r.id = batch := by
  induction requests generalizing dues with
  | nil => funext a; cases a <;> simp [Dues.without]
  | cons r rest ih =>
    rw [List.map_cons, List.foldl_cons, ih]
    funext a
    cases a with
    | flush => rfl
    | expire batch =>
      simp only [Dues.without, Effect.dues, WriterAlarm.expire.injEq, List.mem_cons,
        exists_eq_or_imp]
      by_cases own : batch = r.id <;> by_cases other : ∃ r ∈ rest, r.id = batch <;>
        simp [own, eq_comm]

/-- The alarm of a batch that is opened at an instant rings when its time is over. Without a
limit, or with one that no clock can hold, it is not set. -/
def Config.expiry (config : Config) (now : Nat) : List (Option Nat) :=
  match config.requestTimeout with
  | none => []
  | some limit =>
    match limit.delaySeconds with
    | .error _ => []
    | .ok delay => [delay.map (now + ·)]

def Dues.opened (dues : Dues) (config : Config) (now batch : Nat) : Dues :=
  fun a => if a = .expire batch then dues a ++ config.expiry now else dues a

theorem Dues.opened_self (dues : Dues) (config : Config) (now batch : Nat) :
    dues.opened config now batch (.expire batch) = dues (.expire batch) ++ config.expiry now :=
  if_pos rfl

theorem Dues.opened_of_ne (dues : Dues) (config : Config) (now : Nat) {batch : Nat}
    {alarm : WriterAlarm} (other : alarm ≠ .expire batch) :
    dues.opened config now batch alarm = dues alarm := if_neg other

@[simp] theorem Dues.opened_flush (dues : Dues) (config : Config) (now batch : Nat) :
    dues.opened config now batch .flush = dues .flush := dues.opened_of_ne config now (by simp)

theorem Dues.opened_of_unlimited (dues : Dues) {config : Config} {now : Nat}
    (unlimited : config.expiry now = []) (batch : Nat) : dues.opened config now batch = dues := by
  funext a
  simp [Dues.opened, unlimited]

theorem Config.expiry_of_accepted {config : Config} {limit : Number} {delay : Option Nat}
    (limited : config.requestTimeout = some limit) (accepted : limit.delaySeconds = .ok delay)
    (now : Nat) : config.expiry now = [delay.map (now + ·)] := by
  simp only [expiry, limited, accepted]

def InFlight.openings {α : Type} (t : InFlight α) : List (Nat × Nat) :=
  t.requests.map fun r => (r.id, r.openedAt)

theorem InFlight.openings_update {α : Type} (t : InFlight α) (id : Nat)
    {f : Request α → Request α} (hf : ∀ r, (f r).id = r.id ∧ (f r).openedAt = r.openedAt) :
    (t.update id f).openings = t.openings := by
  simp only [update, openings, List.map_map]
  refine List.map_congr_left fun r _ => ?_
  simp only [Function.comp]
  split
  · rw [(hf r).1, (hf r).2]
  · rfl

theorem InFlight.openings_remove {α : Type} (t : InFlight α) (id : Nat) :
    (t.remove id).openings = t.openings.filter fun o => ¬o.1 = id := by
  simp only [remove, openings, List.filter_map]
  congr 1
  refine List.filter_congr fun r _ => ?_
  by_cases own : r.id = id <;> simp [own]

def Milestone.Overdue : Milestone → Prop
  | .flushed | .expired _ _ => True
  | _ => False

namespace Writer

structure Untimed (now : Nat) (w w' : Writer) : Prop where
  later : w.Later w'
  history : ∃ newer : History, w'.history = newer ++ w.history ∧
    ∀ e ∈ newer, e.1 = now ∧ ¬e.2.Overdue
  inLine : w.InLine → w'.InLine
  openings : w'.inFlight.openings = w.inFlight.openings
  issued : w'.inFlight.issued = w.inFlight.issued
  armed : w'.timerArmed = w.timerArmed
  deferred : w.deferred = false → w'.deferred = false

structure Opening (now : Nat) (w : Writer) (entries : List Value) (w' : Writer) : Prop where
  later : w.Later w'
  usable : w.refusal? = none
  taken : w.buffer.take w.config.maxBatchSize = .ok (entries, w'.buffer)
  history : w'.history = (now, .opened (w.inFlight.issued + 1) entries) :: w.history
  openings : w'.inFlight.openings = w.inFlight.openings ++ [(w.inFlight.issued + 1, now)]
  issued : w'.inFlight.issued = w.inFlight.issued + 1
  armed : w'.timerArmed = w.timerArmed
  deferred : w.deferred = false → w'.deferred = false

/-- What happens to a writer and its alarms at an instant; the beginning of a timed flush and the
ringing of an alarm are told apart from it. -/
inductive Tick (now : Nat) : Writer × Dues → Writer × Dues → Prop
  | untimed {w w' : Writer} {dues : Dues} (h : Untimed now w w') : Tick now (w, dues) (w', dues)
  | arm {w : Writer} {dues : Dues} {limit : Number} {delay : Option Nat}
      (limited : w.config.maxTimeInBuffer = some limit)
      (accepted : limit.delayMilliseconds = .ok delay) (unarmed : w.timerArmed = false)
      (filled : w.buffer.entries ≠ []) :
      Tick now (w, dues) ({ w with timerArmed := true },
        Effect.dues now dues (.setAlarm .flush delay))
  | disarm {w : Writer} {dues : Dues} (refused : w.refusal? ≠ none) :
      Tick now (w, dues) ({ w with deferred := false, timerArmed := false },
        Effect.dues now dues (.cancelAlarm .flush))
  | opening {w w' : Writer} {dues : Dues} {entries : List Value} (h : Opening now w entries w') :
      Tick now (w, dues) (w', dues.opened w.config now (w.inFlight.issued + 1))
  /-- Batches are forgotten with their alarms. -/
  | drop {w : Writer} {dues : Dues} (gone : Nat → Prop) [DecidablePred gone]
      {inFlight : InFlight Value}
      (openings : inFlight.openings = w.inFlight.openings.filter fun o => ¬gone o.1)
      (issued : inFlight.issued = w.inFlight.issued) :
      Tick now (w, dues) ({ w with inFlight }, dues.without gone)

abbrev Ticks (now : Nat) : Writer × Dues → Writer × Dues → Prop := Relation.ReflTransGen (Tick now)

def Ticking (now : Nat) (w : Writer) (c : Change) : Prop :=
  ∀ dues : Dues, Ticks now (w, dues) (c.writer, c.effects.foldl (Effect.dues now) dues)

def OpensFirst (now : Nat) (w : Writer) (entries : List Value) (c : Change) : Prop :=
  ∀ dues : Dues, ∃ u, Opening now w entries u ∧
    Ticks now (u, dues.opened w.config now (w.inFlight.issued + 1))
      (c.writer, c.effects.foldl (Effect.dues now) dues)

/-- A timed flush begins with its milestone, and opens a batch if it can. -/
structure Flushed (now : Nat) (p q : Writer × Dues) : Prop where
  ticks : Ticks now (p.1.note now .flushed, p.2) q
  opens : p.1.refusal? = none → ∀ entries rest,
    p.1.buffer.take p.1.config.maxBatchSize = .ok (entries, rest) → entries ≠ [] →
      ∃ u, Opening now (p.1.note now .flushed) entries u ∧
        Ticks now (u, p.2.opened p.1.config now (p.1.inFlight.issued + 1)) q

def outlived (w : Writer) (now batch : Nat) (entries : List Value) : Writer :=
  ((w.note now (.expired batch entries)).release batch).writer

theorem Flushed.andTicks {now : Nat} {p q r : Writer × Dues} (h : Flushed now p q)
    (more : Ticks now q r) : Flushed now p r :=
  ⟨h.ticks.trans more, fun usable entries rest taken some =>
    (h.opens usable entries rest taken some).imp fun _ both => ⟨both.1, both.2.trans more⟩⟩

variable {now : Nat} {w w' : Writer} {c : Change}

namespace Untimed

theorem of_same (later : w.Later w') (history : w'.history = w.history)
    (buffer : w'.buffer = w.buffer) (openings : w'.inFlight.openings = w.inFlight.openings)
    (issued : w'.inFlight.issued = w.inFlight.issued) (armed : w'.timerArmed = w.timerArmed)
    (deferred : w.deferred = false → w'.deferred = false) : Untimed now w w' :=
  ⟨later, ⟨[], history, by simp⟩, fun h => h.extend [] (by simp) history buffer, openings, issued,
    armed, deferred⟩

theorem note (w : Writer) {m : Milestone} (inert : m.Inert) (early : ¬m.Overdue) :
    Untimed now w (w.note now m) :=
  ⟨later_note w now m, ⟨[(now, m)], rfl, by simpa using early⟩,
    fun h => h.extend [(now, m)] (by simpa using inert) rfl rfl, rfl, rfl, rfl, fun h => h⟩

end Untimed

theorem Opening.marked {entries : List Value} (h : Opening now w entries w') (batch : Nat) :
    Opening now w entries { w' with
      inFlight := w'.inFlight.update batch fun r => { r with timed := true } } where
  later := h.later.trans { Later.refl w' with
    carries := .update batch (fun _ => rfl) fun _ => .inl rfl }
  usable := h.usable
  taken := h.taken
  history := h.history
  openings := by rw [← h.openings]; exact InFlight.openings_update _ _ fun _ => ⟨rfl, rfl⟩
  issued := h.issued
  armed := h.armed
  deferred := h.deferred

namespace Ticking

theorem andThen {next : Writer → Change} (hc : Ticking now w c)
    (hn : c.fault = none → Ticking now c.writer (next c.writer)) :
    Ticking now w (c.andThen next) := by
  intro dues
  unfold Change.andThen
  split
  · exact hc dues
  · next ok =>
    rw [List.foldl_append]
    exact (hc dues).trans (hn ok _)

theorem after (h : Untimed now w w') (hc : Ticking now w' c) : Ticking now w c :=
  fun dues => .head (.untimed h) (hc dues)

theorem of_untimed (h : Untimed now w c.writer) (timeless : ∀ e ∈ c.effects, e.Timeless) :
    Ticking now w c := by
  intro dues
  rw [Effect.dues_timeless timeless]
  exact .single (.untimed h)

theorem of_timeless (same : c.writer = w) (timeless : ∀ e ∈ c.effects, e.Timeless) :
    Ticking now w c := by
  intro dues
  rw [Effect.dues_timeless timeless, same]

theorem stay (w : Writer) : Ticking now w (.stay w) := fun _ => .refl

theorem announce (w : Writer) (n : Notice) : Ticking now w (w.announce n) :=
  of_timeless rfl (by simp [Writer.announce, Effect.Timeless])

theorem measure (w : Writer) (m : Measurement) : Ticking now w (w.measure m) :=
  of_timeless rfl (by simp [Writer.measure, Effect.Timeless])

theorem showGauges (w : Writer) : Ticking now w w.showGauges := measure w _

theorem notify (w : Writer) : Ticking now w w.notify := by
  refine of_untimed (.of_same { Later.refl w with } rfl rfl rfl rfl rfl fun h => h) fun e he => ?_
  obtain ⟨_, -, rfl⟩ := List.mem_map.1 he
  trivial

/-- The buffer's alarm is set for a buffer that holds entries. -/
theorem armTimerIf {condition : Bool} (filled : condition = true → w.buffer.entries ≠ []) :
    Ticking now w (w.armTimerIf condition) := by
  unfold Writer.armTimerIf Writer.armTimer
  split
  · next wanted =>
    split
    · exact stay w
    · next limit limited =>
      split
      · exact stay w
      · next idle =>
        split
        · exact stay w
        · next delay accepted =>
          simp only [Bool.or_eq_true, not_or, Bool.not_eq_true] at idle
          exact fun _ => .single (.arm limited accepted idle.1.1 (filled wanted))
  · exact stay w

theorem bind (w : Writer) (loop : LoopName) : Ticking now w (w.bind loop) := by
  unfold Writer.bind
  split
  · next free =>
    have used : Untimed now w { w with loop := some loop } :=
      .of_same { Later.refl w with loop := fun l hl => by rw [free] at hl; cases hl } rfl rfl rfl
        rfl rfl fun h => h
    refine after used (armTimerIf fun some none => ?_)
    rw [(Buffer.isEmpty_iff _).2 none] at some
    cases some
  · split <;> exact fun _ => .refl

theorem cancelTimer (refused : w.refusal? ≠ none) : Ticking now w w.cancelTimer :=
  fun _ => .single (.disarm refused)

theorem drop (gone : Nat → Prop) [DecidablePred gone] (effects : List Effect)
    {inFlight : InFlight Value}
    (openings : inFlight.openings = w.inFlight.openings.filter fun o => ¬gone o.1)
    (issued : inFlight.issued = w.inFlight.issued)
    (cancels : ∀ dues : Dues, effects.foldl (Effect.dues now) dues = dues.without gone) :
    Ticking now w { writer := { w with inFlight }, effects } := by
  intro dues
  rw [cancels]
  exact .single (.drop gone openings issued)

theorem release (w : Writer) (batch : Nat) : Ticking now w (w.release batch) :=
  drop (· = batch) _ (w.inFlight.openings_remove batch) rfl fun dues => by
    rw [dues.without_eq now batch]
    rfl

theorem recordFailure (w : Writer) (fault : Fault) : Ticking now w (w.recordFailure fault) := by
  have kept : Ticking now w (w.keepFailure fault) := by
    unfold keepFailure
    split
    · exact stay w
    · next sound =>
      refine after ?_ (announce { w with failure := some fault } _)
      exact .of_same { Later.refl w with failure := fun f hf => by rw [sound] at hf; cases hf } rfl
        rfl rfl rfl rfl fun h => h
  have failed : (w.keepFailure fault).writer.refusal? ≠ none := by
    unfold keepFailure
    split
    · next first => exact refusal?_of_failed (by rw [Change.stay, first]; rfl)
    · exact refusal?_of_failed rfl
  exact ((kept.andThen fun _ => cancelTimer failed).andThen fun _ => showGauges _).andThen
    fun _ => notify _

theorem lost (w : Writer) (batch : Nat) (fault : Fault) :
    Ticking now w ((w.release batch).andThen (Writer.recordFailure fault)) :=
  (release w batch).andThen fun _ => recordFailure _ _

theorem accept (w : Writer) (entry : Value) : Ticking now w (w.accept now entry) := by
  have appended : Untimed now w
      (Writer.note now (.accepted entry) { w with buffer := w.buffer.append entry }) :=
    ⟨{ Later.refl w with history := List.suffix_cons _ _ },
      ⟨[(now, _)], rfl, by simp [Milestone.Overdue]⟩, fun h =>
        h.accepted rfl rfl, rfl, rfl, rfl, fun h => h⟩
  refine after appended ((measure _ _).andThen fun _ => armTimerIf fun _ => ?_)
  exact List.append_ne_nil_of_right_ne_nil _ (List.cons_ne_nil _ _)

theorem abandonAll (w : Writer) : Ticking now w (w.abandonAll now) := by
  obtain ⟨notices, same⟩ := abandonAll_spec w now
  rw [same]
  have noted : Untimed now w { w with
      history := abandonments now w.inFlight.requests.reverse ++ w.history } :=
    ⟨{ Later.refl w with history := List.suffix_append _ _ },
      ⟨_, rfl, by simp [abandonments, Milestone.Overdue]⟩,
      fun h => h.extend _ (by simp [abandonments, Milestone.Inert]) rfl rfl, rfl, rfl, rfl,
      fun h => h⟩
  refine after noted (drop (fun batch => ∃ r ∈ w.inFlight.requests, r.id = batch) _ ?_ rfl
    fun dues => ?_)
  · refine (List.filter_eq_nil_iff.2 fun o ho => ?_).symm
    obtain ⟨r, hr, rfl⟩ := List.mem_map.1 ho
    simpa using ⟨r, hr, rfl⟩
  · rw [List.foldl_append, Effect.dues_timeless (Effect.timeless_notices notices),
      Effect.dues_cancelled]

theorem close (w : Writer) : Ticking now w (w.close now) := by
  unfold Writer.close
  split
  · exact stay w
  · have closing : Untimed now w { w with closed := true } :=
      .of_same { Later.refl w with closed := fun _ => rfl } rfl rfl rfl rfl rfl fun h => h
    have cancelled := after closing (cancelTimer (refusal?_of_closed rfl))
    exact (((cancelled.andThen fun _ => abandonAll _).andThen fun _ => notify _).andThen
      fun _ => showGauges _).andThen fun _ => announce _ _

end Ticking

namespace OpensFirst

variable {entries : List Value}

theorem ticking (h : OpensFirst now w entries c) : Ticking now w c := fun dues => by
  obtain ⟨u, opens, ticks⟩ := h dues
  exact .head (.opening opens) ticks

theorem andThen {next : Writer → Change} (h : OpensFirst now w entries c)
    (hn : c.fault = none → Ticking now c.writer (next c.writer)) :
    OpensFirst now w entries (c.andThen next) := by
  intro dues
  obtain ⟨u, opens, ticks⟩ := h dues
  refine ⟨u, opens, ?_⟩
  unfold Change.andThen
  split
  · exact ticks
  · next ok =>
    rw [List.foldl_append]
    exact ticks.trans (hn ok _)

/-- The alarm of a batch that was just opened is set if the clock can hold it. -/
theorem startTimeout (h : Opening now w entries w') :
    OpensFirst now w entries (w'.startTimeout (w.inFlight.issued + 1)) := by
  intro dues
  have config := h.later.config
  have unset : w.config.expiry now = [] →
      ∃ u, Opening now w entries u ∧
        Ticks now (u, dues.opened w.config now (w.inFlight.issued + 1)) (w', dues) := fun none =>
    ⟨w', h, by rw [dues.opened_of_unlimited none]⟩
  unfold Writer.startTimeout
  split
  · next unlimited => exact unset (by rw [Config.expiry, ← config, unlimited])
  · next limit limited =>
    split
    · next fault refused => exact unset (by simp [Config.expiry, ← config, limited, refused])
    · next delay accepted =>
      have set : dues.opened w.config now (w.inFlight.issued + 1) =
          Effect.dues now dues (.setAlarm (.expire (w.inFlight.issued + 1)) delay) := by
        funext a
        simp only [Dues.opened, Config.expiry_of_accepted (config ▸ limited) accepted, Effect.dues]
      exact ⟨_, h.marked (w.inFlight.issued + 1), by rw [set]; exact .refl⟩

theorem openBatch (usable : w.refusal? = none) {rest : Buffer Value}
    (taken : w.buffer.take w.config.maxBatchSize = .ok (entries, rest)) :
    OpensFirst now w entries (Writer.openBatch now entries
      { w with buffer := rest, deferred := w.deferred && !rest.isEmpty }) := by
  refine (andThen ?_ fun _ => .measure _ _).andThen fun _ => .announce _ _
  refine startTimeout ⟨{ Later.refl w with
    issued := Nat.le_succ _
    carries := .openBatch entries now
    history := List.suffix_cons _ _ }, usable, taken, rfl, ?_, rfl, rfl,
      fun h => by simp [Writer.note, h]⟩
  simp [InFlight.openings, InFlight.openBatch, Writer.note]

theorem startDispatch {loop : LoopName} (bound : w.loop = some loop) (usable : w.refusal? = none)
    {rest : Buffer Value} (taken : w.buffer.take w.config.maxBatchSize = .ok (entries, rest))
    (some : entries ≠ []) : OpensFirst now w entries (w.startDispatch loop now).1 := by
  unfold Writer.startDispatch
  simp only [usable, taken, List.isEmpty_eq_false_iff.2 some, Bool.false_eq_true, if_false]
  rw [bind_of_bound (by exact bound), stay_andThen]
  exact openBatch usable taken

end OpensFirst

namespace Ticking

theorem startDispatch {loop : LoopName} (bound : w.loop = some loop) :
    Ticking now w (w.startDispatch loop now).1 := by
  cases usable : w.refusal? with
  | some fault =>
    unfold Writer.startDispatch
    simp only [usable]
    exact fun _ => .refl
  | none =>
    cases taken : w.buffer.take w.config.maxBatchSize with
    | error fault =>
      unfold Writer.startDispatch
      simp only [usable, taken]
      exact fun _ => .refl
    | ok parts =>
      obtain ⟨entries, rest⟩ := parts
      by_cases empty : entries = []
      · subst empty
        obtain ⟨whole, capacity⟩ := Buffer.append_of_take taken
        have same : rest = w.buffer := by
          cases rest
          cases hb : w.buffer
          simp_all
        subst same
        unfold Writer.startDispatch
        simp only [usable, taken, List.isEmpty_nil, if_true]
        exact of_untimed (.of_same { Later.refl w with } rfl rfl rfl rfl rfl
          fun h => by simp [Change.stay, h]) (by simp [Change.stay])
      · exact (OpensFirst.startDispatch bound usable taken empty).ticking

theorem concludeDispatch (w : Writer) (parcel : Parcel) (refusal : Option Fault) :
    Ticking now w (w.concludeDispatch now parcel refusal) := by
  have handed : Untimed now w (Writer.note now (.handed parcel.batch parcel.entries) w) :=
    .note w trivial (by simp [Milestone.Overdue])
  have shown := after handed (showGauges _)
  unfold Writer.concludeDispatch
  split
  · exact shown
  · dsimp only
    split
    · next fault _ =>
      have refused : Untimed now (Writer.note now (.handed parcel.batch parcel.entries) w)
          (Writer.note now (.refused parcel.batch parcel.entries)
            (Writer.note now (.handed parcel.batch parcel.entries) w)) :=
        .note _ trivial (by simp [Milestone.Overdue])
      exact (after handed (after refused
        (lost _ parcel.batch (.submission parcel.batch fault)))).andThen
        fun _ => showGauges _
    · exact shown

/-- What failed returns to the buffer, which gets its alarm if it was empty. -/
theorem complete (w : Writer) (batch : Nat) (failed : List Value) :
    Ticking now w (w.complete now batch failed) := by
  unfold Writer.complete
  split
  · exact stay w
  · next request _ =>
    intro dues
    -- The history tells at once what the buffer gets back a little later.
    have returned : Untimed now (w.release batch).writer
        (Writer.note now (.completed batch request.entries failed)
          { (w.release batch).writer with buffer := w.buffer.prepend failed }) :=
      ⟨{ Later.refl (w.release batch).writer with history := List.suffix_cons _ _ },
        ⟨[(now, _)], rfl, by simp [Milestone.Overdue]⟩, fun h =>
          h.completed rfl rfl, rfl, rfl, rfl, fun h => h⟩
    have noted := (release w batch dues).tail (.untimed returned)
    rw [Change.writer_andThen rfl, Change.effects_andThen rfl, Change.writer_andThen rfl,
      Change.effects_andThen rfl]
    unfold Writer.requeue
    split
    · next empty =>
      rw [List.isEmpty_iff.1 empty] at noted ⊢
      exact noted
    · next some =>
      dsimp only
      rw [Change.writer_andThen rfl, Change.effects_andThen rfl]
      refine noted.trans (armTimerIf (fun _ none => some ?_) _)
      have parts := (w.buffer.entries_prepend failed).symm.trans none
      exact List.isEmpty_iff.2 (List.append_eq_nil_iff.1 parts).1

theorem endTimedFlush (w : Writer) : Ticking now w w.endTimedFlush := by
  refine (notify w).andThen fun _ => armTimerIf fun some none => ?_
  rw [(Buffer.isEmpty_iff _).2 none] at some
  cases some

theorem endCompletion (w : Writer) : Ticking now w w.endCompletion :=
  (showGauges w).andThen fun _ => notify _

theorem reportFailed (w : Writer) (batch : Nat) (fault : Fault) :
    Ticking now w (w.reportFailed now batch fault) := by
  unfold Writer.reportFailed
  split
  · exact announce w _
  · next request _ =>
    exact after (.note w (m := .reportedFailed batch request.entries) trivial
      (by simp [Milestone.Overdue])) (lost _ batch _)

/-- A batch's time is over: it is noted and released, and then the writer fails. -/
theorem expire (now : Nat) {batch : Nat} {r : Request Value}
    (found : w.inFlight.find? batch = some r)
    (dues : Dues) : (w.expire now batch = .stay w ∧ w.config.requestTimeout = none) ∨
      Ticks now (w.outlived now batch r.entries,
          Effect.dues now dues (.cancelAlarm (.expire batch)))
        ((w.expire now batch).writer,
          (w.expire now batch).effects.foldl (Effect.dues now) dues) := by
  unfold Writer.expire
  cases limited : w.config.requestTimeout with
  | none => simp [found]
  | some limit =>
    simp only [found]
    rw [Change.writer_andThen rfl, Change.effects_andThen rfl, List.foldl_append]
    exact .inr (recordFailure _ _ _)

end Ticking

theorem CallChange.ticking (h : CallChange now w c) : Ticking now w c := by
  induction h with
  | mild same mild =>
    refine .of_timeless same fun e he => ?_
    have tells := mild e he
    cases e with
    | setAlarm _ _ | cancelAlarm _ => exact tells.elim
    | _ => trivial
  | andThen _ _ first second => exact first.andThen second
  | note event => exact .after (.note _ (m := .announced event) trivial
      (by simp [Milestone.Overdue])) (.stay _)
  | bind loop => exact .bind _ _
  | accept entry => exact .accept _ _
  | @emptyBatch w batch =>
    have same := w.inFlight.openings_update batch (f := fun r => { r with entries := [] })
      fun _ => ⟨rfl, rfl⟩
    exact .of_untimed (.of_same (regular_emptyBatch w batch).later rfl rfl same rfl rfl fun h => h)
      (by simp [Writer.emptyBatch, Change.stay])
  | addWaiter | dropWaiter =>
    exact .of_untimed (.of_same { Later.refl _ with } rfl rfl rfl rfl rfl fun h => h)
      (by simp [Writer.addWaiter, Writer.dropWaiter, Change.stay])
  | close => exact .close _

end Writer
end BatchWriter
