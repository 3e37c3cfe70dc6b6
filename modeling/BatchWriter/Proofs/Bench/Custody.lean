import BatchWriter.Proofs.Bench.Handover
import BatchWriter.Proofs.Bench.Jobs

/-!
# What becomes of a batch that is handed over

A destination takes up what it is handed: one that answers by hand keeps the batch among its
calls, a sender starts a call that carries it, and an executor gets a job for it. Only an executor
that is shut down turns a batch away. What was taken up is not lost, so in every state of a run the
destination has whatever the history of a writer says was handed over to it.
-/

set_option autoImplicit false

namespace BatchWriter

namespace Destination

def TurnsAway (d : Destination) : Prop := d.shutDown = true ∧ ∃ owned, d.adapter = .executor owned

structure Keeps (d d' : Destination) : Prop where
  adapter : d'.adapter = d.adapter
  calls : d.KeepsCalls d'
  jobs : ∀ job ∈ d.jobs, ∃ job' ∈ d'.jobs, job'.handle = job.handle ∧ job'.entries = job.entries
  shutDown : d.shutDown = true → d'.shutDown = true

variable {d d' : Destination}

theorem Keeps.refl (d : Destination) : d.Keeps d :=
  ⟨rfl, .of_same rfl, fun job hj => ⟨job, hj, rfl, rfl⟩, id⟩

theorem Later.keeps (h : d.Later d') : d.Keeps d' where
  adapter := h.adapter
  calls := h.calls
  jobs job hj := by
    obtain ⟨submitted, same, -⟩ := h.jobs
    exact ⟨job, same ▸ List.mem_append_left _ hj, rfl, rfl⟩
  shutDown := h.shutDown

theorem Ends.keeps {n : Nat} {job : Job} (h : d.Ends n job d') (was : d.jobs[n]? = some job) :
    d.Keeps d' where
  adapter := h.adapter
  calls := .of_same h.calls
  jobs other ho := by
    obtain ⟨state, jobs, -⟩ := h.jobs
    obtain ⟨m, found⟩ := List.mem_iff_getElem?.1 ho
    by_cases own : n = m
    · subst own
      rw [was, Option.some.injEq] at found
      refine ⟨{ job with state }, List.mem_of_getElem? (i := n) ?_, found ▸ rfl, found ▸ rfl⟩
      rw [jobs, List.getElem?_set_self (List.getElem?_eq_some_iff.1 was).1]
    · refine ⟨other, List.mem_of_getElem? (i := m) ?_, rfl, rfl⟩
      rw [jobs, List.getElem?_set_ne own, found]
  shutDown := by rw [h.shutDown]; exact id

theorem Keeps.turnsAway (h : d.Keeps d') (away : d.TurnsAway) : d'.TurnsAway :=
  ⟨h.shutDown away.1, by rw [h.adapter]; exact away.2⟩

end Destination

namespace Bench

variable {b b' : Bench} {i k batch : Nat} {w w' : Writer} {d d' : Destination} {loop : LoopName}
  {handle : Handle} {entries : List Value}

/-- The destination at `k` has taken the entries up under the handle. What it is to answer by hand
it may have emptied. -/
def TakenUp (b : Bench) (k : Nat) (d : Destination) (handle : Handle) (entries : List Value) :
    Prop :=
  match d.adapter with
  | .manual => (handle, entries) ∈ d.calls ∨ (handle, []) ∈ d.calls
  | .sender => ∃ (id : Nat) (c : Call), b.calls[id]? = some c ∧
      c.program.carries? = some (k, entries, handle)
  | .executor _ => ∃ job ∈ d.jobs, job.handle = handle ∧ job.entries = entries

theorem TakenUp.kept (h : b.TakenUp k d handle entries) (keeps : d.Keeps d')
    (carries : Carries b b') : b'.TakenUp k d' handle entries := by
  cases adapter : d.adapter <;> simp only [TakenUp, keeps.adapter, adapter] at h ⊢
  case manual =>
    rcases h with kept | emptied
    · exact keeps.calls _ kept
    · exact .inr ((keeps.calls _ emptied).elim id id)
  case sender =>
    obtain ⟨id, c, hc, carried⟩ := h
    obtain ⟨c', hc', same⟩ := carries id c hc
    exact ⟨id, c', hc', same.trans carried⟩
  case executor _ =>
    obtain ⟨job, hj, told, holds⟩ := h
    obtain ⟨job', hj', told', holds'⟩ := keeps.jobs job hj
    exact ⟨job', hj', told'.trans told, holds'.trans holds⟩

/-! ## From one bench to the next -/

structure Preserves (b b' : Bench) : Prop where
  destinations : ∀ (k : Nat) (d' : Destination), b'.destinations[k]? = some d' →
    ∃ d : Destination, b.destinations[k]? = some d ∧ d.Keeps d'
  carries : Carries b b'

theorem Steady.preserves (h : Steady b b') : Preserves b b' where
  destinations k d' hd' := by
    obtain ⟨d, hd, later⟩ := h.destinations k d' hd'
    exact ⟨d, hd, later.keeps⟩
  carries := h.carries

theorem Works.preserves (works : b.Works b') : Preserves b b' := by
  obtain rfl | ⟨k, n, d, job, worked⟩ := works.cases
  · exact (Steady.refl b').preserves
  · refine ⟨fun k' d' hd' => ?_, .of_calls worked.calls⟩
    obtain ⟨-, hd⟩ | ⟨rfl, ends⟩ := worked.destination hd'
    · exact ⟨d', hd, .refl d'⟩
    · exact ⟨d, worked.known, ends.keeps worked.was⟩

/-! ## The hand-over -/

theorem submit_of_turnsAway (hd : b.destinations[k]? = some d) (away : d.TurnsAway)
    (loop : Option LoopName) (entries : List Value) (handle : Handle) :
    b.submit k loop entries handle = (some .executorShutDown, b) := by
  obtain ⟨shut, owned, adapter⟩ := away
  simp only [submit, hd, adapter, if_pos shut]

/-- Whoever is handed entries takes them up, an executor that is shut down apart. -/
theorem submit_takes (hd : b.destinations[k]? = some d) (accepts : ¬ d.TurnsAway)
    (loop : LoopName) (entries : List Value) (handle : Handle)
    (hd' : (b.submit k (some loop) entries handle).2.destinations[k]? = some d') :
    (b.submit k (some loop) entries handle).2.TakenUp k d' handle entries := by
  have known := (List.getElem?_eq_some_iff.1 hd).1
  unfold submit at hd' ⊢
  simp only [hd] at hd' ⊢
  split at hd'
  · next adapter =>
    have steady := (WriterChanges.callActions (CallActions.respond k d.reached handle
      (d.behaviour d.reached).responses
      (b.reach k { d with calls := d.calls ++ [(handle, entries)] } entries))).steady
    obtain ⟨d₁, hd₁, later⟩ := steady.destinations k d' hd'
    have called : d₁.adapter = .manual ∧ d₁.calls = d.calls ++ [(handle, entries)] := by
      rw [reach, tell, setDestination, List.getElem?_set_self known, Option.some.injEq] at hd₁
      rw [← hd₁]
      exact ⟨adapter, rfl⟩
    simp only [TakenUp, later.adapter, called.1]
    exact later.calls _ (by rw [called.2]; simp)
  · next absent =>
    cases absent
  · next name adapter present =>
    rw [Option.some.injEq] at present
    subst present
    rw [start, post, destinations_setLoop, setDestination, List.getElem?_set_self known,
      Option.some.injEq] at hd'
    simp only [TakenUp, ← hd', adapter, start, post, calls_setLoop]
    exact ⟨b.calls.length, _, List.getElem?_concat_length, rfl⟩
  · next owned adapter =>
    have lets : ¬ d.shutDown = true := fun shut => accepts ⟨shut, owned, adapter⟩
    rw [if_neg lets, setDestination, List.getElem?_set_self known, Option.some.injEq] at hd'
    simp only [TakenUp, ← hd', adapter]
    exact ⟨_, List.mem_append_right _ (List.mem_singleton_self _), rfl, rfl⟩

/-- A batch that is turned away is lost. -/
theorem dispatch_turnsAway (hw : b.writers[i]? = some w) (bound : w.loop = some loop)
    (hd : b.destinations[w.destination]? = some d) (away : d.TurnsAway) {parcel : Writer.Parcel}
    (handed : (w.startDispatch loop b.now).2 = some parcel) :
    (b.dispatch i loop).1 = some (.submission parcel.batch .executorShutDown) ∧
      ∃ u : Writer, u.refusal? = none ∧ (b.dispatch i loop).2.writers[i]? = some (u.losing b.now
        parcel.batch (.refused parcel.batch parcel.entries)
        (.submission parcel.batch .executorShutDown)) := by
  rcases dispatch_parts hw bound with
    ⟨-, kept, -⟩ | ⟨parcel', u, inFlight, r, some, opens, -, -, submits, hu, same⟩
  · rw [handed] at kept
    cases kept
  · rw [handed, Option.some.injEq] at some
    subst some
    rw [submit_of_turnsAway (by rw [destinations_change, hd]) away] at submits
    subst submits
    rw [same, fault_change hu, writer_change hu,
      Writer.writer_concludeDispatch_refused _ _ _ (by rfl)]
    refine ⟨rfl, _, ?_, rfl⟩
    show u.refusal? = none
    rw [opens.same]
    exact opens.usable

/-- Any other one is with the destination when the dispatch ends. -/
theorem dispatch_takes (hw : b.writers[i]? = some w) (bound : w.loop = some loop)
    (hd : b.destinations[w.destination]? = some d) (accepts : ¬ d.TurnsAway)
    {parcel : Writer.Parcel} (handed : (w.startDispatch loop b.now).2 = some parcel)
    (hd' : (b.dispatch i loop).2.destinations[w.destination]? = some d') :
    (b.dispatch i loop).2.TakenUp w.destination d' (.batch i loop parcel.batch)
      parcel.entries := by
  rcases dispatch_parts hw bound with
    ⟨-, kept, -⟩ | ⟨parcel', u, inFlight, r, some, -, -, -, submits, -, same⟩
  · rw [handed] at kept
    cases kept
  · rw [handed, Option.some.injEq] at some
    subst some
    rw [same, destinations_change, submits] at hd'
    have takes := submit_takes (by rw [destinations_change, hd]) accepts loop _ _ hd'
    rw [same, submits]
    exact takes.kept (.refl d') (Steady.change _ i _).carries

/-- A dispatch hands over the batch that it opens and no other. -/
theorem handed_dispatch (hw : b.writers[i]? = some w) (bound : w.loop = some loop)
    (hw' : (b.dispatch i loop).2.writers[i]? = some w') : ∃ newer : History,
      w'.history = newer ++ w.history ∧ ∀ now batch entries, (now, .handed batch entries) ∈ newer →
        now = b.now ∧ (w.startDispatch loop b.now).2 = some { batch, entries } := by
  rcases dispatch_parts hw bound with
    ⟨same, kept, -⟩ | ⟨parcel, u, inFlight, r, some, opens, -, -, -, hu, same⟩
  · rw [same, writer_change hw, Option.some.injEq] at hw'
    rw [← hw']
    rcases Writer.startDispatch_kept bound kept with history | ⟨-, _, _, history⟩
    · exact ⟨[], history, by simp⟩
    · exact ⟨[_], history, by simp⟩
  · rw [same, writer_change hu, Option.some.injEq] at hw'
    have only : ∀ now batch entries, now = b.now → batch = parcel.batch →
        entries = parcel.entries → now = b.now ∧
          (w.startDispatch loop b.now).2 = Option.some { batch, entries } := by
      rintro _ _ _ rfl rfl rfl
      exact ⟨rfl, some⟩
    rcases Writer.writer_concludeDispatch { u with inFlight } b.now parcel r.1 with
      told | ⟨fault, -, lost⟩
    · refine ⟨[_, _], by rw [← hw', told, Writer.note, opens.same]; rfl, ?_⟩
      simpa using only
    · refine ⟨[_, _, _], by rw [← hw', lost, Writer.losing, Writer.note, opens.same]; rfl, ?_⟩
      simpa using only

/-! ## Whole runs -/

/-- What the history says that the writer at `i` handed over its destination has taken up, or it
has turned it away. -/
def HasHanded (b : Bench) (i : Nat) (w : Writer) (h : History) : Prop :=
  ∀ d, b.destinations[w.destination]? = some d →
    ∀ now batch entries, (now, .handed batch entries) ∈ h →
      (∃ name, w.loop = some name ∧
        b.TakenUp w.destination d (.batch i name batch) entries) ∨
      d.TurnsAway ∧ (now, .refused batch entries) ∈ w.history

theorem HasHanded.of_quiet {h : History}
    (quiet : ∀ e ∈ h, ∀ batch entries, e.2 ≠ .handed batch entries) : b.HasHanded i w h :=
  fun _ _ _ batch entries handed => absurd rfl (quiet _ handed batch entries)

theorem HasHanded.still (h : b.HasHanded i w w.history) (preserves : Preserves b b')
    (destination : w'.destination = w.destination)
    (loop : ∀ l, w.loop = some l → w'.loop = some l) {newer : History}
    (history : w'.history = newer ++ w.history) (new : b'.HasHanded i w' newer) :
    b'.HasHanded i w' w'.history := by
  intro d' hd' now batch entries handed
  rw [history] at handed
  rcases List.mem_append.1 handed with handed | handed
  · exact new d' hd' now batch entries handed
  · obtain ⟨d, hd, keeps⟩ := preserves.destinations _ d' hd'
    rw [destination] at hd
    refine (h d hd now batch entries handed).imp ?_ ?_
    · rintro ⟨name, bound, taken⟩
      rw [destination]
      exact ⟨name, loop name bound, taken.kept keeps preserves.carries⟩
    · rintro ⟨away, refused⟩
      exact ⟨keeps.turnsAway away, history ▸ List.mem_append_right _ refused⟩

theorem HasHanded.same (h : b.HasHanded i w w.history) (preserves : Preserves b b')
    (inFlight : InFlight Value) : b'.HasHanded i { w with inFlight } w.history :=
  h.still preserves rfl (fun _ bound => bound) (List.nil_append _).symm (.of_quiet (by simp))

def AllHanded (b : Bench) : Prop :=
  ∀ (i : Nat) (w : Writer), b.writers[i]? = some w → b.HasHanded i w w.history

namespace AllHanded

theorem of_writers (h : AllHanded b) (preserves : Preserves b b')
    (writers : b'.writers = b.writers) : AllHanded b' := fun i w hw =>
  (h i w (writers ▸ hw)).same preserves w.inFlight

theorem elsewhere (h : AllHanded b) (preserves : Preserves b b') (elsewhere : Elsewhere i b b')
    (own : ∀ w' : Writer, b'.writers[i]? = some w' → b'.HasHanded i w' w'.history) :
    AllHanded b' := by
  intro j u' hu'
  by_cases same : j = i
  · subst same
    exact own u' hu'
  · obtain ⟨u, inFlight, hu, rfl, -⟩ := elsewhere.before same hu'
    exact (h j u hu).same preserves inFlight

theorem change (h : AllHanded b) (i : Nat) {f : Writer → Change}
    (quiet : ∀ w : Writer, b.writers[i]? = some w →
      w.Later (f w).writer ∧ w.Unsent (f w).writer) : AllHanded (b.change i f).2 := by
  have preserves := (Steady.change b i f).preserves
  refine h.elsewhere preserves (.change b i f) fun w' hw' => ?_
  cases hw : b.writers[i]? with
  | none => rw [change_of_none hw, hw] at hw'; cases hw'
  | some w =>
    rw [writer_change hw, Option.some.injEq] at hw'
    obtain ⟨later, newer, history, silent⟩ := quiet w hw
    subst hw'
    refine (h i w hw).still preserves later.destination later.loop history ?_
    exact .of_quiet fun e he batch entries handed => silent e he (by rw [handed]; trivial)

theorem dispatch (h : AllHanded b) (own : b.Owned i loop) : AllHanded (b.dispatch i loop).2 := by
  have writerChanges := WriterChanges.dispatch own
  have preserves := writerChanges.steady.preserves
  refine h.elsewhere preserves (.dispatch b i loop) fun w' hw' => ?_
  have ⟨w, hw, bound⟩ := own
  obtain ⟨newer, history, handed⟩ := handed_dispatch hw bound hw'
  obtain ⟨v, hv, ceases⟩ := (BenchChanges.writerChanges writerChanges).stills i w hw
  rw [hw', Option.some.injEq] at hv
  subst hv
  have later := ceases.later
  refine (h i w hw).still preserves later.destination later.loop history ?_
  intro d' hd' now batch entries new
  obtain ⟨rfl, opens⟩ := handed now batch entries new
  obtain ⟨d, hd, keeps⟩ := preserves.destinations _ d' hd'
  rw [later.destination] at hd hd' ⊢
  by_cases away : d.TurnsAway
  · obtain ⟨-, u, -, lost⟩ := dispatch_turnsAway hw bound hd away opens
    rw [hw', Option.some.injEq] at lost
    exact .inr ⟨keeps.turnsAway away, by simp [lost, Writer.losing]⟩
  · exact .inl ⟨loop, later.loop loop bound, dispatch_takes hw bound hd away opens hd'⟩

theorem create (h : AllHanded b) (name : String) (spec : WriterSpec) :
    AllHanded (b.create name spec).2 := by
  have preserves := (Steady.create b name spec).preserves
  intro i w hw
  rcases create_cases b name spec with same | ⟨c, built⟩
  · rw [same] at hw ⊢
    exact h i w hw
  · rcases built.writer hw with hw | rfl
    · exact (h i w hw).same preserves w.inFlight
    · obtain ⟨entries, history⟩ := built.history
      exact .of_quiet (by simp [history])

end AllHanded

theorem WriterAction.allHanded (s : WriterAction b b') (h : AllHanded b) : AllHanded b' := by
  cases s with
  | beside beside => exact h.of_writers beside.toSteady.preserves beside.writers
  | plainChange i plain => exact h.change i fun w hw => ⟨(plain w hw).later, (plain w hw).unsent⟩
  | dispatch own => exact h.dispatch own

theorem WriterActions.allHanded (s : WriterActions b b') (h : AllHanded b) : AllHanded b' := by
  induction s with
  | refl => exact h
  | tail _ writerAction ih => exact writerAction.allHanded ih

theorem BenchAction.allHanded {sends : Nat → Prop} (s : BenchAction sends b b') (h : AllHanded b) :
    AllHanded b' := by
  cases s with
  | loopAction loopAction => exact loopAction.writerActions.allHanded h
  | pass later alarms => exact h
  | @flush limit i time due own =>
    have rung := AllHanded.change (b := { b with time }) h i fun w _ =>
      ⟨(Writer.Ceases.bufferTimeOver w).later, Writer.Unsent.bufferTimeOver w⟩
    exact (WriterActions.bufferAlarm (b := { b with time }) own).allHanded rung
  | @expire limit i batch time due =>
    exact AllHanded.change (b := { b with time }) h i fun w _ =>
      ⟨(Writer.Ceases.expire w _ _).later, Writer.Unsent.expire w _ _⟩
  | closeLoop name =>
    have still : Steady b (b.closeLoop name) := .of_same (destinations_setLoop _ _ _)
      (jobAnswers_setLoop _ _ _) (.of_calls (calls_setLoop _ _ _))
    exact h.of_writers still.preserves (writers_setLoop _ _ _)
  | create name spec => exact h.create name spec
  | work works => exact h.of_writers works.preserves works.bypasses.writers

/-- **What is handed over is taken up.** In every state of every run the destination of a writer
has each batch that the writer's history says was handed over to it, with these very entries,
unless it is an executor that was shut down and refused the batch there and then. -/
theorem Reachable.handed_over (h : Reachable b) (hw : b.writers[i]? = some w)
    (hd : b.destinations[w.destination]? = some d) {now : Nat}
    (handed : (now, .handed batch entries) ∈ w.history) :
    (∃ name, w.loop = some name ∧ b.TakenUp w.destination d (.batch i name batch) entries) ∨
      d.TurnsAway ∧ (now, .refused batch entries) ∈ w.history := by
  have all : AllHanded b :=
    h.by_actions (fun _ _ _ hw => absurd hw (by simp [Scenario.start])) fun _ _ _ benchAction ih =>
      benchAction.allHanded ih
  exact all i w hw d hd now batch entries handed

end Bench
end BatchWriter
