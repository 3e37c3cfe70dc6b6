import BatchWriter.Proofs.Bench.Command
import BatchWriter.Proofs.Feedback.Faults

/-!
# Observers do not matter

Subscribers that raise ordinary faults at most, that neither give way nor touch a writer or a
destination, may as well not be there: without them the same is done, step for step, and only what
is logged and what they would have been told is missing.
-/

set_option autoImplicit false

namespace BatchWriter

/-- A subscriber that returns or raises an ordinary fault, at once, and touches no writer and no
destination. -/
def Reaction.Discreet : Reaction → Prop
  | .collect | .subscribe _ _ | .unsubscribe _ _ => True
  | .raise fault => fault.isOrdinary = true
  | .yield times => times = 0
  | .sleep milliseconds => ∃ fault, pauseDelay milliseconds = .error fault
  | .close _ | .complete _ _ => False

def Happening.isWork : Happening → Bool
  | .noticed _ | .delivered _ _ => false
  | _ => true

namespace Bench

variable {κ : Kinship} {b b' c : Bench} {id : Nat}

def Discreet (b : Bench) : Prop := ∀ s ∈ b.subscribers, s.reaction.Discreet

/-- The commands without those that come to nothing but what subscribers are told. -/
def unheard : List Command → Bench → List Command
  | [], _ => []
  | cmd :: rest, b =>
    let later := (b.obey cmd).elim [] (unheard rest)
    if b.hears cmd then later else cmd :: later

/-! ## What is done for subscribers -/

section Subscribers

variable (h : Twins κ b c) (silent : κ.silent = true)
include h silent

theorem subscribe_first (bus name : String) : Twins κ (b.subscribe bus name) c := by
  have opened := h.openBus_first silent bus
  unfold Bench.subscribe
  dsimp only
  split
  · exact opened
  · exact (opened.heard silent _).tell_first (Twins.hidden_notice silent _)

theorem unsubscribe_first (bus name : String) : Twins κ (b.unsubscribe bus name) c := by
  have opened := h.openBus_first silent bus
  unfold Bench.unsubscribe
  dsimp only
  split
  · exact (opened.heard silent _).tell_first (Twins.hidden_notice silent _)
  · exact opened

end Subscribers

structure Murmurs (κ : Kinship) (b c : Bench) (d : Delivery) (r : Bench × DeliveryProgress) :
    Prop where
  twins : Twins κ r.1 c
  aside : Aside b r.1
  /-- The delivery goes on at once, or nobody is left. -/
  passes : (r.2 = .done ∧ d.remaining = []) ∨ ∃ e, r.2 = .go e ∧ e.attention.Prompt

section Murmurs

variable (h : Twins κ b c) (silent : κ.silent = true) (d : Delivery)
include h silent

theorem murmurs_subscriberFault {fault : Fault} (ordinary : fault.isOrdinary = true) :
    Murmurs κ b c d (b.subscriberFault d fault) := by
  unfold Bench.subscriberFault
  rw [if_pos ordinary]
  exact ⟨h.tell_first (Twins.hidden_notice silent _), .log b _, .inr ⟨d.next, rfl, trivial⟩⟩

theorem murmurs_react {reaction : Reaction} (discreet : reaction.Discreet) :
    Murmurs κ b c d (b.react d reaction) := by
  have next : ∃ e, DeliveryProgress.go d.next = .go e ∧ e.attention.Prompt :=
    ⟨d.next, rfl, trivial⟩
  cases reaction with
  | collect => exact ⟨h, .refl b, .inr next⟩
  | raise fault => exact murmurs_subscriberFault h silent d discreet
  | sleep milliseconds =>
    obtain ⟨fault, refused⟩ := discreet
    rw [Bench.react, refused]
    exact murmurs_subscriberFault h silent d (ordinary_pause refused)
  | yield times => exact ⟨h, .refl b, .inr ⟨{ d with attention := .yields times }, rfl, discreet⟩⟩
  | unsubscribe bus name =>
    exact ⟨unsubscribe_first h silent bus name, .unsubscribe b bus name, .inr next⟩
  | subscribe bus name =>
    exact ⟨subscribe_first h silent bus name, .subscribe b bus name, .inr next⟩
  | close writer | complete destination call => exact discreet.elim

/-- What subscribers do who are told is their own affair. -/
theorem murmurs_attend (discreet : b.Discreet) (prompt : d.attention.Prompt) :
    Murmurs κ b c d (b.attend d) := by
  have next : ∃ e, DeliveryProgress.go d.next = .go e ∧ e.attention.Prompt :=
    ⟨d.next, rfl, trivial⟩
  unfold Bench.attend
  split
  · next none => exact ⟨h, .refl b, .inl ⟨rfl, none⟩⟩
  · next name _ _ =>
    split
    · exact ⟨h, .refl b, .inr next⟩
    · exact ⟨h, .refl b, .inr next⟩
    · next times yields =>
      rw [yields] at prompt
      cases prompt
    · split
      · next unfit => exact murmurs_subscriberFault h silent d (Event.ordinary_row unfit)
      · next row _ =>
        have known : ((b.subscriber? name).map Subscriber.reaction).getD .collect |>.Discreet := by
          cases found : b.subscriber? name with
          | none => trivial
          | some s => exact discreet s (List.mem_of_find?_eq_some found)
        have told := h.tell_first (x := .delivered name row) (by simp [Kinship.Heeds, silent])
        obtain ⟨twins, aside, passes⟩ := murmurs_react told silent d known
        exact ⟨twins, (Aside.tell b _).trans aside, passes⟩

end Murmurs

/-- A call goes on alike at once, while its twin stays where it is. -/
theorem goes_first (h : Twins κ b c) (running : b.running = some id) {k k' : Call}
    (hk : b.calls[id]? = some k) (hk' : c.calls[id]? = some k') (status : k.status = .running)
    (twins : κ.CallTwins k k') {p : Program} (alike : κ.Alike p k'.program) :
    Twins κ (b.resolve id (.go p)) c := by
  have same : c.calls.set id k' = c.calls := by
    obtain ⟨known, rfl⟩ := List.getElem?_eq_some_iff.1 hk'
    exact List.set_getElem_self known
  have moved : κ.CallTwins { k with program := p, status := .running } k' :=
    { twins with
      program := fun _ => alike
      status := status.symm.trans twins.status }
  have calls := forall₂_set h.calls id moved
  rw [same] at calls
  unfold Bench.resolve
  dsimp only
  rw [modify_call hk]
  exact { h with calls, running := running.symm.trans h.running }

theorem told_of_publication {b : Bench} {bus : String} (some : b.subscribersOf bus ≠ [])
    (event : Event) : ∃ d, (b.publication bus event).2 = Option.some d := by
  unfold Bench.publication
  dsimp only
  rw [Twins.subscribersOf_openBus]
  split
  · next none => exact absurd none some
  · exact ⟨_, rfl⟩

/-- While a call tells subscribers something its twin stands where it will go on. -/
theorem proceed_first (h : Twins κ b c) (silent : κ.silent = true) (discreet : b.Discreet)
    (running : b.running = some id) {k : Call} (hk : b.calls[id]? = some k)
    (status : k.status = .running) (tells : b.tells k.program = true) :
    Twins κ (b.proceed id) c := by
  obtain ⟨k₁, k', hk₁, hk', twins⟩ := (h.call id).resolve_left fun none => by
    rw [hk] at none
    cases none.1
  cases hk.symm.trans hk₁
  have goes : ∀ {r : Bench × Progress} {p : Program}, b.advanceProgram id k.loop k.program = r →
      Twins κ r.1 c → Aside b r.1 → r.2 = .go p → κ.Alike p k'.program →
      Twins κ (b.proceed id) c := by
    intro r p advanced after aside next alike
    unfold Bench.proceed
    simp only [hk, advanced, next]
    exact goes_first after (aside.running.trans running) (aside.calls ▸ hk) hk' status twins alike
  have live : k'.isEnded = false := by rw [← twins.isEnded, Call.isEnded, status]
  have alike := twins.program live
  obtain ⟨label, loop, program, status', watchers⟩ := k
  obtain ⟨label', loop', program', status'', watchers'⟩ := k'
  dsimp only at alike tells goes
  cases alike with
  | same _ plain =>
    cases program' with
    | write job point =>
      cases point with
      | publishing d next => exact (plain silent).elim
      | _ => cases tells
    | deliver d => exact (plain silent).elim
    | publish bus event =>
      have subscribed : b.subscribersOf bus ≠ [] := by
        simpa [Bench.tells, Kinship.program] using tells
      obtain ⟨d, told⟩ := told_of_publication subscribed event
      refine goes rfl (h.publication_first silent bus event) (.publication b bus event) ?_
        (.delivering silent d bus event (Twins.prompt_of_publication told))
      simp [Bench.advanceProgram, Kinship.program, told]
    | _ => cases tells
  | @telling _ job d next plain prompt =>
    obtain ⟨after, aside, ⟨done, -⟩ | ⟨e, goesOn, prompt'⟩⟩ :=
      murmurs_attend h silent d discreet prompt
    · refine goes rfl after aside ?_ (.same (.write job next) fun _ => plain)
      simp [Bench.advanceProgram, writeStep, writePublishing, Kinship.program, done]
    · refine goes rfl after aside ?_ (.telling silent job e plain prompt')
      simp [Bench.advanceProgram, writeStep, writePublishing, goesOn]
  | delivering _ d bus event prompt =>
    obtain ⟨after, aside, ⟨-, nobody⟩ | ⟨e, goesOn, prompt'⟩⟩ :=
      murmurs_attend h silent d discreet prompt
    · simp [Bench.tells, nobody] at tells
    · refine goes rfl after aside ?_ (.delivering silent e bus event prompt')
      simp [Bench.advanceProgram, deliverStep, goesOn]

/-- A command that comes to nothing but what subscribers are told changes nothing else. -/
theorem obey_first (h : Twins κ b c) (silent : κ.silent = true) (discreet : b.Discreet)
    (orderly : Orderly b) {cmd : Command} (heard : b.hears cmd = true)
    (done : b.obey cmd = some b') : Twins κ b' c := by
  cases cmd with
  | step =>
    cases running : b.running with
    | none => simp [hears, running] at heard
    | some id =>
      obtain ⟨k, hk, status, -⟩ := orderly.current id running
      have tells : b.tells k.program = true := by simpa [hears, running, hk] using heard
      have goes : some (b.proceed id) = some b' := by simpa [obey, step, running] using done
      cases goes
      exact proceed_first h silent discreet running hk status tells
  | subscribe bus name =>
    cases done
    exact subscribe_first h silent bus name
  | unsubscribe bus name =>
    cases done
    exact unsubscribe_first h silent bus name
  | _ => cases heard

/-- Twins, the second one silent, stay twins over all commands, of which the second one is given
those that do more than tell subscribers something. -/
theorem obeyAll_unheard (cmds : List Command) (h : Twins (.own true) b c) (discreet : b.Discreet)
    (reached : Reachable b) (reached' : Reachable c) (done : b.obeyAll cmds = some b') :
    ∃ c', c.obeyAll (unheard cmds b) = some c' ∧ Twins (.own true) b' c' := by
  induction cmds generalizing b c with
  | nil =>
    cases done
    exact ⟨c, rfl, h⟩
  | cons cmd rest ih =>
    obtain ⟨b₁, first, later⟩ := Option.bind_eq_some_iff.1 done
    have discreet₁ : b₁.Discreet := by
      unfold Discreet
      rw [(reached.shift (move_of_obey reached.orderly first)).subscribers]
      exact discreet
    have reached₁ := reached.obey first
    rw [unheard, first]
    by_cases heard : b.hears cmd = true
    · rw [if_pos heard]
      exact ih (obey_first h rfl discreet reached.orderly heard first) discreet₁ reached₁ reached'
        later
    · rw [if_neg heard]
      have both := h.obey reached reached' cmd
        (fun _ _ _ _ _ _ => Kinship.own_welcome _ _ _) fun _ => by simpa using heard
      rcases rel_cases both with ⟨none, -⟩ | ⟨b₂, c₁, same, first', twins⟩
      · rw [first] at none
        cases none
      · cases first.symm.trans same
        obtain ⟨c', done', twins'⟩ := ih twins discreet₁ reached₁ (reached'.obey first') later
        exact ⟨c', (congrArg (Option.bind · _) first').trans done', twins'⟩

/-! ## Benches that do the same work -/

/-- The calls do the same. Until they end they stand at the same point, unless the first one is
telling subscribers something. -/
structure SameCall (k k' : Call) : Prop where
  label : k.label = k'.label
  loop : k.loop = k'.loop
  status : k.status = k'.status
  watchers : k.watchers = k'.watchers
  program : k.isEnded = false → k.program.Plain → k.program = k'.program

/-- The benches differ only in what is logged, in what subscribers were told and in what calls do
who are telling them. -/
structure SameWork (b c : Bench) : Prop where
  writers : b.writers = c.writers
  destinations : b.destinations = c.destinations
  names : ∀ name, b.names.get? name = c.names.get? name
  time : b.time = c.time
  main : b.main = c.main
  alt : b.alt = c.alt
  turn : b.turn = c.turn
  running : b.running = c.running
  calls : List.Forall₂ SameCall b.calls c.calls
  metrics : b.metrics = c.metrics
  answers : b.answers = c.answers
  trace : b.trace.filter Happening.isWork = c.trace.filter Happening.isWork

theorem sameCall_of_twins {k k' : Call} (h : (Kinship.own true).CallTwins k k') :
    SameCall k k' where
  label := h.label
  loop := h.loop
  status := h.status
  watchers := h.watchers
  program live plain := by
    have alike := h.program (h.isEnded.symm.trans live)
    obtain ⟨label, loop, p, status, watchers⟩ := k
    obtain ⟨label', loop', p', status', watchers'⟩ := k'
    dsimp only at alike plain ⊢
    cases alike with
    | same _ _ => exact Kinship.own_program true _
    | telling _ _ _ _ _ | delivering _ _ _ _ _ => exact plain.elim

theorem sameWork_of_twins (h : Twins (.own true) b c) : SameWork b c where
  writers := by
    refine List.ext_getElem? fun i => ?_
    rcases h.writer (show (Kinship.own true).Live i from fun gone => by cases gone) with
      ⟨none, none'⟩ | ⟨w, w', hw, hw', twins⟩
    · exact none.trans none'.symm
    · exact hw.trans ((congrArg some twins.eq).trans hw'.symm)
  destinations := h.destinations.trans (Kinship.own_destinations true _)
  names name := by
    rw [h.names]
    exact congrFun Option.map_id _
  time := h.time.trans (Kinship.own_timetable true _)
  main := h.main.trans (Kinship.own_eventLoop true _)
  alt := h.alt.trans (Kinship.own_eventLoop true _)
  turn := h.turn
  running := h.running
  calls := h.calls.imp fun _ _ => sameCall_of_twins
  metrics := h.metrics rfl
  answers := h.answers
  trace := by
    have work : (Kinship.own true).Heeds = Happening.isWork := by
      funext x
      cases x <;> rfl
    have same : ∀ x x', (Kinship.own true).HappeningTwins x x' → x = x' := by
      rintro x x' (rfl | ⟨i, rfl⟩)
      · rfl
      · exact Happening.shifted_zero x'
    have trace := h.trace
    rw [work] at trace
    exact List.forall₂_eq_eq_eq ▸ trace.imp same

/-- **Observers.** Whatever is done, if subscribers return or raise ordinary faults at once and
touch no writer and no destination, the same is done, step for step, where nobody ever subscribes:
the same batches in the same order with the same outcomes, the same alarms and measurements. -/
theorem observers_do_not_matter {s : Scenario} (unused : s.Unused)
    (discreet : ∀ sub ∈ s.subscribers, sub.reaction.Discreet) (cmds : List Command)
    (done : s.start.obeyAll cmds = some b) :
    ∃ c, s.start.obeyAll (unheard cmds s.start) = some c ∧ (∀ bus, c.subscribersOf bus = []) ∧
      SameWork b c := by
  have reached : Reachable s.start := .init s unused
  obtain ⟨c, done', twins⟩ :=
    obeyAll_unheard cmds (twins_start unused true) discreet reached reached
    done
  exact ⟨c, done', twins.buses, sameWork_of_twins twins⟩

def attended : Scenario where
  destinations := [{ name := "sink", adapter := .manual }]
  subscribers := [{ name := "a", reaction := .raise .indexOutOfRange }]
  acts := []

def attendedRun : List Command :=
  .create "w" { config := [("max_batch_size", .nat 1), ("max_in_flight_requests", .nat 1),
      ("max_buffered_requests", .nat 2)], destination := "sink" } ::
    .subscribe "global" "a" ::
    .start "t" .main (.writeAll "w" [.nat 7, .nat 8, .nat 9]) :: List.replicate 16 .step

theorem observers_do_not_matter_attended : ∃ b c, attended.start.obeyAll attendedRun = some b ∧
    (∃ row, .delivered "a" row ∈ b.trace) ∧
    attended.start.obeyAll (unheard attendedRun attended.start) = some c ∧ SameWork b c := by
  have unused : attended.Unused := by
    intro d hm
    cases List.mem_singleton.1 hm
    exact ⟨rfl, rfl⟩
  have discreet : ∀ sub ∈ attended.subscribers, sub.reaction.Discreet := by
    intro sub hm
    cases List.mem_singleton.1 hm
    show Fault.isOrdinary _ = true
    decide
  have told : ∃ b, attended.start.obeyAll attendedRun = some b ∧
      ∃ row, .delivered "a" row ∈ b.trace :=
    ⟨_, rfl, _, List.mem_of_getElem? (i := 1) rfl⟩
  obtain ⟨b, done, delivered⟩ := told
  obtain ⟨c, done', -, same⟩ := observers_do_not_matter unused discreet attendedRun done
  exact ⟨b, c, done, delivered, done', same⟩

end Bench
end BatchWriter
