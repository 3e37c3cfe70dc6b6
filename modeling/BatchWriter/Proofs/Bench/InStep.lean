import BatchWriter.Proofs.Bench.Twins

/-!
# Twins keep in step

Whatever is done to a bench, its twin comes to the same when the same is done to it. There is one
lemma for each thing that a bench does, in the order of the bench's own definitions.
-/

set_option autoImplicit false

namespace BatchWriter
namespace Bench

variable {κ : Kinship} {b c : Bench} {id i : Nat} {name : LoopName}

/-- A handle of the retired writer is one of its batches. -/
def Kinship.Past (κ : Kinship) (handle : Handle) : Prop :=
  ∀ i loop batch, handle = .batch i loop batch → κ.retired = some i →
    batch ≤ (κ.writer κ.heir).shift

def Kinship.Reports (κ : Kinship) (handle : Handle) : Prop :=
  ∀ i loop batch, handle = .batch i loop batch → κ.Live i

theorem Kinship.Reports.past {handle : Handle} (h : κ.Reports handle) : κ.Past handle :=
  fun i loop batch own gone => absurd gone (h i loop batch own)

namespace Twins

theorem past_of_issued (h : Twins κ b c) {handle : Handle} (issued : c.Issued handle) :
    κ.Past handle := by
  rintro i loop batch rfl gone
  obtain ⟨w, hw, -, few⟩ := h.retired i gone
  obtain ⟨u, hu, issued⟩ := issued
  rw [Option.some.inj (hu.symm.trans hw)] at issued
  exact Nat.le_trans issued few

theorem past_of_holds (h : Twins κ b c) {handle : Handle} (held : c.Holds handle) :
    κ.Past handle := h.past_of_issued (h.held handle held)

theorem tellHandle (h : Twins κ b c) {handle : Handle} (past : κ.Past handle) (report : Report) :
    Twins κ (b.tellHandle (κ.handle handle) report) (c.tellHandle handle report) := by
  cases handle with
  | recorder label => exact h.tell (.inl rfl)
  | batch i loop batch =>
    simp only [Kinship.handle, Bench.tellHandle, h.closed]
    split
    · refine h.tell (.inr ⟨i, ?_⟩)
      simp [Happening.shifted, Notice.shifted, Value.nat]
    · refine h.post rfl (.report i batch report) fun j k _ gone same => ?_
      cases same
      exact past i loop batch rfl gone

/-! ## Feedback -/

/-- Where the second bench is silent, the buses of the first one are its own affair. -/
theorem heard (h : Twins κ b c) (silent : κ.silent = true) (buses : Ledger String (List String)) :
    Twins κ { b with buses } c := by
  refine { h with buses := ?_ }
  have none := h.buses
  rw [silent] at none ⊢
  exact none

theorem hidden_notice (silent : κ.silent = true) (n : Notice) : κ.Heeds (.noticed n) = false := by
  simp [Kinship.Heeds, silent]

theorem openBus_first (h : Twins κ b c) (silent : κ.silent = true) (bus : String) :
    Twins κ (b.openBus bus) c := by
  have opened := h.heard silent (b.buses.ensure bus [])
  unfold Bench.openBus
  split
  · exact h
  · dsimp only
    split
    · exact opened.tell_first (hidden_notice silent _)
    · exact opened

theorem openBus_second (h : Twins κ b c) (silent : κ.silent = true) (bus : String) :
    Twins κ b (c.openBus bus) := by
  have opened : Twins κ b { c with buses := c.buses.ensure bus [] } := by
    refine { h with buses := ?_ }
    have none := h.buses
    rw [silent] at none ⊢
    exact fun other => (Ledger.getD_ensure _ _ _ _).trans (none other)
  unfold Bench.openBus
  split
  · exact h
  · dsimp only
    split
    · exact opened.tell_second (hidden_notice silent _)
    · exact opened

section Heard

variable (h : Twins κ b c) (loud : κ.silent = false)
include h loud

theorem same_buses : b.buses = c.buses := by
  have buses := h.buses
  rw [loud] at buses
  exact buses

theorem setBuses (buses : Ledger String (List String)) :
    Twins κ { b with buses } { c with buses } := by
  refine { h with buses := ?_ }
  rw [loud]
  rfl

theorem openBus (bus : String) : Twins κ (b.openBus bus) (c.openBus bus) := by
  have buses := h.same_buses loud
  have opened := h.setBuses loud (c.buses.ensure bus [])
  unfold Bench.openBus
  rw [buses]
  split
  · exact h
  · dsimp only
    split
    · exact opened.log _
    · exact opened

theorem subscribe (bus name : String) : Twins κ (b.subscribe bus name) (c.subscribe bus name) := by
  have opened := h.openBus loud bus
  have buses := opened.same_buses loud
  have current : (b.openBus bus).subscribersOf bus = (c.openBus bus).subscribersOf bus :=
    congrArg (·.getD bus []) buses
  unfold Bench.subscribe
  dsimp only
  rw [current, buses]
  split
  · exact opened
  · exact (opened.setBuses loud _).log _

theorem unsubscribe (bus name : String) :
    Twins κ (b.unsubscribe bus name) (c.unsubscribe bus name) := by
  have opened := h.openBus loud bus
  have buses := opened.same_buses loud
  have current : (b.openBus bus).subscribersOf bus = (c.openBus bus).subscribersOf bus :=
    congrArg (·.getD bus []) buses
  unfold Bench.unsubscribe
  dsimp only
  rw [current, buses]
  split
  · exact (opened.setBuses loud _).log _
  · exact opened

end Heard

theorem publication (h : Twins κ b c) (loud : κ.silent = false) (bus : String) (event : Event) :
    Twins κ (b.publication bus event).1 (c.publication bus event).1 ∧
      (b.publication bus event).2 = (c.publication bus event).2 := by
  have opened := h.openBus loud bus
  have current : (b.openBus bus).subscribersOf bus = (c.openBus bus).subscribersOf bus :=
    congrArg (·.getD bus []) (opened.same_buses loud)
  unfold Bench.publication
  dsimp only
  rw [current]
  split
  · exact ⟨opened, rfl⟩
  · exact ⟨opened.log _, rfl⟩

/-- Where the second bench is silent, the first one may publish on its own. -/
theorem publication_first (h : Twins κ b c) (silent : κ.silent = true) (bus : String)
    (event : Event) : Twins κ (b.publication bus event).1 c := by
  have opened := h.openBus_first silent bus
  unfold Bench.publication
  dsimp only
  split
  · exact opened
  · exact opened.tell_first (hidden_notice silent _)

theorem publication_second (h : Twins κ b c) (silent : κ.silent = true) (bus : String)
    (event : Event) : Twins κ b (c.publication bus event).1 ∧
      (c.publication bus event).2 = none := by
  have opened := h.openBus_second silent bus
  have none := opened.buses
  rw [silent, if_pos rfl] at none
  unfold Bench.publication
  dsimp only
  rw [none bus]
  exact ⟨opened, rfl⟩

theorem subscribersOf_openBus (b : Bench) (bus other : String) :
    (b.openBus bus).subscribersOf other = b.subscribersOf other := by
  unfold Bench.openBus
  split
  · rfl
  · dsimp only
    split <;> exact Ledger.getD_ensure _ _ _ _

theorem prompt_of_publication {b : Bench} {bus : String} {event : Event} {delivery : Delivery}
    (told : (b.publication bus event).2 = some delivery) : delivery.attention.Prompt := by
  unfold Bench.publication at told
  dsimp only at told
  split at told
  · cases told
  · rw [← Option.some.inj told]
    trivial

/-- What is published on a bus without subscribers reaches nobody. -/
theorem publication_none {b : Bench} {bus : String} (none : b.subscribersOf bus = [])
    (event : Event) : (b.publication bus event).2 = Option.none := by
  unfold Bench.publication
  dsimp only
  rw [subscribersOf_openBus, none]

theorem destinationIndex? (h : Twins κ b c) (destination : String) :
    b.destinationIndex? destination = c.destinationIndex? destination := by
  unfold Bench.destinationIndex?
  rw [h.destinations, List.findIdx?_map]
  rfl

theorem entryAt?_map {α β : Type} (f : α → β) (entries : List α) (place : Int) :
    entryAt? (entries.map f) place = (entryAt? entries place).map f := by
  unfold entryAt?
  rw [List.length_map]
  split
  · exact List.getElem?_map
  · split
    · exact List.getElem?_map
    · rfl

theorem mem_of_entryAt? {α : Type} {entries : List α} {place : Int} {x : α}
    (found : entryAt? entries place = some x) : x ∈ entries := by
  unfold entryAt? at found
  split at found
  · exact List.mem_of_getElem? found
  · split at found
    · exact List.mem_of_getElem? found
    · cases found

/-- A call of a destination is known by the same place on both sides. -/
theorem handleOf (h : Twins κ b c) (destination : String) (call : Int) :
    b.handleOf destination call =
      (c.handleOf destination call).map fun found => (κ.handle found.1, found.2) := by
  unfold Bench.handleOf
  rw [h.destinationIndex?]
  cases c.destinationIndex? destination with
  | none => rfl
  | some i =>
    dsimp only
    rw [h.destination]
    cases c.destinations[i]? with
    | none => rfl
    | some d =>
      dsimp only [Option.map_some]
      rw [show (κ.destination d).calls = d.calls.map fun k => (κ.handle k.1, k.2) from rfl,
        entryAt?_map]
      cases entryAt? d.calls call <;> rfl

theorem holds_of_handleOf {destination : String} {call : Int} {found : Handle × List Value}
    (known : c.handleOf destination call = .ok found) : c.Holds found.1 := by
  unfold Bench.handleOf at known
  split at known
  · cases known
  · split at known
    · cases known
    · next d hd =>
      cases he : entryAt? d.calls call with
      | none =>
        rw [he] at known
        cases known
      | some x =>
        rw [he] at known
        cases known
        exact .inl ⟨d, List.mem_of_getElem? hd, .inl ⟨found, mem_of_entryAt? he, rfl⟩⟩

/-! ## Batches -/

theorem callEntries (h : Twins κ b c) (destination call : Nat) :
    b.callEntries destination call = c.callEntries destination call := by
  unfold Bench.callEntries
  rw [h.destination]
  cases c.destinations[destination]? with
  | none => rfl
  | some d =>
    show (((κ.destination d).calls[call]?).map Prod.snd).getD [] = _
    rw [show (κ.destination d).calls = d.calls.map fun k => (κ.handle k.1, k.2) from rfl,
      List.getElem?_map, Option.map_map]
    rfl

theorem issued_of_listed (h : Twins κ b c) {d : Destination} (hd : c.destinations[i]? = some d)
    {handle : Handle}
    (holds : (∃ k ∈ d.calls, k.1 = handle) ∨ (∃ j ∈ d.jobs, j.handle = handle)) :
    c.Issued handle :=
  h.held handle (.inl ⟨d, List.mem_of_getElem? hd, holds⟩)

theorem alterDestination (h : Twins κ b c) {d e : Destination} (hd : c.destinations[i]? = some d)
    (handles : ∀ handle, (∃ k ∈ e.calls, k.1 = handle) ∨ (∃ j ∈ e.jobs, j.handle = handle) →
      (∃ k ∈ d.calls, k.1 = handle) ∨ (∃ j ∈ d.jobs, j.handle = handle)) :
    Twins κ (b.setDestination i (κ.destination e)) (c.setDestination i e) :=
  h.setDestination i fun handle holds => h.issued_of_listed hd (handles handle holds)

theorem emptyCall (h : Twins κ b c) {d : Destination} (hd : c.destinations[i]? = some d)
    (call : Nat) :
    Twins κ
      (b.setDestination i
        { κ.destination d with
          calls := (κ.destination d).calls.modify call fun k => (k.1, []) })
      (c.setDestination i { d with calls := d.calls.modify call fun k => (k.1, []) }) := by
  have emptied : κ.destination { d with calls := d.calls.modify call fun k => (k.1, []) } =
      { κ.destination d with
        calls := (κ.destination d).calls.modify call fun k => (k.1, []) } := by
    simp only [Kinship.destination, Destination.mk.injEq, true_and, and_true]
    refine List.ext_getElem? fun n => ?_
    simp only [List.getElem?_map, List.getElem?_modify]
    cases d.calls[n]? with
    | none => rfl
    | some k => by_cases own : call = n <;> simp [own]
  rw [← emptied]
  refine h.alterDestination hd fun handle holds => holds.imp_left ?_
  rintro ⟨k, hm, rfl⟩
  obtain ⟨n, hk⟩ := List.mem_iff_getElem?.1 hm
  rw [List.getElem?_modify] at hk
  cases hn : d.calls[n]? with
  | none =>
    rw [hn] at hk
    cases hk
  | some k' =>
    refine ⟨k', List.mem_of_getElem? hn, ?_⟩
    rw [hn] at hk
    by_cases own : call = n <;> simp [own] at hk <;> rw [← hk]

theorem emptyBatch (h : Twins κ b c) {loop : LoopName} {batch : Nat}
    (reports : κ.Reports (.batch i loop batch)) :
    Twins κ (b.change (κ.place i) (·.emptyBatch (batch + (κ.writer i).shift))).2
      (c.change i (·.emptyBatch batch)).2 :=
  (h.change (reports i loop batch rfl) (fun _ _ _ _ twins => .emptyBatch twins batch)
    fun w' => (w'.regular_emptyBatch batch).later).bench

theorem clearEntries (h : Twins κ b c) {handle : Handle} (reports : κ.Reports handle)
    (destination call : Nat) :
    Twins κ (b.clearEntries destination call (κ.handle handle))
      (c.clearEntries destination call handle) := by
  unfold Bench.clearEntries
  rw [h.destination]
  cases hd : c.destinations[destination]? with
  | none =>
    cases handle with
    | recorder label => exact h
    | batch i loop batch => exact h.emptyBatch reports
  | some d =>
    have emptied := h.emptyCall hd call
    cases handle with
    | recorder label => exact emptied
    | batch i loop batch => exact emptied.emptyBatch reports

theorem respond (h : Twins κ b c) {handle : Handle} (reports : κ.Reports handle)
    (destination call : Nat) (responses : List Response) :
    (Bench.respond destination call (κ.handle handle) responses b).1 =
        (Bench.respond destination call handle responses c).1 ∧
      Twins κ (Bench.respond destination call (κ.handle handle) responses b).2
        (Bench.respond destination call handle responses c).2 := by
  induction responses generalizing b c with
  | nil => exact ⟨rfl, h⟩
  | cons response rest ih =>
    cases response with
    | complete places =>
      unfold Bench.respond
      rw [h.callEntries]
      cases entriesAt (c.callEntries destination call) places with
      | error fault => exact ⟨rfl, h⟩
      | ok failed => exact ih (h.tellHandle reports.past _)
    | fail fault => exact ih (h.tellHandle reports.past _)
    | raise fault => exact ⟨rfl, h⟩
    | clear => exact ih (h.clearEntries reports _ _)

theorem start (h : Twins κ b c) (name : LoopName) (label : Option String) {p q : Program}
    (watchers : List Watcher) (alike : κ.Alike p q) (welcome : κ.Welcome name q)
    (held : ∀ job point, q = .send job point → c.Issued job.handle) :
    Twins κ (b.start name label p watchers) (c.start name label q watchers) := by
  have added : Twins κ
      { b with calls := b.calls ++ [{ label, loop := name, program := p, watchers }] }
      { c with calls := c.calls ++ [{ label, loop := name, program := q, watchers }] } := by
    refine { h with calls := List.rel_append h.calls (.cons ?_ .nil), held := ?_ }
    · exact ⟨rfl, rfl, rfl, rfl, (fun _ => alike), fun _ => welcome⟩
    · rintro handle (destinations | ⟨k, hm, job, point, sends, rfl⟩)
      · exact h.held handle (.inl destinations)
      · rcases List.mem_append.1 hm with hm | hm
        · exact h.held _ (.inr ⟨k, hm, job, point, sends, rfl⟩)
        · rw [List.mem_singleton.1 hm] at sends
          exact held job point sends
  unfold Bench.start
  rw [h.length_calls]
  exact added.post rfl (.resume c.calls.length) fun _ _ _ _ report => by cases report

theorem reach (h : Twins κ b c) (i : Nat) {d : Destination} (entries : List Value)
    (held : ∀ handle, (∃ k ∈ d.calls, k.1 = handle) ∨ (∃ j ∈ d.jobs, j.handle = handle) →
      c.Issued handle) :
    Twins κ (b.reach i (κ.destination d) entries) (c.reach i d entries) :=
  (h.setDestination i (d := { d with reached := d.reached + 1 }) held).tell (.inl rfl)

theorem reach_call (h : Twins κ b c) {d : Destination} (hd : c.destinations[i]? = some d)
    {handle : Handle} (issued : c.Issued handle) (entries : List Value) :
    Twins κ
      (b.reach i
        { κ.destination d with
          calls := (κ.destination d).calls ++ [(κ.handle handle, entries)] } entries)
      (c.reach i { d with calls := d.calls ++ [(handle, entries)] } entries) := by
  have taken : κ.destination { d with calls := d.calls ++ [(handle, entries)] } =
      { κ.destination d with
        calls := (κ.destination d).calls ++ [(κ.handle handle, entries)] } := by
    simp [Kinship.destination]
  rw [← taken]
  refine h.reach i entries fun other holds => ?_
  rcases holds with ⟨k, hm, rfl⟩ | holds
  · rcases List.mem_append.1 hm with hm | hm
    · exact h.issued_of_listed hd (.inl ⟨k, hm, rfl⟩)
    · rw [List.mem_singleton.1 hm]
      exact issued
  · exact h.issued_of_listed hd (.inr holds)

theorem addJob (h : Twins κ b c) {d : Destination} (hd : c.destinations[i]? = some d)
    {handle : Handle} (issued : c.Issued handle) (entries : List Value) :
    Twins κ
      (b.setDestination i
        { κ.destination d with
          jobs := (κ.destination d).jobs ++ [{ handle := κ.handle handle, entries }] })
      (c.setDestination i { d with jobs := d.jobs ++ [{ handle, entries }] }) := by
  have queued : κ.destination { d with jobs := d.jobs ++ [{ handle, entries }] } =
      { κ.destination d with
        jobs := (κ.destination d).jobs ++ [{ handle := κ.handle handle, entries }] } := by
    simp [Kinship.destination, Kinship.job]
  rw [← queued]
  refine h.setDestination i fun other holds => ?_
  rcases holds with holds | ⟨j, hm, rfl⟩
  · exact h.issued_of_listed hd (.inl holds)
  · rcases List.mem_append.1 hm with hm | hm
    · exact h.issued_of_listed hd (.inr ⟨j, hm, rfl⟩)
    · rw [List.mem_singleton.1 hm]
      exact issued

/-- A destination is handed a batch under a handle of a writer that is worked with. -/
theorem submit (h : Twins κ b c) {handle : Handle} (reports : κ.Reports handle)
    (issued : c.Issued handle) (destination : Nat) (loop : Option LoopName) (entries : List Value) :
    (b.submit destination loop entries (κ.handle handle)).1 =
        (c.submit destination loop entries handle).1 ∧
      Twins κ (b.submit destination loop entries (κ.handle handle)).2
        (c.submit destination loop entries handle).2 := by
  unfold Bench.submit
  rw [h.destination]
  cases hd : c.destinations[destination]? with
  | none => exact ⟨rfl, h⟩
  | some d =>
    dsimp only [Option.map_some]
    rw [show (κ.destination d).adapter = d.adapter from rfl]
    cases way : d.adapter with
    | manual =>
      dsimp only
      rw [← way]
      exact (h.reach_call hd issued entries).respond reports destination d.reached _
    | sender =>
      cases loop with
      | none => exact ⟨rfl, h⟩
      | some name =>
        have noted := h.setDestination destination
          (d := { d with pending := d.pending ++ [c.calls.length] }) fun other holds =>
            h.issued_of_listed hd holds
        refine ⟨rfl, ?_⟩
        dsimp only
        rw [h.length_calls, ← way]
        refine noted.start name none _ (.same (.send { destination, entries, handle } .start)
          fun _ => trivial) (fun i works => by cases works) fun job point sends => ?_
        cases sends
        exact issued
    | executor owned =>
      dsimp only
      rw [show (κ.destination d).shutDown = d.shutDown from rfl]
      split
      · exact ⟨rfl, h⟩
      · rw [← way]
        exact ⟨rfl, h.addJob hd issued entries⟩

theorem dispatch (h : Twins κ b c) (live : κ.Live i) {loop : LoopName}
    (own : b.Owned (κ.place i) loop) :
    ResultTwins κ (b.dispatch (κ.place i) loop) (c.dispatch i loop) := by
  unfold Bench.dispatch
  rcases h.writer live with ⟨none, none'⟩ | ⟨w, w', hw, hw', twins⟩
  · rw [none, none']
    exact .of_bench h Option.none
  · have bound : w.loop = some loop := by
      obtain ⟨u, hu, bound⟩ := own
      rwa [Option.some.inj (hw.symm.trans hu)]
    have opened := h.change (f := fun w => (w.startDispatch loop b.now).1)
      (g := fun w => (w.startDispatch loop c.now).1) live (fun u u' hu _ same => by
        rw [Option.some.inj (hu.symm.trans hw)] at same ⊢
        rw [h.now]
        exact (Writer.twins_startDispatch same c.now (.inr bound)).1)
      fun w' => (w'.regular_startDispatch loop c.now).later
    have handed := (Writer.twins_startDispatch twins c.now (.inr bound)).2
    have issued := writer_change hw' fun w => (w.startDispatch loop c.now).1
    simp only [hw, hw']
    rw [h.now] at opened ⊢
    rw [handed]
    cases parcel : (w'.startDispatch loop c.now).2 with
    | none => exact opened
    | some parcel' =>
      dsimp only [Option.map_some]
      have reports : κ.Reports (.batch i loop parcel'.batch) := fun j name batch same => by
        cases same
        exact live
      obtain ⟨refusal, submitted⟩ := opened.bench.submit reports
        ⟨_, issued, Writer.issued_startDispatch parcel⟩ w'.destination (some loop) parcel'.entries
      rw [twins.destination]
      simp only [Writer.Parcel.shifted]
      rw [show Handle.batch (κ.place i) loop (parcel'.batch + (κ.writer i).shift) =
        κ.handle (.batch i loop parcel'.batch) from rfl, refusal]
      exact submitted.change live
        (fun u u' _ _ same => .concludeDispatch same c.now parcel' _)
        fun w' => (w'.regular_concludeDispatch c.now parcel' _).later

theorem timedFlush (h : Twins κ b c) (live : κ.Live i) {loop : LoopName}
    (own : b.Owned (κ.place i) loop) :
    ResultTwins κ (b.timedFlush (κ.place i) loop) (c.timedFlush i loop) := by
  have begun := h.change (f := (·.beginTimedFlush b.now)) (g := (·.beginTimedFlush c.now)) live
    (fun w w' _ _ same => by
      rw [h.now]
      exact .beginTimedFlush same c.now)
    fun w' => (w'.regular_beginTimedFlush c.now).later
  have dispatched := begun.bench.dispatch live
    (owned_change own fun w => (w.regular_beginTimedFlush b.now).later)
  unfold Bench.timedFlush
  dsimp only
  rcases dispatched.cases with ⟨none, none'⟩ | ⟨f, f', fails, fails', same⟩
  · rw [none, none']
    exact dispatched.bench.change live (fun w w' _ _ same => .endTimedFlush same)
      fun w' => w'.regular_endTimedFlush.later
  · have kind : f.isDestination = f'.isDestination := by
      rcases same with rfl | ⟨i, rfl⟩
      · rfl
      · exact Fault.isDestination_shifted _ _
    rw [fails, fails']
    dsimp only
    rw [kind]
    split
    · exact .of_bench dispatched.bench Option.none
    · exact dispatched

theorem deferredFlush (h : Twins κ b c) (live : κ.Live i) {loop : LoopName}
    (own : b.Owned (κ.place i) loop) :
    ResultTwins κ (b.deferredFlush (κ.place i) loop) (c.deferredFlush i loop) := by
  unfold Bench.deferredFlush
  rcases h.writer live with ⟨none, none'⟩ | ⟨w, w', hw, hw', twins⟩
  · rw [none, none']
    exact .of_bench h Option.none
  · simp only [hw, hw']
    rw [twins.flushIsDue]
    split
    · have begun := h.change live (fun w w' _ _ same => .beginDeferredFlush same)
        fun w' => w'.regular_beginDeferredFlush.later
      exact begun.bench.timedFlush live
        (owned_change own fun w => w.regular_beginDeferredFlush.later)
    · exact .of_bench h Option.none

/-- A writer that has no such batch dismisses a report with a notice. -/
theorem receive_unknown {b : Bench} {w : Writer} {batch : Nat} (hw : b.writers[i]? = some w)
    (unknown : w.inFlight.find? batch = none) (κ : Kinship) (loop : LoopName) (report : Report) :
    ∃ n, κ.Heeds (.noticed n) = false ∧ b.receive loop i batch report = (none, b.log n) := by
  cases report with
  | failed fault =>
    refine ⟨.failureUnknown w.id batch fault, by simp [Kinship.Heeds], ?_⟩
    have dismissed : w.reportFailed b.now batch fault =
        w.announce (.failureUnknown w.id batch fault) := by
      rw [Writer.reportFailed, unknown]
    have same : b.writers.set i w = b.writers := by
      obtain ⟨known, rfl⟩ := List.getElem?_eq_some_iff.1 hw
      exact List.set_getElem_self known
    simp only [Bench.receive, Bench.change, hw, dismissed, Writer.announce, same]
    rfl
  | completed failed =>
    have ignored : ∃ n, κ.Heeds (.noticed n) = false ∧ w.completionIgnored? batch = some n := by
      unfold Writer.completionIgnored?
      split
      · exact ⟨_, by simp [Kinship.Heeds], rfl⟩
      · rw [if_pos (by rw [unknown]; rfl)]
        exact ⟨_, by simp [Kinship.Heeds], rfl⟩
    obtain ⟨n, hidden, ignored⟩ := ignored
    refine ⟨n, hidden, ?_⟩
    simp only [Bench.receive, hw, ignored]

/-- Reports for the retired writer come to nothing on either side. -/
theorem receive_past (h : Twins κ b c) (lawful : ∀ (j : Nat) (w : Writer),
    c.writers[j]? = some w → w.Lawful) (gone : κ.retired = some i) {batch : Nat}
    (past : batch ≤ (κ.writer κ.heir).shift) (loop : LoopName) (report : Report) :
    ResultTwins κ (b.receive loop (κ.place i) (batch + (κ.writer i).shift) report)
      (c.receive loop i batch report) := by
  obtain ⟨place, unshifted, -⟩ := κ.inherits i gone
  obtain ⟨u', hu', none', -⟩ := h.retired i gone
  have unknown' : u'.inFlight.find? batch = none := by rw [InFlight.find?, none']; rfl
  obtain ⟨n', hidden', dismissed'⟩ := receive_unknown hu' unknown' κ loop report
  rw [dismissed', unshifted, Nat.add_zero, ← place]
  have quiet := h.tell_second hidden'
  rcases h.writer κ.succeeds with ⟨none, -⟩ | ⟨w, w', hw, hw', twins⟩
  · have nothing : b.receive loop (κ.place κ.heir) batch report = (Option.none, b) := by
      cases report with
      | failed fault => exact change_of_none none _
      | completed failed => simp only [Bench.receive, none]
    rw [nothing]
    exact .of_bench quiet Option.none
  · obtain ⟨n, hidden, dismissed⟩ := receive_unknown hw
      (twins.find?_past (lawful κ.heir w' hw') past) κ loop report
    rw [dismissed]
    exact .of_bench (quiet.tell_first hidden) Option.none

theorem receive (h : Twins κ b c) (live : κ.Live i) {loop : LoopName}
    (own : b.Owned (κ.place i) loop) (batch : Nat) (report : Report) :
    ResultTwins κ (b.receive loop (κ.place i) (batch + (κ.writer i).shift) report)
      (c.receive loop i batch report) := by
  cases report with
  | failed fault =>
    exact h.change live (fun w w' _ _ same => by
      rw [h.now]
      exact .reportFailed same c.now batch fault)
      fun w' => (w'.regular_reportFailed c.now batch fault).later
  | completed failed =>
    unfold Bench.receive
    rcases h.writer live with ⟨none, none'⟩ | ⟨w, w', hw, hw', twins⟩
    · simp only [none, none']
      exact .of_bench h Option.none
    · simp only [hw, hw', twins.completionIgnored?]
      cases w'.completionIgnored? batch with
      | some notice =>
        exact .of_bench (h.tell (y := .noticed notice) (.inr ⟨i, rfl⟩)) Option.none
      | none =>
        dsimp only [Option.map_none]
        have completed :=
          h.change live (f := (·.complete b.now (batch + (κ.writer i).shift) failed))
          (g := (·.complete c.now batch failed)) (fun w w' _ _ same => by
            rw [h.now]
            exact .complete same c.now batch failed)
          fun w' => (w'.regular_complete c.now batch failed).later
        have still : (b.change (κ.place i)
            (·.complete b.now (batch + (κ.writer i).shift) failed)).2.Owned (κ.place i) loop :=
          owned_change own fun w => (w.regular_complete b.now _ failed).later
        refine (completed.thenDo fun after => after.deferredFlush live still).thenDo fun after => ?_
        exact after.change live (fun w w' _ _ same => .endCompletion same)
          fun w' => w'.regular_endCompletion.later

theorem bufferAlarm (h : Twins κ b c) (live : κ.Live i) (bound : ∃ loop, c.Owned i loop) :
    ResultTwins κ (b.bufferAlarm (κ.place i)) (c.bufferAlarm i) := by
  obtain ⟨loop, v, hv, bound'⟩ := bound
  unfold Bench.bufferAlarm
  rcases h.writer live with ⟨-, none'⟩ | ⟨w, w', hw, hw', twins⟩
  · rw [hv] at none'
    cases none'
  · rw [Option.some.inj (hv.symm.trans hw')] at bound'
    have bound : w.loop = some loop := by
      refine (twins.loop.resolve_right fun free => ?_).trans bound'
      rw [bound'] at free
      cases free.1
    have rung := h.change (f := (·.bufferTimeOver.1)) (g := (·.bufferTimeOver.1)) live
      (fun w w' _ _ same => (Writer.ChangeTwins.bufferTimeOver same).1)
      fun w' => w'.regular_bufferTimeOver.later
    simp only [hw, hw', (Writer.ChangeTwins.bufferTimeOver twins).2, bound, bound']
    split
    · exact rung.bench.timedFlush live
        (owned_change ⟨w, hw, bound⟩ fun w => w.regular_bufferTimeOver.later)
    · exact rung

/-! ## Subscribers -/

section Attending

variable (h : Twins κ b c)
include h

theorem subscriberFault (d : Delivery) (fault : Fault) :
    Twins κ (b.subscriberFault d fault).1 (c.subscriberFault d fault).1 ∧
      (b.subscriberFault d fault).2 = (c.subscriberFault d fault).2 := by
  unfold Bench.subscriberFault
  split
  · exact ⟨h.log _, rfl⟩
  · exact ⟨h, rfl⟩

theorem close (live : κ.Live i) :
    ResultTwins κ (b.change (κ.place i) (·.close b.now)) (c.change i (·.close c.now)) :=
  h.change live (fun w w' _ _ same => by
    rw [h.now]
    exact .close same c.now) fun w' => (w'.regular_close c.now).later

variable (loud : κ.silent = false)
include loud

theorem react (d : Delivery) (reaction : Reaction) :
    Twins κ (b.react d reaction).1 (c.react d reaction).1 ∧
      (b.react d reaction).2 = (c.react d reaction).2 := by
  unfold Bench.react
  cases reaction with
  | collect | yield times => exact ⟨h, rfl⟩
  | raise fault => exact h.subscriberFault d fault
  | sleep milliseconds =>
    dsimp only
    split
    · exact h.subscriberFault d _
    · exact ⟨h, rfl⟩
    · exact ⟨h, rfl⟩
  | unsubscribe bus name => exact ⟨h.unsubscribe loud bus name, rfl⟩
  | subscribe bus name => exact ⟨h.subscribe loud bus name, rfl⟩
  | close name =>
    dsimp only
    rw [h.names]
    cases known : c.names.get? name with
    | none => exact h.subscriberFault d _
    | some i => exact ⟨(h.close (h.living name i known)).bench, rfl⟩
  | complete destination call =>
    dsimp only
    rw [h.handleOf]
    cases known : c.handleOf destination call with
    | error fault => exact h.subscriberFault d fault
    | ok found =>
      exact ⟨h.tellHandle (h.past_of_holds (holds_of_handleOf known)) (.completed []), rfl⟩

theorem attend (d : Delivery) :
    Twins κ (b.attend d).1 (c.attend d).1 ∧ (b.attend d).2 = (c.attend d).2 := by
  unfold Bench.attend
  split
  · exact ⟨h, rfl⟩
  · next name _ _ =>
    split
    · exact ⟨h, rfl⟩
    · exact ⟨h, rfl⟩
    · exact ⟨h, rfl⟩
    · split
      · exact h.subscriberFault d _
      · next row _ =>
        have known : b.subscriber? name = c.subscriber? name := by
          rw [Bench.subscriber?, h.subscribers, Bench.subscriber?]
        dsimp only
        rw [known]
        exact (h.tell (y := .delivered name row) (.inl rfl)).react loud d _

end Attending

/-! ## Cancellations -/

theorem interruptOne (h : Twins κ b c) (id : Nat) :
    (b.interruptOne id).1 = (c.interruptOne id).1 ∧
      Twins κ (b.interruptOne id).2 (c.interruptOne id).2 := by
  unfold Bench.interruptOne
  rcases h.call id with ⟨none, none'⟩ | ⟨k, k', hk, hk', same⟩
  · rw [none, none']
    exact ⟨rfl, h⟩
  · simp only [hk, hk', same.status]
    split
    · exact ⟨rfl, h⟩
    · exact ⟨rfl, h⟩
    · next waits => exact ⟨rfl, h.setStatus hk' same (by rw [Call.isEnded, waits]) _⟩
    · next waits =>
      have silenced := h.cancelAlarm (x := .wake id) fun _ _ own => by cases own
      exact ⟨rfl, silenced.queue hk' same (by rw [Call.isEnded, waits]) true⟩
    · next waits => exact ⟨rfl, h.queue hk' same (by rw [Call.isEnded, waits]) true⟩
    · next waits => exact ⟨rfl, h.queue hk' same (by rw [Call.isEnded, waits]) true⟩
    · next waits => exact ⟨rfl, h.setStatus hk' same (by rw [Call.isEnded, waits]) _⟩

theorem interruptAll (h : Twins κ b c) (ids : List Nat) :
    Twins κ (b.interruptAll ids) (c.interruptAll ids) := by
  unfold Bench.interruptAll
  induction ids generalizing b c with
  | nil => exact h
  | cons id rest ih => exact ih (h.interruptOne id).2

theorem interrupt (h : Twins κ b c) (id : Nat) :
    (b.interrupt id).1 = (c.interrupt id).1 ∧ Twins κ (b.interrupt id).2 (c.interrupt id).2 := by
  unfold Bench.interrupt
  rcases h.call id with ⟨none, none'⟩ | ⟨k, k', hk, hk', same⟩
  · simp only [none, none']
    exact h.interruptOne id
  · obtain ⟨label, loop, program, status, watchers⟩ := k
    obtain ⟨label', loop', program', status', watchers'⟩ := k'
    have waits : status = status' := same.status
    subst waits
    simp only [hk, hk']
    cases status with
    | waiting on =>
      cases on with
      | calls left _ => exact (h.interruptAll left).interruptOne id
      | _ => exact h.interruptOne id
    | _ => exact h.interruptOne id

end Twins
end Bench
end BatchWriter
