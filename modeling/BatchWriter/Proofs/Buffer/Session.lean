import BatchWriter.Buffer.Session
import BatchWriter.Proofs.Buffer
import Mathlib.Data.List.Infix
import Mathlib.Data.Nat.Notation

/-!
# Buffers among lists

Lists can be changed, so it matters who holds which. Here every list has a place: the buffer keeps
its entries in one, callers hold others, and a list that the buffer answers is a new one. Beside
this stands a reference in which nothing is shared: one list of all the entries that there have
been, in the order in which they leave, with a cut between those that have left and those that
wait. The buffer answers as the reference does, whatever callers do to the lists that they hold.
-/

set_option autoImplicit false

namespace BatchWriter.Buffer

/-! ## The reference list -/

/-- All the entries that there have been, in the order in which they leave, and how many have
left. -/
structure Tape where
  entries : List Value
  gone : ℕ := 0
  within : gone ≤ entries.length := by exact Nat.zero_le _

namespace Tape

def taken (t : Tape) : List Value := t.entries.take t.gone

def waiting (t : Tape) : List Value := t.entries.drop t.gone

theorem taken_append_waiting (t : Tape) : t.taken ++ t.waiting = t.entries :=
  List.take_append_drop _ _

theorem length_taken (t : Tape) : t.taken.length = t.gone :=
  List.length_take_of_le t.within

/-- How many entries a limit asks for, of so many that wait: a whole number for that many, none
below zero, and a double for all, provided that it is above. -/
def wanted (waiting : ℕ) : Value → Except Fault ℕ
  | .number (.int n) => .ok n.toNat
  | .number (.bool t) => .ok t.toNat
  | .number (.float x) =>
    if (Number.ofNat waiting).lt (.float x) then .ok waiting else .error (.notCount "float")
  | v => .error (.unordered "<" "int" v.typeName)

def answer (t : Tape) : BufferAct → Except Fault Value
  | .append _ => .ok .null
  | .prepend entries => entries.asMembers.map fun xs => .nat xs.length
  | .take limit => (wanted t.waiting.length limit).map fun n => .list (t.waiting.take n)
  | .snapshot => .ok (.list t.waiting)

/-- New entries go to the end, those put back to the cut, and taking moves the cut. What is refused
changes nothing. -/
def act (t : Tape) : BufferAct → Tape
  | .append entry =>
    { entries := t.entries ++ [entry]
      gone := t.gone
      within := t.within.trans (by simp) }
  | .prepend entries =>
    { entries := t.taken ++ (entries.members?.getD [] ++ t.waiting)
      gone := t.gone
      within := by simp [length_taken] }
  | .take limit =>
    { entries := t.entries
      gone := min (t.gone + (wanted t.waiting.length limit).toOption.getD 0) t.entries.length
      within := Nat.min_le_right _ _ }
  | .snapshot => t

end Tape

def takenBy : BufferAct → Except Fault Value → List Value
  | .take _, .ok (.list xs) => xs
  | _, _ => []

/-! ## Lists and their places -/

/-- What callers do. They know the lists that they hold by number, in the order in which they
came to them. -/
inductive CallerAct where
  | make (content : List Value)
  /-- Changes what the `k`th list contains. -/
  | change (k : ℕ) (content : List Value)
  /-- Puts the entries of the `k`th list back into the buffer. -/
  | giveBack (k : ℕ)
  | ask (a : BufferAct)

def listed : Except Fault Value → Option (List Value)
  | .ok (.list xs) => some xs
  | _ => none

structure Scene where
  capacity : Number
  lists : List (List Value)
  /-- The place of the buffer's own list. -/
  own : ℕ
  /-- The places of the lists that callers hold. -/
  held : List ℕ

namespace Scene

variable (w : Scene)

def content (place : ℕ) : List Value := w.lists.getD place []

def buffer : Buffer Value := ⟨w.capacity, w.content w.own⟩

def contents : List (List Value) := w.held.map w.content

def write (place : ℕ) (content : List Value) : Scene :=
  { w with lists := w.lists.set place content }

def receive (content : List Value) : Scene :=
  { w with lists := w.lists ++ [content], held := w.held ++ [w.lists.length] }

/-- The buffer changes its own list in place, and a list that it answers is a new one. -/
def ask (a : BufferAct) : Except Fault Value × Scene :=
  let done := w.buffer.act a
  let after := w.write w.own done.2.entries
  (done.1, (listed done.1).elim after after.receive)

def act : CallerAct → Except Fault Value × Scene
  | .make content => (.ok .null, w.receive content)
  | .change k content => (.ok .null, (w.held[k]?).elim w fun place => w.write place content)
  | .giveBack k =>
    (w.held[k]?).elim (.ok .null, w) fun place => w.ask (.prepend (.list (w.content place)))
  | .ask a => w.ask a

def after (steps : List CallerAct) (w : Scene) : Scene := steps.foldl (fun w d => (w.act d).2) w

def session : List CallerAct → Scene → List (Except Fault Value × Scene)
  | [], _ => []
  | d :: rest, w => w.act d :: session rest (w.act d).2

/-- A new buffer. The lists that callers hold are theirs alone, even if it was made from one. -/
def opening (given : List (List Value)) (b : Buffer Value) : Scene where
  capacity := b.capacity
  lists := given ++ [b.entries]
  own := given.length
  held := List.range given.length

end Scene

def CallerAct.takes : CallerAct → Except Fault Value → List Value
  | .ask a, answer => takenBy a answer
  | _, _ => []

def takenIn (steps : List CallerAct) (answers : List (Except Fault Value)) : List Value :=
  (steps.zip answers).flatMap fun x => x.1.takes x.2

/-! ## The same with nothing shared -/

/-- A reference list, and what the callers' lists contain. -/
structure Ideal where
  capacity : Number
  tape : Tape
  lists : List (List Value)

namespace Ideal

variable (i : Ideal)

def buffer : Buffer Value := ⟨i.capacity, i.tape.waiting⟩

def ask (a : BufferAct) : Except Fault Value × Ideal :=
  let answer := i.tape.answer a
  (answer, { i with tape := i.tape.act a, lists := i.lists ++ (listed answer).toList })

def act : CallerAct → Except Fault Value × Ideal
  | .make content => (.ok .null, { i with lists := i.lists ++ [content] })
  | .change k content => (.ok .null, { i with lists := i.lists.set k content })
  | .giveBack k => (i.lists[k]?).elim (.ok .null, i) fun xs => i.ask (.prepend (.list xs))
  | .ask a => i.ask a

def after (steps : List CallerAct) (i : Ideal) : Ideal := steps.foldl (fun i d => (i.act d).2) i

def session : List CallerAct → Ideal → List (Except Fault Value × Ideal)
  | [], _ => []
  | d :: rest, i => i.act d :: session rest (i.act d).2

def opening (given : List (List Value)) (capacity : Number) (initial : Value) : Ideal where
  capacity := capacity
  tape := { entries := if initial.isPresent then initial.members?.getD [] else [] }
  lists := given

end Ideal

def Scene.shown (done : Except Fault Value × Scene) :
    Except Fault Value × Buffer Value × List (List Value) :=
  (done.1, done.2.buffer, done.2.contents)

def Ideal.shown (done : Except Fault Value × Ideal) :
    Except Fault Value × Buffer Value × List (List Value) :=
  (done.1, done.2.buffer, done.2.lists)

/-- The laws of a buffer among the lists of its callers, after any acts. -/
structure Lawful (given : List (List Value)) (capacity : Number) (initial : Value)
    (b : Buffer Value) (steps : List CallerAct) : Prop where
  equations : (Scene.after steps (.opening given b)).buffer.Equations
  /-- All answers, and what the buffer and the callers' lists contain after each, are those of
  the reference. -/
  follows : (Scene.session steps (.opening given b)).map Scene.shown =
    (Ideal.session steps (.opening given capacity initial)).map Ideal.shown
  /-- What was taken, followed by a snapshot, is the reference list. -/
  conserves : ∃ rest, ((Scene.after steps (.opening given b)).ask .snapshot).1 = .ok (.list rest) ∧
    takenIn steps ((Scene.session steps (.opening given b)).map Prod.fst) ++ rest =
      (Ideal.after steps (.opening given capacity initial)).tape.entries
  /-- To change a list that callers hold, an answered one too, does not change the buffer, -/
  unmoved : ∀ k content, let w := Scene.after steps (.opening given b)
    (w.act (.change k content)).2.buffer = w.buffer
  /-- and nothing else changes a list that callers hold. -/
  kept : ∀ d, (∀ k content, d ≠ .change k content) → let w := Scene.after steps (.opening given b)
    w.contents <+: (w.act d).2.contents

/-! ## One act on the buffer and on the reference -/

namespace Tape

variable (t : Tape)

theorem waiting_append (entry : Value) :
    (t.act (.append entry)).waiting = t.waiting ++ [entry] :=
  List.drop_append_of_le_length t.within

theorem waiting_prepend (entries : Value) :
    (t.act (.prepend entries)).waiting = entries.members?.getD [] ++ t.waiting :=
  List.drop_left' t.length_taken

theorem waiting_take (limit : Value) : (t.act (.take limit)).waiting =
    t.waiting.drop ((wanted t.waiting.length limit).toOption.getD 0) := by
  refine Eq.trans ?_ List.drop_drop.symm
  exact List.drop_eq_drop_iff.2 (by rw [act, Nat.min_assoc, Nat.min_self])

theorem taken_act (a : BufferAct) : (t.act a).taken = t.taken ++ takenBy a (t.answer a) := by
  cases a with
  | append entry => exact (List.take_append_of_le_length t.within).trans (List.append_nil _).symm
  | prepend entries => exact (List.take_left' t.length_taken).trans (List.append_nil _).symm
  | take limit =>
    rw [taken, act, ← List.take_eq_take_min, List.take_add, ← taken, ← waiting, answer]
    cases wanted t.waiting.length limit <;> rfl
  | snapshot => exact (List.append_nil _).symm

end Tape

theorem takeValue_eq (b : Buffer Value) (limit : Value) :
    b.takeValue limit = (Tape.wanted b.size limit).map fun n =>
      (b.entries.take n, { b with entries := b.entries.drop n }) := by
  cases limit with
  | number limit =>
    cases limit with
    | int n => exact take_of_whole rfl b
    | bool t =>
      rw [takeValue, take_of_whole rfl]
      cases t <;> rfl
    | float x => exact take_eq b (.float x)
  | null | text _ | list _ | object _ => rfl

/-- An act on the buffer does what it does on the reference. -/
theorem act_eq {b : Buffer Value} {t : Tape} (same : b.entries = t.waiting) (a : BufferAct) :
    b.act a = (t.answer a, ⟨b.capacity, (t.act a).waiting⟩) := by
  cases a with
  | append entry =>
    rw [Tape.waiting_append, ← same]
    rfl
  | prepend entries =>
    rw [Tape.waiting_prepend, ← same, act, Tape.answer, Value.asMembers]
    cases entries.members? with
    | none => rfl
    | some xs => exact congrArg (Prod.mk _) (prepend_eq b xs)
  | take limit =>
    rw [Tape.waiting_take, Tape.answer, ← same, ← size, act, takeValue_eq]
    cases Tape.wanted b.size limit <;> rfl
  | snapshot =>
    rw [Tape.answer, Tape.act, ← same]
    rfl

/-! ## Nobody else holds the buffer's list -/

namespace Scene

variable {w : Scene} {place other k : ℕ} {xs : List Value}

structure Apart (w : Scene) : Prop where
  own : w.own < w.lists.length
  known : ∀ place ∈ w.held, place < w.lists.length
  apart : w.own ∉ w.held
  distinct : w.held.Nodup

theorem content_write_self (within : place < w.lists.length) :
    (w.write place xs).content place = xs := by
  simp [content, write, within]

theorem content_write_ne (differs : other ≠ place) :
    (w.write place xs).content other = w.content other := by
  simp [content, write, List.getElem?_set_ne differs.symm]

theorem content_receive (within : place < w.lists.length) :
    (w.receive xs).content place = w.content place := by
  simp [content, receive, List.getElem?_append_left within]

theorem content_receive_new : (w.receive xs).content w.lists.length = xs := by
  simp [content, receive]

namespace Apart

theorem write (h : w.Apart) (place : ℕ) (xs : List Value) : (w.write place xs).Apart where
  own := h.own.trans_eq List.length_set.symm
  known other held := (h.known other held).trans_eq List.length_set.symm
  apart := h.apart
  distinct := h.distinct

theorem receive (h : w.Apart) (xs : List Value) : (w.receive xs).Apart := by
  have longer : (w.receive xs).lists.length = w.lists.length + 1 := List.length_append
  refine ⟨by rw [longer]; exact Nat.lt_succ_of_lt h.own, fun place held => ?_, ?_, ?_⟩
  · rw [longer]
    rcases List.mem_append.1 held with held | new
    · exact Nat.lt_succ_of_lt (h.known place held)
    · rw [List.mem_singleton.1 new]
      exact Nat.lt_succ_self _
  · intro held
    rcases List.mem_append.1 held with held | new
    · exact h.apart held
    · exact h.own.ne (List.mem_singleton.1 new)
  · refine List.nodup_append.2 ⟨h.distinct, List.nodup_singleton _, ?_⟩
    rintro place held _ new rfl
    exact (h.known place held).ne (List.mem_singleton.1 new)

theorem buffer_write (h : w.Apart) (held : place ∈ w.held) : (w.write place xs).buffer = w.buffer :=
  congrArg (Buffer.mk w.capacity) (content_write_ne fun same => h.apart (same ▸ held))

theorem buffer_receive (h : w.Apart) : (w.receive xs).buffer = w.buffer :=
  congrArg (Buffer.mk w.capacity) (content_receive h.own)

theorem contents_write_own (h : w.Apart) : (w.write w.own xs).contents = w.contents :=
  List.map_congr_left fun _ held => content_write_ne fun same => h.apart (same ▸ held)

theorem contents_receive (h : w.Apart) : (w.receive xs).contents = w.contents ++ [xs] := by
  rw [contents, Scene.receive, List.map_append]
  exact congrArg₂ _ (List.map_congr_left fun place held => content_receive (h.known place held))
    (congrArg (fun c => [c]) content_receive_new)

theorem contents_write (h : w.Apart) (held : w.held[k]? = some place) :
    (w.write place xs).contents = w.contents.set k xs := by
  obtain ⟨within, -⟩ := List.getElem?_eq_some_iff.1 held
  refine List.ext_getElem? fun j => ?_
  rw [List.getElem?_set, contents, contents, List.getElem?_map, List.getElem?_map,
    List.length_map]
  by_cases same : k = j
  · subst same
    rw [if_pos rfl, if_pos within, Scene.write, held]
    exact congrArg some (content_write_self (h.known place (List.mem_of_getElem? held)))
  · -- Callers hold no place twice, so the `j`th list is in another one.
    rw [if_neg same]
    refine Option.map_congr fun other there => content_write_ne ?_
    rintro rfl
    exact same ((List.getElem?_inj within h.distinct).1 (held.trans there.symm))

end Apart
end Scene

/-! ## The scene beside its reference -/

structure Agrees (w : Scene) (i : Ideal) : Prop where
  apart : w.Apart
  buffer : w.buffer = i.buffer
  contents : w.contents = i.lists

namespace Agrees

variable {w : Scene} {i : Ideal}

theorem receive (h : Agrees w i) (xs : List Value) :
    Agrees (w.receive xs) { i with lists := i.lists ++ [xs] } where
  apart := h.apart.receive xs
  buffer := h.apart.buffer_receive.trans h.buffer
  contents := by rw [h.apart.contents_receive, h.contents]

theorem ask (h : Agrees w i) (a : BufferAct) :
    (w.ask a).1 = (i.ask a).1 ∧ Agrees (w.ask a).2 (i.ask a).2 := by
  have done := act_eq (congrArg entries h.buffer) a
  have written : Agrees (w.write w.own (i.tape.act a).waiting) { i with tape := i.tape.act a } :=
    ⟨h.apart.write _ _, congrArg₂ Buffer.mk (congrArg Buffer.capacity h.buffer)
      (Scene.content_write_self h.apart.own), h.apart.contents_write_own.trans h.contents⟩
  rw [Scene.ask, Ideal.ask, done]
  refine ⟨rfl, ?_⟩
  -- Only what is a list gets a place; any other answer is just told.
  cases listed (i.tape.answer a) with
  | none => simpa using written
  | some xs => exact written.receive xs

theorem act (h : Agrees w i) (d : CallerAct) :
    (w.act d).1 = (i.act d).1 ∧ Agrees (w.act d).2 (i.act d).2 := by
  have known (k : ℕ) : i.lists[k]? = (w.held[k]?).map w.content := by
    rw [← h.contents, Scene.contents, List.getElem?_map]
  cases d with
  | make content => exact ⟨rfl, h.receive content⟩
  | change k content =>
    refine ⟨rfl, ?_⟩
    have place := known k
    rw [Scene.act, Ideal.act]
    cases held : w.held[k]? with
    | none =>
      rw [held, Option.map_none, List.getElem?_eq_none_iff] at place
      rw [List.set_eq_of_length_le place]
      exact h
    | some place =>
      exact ⟨h.apart.write _ _, (h.apart.buffer_write (List.mem_of_getElem? held)).trans h.buffer,
        by rw [Option.elim, h.apart.contents_write held, h.contents]⟩
  | giveBack k =>
    rw [Scene.act, Ideal.act, known]
    cases w.held[k]? with
    | none => exact ⟨rfl, h⟩
    | some place => exact h.ask _
  | ask a => exact h.ask a

theorem after (h : Agrees w i) (steps : List CallerAct) :
    Agrees (Scene.after steps w) (Ideal.after steps i) := by
  induction steps generalizing w i with
  | nil => exact h
  | cons d steps ih => exact ih (h.act d).2

theorem session (h : Agrees w i) (steps : List CallerAct) :
    (Scene.session steps w).map Scene.shown = (Ideal.session steps i).map Ideal.shown := by
  induction steps generalizing w i with
  | nil => rfl
  | cons d steps ih =>
    obtain ⟨answers, agrees⟩ := h.act d
    rw [Scene.session, Ideal.session, List.map_cons, List.map_cons, ih agrees, Scene.shown,
      Ideal.shown, answers, agrees.buffer, agrees.contents]

end Agrees

/-! ## What was taken -/

theorem Ideal.taken_act (i : Ideal) (d : CallerAct) :
    (i.act d).2.tape.taken = i.tape.taken ++ d.takes (i.act d).1 := by
  cases d with
  | make content | change k content => exact (List.append_nil _).symm
  | giveBack k =>
    rw [act]
    cases i.lists[k]? with
    | none => exact (List.append_nil _).symm
    | some xs => exact i.tape.taken_act _
  | ask a => exact i.tape.taken_act a

theorem Ideal.taken_after (i : Ideal) (steps : List CallerAct) :
    (after steps i).tape.taken =
      i.tape.taken ++ takenIn steps ((session steps i).map Prod.fst) := by
  induction steps generalizing i with
  | nil => exact (List.append_nil _).symm
  | cons d steps ih =>
    refine (ih (i.act d).2).trans ?_
    rw [i.taken_act, List.append_assoc]
    rfl

/-! ## From the first act on -/

theorem eq_of_new {capacity : Number} {initial : Value} {b : Buffer Value}
    (new : ofValues (.number capacity) initial = .ok b) :
    b = ⟨capacity, if initial.isPresent then initial.members?.getD [] else []⟩ := by
  unfold ofValues ofEntries at new
  by_cases positive : capacity.le (.int 0) = true
  · simp [Value.asLimit, positive, bind, Except.bind] at new
  · simp only [Value.asLimit, positive, bind, Except.bind, Value.initialMembers, pure,
      Except.pure, Bool.false_eq_true, if_false] at new
    by_cases present : initial.isPresent = true
    · rw [if_pos present] at new ⊢
      cases members : initial.members? with
      | none => simp [Value.asMembers, members] at new
      | some xs =>
        simp only [Value.asMembers, members, Option.elim, Except.ok.injEq] at new
        exact new.symm
    · rw [if_neg present] at new ⊢
      exact (Except.ok.inj new).symm

theorem agrees_opening {capacity : Number} {initial : Value} {b : Buffer Value}
    (new : ofValues (.number capacity) initial = .ok b) (given : List (List Value)) :
    Agrees (.opening given b) (.opening given capacity initial) := by
  have own : (Scene.opening given b).buffer = b := by
    simp [Scene.buffer, Scene.content, Scene.opening]
  refine ⟨⟨?_, fun place held => ?_, ?_, List.nodup_range⟩, own.trans (eq_of_new new), ?_⟩
  · simp [Scene.opening]
  · have within := List.mem_range.1 held
    simp only [Scene.opening, List.length_append, List.length_singleton]
    omega
  · simp [Scene.opening]
  · refine List.ext_getElem (by simp [Scene.contents, Scene.opening, Ideal.opening])
      fun k _ within => ?_
    have within : k < given.length := within
    simp [Scene.contents, Scene.content, Scene.opening, Ideal.opening,
      List.getElem?_append_left within, List.getElem?_eq_getElem within]

theorem Ideal.lists_act (i : Ideal) (d : CallerAct) (other : ∀ k content, d ≠ .change k content) :
    i.lists <+: (i.act d).2.lists := by
  cases d with
  | make content => exact List.prefix_append _ _
  | change k content => exact absurd rfl (other k content)
  | giveBack k =>
    rw [act]
    cases i.lists[k]? with
    | none => exact List.prefix_refl _
    | some xs => exact List.prefix_append _ _
  | ask a => exact List.prefix_append _ _

/-- A buffer works as a list: what was taken can be put back, taking in parts is taking at once,
and whatever callers do with their lists, it answers as a list does that nobody shares. -/
theorem buffers_work_as_lists {capacity : Number} {initial : Value} {b : Buffer Value}
    (new : ofValues (.number capacity) initial = .ok b) (given : List (List Value))
    (steps : List CallerAct) : Lawful given capacity initial b steps := by
  have opening := agrees_opening new given
  have agrees := opening.after steps
  refine ⟨Buffer.equations _, opening.session steps, ?_, fun k content => ?_,
    fun d other => ?_⟩
  · refine ⟨_, rfl, ?_⟩
    have answers := congrArg (List.map Prod.fst) (opening.session steps)
    rw [List.map_map, List.map_map] at answers
    have taken := Ideal.taken_after (.opening given capacity initial) steps
    have waiting : _ = (Ideal.after steps _).tape.waiting := congrArg entries agrees.buffer
    rw [waiting, ← Tape.taken_append_waiting, taken]
    exact congrArg (takenIn steps · ++ _) answers
  · exact (agrees.act (.change k content)).2.buffer.trans agrees.buffer.symm
  · have grows := (Ideal.after steps (.opening given capacity initial)).lists_act d other
    rwa [← agrees.contents, ← (agrees.act d).2.contents] at grows

def exchange : List CallerAct :=
  [.ask (.take (.nat 2)), .change 1 [], .giveBack 0, .change 0 [], .ask .snapshot,
    .change 2 [.nat 0], .ask (.append (.nat 4)), .ask (.take (.number (.int (-1)))),
    .ask (.take .null), .ask (.take (.bool true))]

theorem buffers_work_as_lists_shared : ∃ b,
    ofValues (.number (.int 2)) (.list [.nat 1, .nat 2, .nat 3]) = .ok b ∧
      Lawful [[.nat 8, .nat 9]] (.int 2) (.list [.nat 1, .nat 2, .nat 3]) b exchange ∧
      takenIn exchange ((Scene.session exchange (.opening [[.nat 8, .nat 9]] b)).map Prod.fst) =
        [.nat 1, .nat 2, .nat 8] ∧
      (Scene.after exchange (.opening [[.nat 8, .nat 9]] b)).buffer =
        ⟨.int 2, [.nat 9, .nat 3, .nat 4]⟩ := by
  have new : ofValues (.number (.int 2)) (.list [.nat 1, .nat 2, .nat 3]) =
      .ok ⟨.int 2, [.nat 1, .nat 2, .nat 3]⟩ := by rfl
  exact ⟨_, new, buffers_work_as_lists new _ _, by rfl, by rfl⟩

end BatchWriter.Buffer
