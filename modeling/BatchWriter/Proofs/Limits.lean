import BatchWriter.Settings.Basic
import Mathlib.Algebra.Order.Field.Rat
import Mathlib.Algebra.Order.Ring.WithTop
import Mathlib.Order.Compare
import Mathlib.Tactic.Ring

/-!
# Which limits are accepted

A number stands for a point of the rational line with its two ends, or for none. A
configuration is refused for a limit that is found too low, so one that stands for no point is
found to be nothing and is accepted. Limits that all have a place on the line are accepted if and
only if they make sense, and accepted or refused they are as they were given.
-/

set_option autoImplicit false

namespace BatchWriter

abbrev Line : Type := WithBot (WithTop ℚ)

def Binary64.size? : Binary64 → Option Line
  | .nan => none
  | .infinity true => some ⊥
  | .infinity false => some ⊤
  | .finite negative significand exponent =>
    some (((if negative then -1 else 1) * significand * (2 : ℚ) ^ exponent : ℚ) : WithTop ℚ)

namespace Number

def size? : Number → Option Line
  | .int n => some (((n : ℚ) : WithTop ℚ) : Line)
  | .bool b => some (((if b then 1 else 0 : ℚ) : WithTop ℚ) : Line)
  | .float x => x.size?

def Below (a b : Number) : Prop := ∃ x y, a.size? = some x ∧ b.size? = some y ∧ x < y

def AtMost (a b : Number) : Prop := ∃ x y, a.size? = some x ∧ b.size? = some y ∧ x ≤ y

end Number

namespace Magnitude

def Proper : Magnitude → Prop
  | .ratio _ den => 0 < den
  | _ => True

def size? : Magnitude → Option Line
  | .unordered => none
  | .infinite true => some ⊥
  | .infinite false => some ⊤
  | .ratio num den => some (((num / den : ℚ) : WithTop ℚ) : Line)

theorem compare_ratio {n m : ℤ} {d e : ℕ} (hd : 0 < d) (he : 0 < e) :
    compare (n * (e : ℤ)) (m * (d : ℤ)) = compare (n / d : ℚ) (m / e : ℚ) := by
  have hd' : (0 : ℚ) < d := by exact_mod_cast hd
  have he' : (0 : ℚ) < e := by exact_mod_cast he
  have below : (n / d : ℚ) < m / e ↔ n * (e : ℤ) < m * d := by
    rw [div_lt_div_iff₀ hd' he']
    exact_mod_cast Iff.rfl
  have above : (m / e : ℚ) < n / d ↔ m * (d : ℤ) < n * e := by
    rw [div_lt_div_iff₀ he' hd']
    exact_mod_cast Iff.rfl
  rcases lt_trichotomy (n * (e : ℤ)) (m * d) with h | h | h
  · rw [compare_lt_iff_lt.2 h, compare_lt_iff_lt.2 (below.2 h)]
  · have same : (n / d : ℚ) = m / e := by
      refine le_antisymm (not_lt.1 fun gt => ?_) (not_lt.1 fun lt => ?_)
      · exact (above.1 gt).ne h.symm
      · exact (below.1 lt).ne h
    rw [compare_eq_iff_eq.2 h, compare_eq_iff_eq.2 same]
  · rw [compare_gt_iff_gt.2 h, compare_gt_iff_gt.2 (above.2 h)]

theorem compare_coe (x y : ℚ) :
    compare ((x : WithTop ℚ) : Line) ((y : WithTop ℚ) : Line) = compare x y := by
  rcases lt_trichotomy x y with h | h | h
  · rw [compare_lt_iff_lt.2 h, compare_lt_iff_lt.2 (by exact_mod_cast h)]
  · rw [compare_eq_iff_eq.2 h, compare_eq_iff_eq.2 (by exact_mod_cast h)]
  · rw [compare_gt_iff_gt.2 h, compare_gt_iff_gt.2 (by exact_mod_cast h)]

/-- Magnitudes compare as the points that they stand for; one that stands for none compares with
nothing. -/
theorem compare?_eq {a b : Magnitude} (ha : a.Proper) (hb : b.Proper) :
    a.compare? b = a.size?.bind fun x => b.size?.map (compare x) := by
  have ends : (⊥ : Line) < ⊤ := bot_lt_top
  have between : ∀ q : ℚ, (⊥ : Line) < ((q : WithTop ℚ) : Line) ∧
      ((q : WithTop ℚ) : Line) < ⊤ := fun q =>
    ⟨WithBot.bot_lt_coe _, WithBot.coe_lt_coe.2 (WithTop.coe_lt_top q)⟩
  cases a with
  | unordered => cases b <;> rfl
  | infinite s =>
    cases b with
    | unordered => cases s <;> rfl
    | infinite t =>
      cases s <;> cases t
      · exact congrArg some (compare_eq_iff_eq.2 rfl).symm
      · exact congrArg some (compare_gt_iff_gt.2 ends).symm
      · exact congrArg some (compare_lt_iff_lt.2 ends).symm
      · exact congrArg some (compare_eq_iff_eq.2 rfl).symm
    | ratio m e =>
      cases s
      · exact congrArg some (compare_gt_iff_gt.2 (between _).2).symm
      · exact congrArg some (compare_lt_iff_lt.2 (between _).1).symm
  | ratio n d =>
    cases b with
    | unordered => rfl
    | infinite t =>
      cases t
      · exact congrArg some (compare_lt_iff_lt.2 (between _).2).symm
      · exact congrArg some (compare_gt_iff_gt.2 (between _).1).symm
    | ratio m e => exact congrArg some ((compare_ratio ha hb).trans (compare_coe _ _).symm)

end Magnitude

namespace Binary64

theorem ratio_spec (significand : ℕ) (exponent : ℤ) :
    0 < (ratio significand exponent).2 ∧
      ((ratio significand exponent).1 / (ratio significand exponent).2 : ℚ) =
        significand * 2 ^ exponent := by
  unfold ratio
  split
  · next nonneg =>
    refine ⟨Nat.one_pos, ?_⟩
    obtain ⟨k, rfl⟩ := Int.eq_ofNat_of_zero_le nonneg
    simp
  · next negative =>
    refine ⟨Nat.pow_pos Nat.two_pos, ?_⟩
    obtain ⟨k, rfl⟩ : ∃ k : ℕ, exponent = -k := ⟨(-exponent).toNat, by omega⟩
    simp [div_eq_mul_inv]

theorem magnitude_spec (x : Binary64) : x.magnitude.Proper ∧ x.magnitude.size? = x.size? := by
  cases x with
  | nan => exact ⟨trivial, rfl⟩
  | infinity s => cases s <;> exact ⟨trivial, rfl⟩
  | finite s m e =>
    obtain ⟨proper, same⟩ := ratio_spec m e
    refine ⟨proper, ?_⟩
    cases s
    · simp [magnitude, Magnitude.size?, size?, same]
    · simp [magnitude, Magnitude.size?, size?, ← same, neg_div]

end Binary64

namespace Number

theorem magnitude_spec (a : Number) : a.magnitude.Proper ∧ a.magnitude.size? = a.size? := by
  cases a with
  | int n => exact ⟨Nat.one_pos, by simp [magnitude, Magnitude.size?, size?]⟩
  | bool b => exact ⟨Nat.one_pos, by cases b <;> simp [magnitude, Magnitude.size?, size?]⟩
  | float x => exact x.magnitude_spec

theorem compare?_eq (a b : Number) :
    a.compare? b = a.size?.bind fun x => b.size?.map (compare x) := by
  obtain ⟨properA, sizeA⟩ := a.magnitude_spec
  obtain ⟨properB, sizeB⟩ := b.magnitude_spec
  rw [compare?, Magnitude.compare?_eq properA properB, sizeA, sizeB]

theorem lt_iff (a b : Number) : a.lt b = true ↔ a.Below b := by
  rw [lt, compare?_eq, Below]
  cases a.size? <;> cases b.size? <;> simp [compare_lt_iff_lt]

theorem le_iff (a b : Number) : a.le b = true ↔ a.AtMost b := by
  rw [le, compare?_eq, AtMost]
  cases a.size? with
  | none => simp
  | some x =>
    cases b.size? with
    | none => simp
    | some y =>
      have above : (∃ x' y', some x = some x' ∧ some y = some y' ∧ x' ≤ y') ↔
          compare x y ≠ .gt := by
        rw [Ne, compare_gt_iff_gt]
        simp
      rw [above, Option.bind_some, Option.map_some]
      cases compare x y <;> simp

/-- Numbers that have a place on the line are in order one way or the other. -/
theorem below_iff_of_placed {a b : Number} (ha : a.size? ≠ none) (hb : b.size? ≠ none) :
    a.Below b ↔ ¬ b.AtMost a := by
  obtain ⟨x, hx⟩ := Option.ne_none_iff_exists'.1 ha
  obtain ⟨y, hy⟩ := Option.ne_none_iff_exists'.1 hb
  simp [Below, AtMost, hx, hy]

theorem Below.not_atMost {a b : Number} (h : a.Below b) : ¬ b.AtMost a := by
  obtain ⟨x, y, hx, hy, below⟩ := h
  rintro ⟨y', x', hy', hx', above⟩
  cases hx.symm.trans hx'
  cases hy.symm.trans hy'
  exact absurd below (not_lt.2 above)

end Number

namespace Config

/-- What the first broken condition is reported as, and what makes it broken. -/
def Breaks (c : Config) : ConfigFault → Prop
  | .batchSize => c.maxBatchSize.AtMost (.int 0)
  | .inFlight => c.maxInFlight.AtMost (.int 0)
  | .buffered => c.maxBuffered.AtMost (.int 0)
  | .bufferedWithinBatch => c.maxBuffered.AtMost c.maxBatchSize
  | .timeInBuffer => ∃ limit ∈ c.maxTimeInBuffer, limit.AtMost (.int 0)
  | .requestTimeout => ∃ limit ∈ c.requestTimeout, limit.AtMost (.int 0)
  | .converterMissing | .destinationMissing => False

structure Sane (c : Config) : Prop where
  batch : (Number.int 0).Below c.maxBatchSize
  room : c.maxBatchSize.Below c.maxBuffered
  slots : (Number.int 0).Below c.maxInFlight
  time : ∀ limit ∈ c.maxTimeInBuffer, (Number.int 0).Below limit
  timeout : ∀ limit ∈ c.requestTimeout, (Number.int 0).Below limit

structure Placed (c : Config) : Prop where
  batch : c.maxBatchSize.size? ≠ none
  slots : c.maxInFlight.size? ≠ none
  buffered : c.maxBuffered.size? ≠ none
  time : ∀ limit ∈ c.maxTimeInBuffer, limit.size? ≠ none
  timeout : ∀ limit ∈ c.requestTimeout, limit.size? ≠ none

structure Given (args : Arguments) (c : Config) : Prop where
  known : args.onlyFields recordName fieldNames = .ok ()
  batch : args.getD "max_batch_size" (.nat 500) = .number c.maxBatchSize
  slots : args.getD "max_in_flight_requests" (.nat 50) = .number c.maxInFlight
  buffered : args.getD "max_buffered_requests" (.nat 10000) = .number c.maxBuffered
  time : args.getD "max_time_in_buffer_ms" .null = ofOption c.maxTimeInBuffer
  timeout : args.getD "request_timeout_sec" .null = ofOption c.requestTimeout

/-- Limits are accepted as they are, or refused for a condition that they break. -/
structure Judged (c : Config) (outcome : Except Fault Config) : Prop where
  settled : (outcome = .ok c ∧ ∀ fault, ¬ c.Breaks fault) ∨
    ∃ fault, outcome = .error (.config fault) ∧ c.Breaks fault
  accepts : c.Sane → outcome = .ok c
  refuses : c.Placed → ¬ c.Sane → ∃ fault, outcome = .error (.config fault)

variable {args : Arguments} {c : Config}

theorem Sane.keeps (h : c.Sane) (fault : ConfigFault) : ¬ c.Breaks fault := by
  cases fault with
  | batchSize => exact h.batch.not_atMost
  | inFlight => exact h.slots.not_atMost
  | bufferedWithinBatch => exact h.room.not_atMost
  | timeInBuffer =>
    rintro ⟨limit, given, low⟩
    exact (h.time limit given).not_atMost low
  | requestTimeout =>
    rintro ⟨limit, given, low⟩
    exact (h.timeout limit given).not_atMost low
  | converterMissing | destinationMissing => exact id
  | buffered =>
    -- What is above the batch size is above zero.
    obtain ⟨zero, batch, hz, hb, positive⟩ := h.batch
    obtain ⟨batch', room, hb', hr, above⟩ := h.room
    cases hb.symm.trans hb'
    have above_zero : (Number.int 0).Below c.maxBuffered :=
      ⟨zero, room, hz, hr, positive.trans above⟩
    exact above_zero.not_atMost

/-- Limits with a place on the line that break no condition make sense. -/
theorem Placed.sane (h : c.Placed) (kept : ∀ fault, ¬ c.Breaks fault) : c.Sane := by
  have zero : (Number.int 0).size? ≠ none := nofun
  constructor
  · exact (Number.below_iff_of_placed zero h.batch).2 (kept .batchSize)
  · exact (Number.below_iff_of_placed h.batch h.buffered).2 (kept .bufferedWithinBatch)
  · exact (Number.below_iff_of_placed zero h.slots).2 (kept .inFlight)
  · intro limit given
    apply (Number.below_iff_of_placed zero (h.time limit given)).2
    exact fun low => kept .timeInBuffer ⟨limit, given, low⟩
  · intro limit given
    apply (Number.below_iff_of_placed zero (h.timeout limit given)).2
    exact fun low => kept .requestTimeout ⟨limit, given, low⟩

theorem Judged.of_settled {outcome : Except Fault Config}
    (settled : (outcome = .ok c ∧ ∀ fault, ¬ c.Breaks fault) ∨
      ∃ fault, outcome = .error (.config fault) ∧ c.Breaks fault) : c.Judged outcome := by
  refine ⟨settled, fun sane => ?_, fun placed insane => ?_⟩
  · rcases settled with ⟨accepted, -⟩ | ⟨fault, -, broken⟩
    · exact accepted
    · exact absurd broken (sane.keeps fault)
  · rcases settled with ⟨-, kept⟩ | ⟨fault, refused, -⟩
    · exact absurd (placed.sane kept) insane
    · exact ⟨fault, refused⟩

theorem positive_number (fault : ConfigFault) (n : Number) :
    (positive fault (.number n) = .error (.config fault) ∧ n.AtMost (.int 0)) ∨
      (positive fault (.number n) = .ok n ∧ ¬ n.AtMost (.int 0)) := by
  have read : positive fault (.number n) =
      if n.le (.int 0) then .error (.config fault) else .ok n := by
    cases low : n.le (.int 0) <;>
      simp [positive, Value.asLimit, low, bind, Except.bind, pure, Except.pure, throw, throwThe,
        MonadExceptOf.throw]
  rw [read]
  by_cases low : n.le (.int 0) = true
  · exact .inl ⟨if_pos low, (n.le_iff _).1 low⟩
  · exact .inr ⟨if_neg low, fun h => low ((n.le_iff _).2 h)⟩

theorem positiveIfSet_ofOption (fault : ConfigFault) (n? : Option Number) :
    (positiveIfSet fault (ofOption n?) = .error (.config fault) ∧
        ∃ n ∈ n?, n.AtMost (.int 0)) ∨
      (positiveIfSet fault (ofOption n?) = .ok n? ∧ ¬ ∃ n ∈ n?, n.AtMost (.int 0)) := by
  cases n? with
  | none => exact .inr ⟨rfl, by simp⟩
  | some n =>
    have read : positiveIfSet fault (ofOption (some n)) =
        (positive fault (.number n)).map some := rfl
    rw [read]
    rcases positive_number fault n with ⟨refused, low⟩ | ⟨passed, high⟩
    · exact .inl ⟨by rw [refused]; rfl, by simpa using low⟩
    · exact .inr ⟨by rw [passed]; rfl, by simpa using high⟩

/-- The conditions are looked at in this order, and the first one that is broken is reported. -/
theorem judged_ofArguments (given : Given args c) : c.Judged (ofArguments args) := by
  apply Judged.of_settled
  rw [ofArguments, given.known, given.batch, given.slots, given.buffered, given.time,
    given.timeout]
  simp only [bind, Except.bind]
  rcases positive_number .batchSize c.maxBatchSize with ⟨refused, low⟩ | ⟨passed, batch⟩
  · rw [refused]
    exact .inr ⟨_, rfl, low⟩
  rw [passed]
  rcases positive_number .inFlight c.maxInFlight with ⟨refused, low⟩ | ⟨passed, slots⟩
  · rw [refused]
    exact .inr ⟨_, rfl, low⟩
  rw [passed]
  rcases positive_number .buffered c.maxBuffered with ⟨refused, low⟩ | ⟨passed, buffered⟩
  · rw [refused]
    exact .inr ⟨_, rfl, low⟩
  rw [passed]
  dsimp only
  by_cases within : c.maxBuffered.le c.maxBatchSize = true
  · rw [if_pos within]
    exact .inr ⟨_, rfl, (Number.le_iff _ _).1 within⟩
  rw [if_neg within]
  rcases positiveIfSet_ofOption .timeInBuffer c.maxTimeInBuffer with ⟨refused, low⟩ | ⟨passed, time⟩
  · rw [refused]
    exact .inr ⟨_, rfl, low⟩
  rw [passed]
  rcases positiveIfSet_ofOption .requestTimeout c.requestTimeout with
    ⟨refused, low⟩ | ⟨passed, timeout⟩
  · rw [refused]
    exact .inr ⟨_, rfl, low⟩
  rw [passed]
  refine .inl ⟨rfl, fun fault => ?_⟩
  cases fault with
  | batchSize => exact batch
  | inFlight => exact slots
  | buffered => exact buffered
  | bufferedWithinBatch => exact fun low => within ((Number.le_iff _ _).2 low)
  | timeInBuffer => exact time
  | requestTimeout => exact timeout
  | converterMissing | destinationMissing => exact id

theorem number_of_positive {fault : ConfigFault} {v : Value} {n : Number}
    (h : positive fault v = .ok n) : v = .number n := by
  cases v with
  | number m =>
    rcases positive_number fault m with ⟨refused, -⟩ | ⟨passed, -⟩
    · rw [refused] at h
      cases h
    · rw [passed] at h
      cases h
      rfl
  | _ => cases h

theorem ofOption_of_positiveIfSet {fault : ConfigFault} {v : Value} {n? : Option Number}
    (h : positiveIfSet fault v = .ok n?) : v = ofOption n? := by
  unfold positiveIfSet at h
  split at h
  · cases h
    rfl
  · cases read : positive fault v with
    | error _ =>
      rw [read] at h
      cases h
    | ok n =>
      rw [read] at h
      cases h
      exact number_of_positive read

theorem given_of_ofArguments (h : ofArguments args = .ok c) : Given args c := by
  simp only [ofArguments, bind, Except.bind] at h
  split at h
  · cases h
  next known =>
  split at h
  · cases h
  next batch =>
  split at h
  · cases h
  next slots =>
  split at h
  · cases h
  next buffered =>
  split at h
  · cases h
  split at h
  · cases h
  next time =>
  split at h
  · cases h
  next timeout =>
  cases h
  exact ⟨known, number_of_positive batch, number_of_positive slots, number_of_positive buffered,
    ofOption_of_positiveIfSet time, ofOption_of_positiveIfSet timeout⟩

theorem kept_of_ofArguments (h : ofArguments args = .ok c) (fault : ConfigFault) :
    ¬ c.Breaks fault := by
  rcases (judged_ofArguments (given_of_ofArguments h)).settled with ⟨-, kept⟩ | ⟨_, refused, -⟩
  · exact kept fault
  · rw [h] at refused
    cases refused

end Config

namespace Settings

def config (s : Settings) : Config where
  maxBatchSize := .int s.maxBatchSize
  maxInFlight := .int s.maxInFlight
  maxBuffered := .int s.maxBuffered
  maxTimeInBuffer := s.maxTimeInBuffer.map .int
  requestTimeout := s.requestTimeout.map .float

theorem given_limits (s : Settings) : Config.Given s.limits s.config where
  known := rfl
  batch := rfl
  slots := rfl
  buffered := rfl
  time := by
    obtain ⟨_, _, _, _, time, _⟩ := s
    cases time <;> rfl
  timeout := by
    obtain ⟨_, _, _, _, _, timeout⟩ := s
    cases timeout <;> rfl

/-- Of settings only a timeout can have no place on the line. -/
theorem placed_config {s : Settings} (number : s.requestTimeout ≠ some .nan) :
    s.config.Placed where
  batch := nofun
  slots := nofun
  buffered := nofun
  time limit given := by
    obtain ⟨n, -, same⟩ := Option.map_eq_some_iff.1 given
    rw [← same]
    nofun
  timeout limit given := by
    obtain ⟨x, set, same⟩ := Option.map_eq_some_iff.1 given
    rw [← same]
    cases x with
    | nan => exact absurd set number
    | infinity negative => cases negative <;> nofun
    | finite _ _ _ => nofun

end Settings

/-- **Limits.** Whatever numbers are given for the limits, directly or through settings, however
these were read, the configuration has just these limits, or it is refused for a condition that
they break. Limits that make sense are accepted. Others are refused if each has a place on the
line, so of the settings only a timeout that is no number slips through. -/
theorem limits_are_judged (args : Arguments) (c : Config) (s : Settings) :
    (Config.Given args c → c.Judged (Config.ofArguments args)) ∧
      s.config.Judged s.toConfig ∧ (s.requestTimeout ≠ some .nan → s.config.Placed) :=
  ⟨Config.judged_ofArguments, Config.judged_ofArguments s.given_limits, Settings.placed_config⟩

def boundless : Config :=
  { maxInFlight := .bool true, requestTimeout := some (.float (.infinity false)) }

theorem limits_are_judged_boundless :
    Config.ofArguments [("request_timeout_sec", .number (.float (.infinity false))),
        ("max_in_flight_requests", .bool true)] = .ok boundless ∧ boundless.Sane := by
  have given : Config.Given [("request_timeout_sec", .number (.float (.infinity false))),
      ("max_in_flight_requests", .bool true)] boundless := ⟨rfl, rfl, rfl, rfl, rfl, rfl⟩
  have sane : boundless.Sane := by
    constructor
    · exact (Number.lt_iff _ _).1 rfl
    · exact (Number.lt_iff _ _).1 rfl
    · exact (Number.lt_iff _ _).1 rfl
    · exact nofun
    · intro limit given
      cases given
      exact (Number.lt_iff _ _).1 rfl
  have judged := (limits_are_judged _ _ ⟨"default", 500, 50, 10000, none, none⟩).1 given
  exact ⟨judged.accepts sane, sane⟩

def unnumbered : Settings.Sources :=
  { environment := [("ASYNC_SINK_REQUEST_TIMEOUT_SEC", "nan")] }

theorem settings_unnumbered :
    Settings.ofSources unnumbered = .ok ⟨"default", 500, 50, 10000, none, some .nan⟩ := by
  have unset : ∀ field ∈ ["writer_id", "max_batch_size", "max_in_flight_requests",
      "max_buffered_requests", "max_time_in_buffer_ms"], unnumbered.given? field = none := by
    intro field known
    have none : (["writer_id", "max_batch_size", "max_in_flight_requests",
        "max_buffered_requests", "max_time_in_buffer_ms"].all fun field =>
          (unnumbered.given? field).isNone) = true := by decide +kernel
    exact Option.isNone_iff_eq_none.1 (List.all_eq_true.1 none field known)
  have set : unnumbered.given? "request_timeout_sec" = some (.text "nan") := by
    have named : ("ASYNC_SINK_REQUEST_TIMEOUT_SEC".toLower ==
        Settings.beginning ++ "request_timeout_sec") = true := by decide +kernel
    simp only [Settings.Sources.given?, unnumbered, Settings.lastBinding?, List.map_cons,
      List.map_nil, List.filter_cons, named]
    rfl
  have read : Settings.double? "nan" = some .nan := by decide +kernel
  simp only [List.forall_mem_cons] at unset
  obtain ⟨writer, batch, slots, buffered, time, -⟩ := unset
  simp only [Settings.ofSources, Settings.fieldOf, writer, batch, slots, buffered, time, set,
    Settings.optionalField, Settings.doubleField, read]
  rfl

/-- A timeout that is no number is not found to be too low, nor is it above zero. -/
theorem accepts_a_timeout_that_is_no_number : ∃ (s : Settings) (c : Config),
    Settings.ofSources unnumbered = .ok s ∧ s.toConfig = .ok c ∧ ¬ c.Sane := by
  refine ⟨_, { requestTimeout := some (.float .nan) }, settings_unnumbered, rfl, fun sane => ?_⟩
  obtain ⟨_, _, _, none, _⟩ := sane.timeout _ rfl
  cases none

end BatchWriter
