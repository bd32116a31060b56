import ChipEight.Proofs.Clock.Backlog

/-!
# A clock never runs fast

A clock can be asked at any readings, late ones and ones that go back. Each cycle moves it forward
by an interval at least, and nothing moves it beyond the latest reading, so all cycles are paid
for by time that passed. Of the time before the first reading eight intervals count at most,
since a clock that is later drops what it missed at the first look.
-/

namespace ChipEight.Clock

variable {c : Clock}

/-- Ask once at each reading: the cycles given, and the clock behind them. -/
def pollAll (c : Clock) : List Nat → Nat × Clock
  | [] => (0, c)
  | now :: rest =>
    let (due, next) := c.poll now
    let (count, behind) := next.pollAll rest
    (due.toNat + count, behind)

theorem fst_pollAll_cons (c : Clock) (now : Nat) (rest : List Nat) :
    (c.pollAll (now :: rest)).1 = (c.poll now).1.toNat + ((c.poll now).2.pollAll rest).1 := rfl

theorem snd_pollAll_cons (c : Clock) (now : Nat) (rest : List Nat) :
    (c.pollAll (now :: rest)).2 = ((c.poll now).2.pollAll rest).2 := rfl

/-- A cycle moves the clock forward by an interval at least. -/
theorem add_interval_le_last_poll (hpos : 0 < c.interval) (now : Nat) :
    c.last + (c.poll now).1.toNat * c.interval ≤ (c.poll now).2.last := by
  obtain ⟨-, hp⟩ | ⟨-, hp⟩ | ⟨hlate, hp⟩ := poll_cases hpos now
  · rw [hp, Bool.toNat_false, Nat.zero_mul]
    exact Nat.le_refl _
  · rw [hp, Bool.toNat_true, Nat.one_mul]
    exact Nat.le_refl _
  · unfold maxBacklog at hlate
    rw [hp, Bool.toNat_true, Nat.one_mul]
    change c.last + c.interval ≤ now
    omega

/-- A look does not move the clock beyond the reading. -/
theorem last_poll_le (hpos : 0 < c.interval) (now : Nat) :
    (c.poll now).2.last ≤ max c.last now := by
  obtain ⟨-, hp⟩ | ⟨hdue, hp⟩ | ⟨-, hp⟩ := poll_cases hpos now
  · rw [hp]
    exact Nat.le_max_left _ _
  · rw [hp]
    change c.last + c.interval ≤ max c.last now
    omega
  · rw [hp]
    exact Nat.le_max_right _ _

theorem interval_pollAll (c : Clock) (readings : List Nat) :
    (c.pollAll readings).2.interval = c.interval := by
  induction readings generalizing c with
  | nil => rfl
  | cons now rest ih => rw [snd_pollAll_cons, ih, interval_poll]

theorem last_le_last_pollAll (c : Clock) (readings : List Nat) :
    c.last ≤ (c.pollAll readings).2.last := by
  induction readings generalizing c with
  | nil => exact Nat.le_refl _
  | cons now rest ih => exact Nat.le_trans (c.last_le_last_poll now) (ih (c.poll now).2)

theorem pollAll_append (c : Clock) (before rest : List Nat) :
    (c.pollAll (before ++ rest)).2 = ((c.pollAll before).2.pollAll rest).2 := by
  induction before generalizing c with
  | nil => rfl
  | cons now before ih => exact ih (c.poll now).2

/-- The cycles given take up no more time than the clock moved. -/
theorem add_cycles_le_last_pollAll (hpos : 0 < c.interval) (readings : List Nat) :
    c.last + (c.pollAll readings).1 * c.interval ≤ (c.pollAll readings).2.last := by
  induction readings generalizing c with
  | nil =>
    rw [pollAll, Nat.zero_mul]
    exact Nat.le_refl _
  | cons now rest ih =>
    have hfirst := add_interval_le_last_poll hpos now
    have hrest := ih (c := (c.poll now).2) (by rwa [interval_poll])
    rw [interval_poll] at hrest
    rw [fst_pollAll_cons, snd_pollAll_cons, Nat.add_mul]
    omega

/-- The clock does not move beyond the latest reading. -/
theorem last_pollAll_le (hpos : 0 < c.interval) {readings : List Nat} {latest : Nat}
    (h : ∀ now ∈ readings, now ≤ latest) :
    (c.pollAll readings).2.last ≤ max c.last latest := by
  induction readings generalizing c with
  | nil => exact Nat.le_max_left _ _
  | cons now rest ih =>
    have hfirst := last_poll_le hpos now
    have hnow := h now List.mem_cons_self
    have hrest := ih (c := (c.poll now).2) (by rwa [interval_poll])
      fun later hmem => h later (List.mem_cons_of_mem _ hmem)
    rw [snd_pollAll_cons]
    omega

/-- All cycles are given for the time from the last due cycle to the latest reading. -/
theorem cycles_mul_interval_le (hpos : 0 < c.interval) {readings : List Nat} {latest : Nat}
    (h : ∀ now ∈ readings, now ≤ latest) :
    (c.pollAll readings).1 * c.interval ≤ latest - c.last := by
  have hmoved := add_cycles_le_last_pollAll hpos readings
  have hreached := last_pollAll_le hpos h
  omega

/-- From the first reading on, a clock gives eight cycles more than intervals pass, at most. -/
theorem cycles_le (hpos : 0 < c.interval) {first latest : Nat} {rest : List Nat}
    (h : ∀ now ∈ first :: rest, now ≤ latest) :
    (c.pollAll (first :: rest)).1 ≤ 8 + (latest - first) / c.interval := by
  by_cases hskip : c.SkipsAhead first
  · -- the first look drops what was missed, and all later cycles are given for time behind it
    have hrest := cycles_mul_interval_le (c := c.reset first) hpos fun now hmem =>
      h now (List.mem_cons_of_mem _ hmem)
    have hle := (Nat.le_div_iff_mul_le hpos).mpr hrest
    change ((c.reset first).pollAll rest).1 ≤ (latest - first) / c.interval at hle
    rw [fst_pollAll_cons, poll_of_skipsAhead hskip]
    change 1 + ((c.reset first).pollAll rest).1 ≤ _
    omega
  · have hall := cycles_mul_interval_le hpos h
    have hlate : first - c.last ≤ c.interval * 8 :=
      Nat.le_of_not_lt fun hlate => hskip ⟨hpos, hlate⟩
    have hfirst := h first List.mem_cons_self
    rw [Nat.add_comm, ← Nat.add_mul_div_right _ _ hpos, Nat.le_div_iff_mul_le hpos]
    omega

/-- With the interval zero, the clock has moved to the latest reading. -/
theorem last_pollAll_lt_iff (hzero : c.interval = 0) (before : List Nat) (now : Nat) :
    (c.pollAll before).2.last < now ↔ c.last < now ∧ ∀ earlier ∈ before, earlier < now := by
  induction before generalizing c with
  | nil => simp [pollAll]
  | cons first rest ih =>
    have hrest := ih (c := (c.poll first).2) (by rwa [interval_poll])
    rw [snd_pollAll_cons, hrest, poll_of_interval_eq_zero hzero, List.forall_mem_cons, ← and_assoc]
    exact and_congr_left fun _ => Nat.max_lt

/-- However a clock is asked, it does not move back, and the cycles that it gives take up no more
time than it moved. From the first reading to the latest one they are eight more than the intervals
that passed, at most. With the interval zero, a cycle is given exactly where the reading is later
than the start of the clock and than all readings before. -/
theorem never_fast (c : Clock) :
    (∀ before rest, (c.pollAll before).2.last ≤ (c.pollAll (before ++ rest)).2.last) ∧
    (0 < c.interval → ∀ (first : Nat) (rest : List Nat),
      let latest := (first :: rest).max (List.cons_ne_nil first rest)
      let (cycles, behind) := c.pollAll (first :: rest)
      cycles * c.interval ≤ behind.last - c.last ∧
        cycles ≤ 8 + (latest - first) / c.interval) ∧
    (c.interval = 0 → ∀ before now, ((c.pollAll before).2.poll now).1 = true ↔
      c.last < now ∧ ∀ earlier ∈ before, earlier < now) := by
  refine ⟨fun before rest => ?_, fun hpos first rest => ⟨?_, ?_⟩, fun hzero before now => ?_⟩
  · rw [pollAll_append]
    exact last_le_last_pollAll _ rest
  · have hmoved := add_cycles_le_last_pollAll hpos (first :: rest)
    exact Nat.le_sub_of_add_le' hmoved
  · exact cycles_le hpos fun now hmem => List.le_max_of_mem hmem
  · have hinterval : (c.pollAll before).2.interval = 0 := by rwa [interval_pollAll]
    rw [poll_of_interval_eq_zero hinterval, decide_eq_true_iff]
    exact last_pollAll_lt_iff hzero before now

/-- A clock that gives a cycle every ten nanoseconds. -/
def hasty : Clock := ⟨10, 3⟩

/-- A clock without intervals. -/
def gapless : Clock := ⟨0, 5⟩

/-- Asked again and again eight intervals late, a clock gives the eight cycles that it may give at
once, though one of the readings goes back. Without intervals, a clock gives no cycle at a reading
that it was asked at before. -/
theorem never_fast_hasty :
    0 < hasty.interval ∧ hasty.pollAll (83 :: 20 :: List.replicate 8 83) = (8, ⟨10, 83⟩) ∧
      8 * 10 ≤ 83 - 3 ∧ 8 ≤ 8 + (83 - 83) / 10 ∧
      gapless.interval = 0 ∧ ((gapless.pollAll [9, 7]).2.poll 10).1 = true ∧
      ¬ ((gapless.pollAll [9, 7]).2.poll 9).1 = true := by
  have hpos : 0 < hasty.interval := by decide
  obtain ⟨hcycles, hbound⟩ := (never_fast hasty).2.1 hpos 83 (20 :: List.replicate 8 83)
  have hzero : gapless.interval = 0 := rfl
  have hdue := (never_fast gapless).2.2 hzero [9, 7]
  refine ⟨hpos, rfl, hcycles, hbound, hzero, (hdue 10).mpr (by decide), ?_⟩
  rw [hdue]
  decide

end ChipEight.Clock
