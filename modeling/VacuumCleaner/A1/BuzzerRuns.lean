import VacuumCleaner.A1.Buzzer
import VacuumCleaner.Lib.Cadence

/-! The beeps of the buzzer, from the request for them to its answer. -/
namespace VacuumCleaner.A1.BuzzerRuns

open Lib Lib.Cadence InstructionHandler

/-- What the firmware does with its buzzer: the main loop ticks it, and an
instruction asks for beeps. -/
inductive Act
  | tick (poll : Poll)
  | beep (requestId : RequestId) (count period : Nat)
  deriving DecidableEq, Repr

def perform (buzzer : Buzzer) : Act → Buzzer
  | .tick poll => (buzzer.tick (millis poll.now) (millis poll.later)).1
  | .beep requestId count period => buzzer.beep requestId count period

/-- The buzzer after all that has been done since the start. -/
def after (acts : List Act) : Buzzer := acts.foldl perform {}

/-- No tick among them goes on behind `time`. -/
def Before (time : Nat) (acts : List Act) : Prop :=
  ∀ poll, .tick poll ∈ acts → poll.later ≤ time

/-- The answers of the ticks that follow. -/
def answers (buzzer : Buzzer) : List Poll → List Reply
  | [] => []
  | poll :: polls =>
    let (next, replies) := buzzer.tick (millis poll.now) (millis poll.later)
    replies ++ answers next polls

/-- The ticks among them that turn the pin while beeps are left, with the level
that it has then. -/
def turns (buzzer : Buzzer) : List Poll → List (Poll × Bool)
  | [] => []
  | poll :: polls =>
    let next := (buzzer.tick (millis poll.now) (millis poll.later)).1
    if buzzer.beepCount ≠ 0 ∧ next.pinIsHigh ≠ buzzer.pinIsHigh then
      (poll, next.pinIsHigh) :: turns next polls
    else turns next polls

/-- How often the pin has to turn until no beep is left. -/
def turnsLeft (buzzer : Buzzer) : Nat := 2 * buzzer.beepCount - buzzer.pinIsHigh.toNat

def alternating : (level : Bool) → (count : Nat) → List Bool
  | _, 0 => []
  | level, count + 1 => level :: alternating (!level) count

/-- The timer of a period: it has run out a millisecond later. -/
def limit (period : Nat) : UInt32 := UInt32.ofNat (period + 1)

theorem toNat_limit {period : Nat} (hperiod : period < 2 ^ 16) :
    (limit period).toNat = period + 1 := by
  rw [limit, UInt32.toNat_ofNat', Nat.mod_eq_of_lt (by omega)]

/-- The pin turned once. -/
def turned (poll : Poll) (buzzer : Buzzer) : Buzzer :=
  { buzzer with
    pinIsHigh := !buzzer.pinIsHigh
    beepCount := if buzzer.pinIsHigh then buzzer.beepCount - 1 else buzzer.beepCount
    startTime := millis poll.later }

variable {buzzer : Buzzer} {poll : Poll} {polls : List Poll}

/-- What one tick does: nothing while the timer runs, and otherwise it turns the
pin; the last beep is over when nothing is left of it but the answer. -/
theorem tick_of_beeps (hbeeps : buzzer.beepCount ≠ 0) (hperiod : buzzer.period < 2 ^ 16) :
    buzzer.tick (millis poll.now) (millis poll.later) =
      (if millis poll.now - buzzer.startTime < limit buzzer.period then buzzer
        else turned poll buzzer, []) := by
  have hlimit := toNat_limit hperiod
  have hdue : millis poll.now - buzzer.startTime < limit buzzer.period ↔
      ¬ (millis poll.now - buzzer.startTime).toNat > buzzer.period := by
    rw [UInt32.lt_iff_toNat_lt, hlimit]
    omega
  unfold Buzzer.tick
  rw [if_neg hbeeps]
  by_cases hrunning : millis poll.now - buzzer.startTime < limit buzzer.period
  · rw [if_pos hrunning, if_neg (hdue.mp hrunning)]
  · rw [if_neg hrunning, if_pos (not_not.mp (mt hdue.mpr hrunning)), turned]
    cases hpin : buzzer.pinIsHigh with
    | false => simp
    | true => simp

theorem turnsLeft_turned (poll : Poll) (hbeeps : buzzer.beepCount ≠ 0) :
    turnsLeft buzzer = turnsLeft (turned poll buzzer) + 1 := by
  unfold turnsLeft turned
  cases hpin : buzzer.pinIsHigh with
  | false => simp only [Bool.toNat_false, Bool.not_false, Bool.toNat_true]; grind
  | true => simp only [Bool.toNat_false, Bool.not_true, Bool.toNat_true]; grind

theorem turnsLeft_pos (hbeeps : buzzer.beepCount ≠ 0) : 0 < turnsLeft buzzer :=
  turnsLeft_turned ⟨0, 0⟩ hbeeps ▸ Nat.succ_pos _

theorem beepCount_tick_of_no_beeps (hbeeps : buzzer.beepCount = 0) (now later : UInt32) :
    (buzzer.tick now later).1.beepCount = 0 := by
  unfold Buzzer.tick
  rw [if_pos hbeeps]
  dsimp only
  split
  · exact hbeeps
  · exact hbeeps

theorem turns_of_no_beeps (hbeeps : buzzer.beepCount = 0) (polls : List Poll) :
    turns buzzer polls = [] := by
  induction polls generalizing buzzer with
  | nil => rfl
  | cons poll polls ih =>
    rw [turns, if_neg (by simp [hbeeps])]
    exact ih (beepCount_tick_of_no_beeps hbeeps ..)

theorem turns_cons (hbeeps : buzzer.beepCount ≠ 0) (hperiod : buzzer.period < 2 ^ 16) :
    turns buzzer (poll :: polls) =
      if millis poll.now - buzzer.startTime < limit buzzer.period then turns buzzer polls
      else (poll, !buzzer.pinIsHigh) :: turns (turned poll buzzer) polls := by
  rw [turns, tick_of_beeps hbeeps hperiod]
  split
  · rw [if_neg (by simp)]
  · rw [if_pos ⟨hbeeps, by simp [turned]⟩]
    rfl

theorem turns_eq (hperiod : buzzer.period < 2 ^ 16) :
    (turns buzzer polls).map Prod.fst =
        (firedMillis (limit buzzer.period) buzzer.startTime polls).take (turnsLeft buzzer) ∧
      (turns buzzer polls).map Prod.snd =
        alternating (!buzzer.pinIsHigh) (turns buzzer polls).length := by
  induction polls generalizing buzzer with
  | nil => exact ⟨(List.take_nil ..).symm, rfl⟩
  | cons poll polls ih =>
    by_cases hbeeps : buzzer.beepCount = 0
    · rw [turns_of_no_beeps hbeeps, turnsLeft, hbeeps, Nat.mul_zero, Nat.zero_sub]
      exact ⟨rfl, rfl⟩
    · rw [turns_cons hbeeps hperiod, firedMillis]
      split
      · exact ih hperiod
      · have hperiod' : (turned poll buzzer).period < 2 ^ 16 := hperiod
        obtain ⟨hpolls, hlevels⟩ := ih hperiod'
        rw [turnsLeft_turned poll hbeeps, List.take_succ_cons, List.map_cons, hpolls,
          List.map_cons, hlevels]
        exact ⟨rfl, rfl⟩

theorem answers_of_idle (hbeeps : buzzer.beepCount = 0) (hidle : buzzer.isExecuting = false)
    (polls : List Poll) : answers buzzer polls = [] := by
  induction polls generalizing buzzer with
  | nil => rfl
  | cons poll polls ih =>
    have htick : buzzer.tick (millis poll.now) (millis poll.later) =
        ({ buzzer with pinIsHigh := false }, []) := by
      unfold Buzzer.tick
      rw [if_pos hbeeps]
      dsimp only
      rw [if_neg (by simp [hidle])]
    rw [answers, htick]
    exact ih hbeeps hidle

/-- The answer comes with the tick behind the last turn. -/
theorem answers_eq (hperiod : buzzer.period < 2 ^ 16) (hexecuting : buzzer.isExecuting = true) :
    answers buzzer polls =
      if polls ≠ [] ∧ turnsLeft buzzer ≤
          (firedMillis (limit buzzer.period) buzzer.startTime polls.dropLast).length
        then [.finished buzzer.requestId] else [] := by
  induction polls generalizing buzzer with
  | nil => rfl
  | cons poll polls ih =>
    by_cases hbeeps : buzzer.beepCount = 0
    · have htick : buzzer.tick (millis poll.now) (millis poll.later) =
          ({ buzzer with pinIsHigh := false, isExecuting := false },
            [.finished buzzer.requestId]) := by
        unfold Buzzer.tick
        rw [if_pos hbeeps]
        dsimp only
        rw [if_pos hexecuting]
      rw [answers, htick, if_pos ⟨List.cons_ne_nil _ _, by simp [turnsLeft, hbeeps]⟩]
      dsimp only
      rw [answers_of_idle (by exact hbeeps) rfl, List.append_nil]
    · have hanswers : answers buzzer (poll :: polls) = answers
          (if millis poll.now - buzzer.startTime < limit buzzer.period then buzzer
            else turned poll buzzer) polls := by
        rw [answers, tick_of_beeps hbeeps hperiod]
        rfl
      rw [hanswers]
      cases polls with
      | nil =>
        have hmore : ¬ (([poll] : List Poll) ≠ [] ∧ turnsLeft buzzer ≤ 0) :=
          fun h => absurd h.2 (Nat.not_le_of_lt (turnsLeft_pos hbeeps))
        exact (if_neg hmore).symm
      | cons next polls =>
        rw [List.dropLast_cons_cons, firedMillis]
        split
        · rw [ih hperiod hexecuting]
          simp
        · have hrest : answers (turned poll buzzer) (next :: polls) = if next :: polls ≠ [] ∧
              turnsLeft (turned poll buzzer) ≤ (firedMillis (limit buzzer.period)
                (millis poll.later) (next :: polls).dropLast).length
              then [.finished buzzer.requestId] else [] := ih hperiod hexecuting
          simp only [turnsLeft_turned poll hbeeps, List.length_cons,
            Nat.add_le_add_iff_right]
          simpa using hrest

/-! From the start of the firmware. -/

theorem startTime_tick (now later : UInt32) (buzzer : Buzzer) :
    (buzzer.tick now later).1.startTime = buzzer.startTime ∨
      (buzzer.tick now later).1.startTime = later := by
  unfold Buzzer.tick
  split
  · dsimp only
    split
    · exact .inl rfl
    · exact .inl rfl
  · split
    · exact .inr rfl
    · exact .inl rfl

theorem exists_startTime {acts : List Act} {time : Nat} (hbefore : Before time acts) :
    ∃ set ≤ time, millis set = (after acts).startTime := by
  induction acts using List.reverseRecOn with
  | nil => exact ⟨0, Nat.zero_le _, rfl⟩
  | append_singleton acts act ih =>
    obtain ⟨set, hset, hmillis⟩ := ih fun poll hpoll => hbefore poll (List.mem_append_left _ hpoll)
    have hstep : (after (acts ++ [act])).startTime = (perform (after acts) act).startTime := by
      rw [after, List.foldl_concat]
      rfl
    rw [hstep]
    cases act with
    | beep => exact ⟨set, hset, hmillis⟩
    | tick poll =>
      have hlater := hbefore poll (List.mem_append_right _ (.head _))
      rcases startTime_tick (millis poll.now) (millis poll.later) (after acts) with hsame | hnew
      · exact ⟨set, hset, hmillis.trans hsame.symm⟩
      · exact ⟨poll.later, hlater, hnew.symm⟩

theorem count_alternating (level : Bool) (count : Nat) :
    (alternating level count).count false = (count + (!level).toNat) / 2 := by
  induction count generalizing level with
  | zero => cases level <;> rfl
  | succ count ih =>
    rw [alternating, List.count_cons, ih]
    cases level with
    | false => simp; omega
    | true => simp

/-- A request for beeps that no other replaces: the pin turns as often as it takes
to end them all, and more than the period from one turn to the next; the answer
comes once, with the tick behind the last turn, and that within a time that
counts, period and pace of the ticks decide. -/
theorem beeps_counted {acts : List Act} {time gap count period : Nat} (requestId : RequestId)
    {polls : List Poll} (hbefore : Before time acts) (hperiod : period < 2 ^ 16)
    (hpaced : Paced gap ⟨time, time⟩ polls) (hgap : period + 1 + gap ≤ 2 ^ 32) :
    let buzzer := (after acts).beep requestId count period
    let needed := turnsLeft buzzer
    let made := turns buzzer polls
    made.length ≤ needed ∧ Spread (period + 1) (made.map Prod.fst) ∧
      made.map Prod.snd = alternating (!buzzer.pinIsHigh) made.length ∧
      (made.length = needed → (made.map Prod.snd).count false = count) ∧
      answers buzzer polls =
        (if polls ≠ [] ∧ (turns buzzer polls.dropLast).length = needed then [.finished requestId]
          else []) ∧
      ∀ last ∈ polls.dropLast, time + gap + needed * (period + 1 + gap) ≤ last.now →
        answers buzzer polls = [.finished requestId] := by
  intro buzzer needed made
  have hlimit : (limit period).toNat = period + 1 := toNat_limit hperiod
  obtain ⟨set, hset, hstart⟩ := exists_startTime hbefore
  -- One reading of the timer serves all ticks and those but the last.
  have hpos : 0 < (limit period).toNat := by omega
  obtain ⟨since, hle, hfired⟩ := exists_fired hpos hpaced (by omega) hset
  rw [hstart, hlimit] at hfired
  have hturns : ∀ some, some <+: polls →
      (turns buzzer some).map Prod.fst = (fired (period + 1) since some).take needed := by
    intro some hsome
    have hpins : (turns buzzer some).map Prod.fst =
        (firedMillis (limit period) buzzer.startTime some).take needed := (turns_eq hperiod).1
    rw [hpins, ← hfired some hsome]
    rfl
  have hlength : ∀ some, some <+: polls →
      (turns buzzer some).length = min needed (fired (period + 1) since some).length := by
    intro some hsome
    have hlengths := congrArg List.length (hturns some hsome)
    rwa [List.length_map, List.length_take] at hlengths
  have hlevels : made.map Prod.snd = alternating (!buzzer.pinIsHigh) made.length :=
    (turns_eq hperiod).2
  have hanswers : answers buzzer polls = if polls ≠ [] ∧ (turns buzzer polls.dropLast).length = needed
      then [.finished requestId] else [] := by
    have hexecuting : buzzer.isExecuting = true := rfl
    rw [answers_eq hperiod hexecuting]
    have hall : turnsLeft buzzer ≤ (firedMillis (limit buzzer.period) buzzer.startTime
        polls.dropLast).length ↔ (turns buzzer polls.dropLast).length = needed := by
      rw [hlength _ (List.dropLast_prefix polls), ← hfired _ (List.dropLast_prefix polls)]
      exact inf_eq_left.symm
    simp only [hall]
    rfl
  refine ⟨?_, ?_, hlevels, fun hwhole => ?_, hanswers, fun last hlast hlate => ?_⟩
  · rw [hlength polls (List.prefix_refl _)]
    exact Nat.min_le_left ..
  · rw [hturns polls (List.prefix_refl _)]
    exact (spread_fired _ _ _).take _
  · rw [hlevels, hwhole, count_alternating, Bool.not_not]
    change (2 * count - buzzer.pinIsHigh.toNat + buzzer.pinIsHigh.toNat) / 2 = count
    have hpin := Bool.toNat_le buzzer.pinIsHigh
    omega
  · have hsome : polls ≠ [] := by
      rintro rfl
      cases hlast
    have hbut : Paced gap ⟨time, time⟩ polls.dropLast := by
      rw [← List.dropLast_append_getLast hsome] at hpaced
      exact hpaced.left
    have hcount : needed ≤ (fired (period + 1) since polls.dropLast).length :=
      le_length_fired (Nat.succ_pos period) hbut hle hlast hlate
    have hwhole : (turns buzzer polls.dropLast).length = needed := by
      rw [hlength _ (List.dropLast_prefix polls)]
      exact Nat.min_eq_left hcount
    rw [hanswers, if_pos ⟨hsome, hwhole⟩]

/-- Two beeps of 100 ms, asked for in the middle of another one, with a tick each
10 ms. -/
theorem beeps_counted_twice :
    let acts := [.beep 0x10 1 100, .tick ⟨150, 150⟩]
    let polls := (List.range 60).map fun count => (⟨160 + 10 * count, 160 + 10 * count⟩ : Poll)
    let buzzer := (after acts).beep 0x11 2 100
    let needed := turnsLeft buzzer
    let made := turns buzzer polls
    needed = 3 ∧ made.length ≤ needed ∧ Spread 101 (made.map Prod.fst) ∧
      made.map Prod.snd = alternating (!buzzer.pinIsHigh) made.length ∧
      (made.length = needed → (made.map Prod.snd).count false = 2) ∧
      answers buzzer polls =
        (if polls ≠ [] ∧ (turns buzzer polls.dropLast).length = needed then [.finished 0x11]
          else []) ∧
      ∀ last ∈ polls.dropLast, 155 + 15 + needed * (101 + 15) ≤ last.now →
        answers buzzer polls = [.finished 0x11] := by
  intro acts polls
  have hbefore : Before 155 acts := by
    intro poll hpoll
    obtain hpoll | hpoll := List.mem_cons.mp hpoll
    · cases hpoll
    · obtain rfl := Act.tick.inj (List.mem_singleton.mp hpoll)
      decide
  have hpaced : Paced 15 ⟨155, 155⟩ polls := by decide +kernel
  exact ⟨rfl, beeps_counted 0x11 hbefore (by decide) hpaced (by decide)⟩

end VacuumCleaner.A1.BuzzerRuns
