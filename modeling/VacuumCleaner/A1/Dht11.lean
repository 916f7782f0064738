import VacuumCleaner.Lib.Millis
import VacuumCleaner.Lib.Pulses

/-! The sensor of temperature and humidity. A transaction counts the looks at
each pulse of the line; the next two seconds are answered from what it left. -/
namespace VacuumCleaner.A1.Dht11

open Lib Lib.Pulses

/-- A millisecond, in cycles of the clock. -/
def maxCycles : Nat := 16000

def minInterval : UInt32 := 2000

structure Dht where
  data : List UInt8
  lastReadTime : UInt32
  lastResult : Bool
  deriving DecidableEq, Repr

/-- `DHT::DHT`, for an object whose storage is zeroed. -/
def construct (now : UInt32) : Dht := ⟨List.replicate 5 0, now - minInterval, false⟩

/-- `_expectPulse`, with the line behind it; no count stands for `TIMEOUT`. -/
def expectPulse (level : Bool) (line : Line) : Option Nat × Line := countLooks level maxCycles line

/-- The cycles of some bits, a low and a high pulse for each. -/
def readCycles : (bits : Nat) → Line → List (Option Nat × Option Nat)
  | 0, _ => []
  | bits + 1, line =>
    let (low, line) := expectPulse false line
    let (high, line) := expectPulse true line
    (low, high) :: readCycles bits line

/-- The bytes that the cycles are shifted into, up to one that timed out. -/
def shiftIn (i : Nat) (data : List UInt8) : List (Option Nat × Option Nat) → Bool × List UInt8
  | [] => (true, data)
  | (some lowCycles, some highCycles) :: cycles =>
    let data := data.modify (i / 8) (· <<< 1)
    let data := if highCycles > lowCycles then data.modify (i / 8) (· ||| 1) else data
    shiftIn (i + 1) data cycles
  | _ :: _ => (false, data)

/-- The last byte is the sum of the others. -/
def checksumHolds (data : List UInt8) : Bool :=
  (data.getD 4 0).toNat == ((data.getD 0 0).toNat + (data.getD 1 0).toNat +
    (data.getD 2 0).toNat + (data.getD 3 0).toNat) % 256

/-- A transaction over the line, from the first look behind the start signal. -/
def transact (line : Line) : Bool × List UInt8 :=
  let data := List.replicate 5 0
  match expectPulse false line with
  | (none, _) => (false, data)
  | (some _, line) =>
    match expectPulse true line with
    | (none, _) => (false, data)
    | (some _, line) =>
      match shiftIn 0 data (readCycles 40 line) with
      | (false, data) => (false, data)
      | (true, data) => (checksumHolds data, data)

def temperature (data : List UInt8) : Int :=
  let f : Int := 10 * (data.getD 2 0).toNat
  let f := if data.getD 3 0 &&& 0x80 ≠ 0 then -10 - f else f
  f + (data.getD 3 0 &&& 0x0f).toNat

def humidity (data : List UInt8) : Nat := 10 * (data.getD 0 0).toNat + (data.getD 1 0).toNat

/-- `_read`, which looks at the line only when it is time for a transaction. -/
def Dht.read (now : UInt32) (line : Line) (dht : Dht) : Bool × Dht :=
  if now - dht.lastReadTime < minInterval then (dht.lastResult, dht)
  else
    let (result, data) := transact line
    (result, ⟨data, now, result⟩)

/-- What is told of the data of a read that succeeds; none is `NAN`. -/
def Dht.tell {α : Type} (tell : List UInt8 → α) (now : UInt32) (line : Line) (dht : Dht) :
    Option α × Dht :=
  match dht.read now line with
  | (false, dht) => (none, dht)
  | (true, dht) => (some (tell dht.data), dht)

/-- In tenths of a degree. -/
def Dht.readTemperature : UInt32 → Line → Dht → Option Int × Dht := Dht.tell temperature

/-- In tenths of a percent. -/
def Dht.readHumidity : UInt32 → Line → Dht → Option Nat × Dht := Dht.tell humidity

/-- `on_get_temp_and_humid`, up to the heat index; none is the failure `0x1`. -/
def onGetTempAndHumid (first second : UInt32 × Line) (dht : Dht) : Option (Int × Nat) × Dht :=
  let (t, dht) := dht.readTemperature first.1 first.2
  let (h, dht) := dht.readHumidity second.1 second.2
  match t, h with
  | some t, some h => (some (t, h), dht)
  | _, _ => (none, dht)

/-! What a sensor shows on the line. -/

/-- The bits of a byte, the highest first. -/
def bitsOf (byte : UInt8) : List Bool := (List.range 8).map fun place => byte.toNat.testBit (7 - place)

def longHigh (cycles : Nat × Nat) : Bool := decide (cycles.1 < cycles.2)

/-- The line shows five bytes: behind two pulses there are two for each bit, of
which the second is the longer one exactly for a bit that is set. -/
def Transmits (line : Line) (bytes : List UInt8) : Prop :=
  bytes.length = 5 ∧ ∃ first second, ∃ cycles : List (Nat × Nat),
    cycles.map longHigh = bytes.flatMap bitsOf ∧
      Shows maxCycles false (first :: second :: cycles.flatMap fun (low, high) => [low, high]) line

/-! The bits of a transaction. -/

theorem shows_cons {level : Bool} {count : Nat} {counts : List Nat} {line : Line} :
    Shows maxCycles level (count :: counts) line ↔ ∃ rest,
      expectPulse level line = (some count, rest) ∧ Shows maxCycles (!level) counts rest := by
  unfold expectPulse
  simp only [countLooks_eq_some_iff, Shows]
  constructor
  · rintro ⟨hpatience, hlasts, hmore⟩
    exact ⟨_, ⟨hpatience, hlasts, rfl⟩, hmore⟩
  · rintro ⟨_, ⟨hpatience, hlasts, rfl⟩, hmore⟩
    exact ⟨hpatience, hlasts, hmore⟩

theorem readCycles_iff {line : Line} {cycles : List (Nat × Nat)} :
    readCycles cycles.length line = cycles.map (fun (low, high) => (some low, some high)) ↔
      Shows maxCycles false (cycles.flatMap fun (low, high) => [low, high]) line := by
  induction cycles generalizing line with
  | nil => simp [readCycles, Shows]
  | cons pair cycles ih =>
    obtain ⟨low, high⟩ := pair
    rw [List.flatMap_cons, List.cons_append, List.cons_append, List.nil_append, shows_cons,
      Bool.not_false, List.length_cons, readCycles, List.map_cons]
    simp only [shows_cons, Bool.not_true]
    constructor
    · intro heq
      obtain ⟨hpair, hrest⟩ := List.cons.inj heq
      obtain ⟨hlow, hhigh⟩ := Prod.mk.inj hpair
      exact ⟨_, Prod.ext hlow rfl, _, Prod.ext hhigh rfl, ih.mp hrest⟩
    · rintro ⟨rest, hlow, last, hhigh, hshows⟩
      rw [hlow]
      dsimp only
      rw [hhigh]
      exact congrArg _ (ih.mpr hshows)

def push (value : UInt8) (bit : Bool) : UInt8 := if bit then value <<< 1 ||| 1 else value <<< 1

theorem foldl_push_bitsOf (byte : UInt8) : (bitsOf byte).foldl push 0 = byte := by
  have hbytes : ∀ value : Fin 256, (bitsOf (UInt8.ofNat value)).foldl push 0 = UInt8.ofNat value := by
    decide +kernel
  have hbyte := hbytes ⟨byte.toNat, byte.toNat_lt⟩
  rwa [UInt8.ofNat_toNat] at hbyte

theorem modify_middle {α : Type} (done after : List α) (value : α) (f : α → α) :
    (done ++ value :: after).modify done.length f = done ++ f value :: after := by
  induction done with
  | nil => rfl
  | cons first done ih =>
    rw [List.cons_append, List.length_cons, List.modify_succ_cons, ih, List.cons_append]

theorem shiftIn_append (done after : List UInt8) (group : List (Nat × Nat)) :
    ∀ (place : Nat) (value : UInt8) (more : List (Option Nat × Option Nat)),
      place + group.length ≤ 8 →
      shiftIn (8 * done.length + place) (done ++ value :: after)
          (group.map (fun (low, high) => (some low, some high)) ++ more) =
        shiftIn (8 * done.length + place + group.length)
          (done ++ (group.map longHigh).foldl push value :: after) more := by
  induction group with
  | nil => exact fun _ _ _ _ => rfl
  | cons pair group ih =>
    obtain ⟨low, high⟩ := pair
    intro place value more hplace
    rw [List.length_cons] at hplace
    have hindex : (8 * done.length + place) / 8 = done.length := by omega
    have hnext := ih (place + 1) (push value (longHigh (low, high))) more (by omega)
    have hpushed : (if high > low then (done ++ value <<< 1 :: after).modify done.length (· ||| 1)
        else done ++ value <<< 1 :: after) = done ++ push value (longHigh (low, high)) :: after := by
      unfold push longHigh
      by_cases hlong : low < high
      · rw [if_pos hlong, modify_middle, if_pos (by simpa using hlong)]
      · rw [if_neg hlong, if_neg (by simpa using hlong)]
    rw [List.map_cons, List.cons_append, shiftIn, hindex, modify_middle, hpushed, List.map_cons,
      List.foldl_cons, List.length_cons]
    have hend : 8 * done.length + place + (group.length + 1) =
        8 * done.length + (place + 1) + group.length := by omega
    rw [hend]
    exact hnext

theorem shiftIn_bytes (bytes : List UInt8) :
    ∀ (done : List UInt8) (cycles : List (Nat × Nat)), cycles.map longHigh = bytes.flatMap bitsOf →
      shiftIn (8 * done.length) (done ++ List.replicate bytes.length 0)
          (cycles.map fun (low, high) => (some low, some high)) = (true, done ++ bytes) := by
  induction bytes with
  | nil =>
    intro done cycles hcycles
    obtain rfl : cycles = [] := List.map_eq_nil_iff.mp hcycles
    rfl
  | cons byte bytes ih =>
    intro done cycles hcycles
    have hlength : (bitsOf byte).length = 8 := by simp [bitsOf]
    rw [List.flatMap_cons, ← List.take_append_drop 8 cycles, List.map_append] at hcycles
    have hlong : 8 ≤ cycles.length := by
      have hcount := congrArg List.length hcycles
      rw [List.length_append, List.length_append, List.length_map, List.length_map, hlength,
        List.length_take, List.length_drop] at hcount
      omega
    have htake : (cycles.take 8).length = 8 := by rw [List.length_take]; omega
    obtain ⟨hgroup, hmore⟩ := List.append_inj hcycles (by rw [List.length_map, htake, hlength])
    have hfirst := shiftIn_append done (List.replicate bytes.length 0) (cycles.take 8) 0 0
      ((cycles.drop 8).map fun (low, high) => (some low, some high)) (by omega)
    rw [← List.map_append, List.take_append_drop, htake, hgroup, foldl_push_bitsOf] at hfirst
    have hrest := ih (done ++ [byte]) (cycles.drop 8) hmore
    rw [List.length_append, List.length_singleton, List.append_assoc, List.append_assoc] at hrest
    exact hfirst.trans hrest

theorem bitsOf_foldl_push (bits : List Bool) (hlength : bits.length = 8) :
    bitsOf (bits.foldl push 0) = bits := by
  have height : ∀ b₀ b₁ b₂ b₃ b₄ b₅ b₆ b₇ : Bool,
      bitsOf ([b₀, b₁, b₂, b₃, b₄, b₅, b₆, b₇].foldl push 0) = [b₀, b₁, b₂, b₃, b₄, b₅, b₆, b₇] := by
    decide +kernel
  match bits, hlength with
  | [b₀, b₁, b₂, b₃, b₄, b₅, b₆, b₇], _ => exact height b₀ b₁ b₂ b₃ b₄ b₅ b₆ b₇

theorem exists_bytes (count : Nat) : ∀ bits : List Bool, bits.length = 8 * count →
    ∃ bytes : List UInt8, bytes.length = count ∧ bytes.flatMap bitsOf = bits := by
  induction count with
  | zero => exact fun bits hbits => ⟨[], rfl, (List.length_eq_zero_iff.mp hbits).symm⟩
  | succ count ih =>
    intro bits hbits
    obtain ⟨bytes, hcount, hbytes⟩ := ih (bits.drop 8) (by rw [List.length_drop]; omega)
    refine ⟨(bits.take 8).foldl push 0 :: bytes, congrArg (· + 1) hcount, ?_⟩
    rw [List.flatMap_cons, hbytes, bitsOf_foldl_push _ (by rw [List.length_take]; omega),
      List.take_append_drop]

theorem length_readCycles (bits : Nat) (line : Line) : (readCycles bits line).length = bits := by
  induction bits generalizing line with
  | zero => rfl
  | succ bits ih => exact congrArg (· + 1) (ih _)

theorem counted_of_shiftIn {cycles : List (Option Nat × Option Nat)} :
    ∀ {i : Nat} {data bytes : List UInt8}, shiftIn i data cycles = (true, bytes) →
      ∃ counted : List (Nat × Nat), cycles = counted.map fun (low, high) => (some low, some high) := by
  induction cycles with
  | nil => exact fun _ => ⟨[], rfl⟩
  | cons pair cycles ih =>
    intro i data bytes hshift
    match pair, hshift with
    | (some low, some high), hshift =>
      obtain ⟨counted, hcounted⟩ := ih hshift
      exact ⟨(low, high) :: counted, congrArg _ hcounted⟩
    | (none, _), hshift => exact absurd (congrArg Prod.fst hshift) Bool.false_ne_true
    | (some _, none), hshift => exact absurd (congrArg Prod.fst hshift) Bool.false_ne_true

/-- The bits are read exactly when the line shows them. -/
theorem shiftIn_readCycles_iff {line : Line} {bytes : List UInt8} :
    shiftIn 0 (List.replicate 5 0) (readCycles 40 line) = (true, bytes) ↔
      bytes.length = 5 ∧ ∃ cycles : List (Nat × Nat), cycles.map longHigh = bytes.flatMap bitsOf ∧
        Shows maxCycles false (cycles.flatMap fun (low, high) => [low, high]) line := by
  have hlengths : ∀ some : List UInt8, (some.flatMap bitsOf).length = 8 * some.length := by
    intro some
    induction some with
    | nil => rfl
    | cons byte some ih =>
      rw [List.flatMap_cons, List.length_append, ih, List.length_cons]
      simp only [bitsOf, List.length_map, List.length_range]
      omega
  constructor
  · intro hshift
    obtain ⟨cycles, hcycles⟩ := counted_of_shiftIn hshift
    have hcount : cycles.length = 40 := by
      have hlength := congrArg List.length hcycles
      rwa [length_readCycles, List.length_map, eq_comm] at hlength
    obtain ⟨shown, hshown, hbits⟩ := exists_bytes 5 (cycles.map longHigh) (by rw [List.length_map, hcount])
    have hshifted := shiftIn_bytes shown [] cycles hbits.symm
    rw [hshown] at hshifted
    have hsame : (true, shown) = (true, bytes) := by
      rw [← hshift, hcycles]
      exact hshifted.symm
    obtain rfl := (Prod.mk.inj hsame).2
    refine ⟨hshown, cycles, hbits.symm, readCycles_iff.mp ?_⟩
    rw [hcount]
    exact hcycles
  · rintro ⟨hlength, cycles, hbits, hshows⟩
    have hcount : cycles.length = 40 := by
      have hbitCount := congrArg List.length hbits
      rwa [List.length_map, hlengths, hlength] at hbitCount
    have hread := readCycles_iff.mpr hshows
    rw [hcount] at hread
    have hshifted := shiftIn_bytes bytes [] cycles hbits
    rw [hlength] at hshifted
    rw [hread]
    exact hshifted

/-- A transaction succeeds with exactly the bytes that the line shows, when the
checksum holds of them. -/
theorem transact_iff {line : Line} {bytes : List UInt8} :
    transact line = (true, bytes) ↔ Transmits line bytes ∧ checksumHolds bytes = true := by
  have htransmits : Transmits line bytes ↔ ∃ first second rest last,
      expectPulse false line = (some first, rest) ∧ expectPulse true rest = (some second, last) ∧
        shiftIn 0 (List.replicate 5 0) (readCycles 40 last) = (true, bytes) := by
    simp only [Transmits, shows_cons, shiftIn_readCycles_iff, Bool.not_false, Bool.not_true]
    constructor
    · rintro ⟨hlength, first, second, cycles, hbits, rest, hfirst, last, hsecond, hshows⟩
      exact ⟨first, second, rest, last, hfirst, hsecond, hlength, cycles, hbits, hshows⟩
    · rintro ⟨first, second, rest, last, hfirst, hsecond, hlength, cycles, hbits, hshows⟩
      exact ⟨hlength, first, second, cycles, hbits, rest, hfirst, last, hsecond, hshows⟩
  rw [htransmits, transact]
  constructor
  · intro htransact
    split at htransact
    · exact absurd (congrArg Prod.fst htransact) Bool.false_ne_true
    · rename_i first rest hfirst
      split at htransact
      · exact absurd (congrArg Prod.fst htransact) Bool.false_ne_true
      · rename_i second last hsecond
        split at htransact
        · exact absurd (congrArg Prod.fst htransact) Bool.false_ne_true
        · rename_i data hshift
          obtain ⟨hchecksum, rfl⟩ := Prod.mk.inj htransact
          exact ⟨⟨first, second, rest, last, hfirst, hsecond, hshift⟩, hchecksum⟩
  · rintro ⟨⟨first, second, rest, last, hfirst, hsecond, hshift⟩, hchecksum⟩
    rw [hfirst]
    dsimp only
    rw [hsecond]
    dsimp only
    rw [hshift]
    dsimp only
    rw [hchecksum]

/-! Runs of the sensor. -/

/-- A read of the sensor: its time, and the line of a transaction that it makes. -/
abbrev Look := Nat × Line

/-- The sensor after some reads. -/
def Dht.reads (dht : Dht) (looks : List Look) : Dht :=
  looks.foldl (fun dht (time, line) => (dht.read (millis time) line).2) dht

/-- The reads among them that make a transaction. -/
def Dht.transactions (dht : Dht) : List Look → List Look
  | [] => []
  | (time, line) :: looks =>
    let rest := (dht.read (millis time) line).2.transactions looks
    if millis time - dht.lastReadTime < minInterval then rest else (time, line) :: rest

/-- The time of the last read. -/
def latest (boot : Nat) (looks : List Look) : Nat := (looks.map Prod.fst).getLastD boot

theorem reads_cons (dht : Dht) (time : Nat) (line : Line) (looks : List Look) :
    dht.reads ((time, line) :: looks) = (dht.read (millis time) line).2.reads looks := rfl

theorem latest_cons (boot time : Nat) (line : Line) (looks : List Look) :
    latest boot ((time, line) :: looks) = latest time looks := List.getLastD_cons ..

/-- The clock does not come round between one read and the next. -/
def Spaced (boot : Nat) : List Look → Prop
  | [] => True
  | (time, _) :: looks => boot ≤ time ∧ time + minInterval.toNat < boot + 2 ^ 32 ∧ Spaced time looks

/-- Transactions that are two seconds apart at least. -/
def Apart : List Look → Prop :=
  List.IsChain fun earlier later => earlier.1 + minInterval.toNat ≤ later.1

/-- The last of some reads was answered from the transaction `taken`. -/
structure Answers (taken : Look) (time : Nat) (dht : Dht) : Prop where
  since : dht.lastReadTime = millis taken.1
  outcome : (dht.lastResult, dht.data) = transact taken.2
  before : taken.1 ≤ time
  recent : time < taken.1 + minInterval.toNat

theorem answers_of_due {time : Nat} {line : Line} {dht : Dht}
    (hdue : ¬millis time - dht.lastReadTime < minInterval) :
    Answers (time, line) time (dht.read (millis time) line).2 := by
  have hread : (dht.read (millis time) line).2 =
      ⟨(transact line).2, millis time, (transact line).1⟩ := by
    unfold Dht.read
    rw [if_neg hdue]
  rw [hread]
  exact ⟨rfl, rfl, Nat.le_refl time, Nat.lt_add_of_pos_right (by decide)⟩

theorem read_of_recent {now : UInt32} {line : Line} {dht : Dht}
    (hrecent : now - dht.lastReadTime < minInterval) :
    dht.read now line = (dht.lastResult, dht) := by
  unfold Dht.read
  rw [if_pos hrecent]

theorem Answers.recent_iff {taken : Look} {time now : Nat} {dht : Dht}
    (h : Answers taken time dht) (hle : time ≤ now)
    (hround : now + minInterval.toNat < time + 2 ^ 32) :
    millis now - dht.lastReadTime < minInterval ↔ now < taken.1 + minInterval.toNat := by
  have hbefore := h.before
  have hrecent := h.recent
  rw [h.since, millis_sub_lt_iff (by omega) (by omega)]

/-- The run lemma, from a read that was answered from `taken`. -/
theorem Answers.reads {looks : List Look} : ∀ {taken : Look} {time : Nat} {dht : Dht},
    Answers taken time dht → Spaced time looks →
      Apart (taken :: dht.transactions looks) ∧
        Answers ((dht.transactions looks).getLastD taken) (latest time looks) (dht.reads looks) := by
  induction looks with
  | nil => exact fun h _ => ⟨List.IsChain.singleton _, h⟩
  | cons look looks ih =>
    obtain ⟨now, line⟩ := look
    rintro taken time dht h ⟨hle, hround, hspaced⟩
    have hrecent := h.recent_iff hle hround
    rw [Dht.transactions]
    by_cases hnow : millis now - dht.lastReadTime < minInterval
    · rw [if_pos hnow, read_of_recent hnow]
      have hnext : Answers taken now dht := ⟨h.since, h.outcome, Nat.le_trans h.before hle, hrecent.mp hnow⟩
      obtain ⟨hapart, hlast⟩ := ih hnext hspaced
      refine ⟨hapart, ?_⟩
      rw [latest_cons, reads_cons, read_of_recent hnow]
      exact hlast
    · rw [if_neg hnow]
      have htaken : Answers (now, line) now (dht.read (millis now) line).2 := answers_of_due hnow
      obtain ⟨hapart, hlast⟩ := ih htaken hspaced
      refine ⟨.cons_cons (Nat.le_of_not_lt (mt hrecent.mpr hnow)) hapart, ?_⟩
      rw [List.getLastD_cons, latest_cons, reads_cons]
      exact hlast

theorem reads_construct {boot : Nat} {looks : List Look} (hspaced : Spaced boot looks)
    (hsome : looks ≠ []) :
    let dht := construct (millis boot)
    Apart (dht.transactions looks) ∧
      ∃ taken ∈ dht.transactions looks, Answers taken (latest boot looks) (dht.reads looks) := by
  intro dht
  match looks, hsome with
  | (now, line) :: looks, _ =>
    obtain ⟨hle, hround, hspaced⟩ := hspaced
    have hdue : ¬millis now - dht.lastReadTime < minInterval := by
      have hinterval : minInterval.toNat = 2000 := rfl
      have hsince : dht.lastReadTime = millis boot - minInterval := rfl
      rw [hsince, UInt32.lt_iff_toNat_lt, UInt32.toNat_sub, UInt32.toNat_sub, toNat_millis,
        toNat_millis, hinterval]
      omega
    have htaken : Answers (now, line) now (dht.read (millis now) line).2 := answers_of_due hdue
    obtain ⟨hapart, hlast⟩ := htaken.reads hspaced
    have htransactions : dht.transactions ((now, line) :: looks) =
        (now, line) :: (dht.read (millis now) line).2.transactions looks := by
      rw [Dht.transactions, if_neg hdue]
    rw [htransactions, latest_cons, reads_cons]
    exact ⟨hapart, _, List.getLastD_mem_cons .., hlast⟩

theorem transactions_append {more looks : List Look} {dht : Dht} :
    dht.transactions (looks ++ more) =
      dht.transactions looks ++ (dht.reads looks).transactions more := by
  induction looks generalizing dht with
  | nil => rfl
  | cons look looks ih =>
    obtain ⟨time, line⟩ := look
    rw [List.cons_append, Dht.transactions, Dht.transactions, ih, reads_cons]
    split
    · rfl
    · rfl

theorem Spaced.left {more looks : List Look} {boot : Nat} (h : Spaced boot (looks ++ more)) :
    Spaced boot looks := by
  induction looks generalizing boot with
  | nil => trivial
  | cons look looks ih => exact ⟨h.1, h.2.1, ih h.2.2⟩

/-! The answers of the requests. -/

theorem Dht.tell_eq {α : Type} (tell : List UInt8 → α) (now : UInt32) (line : Line) (dht : Dht) :
    let next := (dht.read now line).2
    dht.tell tell now line = (if next.lastResult then some (tell next.data) else none, next) := by
  have hresult : (dht.read now line).1 = (dht.read now line).2.lastResult := by
    unfold Dht.read
    split
    · rfl
    · rfl
  unfold Dht.tell
  generalize dht.read now line = answer at hresult ⊢
  obtain ⟨result, next⟩ := answer
  dsimp only at hresult ⊢
  rw [← hresult]
  cases result with
  | false => rfl
  | true => rfl

/-- The line showed bytes whose checksum holds, and of which `value` is told. -/
def Tells {α : Type} (tell : List UInt8 → α) (line : Line) (value : α) : Prop :=
  ∃ bytes, Transmits line bytes ∧ checksumHolds bytes = true ∧ tell bytes = value

theorem Answers.tells_iff {α : Type} {taken : Look} {time : Nat} {dht : Dht} {value : α}
    (h : Answers taken time dht) (tell : List UInt8 → α) :
    Tells tell taken.2 value ↔
      (if dht.lastResult then some (tell dht.data) else none) = some value := by
  have houtcome := h.outcome
  rw [Option.ite_none_right_eq_some, Option.some.injEq]
  constructor
  · rintro ⟨bytes, htransmits, hchecksum, hvalue⟩
    rw [transact_iff.mpr ⟨htransmits, hchecksum⟩] at houtcome
    obtain ⟨hresult, hdata⟩ := Prod.mk.inj houtcome
    exact ⟨hresult, hdata ▸ hvalue⟩
  · rintro ⟨hresult, hvalue⟩
    rw [hresult] at houtcome
    obtain ⟨htransmits, hchecksum⟩ := transact_iff.mp houtcome.symm
    exact ⟨dht.data, htransmits, hchecksum, hvalue⟩

theorem onGetTempAndHumid_iff {first second : Look} {dht : Dht} {answer : Int × Nat} :
    (onGetTempAndHumid (millis first.1, first.2) (millis second.1, second.2) dht).1 = some answer ↔
      (if (dht.reads [first]).lastResult then some (temperature (dht.reads [first]).data)
        else none) = some answer.1 ∧
      (if (dht.reads [first, second]).lastResult
        then some (humidity (dht.reads [first, second]).data) else none) = some answer.2 := by
  unfold onGetTempAndHumid Dht.readTemperature Dht.readHumidity
  rw [Dht.tell_eq]
  dsimp only
  rw [Dht.tell_eq]
  have honce : (dht.read (millis first.1) first.2).2 = dht.reads [first] := rfl
  have htwice : ((dht.reads [first]).read (millis second.1) second.2).2 =
      dht.reads [first, second] := rfl
  rw [honce]
  dsimp only
  rw [htwice]
  generalize (if (dht.reads [first]).lastResult then _ else none : Option Int) = t
  generalize (if (dht.reads [first, second]).lastResult then _ else none : Option Nat) = h
  cases t with
  | none => simp
  | some t =>
    cases h with
    | none => simp
    | some h => simp [Prod.ext_iff]

/-- A request is answered with what the line told in transactions of the last two
seconds, and these are two seconds apart; it fails when one of them did not
show five bytes whose checksum holds. -/
theorem temperature_and_humidity {boot : Nat} {looks : List Look} {first second : Look}
    (hspaced : Spaced boot (looks ++ [first, second])) :
    let dht := construct (millis boot)
    let transactions := dht.transactions (looks ++ [first, second])
    Apart transactions ∧ ∃ shown ∈ transactions, ∃ next ∈ transactions,
      (shown.1 ≤ first.1 ∧ first.1 < shown.1 + minInterval.toNat) ∧
      (next.1 ≤ second.1 ∧ second.1 < next.1 + minInterval.toNat) ∧
      ∀ answer, (onGetTempAndHumid (millis first.1, first.2) (millis second.1, second.2)
          (dht.reads looks)).1 = some answer ↔
        Tells temperature shown.2 answer.1 ∧ Tells humidity next.2 answer.2 := by
  intro dht transactions
  have hsplit : looks ++ [first, second] = looks ++ [first] ++ [second] := by
    rw [List.append_assoc, List.singleton_append]
  have honce : dht.reads (looks ++ [first]) = (dht.reads looks).reads [first] := List.foldl_append
  have htwice : dht.reads (looks ++ [first, second]) = (dht.reads looks).reads [first, second] :=
    List.foldl_append
  obtain ⟨hapart, next, hnext, hsecond⟩ := reads_construct hspaced (by simp)
  obtain ⟨-, shown, hshown, hfirst⟩ := reads_construct (hsplit ▸ hspaced).left (by simp)
  have hlatest : ∀ some : List Look, ∀ look, latest boot (some ++ [look]) = look.1 := by
    intro some look
    rw [latest, List.map_append, List.map_singleton, List.getLastD_concat]
  rw [hlatest, honce] at hfirst
  rw [htwice, hsplit, hlatest] at hsecond
  refine ⟨hapart, shown, ?_, next, hnext, ⟨hfirst.before, hfirst.recent⟩,
    ⟨hsecond.before, hsecond.recent⟩, fun answer => ?_⟩
  · unfold transactions
    rw [hsplit, transactions_append]
    exact List.mem_append_left _ hshown
  · rw [onGetTempAndHumid_iff, hfirst.tells_iff, hsecond.tells_iff]

/-- The line of pulses that last for so many looks. -/
def lineOf (level : Bool) : List Nat → List Bool
  | [] => []
  | count :: counts => List.replicate count level ++ (!level) :: lineOf (!level) counts

/-- A line that tells of 23.4 degrees and of 45 percent. -/
def mildLine : Line :=
  let cycles := ([45, 0, 23, 4, 72].flatMap bitsOf).flatMap fun bit => [2, if bit then 3 else 1]
  fun look => (lineOf false (4 :: 4 :: cycles)).getD look true

/-- Two requests after the start, the second one within the two seconds. -/
theorem temperature_and_humidity_mild :
    let dht := construct (millis 0)
    let looks := [(3, mildLine), (24, fun _ => true)]
    let first := (1000, fun _ => false)
    let second := (1000, fun _ => false)
    let transactions := dht.transactions (looks ++ [first, second])
    (onGetTempAndHumid (millis 1000, fun _ => false) (millis 1000, fun _ => false)
        (dht.reads looks)).1 = some (234, 450) ∧
      Apart transactions ∧ ∃ shown ∈ transactions, ∃ next ∈ transactions,
        (shown.1 ≤ first.1 ∧ first.1 < shown.1 + minInterval.toNat) ∧
        (next.1 ≤ second.1 ∧ second.1 < next.1 + minInterval.toNat) ∧
        ∀ answer, (onGetTempAndHumid (millis first.1, first.2) (millis second.1, second.2)
            (dht.reads looks)).1 = some answer ↔
          Tells temperature shown.2 answer.1 ∧ Tells humidity next.2 answer.2 := by
  intro dht looks first second transactions
  refine ⟨by decide +kernel, ?_⟩
  have hspaced : Spaced 0 (looks ++ [first, second]) := by
    refine ⟨?_, ?_, ?_, ?_, ?_, ?_, ?_, ?_, trivial⟩ <;> decide
  exact temperature_and_humidity hspaced

end VacuumCleaner.A1.Dht11
