import VacuumCleaner.Link.Telemetry
import VacuumCleaner.Core.ButtonLatches
import Mathlib.Data.List.Induction

/-! What a sensor line does to the snapshot, whatever entries it is made of and
in whatever order they stand. -/
namespace VacuumCleaner.Link.TelemetryOrder

open Lib Lib.CText A1.Telemetry Core.Models Core.Models.A1Data Core.Reception Core.ButtonLatches
  Telemetry

/-- An entry as `add_sensor_output` appends it. -/
def entryText (id value : Nat) : List Char := decimal id ++ ':' :: (decimal value ++ [';'])

def lineOf (entries : List (Nat × Nat)) : List Char :=
  resetSensorsOutputBuffer ++ entries.flatMap fun (id, value) => entryText id value

/-! The pattern finds an entry at the last digit of its id. -/

theorem findEntries_digits (py : Runtime) {digits : List Char} {c : Char} {rest : List Char}
    (hdigits : ∀ digit ∈ digits, digit ≠ ':') (hc : c ≠ ':') :
    findEntries py 0 (digits ++ c :: rest) = findEntries py 0 (c :: rest) := by
  induction digits with
  | nil => rfl
  | cons digit digits ih =>
    have hrest := ih fun other hother => hdigits other (List.mem_cons_of_mem digit hother)
    have hnone : matchEntry py (digit :: (digits ++ c :: rest)) = none := by
      cases digits with
      | nil =>
        unfold matchEntry
        split
        · rename_i heq
          simp only [List.nil_append, List.cons.injEq] at heq
          exact absurd heq.2.1 hc
        · rfl
      | cons second digits =>
        unfold matchEntry
        split
        · rename_i heq
          simp only [List.cons_append, List.cons.injEq] at heq
          exact absurd heq.2.1 (hdigits second (by simp))
        · rfl
    rw [List.cons_append, findEntries, hnone]
    exact hrest

theorem decimal_eq_concat (id : Nat) :
    ∃ digits, decimal id = digits ++ [(id % 10).digitChar] ∧ ∀ digit ∈ digits, digit ≠ ':' := by
  obtain hlt | hle := Nat.lt_or_ge id 10
  · refine ⟨[], ?_, by simp⟩
    rw [decimal, Nat.toDigits_of_lt_base hlt, Nat.mod_eq_of_lt hlt, List.nil_append]
  · refine ⟨Nat.toDigits 10 (id / 10), Nat.toDigits_of_base_le (by decide) hle, ?_⟩
    rintro digit hdigit rfl
    have hcolon := Nat.isDigit_of_mem_toDigits (by decide) (by decide) hdigit
    exact absurd hcolon (by decide)

theorem findEntries_entryText (py : Runtime) (id value : Nat) (rest : List Char) :
    findEntries py 0 (entryText id value ++ rest) =
      ⟨id % 10, decimal value⟩ :: findEntries py 0 rest := by
  obtain ⟨digits, hdecimal, hdigits⟩ := decimal_eq_concat id
  have hlt : id % 10 < 10 := Nat.mod_lt _ (by decide)
  have hcolon : (id % 10).digitChar ≠ ':' := by
    generalize id % 10 = digit at hlt
    interval_cases digit <;> decide
  have htext : entryText id value ++ rest =
      digits ++ (id % 10).digitChar :: (':' :: (decimal value ++ ';' :: rest)) := by
    simp [entryText, hdecimal]
  have hskip : ':' :: (decimal value ++ ';' :: rest) = (':' :: decimal value ++ [';']) ++ rest := by
    simp
  have hlength : (decimal value).length + 3 - 1 = (':' :: decimal value ++ [';']).length := by
    simp
  rw [htext, findEntries_digits py hdigits hcolon, findEntries, matchEntry_digit py hlt]
  dsimp only
  rw [hlength, hskip, findEntries_skip]

theorem findEntries_lineOf (py : Runtime) (entries : List (Nat × Nat)) :
    findEntries py 0 (lineOf entries) =
      entries.map fun (id, value) => ⟨id % 10, decimal value⟩ := by
  rw [lineOf, resetSensorsOutputBuffer, List.singleton_append, findEntries_at]
  induction entries with
  | nil => rfl
  | cons entry entries ih => rw [List.flatMap_cons, findEntries_entryText, ih, List.map_cons]

/-! The fields of each sensor. -/

/-- The fields that belong to a sensor, the others cleared. -/
def part (sensorId : Nat) (data : A1Data) : A1Data :=
  match sensorId with
  | 0x1 =>
    { buttonUpClick := data.buttonUpClick, buttonOkClick := data.buttonOkClick
      buttonDownClick := data.buttonDownClick, bluetoothButtonClick := data.bluetoothButtonClick }
  | 0x2 =>
    { endRightTrig := data.endRightTrig, endLeftTrig := data.endLeftTrig
      dustBoxPresent := data.dustBoxPresent, lidIsClosed := data.lidIsClosed }
  | 0x3 =>
    { rangefinderLeftValue := data.rangefinderLeftValue
      rangefinderCenterValue := data.rangefinderCenterValue
      rangefinderRightValue := data.rangefinderRightValue }
  | 0x4 =>
    { backLeftCliffBreakage := data.backLeftCliffBreakage
      backCenterCliffBreakage := data.backCenterCliffBreakage
      backRightCliffBreakage := data.backRightCliffBreakage
      frontLeftCliffBreakage := data.frontLeftCliffBreakage
      frontCenterCliffBreakage := data.frontCenterCliffBreakage
      frontRightCliffBreakage := data.frontRightCliffBreakage }
  | 0x5 =>
    { isShutDownButtonTriggered := data.isShutDownButtonTriggered
      chargingState := data.chargingState }
  | 0x6 => { batteryVoltage := data.batteryVoltage, batteryCapacity := data.batteryCapacity }
  | 0x7 => { rightWheelSpeed := data.rightWheelSpeed, leftWheelSpeed := data.leftWheelSpeed }
  | _ => {}

def isKnown (sensorId : Nat) : Bool := 1 ≤ sensorId && sensorId ≤ 7

theorem eq_of_parts {left right : A1Data}
    (h : ∀ sensorId, isKnown sensorId → part sensorId left = part sensorId right) :
    left = right := by
  have h1 := h 1 rfl
  have h2 := h 2 rfl
  have h3 := h 3 rfl
  have h4 := h 4 rfl
  have h5 := h 5 rfl
  have h6 := h 6 rfl
  have h7 := h 7 rfl
  simp only [part, A1Data.mk.injEq, true_and, and_true] at h1 h2 h3 h4 h5 h6 h7
  obtain ⟨_, _, _, _⟩ := h1
  cases left
  cases right
  simp only [A1Data.mk.injEq]
  tauto

theorem part_one_eq {left right : A1Data} (h : ∀ button, left.click button = right.click button) :
    part 1 left = part 1 right := by
  have hup := h .up
  have hok := h .ok
  have hdown := h .down
  have hbluetooth := h .bluetooth
  simp only [A1Data.click] at hup hok hdown hbluetooth
  simp [part, hup, hok, hdown, hbluetooth]

theorem part_setClick (data : A1Data) (state : ButtonState) (button : Button) {sensorId : Nat}
    (h : sensorId ≠ 1) : part sensorId (data.setClick state button) = part sensorId data := by
  unfold part
  split
  · exact absurd rfl h
  all_goals cases button <;> rfl

theorem part_refreshButton {button : Button} {value sensorId : Nat} {data next : A1Data}
    (hother : sensorId ≠ 1) (h : refreshButton button value data = .ok next) :
    part sensorId next = part sensorId data := by
  unfold refreshButton at h
  split at h
  · split at h
    · cases h
      exact part_setClick data _ button hother
    · cases h
  · cases h
    rfl

theorem part_parser_of_ne {sensorId other value : Nat} {data next : A1Data}
    (hne : other ≠ sensorId) (h : parser sensorId value data = .ok next) :
    part other next = part other data := by
  unfold parser at h
  split at h
  · unfold parseAndSetButtonsState at h
    obtain ⟨d₁, h₁, h⟩ := bind_ok h
    obtain ⟨d₂, h₂, h⟩ := bind_ok h
    obtain ⟨d₃, h₃, h⟩ := bind_ok h
    rw [part_refreshButton hne h, part_refreshButton hne h₃, part_refreshButton hne h₂,
      part_refreshButton hne h₁]
  case h_5 =>
    unfold parsePowerControllerStates at h
    split at h <;> cases h
    unfold part
    split <;> first | rfl | exact absurd rfl hne
  all_goals
    cases h
    unfold part
    split <;> first | rfl | exact absurd rfl hne

theorem part_parser_self {sensorId value : Nat} {data other next otherNext : A1Data}
    (hbuttons : sensorId ≠ 1) (h : parser sensorId value data = .ok next)
    (hother : parser sensorId value other = .ok otherNext) :
    part sensorId next = part sensorId otherNext := by
  unfold parser at h hother
  split at h
  · exact absurd rfl hbuttons
  case h_5 =>
    unfold parsePowerControllerStates at h hother
    dsimp only at h hother
    split at h
    · rename_i hstate
      rw [hstate] at hother
      cases h
      cases hother
      rfl
    · cases h
  case h_8 =>
    unfold part
    split <;> first | rfl | simp_all
  all_goals
    cases h
    cases hother
    rfl

/-- The parsers, called with entries in their order. -/
def parseAll (data : A1Data) : List (Nat × Nat) → Refresh
  | [] => .ok data
  | (sensorId, value) :: entries => do
    let data ← parser sensorId value data
    parseAll data entries

/-- `int` converts the value, and its parser knows what it stands for. -/
structure EntryValid (py : Runtime) (entry : Nat × Nat) : Prop where
  numeral : py.maxStrDigits = 0 ∨ (decimal entry.2).length ≤ py.maxStrDigits
  buttons : entry.1 = 1 → ∀ button : Button, button.code entry.2 ≠ 2
  charging : entry.1 = 5 → chargingCode entry.2 ≠ 3

def EntriesValid (py : Runtime) (entries : List (Nat × Nat)) : Prop :=
  ∀ entry ∈ entries, EntryValid py entry

theorem parseAll_append (data : A1Data) (early late : List (Nat × Nat)) :
    parseAll data (early ++ late) = (parseAll data early).bind fun next => parseAll next late := by
  induction early generalizing data with
  | nil => rfl
  | cons entry early ih =>
    obtain ⟨sensorId, value⟩ := entry
    rw [List.cons_append, parseAll, parseAll]
    cases parser sensorId value data with
    | error raised => rfl
    | ok next => exact ih next

/-- The core calls the parser of the last digit of each id. -/
theorem parseAndRefresh_lineOf {py : Runtime} {entries : List (Nat × Nat)}
    (hnumerals : ∀ entry ∈ entries, EntryValid py entry) (data : A1Data) :
    parseAndRefresh py (lineOf entries) data =
      parseAll data (entries.map fun (id, value) => (id % 10, value)) := by
  rw [parseAndRefresh, findEntries_lineOf]
  induction entries generalizing data with
  | nil => rfl
  | cons entry entries ih =>
    have hvalue : Entry.value py ⟨entry.1 % 10, decimal entry.2⟩ = .ok entry.2 :=
      (value_eq_ok_iff py _ _).mpr
        ⟨(hnumerals entry List.mem_cons_self).numeral, decimalValue_decimal py entry.2⟩
    have hrest := fun next => ih (fun other hother =>
      hnumerals other (List.mem_cons_of_mem entry hother)) next
    simp only [List.map_cons, refreshEntries, parseAll, refreshEntry, hvalue]
    cases parser (entry.1 % 10) entry.2 data with
    | error raised => rfl
    | ok next => exact hrest next

/-- The id is not taken for that of another sensor. -/
def isRead (id : Nat) : Bool := id < 10 || !isKnown (id % 10)

theorem parser_unknown {sensorId value : Nat} (h : isKnown sensorId = false) (data : A1Data) :
    parser sensorId value data = .ok data := by
  unfold parser
  split <;> first | rfl | cases h

theorem parser_mod {id : Nat} (h : isRead id = true) (value : Nat) (data : A1Data) :
    parser (id % 10) value data = parser id value data := by
  by_cases hlt : id < 10
  · rw [Nat.mod_eq_of_lt hlt]
  · have hunknown : isKnown (id % 10) = false := by simpa [isRead, hlt] using h
    have hlarge : isKnown id = false := by
      simp [isKnown]
      omega
    rw [parser_unknown hunknown, parser_unknown hlarge]

theorem parseAll_mod {entries : List (Nat × Nat)} (h : ∀ entry ∈ entries, isRead entry.1 = true)
    (data : A1Data) :
    parseAll data (entries.map fun (id, value) => (id % 10, value)) = parseAll data entries := by
  induction entries generalizing data with
  | nil => rfl
  | cons entry entries ih =>
    have hrest := fun next =>
      ih (fun other hother => h other (List.mem_cons_of_mem entry hother)) next
    simp only [List.map_cons, parseAll, parser_mod (h entry List.mem_cons_self)]
    cases parser entry.1 entry.2 data with
    | error raised => rfl
    | ok next => exact hrest next

/-- The clicks of a button, in the order of the entries. -/
def clicksOf (button : Button) (entries : List (Nat × Nat)) : List ButtonState :=
  (entries.filter (·.1 = 1)).filterMap fun (_, value) => clickOf (button.code value)

/-- What a list of entries makes of a snapshot. -/
structure Outcome (data : A1Data) (entries : List (Nat × Nat)) (next : A1Data) : Prop where
  absent : ∀ sensorId, (∀ entry ∈ entries, entry.1 ≠ sensorId) →
    part sensorId next = part sensorId data
  last : ∀ sensorId value written, sensorId ≠ 1 →
    (entries.filter (·.1 = sensorId)).getLast? = some (sensorId, value) →
    parser sensorId value data = .ok written → part sensorId next = part sensorId written
  latches : ∀ button, next.click button =
    if data.click button = .nothing then ((clicksOf button entries).head?).getD .nothing
    else data.click button

theorem parser_returns {py : Runtime} {entry : Nat × Nat} (h : EntryValid py entry)
    (data : A1Data) : ∃ next, parser entry.1 entry.2 data = .ok next :=
  (parser_ok_iff _ _ _).mpr ⟨fun hsensor button _ => h.buttons hsensor button, h.charging⟩

theorem latchAfter_of_full {state : ButtonState} (h : state ≠ .nothing) (code : Nat) :
    latchAfter state code = state := if_neg h

theorem latchAfter_nothing (code : Nat) :
    latchAfter .nothing code = (clickOf code).getD .nothing := by
  unfold latchAfter clickOf
  rw [if_pos rfl]
  split <;> simp_all

theorem clickOf_ne_nothing {code : Nat} {state : ButtonState} (h : clickOf code = some state) :
    state ≠ .nothing := by
  unfold clickOf at h
  split at h <;> cases h <;> simp

theorem ne_nothing_of_mem_clicksOf {button : Button} {entries : List (Nat × Nat)}
    {state : ButtonState} (h : state ∈ clicksOf button entries) : state ≠ .nothing := by
  obtain ⟨_, -, hclick⟩ := List.mem_filterMap.mp h
  exact clickOf_ne_nothing hclick

theorem clicksOf_concat (button : Button) (entries : List (Nat × Nat)) (entry : Nat × Nat) :
    clicksOf button (entries ++ [entry]) = clicksOf button entries ++
      if entry.1 = 1 then (clickOf (button.code entry.2)).toList else [] := by
  unfold clicksOf
  rw [List.filter_append, List.filterMap_append]
  congr 1
  by_cases hsensor : entry.1 = 1
  · cases hclick : clickOf (button.code entry.2) <;> simp [hsensor, hclick]
  · simp [hsensor]

theorem Outcome.concat {data next final : A1Data} {entries : List (Nat × Nat)} {entry : Nat × Nat}
    (h : Outcome data entries next) (hfinal : parser entry.1 entry.2 next = .ok final) :
    Outcome data (entries ++ [entry]) final where
  absent sensorId habsent := by
    have hne := habsent entry (by simp)
    rw [part_parser_of_ne hne.symm hfinal]
    exact h.absent sensorId fun other hother => habsent other (List.mem_append_left _ hother)
  last sensorId value written hbuttons hlast hwritten := by
    by_cases hsensor : entry.1 = sensorId
    · have hentry : entry = (sensorId, value) := by
        simpa [List.filter_append, hsensor] using hlast
      rw [hentry] at hfinal
      exact part_parser_self hbuttons hfinal hwritten
    · rw [part_parser_of_ne (Ne.symm hsensor) hfinal]
      apply h.last sensorId value written hbuttons _ hwritten
      simpa [List.filter_append, hsensor] using hlast
  latches button := by
    have hlatch := h.latches button
    rw [click_of_parsing hfinal button, clicksOf_concat]
    by_cases hnothing : data.click button = .nothing
    · rw [if_pos hnothing] at hlatch ⊢
      rw [hlatch, List.head?_append]
      cases hhead : (clicksOf button entries).head? with
      | none =>
        rw [Option.getD_none, latchAfter_nothing, Option.none_or]
        split
        · cases clickOf (button.code entry.2) <;> rfl
        · rfl
      | some state =>
        have hfull := ne_nothing_of_mem_clicksOf (List.mem_of_mem_head? hhead)
        rw [Option.getD_some, latchAfter_of_full hfull, ite_self]
        rfl
    · rw [if_neg hnothing] at hlatch ⊢
      rw [hlatch, latchAfter_of_full hnothing, ite_self]

theorem exists_outcome {py : Runtime} {entries : List (Nat × Nat)}
    (hvalid : EntriesValid py entries) (data : A1Data) :
    ∃ next, parseAll data entries = .ok next ∧ Outcome data entries next := by
  induction entries using List.reverseRecOn with
  | nil =>
    refine ⟨data, rfl, fun _ _ => rfl, by simp, fun button => ?_⟩
    split
    · rename_i hnothing
      exact hnothing
    · rfl
  | append_singleton entries entry ih =>
    obtain ⟨next, hnext, houtcome⟩ := ih fun other hother =>
      hvalid other (List.mem_append_left _ hother)
    obtain ⟨final, hfinal⟩ := parser_returns (hvalid entry (by simp)) next
    refine ⟨final, ?_, houtcome.concat hfinal⟩
    rw [parseAll_append, hnext]
    change parseAll next [entry] = .ok final
    rw [parseAll, hfinal]
    rfl

theorem outcome_unique {py : Runtime} {data left right : A1Data}
    {entries others : List (Nat × Nat)} (hvalid : EntriesValid py entries)
    (hleft : Outcome data entries left) (hright : Outcome data others right)
    (hsame : ∀ id, isKnown id → others.filter (·.1 = id) = entries.filter (·.1 = id)) :
    left = right := by
  apply eq_of_parts
  intro sensorId hknown
  by_cases hbuttons : sensorId = 1
  · subst hbuttons
    apply part_one_eq
    intro button
    rw [hleft.latches, hright.latches, clicksOf, clicksOf, hsame 1 hknown]
  · cases hlast : (entries.filter (·.1 = sensorId)).getLast? with
    | none =>
      have hnone : entries.filter (·.1 = sensorId) = [] := List.getLast?_eq_none_iff.mp hlast
      have hnone' := (hsame sensorId hknown).trans hnone
      rw [hleft.absent sensorId (by simpa using hnone),
        hright.absent sensorId (by simpa using hnone')]
    | some entry =>
      obtain ⟨hmember, hsensor⟩ := List.mem_filter.mp (List.mem_of_getLast? hlast)
      obtain ⟨id, value⟩ := entry
      have hid : id = sensorId := by simpa using hsensor
      subst hid
      obtain ⟨written, hwritten⟩ := parser_returns (hvalid _ hmember) data
      rw [hleft.last id value written hbuttons hlast hwritten]
      rw [← hsame id hknown] at hlast
      rw [hright.last id value written hbuttons hlast hwritten]

/-- A line changes what its entries are about, and the order of entries of
different sensors does not matter. -/
structure RefreshesLocally (py : Runtime) (entries : List (Nat × Nat)) : Prop where
  outcome : ∀ data, ∃ next, parseAndRefresh py (lineOf entries) data = .ok next ∧
    Outcome data entries next
  unknown : ∀ data, parseAndRefresh py (lineOf (entries.filter fun entry => isKnown entry.1)) data =
    parseAndRefresh py (lineOf entries) data
  reordered : ∀ others, (∀ id, others.filter (·.1 = id) = entries.filter (·.1 = id)) →
    ∀ data, parseAndRefresh py (lineOf others) data = parseAndRefresh py (lineOf entries) data

theorem exists_refreshed {py : Runtime} {entries : List (Nat × Nat)}
    (hvalid : EntriesValid py entries) (hread : ∀ entry ∈ entries, isRead entry.1 = true)
    (data : A1Data) : ∃ next, parseAndRefresh py (lineOf entries) data = .ok next ∧
      Outcome data entries next := by
  obtain ⟨next, hnext, houtcome⟩ := exists_outcome hvalid data
  refine ⟨next, ?_, houtcome⟩
  rw [parseAndRefresh_lineOf hvalid, parseAll_mod hread, hnext]

theorem refreshes_same {py : Runtime} {entries others : List (Nat × Nat)}
    (hvalid : EntriesValid py entries) (hread : ∀ entry ∈ entries, isRead entry.1 = true)
    (hmember : ∀ entry ∈ others, entry ∈ entries)
    (hsame : ∀ id, isKnown id → others.filter (·.1 = id) = entries.filter (·.1 = id))
    (data : A1Data) :
    parseAndRefresh py (lineOf others) data = parseAndRefresh py (lineOf entries) data := by
  obtain ⟨next, hnext, houtcome⟩ := exists_refreshed hvalid hread data
  obtain ⟨other, hother, houtcome'⟩ := exists_refreshed
    (fun entry hentry => hvalid entry (hmember entry hentry))
    (fun entry hentry => hread entry (hmember entry hentry)) data
  rw [hnext, hother, outcome_unique hvalid houtcome houtcome' hsame]

theorem refreshesLocally_of_isRead {py : Runtime} {entries : List (Nat × Nat)}
    (hvalid : EntriesValid py entries) (hread : ∀ entry ∈ entries, isRead entry.1 = true) :
    RefreshesLocally py entries where
  outcome := exists_refreshed hvalid hread
  unknown := by
    apply refreshes_same hvalid hread
    · exact fun entry hentry => List.mem_of_mem_filter hentry
    · intro id hknown
      rw [List.filter_filter]
      apply List.filter_congr
      intro entry _
      by_cases hid : entry.1 = id <;> simp [hid, hknown]
  reordered others hsame := by
    apply refreshes_same hvalid hread
    · intro entry hentry
      have hfilter : entry ∈ entries.filter (·.1 = entry.1) := by
        rw [← hsame]
        simpa using hentry
      exact List.mem_of_mem_filter hfilter
    · exact fun id _ => hsame id

theorem parser_zero (sensorId : Nat) : parser sensorId 0 {} = .ok {} := by
  unfold parser
  split
  case h_6 =>
    have hsame : ∀ next, parseBatteryVoltageValue 0 {} = .ok next → next = {} := by
      intro next hnext
      rw [← Except.ok.inj hnext]
      decide +kernel
    exact congrArg Except.ok (hsame _ rfl)
  all_goals rfl

theorem parser_three {sensorId : Nat} (h : isKnown sensorId = true) :
    ∃ next, parser sensorId 3 {} = .ok next ∧ parser sensorId 3 next = .ok next ∧ next ≠ {} := by
  have hrange : 1 ≤ sensorId ∧ sensorId ≤ 7 := by simpa [isKnown] using h
  obtain ⟨hlow, hhigh⟩ := hrange
  interval_cases sensorId
  case «6» => exact ⟨_, rfl, rfl, by decide +kernel⟩
  all_goals exact ⟨_, rfl, rfl, by decide⟩

theorem parseAll_zeros {entries : List (Nat × Nat)} (h : ∀ entry ∈ entries, entry.2 = 0) :
    parseAll {} entries = .ok {} := by
  induction entries with
  | nil => rfl
  | cons entry entries ih =>
    rw [parseAll, h entry List.mem_cons_self, parser_zero]
    exact ih fun other hother => h other (List.mem_cons_of_mem entry hother)

theorem parseAll_threes {sensorId : Nat} {data : A1Data} {entries : List (Nat × Nat)}
    (hkept : parser sensorId 3 data = .ok data) (h : ∀ entry ∈ entries, entry = (sensorId, 3)) :
    parseAll data entries = .ok data := by
  induction entries with
  | nil => rfl
  | cons entry entries ih =>
    rw [h entry List.mem_cons_self, parseAll, hkept]
    exact ih fun other hother => h other (List.mem_cons_of_mem _ hother)

/-- The entries of one id set to 3, all others to 0. -/
def marked (id : Nat) (ids : List Nat) : List (Nat × Nat) :=
  ids.map fun other => (other, if other = id then 3 else 0)

theorem length_decimal_marked (id other : Nat) :
    (decimal (if other = id then 3 else 0)).length = 1 := by
  split <;> rfl

theorem entriesValid_marked (py : Runtime) {id : Nat} (hid : 10 ≤ id) (ids : List Nat) :
    EntriesValid py (marked id ids) := by
  intro entry hentry
  obtain ⟨other, -, rfl⟩ := List.mem_map.mp hentry
  refine ⟨?_, ?_, ?_⟩
  · dsimp only
    rw [length_decimal_marked]
    omega
  · rintro rfl button
    have hne : 1 ≠ id := by omega
    dsimp only
    rw [if_neg hne]
    cases button <;> decide
  · rintro rfl
    have hne : 5 ≠ id := by omega
    dsimp only
    rw [if_neg hne]
    decide

/-- The entries of an id moved behind all others. -/
def movedBehind (id : Nat) (entries : List (Nat × Nat)) : List (Nat × Nat) :=
  entries.filter (·.1 ≠ id) ++ entries.filter (·.1 = id)

theorem filter_movedBehind (id sensorId : Nat) (entries : List (Nat × Nat)) :
    (movedBehind id entries).filter (·.1 = sensorId) = entries.filter (·.1 = sensorId) := by
  rw [movedBehind, List.filter_append, List.filter_filter, List.filter_filter]
  by_cases hid : sensorId = id
  · subst hid
    have hnone : entries.filter (fun entry =>
        decide (entry.1 = sensorId) && decide (entry.1 ≠ sensorId)) = [] := by
      simp
    rw [hnone, List.nil_append]
    simp
  · have hnone : entries.filter (fun entry =>
        decide (entry.1 = sensorId) && decide (entry.1 = id)) = [] := by
      rw [List.filter_eq_nil_iff]
      intro entry _ hboth
      simp only [Bool.and_eq_true, decide_eq_true_eq] at hboth
      exact hid (hboth.1.symm.trans hboth.2)
    rw [hnone, List.append_nil]
    apply List.filter_congr
    intro entry _
    by_cases hsensor : entry.1 = sensorId <;> simp [hsensor, hid]

theorem value_of_mem_marked {id : Nat} {ids : List Nat} {entry : Nat × Nat}
    (h : entry ∈ marked id ids) : entry.2 = if entry.1 = id then 3 else 0 := by
  obtain ⟨other, -, rfl⟩ := List.mem_map.mp h
  rfl

theorem parseAndRefresh_known_marked (py : Runtime) {id : Nat} (hlarge : 10 ≤ id)
    (ids : List Nat) :
    parseAndRefresh py (lineOf ((marked id ids).filter fun entry => isKnown entry.1)) {} =
      .ok {} := by
  have hvalid := entriesValid_marked py hlarge ids
  rw [parseAndRefresh_lineOf fun entry hentry => hvalid entry (List.mem_of_mem_filter hentry)]
  apply parseAll_zeros
  intro entry hentry
  obtain ⟨other, hother, rfl⟩ := List.mem_map.mp hentry
  obtain ⟨hmember, hknown⟩ := List.mem_filter.mp hother
  have hne : other.1 ≠ id := by
    rintro rfl
    simp [isKnown] at hknown
    omega
  dsimp only
  rw [value_of_mem_marked hmember, if_neg hne]

theorem parseAndRefresh_movedBehind (py : Runtime) {id : Nat} {ids : List Nat} (hid : id ∈ ids)
    (hlarge : 10 ≤ id) {written : A1Data} (hwritten : parser (id % 10) 3 {} = .ok written)
    (hkept : parser (id % 10) 3 written = .ok written) :
    parseAndRefresh py (lineOf (movedBehind id (marked id ids))) {} = .ok written := by
  have hvalid := entriesValid_marked py hlarge ids
  have hmember : ∀ entry ∈ movedBehind id (marked id ids), entry ∈ marked id ids := by
    intro entry hentry
    obtain hentry | hentry := List.mem_append.mp hentry <;> exact List.mem_of_mem_filter hentry
  have hthrees : ∀ entry ∈ (marked id ids).filter (·.1 = id), entry = (id, 3) := by
    intro entry hentry
    obtain ⟨hmarked, heq⟩ := List.mem_filter.mp hentry
    have hsensor : entry.1 = id := by simpa using heq
    have hvalue := value_of_mem_marked hmarked
    rw [if_pos hsensor] at hvalue
    exact Prod.ext hsensor hvalue
  have hmarked : (id, 3) ∈ (marked id ids).filter (·.1 = id) :=
    List.mem_filter.mpr ⟨List.mem_map.mpr ⟨id, hid, by simp⟩, by simp⟩
  rw [parseAndRefresh_lineOf fun entry hentry => hvalid entry (hmember entry hentry),
    movedBehind, List.map_append, parseAll_append, parseAll_zeros]
  · cases hbehind : (marked id ids).filter (·.1 = id) with
    | nil =>
      rw [hbehind] at hmarked
      cases hmarked
    | cons entry entries =>
      rw [hbehind] at hthrees
      rw [hthrees entry List.mem_cons_self, List.map_cons]
      change (parser (id % 10) 3 {}).bind _ = _
      rw [hwritten]
      apply parseAll_threes hkept
      intro other hother
      obtain ⟨source, hsource, rfl⟩ := List.mem_map.mp hother
      rw [hthrees source (List.mem_cons_of_mem entry hsource)]
  · intro entry hentry
    obtain ⟨other, hother, rfl⟩ := List.mem_map.mp hentry
    obtain ⟨hmarked, hne⟩ := List.mem_filter.mp hother
    dsimp only
    rw [value_of_mem_marked hmarked, if_neg (by simpa using hne)]

theorem not_refreshesLocally_marked {py : Runtime} {id : Nat} {ids : List Nat} (hid : id ∈ ids)
    (hmisread : isRead id = false) : ¬ RefreshesLocally py (marked id ids) := by
  intro hlocal
  have hparts : 10 ≤ id ∧ isKnown (id % 10) = true := by
    simpa [isRead] using hmisread
  obtain ⟨hlarge, hknown⟩ := hparts
  obtain ⟨written, hwritten, hkept, hdifferent⟩ := parser_three hknown
  have hsame := hlocal.reordered _ (fun sensorId => filter_movedBehind id sensorId _) {}
  rw [← hlocal.unknown, parseAndRefresh_known_marked py hlarge,
    parseAndRefresh_movedBehind py hid hlarge hwritten hkept] at hsame
  exact hdifferent (Except.ok.inj hsame)

/-- The lines made of any valid values under these ids refresh locally exactly
when no id ends in the digit of a sensor that it is not the id of. -/
theorem refreshesLocally_iff (py : Runtime) (ids : List Nat) :
    (∀ entries, entries.map Prod.fst = ids → EntriesValid py entries →
      RefreshesLocally py entries) ↔ ∀ id ∈ ids, isRead id = true := by
  constructor
  · intro hevery id hid
    by_contra hmisread
    have hfalse : isRead id = false := by simpa using hmisread
    have hlarge : 10 ≤ id := by
      simp [isRead] at hfalse
      exact hfalse.1
    apply not_refreshesLocally_marked hid hfalse
    apply hevery (marked id ids) _ (entriesValid_marked py hlarge ids)
    simp [marked, Function.comp_def]
  · intro hread entries hids hvalid
    apply refreshesLocally_of_isRead hvalid
    intro entry hentry
    apply hread
    rw [← hids]
    exact List.mem_map_of_mem hentry

/-- The entry of the unknown id 12 switches the bumpers on. -/
theorem unknown_id_sets_bumpers : ¬ ∀ (py : Runtime) (entries : List (Nat × Nat)),
    EntriesValid py entries → RefreshesLocally py entries := by
  intro hevery
  have hvalid : EntriesValid asciiRuntime (marked 12 [12]) :=
    entriesValid_marked asciiRuntime (by decide) [12]
  have hunknown := (hevery asciiRuntime [(12, 3)] hvalid).unknown {}
  have hends := congrArg (fun refresh => (refreshed refresh).endRightTrig) hunknown
  revert hends
  decide

end VacuumCleaner.Link.TelemetryOrder
