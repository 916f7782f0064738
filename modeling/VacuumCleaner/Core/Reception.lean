import VacuumCleaner.Core.Socket
import VacuumCleaner.Lib.Fallible
import Mathlib.Tactic.IntervalCases

/-! Which received lines `handle_line` survives. pyserial's reader thread ends
with the first exception, so a line that is not survived ends the link. -/
namespace VacuumCleaner.Core.Reception

open Lib Models Models.A1Data Socket

/-- The latch after a button code, when the code has an enumeration member. -/
def latchAfter (latch : ButtonState) (code : Nat) : ButtonState :=
  if latch = .nothing then
    match code with
    | 1 => .click
    | 3 => .longPress
    | _ => .nothing
  else latch

theorem decimalDigit_none (py : Runtime) {c : Char} (hascii : c.toNat < 128)
    (hother : ¬ (48 ≤ c.toNat ∧ c.toNat < 58)) : py.decimalDigit c = none := by
  rw [py.ascii_digit c hascii, dif_neg hother]

theorem takeWhile_numeral {py : Runtime} {numeral : List Char}
    (h : ∀ c ∈ numeral, py.isDigit c = true) (rest : List Char) :
    (numeral ++ ';' :: rest).takeWhile py.isDigit = numeral := by
  have hend : py.isDigit ';' = false := by
    rw [Runtime.isDigit, decimalDigit_none py (by decide) (by decide)]
    rfl
  rw [List.takeWhile_append_of_pos h, List.takeWhile_cons_of_neg (by simp [hend]), List.append_nil]

theorem findEntries_skip (py : Runtime) (matched rest : List Char) :
    findEntries py matched.length (matched ++ rest) = findEntries py 0 rest := by
  induction matched with
  | nil => rfl
  | cons c matched ih => exact ih

theorem code_lt (button : Button) (value : Nat) : button.code value < 4 :=
  Nat.lt_of_le_of_lt Nat.and_le_right (by decide)

@[simp] theorem click_setClick (data : A1Data) (state : ButtonState) (button other : Button) :
    (data.setClick state button).click other =
      if other = button then state else data.click other := by
  cases button <;> cases other <;> rfl

theorem refreshButton_ok_iff (button : Button) (value : Nat) (data : A1Data) :
    (∃ next, refreshButton button value data = .ok next) ↔
      (data.click button = .nothing → button.code value ≠ 2) := by
  have hlt := code_lt button value
  unfold refreshButton
  by_cases hlatch : data.click button = .nothing
  · simp only [hlatch, if_true, true_implies]
    generalize button.code value = code at hlt
    interval_cases code <;> simp [ButtonState.ofValue]
  · simp [hlatch]

theorem click_refreshButton {button : Button} {value : Nat} {data next : A1Data}
    (h : refreshButton button value data = .ok next) (other : Button) :
    next.click other =
      if other = button then latchAfter (data.click button) (button.code value)
      else data.click other := by
  have hlt := code_lt button value
  unfold refreshButton at h
  by_cases hlatch : data.click button = .nothing
  · simp only [hlatch, if_true] at h ⊢
    generalize button.code value = code at hlt h
    interval_cases code <;> simp only [ButtonState.ofValue] at h <;> cases h <;>
      simp [latchAfter]
  · simp only [hlatch, if_false, Except.ok.injEq] at h
    subst h
    split
    · rename_i heq
      rw [heq]
      simp [latchAfter, hlatch]
    · rfl

theorem parseAndSetButtonsState_ok_iff (value : Nat) (data : A1Data) :
    (∃ next, parseAndSetButtonsState value data = .ok next) ↔
      ∀ button : Button, data.click button = .nothing → button.code value ≠ 2 := by
  unfold parseAndSetButtonsState
  simp only [exists_bind_ok_iff]
  constructor
  · rintro ⟨d₁, h₁, d₂, h₂, d₃, h₃, hlast⟩ button hbutton
    have hup := click_refreshButton h₁
    have hok := click_refreshButton h₂
    have hdown := click_refreshButton h₃
    cases button with
    | bluetooth => exact (refreshButton_ok_iff _ _ _).mp ⟨d₁, h₁⟩ hbutton
    | up => exact (refreshButton_ok_iff _ _ _).mp ⟨d₂, h₂⟩ (by simpa [hup] using hbutton)
    | ok => exact (refreshButton_ok_iff _ _ _).mp ⟨d₃, h₃⟩ (by simpa [hup, hok] using hbutton)
    | down => exact (refreshButton_ok_iff _ _ _).mp hlast (by simpa [hup, hok, hdown] using hbutton)
  · intro hcodes
    obtain ⟨d₁, h₁⟩ := (refreshButton_ok_iff .bluetooth value data).mpr (hcodes _)
    have hup := click_refreshButton h₁
    obtain ⟨d₂, h₂⟩ := (refreshButton_ok_iff .up value d₁).mpr (by simpa [hup] using hcodes .up)
    have hok := click_refreshButton h₂
    obtain ⟨d₃, h₃⟩ := (refreshButton_ok_iff .ok value d₂).mpr
      (by simpa [hup, hok] using hcodes .ok)
    have hdown := click_refreshButton h₃
    exact ⟨d₁, h₁, d₂, h₂, d₃, h₃, (refreshButton_ok_iff .down value d₃).mpr
      (by simpa [hup, hok, hdown] using hcodes .down)⟩

theorem click_parseAndSetButtonsState {value : Nat} {data next : A1Data}
    (h : parseAndSetButtonsState value data = .ok next) (button : Button) :
    next.click button = latchAfter (data.click button) (button.code value) := by
  unfold parseAndSetButtonsState at h
  obtain ⟨d₁, h₁, h⟩ := bind_ok h
  obtain ⟨d₂, h₂, h⟩ := bind_ok h
  obtain ⟨d₃, h₃, h⟩ := bind_ok h
  have hup := click_refreshButton h₁
  have hok := click_refreshButton h₂
  have hdown := click_refreshButton h₃
  rw [click_refreshButton h]
  cases button <;> simp [hup, hok, hdown]

def chargingCode (value : Nat) : Nat := (value >>> 3) &&& 0x3

theorem parsePowerControllerStates_ok_iff (value : Nat) (data : A1Data) :
    (∃ next, parsePowerControllerStates value data = .ok next) ↔ chargingCode value ≠ 3 := by
  have hlt : (value >>> 3) &&& 0x3 < 4 := Nat.lt_of_le_of_lt Nat.and_le_right (by decide)
  unfold parsePowerControllerStates chargingCode
  generalize (value >>> 3) &&& 0x3 = code at hlt
  interval_cases code <;> simp [ChargingState.ofValue]

/-- The values of one sensor on which its parser raises. -/
def EntryReadable (data : A1Data) (sensorId value : Nat) : Prop :=
  (sensorId = 1 → ∀ button : Button, data.click button = .nothing → button.code value ≠ 2) ∧
    (sensorId = 5 → chargingCode value ≠ 3)

theorem parser_ok_iff (sensorId value : Nat) (data : A1Data) :
    (∃ next, parser sensorId value data = .ok next) ↔ EntryReadable data sensorId value := by
  unfold parser EntryReadable
  split
  · simpa using parseAndSetButtonsState_ok_iff value data
  · simp [parseAndSetEndsState]
  · simp [parseDisValues]
  · simp [parseCliffs]
  · simpa using parsePowerControllerStates_ok_iff value data
  · simp [parseBatteryVoltageValue]
  · simp [parseWheelsSpeed]
  · simp_all

theorem click_of_parsing {sensorId value : Nat} {data next : A1Data}
    (h : parser sensorId value data = .ok next) (button : Button) :
    next.click button =
      if sensorId = 1 then latchAfter (data.click button) (button.code value)
      else data.click button := by
  unfold parser at h
  split at h
  · simpa using click_parseAndSetButtonsState h button
  case h_5 =>
    unfold parsePowerControllerStates at h
    split at h <;> cases h
    cases button <;> rfl
  case h_8 =>
    cases h
    simp_all
  all_goals
    cases h
    cases button <;> rfl

def NumeralReadable (py : Runtime) (entry : Entry) : Prop :=
  py.maxStrDigits = 0 ∨ entry.digits.length ≤ py.maxStrDigits

theorem value_eq_ok_iff (py : Runtime) (entry : Entry) (value : Nat) :
    entry.value py = .ok value ↔ NumeralReadable py entry ∧ decimalValue py entry.digits = value := by
  unfold Entry.value NumeralReadable
  split
  · rename_i hlong
    simp only [reduceCtorEq, false_iff, not_and]
    omega
  · rename_i hshort
    simp only [Except.ok.injEq, iff_and_self]
    omega

theorem refreshEntry_ok_iff (py : Runtime) (data : A1Data) (entry : Entry) :
    (∃ next, refreshEntry py data entry = .ok next) ↔
      NumeralReadable py entry ∧
        EntryReadable data entry.sensorId (decimalValue py entry.digits) := by
  unfold refreshEntry
  cases hvalue : entry.value py with
  | error raised =>
    simp only [reduceCtorEq, exists_false, false_iff, not_and]
    intro hnumeral
    have hok := (value_eq_ok_iff py entry _).mpr ⟨hnumeral, rfl⟩
    rw [hvalue] at hok
    cases hok
  | ok value =>
    obtain ⟨hnumeral, rfl⟩ := (value_eq_ok_iff py entry value).mp hvalue
    simpa [hnumeral] using parser_ok_iff entry.sensorId _ data

theorem click_refreshEntry {py : Runtime} {data next : A1Data} {entry : Entry}
    (h : refreshEntry py data entry = .ok next) (button : Button) :
    next.click button =
      if entry.sensorId = 1 then
        latchAfter (data.click button) (button.code (decimalValue py entry.digits))
      else data.click button := by
  unfold refreshEntry at h
  cases hvalue : entry.value py with
  | error raised =>
    rw [hvalue] at h
    cases h
  | ok value =>
    obtain ⟨-, rfl⟩ := (value_eq_ok_iff py entry value).mp hvalue
    rw [hvalue] at h
    exact click_of_parsing h button

/-- The codes that a list of entries brings for one button. -/
def buttonCodes (py : Runtime) (button : Button) (entries : List Entry) : List Nat :=
  (entries.filter (·.sensorId = 1)).map fun entry => button.code (decimalValue py entry.digits)

/-- A telemetry line without a value that has no enumeration member: no
charging code 3, and the first click of a free latch is not the code 2. -/
structure TelemetryReadable (py : Runtime) (data : A1Data) (entries : List Entry) : Prop where
  numerals : ∀ entry ∈ entries, NumeralReadable py entry
  charging : ∀ entry ∈ entries, entry.sensorId = 5 →
    chargingCode (decimalValue py entry.digits) ≠ 3
  buttons : ∀ button : Button, data.click button = .nothing →
    (buttonCodes py button entries).find? (· ≠ 0) ≠ some 2

theorem latch_cons_iff (latch : ButtonState) {code : Nat} (hcode : code < 4) (codes : List Nat) :
    (latch = .nothing → (code :: codes).find? (· ≠ 0) ≠ some 2) ↔
      (latch = .nothing → code ≠ 2) ∧
        (latchAfter latch code = .nothing → codes.find? (· ≠ 0) ≠ some 2) := by
  by_cases hlatch : latch = .nothing
  · interval_cases code <;> simp [hlatch, latchAfter]
  · simp [hlatch, latchAfter]

theorem telemetryReadable_cons_iff {py : Runtime} {data next : A1Data} {entry : Entry}
    {entries : List Entry} (h : refreshEntry py data entry = .ok next) :
    TelemetryReadable py data (entry :: entries) ↔
      NumeralReadable py entry ∧
        EntryReadable data entry.sensorId (decimalValue py entry.digits) ∧
        TelemetryReadable py next entries := by
  have hclick := click_refreshEntry h
  have hlatch : ∀ button : Button,
      (data.click button = .nothing →
        (buttonCodes py button (entry :: entries)).find? (· ≠ 0) ≠ some 2) ↔
      (entry.sensorId = 1 → data.click button = .nothing →
          button.code (decimalValue py entry.digits) ≠ 2) ∧
        (next.click button = .nothing → (buttonCodes py button entries).find? (· ≠ 0) ≠ some 2) := by
    intro button
    by_cases hsensor : entry.sensorId = 1
    · have hcons := latch_cons_iff (data.click button)
        (code_lt button (decimalValue py entry.digits)) (buttonCodes py button entries)
      simpa [buttonCodes, hsensor, hclick] using hcons
    · simp [buttonCodes, hsensor, hclick]
  constructor
  · rintro ⟨hnumerals, hcharging, hbuttons⟩
    simp only [List.forall_mem_cons] at hnumerals hcharging
    have hsplit := fun button => (hlatch button).mp (hbuttons button)
    exact ⟨hnumerals.1, ⟨fun hsensor button => (hsplit button).1 hsensor, hcharging.1⟩,
      hnumerals.2, hcharging.2, fun button => (hsplit button).2⟩
  · rintro ⟨hnumeral, ⟨hbutton, hcode⟩, hnumerals, hcharging, hbuttons⟩
    exact ⟨List.forall_mem_cons.mpr ⟨hnumeral, hnumerals⟩,
      List.forall_mem_cons.mpr ⟨hcode, hcharging⟩,
      fun button => (hlatch button).mpr ⟨fun hsensor => hbutton hsensor button, hbuttons button⟩⟩

theorem refreshEntries_ok_iff (py : Runtime) (data : A1Data) (entries : List Entry) :
    (∃ next, refreshEntries py data entries = .ok next) ↔ TelemetryReadable py data entries := by
  induction entries generalizing data with
  | nil =>
    simp only [refreshEntries, Except.ok.injEq, exists_eq', true_iff]
    exact ⟨by simp, by simp, by simp [buttonCodes]⟩
  | cons entry entries ih =>
    rw [refreshEntries, exists_bind_ok_iff]
    constructor
    · rintro ⟨next, hentry, hrest⟩
      obtain ⟨hnumeral, hreadable⟩ := (refreshEntry_ok_iff py data entry).mp ⟨next, hentry⟩
      exact (telemetryReadable_cons_iff hentry).mpr ⟨hnumeral, hreadable, (ih next).mp hrest⟩
    · intro hreadable
      have hfirst : ∃ next, refreshEntry py data entry = .ok next := by
        refine (refreshEntry_ok_iff py data entry).mpr ⟨hreadable.numerals entry (by simp), ?_, ?_⟩
        · intro hsensor button hbutton hcode
          have hfind := hreadable.buttons button hbutton
          simp [buttonCodes, hsensor, hcode] at hfind
        · exact hreadable.charging entry (by simp)
      obtain ⟨next, hentry⟩ := hfirst
      have hrest := ((telemetryReadable_cons_iff hentry).mp hreadable).2.2
      exact ⟨next, hentry, (ih next).mpr hrest⟩

/-- The shape that the reply pattern requires of a line. -/
def ReplyReadable (py : Runtime) : List Char → Prop
  | '$' :: kind :: ':' :: digit :: _ =>
    (kind = 'S' ∨ kind = 'F' ∨ kind = 'R') ∧ isReplyDigit py digit = true
  | _ => False

theorem parse_ok_iff (py : Runtime) (now : Int) (line : List Char) :
    (∃ response, Response.parse py now line = .ok response) ↔ ReplyReadable py line := by
  unfold Response.parse
  split
  · rename_i kind rest
    cases rest with
    | nil => simp [ReplyReadable]
    | cons digit rest =>
      by_cases hdigit : isReplyDigit py digit = true
      · simp only [ReplyReadable, List.takeWhile_cons, hdigit, if_true, List.take_succ_cons,
          reduceCtorEq, false_or, and_true]
        split
        · simp_all
        · rename_i hkind
          have hkind := not_not.mp hkind
          split <;> simp [hkind]
      · simp [ReplyReadable, hdigit]
  · rename_i hshape
    simp only [reduceCtorEq, exists_false, false_iff]
    intro hreadable
    unfold ReplyReadable at hreadable
    split at hreadable
    · exact hshape _ _ rfl
    · exact hreadable

/-- The lines on which `handle_line` returns, given the snapshot before it. -/
def Survives (py : Runtime) (data : A1Data) : List Char → Prop
  | [] => False
  | initialByte :: rest =>
    (initialByte = '@' → TelemetryReadable py data (findEntries py 0 (initialByte :: rest))) ∧
      (initialByte = '$' → ReplyReadable py (initialByte :: rest))

theorem handleLine_ok_iff (py : Runtime) (now : Int) (line : List Char)
    (communicator : SerialA1Communicator) :
    (∃ next, communicator.handleLine py now line = .ok next) ↔
      Survives py communicator.data line := by
  unfold SerialA1Communicator.handleLine Survives
  cases line with
  | nil => simp
  | cons initialByte rest =>
    by_cases htelemetry : initialByte = '@'
    · have hrefresh := refreshEntries_ok_iff py communicator.data
        (findEntries py 0 (initialByte :: rest))
      simp only [htelemetry, if_true, parseAndRefresh] at hrefresh ⊢
      rw [← hrefresh]
      cases refreshEntries py communicator.data (findEntries py 0 ('@' :: rest)) <;> simp
    · by_cases hreply : initialByte = '$'
      · have hparse := parse_ok_iff py now (initialByte :: rest)
        subst hreply
        simp only [SerialA1Communicator.handleRequestResponse, ← hparse]
        cases Response.parse py now ('$' :: rest) <;> simp
      · simp [htelemetry, hreply]

/-- What happens to a communicator: a line arrives, or the core reads a latch. -/
inductive Delivery
  | line (now : Int) (text : List Char)
  | buttonRead (button : Button)
  deriving DecidableEq, Repr

def receive (py : Runtime) (communicator : SerialA1Communicator) :
    List Delivery → SerialA1Communicator.Outcome
  | [] => .ok communicator
  | .line now text :: deliveries => do
    let communicator ← communicator.handleLine py now text
    receive py communicator deliveries
  | .buttonRead button :: deliveries =>
    receive py { communicator with data := (communicator.data.readButton button).2 } deliveries

/-- Every line of the sequence is survived in the state where it arrives. -/
def AllSurvive (py : Runtime) (communicator : SerialA1Communicator) : List Delivery → Prop
  | [] => True
  | .line now text :: deliveries => Survives py communicator.data text ∧
      ∀ next, communicator.handleLine py now text = .ok next → AllSurvive py next deliveries
  | .buttonRead button :: deliveries =>
    AllSurvive py { communicator with data := (communicator.data.readButton button).2 } deliveries

/-- The link lives through a sequence of lines iff it survives each of them. -/
theorem receive_returns_iff (py : Runtime) (communicator : SerialA1Communicator)
    (deliveries : List Delivery) :
    (∃ final, receive py communicator deliveries = .ok final) ↔
      AllSurvive py communicator deliveries := by
  induction deliveries generalizing communicator with
  | nil => simp [receive, AllSurvive]
  | cons delivery deliveries ih =>
    cases delivery with
    | buttonRead button => exact ih _
    | line now text =>
      have hline := handleLine_ok_iff py now text communicator
      rw [receive, exists_bind_ok_iff, AllSurvive, ← hline]
      constructor
      · rintro ⟨next, hnext, hrest⟩
        refine ⟨⟨next, hnext⟩, fun other hother => ?_⟩
        rw [hnext] at hother
        cases hother
        exact (ih next).mp hrest
      · rintro ⟨⟨next, hnext⟩, hrest⟩
        exact ⟨next, hnext, (ih next).mpr (hrest next hnext)⟩

/-- An empty line, a reply cut short and a button code 2 each end the link,
although the reply behind them is well formed. -/
theorem link_ends_on_damaged_lines :
    (¬ ∃ final, receive asciiRuntime {} [.line 0 [], .line 1 ['$', 'S', ':', '1']] = .ok final) ∧
    (¬ ∃ final, receive asciiRuntime {} [.line 0 ['$', 'S'], .line 1 ['$', 'S', ':', '1']] =
      .ok final) ∧
    (¬ ∃ final, receive asciiRuntime {} [.line 0 ['@', '1', ':', '2', ';'],
      .line 1 ['$', 'S', ':', '1']] = .ok final) := by
  refine ⟨?_, ?_, ?_⟩ <;> rintro ⟨final, h⟩ <;> cases h

end VacuumCleaner.Core.Reception
