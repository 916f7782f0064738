import VacuumCleaner.Lib.Latch
import VacuumCleaner.Lib.Reporter
import VacuumCleaner.Core.SensorLines

/-! The four click latches between the reader thread, which refreshes them line
by line, and the core, which clears a latch by reading it. -/
namespace VacuumCleaner.Core.ButtonLatches

open Lib Models Models.A1Data Reception SensorLines

inductive Event (py : Runtime)
  | line (line : Line py)
  | read (button : Button)
  deriving DecidableEq, Repr

/-- The snapshot behind a refresh, also where the refresh has raised. -/
def refreshed : Refresh → A1Data
  | .ok data => data
  | .error (_, data) => data

/-- A line reports nothing; a read reports what the property returns. -/
def reporter (py : Runtime) : Reporter A1Data (Event py) ButtonState where
  step event data :=
    match event with
    | .line line => (refreshed (parseAndRefresh py line.text data), .nothing)
    | .read button => ((data.readButton button).2, (data.readButton button).1)

def clickOf : Nat → Option ButtonState
  | 1 => some .click
  | 3 => some .longPress
  | _ => none

/-- `int` converts the numeral, and its parser knows the charging state. -/
def isConverted (py : Runtime) (output : SensorOutput) : Bool :=
  (py.maxStrDigits == 0 || output.digits.length ≤ py.maxStrDigits) &&
    !(output.id.val == 5 && output.value / 8 % 4 == 3)

/-- The pairs that outputs bring for a button. -/
def pairsOf (button : Button) (outputs : List SensorOutput) : List Nat :=
  (outputs.filter (·.id.val = 1)).map fun output => pairOf button output.value

/-- The clicks that a line brings for a button, up to an output that raises. -/
def received {py : Runtime} (button : Button) (line : Line py) : List ButtonState :=
  (pairsOf button (line.outputs.takeWhile (isConverted py))).filterMap clickOf

def receivedBy {py : Runtime} (button : Button) (reports : List (Event py × ButtonState)) :
    List ButtonState :=
  reports.flatMap fun (event, _) =>
    match event with
    | .line line => received button line
    | .read _ => []

/-- The pairs of every button are 00, 01 or 11. -/
def PairsValid (outputs : List SensorOutput) : Prop :=
  ∀ output ∈ outputs, output.id.val = 1 → ∀ button : Button, pairOf button output.value ≠ 2

instance (value : Nat) : Decidable (∀ button : Button, pairOf button value ≠ 2) :=
  decidable_of_iff (∀ button ∈ [Button.bluetooth, .up, .ok, .down], pairOf button value ≠ 2)
    ⟨fun h button => h button (by cases button <;> simp), fun h button _ => h button⟩

instance (outputs : List SensorOutput) : Decidable (PairsValid outputs) :=
  inferInstanceAs (Decidable (∀ output ∈ outputs, output.id.val = 1 →
    ∀ button : Button, pairOf button output.value ≠ 2))

def toLatch (state : ButtonState) : Option ButtonState :=
  if state = .nothing then none else some state

theorem toLatch_latchAfter {state : ButtonState} {code : Nat} (hcode : code < 4)
    (codes : List Nat) :
    (toLatch (latchAfter state code)).or (codes.filterMap clickOf).head? =
      (toLatch state).or ((code :: codes).filterMap clickOf).head? := by
  interval_cases code <;> cases state <;> simp [toLatch, latchAfter, clickOf]

theorem isConverted_iff {py : Runtime} {entry : Entry} {output : SensorOutput}
    (h : Reads py entry output) : isConverted py output = true ↔ NumeralReadable py entry ∧
      (entry.sensorId = 5 → chargingCode (decimalValue py entry.digits) ≠ 3) := by
  rw [chargingCode_eq, h.value, NumeralReadable, h.length, h.id]
  simp [isConverted, imp_iff_not_or]

theorem code_of_reads {py : Runtime} {entry : Entry} {output : SensorOutput}
    (h : Reads py entry output) (button : Button) :
    button.code (decimalValue py entry.digits) = pairOf button output.value := by
  rw [code_eq_pairOf, h.value]

theorem refreshEntry_ok_iff_isConverted {py : Runtime} {entry : Entry} {output : SensorOutput}
    (hreads : Reads py entry output) (data : A1Data) (hpairs : PairsValid [output]) :
    (∃ next, refreshEntry py data entry = .ok next) ↔ isConverted py output = true := by
  have hbuttons : entry.sensorId = 1 → ∀ button : Button, data.click button = .nothing →
      button.code (decimalValue py entry.digits) ≠ 2 := by
    intro hsensor button _
    rw [code_of_reads hreads]
    exact hpairs output (List.mem_singleton_self output)
      (hreads.id ▸ hsensor) button
  rw [refreshEntry_ok_iff, isConverted_iff hreads, EntryReadable]
  tauto

theorem click_of_parser_error {sensorId value : Nat} {data left : A1Data} {raised : Raised}
    (hsensor : sensorId ≠ 1) (h : parser sensorId value data = .error (raised, left))
    (button : Button) : left.click button = data.click button := by
  unfold parser at h
  split at h
  · exact absurd rfl hsensor
  case h_5 =>
    unfold parsePowerControllerStates at h
    split at h <;> cases h
    cases button <;> rfl
  all_goals cases h

theorem click_of_error {py : Runtime} {entry : Entry} {output : SensorOutput}
    {data left : A1Data} {raised : Raised} (hreads : Reads py entry output)
    (hpairs : PairsValid [output]) (h : refreshEntry py data entry = .error (raised, left))
    (button : Button) : left.click button = data.click button := by
  have hraises : ¬ ∃ next, refreshEntry py data entry = .ok next := by
    rintro ⟨next, hnext⟩
    rw [h] at hnext
    cases hnext
  unfold refreshEntry at h
  cases hvalue : entry.value py with
  | error raised' =>
    rw [hvalue] at h
    cases h
    rfl
  | ok value =>
    rw [hvalue] at h
    apply click_of_parser_error _ h
    intro hsensor
    rw [refreshEntry_ok_iff_isConverted hreads data hpairs, isConverted_iff hreads] at hraises
    exact hraises ⟨((value_eq_ok_iff py entry value).mp hvalue).1, fun hfive => by omega⟩

theorem toLatch_refreshEntries {py : Runtime} {entries : List Entry} {outputs : List SensorOutput}
    (hreads : List.Forall₂ (Reads py) entries outputs) (hpairs : PairsValid outputs)
    (data : A1Data) (button : Button) :
    toLatch ((refreshed (refreshEntries py data entries)).click button) =
      (toLatch (data.click button)).or
        ((pairsOf button (outputs.takeWhile (isConverted py))).filterMap clickOf).head? := by
  induction hreads generalizing data with
  | nil => simp [refreshEntries, refreshed, pairsOf]
  | @cons entry output entries outputs hread hreads ih =>
    have hfirst : PairsValid [output] := by
      intro other hother
      rw [List.mem_singleton] at hother
      exact hpairs other (hother ▸ List.mem_cons_self)
    have hrest : PairsValid outputs :=
      fun other hother => hpairs other (List.mem_cons_of_mem output hother)
    have hconverted := refreshEntry_ok_iff_isConverted hread data hfirst
    cases hentry : refreshEntry py data entry with
    | error failure =>
      obtain ⟨raised, left⟩ := failure
      have hnot : isConverted py output = false := by
        rw [← Bool.not_eq_true, ← hconverted, hentry]
        simp
      have hclick := click_of_error hread hfirst hentry button
      rw [refreshEntries, hentry, List.takeWhile_cons, hnot]
      simpa [refreshed, pairsOf, bind, Except.bind] using congrArg toLatch hclick
    | ok next =>
      have hyes : isConverted py output = true := hconverted.mp ⟨next, hentry⟩
      have hclick := click_refreshEntry hentry button
      simp only [hread.id, code_of_reads hread] at hclick
      have hlatch := ih hrest next
      rw [refreshEntries, hentry, List.takeWhile_cons_of_pos hyes]
      change toLatch ((refreshed (refreshEntries py next entries)).click button) = _
      rw [hlatch, hclick]
      by_cases hsensor : output.id.val = 1
      · have hcons : pairsOf button (output :: outputs.takeWhile (isConverted py)) =
            pairOf button output.value ::
              pairsOf button (outputs.takeWhile (isConverted py)) := by
          simp [pairsOf, hsensor]
        rw [if_pos hsensor, hcons]
        exact toLatch_latchAfter (pairOf_lt button _) _
      · simp [pairsOf, hsensor]

/-- What a line or a read is to the latch of one button. -/
def project {py : Runtime} (button : Button) : Event py → LatchInput ButtonState
  | .line line => .offer (received button line)
  | .read other => if other = button then .take else .offer []

/-- What the latch of the button has reported with it. -/
def view {py : Runtime} (button : Button) (event : Event py) (state : ButtonState) :
    Option ButtonState :=
  if event = .read button then toLatch state else none

def Event.outputs {py : Runtime} : Event py → List SensorOutput
  | .line shown => shown.outputs
  | .read _ => []

def LinesValid {py : Runtime} (events : List (Event py)) : Prop :=
  ∀ event ∈ events, PairsValid event.outputs

instance {py : Runtime} (events : List (Event py)) : Decidable (LinesValid events) :=
  inferInstanceAs (Decidable (∀ event ∈ events, PairsValid event.outputs))

theorem click_readButton (data : A1Data) (button other : Button) :
    (data.readButton button).2.click other =
      if other = button then .nothing else data.click other := by
  unfold readButton
  split
  · exact click_setClick data .nothing button other
  · rename_i hempty
    split
    · rename_i hsame
      rw [hsame]
      exact not_not.mp hempty
    · rfl

theorem map_reports_eq {py : Runtime} {events : List (Event py)} (hlines : LinesValid events)
    (button : Button) :
    ((reporter py).reports {} events).map (fun (event, state) =>
        (project button event, view button event state)) =
      Latch.reporter.reports none (events.map (project button)) := by
  apply Reporter.map_reports_of_simulates (project button) (view button)
    (fun data latch => toLatch (data.click button) = latch)
    (fun _ event => PairsValid event.outputs)
  · intro data latch event hlatch hvalid
    subst hlatch
    cases event with
    | line line =>
      refine ⟨toLatch_refreshEntries (reads_findEntries line.shows) hvalid data button, ?_⟩
      simp [view, project, Latch.reporter, Latch.step]
    | read other =>
      by_cases hsame : other = button
      · subst hsame
        have hclick := click_readButton data other other
        have hstate : (data.readButton other).1 = data.click other := by
          unfold readButton
          split <;> rfl
        simp [reporter, project, view, Latch.reporter, Latch.step, hclick, hstate, toLatch]
      · have hclick := click_readButton data other button
        rw [if_neg (Ne.symm hsame)] at hclick
        simp [reporter, project, view, Latch.reporter, Latch.step, hclick, hsame]
  · cases button <;> rfl
  · intro before event rest hevents
    exact hlines event (by simp [hevents])

/-- A read gives the first click that the button has received since one was
read last. A click that comes while none is unread is given by the next read. -/
structure DeliversClicks {py : Runtime} (button : Button)
    (reports : List (Event py × ButtonState)) : Prop where
  first : ∀ early since state late, reports = early ++ since ++ (.read button, state) :: late →
    (∀ last ∈ early.getLast?, last.1 = .read button ∧ last.2 ≠ .nothing) →
    (∀ report ∈ since, report.1 = .read button → report.2 = .nothing) →
    state = ((receivedBy button since).head?).getD .nothing
  kept : ∀ early since line event between state late,
    reports = early ++ since ++ (.line line, event) :: (between ++ (.read button, state) :: late) →
    (∀ last ∈ early.getLast?, last.1 = .read button ∧ last.2 ≠ .nothing) →
    (∀ report ∈ since, report.1 = .read button → report.2 = .nothing) →
    receivedBy button since = [] → (∀ report ∈ between, report.1 ≠ .read button) →
    ∀ made ∈ (received button line).head?, state = made

theorem offered_map {py : Runtime} (button : Button) (reports : List (Event py × ButtonState)) :
    Latch.offered (reports.map fun (event, state) =>
      (project button event, view button event state)) = receivedBy button reports := by
  induction reports with
  | nil => rfl
  | cons report reports ih =>
    obtain ⟨event, state⟩ := report
    rw [List.map_cons, receivedBy, List.flatMap_cons, ← receivedBy, ← ih]
    cases event with
    | line line => rfl
    | read other =>
      by_cases hsame : other = button <;> simp [project, Latch.offered, hsame]

theorem project_eq_take {py : Runtime} {button : Button} {event : Event py}
    (h : project button event = .take) : event = .read button := by
  cases event with
  | line line => cases h
  | read other =>
    by_cases hsame : other = button
    · rw [hsame]
    · simp [project, hsame] at h

theorem toLatch_getD (state : ButtonState) : (toLatch state).getD .nothing = state := by
  unfold toLatch
  split
  · rename_i hnothing
    exact hnothing.symm
  · rfl

theorem first_of_lines {py : Runtime} {events : List (Event py)} (hlines : LinesValid events)
    {button : Button} {early since late : List (Event py × ButtonState)} {state : ButtonState}
    (hreports : (reporter py).reports {} events = early ++ since ++ (.read button, state) :: late)
    (hearly : ∀ last ∈ early.getLast?, last.1 = .read button ∧ last.2 ≠ .nothing)
    (hsince : ∀ report ∈ since, report.1 = .read button → report.2 = .nothing) :
    state = ((receivedBy button since).head?).getD .nothing := by
  let shown := fun (report : Event py × ButtonState) =>
    (project button report.1, view button report.1 report.2)
  have hlatch := map_reports_eq hlines button
  rw [hreports, List.map_append, List.map_append, List.map_cons] at hlatch
  have htake : shown (.read button, state) = (.take, toLatch state) := by
    simp [shown, project, view]
  have hfirst := Latch.takesFirst_reports (events.map (project button)) (early.map shown)
    (since.map shown) (toLatch state) (late.map shown) (by rw [← hlatch, ← htake]) ?_ ?_
  · rw [← offered_map, ← toLatch_getD state]
    exact congrArg (·.getD .nothing) hfirst
  · rw [List.getLast?_map]
    intro last hlast
    obtain ⟨report, hreport, rfl⟩ := Option.map_eq_some_iff.mp hlast
    simp [shown, (hearly report hreport).1, project]
  · intro report hreport htaken
    obtain ⟨shownReport, hmember, rfl⟩ := List.mem_map.mp hreport
    have hread := project_eq_take htaken
    simp [shown, view, hread, hsince shownReport hmember hread, toLatch]

/-- However lines and reads follow each other, each button delivers its clicks. -/
theorem deliversClicks (py : Runtime) (events : List (Event py)) (hlines : LinesValid events)
    (button : Button) : DeliversClicks button ((reporter py).reports {} events) where
  first early since state late hreports hearly hsince :=
    first_of_lines hlines hreports hearly hsince
  kept early since line event between state late hreports hearly hsince hnone hbetween := by
    intro made hmade
    have hsplit : (reporter py).reports {} events =
        early ++ (since ++ (.line line, event) :: between) ++ (.read button, state) :: late := by
      rw [hreports]
      simp
    rw [first_of_lines hlines hsplit hearly ?_]
    · have hreceived : receivedBy button (since ++ (.line line, event) :: between) =
          received button line ++ receivedBy button between := by
        unfold receivedBy at hnone ⊢
        rw [List.flatMap_append, hnone, List.nil_append, List.flatMap_cons]
      rw [hreceived, List.head?_append, hmade]
      rfl
    · intro report hreport hread
      obtain hreport | hreport := List.mem_append.mp hreport
      · exact hsince report hreport hread
      · obtain rfl | hreport := List.mem_cons.mp hreport
        · cases hread
        · exact absurd hread (hbetween report hreport)

/-- Two clicks of one button, of which the second comes while the first is unread. -/
theorem deliversClicks_up : DeliversClicks .up ((reporter asciiRuntime).reports {}
    [.line (buttonsLine 1 [6]), .line (buttonsLine 4 [8]), .read .ok, .read .up, .read .up,
      .line (buttonsLine 4 [9]), .read .up]) :=
  deliversClicks asciiRuntime _ (by decide) .up

end VacuumCleaner.Core.ButtonLatches
