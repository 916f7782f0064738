import VacuumCleaner.A1.Instructions
import VacuumCleaner.A1.Pending
import VacuumCleaner.A1.WheelsProtocol

/-! How often A1 answers an instruction, over any sequence of instructions of
all kinds and of ticks. -/
namespace VacuumCleaner.A1.Answers

open InstructionHandler Fields Actuators Lib Lib.Numeral Machine

structure World (F : Type) where
  firmware : Firmware F
  accepted : List RequestId := []
  sent : List Reply := []

/-- `power` is the tick of the power controller, `tick` one of the actuators. -/
inductive Event
  | instruction (line : List Char) (around : Surroundings)
  | tick (tick : Pending.Tick)
  | power (answer : List UInt8)

variable {F : Type} (fpu : FloatUnit) (toFloat : Scanned → F)

/-- A line that is not accepted gets no answer under an id. -/
def World.step (world : World F) : Event → Option (World F)
  | .instruction line around =>
    match handle line with
    | .ok name id value =>
      let (firmware, replies) := world.firmware.callback fpu toFloat around id value name
      some ⟨firmware, world.accepted ++ [id], world.sent ++ replies⟩
    | _ => some world
  | .tick tick =>
    let (actuators, replies) := tick.run world.firmware.actuators
    some { world with
      firmware := { world.firmware with actuators }
      sent := world.sent ++ replies }
  | .power answer =>
    some { world with
      firmware := { world.firmware with power := world.firmware.power.tick answer } }

def machine : Machine (World F) Event := ⟨World.step fpu toFloat⟩

def start (settings : PidSettings F) : World F := { firmware := { pid := settings } }

/-- What holds of callback, id and parameters if the line is accepted. -/
def ifAccepted (status : InstructionStatus) (property : Callback → RequestId → List Char → Prop) :
    Prop :=
  match status with
  | .ok name id value => property name id value
  | .undefinedCommand => True
  | .wrongInstruction => True

instance (status : InstructionStatus) (property : Callback → RequestId → List Char → Prop)
    [∀ name id value, Decidable (property name id value)] :
    Decidable (ifAccepted status property) :=
  match status with
  | .ok name id value => inferInstanceAs (Decidable (property name id value))
  | .undefinedCommand => .isTrue trivial
  | .wrongInstruction => .isTrue trivial

/-- The accepted instructions carry pairwise distinct ids. -/
def distinctIds (world : World F) : Event → Prop
  | .instruction line _ => ifAccepted (handle line) fun _ id _ => id ∉ world.accepted
  | _ => True

instance (world : World F) : (event : Event) → Decidable (distinctIds world event)
  | .instruction .. => inferInstanceAs (Decidable (ifAccepted ..))
  | .tick _ => .isTrue trivial
  | .power _ => .isTrue trivial

def answeredTwice (world : World F) : Prop := ¬ (world.sent.map Reply.requestId).Nodup

/-- The instruction is no bluetooth LED instruction that names one of the LEDs. -/
def answersOnce (_ : World F) : Event → Prop
  | .instruction line _ => ifAccepted (handle line) fun name _ value =>
      ¬ (name = .onBluetoothLedState ∧ Firmware.namesLed value)
  | _ => True

/-- The ids that the ticks to come may answer. -/
def awaited (actuators : Actuators) : Component → Option RequestId
  | .wheels => WheelsProtocol.awaited actuators.wheels
  | .motor name => actuators.pendingId (.motor name)
  | .buzzer => actuators.pendingId .buzzer

theorem held_awaited (actuators : Actuators) (component : Component) :
    Pending.held WheelsProtocol.awaited actuators component = awaited actuators component := by
  cases component <;> rfl

theorem pending_of_awaited {actuators : Actuators} {component : Component} {id : RequestId}
    (hawaited : awaited actuators component = some id) :
    actuators.pendingId component = some id := by
  cases component with
  | wheels =>
    simp only [awaited, WheelsProtocol.awaited, Option.ite_none_right_eq_some] at hawaited
    rw [pendingId, if_pos hawaited.1.1]
    exact hawaited.2
  | motor name => exact hawaited
  | buzzer => exact hawaited

theorem awaited_of_ne {actuators : Actuators} {component : Component}
    (hother : component ≠ .wheels) : awaited actuators component = actuators.pendingId component := by
  rw [← held_awaited]
  exact Pending.held_of_ne hother

section callbacks

variable {fpu} {beyond : StackBytes} {id : RequestId} {input : List Char}
  {actuators next : Actuators} {replies : List Reply}

theorem stores_awaits {component : Component} (hstores : Pending.Stores component id actuators next)
    (hwheels : component ≠ .wheels → next.wheels = actuators.wheels) {other : Component}
    {otherId : RequestId} (hawaited : awaited next other = some otherId) :
    awaited actuators other = some otherId ∨ other = component ∧ otherId = id := by
  by_cases hsame : other = component
  · have hpending := pending_of_awaited hawaited
    rw [hsame, hstores.1] at hpending
    exact .inr ⟨hsame, (Option.some.inj hpending).symm⟩
  · left
    by_cases hwheel : other = .wheels
    · subst hwheel
      rw [awaited, hwheels (Ne.symm hsame)] at hawaited
      exact hawaited
    · rw [awaited_of_ne hwheel] at hawaited ⊢
      rw [← hstores.2 other hsame]
      exact hawaited

theorem walks_awaits {wheels : Wheels} (hendless : WheelsProtocol.isEndless wheels)
    {other : Component} {otherId : RequestId}
    (hawaited : awaited { actuators with wheels } other = some otherId) :
    awaited actuators other = some otherId := by
  by_cases hwheel : other = .wheels
  · subst hwheel
    simp [awaited, WheelsProtocol.awaited, hendless] at hawaited
  · rw [awaited_of_ne hwheel] at hawaited ⊢
    rw [Pending.pendingId_wheels_of_ne wheels actuators hwheel] at hawaited
    exact hawaited

theorem callback_awaits {name : Callback} {component : Component}
    (h : Actuators.callback fpu beyond id input actuators name =
      some (component, .ok (next, replies))) :
    (replies = [] ∧ ∀ other otherId, awaited next other = some otherId →
      awaited actuators other = some otherId ∨ other = component ∧ otherId = id) ∨
    (replies = [.finished id] ∧ ∀ other otherId, awaited next other = some otherId →
      awaited actuators other = some otherId) := by
  cases drives_of_callback h with
  | beep =>
    refine .inl ⟨rfl, fun other otherId => ?_⟩
    apply stores_awaits
    · exact Pending.stores_buzzer actuators rfl rfl
    · exact fun _ => rfl
  | move | turn =>
    refine .inl ⟨rfl, fun other otherId => ?_⟩
    apply stores_awaits
    · exact Pending.stores_wheels actuators rfl rfl
    · exact absurd rfl
  | walk | rotate => exact .inr ⟨rfl, fun _ _ => walks_awaits (.inl rfl)⟩
  | vacuumMotor | leftBrushMotor | rightBrushMotor | mainBrushMotor =>
    refine .inl ⟨rfl, fun other otherId => ?_⟩
    apply stores_awaits
    · exact Pending.stores_motor actuators rfl rfl
    · exact fun _ => rfl

end callbacks

/-- What an accepted instruction does: `awaits` names the component, if any, that
will answer it. -/
structure Performed (twice : Prop) [Decidable twice] (id : RequestId) (before after : Actuators)
    (replies : List Reply) : Prop where
  awaits : ∃ component, ∀ other otherId, awaited after other = some otherId →
    awaited before other = some otherId ∨ other = component ∧ otherId = id ∧ replies = []
  replies : replies = [] ∧ ¬ twice ∨
    replies.map Reply.requestId = if twice then [id, id] else [id]

theorem performed (around : Surroundings) (id : RequestId) (input : List Char)
    (firmware : Firmware F) (name : Callback) :
    Performed (name = .onBluetoothLedState ∧ Firmware.namesLed input) id firmware.actuators
      (firmware.callback fpu toFloat around id input name).1.actuators
      (firmware.callback fpu toFloat around id input name).2 := by
  obtain ⟨component, outcome, hcallback, hacted⟩ | ⟨hactuators, hids⟩ :=
    firmware.callback_cases fpu toFloat around id input name
  · have hname : ¬ (name = .onBluetoothLedState ∧ Firmware.namesLed input) := by
      rintro ⟨rfl, -⟩
      cases hcallback
    rw [hacted]
    cases outcome with
    | error errorCode =>
      exact ⟨⟨component, fun _ _ hawaited => .inl hawaited⟩, .inr (by rw [if_neg hname]; rfl)⟩
    | ok outcome =>
      obtain ⟨next, replies⟩ := outcome
      cases callback_awaits hcallback with
      | inl hstored =>
        refine ⟨⟨component, fun other otherId hawaited => ?_⟩, .inl ⟨hstored.1, hname⟩⟩
        refine (hstored.2 other otherId hawaited).imp_right fun hnew => ?_
        exact ⟨hnew.1, hnew.2, hstored.1⟩
      | inr hanswered =>
        refine ⟨⟨component, fun other otherId hawaited => ?_⟩, .inr ?_⟩
        · exact .inl (hanswered.2 other otherId hawaited)
        · rw [if_neg hname, Firmware.acted, hanswered.1]
          rfl
  · rw [hactuators]
    exact ⟨⟨.wheels, fun _ _ hawaited => .inl hawaited⟩, .inr hids⟩

theorem steady_awaited : Pending.Steady WheelsProtocol.awaited where
  tick wheels := by
    have hkeeps := WheelsProtocol.keeps_stopLoneWheel wheels
    obtain ⟨-, -, hquiet | ⟨hmoving, hidle, hidle', hreply, hdone⟩⟩ :=
      WheelsProtocol.tick_wheels wheels
    · left
      rw [hquiet]
      exact ⟨rfl, WheelsProtocol.awaited_congr (by simp) (by simp) hkeeps.1 hkeeps.2⟩
    · refine .inr ⟨_, hreply, WheelsProtocol.awaited_of_idle hmoving hidle hidle', ?_⟩
      simp [WheelsProtocol.awaited, hdone]
  interrupt side res actuators := by
    cases side with
    | left => exact WheelsProtocol.awaited_congr rfl rfl (.tick res _) (.refl _)
    | right => exact WheelsProtocol.awaited_congr rfl rfl (.refl _) (.tick res _)
  pulse side actuators := by
    cases side with
    | left => exact WheelsProtocol.awaited_congr rfl rfl (.pulse _) (.refl _)
    | right => exact WheelsProtocol.awaited_congr rfl rfl (.refl _) (.pulse _)

/-- What is awaited has been accepted, is awaited by one component only and has
not been answered; every answer is to an accepted instruction. -/
structure Inv (world : World F) : Prop where
  sentAccepted : ∀ reply ∈ world.sent, reply.requestId ∈ world.accepted
  awaitedAccepted : ∀ component id, awaited world.firmware.actuators component = some id →
    id ∈ world.accepted
  awaitedOpen : ∀ component id, awaited world.firmware.actuators component = some id →
    ∀ reply ∈ world.sent, reply.requestId ≠ id
  awaitedOnce : ∀ component other id, awaited world.firmware.actuators component = some id →
    awaited world.firmware.actuators other = some id → component = other

theorem Inv.start (settings : PidSettings F) : Inv (start settings) := by
  have hnone : ∀ component id, awaited {} component ≠ some id := by
    intro component id
    cases component <;> simp [awaited, WheelsProtocol.awaited, pendingId]
  exact ⟨fun _ hsent => absurd hsent List.not_mem_nil,
    fun component id hawaited => absurd hawaited (hnone component id),
    fun component id hawaited => absurd hawaited (hnone component id),
    fun component _ id hawaited => absurd hawaited (hnone component id)⟩

theorem Inv.not_sent {world : World F} (inv : Inv world) {id : RequestId}
    (hfresh : id ∉ world.accepted) : ∀ reply ∈ world.sent, reply.requestId ≠ id := by
  intro reply hreply heq
  have haccepted := inv.sentAccepted reply hreply
  rw [heq] at haccepted
  exact hfresh haccepted

theorem Inv.not_awaited {world : World F} (inv : Inv world) {id : RequestId}
    (hfresh : id ∉ world.accepted) (component : Component) :
    awaited world.firmware.actuators component ≠ some id :=
  fun hawaited => hfresh (inv.awaitedAccepted component id hawaited)

theorem Inv.instruction {world : World F} (inv : Inv world) {twice : Prop} [Decidable twice]
    {id : RequestId} {firmware : Firmware F} {replies : List Reply}
    (hfresh : id ∉ world.accepted)
    (hperformed : Performed twice id world.firmware.actuators firmware.actuators replies) :
    Inv ⟨firmware, world.accepted ++ [id], world.sent ++ replies⟩ := by
  obtain ⟨component, hawaits⟩ := hperformed.awaits
  have hreplies : ∀ reply ∈ replies, reply.requestId = id := by
    intro reply hreply
    have hmem := List.mem_map_of_mem (f := Reply.requestId) hreply
    cases hperformed.replies with
    | inl hnone =>
      rw [hnone.1] at hreply
      cases hreply
    | inr hids =>
      rw [hids] at hmem
      split at hmem <;> simpa using hmem
  constructor
  · intro reply hreply
    cases List.mem_append.mp hreply with
    | inl hold => exact List.mem_append_left _ (inv.sentAccepted reply hold)
    | inr hnew => exact List.mem_append_right _ (List.mem_singleton.mpr (hreplies reply hnew))
  · intro other otherId hawaited
    cases hawaits other otherId hawaited with
    | inl hold => exact List.mem_append_left _ (inv.awaitedAccepted other otherId hold)
    | inr hnew => exact List.mem_append_right _ (List.mem_singleton.mpr hnew.2.1)
  · intro other otherId hawaited reply hreply heq
    cases hawaits other otherId hawaited with
    | inl hold =>
      cases List.mem_append.mp hreply with
      | inl hsent => exact inv.awaitedOpen other otherId hold reply hsent heq
      | inr hnow =>
        rw [← heq, hreplies reply hnow] at hold
        exact inv.not_awaited hfresh other hold
    | inr hnew =>
      rw [hnew.2.2, List.append_nil] at hreply
      exact inv.not_sent hfresh reply hreply (heq.trans hnew.2.1)
  · intro other another otherId hother hanother
    cases hawaits other otherId hother with
    | inl hold =>
      cases hawaits another otherId hanother with
      | inl hold' => exact inv.awaitedOnce other another otherId hold hold'
      | inr hnew =>
        rw [hnew.2.1] at hold
        exact absurd hold (inv.not_awaited hfresh other)
    | inr hnew =>
      cases hawaits another otherId hanother with
      | inl hold =>
        rw [hnew.2.1] at hold
        exact absurd hold (inv.not_awaited hfresh another)
      | inr hnew' => rw [hnew.1, hnew'.1]

theorem Inv.tick {world : World F} (inv : Inv world) {firmware : Firmware F}
    {replies : List Reply} (hticked : Pending.Ticked WheelsProtocol.awaited
      world.firmware.actuators firmware.actuators replies) :
    Inv ⟨firmware, world.accepted, world.sent ++ replies⟩ := by
  simp only [Pending.Ticked, held_awaited] at hticked
  cases hticked with
  | inl hquiet =>
    obtain ⟨rfl, hsame⟩ := hquiet
    rw [List.append_nil]
    constructor
    · exact inv.sentAccepted
    · intro component id
      rw [hsame]
      exact inv.awaitedAccepted component id
    · intro component id
      rw [hsame]
      exact inv.awaitedOpen component id
    · intro component other id
      rw [hsame, hsame]
      exact inv.awaitedOnce component other id
  | inr hanswered =>
    obtain ⟨target, answered, rfl, htarget, hnone, hothers⟩ := hanswered
    -- what is still awaited was awaited before, by a component other than the target
    have hbefore : ∀ component id, awaited firmware.actuators component = some id →
        component ≠ target ∧ awaited world.firmware.actuators component = some id := by
      intro component id hawaited
      have hne : component ≠ target := by
        rintro rfl
        rw [hnone] at hawaited
        cases hawaited
      exact ⟨hne, (hothers component hne).symm.trans hawaited⟩
    constructor
    · intro reply hreply
      cases List.mem_append.mp hreply with
      | inl hsent => exact inv.sentAccepted reply hsent
      | inr hnow =>
        rw [List.mem_singleton.mp hnow]
        exact inv.awaitedAccepted target answered htarget
    · intro component id hawaited
      exact inv.awaitedAccepted component id (hbefore component id hawaited).2
    · intro component id hawaited reply hreply heq
      obtain ⟨hne, hold⟩ := hbefore component id hawaited
      cases List.mem_append.mp hreply with
      | inl hsent => exact inv.awaitedOpen component id hold reply hsent heq
      | inr hnow =>
        rw [List.mem_singleton.mp hnow] at heq
        subst heq
        exact hne (inv.awaitedOnce component target _ hold htarget)
    · intro component other id hcomponent hother
      exact inv.awaitedOnce component other id (hbefore component id hcomponent).2
        (hbefore other id hother).2

theorem nodup_of_append {sent replies : List Reply}
    (hnodup : ((sent ++ replies).map Reply.requestId).Nodup) :
    (sent.map Reply.requestId).Nodup := by
  rw [List.map_append] at hnodup
  exact (List.nodup_append.mp hnodup).1

theorem nodup_performed_iff {sent replies : List Reply} {id : RequestId} {twice : Prop}
    [Decidable twice] {before after : Actuators}
    (hperformed : Performed twice id before after replies)
    (hfresh : ∀ reply ∈ sent, reply.requestId ≠ id) (hnodup : (sent.map Reply.requestId).Nodup) :
    ((sent ++ replies).map Reply.requestId).Nodup ↔ ¬ twice := by
  have hmap : ∀ other ∈ sent.map Reply.requestId, other ≠ id := by
    intro other hother
    obtain ⟨reply, hreply, rfl⟩ := List.mem_map.mp hother
    exact hfresh reply hreply
  rw [List.map_append]
  cases hperformed.replies with
  | inl hnone => simpa [hnone.1] using iff_of_true hnodup hnone.2
  | inr hids =>
    rw [hids]
    by_cases htwice : twice
    · rw [if_pos htwice]
      refine iff_of_false (fun hall => ?_) (not_not.mpr htwice)
      have hpair := (List.nodup_append.mp hall).2.1
      exact absurd hpair (by simp)
    · rw [if_neg htwice]
      refine iff_of_true (List.nodup_append.mpr ⟨hnodup, by simp, ?_⟩) htwice
      intro other hother another hanother
      rw [List.mem_singleton.mp hanother]
      exact hmap other hother

theorem nodup_ticked {world : World F} (inv : Inv world) {after : Actuators}
    {replies : List Reply} (hticked : Pending.Ticked WheelsProtocol.awaited
      world.firmware.actuators after replies)
    (hnodup : (world.sent.map Reply.requestId).Nodup) :
    ((world.sent ++ replies).map Reply.requestId).Nodup := by
  simp only [Pending.Ticked, held_awaited] at hticked
  cases hticked with
  | inl hquiet => simpa [hquiet.1] using hnodup
  | inr hanswered =>
    obtain ⟨component, id, rfl, hawaited, -, -⟩ := hanswered
    rw [List.map_append]
    refine List.nodup_append.mpr ⟨hnodup, by simp, ?_⟩
    intro other hother another hanother
    obtain ⟨reply, hreply, rfl⟩ := List.mem_map.mp hother
    rw [List.mem_singleton.mp hanother]
    exact inv.awaitedOpen component id hawaited reply hreply

theorem step_spec {world next : World F} {event : Event} (inv : Inv world)
    (hdistinct : distinctIds world event)
    (hstep : World.step fpu toFloat world event = some next) :
    Inv next ∧ (answeredTwice world → answeredTwice next) ∧
      (¬ answeredTwice world → (¬ answeredTwice next ↔ answersOnce world event)) := by
  cases event with
  | instruction line around =>
    simp only [World.step] at hstep
    rw [distinctIds] at hdistinct
    rw [answersOnce]
    cases hhandle : handle line with
    | ok name id value =>
      rw [hhandle] at hdistinct hstep
      cases hstep
      have hperformed := performed fpu toFloat around id value world.firmware name
      refine ⟨inv.instruction hdistinct hperformed, mt nodup_of_append, fun hclear => ?_⟩
      rw [answeredTwice, not_not]
      exact nodup_performed_iff hperformed (inv.not_sent hdistinct) (not_not.mp hclear)
    | undefinedCommand =>
      rw [hhandle] at hstep
      cases hstep
      exact ⟨inv, id, fun hclear => iff_of_true hclear trivial⟩
    | wrongInstruction =>
      rw [hhandle] at hstep
      cases hstep
      exact ⟨inv, id, fun hclear => iff_of_true hclear trivial⟩
  | tick tick =>
    cases hstep
    have hticked := Pending.ticked steady_awaited world.firmware.actuators tick
    refine ⟨inv.tick hticked, mt nodup_of_append, fun hclear => iff_of_true ?_ trivial⟩
    rw [answeredTwice, not_not]
    exact nodup_ticked inv hticked (not_not.mp hclear)
  | power answer =>
    cases hstep
    exact ⟨⟨inv.sentAccepted, inv.awaitedAccepted, inv.awaitedOpen, inv.awaitedOnce⟩, id,
      fun hclear => iff_of_true hclear trivial⟩

/-- Under distinct ids no id is answered twice exactly in the runs that name no
bluetooth LED. -/
theorem answeredOnce_iff (settings : PidSettings F) (events : List Event) (finish : World F)
    (hdistinct : (machine fpu toFloat).Guarded distinctIds (start settings) events)
    (hexec : (machine fpu toFloat).exec (start settings) events = some finish) :
    (finish.sent.map Reply.requestId).Nodup ↔
      (machine fpu toFloat).Guarded answersOnce (start settings) events := by
  have hstart : ¬ answeredTwice (start settings) := not_not.mpr List.nodup_nil
  have hclear : ¬ answeredTwice finish ↔
      (machine fpu toFloat).Guarded answersOnce (start settings) events :=
    exec_clear_iff answeredTwice Inv distinctIds
      (fun _ _ _ inv hdistinct hstep => step_spec fpu toFloat inv hdistinct hstep)
      (.start settings) hstart hdistinct hexec
  rw [answeredTwice, not_not] at hclear
  exact hclear

/-- An instruction line as the core sends it, read with nothing around it. -/
def send (line : String) : Event :=
  .instruction (line.toList ++ ['\r', '\n']) ⟨fun _ => [], 0, id, none⟩

def noGains : PidSettings Scanned :=
  ⟨⟨.number 0, .number 0, .number 0⟩, ⟨.number 0, .number 0, .number 0⟩⟩

def noFpu : FloatUnit := ⟨fun _ => 0, fun _ => 0⟩

/-- A move, a bluetooth LED instruction that names no LED, and the end of the
move. -/
def moveAndWrongLed : List Event :=
  [send "#06:0001:1;0;0;1", send "#17:0002:H;X", .tick (.wheel .left 0), .tick (.wheel .right 0),
    .tick .wheels]

theorem answeredOnce_after_moveAndWrongLed : ∃ finish,
    (machine noFpu id).exec (start noGains) moveAndWrongLed = some finish ∧
      finish.sent = [.failed 2 0x2, .finished 1] ∧
      ((finish.sent.map Reply.requestId).Nodup ↔
        (machine noFpu id).Guarded answersOnce (start noGains) moveAndWrongLed) := by
  have hdistinct : (machine noFpu id).Guarded distinctIds (start noGains) moveAndWrongLed := by
    decide +kernel
  obtain ⟨finish, hexec, hsent⟩ : ∃ finish,
      (machine noFpu id).exec (start noGains) moveAndWrongLed = some finish ∧
        finish.sent = [.failed 2 0x2, .finished 1] := ⟨_, rfl, rfl⟩
  exact ⟨finish, hexec, hsent,
    answeredOnce_iff noFpu id noGains moveAndWrongLed finish hdistinct hexec⟩

/-- The red bluetooth LED is switched on, which is answered twice. -/
theorem redLed_answeredTwice : ¬ ∀ fpu settings (world : World Scanned),
    (machine fpu id).Reach distinctIds (start settings) world →
    (world.sent.map Reply.requestId).Nodup := by
  intro hevery
  have hdistinct : (machine noFpu id).Guarded distinctIds (start noGains) [send "#17:0001:H;R"] := by
    decide +kernel
  obtain ⟨world, hexec, hsent⟩ : ∃ world,
      (machine noFpu id).exec (start noGains) [send "#17:0001:H;R"] = some world ∧
        world.sent = [.finished 1, .finished 1] := ⟨_, rfl, rfl⟩
  have honce := hevery noFpu noGains world (reach_of_exec_guarded hdistinct hexec)
  rw [hsent] at honce
  exact absurd honce (by decide)

end VacuumCleaner.A1.Answers
