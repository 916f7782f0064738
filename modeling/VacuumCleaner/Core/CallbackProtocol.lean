import VacuumCleaner.Core.Cleaning
import Mathlib.Data.List.Chain

/-! The order in which a worker calls back, when no operation of the manager is
interrupted and no callback raises. -/
namespace VacuumCleaner.Core.CallbackProtocol

open Lib AlgorithmLoop AlgorithmManager

/-- Rounds of the endless loop that are followed by another one. -/
inductive Rounds : List Callback → Prop
  | none : Rounds []
  | plain {rounds : List Callback} : Rounds rounds → Rounds (rounds ++ [.loop])
  | paused {rounds : List Callback} : Rounds rounds →
    Rounds (rounds ++ [.loop, .onPause, .onResume])

inductive LastRound : List Callback → Prop
  | plain : LastRound [.loop]
  | paused : LastRound [.loop, .onPause]
  | resumed : LastRound [.loop, .onPause, .onResume]

/-- The calls of a worker from its start to its end. -/
def IsWord (calls : List Callback) : Prop :=
  ∃ rounds last, Rounds rounds ∧ LastRound last ∧
    calls = .onPrepare :: (rounds ++ last ++ [.onFinish])

/-- Which callback may come straight after which. -/
def follows : Callback → Callback → Bool
  | .onPrepare, .loop => true
  | .loop, .loop | .loop, .onPause | .loop, .onFinish => true
  | .onPause, .onResume | .onPause, .onFinish => true
  | .onResume, .loop | .onResume, .onFinish => true
  | _, _ => false

/-- The callbacks that a thread has entered. -/
def invoked (thread : Thread) : List Callback :=
  thread.calls.map Prod.fst ++
    match thread.worker with
    | .inside callback => [callback]
    | _ => []

def FollowsProtocol (thread : Thread) : Prop := ∃ word, IsWord word ∧ invoked thread <+: word

/-- What the order means for the three callbacks around a pause. -/
structure Paired (calls : List Callback) : Prop where
  resumed : ∀ earlier later, calls ≠ earlier ++ .onPause :: .loop :: later
  paused : ∀ earlier later, calls = earlier ++ .onResume :: later →
    earlier.getLast? = some .onPause
  once : calls.count .onFinish ≤ 1

def isCoreStep : Event → Bool
  | .coreGoesOn _ => true
  | _ => false

def isRaise : Event → Bool
  | .callback _ .raised => true
  | _ => false

/-- An operation that has begun goes on before anything else happens, and a
callback comes back. -/
def Uninterrupted (world : World) (event : Event) : Prop :=
  (world.core ≠ .ready → isCoreStep event = true) ∧
    (world.service.isOperating = true → event.isServiceStep = true) ∧ isRaise event = false

instance (world : World) (event : Event) : Decidable (Uninterrupted world event) :=
  inferInstanceAs (Decidable (_ ∧ _ ∧ _))

theorem chain_rounds {rounds : List Callback} (h : Rounds rounds) :
    List.IsChain (follows · ·) (.onPrepare :: rounds) ∧
      ∀ last ∈ (.onPrepare :: rounds).getLast?, follows last .loop = true := by
  induction h with
  | none => simp [follows]
  | plain _ ih =>
    rw [← List.cons_append]
    refine ⟨ih.1.append (.singleton _) (by simpa using ih.2), fun last hlast => ?_⟩
    rw [List.getLast?_append_of_ne_nil _ (by simp)] at hlast
    cases hlast
    rfl
  | paused _ ih =>
    rw [← List.cons_append]
    refine ⟨ih.1.append (by simp [follows]) (by simpa using ih.2), fun last hlast => ?_⟩
    rw [List.getLast?_append_of_ne_nil _ (by simp)] at hlast
    cases hlast
    rfl

theorem chain_word {word : List Callback} (h : IsWord word) :
    List.IsChain (follows · ·) word := by
  obtain ⟨rounds, last, hrounds, hlast, rfl⟩ := h
  obtain ⟨hchain, hnext⟩ := chain_rounds hrounds
  rw [List.append_assoc, ← List.cons_append]
  apply hchain.append
  · cases hlast <;> simp [follows]
  · cases hlast <;> simpa using hnext

theorem count_onFinish {calls : List Callback} (h : List.IsChain (follows · ·) calls) :
    calls.count .onFinish ≤ 1 := by
  induction calls with
  | nil => simp
  | cons callback calls ih =>
    by_cases hfinish : callback = .onFinish
    · cases calls with
      | nil => simp [hfinish]
      | cons next calls =>
        rw [List.isChain_cons_cons, hfinish] at h
        cases next <;> cases h.1
    · rw [List.count_cons_of_ne (by simpa using hfinish)]
      exact ih h.tail

theorem FollowsProtocol.paired {thread : Thread} (h : FollowsProtocol thread) :
    Paired (invoked thread) := by
  obtain ⟨word, hword, hbegins⟩ := h
  have hchain := List.IsChain.prefix (chain_word hword) hbegins
  constructor
  · intro earlier later heq
    rw [heq, List.isChain_append_cons_cons] at hchain
    cases hchain.2.1
  · intro earlier later heq
    rw [heq, List.isChain_append] at hchain
    cases hlast : earlier.getLast? with
    | none =>
      -- a word begins with `on_prepare`
      obtain ⟨rounds, last, -, -, rfl⟩ := hword
      obtain ⟨rest, hrest⟩ := hbegins
      rw [heq, List.getLast?_eq_none_iff.mp hlast] at hrest
      cases hrest
    | some callback =>
      have hfollows := hchain.2.2 callback hlast .onResume rfl
      cases callback with
      | onPause => rfl
      | _ => cases hfollows
  · exact count_onFinish hchain

/-- What the calls of a thread look like at each of its places. A worker that
has left its pause without `on_resume` has seen STOPPED. -/
def Traced (state : State) (thread : Thread) : Prop :=
  let calls := thread.calls.map Prod.fst
  match thread.worker with
  | .unstarted | .inside .onPrepare => calls = []
  | .inside .loop => ∃ rounds, Rounds rounds ∧ calls = .onPrepare :: rounds
  | .checkingPaused | .inside .onPause =>
    ∃ rounds, Rounds rounds ∧ calls = .onPrepare :: (rounds ++ [.loop])
  | .blockedRunning | .blockedStopped | .inside .onResume =>
    ∃ rounds, Rounds rounds ∧ calls = .onPrepare :: (rounds ++ [.loop, .onPause])
  | .checkingStopped => ∃ rounds last, Rounds rounds ∧ LastRound last ∧
      calls = .onPrepare :: (rounds ++ last) ∧ (last = [.loop, .onPause] → state = .stopped)
  | .inside .onFinish => ∃ rounds last, Rounds rounds ∧ LastRound last ∧
      calls = .onPrepare :: (rounds ++ last)
  | .ended => IsWord calls
  | .died => False

theorem Rounds.append_last {rounds last : List Callback} (hrounds : Rounds rounds)
    (hlast : LastRound last) (hresumed : last ≠ [.loop, .onPause]) : Rounds (rounds ++ last) := by
  cases hlast with
  | plain => exact hrounds.plain
  | paused => exact absurd rfl hresumed
  | resumed => exact hrounds.paused

theorem isPrefix_word {rounds last calls : List Callback} (hrounds : Rounds rounds)
    (hlast : LastRound last) (hbegins : calls <+: .onPrepare :: (rounds ++ last ++ [.onFinish])) :
    ∃ word, IsWord word ∧ calls <+: word :=
  ⟨_, ⟨rounds, last, hrounds, hlast, rfl⟩, hbegins⟩

theorem Traced.follows {state : State} {thread : Thread} (h : Traced state thread) :
    FollowsProtocol thread := by
  obtain ⟨worker, calls⟩ := thread
  cases worker with
  | unstarted =>
    have hcalls : calls.map Prod.fst = [] := h
    exact isPrefix_word .none .plain (by simp [invoked, hcalls])
  | inside callback =>
    cases callback with
    | onPrepare =>
      have hcalls : calls.map Prod.fst = [] := h
      exact isPrefix_word .none .plain (by simp [invoked, hcalls])
    | loop =>
      obtain ⟨rounds, hrounds, hcalls⟩ := h
      exact isPrefix_word hrounds .plain (by simp [invoked, hcalls])
    | onPause =>
      obtain ⟨rounds, hrounds, hcalls⟩ := h
      exact isPrefix_word hrounds .paused (by simp [invoked, hcalls])
    | onResume =>
      obtain ⟨rounds, hrounds, hcalls⟩ := h
      exact isPrefix_word hrounds .resumed (by simp [invoked, hcalls])
    | onFinish =>
      obtain ⟨rounds, last, hrounds, hlast, hcalls⟩ := h
      exact isPrefix_word hrounds hlast (by simp [invoked, hcalls])
  | checkingPaused =>
    obtain ⟨rounds, hrounds, hcalls⟩ := h
    exact isPrefix_word hrounds .plain (by simp [invoked, hcalls])
  | blockedRunning | blockedStopped =>
    obtain ⟨rounds, hrounds, hcalls⟩ := h
    exact isPrefix_word hrounds .paused (by simp [invoked, hcalls])
  | checkingStopped =>
    obtain ⟨rounds, last, hrounds, hlast, hcalls, -⟩ := h
    exact isPrefix_word hrounds hlast (by simp [invoked, hcalls])
  | ended => exact ⟨_, h, by simp [invoked]⟩
  | died => cases h

theorem Traced.frame {state next : State} {thread : Thread} (h : Traced state thread)
    (hstate : state = .stopped → next = .stopped) : Traced next thread := by
  obtain ⟨worker, calls⟩ := thread
  cases worker with
  | checkingStopped =>
    obtain ⟨rounds, last, hrounds, hlast, hcalls, hstopped⟩ := h
    exact ⟨rounds, last, hrounds, hlast, hcalls, fun hpaused => hstate (hstopped hpaused)⟩
  | inside callback => cases callback <;> exact h
  | _ => exact h

theorem Traced.frame_over {state next : State} {thread : Thread} (h : Traced state thread)
    (hover : thread.worker.isOver = true) : Traced next thread := by
  obtain ⟨worker, calls⟩ := thread
  cases worker with
  | ended => exact h
  | died => exact h
  | _ => cases hover

theorem Traced.test {state : State} {thread next : Thread} (h : Traced state thread)
    (hstep : thread.test state = some next) : Traced state next := by
  obtain ⟨worker, calls⟩ := thread
  obtain ⟨after, htest, rfl⟩ := Option.map_eq_some_iff.mp hstep
  cases worker with
  | checkingPaused =>
    cases htest
    split
    · exact h
    · obtain ⟨rounds, hrounds, hcalls⟩ := h
      exact ⟨rounds, [.loop], hrounds, .plain, hcalls, by simp⟩
  | blockedRunning =>
    cases htest
    split <;> exact h
  | blockedStopped =>
    cases htest
    split
    · rename_i hstopped
      obtain ⟨rounds, hrounds, hcalls⟩ := h
      exact ⟨rounds, [.loop, .onPause], hrounds, .paused, hcalls, fun _ => hstopped⟩
    · exact h
  | checkingStopped =>
    cases htest
    obtain ⟨rounds, last, hrounds, hlast, hcalls, hstopped⟩ := h
    split
    · exact ⟨rounds, last, hrounds, hlast, hcalls⟩
    · rename_i hgoing
      exact ⟨rounds ++ last, hrounds.append_last hlast fun hpaused => hgoing (hstopped hpaused),
        hcalls⟩
  | _ => cases htest

theorem Traced.leave {state : State} {thread next : Thread} (h : Traced state thread)
    (hstep : thread.leave .returned = some next) : Traced state next := by
  obtain ⟨worker, calls⟩ := thread
  cases worker with
  | inside callback =>
    cases hstep
    cases callback with
    | onPrepare =>
      have hcalls : calls.map Prod.fst = [] := h
      exact ⟨[], .none, by simp [hcalls]⟩
    | loop =>
      obtain ⟨rounds, hrounds, hcalls⟩ := h
      exact ⟨rounds, hrounds, by simp [hcalls]⟩
    | onPause =>
      obtain ⟨rounds, hrounds, hcalls⟩ := h
      exact ⟨rounds, hrounds, by simp [hcalls]⟩
    | onResume =>
      obtain ⟨rounds, hrounds, hcalls⟩ := h
      exact ⟨rounds, [.loop, .onPause, .onResume], hrounds, .resumed, by simp [hcalls], by simp⟩
    | onFinish =>
      obtain ⟨rounds, last, hrounds, hlast, hcalls⟩ := h
      exact ⟨rounds, last, hrounds, hlast, by simp [hcalls]⟩
  | _ => cases hstep

/-- What a thread has tested still holds while its operation goes on. -/
def SideKnows (manager : Manager) : SidePlace → Prop
  | .pausing _ | .settingPaused => manager.state = .running
  | .resuming => manager.state = .paused
  | .ready | .selecting _ => True

def ServiceKnows (manager : Manager) : Place → Prop
  | .side place => SideKnows manager place
  | _ => True

structure Inv (world : World) : Prop where
  cleaning : Cleaning.Inv world
  core : SideKnows world.manager world.core
  service : ServiceKnows world.manager world.service
  traced : ∀ thread ∈ world.manager.threads, Traced world.manager.state thread

theorem sideKnows_call (manager : Manager) (call : SideCall) :
    SideKnows manager (manager.call call) := by
  cases call with
  | setAlgorithm name =>
    simp only [Manager.call]
    split <;> trivial
  | pause reason =>
    simp only [Manager.call]
    split
    · assumption
    · trivial
  | resume =>
    simp only [Manager.call]
    split
    · assumption
    · trivial

/-- An operation of the side keeps what it has tested up to its write, which
never replaces STOPPED. -/
theorem goOnSide_knows {manager next : Manager} {raises : Bool} {place place' : SidePlace}
    (hknows : SideKnows manager place) (h : manager.goOnSide raises place = some (next, place')) :
    SideKnows next place' ∧ next.threads = manager.threads ∧
      (manager.state = .stopped → next.state = .stopped) := by
  cases place with
  | ready => cases h
  | selecting =>
    cases h
    cases raises <;> exact ⟨trivial, rfl, id⟩
  | pausing =>
    cases h
    exact ⟨hknows, rfl, id⟩
  | settingPaused =>
    cases h
    refine ⟨trivial, rfl, fun hstopped => ?_⟩
    rw [show manager.state = .running from hknows] at hstopped
    cases hstopped
  | resuming =>
    cases h
    refine ⟨trivial, rfl, fun hstopped => ?_⟩
    rw [show manager.state = .paused from hknows] at hstopped
    cases hstopped

theorem Inv.side {world : World} {next : Manager} {raises : Bool} {place place' : SidePlace}
    (hinv : Inv world) (hknows : SideKnows world.manager place)
    (h : world.manager.goOnSide raises place = some (next, place')) :
    SideKnows next place' ∧ ∀ thread ∈ next.threads, Traced next.state thread := by
  obtain ⟨hplace, hthreads, hstopped⟩ := goOnSide_knows hknows h
  refine ⟨hplace, fun thread hthread => ?_⟩
  rw [hthreads] at hthread
  exact (hinv.traced thread hthread).frame hstopped

theorem Inv.startThread {world : World} (hinv : Inv world) (index : Nat) :
    ∀ thread ∈ (world.manager.startThread index).threads,
      Traced (world.manager.startThread index).state thread := by
  intro thread hthread
  obtain ⟨place, hplace⟩ := List.mem_iff_getElem?.mp hthread
  obtain ⟨before, hbefore, hafter⟩ := getElem?_startThread hplace
  have htraced := hinv.traced before (List.mem_of_getElem? hbefore)
  rcases hafter with rfl | ⟨-, hunstarted, rfl⟩
  · exact htraced
  · simp only [Traced, hunstarted] at htraced
    exact htraced

theorem Inv.goOn {world : World} {next : Manager} {raises : Bool} {place : Place}
    (hinv : Inv world) (h : GoesOn world.manager raises world.service next place) :
    ServiceKnows next place ∧ ∀ thread ∈ next.threads, Traced next.state thread := by
  have hknows := hinv.cleaning.knows
  have hservice := hinv.service
  generalize world.service = before at h hknows hservice
  cases h with
  | side hside => exact hinv.side hservice hside
  | publish | becomeIdle =>
    refine ⟨trivial, fun thread hthread => ?_⟩
    exact (hinv.traced thread hthread).frame_over (hinv.cleaning.over hknows thread hthread)
  | create =>
    refine ⟨trivial, fun thread hthread => ?_⟩
    rcases List.mem_append.mp hthread with hold | hnew
    · exact hinv.traced thread hold
    · rw [List.mem_singleton.mp hnew]
      rfl
  | @started index => exact ⟨trivial, hinv.startThread index⟩
  | stopped =>
    refine ⟨trivial, fun thread hthread => ?_⟩
    exact (hinv.traced thread hthread).frame fun _ => rfl
  | join hjoin => cases hjoin <;> exact ⟨trivial, hinv.traced⟩
  | _ => exact ⟨trivial, hinv.traced⟩

theorem Inv.thread {world : World} {next : Manager} {index : Nat} {step : Thread → Option Thread}
    (hinv : Inv world) (htraced : ∀ before after : Thread, Traced world.manager.state before →
      step before = some after → Traced world.manager.state after)
    (h : world.manager.stepThread index step = some next) :
    next.state = world.manager.state ∧ ∀ thread ∈ next.threads, Traced next.state thread := by
  obtain ⟨before, after, hfound, hstep, rfl⟩ := stepThread_cases h
  refine ⟨rfl, fun thread hthread => ?_⟩
  rcases List.mem_or_eq_of_mem_set hthread with hold | rfl
  · exact hinv.traced thread hold
  · exact htraced before _ (hinv.traced before (List.mem_of_getElem? hfound)) hstep

theorem Uninterrupted.idle {world : World} {event : Event} (hguard : Uninterrupted world event) :
    (isCoreStep event = false → world.core = .ready) ∧
      (event.isServiceStep = false → world.service.isOperating = false) := by
  constructor
  · intro hother
    by_contra hcore
    rw [hguard.1 hcore] at hother
    cases hother
  · intro hother
    by_contra hservice
    rw [hguard.2.1 (by simpa using hservice)] at hother
    cases hother

theorem sideKnows_of_ready {manager : Manager} {place : SidePlace} (h : place = .ready) :
    SideKnows manager place := by
  rw [h]
  trivial

theorem serviceKnows_of_not_operating {manager : Manager} {place : Place}
    (h : place.isOperating = false) : ServiceKnows manager place := by
  cases place with
  | side place =>
    cases place with
    | ready => trivial
    | _ => cases h
  | _ => trivial

theorem Inv.step {world next : World} {event : Event} (hinv : Inv world)
    (hguard : Uninterrupted world event) (h : world.step event = some next) : Inv next := by
  have hcleaning := hinv.cleaning.step h
  obtain ⟨hcore, hservice⟩ := hguard.idle
  cases takes_of_step h with
  | core call => exact ⟨hcleaning, sideKnows_call _ call, hinv.service, hinv.traced⟩
  | coreGoesOn hside =>
    obtain ⟨hknows, htraced⟩ := hinv.side hinv.core hside
    exact ⟨hcleaning, hknows, serviceKnows_of_not_operating (hservice rfl), htraced⟩
  | service call => exact ⟨hcleaning, hinv.core, sideKnows_call _ call, hinv.traced⟩
  | startRefused | start | stopRefused | stop =>
    exact ⟨hcleaning, hinv.core, trivial, hinv.traced⟩
  | serviceGoesOn hgoes =>
    obtain ⟨hknows, htraced⟩ := hinv.goOn hgoes
    exact ⟨hcleaning, sideKnows_of_ready (hcore rfl), hknows, htraced⟩
  | workerTests hthread =>
    obtain ⟨-, htraced⟩ := hinv.thread (fun _ _ => .test) hthread
    exact ⟨hcleaning, sideKnows_of_ready (hcore rfl),
      serviceKnows_of_not_operating (hservice rfl), htraced⟩
  | @callback index outcome manager hthread =>
    cases outcome with
    | raised => cases hguard.2.2
    | returned =>
      obtain ⟨-, htraced⟩ := hinv.thread (fun _ _ => .leave) hthread
      exact ⟨hcleaning, sideKnows_of_ready (hcore rfl),
        serviceKnows_of_not_operating (hservice rfl), htraced⟩

theorem followsProtocol (world : World) (run : machine.Reach Uninterrupted {} world)
    (thread : Thread) (hthread : thread ∈ world.manager.threads) :
    FollowsProtocol thread ∧ Paired (invoked thread) := by
  have hinv : Inv world := by
    apply run.invariant Inv ⟨.start, trivial, trivial, by simp⟩
    intro state event next hinv hguard hstep
    exact hinv.step hguard hstep
  have hprotocol := (hinv.traced thread hthread).follows
  exact ⟨hprotocol, hprotocol.paired⟩

theorem followsProtocol_after_wholeCleaning :
    ∃ world thread, machine.exec {} Cleaning.wholeCleaning = some world ∧
      thread ∈ world.manager.threads ∧ (invoked thread).length = 6 ∧
      FollowsProtocol thread ∧ Paired (invoked thread) := by
  have hguard : machine.Guarded Uninterrupted {} Cleaning.wholeCleaning := by
    decide +kernel
  have hexec : ∃ world thread, machine.exec {} Cleaning.wholeCleaning = some world ∧
      thread ∈ world.manager.threads ∧ (invoked thread).length = 6 :=
    ⟨_, _, rfl, List.mem_cons_self, rfl⟩
  obtain ⟨world, thread, hexec, hthread, hlength⟩ := hexec
  exact ⟨world, thread, hexec, hthread, hlength,
    followsProtocol world (Machine.reach_of_exec_guarded hguard hexec) thread hthread⟩

end VacuumCleaner.Core.CallbackProtocol
