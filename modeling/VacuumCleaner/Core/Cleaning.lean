import VacuumCleaner.Core.AlgorithmManager

/-! A cleaning that is over when the manager is idle again has finished properly
exactly when none of its callbacks raised. -/
namespace VacuumCleaner.Core.Cleaning

open Lib AlgorithmLoop AlgorithmManager

/-- Every thread but the working one is over. -/
def OthersOver (manager : Manager) : Prop :=
  ∀ index thread, manager.threads[index]? = some thread →
    manager.workingThread ≠ some index → thread.worker.isOver = true

/-- What the service thread knows of the manager at each place. -/
def Knows (manager : Manager) : Place → Prop
  | .testingAlgorithm | .settingRunning => manager.workingThread = none
  | .creatingInfo | .creatingThread => manager.state ≠ .idle ∧ manager.workingThread = none
  | .sayingStart | .startingThread | .testingStopped | .settingStopped | .joining =>
    manager.state ≠ .idle
  | .droppingThread => manager.state ≠ .idle ∧ ∀ index thread,
      manager.workingThread = some index → manager.threads[index]? = some thread →
        thread.worker.isOver = true
  | .droppingInfo | .settingIdle => manager.workingThread = none
  | .side _ | .testingThread | .sayingFinished => True

structure Inv (world : World) : Prop where
  consistent : ∀ thread ∈ world.manager.threads, thread.Consistent
  others : OthersOver world.manager
  idle : world.manager.state = .idle → world.manager.workingThread = none
  knows : Knows world.manager world.service

/-- A call of the side touches no thread, and it neither makes the manager idle
nor finds it so when it writes the state. -/
theorem goOnSide_frame {manager next : Manager} {raises : Bool} {place place' : SidePlace}
    (h : manager.goOnSide raises place = some (next, place')) :
    next.threads = manager.threads ∧ next.workingThread = manager.workingThread ∧
      (next.state = .idle → manager.state = .idle) := by
  cases place with
  | ready => cases h
  | selecting =>
    cases h
    cases raises <;> exact ⟨rfl, rfl, id⟩
  | pausing =>
    cases h
    exact ⟨rfl, rfl, id⟩
  | settingPaused | resuming =>
    cases h
    exact ⟨rfl, rfl, nofun⟩

theorem Knows.frame {manager next : Manager} {place : Place} (h : Knows manager place)
    (hthreads : next.threads = manager.threads)
    (hworking : next.workingThread = manager.workingThread)
    (hstate : next.state = .idle → manager.state = .idle) : Knows next place := by
  cases place <;> simp only [Knows, hworking, hthreads] at h ⊢
  case creatingInfo | creatingThread | droppingThread => exact ⟨fun hidle => h.1 (hstate hidle), h.2⟩
  case sayingStart | startingThread | testingStopped | settingStopped | joining =>
    exact fun hidle => h (hstate hidle)
  all_goals exact h

theorem Inv.side {world : World} {next : Manager} {raises : Bool} {place place' : SidePlace}
    (hinv : Inv world) (h : world.manager.goOnSide raises place = some (next, place')) :
    Inv { world with manager := next } := by
  obtain ⟨hthreads, hworking, hstate⟩ := goOnSide_frame h
  constructor
  · simpa only [hthreads] using hinv.consistent
  · simpa only [OthersOver, hthreads, hworking] using hinv.others
  · simpa only [hworking] using fun hidle => hinv.idle (hstate hidle)
  · exact hinv.knows.frame hthreads hworking hstate

theorem Inv.thread {world : World} {next : Manager} {index : Nat} {step : Thread → Option Thread}
    (hinv : Inv world) (hconsistent : ∀ before after : Thread, before.Consistent →
      step before = some after → after.Consistent)
    (hover : ∀ before after : Thread, step before = some after → before.worker.isOver = false)
    (h : world.manager.stepThread index step = some next) :
    Inv { world with manager := next } := by
  obtain ⟨before, after, hfound, hstep, rfl⟩ := stepThread_cases h
  have hbefore := hover before after hstep
  have hworking : world.manager.workingThread = some index := by
    by_contra hother
    have hdone := hinv.others index before hfound hother
    rw [hbefore] at hdone
    cases hdone
  constructor
  · intro thread hthread
    rcases List.mem_or_eq_of_mem_set hthread with hold | rfl
    · exact hinv.consistent thread hold
    · exact hconsistent before _ (hinv.consistent before (List.mem_of_getElem? hfound)) hstep
  · intro other thread hthread hother
    have hne : index ≠ other := fun heq => hother (heq ▸ hworking)
    rw [List.getElem?_set_ne hne] at hthread
    exact hinv.others other thread hthread hother
  · exact hinv.idle
  · have hknows := hinv.knows
    cases hplace : world.service <;> simp only [hplace, Knows] at hknows ⊢
    case droppingThread =>
      have hdone := hknows.2 index before hworking hfound
      rw [hbefore] at hdone
      cases hdone
    all_goals exact hknows

theorem Inv.place {world : World} {place : Place} (hinv : Inv world)
    (hknows : Knows world.manager place) : Inv { world with service := place } :=
  ⟨hinv.consistent, hinv.others, hinv.idle, hknows⟩

theorem Inv.create {world : World} (hinv : Inv world) (hstate : world.manager.state ≠ .idle)
    (hnone : world.manager.workingThread = none) :
    Inv { world with
      manager := { world.manager with
        workingThread := some world.manager.threads.length
        threads := world.manager.threads ++ [{}] }
      service := .sayingStart } := by
  constructor
  · intro thread hthread
    rcases List.mem_append.mp hthread with hold | hnew
    · exact hinv.consistent thread hold
    · rw [List.mem_singleton.mp hnew]
      exact fun _ => nofun
  · intro index thread hthread hother
    have hlt : index < world.manager.threads.length := by
      have hbound := (List.getElem?_eq_some_iff.mp hthread).1
      have hne : world.manager.threads.length ≠ index := fun heq => hother (congrArg some heq)
      simp only [List.length_append, List.length_singleton] at hbound
      omega
    rw [List.getElem?_append_left hlt] at hthread
    exact hinv.others index thread hthread (by rw [hnone]; nofun)
  · exact fun hidle => absurd hidle hstate
  · exact hstate

theorem Inv.startThread {world : World} {index : Nat} (hinv : Inv world)
    (hworking : world.manager.workingThread = some index) :
    Inv { world with
      manager := world.manager.startThread index
      service := .side .ready } := by
  constructor
  · intro thread hthread
    obtain ⟨place, hplace⟩ := List.mem_iff_getElem?.mp hthread
    obtain ⟨before, hbefore, hafter⟩ := getElem?_startThread hplace
    have hconsistent := hinv.consistent before (List.mem_of_getElem? hbefore)
    rcases hafter with rfl | ⟨-, hunstarted, rfl⟩
    · exact hconsistent
    · simp only [Thread.Consistent, hunstarted] at hconsistent
      exact hconsistent
  · intro other thread hthread hother
    obtain ⟨before, hbefore, rfl | ⟨rfl, -⟩⟩ := getElem?_startThread hthread
    · exact hinv.others other thread hbefore hother
    · exact absurd hworking hother
  · exact hinv.idle
  · trivial

theorem Inv.goOn {world : World} {next : Manager} {raises : Bool} {place : Place}
    (hinv : Inv world) (h : GoesOn world.manager raises world.service next place) :
    Inv { world with manager := next, service := place } := by
  have hknows := hinv.knows
  generalize world.service = before at h hknows
  cases h with
  | side hside => exact (hinv.side hside).place trivial
  | threadLeft | notSelected | noInfo | notSaid | nothingToStart | notStarted | alreadyStopped
  | noInfoToDrop | sayFinished => exact hinv.place trivial
  | noThread hworking => exact hinv.place hworking
  | selected | said | notStopped => exact hinv.place hknows
  | publish => exact ⟨hinv.consistent, hinv.others, nofun, nofun, hknows⟩
  | info => exact ⟨hinv.consistent, hinv.others, hinv.idle, hknows⟩
  | create => exact hinv.create hknows.1 hknows.2
  | started hworking => exact hinv.startThread hworking
  | stopped => exact ⟨hinv.consistent, hinv.others, nofun, nofun⟩
  | join hjoin =>
    apply hinv.place
    cases hjoin with
    | refused => trivial
    | threadOver hover => exact ⟨hknows, hover⟩
  | dropThread =>
    refine ⟨hinv.consistent, ?_, fun _ => rfl, rfl⟩
    intro index thread hthread _
    by_cases hworking : world.manager.workingThread = some index
    · exact hknows.2 index thread hworking hthread
    · exact hinv.others index thread hthread hworking
  | dropInfo => exact ⟨hinv.consistent, hinv.others, hinv.idle, hknows⟩
  | becomeIdle => exact ⟨hinv.consistent, hinv.others, fun _ => hknows, trivial⟩

theorem Inv.step {world next : World} {event : Event} (hinv : Inv world)
    (h : world.step event = some next) : Inv next := by
  cases takes_of_step h with
  | core => exact ⟨hinv.consistent, hinv.others, hinv.idle, hinv.knows⟩
  | coreGoesOn hside =>
    have hmanager := hinv.side hside
    exact ⟨hmanager.consistent, hmanager.others, hmanager.idle, hmanager.knows⟩
  | service | startRefused | start | stopRefused => exact hinv.place trivial
  | stop _ hstate => exact hinv.place hstate
  | serviceGoesOn hgoes => exact hinv.goOn hgoes
  | workerTests hthread =>
    exact hinv.thread (fun _ _ => .test) (fun _ _ => Thread.isOver_of_test) hthread
  | callback hthread =>
    exact hinv.thread (fun _ _ => .leave) (fun _ _ => Thread.isOver_of_leave) hthread

theorem Inv.start : Inv {} := by
  constructor
  · simp
  · intro index thread hthread
    simp at hthread
  · exact fun _ => rfl
  · trivial

/-- Without a working thread, every thread that the manager ever made is over. -/
theorem Inv.over {world : World} (hinv : Inv world)
    (hnone : world.manager.workingThread = none) :
    ∀ thread ∈ world.manager.threads, thread.worker.isOver = true := by
  intro thread hthread
  obtain ⟨index, hindex⟩ := List.mem_iff_getElem?.mp hthread
  exact hinv.others index thread hindex (by rw [hnone]; nofun)

theorem Inv.of_reach {world : World} (run : machine.Reach Machine.anyEvent {} world) :
    Inv world := by
  apply run.invariant Inv Inv.start
  intro state event next hinv _ hstep
  exact hinv.step hstep

theorem finished_iff_noneRaised (world : World) (run : machine.Reach Machine.anyEvent {} world)
    (hidle : world.manager.state = .idle) (thread : Thread)
    (hthread : thread ∈ world.manager.threads) :
    thread.FinishedAfterLoop ↔ thread.NoneRaised := by
  have hinv := Inv.of_reach run
  have hover := hinv.over (hinv.idle hidle) thread hthread
  exact (hinv.consistent thread hthread).finished_iff hover

/-- Select, start, pause with the lid open, resume, and stop, while the worker
goes through all its callbacks. -/
def wholeCleaning : List Event :=
  [.core (.setAlgorithm .simple), .coreGoesOn false, .start] ++
    List.replicate 7 (.serviceGoesOn false) ++
  [.callback 0 .returned, .core (.pause .lidIsOpened), .coreGoesOn false, .coreGoesOn false,
    .callback 0 .returned, .workerTests 0, .callback 0 .returned, .core .resume, .coreGoesOn false,
    .workerTests 0, .callback 0 .returned, .workerTests 0, .stop, .serviceGoesOn false,
    .serviceGoesOn false, .callback 0 .returned, .workerTests 0, .workerTests 0,
    .callback 0 .returned] ++
    List.replicate 5 (.serviceGoesOn false)

theorem finished_after_wholeCleaning :
    ∃ world, machine.exec {} wholeCleaning = some world ∧ world.manager.state = .idle ∧
      ∃ thread ∈ world.manager.threads, thread.calls.length = 6 ∧
        (thread.FinishedAfterLoop ↔ thread.NoneRaised) := by
  have hexec : ∃ world, machine.exec {} wholeCleaning = some world ∧
      world.manager.state = .idle ∧ ∃ thread ∈ world.manager.threads, thread.calls.length = 6 :=
    ⟨_, rfl, rfl, _, List.mem_cons_self, rfl⟩
  obtain ⟨world, hexec, hidle, thread, hthread, hlength⟩ := hexec
  exact ⟨world, hexec, hidle, thread, hthread, hlength,
    finished_iff_noneRaised world (Machine.reach_of_exec hexec) hidle thread hthread⟩

/-- The wheels are left as `loop` set them when a robot call in it raises. -/
def brokenCleaning : List Event :=
  [.core (.setAlgorithm .simple), .coreGoesOn false, .start] ++
    List.replicate 7 (.serviceGoesOn false) ++
  [.callback 0 .returned, .callback 0 .raised, .stop] ++ List.replicate 6 (.serviceGoesOn false)

theorem not_finished_after_brokenCleaning :
    ¬ ∀ world, machine.Reach Machine.anyEvent {} world → world.manager.state = .idle →
      ∀ thread ∈ world.manager.threads, thread.FinishedAfterLoop := by
  intro hevery
  have hexec : ∃ world, machine.exec {} brokenCleaning = some world ∧
      world.manager.state = .idle ∧
      ⟨.died, [(.onPrepare, .returned), (.loop, .raised)]⟩ ∈ world.manager.threads :=
    ⟨_, rfl, rfl, List.mem_cons_self⟩
  obtain ⟨world, hexec, hidle, hthread⟩ := hexec
  obtain ⟨earlier, later, hsplit, -⟩ :=
    hevery world (Machine.reach_of_exec hexec) hidle _ hthread
  have hfinish : (Callback.onFinish, Outcome.returned) ∈
      [(Callback.onPrepare, Outcome.returned), (.loop, .raised)] := by
    dsimp only at hsplit
    rw [hsplit]
    simp
  simp at hfinish

end VacuumCleaner.Core.Cleaning
