import VacuumCleaner.Lib.Machine

/-! A script that sends outputs in its order, beside a worker that emits outputs
of its own: what one sends falls anywhere between what the other sends. -/
namespace VacuumCleaner.Lib

universe u v w

/-- A step may emit an output. -/
structure Emitter (State : Type u) (Event : Type v) (Output : Type w) where
  step : State → Event → Option (State × Option Output)

/-- A line of a script: an output, or a call that sends nothing and may raise. -/
inductive Item (Output : Type w)
  | send (output : Output)
  | call

/-- What has been sent so far, and what the two threads have still to do. -/
structure Scene (State : Type u) (Output : Type w) where
  sent : List Output
  script : List (Item Output)
  worker : State

inductive Turn (Event : Type v)
  | script (raises : Bool)
  | worker (event : Event)

namespace Emitter

variable {State : Type u} {Event : Type v} {Output : Type w}

/-- A script that raises is over. -/
def sceneStep (emitter : Emitter State Event Output) (scene : Scene State Output) :
    Turn Event → Option (Scene State Output)
  | .script raises =>
    match scene.script with
    | [] => none
    | .send output :: script => some { scene with sent := scene.sent ++ [output], script }
    | .call :: script => some { scene with script := if raises then [] else script }
  | .worker event =>
    (emitter.step scene.worker event).map fun (worker, output) =>
      { scene with sent := scene.sent ++ output.toList, worker }

def machine (emitter : Emitter State Event Output) : Machine (Scene State Output) (Turn Event) :=
  ⟨emitter.sceneStep⟩

/-- Some run of the worker alone ends with this output. -/
inductive MayEmit (emitter : Emitter State Event Output) : State → Output → Prop
  | now {state next : State} {event : Event} {output : Output} :
    emitter.step state event = some (next, some output) → MayEmit emitter state output
  | later {state next : State} {event : Event} {emitted : Option Output} {output : Output} :
    emitter.step state event = some (next, emitted) → MayEmit emitter next output →
    MayEmit emitter state output

variable {emitter : Emitter State Event Output}

/-- The rule for what a worker never emits. -/
theorem MayEmit.invariant {state : State} {output : Output} (property : State → Prop)
    (allowed : Output → Prop)
    (hstep : ∀ state event next emitted, property state →
      emitter.step state event = some (next, emitted) →
      property next ∧ ∀ output ∈ emitted, allowed output)
    (hstart : property state) (h : emitter.MayEmit state output) : allowed output := by
  induction h with
  | now hnow => exact (hstep _ _ _ _ hstart hnow).2 _ rfl
  | later hlater _ ih => exact ih (hstep _ _ _ _ hstart hlater).1

theorem MayEmit.reach {state : State} {output : Output} (h : emitter.MayEmit state output)
    (sent : List Output) (script : List (Item Output)) :
    ∃ worker emitted, emitter.machine.Reach Machine.anyEvent ⟨sent, script, state⟩
      ⟨sent ++ emitted ++ [output], script, worker⟩ := by
  induction h generalizing sent with
  | @now state next event output hnow =>
    have hstep : emitter.machine.step ⟨sent, script, state⟩ (.worker event) =
        some ⟨sent ++ [] ++ [output], script, next⟩ := by
      simp [machine, sceneStep, hnow]
    exact ⟨next, [], .one hstep trivial⟩
  | @later state next event first output hlater _ ih =>
    have hstep : emitter.machine.step ⟨sent, script, state⟩ (.worker event) =
        some ⟨sent ++ first.toList, script, next⟩ := by
      simp [machine, sceneStep, hlater]
    obtain ⟨worker, emitted, hrun⟩ := ih (sent ++ first.toList)
    refine ⟨worker, first.toList ++ emitted, .head hstep trivial ?_⟩
    rw [← List.append_assoc sent]
    exact hrun

def sends (script : List (Item Output)) : List Output :=
  script.filterMap fun
    | .send output => some output
    | .call => none

theorem reach_script (sent : List Output) (items script : List (Item Output)) (worker : State) :
    emitter.machine.Reach Machine.anyEvent ⟨sent, items ++ script, worker⟩
      ⟨sent ++ sends items, script, worker⟩ := by
  induction items generalizing sent with
  | nil => simpa [sends] using Machine.Reach.refl
  | cons item items ih =>
    cases item with
    | send output =>
      have hstep : emitter.machine.step ⟨sent, .send output :: (items ++ script), worker⟩
          (.script false) = some ⟨sent ++ [output], items ++ script, worker⟩ := rfl
      have hrest := ih (sent ++ [output])
      rw [List.append_assoc] at hrest
      exact .head hstep trivial hrest
    | call =>
      have hstep : emitter.machine.step ⟨sent, .call :: (items ++ script), worker⟩
          (.script false) = some ⟨sent, items ++ script, worker⟩ := rfl
      exact .head hstep trivial (ih sent)

/-- What a run has added: outputs of the script or of the worker, and all that
the script has been through, unless it is over. -/
structure Added (emitter : Emitter State Event Output) (start scene : Scene State Output)
    (added : List Output) : Prop where
  sent : scene.sent = start.sent ++ added
  source : ∀ output ∈ added, output ∈ sends start.script ∨ emitter.MayEmit start.worker output
  past : scene.script = [] ∨ ∃ items, start.script = items ++ scene.script ∧
    ∀ output ∈ sends items, output ∈ added
  rest : ∀ output, emitter.MayEmit scene.worker output → emitter.MayEmit start.worker output

section Added

variable {start scene next : Scene State Output} {added : List Output}

theorem sends_append (left right : List (Item Output)) :
    sends (left ++ right) = sends left ++ sends right := by
  simp [sends]

theorem Added.script {raises : Bool} (h : Added emitter start scene added)
    (hstep : emitter.sceneStep scene (.script raises) = some next) :
    ∃ added, Added emitter start next added := by
  obtain ⟨sent, script, worker⟩ := scene
  cases script with
  | nil => cases hstep
  | cons item script =>
    obtain ⟨items, hstart, hitems⟩ := h.past.resolve_left nofun
    have hstart' : start.script = (items ++ [item]) ++ script := by
      rw [hstart]
      simp
    cases item with
    | send output =>
      cases hstep
      refine ⟨added ++ [output], ?_, ?_, .inr ⟨_, hstart', ?_⟩, h.rest⟩
      · rw [← List.append_assoc, ← h.sent]
      · intro other hother
        rcases List.mem_append.mp hother with hold | hnew
        · exact h.source other hold
        · rw [List.mem_singleton.mp hnew, hstart']
          left
          simp [sends]
      · intro other hother
        rw [sends_append] at hother
        rcases List.mem_append.mp hother with hold | hnew
        · exact List.mem_append_left _ (hitems other hold)
        · exact List.mem_append_right _ hnew
    | call =>
      cases hstep
      cases raises with
      | true => exact ⟨added, h.sent, h.source, .inl rfl, h.rest⟩
      | false =>
        refine ⟨added, h.sent, h.source, .inr ⟨_, hstart', ?_⟩, h.rest⟩
        intro other hother
        rw [sends_append] at hother
        exact hitems other (by simpa [sends] using hother)

theorem Added.worker {event : Event} (h : Added emitter start scene added)
    (hstep : emitter.sceneStep scene (.worker event) = some next) :
    ∃ added, Added emitter start next added := by
  obtain ⟨⟨worker, emitted⟩, hworker, heq⟩ := Option.map_eq_some_iff.mp hstep
  subst heq
  refine ⟨added ++ emitted.toList, ?_, ?_, ?_, fun _ hlater => h.rest _ (.later hworker hlater)⟩
  · rw [← List.append_assoc, ← h.sent]
  · intro output houtput
    rcases List.mem_append.mp houtput with hold | hnew
    · exact h.source output hold
    · right
      rw [Option.mem_toList] at hnew
      cases hnew
      exact h.rest _ (.now hworker)
  · rcases h.past with hover | ⟨items, hstart, hitems⟩
    · exact .inl hover
    · exact .inr ⟨items, hstart, fun output houtput =>
        List.mem_append_left _ (hitems output houtput)⟩

end Added

theorem added_of_reach {start scene : Scene State Output}
    (run : emitter.machine.Reach Machine.anyEvent start scene) :
    ∃ added, Added emitter start scene added := by
  apply run.invariant fun scene => ∃ added, Added emitter start scene added
  · exact ⟨[], by simp, by simp, .inr ⟨[], rfl, by simp [sends]⟩, fun _ => id⟩
  · rintro scene turn next ⟨added, hadded⟩ - hstep
    cases turn with
    | script raises => exact hadded.script hstep
    | worker event => exact hadded.worker hstep

end Emitter
end VacuumCleaner.Lib
