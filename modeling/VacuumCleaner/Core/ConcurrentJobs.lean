import VacuumCleaner.Core.Jobs
import VacuumCleaner.Lib.Lookup
import VacuumCleaner.Lib.Machine

/-! `Job.response` in its single steps, on many jobs at once. The jobs share the
list of unread responses, to which the reader thread appends. -/
namespace VacuumCleaner.Core.ConcurrentJobs

open Lib Lib.Lookup Models Jobs

/-- Where a thread stands in the loop of `Job.response`. -/
inductive Scan
  | idle
  | access (index : Nat)
  | compare (index : Nat) (resp : Response)
  | pop (index : Nat)
  deriving DecidableEq, Repr

/-- How an evaluation of `Job.response` ends. -/
inductive Outcome
  | polled (polled : Polled Response)
  | indexError
  deriving DecidableEq, Repr

/-- A job, the thread that polls it, and how its evaluations have ended. -/
structure Poller where
  job : Job Response
  held : Bool := true
  scan : Scan := .idle
  outcomes : List Outcome := []
  deriving DecidableEq, Repr

/-- `appended` and `taken` only record what has happened. -/
structure World where
  responses : List Response := []
  pollers : List Poller := []
  appended : List Response := []
  taken : List (Nat × Response) := []
  deriving DecidableEq, Repr

inductive Event
  | create (request : Request) (timeout : Option Int) (now : Int)
  | append (response : Response)
  | evaluate (call : Nat) (now : Int)
  | advance (call : Nat)
  | abandon (call : Nat)
  deriving DecidableEq, Repr

namespace Poller

def id (poller : Poller) : Nat := poller.job.request.id

/-- Somebody still waits for the response. -/
def Outstanding (poller : Poller) : Prop := poller.held = true ∧ poller.job.response = none

instance (poller : Poller) : Decidable poller.Outstanding := by
  unfold Outstanding
  infer_instance

def finish (poller : Poller) (outcome : Outcome) : Poller :=
  { poller with scan := .idle, outcomes := poller.outcomes ++ [outcome] }

/-- The tests in front of the loop. -/
def evaluate (poller : Poller) (now : Int) : Poller :=
  match poller.job.response with
  | some response => poller.finish (.polled (.response response))
  | none =>
    if poller.job.timedOut now then poller.finish (.polled .instructionTimeout)
    else { poller with scan := .access 0 }

/-- What the pop of `found` leaves behind. -/
def store (poller : Poller) (found : Response) : Poller :=
  { poller with job.response := some found }.finish
    (.polled (if found.isSuccessful then .response found else .instructionFailure found))

/-- One access to the list, comparison or pop, with the response it removes. -/
def advance (poller : Poller) (responses : List Response) :
    Option (Poller × List Response × Option Response) :=
  match poller.scan with
  | .idle => none
  | .access index =>
    match responses[index]? with
    | some resp => some ({ poller with scan := .compare index resp }, responses, none)
    | none => some (poller.finish (.polled .none), responses, none)
  | .compare index resp =>
    if resp.id = poller.id then some ({ poller with scan := .pop index }, responses, none)
    else some ({ poller with scan := .access (index + 1) }, responses, none)
  | .pop index =>
    match responses[index]? with
    | some found => some (poller.store found, responses.eraseIdx index, some found)
    | none => some (poller.finish .indexError, responses, none)

/-- The position that it is about to pop. -/
def popsAt (poller : Poller) : Option Nat :=
  match poller.scan with
  | .pop index => some index
  | _ => none

/-- The position at which it has seen its response, until the pop. -/
def matchedAt (poller : Poller) : Option Nat :=
  match poller.scan with
  | .pop index => some index
  | .compare index resp => if resp.id = poller.id then some index else none
  | _ => none

end Poller

/-- The ids of the outstanding requests are distinct, so a new one takes another. -/
def World.step (world : World) : Event → Option World
  | .create request timeout now =>
    if ∀ poller ∈ world.pollers, poller.Outstanding → poller.id ≠ request.id then
      some { world with pollers := world.pollers ++ [{ job := { request, timeout, time := now } }] }
    else none
  | .append response =>
    some { world with
      responses := world.responses ++ [response], appended := world.appended ++ [response] }
  | .evaluate call now =>
    match world.pollers[call]? with
    | some poller =>
      if poller.held = true ∧ poller.scan = .idle then
        some { world with pollers := world.pollers.set call (poller.evaluate now) }
      else none
    | none => none
  | .advance call =>
    match world.pollers[call]? with
    | some poller =>
      (poller.advance world.responses).map fun (poller, responses, removed) =>
        { world with
          pollers := world.pollers.set call poller
          responses
          taken := world.taken ++ removed.toList.map (call, ·) }
    | none => none
  | .abandon call =>
    match world.pollers[call]? with
    | some poller =>
      if poller.scan = .idle then
        some { world with pollers := world.pollers.set call { poller with held := false } }
      else none
    | none => none

def machine : Machine World Event := ⟨World.step⟩

/-- Jobs have taken and stored their own responses only, none has met an
`IndexError`, and whatever has not been taken is still in the list. -/
structure Sound (world : World) : Prop where
  own : ∀ call response, (call, response) ∈ world.taken →
    ∃ poller, world.pollers[call]? = some poller ∧ response.id = poller.id
  stored : ∀ call poller response, world.pollers[call]? = some poller →
    poller.job.response = some response → (call, response) ∈ world.taken
  noIndexError : ∀ poller ∈ world.pollers, .indexError ∉ poller.outcomes
  kept : (world.responses ++ world.taken.map Prod.snd).Perm world.appended

/-- A pop at the index leaves a poller that has seen its response with one of
its own where it has seen it. -/
def sparedBy (responses : List Response) (index : Nat) (waiting : Poller) : Prop :=
  ∀ position ∈ waiting.matchedAt, position ≤ index ∨
    ∃ response ∈ responses[position + 1]?, response.id = waiting.id

instance (responses : List Response) (index : Nat) (waiting : Poller) :
    Decidable (sparedBy responses index waiting) := by
  unfold sparedBy
  infer_instance

/-- The pop that a job may be about to make spares all others. -/
def sparesOthers (world : World) (call : Nat) : Prop :=
  ∀ poller ∈ world.pollers[call]?, ∀ index ∈ poller.popsAt,
    ∀ other < world.pollers.length, other ≠ call →
      ∀ waiting ∈ world.pollers[other]?, sparedBy world.responses index waiting

instance (world : World) (call : Nat) : Decidable (sparesOthers world call) := by
  unfold sparesOthers
  infer_instance

def undisturbed (world : World) : Event → Prop
  | .advance call => sparesOthers world call
  | _ => True

instance (world : World) (event : Event) : Decidable (undisturbed world event) :=
  match event with
  | .advance call => inferInstanceAs (Decidable (sparesOthers world call))
  | .create .. | .append _ | .evaluate .. | .abandon _ => .isTrue trivial

theorem mem_matchedAt_iff {poller : Poller} {position : Nat} :
    position ∈ poller.matchedAt ↔ poller.scan = .pop position ∨
      ∃ resp, poller.scan = .compare position resp ∧ resp.id = poller.id := by
  unfold Poller.matchedAt
  cases hscan : poller.scan with
  | compare index resp =>
    by_cases hid : resp.id = poller.id
    · simp [hid]
    · simp [hid]
  | _ => simp

/-- What an advance does. -/
inductive Advances (poller : Poller) (responses : List Response) :
    Poller → List Response → Option Response → Prop
  | looks {index : Nat} {resp : Response} : poller.scan = .access index →
    responses[index]? = some resp →
    Advances poller responses { poller with scan := .compare index resp } responses none
  | ends {index : Nat} : poller.scan = .access index → responses[index]? = none →
    Advances poller responses (poller.finish (.polled .none)) responses none
  | agrees {index : Nat} {resp : Response} : poller.scan = .compare index resp →
    resp.id = poller.id → Advances poller responses { poller with scan := .pop index } responses none
  | passes {index : Nat} {resp : Response} : poller.scan = .compare index resp →
    resp.id ≠ poller.id →
    Advances poller responses { poller with scan := .access (index + 1) } responses none
  | pops {index : Nat} {found : Response} : poller.scan = .pop index →
    responses[index]? = some found →
    Advances poller responses (poller.store found) (responses.eraseIdx index) (some found)
  | fails {index : Nat} : poller.scan = .pop index → responses[index]? = none →
    Advances poller responses (poller.finish .indexError) responses none

theorem advances_of_advance {poller next : Poller} {responses rest : List Response}
    {removed : Option Response} (h : poller.advance responses = some (next, rest, removed)) :
    Advances poller responses next rest removed := by
  unfold Poller.advance at h
  split at h
  · cases h
  · rename_i index hscan
    split at h <;> cases h
    · exact .looks hscan (by assumption)
    · exact .ends hscan (by assumption)
  · rename_i index resp hscan
    split at h <;> cases h
    · exact .agrees hscan (by assumption)
    · exact .passes hscan (by assumption)
  · rename_i index hscan
    split at h <;> cases h
    · exact .pops hscan (by assumption)
    · exact .fails hscan (by assumption)

/-- The response that a poller has seen is still where it has seen it. -/
def Steady (world : World) (poller : Poller) : Prop :=
  ∀ position ∈ poller.matchedAt,
    ∃ response, world.responses[position]? = some response ∧ response.id = poller.id

structure Inv (world : World) : Prop extends Sound world where
  distinct : ∀ (call other : Nat) (poller waiting : Poller), world.pollers[call]? = some poller →
    world.pollers[other]? = some waiting → poller.Outstanding → waiting.Outstanding →
    poller.id = waiting.id → call = other
  scanning : ∀ poller ∈ world.pollers, poller.scan ≠ .idle → poller.Outstanding
  steady : ∀ poller ∈ world.pollers, Steady world poller

theorem inv_initial : Inv {} where
  own := by simp
  stored := by simp
  noIndexError := by simp
  kept := by simp
  distinct := by simp
  scanning := by simp
  steady := by simp

/-- What a poller becomes in one step of its own thread. -/
structure Follows (before after : Poller) : Prop where
  id : after.id = before.id
  outstanding : after.Outstanding → before.Outstanding
  scanning : after.scan ≠ .idle → after.Outstanding
  outcomes : .indexError ∈ after.outcomes → .indexError ∈ before.outcomes

section Replace

variable {world next : World} {call : Nat} {before after : Poller}

theorem Inv.replace (removed : List Response) (hinv : Inv world) (hbefore : world.pollers[call]? = some before)
    (hfollows : Follows before after) (hpollers : next.pollers = world.pollers.set call after)
    (hsteady : ∀ poller ∈ next.pollers, Steady next poller)
    (happended : next.appended = world.appended)
    (htaken : next.taken = world.taken ++ removed.map (call, ·))
    (hremoved : ∀ response ∈ removed, response.id = before.id)
    (hkept : (next.responses ++ removed).Perm world.responses)
    (hstored : ∀ response, after.job.response = some response →
      before.job.response = some response ∨ response ∈ removed) : Inv next where
  own := by
    have hafter : next.pollers[call]? = some after := by
      rw [hpollers, lookup_set_self hbefore]
    intro other response hmem
    rw [htaken] at hmem
    rcases List.mem_append.mp hmem with hold | hnew
    · obtain ⟨poller, hpoller, hid⟩ := hinv.own other response hold
      by_cases heq : other = call
      · subst heq
        rw [hbefore] at hpoller
        cases hpoller
        exact ⟨after, hafter, by rw [hfollows.id, hid]⟩
      · refine ⟨poller, ?_, hid⟩
        rw [hpollers, List.getElem?_set_ne (Ne.symm heq)]
        exact hpoller
    · obtain ⟨found, hfound, heq⟩ := List.mem_map.mp hnew
      cases heq
      exact ⟨after, hafter, by rw [hfollows.id, hremoved response hfound]⟩
  stored := by
    intro other poller response hpoller hresponse
    rw [htaken]
    rw [hpollers] at hpoller
    rcases lookup_set hpoller with ⟨rfl, rfl⟩ | ⟨-, hother⟩
    · rcases hstored response hresponse with hold | hnew
      · exact List.mem_append_left _ (hinv.stored other before response hbefore hold)
      · exact List.mem_append_right _ (List.mem_map_of_mem hnew)
    · exact List.mem_append_left _ (hinv.stored other poller response hother hresponse)
  noIndexError := by
    intro poller hpoller herror
    rw [hpollers] at hpoller
    rcases List.mem_or_eq_of_mem_set hpoller with hold | rfl
    · exact hinv.noIndexError poller hold herror
    · exact hinv.noIndexError before (List.mem_of_getElem? hbefore) (hfollows.outcomes herror)
  kept := by
    have hmap : (removed.map (call, ·)).map Prod.snd = removed := by
      rw [List.map_map]
      exact List.map_id _
    rw [happended, htaken, List.map_append, hmap]
    refine List.Perm.trans ?_ hinv.kept
    refine (List.perm_append_comm.append_left next.responses).trans ?_
    rw [← List.append_assoc]
    exact hkept.append_right _
  distinct := by
    have hdistinct : Distinct Poller.Outstanding Poller.id world.pollers := hinv.distinct
    rw [hpollers]
    exact hdistinct.set hbefore hfollows.outstanding hfollows.id
  scanning := by
    intro poller hpoller
    rw [hpollers] at hpoller
    rcases List.mem_or_eq_of_mem_set hpoller with hold | rfl
    · exact hinv.scanning poller hold
    · exact hfollows.scanning
  steady := hsteady

end Replace

theorem follows_scan {poller : Poller} (houtstanding : poller.Outstanding) (scan : Scan) :
    Follows poller { poller with scan } where
  id := rfl
  outstanding h := h
  scanning _ := houtstanding
  outcomes h := h

theorem follows_finish (poller : Poller) (polled : Polled Response) :
    Follows poller (poller.finish (.polled polled)) where
  id := rfl
  outstanding h := h
  scanning hscan := absurd rfl hscan
  outcomes herror := by
    rcases List.mem_append.mp herror with hold | hnew
    · exact hold
    · cases List.mem_singleton.mp hnew

theorem follows_store (poller : Poller) (found : Response) : Follows poller (poller.store found) where
  id := rfl
  outstanding := fun ⟨_, hresponse⟩ => by cases hresponse
  scanning hscan := absurd rfl hscan
  outcomes := (follows_finish _ _).outcomes

section Steps

variable {world next : World} {call : Nat} {poller : Poller}

theorem Inv.quiet (hinv : Inv world) (hpoller : world.pollers[call]? = some poller) {after : Poller}
    (hfollows : Follows poller after) (hjob : after.job.response = poller.job.response)
    (hsteady : Steady world after) :
    Inv { world with pollers := world.pollers.set call after } := by
  refine Inv.replace [] hinv hpoller hfollows rfl ?_ rfl (by simp) (by simp) (by simp) ?_
  · intro other hother
    rcases List.mem_or_eq_of_mem_set hother with hold | rfl
    · exact hinv.steady other hold
    · exact hsteady
  · intro response hresponse
    exact .inl (hjob ▸ hresponse)

theorem Steady.of_idle {after : Poller} (hidle : after.scan = .idle) : Steady world after := by
  intro position hmatched
  simp [Poller.matchedAt, hidle] at hmatched

theorem Steady.of_access {after : Poller} {index : Nat} (haccess : after.scan = .access index) :
    Steady world after := by
  intro position hmatched
  simp [Poller.matchedAt, haccess] at hmatched

theorem inv_append {response : Response} (hinv : Inv world) :
    Inv { world with
      responses := world.responses ++ [response], appended := world.appended ++ [response] } where
  own := hinv.own
  stored := hinv.stored
  noIndexError := hinv.noIndexError
  kept := perm_concat hinv.kept [response]
  distinct := hinv.distinct
  scanning := hinv.scanning
  steady := by
    intro poller hpoller position hmatched
    obtain ⟨found, hfound, hid⟩ := hinv.steady poller hpoller position hmatched
    exact ⟨found, by rw [List.getElem?_append_left (List.getElem?_eq_some_iff.mp hfound).1, hfound],
      hid⟩

theorem inv_create {request : Request} {timeout : Option Int} {now : Int} (hinv : Inv world)
    (hfresh : ∀ poller ∈ world.pollers, poller.Outstanding → poller.id ≠ request.id) :
    Inv { world with
      pollers := world.pollers ++ [{ job := { request, timeout, time := now } }] } := by
  have hmem : ∀ {poller : Poller},
      poller ∈ world.pollers ++ [{ job := { request, timeout, time := now } }] →
      poller ∈ world.pollers ∨ poller = { job := { request, timeout, time := now } } := by
    simp
  constructor
  · constructor
    · intro place response htaken
      obtain ⟨poller, hpoller, hid⟩ := hinv.own place response htaken
      exact ⟨poller, lookup_concat_of_some hpoller _, hid⟩
    · intro place poller response hpoller hresponse
      rcases lookup_concat hpoller with hold | ⟨-, rfl⟩
      · exact hinv.stored place poller response hold hresponse
      · cases hresponse
    · intro poller hpoller
      rcases hmem hpoller with hold | rfl
      · exact hinv.noIndexError poller hold
      · exact List.not_mem_nil
    · exact hinv.kept
  · have hdistinct : Distinct Poller.Outstanding Poller.id world.pollers := hinv.distinct
    exact hdistinct.concat hfresh
  · intro poller hpoller hscan
    rcases hmem hpoller with hold | rfl
    · exact hinv.scanning poller hold hscan
    · exact absurd rfl hscan
  · intro poller hpoller
    rcases hmem hpoller with hold | rfl
    · exact hinv.steady poller hold
    · exact Steady.of_idle rfl

theorem inv_evaluate {now : Int} (hinv : Inv world) (hpoller : world.pollers[call]? = some poller)
    (hheld : poller.held = true) :
    Inv { world with pollers := world.pollers.set call (poller.evaluate now) } := by
  unfold Poller.evaluate
  split
  · exact hinv.quiet hpoller (follows_finish _ _) rfl (.of_idle rfl)
  · rename_i hnone
    split
    · exact hinv.quiet hpoller (follows_finish _ _) rfl (.of_idle rfl)
    · exact hinv.quiet hpoller (follows_scan ⟨hheld, hnone⟩ _) rfl (.of_access rfl)

theorem inv_abandon (hinv : Inv world) (hpoller : world.pollers[call]? = some poller)
    (hidle : poller.scan = .idle) :
    Inv { world with pollers := world.pollers.set call { poller with held := false } } := by
  refine hinv.quiet hpoller ⟨rfl, ?_, fun hscan => absurd hidle hscan, fun h => h⟩ rfl (.of_idle hidle)
  rintro ⟨hheld, -⟩
  cases hheld

theorem inv_pop {index : Nat} {found : Response} (hinv : Inv world)
    (hpoller : world.pollers[call]? = some poller) (hscan : poller.scan = .pop index)
    (hfound : world.responses[index]? = some found)
    (hundisturbed : undisturbed world (.advance call)) :
    Inv { world with
      pollers := world.pollers.set call (poller.store found)
      responses := world.responses.eraseIdx index
      taken := world.taken ++ [(call, found)] } := by
  have hmem := List.mem_of_getElem? hpoller
  have hid : found.id = poller.id := by
    obtain ⟨response, hresponse, hid⟩ := hinv.steady poller hmem index
      (mem_matchedAt_iff.mpr (.inl hscan))
    rw [hfound] at hresponse
    cases hresponse
    exact hid
  have houtstanding : poller.Outstanding := hinv.scanning poller hmem (by simp [hscan])
  refine Inv.replace [found] hinv hpoller (follows_store poller found) rfl ?_ rfl rfl ?_ ?_ ?_
  · intro other hother
    obtain ⟨place, hplace⟩ := List.mem_iff_getElem?.mp hother
    rcases lookup_set hplace with ⟨-, rfl⟩ | ⟨hne, hold⟩
    · exact Steady.of_idle rfl
    · intro position hmatched
      obtain ⟨response, hresponse, hown⟩ :=
        hinv.steady other (List.mem_of_getElem? hold) position hmatched
      show ∃ response, (world.responses.eraseIdx index)[position]? = some response ∧ _
      rw [List.getElem?_eraseIdx]
      rcases hundisturbed poller hpoller index (by simp [Poller.popsAt, hscan]) place
        (List.getElem?_eq_some_iff.mp hold).1 hne other hold position hmatched with hle | hbehind
      · by_cases hlt : position < index
        · rw [if_pos hlt]
          exact ⟨response, hresponse, hown⟩
        · -- two outstanding requests would have the same id
          obtain rfl : position = index := by omega
          rw [hfound] at hresponse
          cases hresponse
          have hscanning : other.scan ≠ .idle := by
            intro hidle
            simp [Poller.matchedAt, hidle] at hmatched
          exact absurd (hinv.distinct place call other poller hold hpoller
            (hinv.scanning other (List.mem_of_getElem? hold) hscanning) houtstanding
            (by rw [← hown, hid])) hne
      · split
        · exact ⟨response, hresponse, hown⟩
        · exact hbehind
  · intro response hresponse
    rw [List.mem_singleton.mp hresponse, hid]
  · obtain ⟨hlt, rfl⟩ := List.getElem?_eq_some_iff.mp hfound
    exact List.perm_append_comm.trans (List.getElem_cons_eraseIdx_perm hlt)
  · intro response hresponse
    cases hresponse
    exact .inr (.head _)

theorem inv_advance {rest : List Response} {removed : Option Response} {after : Poller}
    (hinv : Inv world) (hpoller : world.pollers[call]? = some poller)
    (hundisturbed : undisturbed world (.advance call))
    (h : Advances poller world.responses after rest removed) :
    Inv { world with
      pollers := world.pollers.set call after
      responses := rest
      taken := world.taken ++ removed.toList.map (call, ·) } := by
  have hmem := List.mem_of_getElem? hpoller
  have hquiet : ∀ {after : Poller}, Follows poller after →
      after.job.response = poller.job.response → Steady world after →
      Inv { world with
        pollers := world.pollers.set call after
        taken := world.taken ++ (none : Option Response).toList.map (call, ·) } := by
    intro after hfollows hjob hsteady
    simpa using hinv.quiet hpoller hfollows hjob hsteady
  cases h with
  | @looks index resp hscan hresp =>
    refine hquiet (follows_scan (hinv.scanning poller hmem (by simp [hscan])) _) rfl ?_
    intro position hmatched
    rcases mem_matchedAt_iff.mp hmatched with hpop | ⟨seen, hcompare, hid⟩
    · cases hpop
    · cases hcompare
      exact ⟨resp, hresp, hid⟩
  | ends hscan hnone => exact hquiet (follows_finish _ _) rfl (.of_idle rfl)
  | @agrees index resp hscan hid =>
    refine hquiet (follows_scan (hinv.scanning poller hmem (by simp [hscan])) _) rfl ?_
    intro position hmatched
    cases hmatched
    exact hinv.steady poller hmem index (by simp [Poller.matchedAt, hscan, hid])
  | passes hscan hid =>
    exact hquiet (follows_scan (hinv.scanning poller hmem (by simp [hscan])) _) rfl
      (.of_access rfl)
  | pops hscan hfound => exact inv_pop hinv hpoller hscan hfound hundisturbed
  | @fails index hscan hnone =>
    obtain ⟨response, hresponse, -⟩ := hinv.steady poller hmem index (by simp [Poller.matchedAt, hscan])
    rw [hnone] at hresponse
    cases hresponse

theorem inv_step {event : Event} (hinv : Inv world) (hundisturbed : undisturbed world event)
    (h : world.step event = some next) : Inv next := by
  cases event with
  | create request timeout now =>
    simp only [World.step] at h
    split at h
    · cases h
      exact inv_create hinv (by assumption)
    · cases h
  | append response =>
    cases h
    exact inv_append hinv
  | evaluate call now =>
    simp only [World.step] at h
    split at h
    · rename_i poller hpoller
      split at h
      · rename_i hidle
        cases h
        exact inv_evaluate hinv hpoller hidle.1
      · cases h
    · cases h
  | advance call =>
    simp only [World.step] at h
    split at h
    · rename_i poller hpoller
      obtain ⟨⟨after, rest, removed⟩, hadvance, heq⟩ := Option.map_eq_some_iff.mp h
      cases heq
      exact inv_advance hinv hpoller hundisturbed (advances_of_advance hadvance)
    · cases h
  | abandon call =>
    simp only [World.step] at h
    split at h
    · rename_i poller hpoller
      split at h
      · cases h
        exact inv_abandon hinv hpoller (by assumption)
      · cases h
    · cases h

theorem inv_of_reach (run : machine.Reach undisturbed {} world) : Inv world := by
  apply run.invariant Inv inv_initial
  intro state event next hinv hundisturbed hstep
  exact inv_step hinv hundisturbed hstep

end Steps

/-! An evaluation that no other step comes between is `Job.poll`. -/

section Alone

variable {world : World} {call : Nat} {poller : Poller}

theorem step_advance {after : Poller} {rest : List Response} {removed : Option Response}
    (hpoller : world.pollers[call]? = some poller)
    (hadvance : poller.advance world.responses = some (after, rest, removed)) :
    machine.step world (.advance call) = some { world with
      pollers := world.pollers.set call after
      responses := rest
      taken := world.taken ++ removed.toList.map (call, ·) } := by
  simp only [machine, World.step, hpoller, hadvance, Option.map_some]

/-- What the loop leaves when it starts behind `before`. -/
def Poller.scanned (poller : Poller) (before after : List Response) : Poller × List Response :=
  match popMatching poller.id after with
  | some (found, rest) => (poller.store found, before ++ rest)
  | none => (poller.finish (.polled .none), before ++ after)

def alone (call : Nat) (_ : World) (event : Event) : Prop :=
  event = .advance call ∨ ∃ now, event = .evaluate call now

/-- Going on alone, the job gets from here to there. -/
def Leads (call : Nat) (poller : Poller) (responses : List Response) (goal : Poller)
    (rest : List Response) : Prop :=
  ∀ world : World, world.pollers[call]? = some poller → world.responses = responses →
    ∃ next, machine.Reach (alone call) world next ∧ next.responses = rest ∧
      next.pollers = world.pollers.set call goal

theorem Leads.one {responses rest : List Response} {after : Poller} {removed : Option Response}
    (hadvance : poller.advance responses = some (after, rest, removed)) :
    Leads call poller responses after rest := by
  rintro world hpoller rfl
  exact ⟨_, .one (step_advance hpoller hadvance) (.inl rfl), rfl, rfl⟩

theorem Leads.trans {responses middle rest : List Response} {after goal : Poller}
    (hfirst : Leads call poller responses after middle) (hsecond : Leads call after middle goal rest) :
    Leads call poller responses goal rest := by
  intro world hpoller hresponses
  obtain ⟨first, hreach, hmiddle, hpollers⟩ := hfirst world hpoller hresponses
  have hafter : first.pollers[call]? = some after := by
    rw [hpollers, lookup_set_self hpoller]
  obtain ⟨next, hreach', hrest, hpollers'⟩ := hsecond first hafter hmiddle
  exact ⟨next, hreach.trans hreach', hrest, by rw [hpollers', hpollers, List.set_set]⟩

theorem leads_scanned (before after : List Response) (hscan : poller.scan = .access before.length) :
    Leads call poller (before ++ after) (poller.scanned before after).1
      (poller.scanned before after).2 := by
  induction after generalizing before poller with
  | nil =>
    have hadvance : poller.advance (before ++ []) =
        some (poller.finish (.polled .none), before ++ [], none) := by
      simp [Poller.advance, hscan]
    exact .one hadvance
  | cons resp after ih =>
    have hlooks : poller.advance (before ++ resp :: after) =
        some ({ poller with scan := .compare before.length resp }, before ++ resp :: after, none) := by
      simp [Poller.advance, hscan]
    apply (Leads.one hlooks).trans
    by_cases hid : resp.id = poller.id
    · have hscanned : poller.scanned before (resp :: after) = (poller.store resp, before ++ after) := by
        have hpop : popMatching poller.id (resp :: after) = some (resp, after) := if_pos hid
        rw [Poller.scanned, hpop]
      have hagrees : { poller with scan := .compare before.length resp }.advance
          (before ++ resp :: after) =
            some ({ poller with scan := .pop before.length }, before ++ resp :: after, none) :=
        if_pos hid
      have hpops : { poller with scan := .pop before.length }.advance (before ++ resp :: after) =
          some (poller.store resp, before ++ after, some resp) := by
        simp [Poller.advance, Poller.store, Poller.finish, List.eraseIdx_append_of_length_le]
      rw [hscanned]
      exact (Leads.one hagrees).trans (.one hpops)
    · have hscanned : poller.scanned before (resp :: after) =
          { poller with scan := .access (before.length + 1) }.scanned (before ++ [resp]) after := by
        have hpop : popMatching poller.id (resp :: after) =
            (popMatching poller.id after).map fun (found, rest) => (found, resp :: rest) := if_neg hid
        have hsame : { poller with scan := .access (before.length + 1) }.id = poller.id := rfl
        rw [Poller.scanned, Poller.scanned, hpop, hsame]
        cases popMatching poller.id after with
        | none => simp [Poller.finish]
        | some popped => simp [Poller.store, Poller.finish]
      have hpasses : { poller with scan := .compare before.length resp }.advance
          (before ++ resp :: after) = some ({ poller with scan := .access (before.length + 1) },
            before ++ resp :: after, none) := if_neg hid
      have hrest : Leads call { poller with scan := .access (before.length + 1) }
          (before ++ [resp] ++ after) _ _ := ih (before ++ [resp]) (by simp)
      rw [List.append_assoc, List.singleton_append] at hrest
      rw [hscanned]
      exact (Leads.one hpasses).trans hrest

theorem reach_poll {now : Int} (hpoller : world.pollers[call]? = some poller)
    (hheld : poller.held = true) (hidle : poller.scan = .idle) :
    ∃ next, machine.Reach (alone call) world next ∧
      next.responses = (poller.job.poll now world.responses).2.2 ∧
      next.pollers = world.pollers.set call
        ({ poller with job := (poller.job.poll now world.responses).2.1 }.finish
          (.polled (poller.job.poll now world.responses).1)) := by
  have hstep : machine.step world (.evaluate call now) =
      some { world with pollers := world.pollers.set call (poller.evaluate now) } := by
    simp only [machine, World.step, hpoller, if_pos (And.intro hheld hidle)]
  have hset := lookup_set_self hpoller (poller.evaluate now)
  have hevaluates : ∀ outcome, poller.evaluate now = poller.finish outcome →
      ∃ next, machine.Reach (alone call) world next ∧ next.responses = world.responses ∧
        next.pollers = world.pollers.set call (poller.finish outcome) := fun outcome heq =>
    ⟨_, .one hstep (.inr ⟨now, rfl⟩), rfl, by rw [heq]⟩
  cases hresponse : poller.job.response with
  | some response =>
    have hpoll : poller.job.poll now world.responses =
        (.response response, poller.job, world.responses) := by
      simp only [Job.poll, hresponse]
    rw [hpoll]
    exact hevaluates _ (by simp only [Poller.evaluate, hresponse])
  | none =>
    cases htimeout : poller.job.timedOut now with
    | true =>
      have hpoll : poller.job.poll now world.responses =
          (.instructionTimeout, poller.job, world.responses) := by
        simp only [Job.poll, hresponse, htimeout, if_true]
      rw [hpoll]
      exact hevaluates _ (by simp only [Poller.evaluate, hresponse, htimeout, if_true])
    | false =>
      have hstart : poller.evaluate now = { poller with scan := .access 0 } := by
        simp [Poller.evaluate, hresponse, htimeout]
      rw [hstart] at hstep hset
      have hleads : Leads call { poller with scan := .access 0 } world.responses _ _ :=
        leads_scanned [] world.responses rfl
      obtain ⟨next, hreach, hresponses, hpollers⟩ := hleads
        { world with pollers := world.pollers.set call { poller with scan := .access 0 } } hset rfl
      refine ⟨next, .head hstep (.inr ⟨now, rfl⟩) hreach, ?_⟩
      rw [hresponses, hpollers, List.set_set]
      have hsame : ({ poller with scan := .access 0 } : Poller).id = poller.id := rfl
      cases hpop : popMatching poller.id world.responses with
      | none =>
        have hpoll : poller.job.poll now world.responses = (.none, poller.job, world.responses) := by
          have hjob : popMatching poller.job.request.id world.responses = none := hpop
          simp [Job.poll, hresponse, htimeout, hjob]
        rw [hpoll, Poller.scanned, hsame, hpop]
        exact ⟨rfl, rfl⟩
      | some popped =>
        obtain ⟨found, rest⟩ := popped
        have hpoll : poller.job.poll now world.responses =
            (if found.isSuccessful then .response found else .instructionFailure found,
              { poller.job with response := some found }, rest) := by
          have hjob : popMatching poller.job.request.id world.responses = some (found, rest) := hpop
          simp only [Job.poll, hresponse, htimeout, hjob]
          rfl
        rw [hpoll, Poller.scanned, hsame, hpop]
        exact ⟨rfl, rfl⟩

end Alone

/-! The guard says no more than it must. -/

section Disturbed

variable {world next : World} {call : Nat} {poller : Poller}

theorem unsound_of_pop {position : Nat} (hpoller : world.pollers[call]? = some poller)
    (hscan : poller.scan = .pop position)
    (hforeign : ∀ response ∈ world.responses[position]?, response.id ≠ poller.id) :
    ∃ finish, machine.Reach Machine.anyEvent world finish ∧ ¬ Sound finish := by
  cases hfound : world.responses[position]? with
  | none =>
    have hadvance : poller.advance world.responses =
        some (poller.finish .indexError, world.responses, none) := by
      simp only [Poller.advance, hscan, hfound]
    refine ⟨_, .one (step_advance hpoller hadvance) trivial, fun hsound => ?_⟩
    have hmem := List.mem_of_getElem? (lookup_set_self hpoller (poller.finish .indexError))
    exact hsound.noIndexError _ hmem (List.mem_append_right _ (.head _))
  | some found =>
    have hadvance : poller.advance world.responses =
        some (poller.store found, world.responses.eraseIdx position, some found) := by
      simp only [Poller.advance, hscan, hfound]
    refine ⟨_, .one (step_advance hpoller hadvance) trivial, fun hsound => ?_⟩
    have hset := lookup_set_self hpoller (poller.store found)
    obtain ⟨owner, howner, hid⟩ := hsound.own call found (hsound.stored call _ found hset rfl)
    rw [hset] at howner
    cases howner
    exact hforeign found hfound hid

theorem unsound_of_matchedAt {position : Nat} (hpoller : world.pollers[call]? = some poller)
    (hmatched : position ∈ poller.matchedAt)
    (hforeign : ∀ response ∈ world.responses[position]?, response.id ≠ poller.id) :
    ∃ finish, machine.Reach Machine.anyEvent world finish ∧ ¬ Sound finish := by
  rcases mem_matchedAt_iff.mp hmatched with hpop | ⟨resp, hcompare, hid⟩
  · exact unsound_of_pop hpoller hpop hforeign
  · have hadvance : poller.advance world.responses =
        some ({ poller with scan := .pop position }, world.responses, none) := by
      simp only [Poller.advance, hcompare, if_pos hid]
    have hset := lookup_set_self hpoller { poller with scan := .pop position }
    obtain ⟨finish, hreach, hunsound⟩ : ∃ finish, machine.Reach Machine.anyEvent { world with
        pollers := world.pollers.set call { poller with scan := .pop position }
        taken := world.taken ++ [] } finish ∧ ¬ Sound finish :=
      unsound_of_pop hset rfl hforeign
    exact ⟨finish, .head (step_advance hpoller hadvance) trivial hreach, hunsound⟩

/-- After a disturbing pop, the disturbed job goes wrong by going on alone. -/
theorem unsound_of_disturbed (hinv : Inv world) (hdisturbed : ¬ sparesOthers world call)
    (hstep : machine.step world (.advance call) = some next) :
    ∃ finish, machine.Reach Machine.anyEvent next finish ∧ ¬ Sound finish := by
  simp only [sparesOthers, sparedBy, not_forall, not_or, not_exists, not_and, exists_prop] at hdisturbed
  obtain ⟨poller, hpoller, index, hpops, other, -, hne, waiting, hwaiting, position, hmatched,
    hgt, hforeign⟩ := hdisturbed
  have hscan : poller.scan = .pop index := by
    unfold Poller.popsAt at hpops
    split at hpops
    · cases hpops
      assumption
    · cases hpops
  obtain ⟨found, hfound, -⟩ := hinv.steady poller (List.mem_of_getElem? hpoller) index
    (mem_matchedAt_iff.mpr (.inl hscan))
  have hadvance : poller.advance world.responses =
      some (poller.store found, world.responses.eraseIdx index, some found) := by
    simp only [Poller.advance, hscan, hfound]
  rw [step_advance hpoller hadvance] at hstep
  cases hstep
  have hstill : (world.pollers.set call (poller.store found))[other]? = some waiting := by
    rw [List.getElem?_set_ne (Ne.symm hne)]
    exact hwaiting
  apply unsound_of_matchedAt hstill hmatched
  intro response hresponse
  have hshift : (world.responses.eraseIdx index)[position]? = world.responses[position + 1]? := by
    rw [List.getElem?_eraseIdx, if_neg (by omega)]
  exact hforeign response (hshift ▸ hresponse)

end Disturbed

/-- Whatever the interleaving of threads whose pops disturb nobody, no job takes
a foreign response or fails, and no response is lost. -/
theorem sound_of_undisturbed {world : World} (run : machine.Reach undisturbed {} world) :
    Sound world :=
  (inv_of_reach run).toSound

/-- A reply with this id. -/
def reply (id : Nat) : Response := { id, isSuccessful := true, timestamp := 0 }

/-- Two jobs, their replies, and the scan of the second job up to its match. -/
def twoScans : List Event :=
  [.create ⟨1, 0x10, []⟩ none 0, .create ⟨2, 0x11, []⟩ none 0, .append (reply 1),
    .append (reply 2), .evaluate 1 0, .advance 1, .advance 1, .advance 1, .advance 1]

theorem sound_after_two_polls : ∃ world,
    machine.exec {} (twoScans ++ [.advance 1, .evaluate 0 0, .advance 0, .advance 0, .advance 0]) =
      some world ∧ world.taken = [(1, reply 2), (0, reply 1)] ∧ Sound world := by
  have hguarded : machine.Guarded undisturbed {} (twoScans ++
      [.advance 1, .evaluate 0 0, .advance 0, .advance 0, .advance 0]) := by decide
  exact ⟨_, rfl, rfl, sound_of_undisturbed (Machine.reach_of_exec_guarded hguarded rfl)⟩

/-- The pop of the first job shifts the reply that the second has matched. -/
theorem index_error_after_pop : ∃ world,
    machine.exec {} (twoScans ++ [.evaluate 0 0, .advance 0, .advance 0, .advance 0, .advance 1]) =
      some world ∧ ¬ Sound world := by
  refine ⟨_, rfl, fun hsound => ?_⟩
  exact hsound.noIndexError _ (.tail _ (.head _)) (.head _)

end VacuumCleaner.Core.ConcurrentJobs
