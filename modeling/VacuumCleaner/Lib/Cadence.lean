import Mathlib.Data.List.Chain
import VacuumCleaner.Lib.Millis

/-! A timer that is polled now and then, and set anew when it is found run out. -/
namespace VacuumCleaner.Lib.Cadence

/-- A poll: the clock when the timer is tested, and when it is set. -/
structure Poll where
  now : Nat
  later : Nat
  deriving DecidableEq, Repr

/-- The polls that find a timer run out `limit` behind the time at which it was set. -/
def fired (limit : Nat) : (since : Nat) → List Poll → List Poll
  | _, [] => []
  | since, poll :: polls =>
    if poll.now < since + limit then fired limit since polls
    else poll :: fired limit poll.later polls

/-- The same with a clock that wraps. -/
def firedMillis (limit : UInt32) : (since : UInt32) → List Poll → List Poll
  | _, [] => []
  | since, poll :: polls =>
    if millis poll.now - since < limit then firedMillis limit since polls
    else poll :: firedMillis limit (millis poll.later) polls

/-- Polls one after the other, with never more than `gap` from the test of one to
the end of the next. -/
def Paced (gap : Nat) : (previous : Poll) → List Poll → Prop
  | _, [] => True
  | previous, poll :: polls => previous.later ≤ poll.now ∧ poll.now ≤ poll.later ∧
      poll.later ≤ previous.now + gap ∧ Paced gap poll polls

instance decidablePaced (gap : Nat) : (previous : Poll) → (polls : List Poll) →
    Decidable (Paced gap previous polls)
  | _, [] => .isTrue trivial
  | _, poll :: polls =>
    have := decidablePaced gap poll polls
    inferInstanceAs (Decidable (_ ∧ _ ∧ _ ∧ _))

/-- Each comes `limit` behind the one before it at least. -/
def Spread (limit : Nat) : List Poll → Prop :=
  List.IsChain fun early late => early.later + limit ≤ late.now

variable {limit gap since : Nat} {previous : Poll} {polls : List Poll}

theorem le_of_mem_head? (limit since : Nat) (polls : List Poll) :
    ∀ first ∈ (fired limit since polls).head?, since + limit ≤ first.now := by
  induction polls generalizing since with
  | nil => exact fun _ hfirst => absurd hfirst (by simp [fired])
  | cons poll polls ih =>
    rw [fired]
    split
    · exact ih since
    · rename_i hdue
      rintro first ⟨rfl⟩
      exact Nat.le_of_not_lt hdue

theorem spread_fired (limit since : Nat) (polls : List Poll) :
    Spread limit (fired limit since polls) := by
  induction polls generalizing since with
  | nil => exact List.IsChain.nil
  | cons poll polls ih =>
    rw [fired]
    split
    · exact ih since
    · exact (ih poll.later).cons (le_of_mem_head? limit poll.later polls)

/-- A poll that finds the timer running is no firing; between a firing and the
next there is one such poll at most `gap` before it. -/
theorem le_length_fired_of_running {count : Nat} {last : Poll} (hlimit : 0 < limit)
    (hpaced : Paced gap previous polls) (hprevious : previous.now ≤ since + limit)
    (hlast : last ∈ polls) (hlate : since + count * (limit + gap) ≤ last.now) :
    count ≤ (fired limit since polls).length := by
  induction polls generalizing since previous count with
  | nil => cases hlast
  | cons poll polls ih =>
    obtain ⟨-, hnow, hend, hpaced⟩ := hpaced
    rw [fired]
    split
    · rename_i hrunning
      obtain rfl | hlast := List.mem_cons.mp hlast
      · match count with
        | 0 => exact Nat.zero_le _
        | count + 1 =>
          rw [Nat.succ_mul] at hlate
          omega
      · exact ih hpaced hrunning.le hlast hlate
    · match count with
      | 0 => exact Nat.zero_le _
      | count + 1 =>
        rw [Nat.succ_mul] at hlate
        refine Nat.succ_le_succ ?_
        obtain rfl | hlast := List.mem_cons.mp hlast
        · suffices hcount : count = 0 from hcount ▸ Nat.zero_le _
          by_contra hne
          have hle := Nat.le_mul_of_pos_left (limit + gap) (Nat.pos_of_ne_zero hne)
          omega
        · exact ih hpaced (by omega) hlast (by omega)

theorem le_length_fired {time count : Nat} {last : Poll} (hlimit : 0 < limit)
    (hpaced : Paced gap ⟨time, time⟩ polls) (hsince : since ≤ time + gap) (hlast : last ∈ polls)
    (hlate : time + gap + count * (limit + gap) ≤ last.now) :
    count ≤ (fired limit since polls).length := by
  obtain hlt | hle := Nat.lt_or_ge (since + limit) time
  · -- The first poll finds it run out, as it would have at `time`.
    have hsame : fired limit since polls = fired limit (time - limit) polls := by
      cases polls with
      | nil => rfl
      | cons poll polls =>
        obtain ⟨hfirst, -⟩ := hpaced
        dsimp only at hfirst
        rw [fired, fired, if_neg (by omega), if_neg (by omega)]
    rw [hsame]
    exact le_length_fired_of_running hlimit hpaced (by dsimp only; omega) hlast (by omega)
  · exact le_length_fired_of_running hlimit hpaced hle hlast (by omega)

theorem firedMillis_eq {limit : UInt32} (hlimit : 0 < limit.toNat)
    (hpaced : Paced gap previous polls) (hround : limit.toNat + gap ≤ 2 ^ 32)
    (hfirst : ∀ first ∈ polls.head?, since ≤ first.now ∧ first.now < since + 2 ^ 32) :
    firedMillis limit (millis since) polls = fired limit.toNat since polls := by
  induction polls generalizing since previous with
  | nil => rfl
  | cons poll polls ih =>
    obtain ⟨-, hnow, -, hpaced⟩ := hpaced
    obtain ⟨hle, hlt⟩ := hfirst poll rfl
    have hdue : millis poll.now - millis since < limit ↔ poll.now < since + limit.toNat :=
      millis_sub_lt_iff hle hlt
    -- The poll behind this one, whichever reading the timer is set by.
    have hnext : ∀ {set : Nat}, set ≤ poll.later → poll.now < set + limit.toNat →
        ∀ next ∈ polls.head?, set ≤ next.now ∧ next.now < set + 2 ^ 32 := by
      rintro set hset hrunning next hnext
      cases polls with
      | nil => cases hnext
      | cons other polls =>
        obtain rfl := Option.some.inj hnext
        obtain ⟨hbegin, hend, hwithin, -⟩ := hpaced
        omega
    rw [firedMillis, fired]
    by_cases hrunning : poll.now < since + limit.toNat
    · rw [if_pos (hdue.mpr hrunning), if_pos hrunning]
      exact ih hpaced (hnext (hle.trans hnow) hrunning)
    · rw [if_neg (mt hdue.mp hrunning), if_neg hrunning]
      exact congrArg _ (ih hpaced (hnext (Nat.le_refl _) (by omega)))

theorem exists_since {set now : Nat} (hle : set ≤ now) :
    ∃ since, millis since = millis set ∧ since ≤ now ∧ now < since + 2 ^ 32 := by
  refine ⟨now - (now - set) % 2 ^ 32, ?_, Nat.sub_le _ _, by omega⟩
  rw [← UInt32.toNat_inj, toNat_millis, toNat_millis]
  omega

theorem Paced.left {more : List Poll} (h : Paced gap previous (polls ++ more)) :
    Paced gap previous polls := by
  induction polls generalizing previous with
  | nil => trivial
  | cons poll polls ih => exact ⟨h.1, h.2.1, h.2.2.1, ih h.2.2.2⟩

/-- One time at which the timer may have been set serves for all polls of a run,
and for those that it begins with. -/
theorem exists_fired {limit : UInt32} {set time : Nat} (hlimit : 0 < limit.toNat)
    (hpaced : Paced gap ⟨time, time⟩ polls) (hround : limit.toNat + gap ≤ 2 ^ 32)
    (hset : set ≤ time) :
    ∃ since ≤ time + gap, ∀ some, some <+: polls →
      firedMillis limit (millis set) some = fired limit.toNat since some := by
  cases polls with
  | nil =>
    refine ⟨set, Nat.le_add_right_of_le hset, fun some hsome => ?_⟩
    rw [List.eq_nil_of_prefix_nil hsome]
    rfl
  | cons poll polls =>
    have hbegin := hpaced.1
    have hend := hpaced.2.2.1
    have hnow := hpaced.2.1
    dsimp only at hbegin hend
    obtain ⟨since, hmillis, hle, hlt⟩ := exists_since (hset.trans hbegin)
    refine ⟨since, by omega, fun some hsome => ?_⟩
    obtain ⟨more, hsplit⟩ := hsome
    rw [← hsplit] at hpaced
    rw [← hmillis]
    refine firedMillis_eq hlimit hpaced.left hround fun first hfirst => ?_
    cases some with
    | nil => cases hfirst
    | cons head some =>
      obtain rfl : head = poll := (List.cons.inj hsplit).1
      obtain rfl := Option.some.inj hfirst
      exact ⟨hle, hlt⟩

end VacuumCleaner.Lib.Cadence
