import Mathlib.Tactic.Common

/-! A master on a two-wire bus. All devices answer into one buffer, whose bytes
are read one after the other. -/
namespace VacuumCleaner.Lib

universe u

/-- The operations of a bus library; `unread` is the view of its buffer, and a
request is given what the device answers. -/
structure TwoWire (State : Type u) where
  unread : State → List UInt8
  requestFrom : (count : Nat) → (answer : List UInt8) → State → State
  read : State → UInt8 × State
  transmit : List UInt8 → State → State

namespace TwoWire

variable {State : Type u} {wire : TwoWire State}

/-- A request discards what is unread and makes available at most `count` bytes
of the answer; a transmission leaves the received bytes alone. -/
structure Lawful (wire : TwoWire State) : Prop where
  requestFrom : ∀ count answer state, ∃ arrived ≤ count,
    wire.unread (wire.requestFrom count answer state) = answer.take arrived
  read_fst : ∀ state byte rest, wire.unread state = byte :: rest → (wire.read state).1 = byte
  read_snd : ∀ state, wire.unread (wire.read state).2 = (wire.unread state).tail
  transmit : ∀ bytes state, wire.unread (wire.transmit bytes state) = wire.unread state

def available (wire : TwoWire State) (state : State) : Nat := (wire.unread state).length

/-- Calls of `read`, one after the other. -/
def readBytes (wire : TwoWire State) : Nat → State → List UInt8 × State
  | 0, state => ([], state)
  | count + 1, state =>
    let (byte, state) := wire.read state
    let (bytes, state) := wire.readBytes count state
    (byte :: bytes, state)

/-- A request with the wait for its first byte, which has no end without one. -/
def await (wire : TwoWire State) (count : Nat) (answer : List UInt8) (state : State) :
    Option State :=
  let state := wire.requestFrom count answer state
  if wire.available state = 0 then none else some state

/-- The buffer as a list; bytes that nobody sent read as -1. -/
def buffered : TwoWire (List UInt8) where
  unread := id
  requestFrom count answer _ := answer.take count
  read
    | [] => (0xFF, [])
    | byte :: rest => (byte, rest)
  transmit _ unread := unread

theorem buffered_lawful : buffered.Lawful where
  requestFrom count _ _ := ⟨count, Nat.le_refl _, rfl⟩
  read_fst := by
    rintro _ byte rest rfl
    rfl
  read_snd := by rintro (_ | ⟨byte, rest⟩) <;> rfl
  transmit _ _ := rfl

namespace Lawful

variable (lawful : wire.Lawful)
include lawful

theorem length_unread_requestFrom_le (count : Nat) (answer : List UInt8) (state : State) :
    (wire.unread (wire.requestFrom count answer state)).length ≤ count := by
  obtain ⟨arrived, hle, hunread⟩ := lawful.requestFrom count answer state
  rw [hunread]
  exact Nat.le_trans (List.length_take_le arrived answer) hle

theorem unread_requestFrom_prefix (count : Nat) (answer : List UInt8) (state : State) :
    wire.unread (wire.requestFrom count answer state) <+: answer := by
  obtain ⟨arrived, -, hunread⟩ := lawful.requestFrom count answer state
  rw [hunread]
  exact List.take_prefix arrived answer

theorem unread_readBytes (count : Nat) (state : State) :
    wire.unread (wire.readBytes count state).2 = (wire.unread state).drop count := by
  induction count generalizing state with
  | zero => rfl
  | succ count ih =>
    rw [readBytes]
    exact (ih _).trans (by rw [lawful.read_snd, List.drop_tail])

theorem readBytes_fst (count : Nat) (state : State) (hcount : count ≤ wire.available state) :
    (wire.readBytes count state).1 = (wire.unread state).take count := by
  induction count generalizing state with
  | zero => rfl
  | succ count ih =>
    obtain ⟨byte, rest, hunread⟩ := List.exists_cons_of_length_pos (Nat.zero_lt_of_lt hcount)
    have hrest : wire.unread (wire.read state).2 = rest := by
      rw [lawful.read_snd, hunread]
      rfl
    rw [available, hunread, List.length_cons] at hcount
    rw [hunread, List.take_succ_cons, ← hrest, readBytes]
    exact congrArg₂ List.cons (lawful.read_fst state byte rest hunread)
      (ih _ (by rw [available, hrest]; omega))

theorem unread_await_readBytes {count : Nat} {answer : List UInt8} {state next : State}
    (hawait : wire.await count answer state = some next) :
    wire.unread (wire.readBytes count next).2 = [] := by
  unfold await at hawait
  dsimp only at hawait
  split at hawait
  · cases hawait
  · cases hawait
    rw [lawful.unread_readBytes]
    exact List.drop_eq_nil_of_le (lawful.length_unread_requestFrom_le count answer state)

end Lawful
end TwoWire

end VacuumCleaner.Lib
