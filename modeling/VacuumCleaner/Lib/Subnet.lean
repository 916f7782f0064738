import VacuumCleaner.Lib.Pieces
import Mathlib.Data.List.Basic
import Mathlib.Data.Nat.Bitwise

/-! Addresses of 32 bits: their text as four octets, and the hosts of a subnet. -/
namespace VacuumCleaner.Lib.Subnet

open Pieces

/-- The octets of a word, the least significant first. -/
def octets (address : BitVec 32) : List Nat :=
  [address.toNat % 256, address.toNat / 256 % 256, address.toNat / 65536 % 256,
    address.toNat / 16777216]

def dottedQuad (address : BitVec 32) : List Char :=
  ['.'].intercalate ((octets address).map (Nat.toDigits 10))

theorem toDigits_injective : Function.Injective (Nat.toDigits 10) := by
  intro n m h
  rw [← Nat.ofDigitChars_ten_toDigits (n := n), h, Nat.ofDigitChars_ten_toDigits]

theorem octets_injective : Function.Injective octets := by
  intro a b h
  simp only [octets, List.cons.injEq, and_true] at h
  apply BitVec.eq_of_toNat_eq
  omega

theorem pieces_dottedQuad (address : BitVec 32) :
    pieces '.' (dottedQuad address) = (octets address).map (Nat.toDigits 10) := by
  apply (pieces_intercalate_iff '.' (by simp [octets])).mpr
  intro item hitem
  obtain ⟨n, -, rfl⟩ := List.mem_map.mp hitem
  refine ⟨Nat.toDigits_ne_nil, fun hdot => ?_⟩
  exact absurd (Nat.isDigit_of_mem_toDigits (by decide) (by decide) hdot) (by decide)

theorem dottedQuad_injective : Function.Injective dottedQuad := by
  intro a b h
  have hpieces := congrArg (pieces '.') h
  rw [pieces_dottedQuad, pieces_dottedQuad] at hpieces
  exact octets_injective (List.map_injective_iff.mpr toDigits_injective hpieces)

/-- The address is in the subnet of `member` and is neither the subnet's own
address nor its broadcast address. -/
structure IsHost (mask member address : BitVec 32) : Prop where
  inside : address &&& mask = member &&& mask
  not_network : address &&& ~~~mask ≠ 0
  not_broadcast : address &&& ~~~mask ≠ ~~~mask

instance (mask member address : BitVec 32) : Decidable (IsHost mask member address) :=
  decidable_of_iff
    (address &&& mask = member &&& mask ∧ address &&& ~~~mask ≠ 0 ∧
      address &&& ~~~mask ≠ ~~~mask)
    ⟨fun h => ⟨h.1, h.2.1, h.2.2⟩, fun h => ⟨h.inside, h.not_network, h.not_broadcast⟩⟩

theorem isHost_map_iff {f : BitVec 32 → BitVec 32} (hinjective : Function.Injective f)
    (hand : ∀ a b, f (a &&& b) = f a &&& f b) (hnot : ∀ a, f (~~~a) = ~~~(f a))
    (mask member address : BitVec 32) :
    IsHost (f mask) (f member) (f address) ↔ IsHost mask member address := by
  have hzero : f 0 = 0 := by
    have h := hand 0 (~~~0)
    rw [hnot, BitVec.and_not_self, BitVec.and_not_self] at h
    exact h
  constructor
  · intro h
    refine ⟨hinjective ?_, fun heq => h.not_network ?_, fun heq => h.not_broadcast ?_⟩
    · rw [hand, hand, h.inside]
    · rw [← hnot, ← hand, heq, hzero]
    · rw [← hnot, ← hand, heq]
  · intro h
    refine ⟨?_, fun heq => h.not_network (hinjective ?_), fun heq => h.not_broadcast
      (hinjective ?_)⟩
    · rw [← hand, ← hand, h.inside]
    · rw [hand, hnot, heq, hzero]
    · rw [hand, hnot, heq]

/-- The mask that leaves the low bits to the hosts. -/
def prefixMask (hostBits : Nat) : BitVec 32 := ~~~(BitVec.ofNat 32 (2 ^ hostBits - 1))

variable {hostBits : Nat}

theorem toNat_not_prefixMask (hbits : hostBits ≤ 32) :
    (~~~(prefixMask hostBits)).toNat = 2 ^ hostBits - 1 := by
  have hpow : 2 ^ hostBits ≤ 2 ^ 32 := Nat.pow_le_pow_right (by decide) hbits
  have hpos : 0 < 2 ^ hostBits := Nat.two_pow_pos hostBits
  rw [prefixMask, BitVec.not_not, BitVec.toNat_ofNat, Nat.mod_eq_of_lt (by omega)]

theorem prefixMask_inj {other : Nat} (hbits : hostBits ≤ 32) (hother : other ≤ 32)
    (h : prefixMask hostBits = prefixMask other) : hostBits = other := by
  have hpow : 2 ^ hostBits - 1 = 2 ^ other - 1 := by
    rw [← toNat_not_prefixMask hbits, h, toNat_not_prefixMask hother]
  have hpos : 0 < 2 ^ hostBits := Nat.two_pow_pos hostBits
  have hpos' : 0 < 2 ^ other := Nat.two_pow_pos other
  exact Nat.pow_right_injective (Nat.le_refl 2) (by omega : 2 ^ hostBits = 2 ^ other)

theorem toNat_hostPart (hbits : hostBits ≤ 32) (address : BitVec 32) :
    (address &&& ~~~(prefixMask hostBits)).toNat = address.toNat % 2 ^ hostBits := by
  rw [BitVec.toNat_and, toNat_not_prefixMask hbits, Nat.and_two_pow_sub_one_eq_mod]

theorem getLsbD_prefixMask {place : Nat} :
    (prefixMask hostBits).getLsbD place = (decide (place < 32) && decide (hostBits ≤ place)) := by
  rw [prefixMask, BitVec.getLsbD_not, BitVec.getLsbD_ofNat, Nat.testBit_two_pow_sub_one]
  by_cases hplace : place < 32 <;> by_cases hhost : place < hostBits <;> simp [hplace, hhost]
  omega

theorem and_prefixMask_eq_iff (a b : BitVec 32) :
    a &&& prefixMask hostBits = b &&& prefixMask hostBits ↔
      a.toNat / 2 ^ hostBits = b.toNat / 2 ^ hostBits := by
  have hbit : ∀ (word : BitVec 32) (place : Nat),
      (word &&& prefixMask hostBits).getLsbD place =
        (decide (hostBits ≤ place) && (word.toNat / 2 ^ hostBits).testBit (place - hostBits)) := by
    intro word place
    rw [BitVec.getLsbD_and, getLsbD_prefixMask, Nat.testBit_div_two_pow]
    by_cases hhost : hostBits ≤ place
    · rw [Nat.sub_add_cancel hhost, BitVec.testBit_toNat]
      by_cases hplace : place < 32
      · simp [hhost, hplace]
      · simp [BitVec.getLsbD_of_ge word place (by omega)]
    · simp [hhost]
  constructor
  · intro h
    apply Nat.eq_of_testBit_eq
    intro place
    have hplace := congrArg (fun word => word.getLsbD (hostBits + place)) h
    simpa [hbit] using hplace
  · intro h
    apply BitVec.eq_of_getLsbD_eq
    intro place _
    rw [hbit, hbit, h]

theorem isHost_prefixMask_iff (hbits : hostBits ≤ 32) (member address : BitVec 32) :
    IsHost (prefixMask hostBits) member address ↔
      address.toNat / 2 ^ hostBits = member.toNat / 2 ^ hostBits ∧
        0 < address.toNat % 2 ^ hostBits ∧ address.toNat % 2 ^ hostBits + 1 < 2 ^ hostBits := by
  have hzero : address &&& ~~~(prefixMask hostBits) = 0 ↔ address.toNat % 2 ^ hostBits = 0 := by
    rw [← toNat_hostPart hbits, ← BitVec.toNat_inj]
    rfl
  have hones : address &&& ~~~(prefixMask hostBits) = ~~~(prefixMask hostBits) ↔
      address.toNat % 2 ^ hostBits = 2 ^ hostBits - 1 := by
    rw [← toNat_hostPart hbits, ← BitVec.toNat_inj, toNat_not_prefixMask hbits]
  have hlt : address.toNat % 2 ^ hostBits < 2 ^ hostBits := Nat.mod_lt _ (Nat.two_pow_pos _)
  constructor
  · intro h
    have hnetwork := mt hzero.mpr h.not_network
    have hbroadcast := mt hones.mpr h.not_broadcast
    exact ⟨(and_prefixMask_eq_iff _ _).mp h.inside, by omega, by omega⟩
  · rintro ⟨hinside, hpos, hlast⟩
    refine ⟨(and_prefixMask_eq_iff _ _).mpr hinside, fun heq => ?_, fun heq => ?_⟩
    · have := hzero.mp heq
      omega
    · have := hones.mp heq
      omega

/-- The address at a place of the subnet; places that are too large run out of it. -/
def addressAt (hostBits : Nat) (member : BitVec 32) (place : Nat) : BitVec 32 :=
  BitVec.ofNat 32 (member.toNat / 2 ^ hostBits * 2 ^ hostBits + place)

theorem addressAt_self (hostBits : Nat) (member : BitVec 32) :
    addressAt hostBits member (member.toNat % 2 ^ hostBits) = member := by
  rw [addressAt, Nat.mul_comm, Nat.div_add_mod, BitVec.ofNat_toNat, BitVec.setWidth_eq]

theorem addressAt_add (member : BitVec 32) (place offset : Nat) :
    addressAt hostBits member place + BitVec.ofNat 32 offset =
      addressAt hostBits member (place + offset) := by
  rw [addressAt, addressAt, ← BitVec.ofNat_add, Nat.add_assoc]

theorem addressAt_inj {member : BitVec 32} {place other : Nat} (hplace : place < 2 ^ 32)
    (hother : other < 2 ^ 32)
    (h : addressAt hostBits member place = addressAt hostBits member other) : place = other := by
  have hmod := congrArg BitVec.toNat h
  simp only [addressAt, BitVec.toNat_ofNat] at hmod
  omega

theorem toNat_addressAt (hbits : hostBits ≤ 32) (member : BitVec 32) {place : Nat}
    (hplace : place < 2 ^ hostBits) :
    (addressAt hostBits member place).toNat =
      member.toNat / 2 ^ hostBits * 2 ^ hostBits + place := by
  have hwhole : 2 ^ (32 - hostBits) * 2 ^ hostBits = 2 ^ 32 := by
    rw [← Nat.pow_add, Nat.sub_add_cancel hbits]
  have hnetwork : member.toNat / 2 ^ hostBits < 2 ^ (32 - hostBits) := by
    apply Nat.div_lt_of_lt_mul
    rw [Nat.mul_comm, hwhole]
    exact member.isLt
  have hend : (member.toNat / 2 ^ hostBits + 1) * 2 ^ hostBits ≤ 2 ^ 32 := by
    rw [← hwhole]
    exact Nat.mul_le_mul_right _ hnetwork
  rw [Nat.succ_mul] at hend
  rw [addressAt, BitVec.toNat_ofNat, Nat.mod_eq_of_lt (by omega)]

theorem isHost_iff_exists_place (hbits : hostBits ≤ 32) (member address : BitVec 32) :
    IsHost (prefixMask hostBits) member address ↔
      ∃ place, 0 < place ∧ place + 1 < 2 ^ hostBits ∧
        address = addressAt hostBits member place := by
  rw [isHost_prefixMask_iff hbits]
  constructor
  · rintro ⟨hinside, hpos, hlast⟩
    refine ⟨address.toNat % 2 ^ hostBits, hpos, hlast, ?_⟩
    rw [addressAt, ← hinside]
    exact (addressAt_self hostBits address).symm
  · rintro ⟨place, hpos, hlast, rfl⟩
    have hplace : place < 2 ^ hostBits := by omega
    rw [toNat_addressAt hbits member hplace, Nat.mul_comm,
      Nat.mul_add_div (Nat.two_pow_pos hostBits), Nat.mul_add_mod, Nat.div_eq_of_lt hplace,
      Nat.mod_eq_of_lt hplace]
    exact ⟨Nat.add_zero _, hpos, hlast⟩

end VacuumCleaner.Lib.Subnet
