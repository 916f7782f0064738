import VacuumCleaner.Lib.Subnet
import Mathlib.Data.List.Nodup
import Mathlib.Tactic.IntervalCases

/-! The app's `RobotSocketDiscovery`: the addresses that are tried, and the batches
in which they are tried. -/
namespace VacuumCleaner.App.RobotSocketDiscovery

open Lib.Subnet

/-- `Int.reverseBytes`. -/
def reverseBytes (this : BitVec 32) : BitVec 32 :=
  let v0 := (this >>> 0) &&& 0xFF#32
  let v1 := (this >>> 8) &&& 0xFF#32
  let v2 := (this >>> 16) &&& 0xFF#32
  let v3 := (this >>> 24) &&& 0xFF#32
  (v0 <<< 24) ||| (v1 <<< 16) ||| (v2 <<< 8) ||| (v3 <<< 0)

def hostsPerSubnet : List (List Char × Nat) :=
  [("255.0.0.0".toList, 16277214), ("255.128.0.0".toList, 8388606),
    ("255.192.0.0".toList, 4194302), ("255.224.0.0".toList, 2097150),
    ("255.240.0.0".toList, 1048574), ("255.248.0.0".toList, 524286),
    ("255.252.0.0".toList, 262142), ("255.254.0.0".toList, 131070),
    ("255.255.0.0".toList, 65534), ("255.255.128.0".toList, 32766),
    ("255.255.192.0".toList, 16382), ("255.255.224.0".toList, 8190),
    ("255.255.240.0".toList, 4094), ("255.255.248.0".toList, 2046),
    ("255.255.252.0".toList, 1022), ("255.255.254.0".toList, 510),
    ("255.255.255.0".toList, 254), ("255.255.255.128".toList, 126),
    ("255.255.255.192".toList, 62), ("255.255.255.224".toList, 30),
    ("255.255.255.240".toList, 14), ("255.255.255.248".toList, 6),
    ("255.255.255.252".toList, 2)]

section Addresses

-- `Formatter.formatIpAddress` of the platform
variable (formatIpAddress : BitVec 32 → List Char)

def getHostsPerSubnet (subnetMask : BitVec 32) : Except (List Char) Nat :=
  let it := formatIpAddress subnetMask
  match hostsPerSubnet.lookup it with
  | some hosts => .ok hosts
  | none => .error ("Unhandled network mask! ".toList ++ it)

def getAllAvailableIPs (gateway netmask : BitVec 32) : Except (List Char) (List (List Char)) :=
  let reversedBitsIp := reverseBytes gateway
  (getHostsPerSubnet formatIpAddress netmask).map fun hosts =>
    (List.range' 1 (hosts - 1)).map fun it =>
      formatIpAddress (reverseBytes (reversedBitsIp + BitVec.ofNat 32 it))

variable {formatIpAddress : BitVec 32 → List Char}

theorem getLsbD_reverseBytes (word : BitVec 32) {place : Nat} (hplace : place < 32) :
    (reverseBytes word).getLsbD place = word.getLsbD ((3 - place / 8) * 8 + place % 8) := by
  unfold reverseBytes
  interval_cases place <;> simp

theorem reverseBytes_and (a b : BitVec 32) :
    reverseBytes (a &&& b) = reverseBytes a &&& reverseBytes b := by
  apply BitVec.eq_of_getLsbD_eq
  intro place hplace
  simp only [BitVec.getLsbD_and, getLsbD_reverseBytes _ hplace]

theorem reverseBytes_not (a : BitVec 32) : reverseBytes (~~~a) = ~~~(reverseBytes a) := by
  apply BitVec.eq_of_getLsbD_eq
  intro place hplace
  have hback : (3 - place / 8) * 8 + place % 8 < 32 := by omega
  rw [getLsbD_reverseBytes _ hplace, BitVec.getLsbD_not, BitVec.getLsbD_not,
    getLsbD_reverseBytes _ hplace]
  simp [hplace, hback]

theorem reverseBytes_reverseBytes (a : BitVec 32) : reverseBytes (reverseBytes a) = a := by
  apply BitVec.eq_of_getLsbD_eq
  intro place hplace
  rw [getLsbD_reverseBytes _ hplace, getLsbD_reverseBytes _ (by omega)]
  congr 1
  omega

theorem reverseBytes_injective : Function.Injective reverseBytes := by
  intro a b h
  rw [← reverseBytes_reverseBytes a, h, reverseBytes_reverseBytes]

theorem hostsPerSubnet_eq :
    hostsPerSubnet = (List.range 23).map fun place =>
      (dottedQuad (reverseBytes (prefixMask (24 - place))),
        if place = 0 then 16277214 else 2 ^ (24 - place) - 2) := by
  decide

theorem getHostsPerSubnet_eq_ok {subnetMask : BitVec 32} {hosts : Nat}
    (hformat : ∀ address, formatIpAddress address = dottedQuad address)
    (h : getHostsPerSubnet formatIpAddress subnetMask = .ok hosts) :
    ∃ hostBits, 2 ≤ hostBits ∧ hostBits ≤ 24 ∧ subnetMask = reverseBytes (prefixMask hostBits) ∧
      hosts = if hostBits = 24 then 16277214 else 2 ^ hostBits - 2 := by
  have hlookup : hostsPerSubnet.lookup (dottedQuad subnetMask) = some hosts := by
    rw [getHostsPerSubnet, hformat] at h
    split at h <;> cases h
    assumption
  obtain ⟨before, after, hsplit, -⟩ := List.lookup_eq_some_iff.mp hlookup
  have hmem : (dottedQuad subnetMask, hosts) ∈ hostsPerSubnet := by simp [hsplit]
  rw [hostsPerSubnet_eq] at hmem
  obtain ⟨place, hplace, heq⟩ := List.mem_map.mp hmem
  rw [List.mem_range] at hplace
  obtain ⟨hmask, hhosts⟩ := Prod.mk.inj heq
  refine ⟨24 - place, by omega, by omega, (dottedQuad_injective hmask).symm, ?_⟩
  rw [← hhosts]
  congr 1
  apply propext
  omega

/-- Exactly the hosts of the gateway's subnet other than the gateway, each once. -/
structure Enumerates (formatIpAddress : BitVec 32 → List Char) (gateway netmask : BitVec 32)
    (ips : List (List Char)) : Prop where
  nodup : ips.Nodup
  mem_iff : ∀ text, text ∈ ips ↔ ∃ address, IsHost netmask gateway address ∧ address ≠ gateway ∧
    formatIpAddress address = text

section Places

variable {hostBits hosts : Nat} {gateway : BitVec 32}

/-- How the code writes the address at a place of the gateway's subnet. -/
def textAt (formatIpAddress : BitVec 32 → List Char) (hostBits : Nat) (gateway : BitVec 32)
    (place : Nat) : List Char :=
  formatIpAddress (reverseBytes (addressAt hostBits gateway place))

theorem textAt_inj (hformat : Function.Injective formatIpAddress) {place other : Nat}
    (hplace : place < 2 ^ 32) (hother : other < 2 ^ 32)
    (h : textAt formatIpAddress hostBits gateway place =
      textAt formatIpAddress hostBits gateway other) : place = other :=
  addressAt_inj hplace hother (reverseBytes_injective (hformat h))

theorem candidate_eq (formatIpAddress : BitVec 32 → List Char) (hostBits : Nat)
    (gateway : BitVec 32) (it : Nat) :
    formatIpAddress (reverseBytes (gateway + BitVec.ofNat 32 it)) =
      textAt formatIpAddress hostBits gateway (gateway.toNat % 2 ^ hostBits + it) := by
  rw [textAt, ← addressAt_add, addressAt_self]

theorem mem_candidates_iff (hostBits : Nat) (text : List Char) :
    text ∈ ((List.range' 1 (hosts - 1)).map fun it =>
        formatIpAddress (reverseBytes (gateway + BitVec.ofNat 32 it))) ↔
      ∃ place, (gateway.toNat % 2 ^ hostBits < place ∧
          place < gateway.toNat % 2 ^ hostBits + hosts) ∧
        textAt formatIpAddress hostBits gateway place = text := by
  rw [List.mem_map]
  constructor
  · rintro ⟨it, hit, rfl⟩
    rw [List.mem_range'_1] at hit
    exact ⟨gateway.toNat % 2 ^ hostBits + it, by omega, (candidate_eq _ _ _ it).symm⟩
  · rintro ⟨place, hplace, rfl⟩
    refine ⟨place - gateway.toNat % 2 ^ hostBits, List.mem_range'_1.mpr (by omega), ?_⟩
    rw [candidate_eq formatIpAddress hostBits, Nat.add_sub_cancel' (by omega)]

theorem other_host_iff (hbits : hostBits ≤ 24) (text : List Char) :
    (∃ address, IsHost (reverseBytes (prefixMask hostBits)) (reverseBytes gateway) address ∧
        address ≠ reverseBytes gateway ∧ formatIpAddress address = text) ↔
      ∃ place, (0 < place ∧ place + 1 < 2 ^ hostBits ∧ place ≠ gateway.toNat % 2 ^ hostBits) ∧
        textAt formatIpAddress hostBits gateway place = text := by
  have hself := addressAt_self hostBits gateway
  have hpow : 2 ^ hostBits ≤ 2 ^ 24 := Nat.pow_le_pow_right (by decide) hbits
  constructor
  · rintro ⟨address, hhost, hother, rfl⟩
    rw [← reverseBytes_reverseBytes address, isHost_map_iff reverseBytes_injective
      reverseBytes_and reverseBytes_not, isHost_iff_exists_place (by omega)] at hhost
    obtain ⟨place, hpos, hlast, haddress⟩ := hhost
    refine ⟨place, ⟨hpos, hlast, ?_⟩, ?_⟩
    · rintro rfl
      rw [hself] at haddress
      exact hother (by rw [← haddress, reverseBytes_reverseBytes])
    · rw [textAt, ← haddress, reverseBytes_reverseBytes]
  · rintro ⟨place, ⟨hpos, hlast, hother⟩, rfl⟩
    refine ⟨reverseBytes (addressAt hostBits gateway place), ?_, ?_, rfl⟩
    · rw [isHost_map_iff reverseBytes_injective reverseBytes_and reverseBytes_not,
        isHost_iff_exists_place (by omega)]
      exact ⟨place, hpos, hlast, rfl⟩
    · intro heq
      have hplace := (reverseBytes_injective heq).trans hself.symm
      have hlt : gateway.toNat % 2 ^ hostBits < 2 ^ hostBits :=
        Nat.mod_lt _ (Nat.two_pow_pos hostBits)
      exact hother (addressAt_inj (by omega) (by omega) hplace)

theorem enumerates_iff_places (hformat : Function.Injective formatIpAddress)
    (hbits : hostBits ≤ 24) (hhosts : hosts ≤ 2 ^ 24) :
    Enumerates formatIpAddress (reverseBytes gateway) (reverseBytes (prefixMask hostBits))
        ((List.range' 1 (hosts - 1)).map fun it =>
          formatIpAddress (reverseBytes (gateway + BitVec.ofNat 32 it))) ↔
      ∀ place, (gateway.toNat % 2 ^ hostBits < place ∧
          place < gateway.toNat % 2 ^ hostBits + hosts) ↔
        0 < place ∧ place + 1 < 2 ^ hostBits ∧ place ≠ gateway.toNat % 2 ^ hostBits := by
  have hpow : 2 ^ hostBits ≤ 2 ^ 24 := Nat.pow_le_pow_right (by decide) hbits
  have hgateway : gateway.toNat % 2 ^ hostBits < 2 ^ hostBits :=
    Nat.mod_lt _ (Nat.two_pow_pos hostBits)
  constructor
  · intro henumerates place
    have hmem := henumerates.mem_iff (textAt formatIpAddress hostBits gateway place)
    rw [mem_candidates_iff hostBits, other_host_iff hbits] at hmem
    constructor
    · intro hafter
      obtain ⟨other, hother, htext⟩ := hmem.mp ⟨place, hafter, rfl⟩
      rw [← textAt_inj hformat (by omega) (by omega) htext]
      exact hother
    · intro hhost
      obtain ⟨other, hother, htext⟩ := hmem.mpr ⟨place, hhost, rfl⟩
      rw [← textAt_inj hformat (by omega) (by omega) htext]
      exact hother
  · intro hplaces
    constructor
    · apply List.Nodup.map_on ?_ List.nodup_range'
      intro it hit other hother htext
      rw [List.mem_range'_1] at hit hother
      rw [candidate_eq formatIpAddress hostBits, candidate_eq formatIpAddress hostBits] at htext
      have := textAt_inj hformat (by omega) (by omega) htext
      omega
    · intro text
      rw [mem_candidates_iff hostBits, other_host_iff hbits]
      exact exists_congr fun place => and_congr_left' (hplaces place)

theorem places_iff (hbits : 2 ≤ hostBits) (hbits' : hostBits ≤ 24)
    (hgateway : IsHost (prefixMask hostBits) gateway gateway) :
    (∀ place, (gateway.toNat % 2 ^ hostBits < place ∧ place < gateway.toNat % 2 ^ hostBits +
          if hostBits = 24 then 16277214 else 2 ^ hostBits - 2) ↔
        0 < place ∧ place + 1 < 2 ^ hostBits ∧ place ≠ gateway.toNat % 2 ^ hostBits) ↔
      hostBits ≠ 24 ∧ gateway.toNat % 2 ^ hostBits = 1 := by
  obtain ⟨-, hpos, hlast⟩ := (isHost_prefixMask_iff (by omega) gateway gateway).mp hgateway
  constructor
  · intro hplaces
    have hfirst : gateway.toNat % 2 ^ hostBits = 1 := by
      -- otherwise the first host stands before the gateway
      by_contra hne
      have h := (hplaces 1).mpr ⟨by omega, by omega, by omega⟩
      omega
    refine ⟨fun hall => ?_, hfirst⟩
    subst hall
    have h := (hplaces (2 ^ 24 - 2)).mpr ⟨by omega, by omega, by omega⟩
    rw [if_pos rfl] at h
    omega
  · rintro ⟨hne, hfirst⟩ place
    rw [if_neg hne, hfirst]
    omega

end Places

/-- Exactly when the addresses are right: the count of hosts is, and the gateway
is the first of them. -/
theorem enumerates_iff {gateway netmask : BitVec 32} {hosts : Nat}
    (hformat : ∀ address, formatIpAddress address = dottedQuad address)
    (hlisted : getHostsPerSubnet formatIpAddress netmask = .ok hosts)
    (hgateway : IsHost netmask gateway gateway) :
    ∃ ips, getAllAvailableIPs formatIpAddress gateway netmask = .ok ips ∧
      (Enumerates formatIpAddress gateway netmask ips ↔
        netmask ≠ 0x000000FF#32 ∧ gateway &&& ~~~netmask = 0x01000000#32) := by
  obtain ⟨hostBits, hlow, hhigh, rfl, rfl⟩ := getHostsPerSubnet_eq_ok hformat hlisted
  refine ⟨_, by rw [getAllAvailableIPs, hlisted, Except.map], ?_⟩
  have hinjective : Function.Injective formatIpAddress := by
    rw [funext hformat]
    exact dottedQuad_injective
  have hpow : 2 ^ hostBits ≤ 2 ^ 24 := Nat.pow_le_pow_right (by decide) hhigh
  have hcount : (if hostBits = 24 then 16277214 else 2 ^ hostBits - 2) ≤ 2 ^ 24 := by
    split <;> omega
  have hself := reverseBytes_reverseBytes gateway
  have hgateway' : IsHost (prefixMask hostBits) (reverseBytes gateway) (reverseBytes gateway) := by
    rw [← isHost_map_iff reverseBytes_injective reverseBytes_and reverseBytes_not, hself]
    exact hgateway
  have hmask : reverseBytes (prefixMask hostBits) ≠ 0x000000FF#32 ↔ hostBits ≠ 24 := by
    have hlargest : (0x000000FF#32) = reverseBytes (prefixMask 24) := by decide
    rw [hlargest, reverseBytes_injective.ne_iff]
    exact not_congr ⟨prefixMask_inj (by omega) (by decide), congrArg prefixMask⟩
  have hfirst : gateway &&& ~~~(reverseBytes (prefixMask hostBits)) = 0x01000000#32 ↔
      (reverseBytes gateway).toNat % 2 ^ hostBits = 1 := by
    rw [← toNat_hostPart (by omega), ← reverseBytes_injective.eq_iff, reverseBytes_and,
      reverseBytes_not, reverseBytes_reverseBytes, ← BitVec.toNat_inj]
    rfl
  rw [hmask, hfirst, ← places_iff hlow hhigh hgateway', ← enumerates_iff_places hinjective hhigh
    hcount, hself]

theorem enumerates_five :
    ∃ ips, getAllAvailableIPs dottedQuad 0x0100A8C0#32 0xF8FFFFFF#32 = .ok ips ∧
      Enumerates dottedQuad 0x0100A8C0#32 0xF8FFFFFF#32 ips := by
  obtain ⟨ips, hips, hiff⟩ :=
    @enumerates_iff dottedQuad 0x0100A8C0#32 0xF8FFFFFF#32 6 (fun _ => rfl) rfl (by decide)
  exact ⟨ips, hips, hiff.mpr (by decide)⟩

/-- The gateway is the second of two hosts, so the broadcast address is tried. -/
theorem not_enumerates :
    IsHost 0xFCFFFFFF#32 0x0200A8C0#32 0x0200A8C0#32 ∧
      getAllAvailableIPs dottedQuad 0x0200A8C0#32 0xFCFFFFFF#32 =
        .ok ["192.168.0.3".toList] ∧
      ¬ Enumerates dottedQuad 0x0200A8C0#32 0xFCFFFFFF#32 ["192.168.0.3".toList] := by
  refine ⟨by decide, rfl, fun henumerates => ?_⟩
  obtain ⟨address, hhost, -, htext⟩ := (henumerates.mem_iff _).mp (.head _)
  have haddress : address = 0x0300A8C0#32 := dottedQuad_injective (htext.trans (by decide))
  rw [haddress] at hhost
  exact absurd hhost (by decide)

end Addresses

section Batches

variable {IP : Type}

/-- One turn of the loop in `discover`, for an address that has been removed. -/
structure Buffered (IP : Type) where
  k : Nat := 0
  bufferIps : List IP := []
  listOfJobs : List (List IP) := []
  deriving DecidableEq, Repr

def Buffered.turn (buffered : Buffered IP) (ip : IP) : Buffered IP :=
  if buffered.k = 5 then
    { k := 0, bufferIps := [], listOfJobs := buffered.listOfJobs ++ [buffered.bufferIps] }
  else { buffered with bufferIps := buffered.bufferIps ++ [ip], k := buffered.k + 1 }

/-- None where `removeFirst` finds nothing. -/
def scanLoop (buffered : Buffered IP) : List IP → Option (List (List IP))
  | [] => none
  | ip :: ips =>
    let buffered := buffered.turn ip
    match ips with
    | [] => some (buffered.listOfJobs ++ [buffered.bufferIps])
    | _ :: _ => scanLoop buffered ips

/-- The lists that `discover` hands to `scanIps`. -/
def batches (ips : List IP) : Option (List (List IP)) :=
  if ips.isEmpty then some [] else scanLoop {} ips

def scanIps (tryConnect : IP → Bool) (ips : List IP) : List IP := ips.filter tryConnect

def discover (tryConnect : IP → Bool) (ips : List IP) : Option (List IP) :=
  (batches ips).map fun listOfJobs => (listOfJobs.map (scanIps tryConnect)).flatten

/-- What the loop passes on; it drops the address at which it empties a full buffer. -/
def kept (k : Nat) : List IP → List IP
  | [] => []
  | ip :: ips => if k = 5 then kept 0 ips else ip :: kept (k + 1) ips

theorem kept_sublist (k : Nat) (ips : List IP) : (kept k ips).Sublist ips := by
  induction ips generalizing k with
  | nil => exact .slnil
  | cons ip ips ih =>
    rw [kept]
    split
    · exact (ih 0).cons ip
    · exact (ih (k + 1)).cons_cons ip

theorem length_kept (ips : List IP) {k : Nat} (hk : k ≤ 5) :
    (kept k ips).length + (ips.length + k) / 6 = ips.length := by
  induction ips generalizing k with
  | nil =>
    simp only [kept, List.length_nil]
    omega
  | cons ip ips ih =>
    rw [kept]
    split
    · have h := ih (k := 0) (by omega)
      simp only [List.length_cons]
      omega
    · have h := ih (k := k + 1) (by omega)
      simp only [List.length_cons]
      omega

theorem turn_kept (buffered : Buffered IP) (ip : IP) (ips : List IP) :
    (buffered.turn ip).listOfJobs.flatten ++ (buffered.turn ip).bufferIps ++
        kept (buffered.turn ip).k ips =
      buffered.listOfJobs.flatten ++ buffered.bufferIps ++ kept buffered.k (ip :: ips) := by
  rw [kept, Buffered.turn]
  split <;> simp

theorem scanLoop_eq (ip : IP) (ips : List IP) (buffered : Buffered IP) :
    ∃ jobs, scanLoop buffered (ip :: ips) = some jobs ∧
      jobs.flatten = buffered.listOfJobs.flatten ++ buffered.bufferIps ++
        kept buffered.k (ip :: ips) := by
  rw [← turn_kept]
  induction ips generalizing ip buffered with
  | nil => exact ⟨_, rfl, by simp [kept]⟩
  | cons next ips ih =>
    rw [← turn_kept]
    exact ih next (buffered.turn ip)

theorem batches_eq (ips : List IP) :
    ∃ jobs, batches ips = some jobs ∧ jobs.flatten = kept 0 ips := by
  cases ips with
  | nil => exact ⟨[], rfl, rfl⟩
  | cons ip ips => exact scanLoop_eq ip ips {}

theorem discover_eq (tryConnect : IP → Bool) (ips : List IP) :
    discover tryConnect ips = some ((kept 0 ips).filter tryConnect) := by
  obtain ⟨jobs, hjobs, hflatten⟩ := batches_eq ips
  have hscans : scanIps tryConnect = List.filter tryConnect := rfl
  rw [discover, hjobs, Option.map_some, hscans, ← List.filter_flatten, hflatten]

theorem mem_kept_iff {ips : List IP} {ip : IP} {place k : Nat} (hk : k ≤ 5) (hnodup : ips.Nodup)
    (hplace : ips[place]? = some ip) : ip ∈ kept k ips ↔ (place + k) % 6 ≠ 5 := by
  induction ips generalizing place k with
  | nil => cases hplace
  | cons first ips ih =>
    obtain ⟨hfirst, hrest⟩ := List.nodup_cons.mp hnodup
    have hdropped : ∀ k, first ∉ kept k ips := fun k hmem =>
      hfirst ((kept_sublist k ips).subset hmem)
    rw [kept]
    cases place with
    | zero =>
      cases hplace
      split
      · exact iff_of_false (hdropped 0) (by omega)
      · exact iff_of_true List.mem_cons_self (by omega)
    | succ place =>
      have hne : ip ≠ first := by
        rintro rfl
        exact hfirst (List.mem_of_getElem? hplace)
      split
      · rw [ih (by omega) hrest hplace]
        omega
      · rw [List.mem_cons, or_iff_right hne, ih (by omega) hrest hplace]
        omega

theorem discovered_iff {tryConnect : IP → Bool} {ips : List IP} {ip : IP} {place : Nat}
    (hnodup : ips.Nodup) (hplace : ips[place]? = some ip) (hrobot : tryConnect ip = true) :
    ∃ found, discover tryConnect ips = some found ∧ (ip ∈ found ↔ place % 6 ≠ 5) := by
  refine ⟨_, discover_eq tryConnect ips, ?_⟩
  rw [List.mem_filter, mem_kept_iff (by decide) hnodup hplace, Nat.add_zero]
  exact and_iff_left hrobot

/-- Exactly when every address is scanned, in order and once. -/
theorem scans_all_iff (ips : List IP) :
    ∃ jobs, batches ips = some jobs ∧ (jobs.flatten = ips ↔ ips.length < 6) := by
  obtain ⟨jobs, hjobs, hflatten⟩ := batches_eq ips
  refine ⟨jobs, hjobs, ?_⟩
  have hlength := length_kept ips (k := 0) (by decide)
  rw [hflatten]
  constructor
  · intro heq
    rw [heq] at hlength
    omega
  · intro hshort
    apply (kept_sublist 0 ips).eq_of_length
    omega

end Batches

/-- A subnet with fourteen hosts. -/
theorem not_scans_all :
    ∃ ips, getAllAvailableIPs dottedQuad 0x0100A8C0#32 0xF0FFFFFF#32 = .ok ips ∧ ips.Nodup ∧
      (batches ips).map List.flatten ≠ some ips :=
  ⟨_, rfl, by decide, by decide⟩

end VacuumCleaner.App.RobotSocketDiscovery
