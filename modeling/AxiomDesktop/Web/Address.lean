import Mathlib.Tactic.Common

/-!
# Public addresses

The two classifiers of addresses: `isPublicIp` of the fetcher, and `isPublicAddress` of the clients
for providers. Both refuse the local IPv6 addresses (`Ipv6Addr.IsLocal`). An IPv4 address may also
be spelled as an IPv6 one (`toIpv4Mapped`): the first classifier looks into that spelling, the
second one does not, `refused_iff_mapped`.
-/

namespace AxiomDesktop

/-! ## Addresses -/

/-- `std::net::Ipv4Addr`, by its number. -/
structure Ipv4Addr where
  value : BitVec 32
  deriving DecidableEq

/-- `std::net::Ipv6Addr`, by its segments. -/
structure Ipv6Addr where
  s0 : BitVec 16
  s1 : BitVec 16
  s2 : BitVec 16
  s3 : BitVec 16
  s4 : BitVec 16
  s5 : BitVec 16
  s6 : BitVec 16
  s7 : BitVec 16
  deriving DecidableEq

inductive IpAddr where
  | v4 (address : Ipv4Addr)
  | v6 (address : Ipv6Addr)
  deriving DecidableEq

structure SocketAddr where
  ip : IpAddr
  port : Nat
  deriving DecidableEq

namespace Ipv4Addr

/-- `Ipv4Addr::new`. -/
def new (a b c d : BitVec 8) : Ipv4Addr := ⟨a ++ b ++ c ++ d⟩

variable (address : Ipv4Addr)

def a : BitVec 8 := address.value.extractLsb' 24 8

def b : BitVec 8 := address.value.extractLsb' 16 8

def c : BitVec 8 := address.value.extractLsb' 8 8

def isPrivate : Bool :=
  address.a = 10 || address.a = 172 && 16 ≤ address.b && address.b ≤ 31 ||
    address.a = 192 && address.b = 168

def isLoopback : Bool := address.a = 127

def isLinkLocal : Bool := address.a = 169 && address.b = 254

def isBroadcast : Bool := address = new 255 255 255 255

def isDocumentation : Bool :=
  address.a = 192 && address.b = 0 && address.c = 2 ||
    address.a = 198 && address.b = 51 && address.c = 100 ||
    address.a = 203 && address.b = 0 && address.c = 113

def isUnspecified : Bool := address = new 0 0 0 0

def isMulticast : Bool := 224 ≤ address.a && address.a ≤ 239

end Ipv4Addr

namespace Ipv6Addr

/-- `Ipv4Addr::to_ipv6_mapped`. -/
def ofIpv4 (address : Ipv4Addr) : Ipv6Addr :=
  ⟨0, 0, 0, 0, 0, 0xffff, address.value.extractLsb' 16 16, address.value.extractLsb' 0 16⟩

variable (address : Ipv6Addr)

/-- `Ipv6Addr::to_ipv4_mapped`. -/
def toIpv4Mapped : Option Ipv4Addr :=
  if address.s0 = 0 ∧ address.s1 = 0 ∧ address.s2 = 0 ∧ address.s3 = 0 ∧ address.s4 = 0 ∧
      address.s5 = 0xffff then
    some ⟨address.s6 ++ address.s7⟩
  else none

def isLoopback : Bool := address = ⟨0, 0, 0, 0, 0, 0, 0, 1⟩

def isUnspecified : Bool := address = ⟨0, 0, 0, 0, 0, 0, 0, 0⟩

def isUniqueLocal : Bool := address.s0 &&& 0xfe00 = 0xfc00

def isUnicastLinkLocal : Bool := address.s0 &&& 0xffc0 = 0xfe80

def isMulticast : Bool := address.s0 &&& 0xff00 = 0xff00

/-- An address of the own machine or network. -/
def IsLocal : Prop :=
  address.isLoopback ∨ address.isUnspecified ∨ address.isUniqueLocal ∨ address.isUnicastLinkLocal ∨
    address.isMulticast

end Ipv6Addr

/-- An address that no connection may go to, for a classifier of IPv4 addresses: a local one, one it
rejects, or another spelling of one it rejects. -/
def IpAddr.Refused (accepts : Ipv4Addr → Bool) : IpAddr → Prop
  | .v4 address => accepts address = false
  | .v6 address =>
    address.IsLocal ∨ ∃ mapped, address.toIpv4Mapped = some mapped ∧ accepts mapped = false

/-- Another spelling of an IPv4 address that a classifier rejects. -/
def IpAddr.Mapped (accepts : Ipv4Addr → Bool) : IpAddr → Prop
  | .v4 _ => False
  | .v6 address => ∃ mapped, address.toIpv4Mapped = some mapped ∧ accepts mapped = false

/-! ## The classifiers -/

/-- `in_prefix`. -/
def inPrefix (address network : Ipv4Addr) (bits : Nat) : Bool :=
  let mask : BitVec 32 := if bits = 0 then 0 else BitVec.allOnes 32 <<< (32 - bits)
  address.value &&& mask = network.value &&& mask

/-- `is_public_v4`. -/
def isPublicV4 (ip : Ipv4Addr) : Bool :=
  !(inPrefix ip (.new 0 0 0 0) 8 || inPrefix ip (.new 10 0 0 0) 8 ||
    inPrefix ip (.new 100 64 0 0) 10 || inPrefix ip (.new 127 0 0 0) 8 ||
    inPrefix ip (.new 169 254 0 0) 16 || ip = .new 168 63 129 16 ||
    inPrefix ip (.new 172 16 0 0) 12 || inPrefix ip (.new 192 0 0 0) 24 ||
    inPrefix ip (.new 192 0 2 0) 24 || inPrefix ip (.new 192 168 0 0) 16 ||
    inPrefix ip (.new 192 88 99 0) 24 || inPrefix ip (.new 198 18 0 0) 15 ||
    inPrefix ip (.new 198 51 100 0) 24 || inPrefix ip (.new 203 0 113 0) 24 ||
    inPrefix ip (.new 224 0 0 0) 4 || inPrefix ip (.new 240 0 0 0) 4)

/-- `is_public_v6`. -/
def isPublicV6 (ip : Ipv6Addr) : Bool :=
  match ip.toIpv4Mapped with
  | some mapped => isPublicV4 mapped
  | none =>
    ip.s0 &&& 0xe000 = 0x2000 && !(ip.s0 = 0x2001 && (ip.s1 = 0x0000 || ip.s1 = 0x0db8)) &&
      ip.s0 ≠ 0x2002

/-- `is_public_ip`. -/
def isPublicIp : IpAddr → Bool
  | .v4 ip => isPublicV4 ip
  | .v6 ip => isPublicV6 ip

/-- The arm of `is_public_address` for IPv4. -/
def isPublicAddressV4 (address : Ipv4Addr) : Bool :=
  !(address.isPrivate || address.isLoopback || address.isLinkLocal || address.isBroadcast ||
    address.isDocumentation || address.isUnspecified || address.isMulticast || address.a = 0 ||
    address.a = 100 && 64 ≤ address.b && address.b ≤ 127 ||
    address.a = 192 && address.b = 0 && address.c = 0 ||
    address.a = 198 && 18 ≤ address.b && address.b ≤ 19 || 240 ≤ address.a)

/-- `is_public_address`. -/
def isPublicAddress : IpAddr → Bool
  | .v4 address => isPublicAddressV4 address
  | .v6 address =>
    !(address.isLoopback || address.isUnspecified || address.isUniqueLocal ||
      address.isUnicastLinkLocal || address.isMulticast ||
      address.s0 = 0x2001 && address.s1 = 0x0db8)

/-! ## What they refuse -/

namespace Ipv6Addr

variable {address : Ipv6Addr} {mask network : BitVec 16}

/-- A prefix that is not a part of `2000::/3` has no address in it. -/
theorem outside_global (h : address.s0 &&& 0xe000 = 0x2000) (hmask : mask &&& 0xe000 = 0xe000)
    (hnetwork : network &&& 0xe000 ≠ 0x2000) : address.s0 &&& mask ≠ network := by
  rintro rfl
  rw [BitVec.and_assoc, hmask] at hnetwork
  exact hnetwork h

/-- **No local address is global.** -/
theorem not_isLocal_of_global (h : address.s0 &&& 0xe000 = 0x2000) : ¬ address.IsLocal := by
  rintro (hloopback | hunspecified | hunique | hlink | hmulticast)
  · obtain rfl : address = _ := by simpa [isLoopback] using hloopback
    exact absurd h (by decide)
  · obtain rfl : address = _ := by simpa [isUnspecified] using hunspecified
    exact absurd h (by decide)
  · have hunique : address.s0 &&& 0xfe00 = 0xfc00 := by simpa [isUniqueLocal] using hunique
    exact outside_global h (by decide) (by decide) hunique
  · have hlink : address.s0 &&& 0xffc0 = 0xfe80 := by simpa [isUnicastLinkLocal] using hlink
    exact outside_global h (by decide) (by decide) hlink
  · have hmulticast : address.s0 &&& 0xff00 = 0xff00 := by simpa [isMulticast] using hmulticast
    exact outside_global h (by decide) (by decide) hmulticast

/-- A spelling of an IPv4 address is none of the local addresses. -/
theorem not_isLocal_of_mapped {mapped : Ipv4Addr} (h : address.toIpv4Mapped = some mapped) :
    ¬ address.IsLocal := by
  unfold toIpv4Mapped at h
  split at h
  · next hsegments =>
    obtain ⟨h0, -, -, -, -, h5⟩ := hsegments
    rintro (hloopback | hunspecified | hunique | hlink | hmulticast)
    · obtain rfl : address = _ := by simpa [isLoopback] using hloopback
      exact absurd h5 (by decide)
    · obtain rfl : address = _ := by simpa [isUnspecified] using hunspecified
      exact absurd h5 (by decide)
    · rw [isUniqueLocal, h0] at hunique
      exact absurd hunique (by decide)
    · rw [isUnicastLinkLocal, h0] at hlink
      exact absurd hlink (by decide)
    · rw [isMulticast, h0] at hmulticast
      exact absurd hmulticast (by decide)
  · cases h

end Ipv6Addr

/-- **The fetcher's classifier refuses every spelling.** -/
theorem not_refused_of_isPublicIp {ip : IpAddr} (h : isPublicIp ip = true) :
    ¬ ip.Refused isPublicV4 := by
  cases ip with
  | v4 address =>
    intro hrefused
    cases h.symm.trans hrefused
  | v6 address =>
    have h : isPublicV6 address = true := h
    unfold isPublicV6 at h
    rintro (hlocal | ⟨mapped, hmapped, hrejected⟩)
    · split at h
      · next mapped hmapped => exact Ipv6Addr.not_isLocal_of_mapped hmapped hlocal
      · simp only [Bool.and_eq_true, decide_eq_true_eq] at h
        exact Ipv6Addr.not_isLocal_of_global h.1.1 hlocal
    · rw [hmapped] at h
      cases h.symm.trans hrejected

/-- **The other classifier refuses all but the mapped spelling.** -/
theorem refused_iff_mapped {ip : IpAddr} (h : isPublicAddress ip = true) :
    ip.Refused isPublicAddressV4 ↔ ip.Mapped isPublicAddressV4 := by
  cases ip with
  | v4 address =>
    refine ⟨fun hrefused => ?_, False.elim⟩
    cases h.symm.trans hrefused
  | v6 address =>
    refine or_iff_right ?_
    simp only [isPublicAddress, Bool.not_eq_true', Bool.or_eq_false_iff] at h
    obtain ⟨⟨⟨⟨⟨hloopback, hunspecified⟩, hunique⟩, hlink⟩, hmulticast⟩, -⟩ := h
    simp [Ipv6Addr.IsLocal, hloopback, hunspecified, hunique, hlink, hmulticast]

end AxiomDesktop
