/-! Internet addresses of both families, and the part of IPv6 that stands for IPv4. -/
namespace SpanWire

inductive AddressFamily
  | v4
  | v6
  deriving DecidableEq, Repr

structure IPv4 where
  octets : List UInt8
  length_eq : octets.length = 4
  deriving DecidableEq

structure IPv6 where
  groups : List UInt16
  length_eq : groups.length = 8
  deriving DecidableEq

inductive Address
  | v4 (a : IPv4)
  | v6 (a : IPv6)
  deriving DecidableEq

/-- The two bytes of a group, the more significant one first. -/
def bytesOfGroup (g : UInt16) : List UInt8 :=
  [UInt8.ofNat (g.toNat / 256), UInt8.ofNat (g.toNat % 256)]

def groupOfBytes (hi lo : UInt8) : UInt16 :=
  UInt16.ofNat (256 * hi.toNat + lo.toNat)

def IPv6.octets (a : IPv6) : List UInt8 :=
  a.groups.flatMap bytesOfGroup

/-- The IPv4 address that an address of the form `::ffff:0:0/96` stands for. -/
def IPv6.mapped? (a : IPv6) : Option IPv4 :=
  match a.groups.drop 6 with
  | [hi, lo] =>
    if a.groups.take 6 = [0, 0, 0, 0, 0, 0xffff] then
      some ⟨bytesOfGroup hi ++ bytesOfGroup lo, rfl⟩
    else none
  | _ => none

end SpanWire
