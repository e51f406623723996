import SovereignInference.Python.Text

/-!
# IP addresses

Reading addresses from strings, and the special networks they may lie in.
-/

namespace Python

/-- An address, without the scope a version 6 address may have. -/
inductive IpAddress where
  | v4 (value : BitVec 32)
  | v6 (value : BitVec 128)
  deriving DecidableEq

namespace IpAddress

/-- At most three decimal digits, without leading zeros, for at most 255. -/
def parseOctet (octet : Text) : Option Nat := do
  let digits ← octet.mapM asciiDigit
  let value := digits.foldl (fun value digit => value * 10 + digit) 0
  if octet = [] ∨ 3 < octet.length ∨ 255 < value then none
  else if octet.head? = some 0x30 ∧ octet ≠ [0x30] then none
  else return value

def parseV4 (s : Text) : Option (BitVec 32) :=
  match (s.splitOn 0x2E).mapM parseOctet with
  | some [a, b, c, d] => some (.ofNat 32 (((a * 256 + b) * 256 + c) * 256 + d))
  | _ => none

def hexDigit (c : CodePoint) : Option Nat :=
  if 0x30 ≤ c.val ∧ c.val ≤ 0x39 then some (c.val - 0x30)
  else if 0x41 ≤ c.val ∧ c.val ≤ 0x46 then some (c.val - 0x37)
  else if 0x61 ≤ c.val ∧ c.val ≤ 0x66 then some (c.val - 0x57)
  else none

/-- At most four hexadecimal digits. -/
def parseHextet (hextet : Text) : Option Nat := do
  let digits ← hextet.mapM hexDigit
  if hextet = [] ∨ 4 < hextet.length then none
  else return digits.foldl (fun value digit => value * 16 + digit) 0

/-- The hextets on one side of `::`, which may have nothing on it. -/
def parseSide : List Text → Option (List Nat)
  | [[]] => some []
  | side => side.mapM parseHextet

/-- An address of version 4 at the end counts as two hextets. -/
def hextetsOf (part : Text) : Option (List Nat) :=
  if part.contains 0x2E then
    (parseV4 part).map fun value =>
      [(value.extractLsb' 16 16).toNat, (value.extractLsb' 0 16).toNat]
  else (parseHextet part).map ([·])

def parseLow (side : List Text) : Option (List Nat) :=
  match side with
  | [[]] => some []
  | side => do
      let hextets ← side.dropLast.mapM parseHextet
      return hextets ++ (← hextetsOf (side.getLastD []))

/-- The eight hextets of the parts between the colons. -/
def parseParts (parts : List Text) : Option (List Nat) :=
  let inner := parts.tail.dropLast
  match inner.count [] with
  | 0 => (parseLow parts).filter (·.length = 8)
  | 1 => do
      let skip := inner.idxOf [] + 1
      let high ← parseSide (parts.take skip)
      let low ← parseLow (parts.drop (skip + 1))
      if high.length + low.length < 8 then
        return high ++ List.replicate (8 - high.length - low.length) 0 ++ low
      else none
  | _ => none

def ofHextets (hextets : List Nat) : BitVec 128 :=
  .ofNat 128 (hextets.foldl (fun value hextet => value * 0x10000 + hextet) 0)

def parseV6 (s : Text) : Option (BitVec 128) :=
  let (address, scope) := partition s 0x25
  if s.contains 0x2F ∨ s.contains 0x25 ∧ (scope = [] ∨ scope.contains 0x25) then
    none
  else
    (parseParts (address.splitOn 0x3A)).map ofHextets

/-- `ipaddress.ip_address`, if the string is an address. -/
def parse (s : Text) : Option IpAddress :=
  (parseV4 s).map .v4 <|> (parseV6 s).map .v6

/-- An address and the number of its leading bits that a network fixes. -/
structure Network (width : Nat) where
  address : BitVec width
  bits : Nat

def Network.has {width : Nat} (network : Network width)
    (address : BitVec width) : Bool :=
  address >>> (width - network.bits) = network.address >>> (width - network.bits)

def net4 (a b c d bits : Nat) : Network 32 :=
  ⟨.ofNat 32 (((a * 256 + b) * 256 + c) * 256 + d), bits⟩

/-- The network of leading hextets. -/
def net6 (hextets : List Nat) (bits : Nat) : Network 128 :=
  ⟨ofHextets (hextets ++ List.replicate (8 - hextets.length) 0), bits⟩

def privateNetworks4 : List (Network 32) :=
  [net4 0 0 0 0 8, net4 10 0 0 0 8, net4 127 0 0 0 8, net4 169 254 0 0 16,
    net4 172 16 0 0 12, net4 192 0 0 0 24, net4 192 0 0 170 31,
    net4 192 0 2 0 24, net4 192 168 0 0 16, net4 198 18 0 0 15,
    net4 198 51 100 0 24, net4 203 0 113 0 24, net4 240 0 0 0 4,
    net4 255 255 255 255 32]

def privateExceptions4 : List (Network 32) :=
  [net4 192 0 0 9 32, net4 192 0 0 10 32]

def privateNetworks6 : List (Network 128) :=
  [net6 [0, 0, 0, 0, 0, 0, 0, 1] 128, net6 [] 128,
    net6 [0, 0, 0, 0, 0, 0xFFFF] 96, net6 [0x64, 0xFF9B, 1] 48,
    net6 [0x100] 64, net6 [0x2001] 23, net6 [0x2001, 0xDB8] 32,
    net6 [0x2002] 16, net6 [0xFC00] 7, net6 [0xFE80] 10]

def privateExceptions6 : List (Network 128) :=
  [net6 [0x2001, 1, 0, 0, 0, 0, 0, 1] 128,
    net6 [0x2001, 1, 0, 0, 0, 0, 0, 2] 128, net6 [0x2001, 3] 32,
    net6 [0x2001, 4, 0x112] 48, net6 [0x2001, 0x20] 28, net6 [0x2001, 0x30] 28]

def reservedNetworks6 : List (Network 128) :=
  [net6 [] 8, net6 [0x100] 8, net6 [0x200] 7, net6 [0x400] 6, net6 [0x800] 5,
    net6 [0x1000] 4, net6 [0x4000] 3, net6 [0x6000] 3, net6 [0x8000] 3,
    net6 [0xA000] 3, net6 [0xC000] 3, net6 [0xE000] 4, net6 [0xF000] 5,
    net6 [0xF800] 6, net6 [0xFE00] 9]

/-- In one of the networks, but in none of the exceptions. -/
def inNetworks {width : Nat} (networks exceptions : List (Network width))
    (address : BitVec width) : Bool :=
  networks.any (·.has address) && exceptions.all (!·.has address)

/-- `IPv6Address.ipv4_mapped`. -/
def mapped (value : BitVec 128) : Option (BitVec 32) :=
  if (net6 [0, 0, 0, 0, 0, 0xFFFF] 96).has value then
    some (value.extractLsb' 0 32)
  else none

def isPrivate : IpAddress → Bool
  | v4 value => inNetworks privateNetworks4 privateExceptions4 value
  | v6 value =>
      match mapped value with
      | some value => inNetworks privateNetworks4 privateExceptions4 value
      | none => inNetworks privateNetworks6 privateExceptions6 value

def isLoopback : IpAddress → Bool
  | v4 value => (net4 127 0 0 0 8).has value
  | v6 value => value = 1

def isLinkLocal : IpAddress → Bool
  | v4 value => (net4 169 254 0 0 16).has value
  | v6 value => (net6 [0xFE80] 10).has value

def isReserved : IpAddress → Bool
  | v4 value => (net4 240 0 0 0 4).has value
  | v6 value => reservedNetworks6.any (·.has value)

def isMulticast : IpAddress → Bool
  | v4 value => (net4 224 0 0 0 4).has value
  | v6 value => (net6 [0xFF00] 8).has value

def isUnspecified : IpAddress → Bool
  | v4 value => value = 0
  | v6 value => value = 0

end IpAddress

end Python
