import Northstar.Network.Url

/-! Addresses and the check for public hosts (network-policy.ts). An address is read the way
the platform reads one, and every range is a range of 128-bit addresses: an IPv4 address is
looked up under its mapped form. -/
namespace Northstar.Network

def octet (s : JsString) : Option Nat :=
  let plain := s.all digit && 1 ≤ s.length && s.length ≤ 3 && (s.length = 1 || s.head? ≠ some 48)
  if plain && decimal s ≤ 255 then some (decimal s) else none

def ipv4 (s : JsString) : Option Nat := match (s.splitOn 46).mapM octet with
  | some [a,b,c,d] => some (((a * 256 + b) * 256 + c) * 256 + d)
  | _ => none

def lowerUnit (u : UInt16) : UInt16 := if 65 ≤ u && u ≤ 90 then u + 32 else u

def toLowerCase (s : JsString) : JsString := s.map lowerUnit

def hexValue (u : UInt16) : Option Nat :=
  let u := lowerUnit u
  if digit u then some (u.toNat - 48) else if 97 ≤ u && u ≤ 102 then some (u.toNat - 87) else none

def hexGroup (s : JsString) : Option Nat :=
  if 1 ≤ s.length && s.length ≤ 4 then (s.mapM hexValue).map fun digits => digits.foldl (fun n d => n * 16 + d) 0
  else none

/- Groups between colons; the last may be an IPv4 address, which makes two. -/
def lastGroups (s : JsString) : Option (List Nat) := match hexGroup s with
  | some group => some [group]
  | none => (ipv4 s).map fun address => [address / 65536,address % 65536]

def groups (s : JsString) : Option (List Nat) :=
  if s = [] then some []
  else do
    let parts := s.splitOn 58
    let first ← parts.dropLast.mapM hexGroup
    let last ← parts.getLast?.bind lastGroups
    some (first ++ last)

def plainGroups (s : JsString) : Option (List Nat) :=
  if s = [] then some [] else (s.splitOn 58).mapM hexGroup

/- The text before and after the first pair of colons. -/
def gap : JsString → Option (JsString × JsString)
  | 58 :: 58 :: rest => some ([],rest)
  | u :: rest => (gap rest).map fun (before,after) => (u :: before,after)
  | [] => none

def join128 (parts : List Nat) : Nat := parts.foldl (fun n part => n * 65536 + part) 0

/- An address may name a zone after a percent sign. -/
def ipv6 (s : JsString) : Option Nat :=
  let text := s.takeWhile (· ≠ 37)
  match gap text with
  | none => (groups text).bind fun parts => if parts.length = 8 then some (join128 parts) else none
  | some (before,after) => do
      let first ← plainGroups before
      let last ← groups after
      if first.length + last.length ≤ 7 then
        some (join128 (first ++ List.replicate (8 - (first.length + last.length)) 0 ++ last))
      else none

def mapped (address : Nat) : Nat := 0xffff * 2 ^ 32 + address

/- The block list. -/
def ipv4Ranges : List String :=
  ["0.0.0.0/8","10.0.0.0/8","100.64.0.0/10","127.0.0.0/8","169.254.0.0/16","172.16.0.0/12","192.168.0.0/16",
   "192.0.0.0/24","192.0.2.0/24","198.18.0.0/15","198.51.100.0/24","203.0.113.0/24","224.0.0.0/4","240.0.0.0/4"]

def ipv6Ranges : List String :=
  ["::/128","::1/128","fc00::/7","fe80::/10","fec0::/10","ff00::/8","100::/64","2001:2::/48","2001:db8::/32",
   "2001:10::/28","2001:20::/28","2002::/16"]

def parseCidr (cidr : JsString) : JsString × Nat :=
  (cidr.takeWhile (· ≠ 47),decimal (cidr.dropWhile (· ≠ 47)).tail)

structure Subnet where
  network : Nat
  prefixLength : Nat
  deriving DecidableEq, Repr

def addIpv4 (cidr : String) : Option Subnet :=
  (ipv4 (parseCidr (js cidr)).1).map fun address => ⟨mapped address,(parseCidr (js cidr)).2 + 96⟩

def addIpv6 (cidr : String) : Option Subnet :=
  (ipv6 (parseCidr (js cidr)).1).map fun address => ⟨address,(parseCidr (js cidr)).2⟩

def ipBlocklist : List Subnet := ipv4Ranges.filterMap addIpv4 ++ ipv6Ranges.filterMap addIpv6

def Subnet.contains (subnet : Subnet) (address : Nat) : Bool :=
  address / 2 ^ (128 - subnet.prefixLength) = subnet.network / 2 ^ (128 - subnet.prefixLength)

/- A text that is no address of the family is in no range. -/
def check (address : Option Nat) : Bool := address.any fun a => ipBlocklist.any (·.contains a)

def normalizeHostname (raw : JsString) : JsString :=
  let h := toLowerCase (trim raw)
  let h := if h.head? = some 91 && h.getLast? = some 93 then h.tail.dropLast else h
  if h.getLast? = some 46 then h.dropLast else h

/- An IPv6 literal has a colon, so a text without one is looked up as it is. -/
def listed (normalized : JsString) : Bool :=
  [js "0.0.0.0",js "::",js "::0"].contains normalized || check ((ipv4 normalized).map mapped) ||
    check (ipv6 normalized)

def mappedPrefix : JsString := js "::ffff:"

/- The hexadecimal form of a mapped address, as dotted text. -/
def mappedHex (normalized : JsString) : Option JsString :=
  if !mappedPrefix.isPrefixOf normalized then none
  else match (normalized.drop mappedPrefix.length).splitOn 58 with
    | [high,low] => do
        let high ← hexGroup high
        let low ← hexGroup low
        let octets := [high / 256,high % 256,low / 256,low % 256]
        some ([46].intercalate (octets.map fun n => js (toString n)))
    | _ => none

def mappedDotted (normalized : JsString) : Option JsString :=
  let rest := normalized.drop mappedPrefix.length
  if mappedPrefix.isPrefixOf normalized && rest ≠ [] && rest.all (fun u => digit u || u = 46) then some rest
  else none

def isPrivateOrReservedAddress (address : JsString) : Bool :=
  let normalized := normalizeHostname address
  let inner := fun text => listed (normalizeHostname text)
  listed normalized || ((ipv6 normalized).isSome &&
    ((mappedHex normalized).any inner || (mappedDotted normalized).any inner))

def blockedHostnames : List JsString :=
  [js "localhost",js "metadata",js "metadata.google.internal",js "metadata.azure.com",js "instance-data",
   js "host.docker.internal",js "gateway.docker.internal"]

def assertPublicHostname (hostname : JsString) : Except JsString Unit :=
  let h := normalizeHostname hostname
  if blockedHostnames.contains h || (js ".localhost").isSuffixOf h then .error (js "Blocked hostname: " ++ h)
  else if isPrivateOrReservedAddress h then .error (js "Private/reserved address: " ++ h)
  else .ok ()

/- What a lookup comes to: its answer, or why there is none. -/
inductive Lookup where
  | aborted
  | timedOut
  | failed (message : JsString)
  | answered (addresses : List JsString)
  deriving DecidableEq, Repr

def resolvePublicHostname (hostname : JsString) (lookup : JsString → Lookup) :
    Except JsString (List JsString) := do
  let h := normalizeHostname hostname
  assertPublicHostname h
  match lookup h with
  | .aborted => .error (js "DNS lookup aborted for " ++ hostname)
  | .timedOut => .error (js "DNS lookup timed out for " ++ hostname)
  | .failed message => .error message
  | .answered [] => .error (js "DNS lookup returned no addresses for " ++ hostname)
  | .answered addresses => match addresses.find? isPrivateOrReservedAddress with
      | some address =>
          .error (js "DNS resolved " ++ hostname ++ js " to private/reserved address: " ++ address)
      | none => .ok addresses

theorem resolvedPublic {hostname : JsString} {lookup : JsString → Lookup} {addresses : List JsString}
    (h : resolvePublicHostname hostname lookup = .ok addresses) :
    assertPublicHostname (normalizeHostname hostname) = .ok () ∧
      lookup (normalizeHostname hostname) = .answered addresses ∧ addresses ≠ [] ∧
      ∀ address ∈ addresses, isPrivateOrReservedAddress address = false := by
  unfold resolvePublicHostname at h
  dsimp only at h
  cases public_ : assertPublicHostname (normalizeHostname hostname) with
  | error message => simp [public_,bind,Except.bind] at h
  | ok value =>
    simp only [public_,bind,Except.bind] at h
    split at h
    · exact absurd h nofun
    · exact absurd h nofun
    · exact absurd h nofun
    · exact absurd h nofun
    · rename_i answers some_ answered
      split at h
      · exact absurd h nofun
      · rename_i none_
        cases Except.ok.inj h
        refine ⟨rfl,answered,some_,fun address member => ?_⟩
        simpa using List.find?_eq_none.mp none_ address member

example : isPrivateOrReservedAddress (js "::ffff:a00:1") = true ∧
    isPrivateOrReservedAddress (js "[fe80::1%25eth0]") = true ∧
    isPrivateOrReservedAddress (js "93.184.216.34") = false := by decide

end Northstar.Network
