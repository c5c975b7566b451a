import Debswarm.Proxy.URLs

/-!
# The guard against internal hosts

The proxy fetches from known mirrors and from the hosts of its configuration, and from none that
is internal: not by a name like `localhost`, nor by an address of a blocked range in whatever
spelling.  Requests with a URL and `CONNECT` requests are checked apart.
-/

namespace Debswarm.Security

open Text

/-! ## Numbers -/

def digitValue (byte : UInt8) : Nat :=
  if 48 ≤ byte ∧ byte ≤ 57 then byte.toNat - 48
  else if 97 ≤ lowerByte byte ∧ lowerByte byte ≤ 122 then (lowerByte byte).toNat - 87
  else 36

/-- The number that a text is in a base. -/
def digitsIn (base : Nat) (text : Str) : Option Nat :=
  if text ≠ [] ∧ text.all (digitValue · < base) then
    some (text.foldl (fun value byte => value * base + digitValue byte) 0)
  else none

def parseUint (base bits : Nat) (text : Str) : Option Nat :=
  (digitsIn base text).filter (· < 2 ^ bits)

def isHexText (text : Str) : Bool :=
  (ofAscii "0x").isPrefixOf text || (ofAscii "0X").isPrefixOf text

/-- A decimal, octal or hexadecimal number of so many bits. -/
def parseNumber (bits : Nat) (text : Str) : Option Nat :=
  if isHexText text then
    if text.length > 2 then parseUint 16 bits (text.drop 2) else none
  else if (ofAscii "0").isPrefixOf text ∧ text.length > 1 then parseUint 8 bits (text.drop 1)
  else parseUint 10 bits text

def parseOctet (text : Str) : Option Nat :=
  if text = [] then none else parseNumber 8 text

/-! ## Addresses -/

/-- An IPv4 address, whatever it was read from, or another IPv6 address. -/
inductive IP
  | v4 (address : Nat)
  | v6 (address : Nat)
  deriving DecidableEq

def ipv4 (a b c d : Nat) : IP :=
  .v4 (a * 2 ^ 24 + b * 2 ^ 16 + c * 2 ^ 8 + d)

/-- Loopback, private, link-local and unspecified addresses. -/
def isBlockedIP : IP → Bool
  | .v4 address =>
    address / 2 ^ 24 = 127 || address / 2 ^ 24 = 10 || address / 2 ^ 20 = 172 * 16 + 1 ||
      address / 2 ^ 16 = 192 * 256 + 168 || address / 2 ^ 16 = 169 * 256 + 254 ||
      address / 2 ^ 8 = 224 * 65536 || address = 0
  | .v6 address =>
    address = 1 || address / 2 ^ 121 = 126 || address / 2 ^ 118 = 1018 ||
      (address / 2 ^ 120 = 255 && address / 2 ^ 112 % 16 = 2) || address = 0

def isHostByte (byte : UInt8) : Bool :=
  (48 ≤ byte && byte ≤ 57) || (97 ≤ lowerByte byte && lowerByte byte ≤ 122) || byte = 45 ||
    byte = 46

/-- A host of ASCII letters, digits, hyphens and dots. -/
def IsHost (host : Str) : Prop :=
  host ≠ [] ∧ host.all isHostByte = true

/-- The URL of a path on a host. -/
def urlOf (scheme : Proxy.Scheme) (host path : Str) : Str :=
  scheme.text ++ ofAscii "://" ++ host ++ path

def IsRooted (path : Str) : Prop :=
  path = [] ∨ path.head? = some 47

/-- A path with its query, without control characters and with whole escapes. -/
def IsPath (path : Str) : Prop :=
  IsRooted path ∧ (∀ byte ∈ path, 32 ≤ byte ∧ byte ≠ 127) ∧
    ∀ front rest, path = front ++ 37 :: rest →
      2 ≤ rest.length ∧ (rest.take 2).all (digitValue · < 16) = true

/-- The address of four octets. -/
def ofOctets : Option (List Nat) → Option IP
  | some [a, b, c, d] => some (ipv4 a b c d)
  | _ => none

/-- An octet in decimal, without leading zeros. -/
def decimalOctet (part : Str) : Option Nat :=
  if part.head? = some 48 ∧ part ≠ [48] then none else parseUint 10 8 part

def dottedDecimal (text : Str) : Option IP :=
  ofOctets ((splitByte 46 text).mapM decimalOctet)

/-- What `net` and `net/url` document: the host name and path of a URL, if it is well formed; a host
and a port; an address, a dotted decimal if it has no colon. -/
structure Network where
  unicodeLower : Str → Str
  hostname : Str → Option Str
  path : Str → Option Str
  splitHostPort : Str → Option (Str × Str)
  parseIP : Str → Option IP
  hostname_rooted : ∀ scheme host path, IsHost host → IsRooted path →
    hostname (urlOf scheme host path) = some host ∨ hostname (urlOf scheme host path) = none
  hostname_url : ∀ scheme host path, IsHost host → IsPath path →
    hostname (urlOf scheme host path) = some host
  splitHostPort_target : ∀ host port, IsHost host → port.all isHostByte = true →
    splitHostPort (host ++ 58 :: port) = some (host, port)
  parseIP_of_noColon : ∀ text, 58 ∉ text → parseIP text = dottedDecimal text

variable (net : Network)

/-- The address of a text in brackets. -/
def parseBracketed (host : Str) : Option IP :=
  if host.head? = some 91 ∧ hasSuffix host (ofAscii "]") then net.parseIP host.tail.dropLast
  else none

def parseIPPermissive (host : Str) : Option IP :=
  match net.parseIP host with
  | some ip => some ip
  | none =>
    match parseBracketed net host with
    | some ip => some ip
    | none =>
      if contains host (ofAscii ":") then none
      else if contains host (ofAscii ".") then
        ofOctets ((splitByte 46 host).mapM parseOctet)
      else (parseNumber 32 host).map fun num =>
        ipv4 (num / 2 ^ 24 % 256) (num / 2 ^ 16 % 256) (num / 2 ^ 8 % 256) (num % 256)

def blockedHostnamePatterns : List String :=
  ["localhost", "metadata."]

/-- Whether a lower-cased host has one of the names that are blocked. -/
def isBlockedName (lower : Str) : Bool :=
  blockedHostnamePatterns.any fun pattern =>
    if hasSuffix (ofAscii pattern) (ofAscii ".") then (ofAscii pattern).isPrefixOf lower
    else lower == ofAscii pattern || hasSuffix lower (46 :: ofAscii pattern)

def isBlockedHostOrIP (host : Str) : Bool :=
  let lower := toLower net.unicodeLower host
  match parseIPPermissive net lower with
  | some ip => isBlockedIP ip
  | none => isBlockedName lower

def extractHost (rawURL : Str) : Str :=
  ((net.hostname rawURL).map (toLower net.unicodeLower)).getD []

def isBlockedHost (rawURL : Str) : Bool :=
  let host := extractHost net rawURL
  if host = [] then false else isBlockedHostOrIP net host

/-! ## Repository files -/

/-- Whether a lower-cased name is one of a package or of a file that describes a repository. -/
def isAPTFileName (name : Str) : Bool :=
  if name = [] then false
  else if [".deb", ".ddeb", ".udeb"].any fun ext => hasSuffix name (ofAscii ext) then true
  else
    let stem :=
      match [".gz", ".xz", ".bz2", ".zst", ".lz4"].find? fun ext =>
          hasSuffix name (ofAscii ext) with
      | some ext => name.take (name.length - ext.length)
      | none => name
    ["release", "inrelease", "release.gpg", "packages", "sources", "index"].any
        (fun word => stem == ofAscii word) ||
      ["contents-", "translation-", "commands-"].any fun word => (ofAscii word).isPrefixOf stem

/-- The last segment of the path of a lower-cased URL. -/
def basePath (lowerURL : Str) : Str :=
  let path := ((net.path lowerURL).filter (· ≠ [])).getD lowerURL
  let path := if hasSuffix path (ofAscii "/") then path.dropLast else path
  (path.reverse.takeWhile (· ≠ 47)).reverse

def isDebianRepoURL (rawURL : Str) : Bool :=
  let lower := toLower net.unicodeLower rawURL
  ["/dists/", "/pool/", "/debian/", "/ubuntu/", "/linuxmint/", "/by-hash/"].any
      (fun part => contains lower (ofAscii part)) ||
    isAPTFileName (basePath net lower)

/-! ## Allowed hosts -/

def knownMirrorDomains : List Str :=
  ["deb.debian.org", "debian.org", "archive.ubuntu.com", "ubuntu.com", "security.debian.org",
    "security.ubuntu.com", "packages.linuxmint.com", "linuxmint.com"].map ofAscii

/-- Whether a host is a domain or lies below it. -/
def matchesHost (host domain : Str) : Bool :=
  host == domain || hasSuffix host (46 :: domain)

def isKnownDebianMirror (host : Str) : Bool :=
  knownMirrorDomains.any fun domain => matchesHost (toLower net.unicodeLower host) domain

def isAllowedHost (rawURL : Str) (additionalHosts : List Str) : Bool :=
  let host := extractHost net rawURL
  if host = [] then false
  else isKnownDebianMirror net host ||
    additionalHosts.any fun allowed => matchesHost host (toLower net.unicodeLower allowed)

def isAllowedMirrorURLWithHosts (url : Str) (allowedHosts : List Str) : Bool :=
  if isBlockedHost net url then false
  else if !isDebianRepoURL net url then false
  else isAllowedHost net url allowedHosts

def isKnownMirrorOrAllowed (host : Str) (allowedHosts : List Str) : Bool :=
  isKnownDebianMirror net host ||
    allowedHosts.any fun allowed =>
      let lower := toLower net.unicodeLower host
      let allowedLower := toLower net.unicodeLower allowed
      lower == allowedLower || hasSuffix lower (46 :: allowedLower)

def isAllowedConnectTargetWithHosts (hostPort : Str) (allowedHosts : List Str) :
    Bool :=
  -- Without a port the target is taken for a host.
  let (host, port) := (net.splitHostPort hostPort).getD (hostPort, ofAscii "443")
  if port ≠ ofAscii "443" ∧ port ≠ ofAscii "80" then false
  else if isBlockedHostOrIP net host then false
  else isKnownMirrorOrAllowed net host allowedHosts

end Debswarm.Security
