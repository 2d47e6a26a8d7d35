import SchemaForge.Text.Casing
import SchemaForge.Text.Pieces
import SchemaForge.Text.Quoted

/-
The scheme and host part of a URL. Control characters and spaces in front are skipped, tabs and line ends
dropped wherever they stand. A host in brackets must be an address of version 6 or later, with nothing before
the brackets and at most a port behind them; brackets before the last at sign ask the same of the host without
any. No character of the host part may stand for a separator in compatibility form.
-/

namespace SchemaForge

/-- A part that is not there is empty. -/
structure Url where
  scheme : String
  authority : String

inductive UrlDefect
  | misplacedBrackets
  | malformedFutureAddress
  | notAddress (host : String)
  | versionFourInBrackets
  | disguisedSeparator (authority : String)

def UrlDefect.message : UrlDefect → String
  | .misplacedBrackets => "Invalid IPv6 URL"
  | .malformedFutureAddress => "IPvFuture address is invalid"
  | .notAddress host => Text.quoted host ++ " does not appear to be an IPv4 or IPv6 address"
  | .versionFourInBrackets => "An IPv4 address cannot be in brackets"
  | .disguisedSeparator authority =>
    "netloc '" ++ authority ++ "' contains invalid characters under NFKC normalization"

namespace Url

def isHexDigit (c : Char) : Bool := c.isDigit || ('a' ≤ c && c ≤ 'f') || ('A' ≤ c && c ≤ 'F')

/-- A decimal number up to 255 without leading zeros. -/
def isOctet (cs : List Char) : Bool :=
  cs.all Char.isDigit && !cs.isEmpty && cs.length ≤ 3 && (cs == ['0'] || cs.head? != some '0')
    && cs.foldl (fun n c => 10 * n + (c.toNat - 48)) 0 ≤ 255

def isVersionFour (cs : List Char) : Bool :=
  let octets := Text.splitAt '.' cs
  octets.length == 4 && octets.all isOctet

def isGroup (cs : List Char) : Bool := cs.all isHexDigit && !cs.isEmpty && cs.length ≤ 4

/-- The groups of an address, two taking the place of a final address of version 4. -/
def addressGroups (cs : List Char) : List (List Char) :=
  let parts := Text.splitAt ':' cs
  match parts.getLast? with
  | some last => if isVersionFour last then parts.dropLast ++ [['0'], ['0']] else parts
  | none => parts

/-- The groups on one side of a double colon at the end of an address. -/
def side (groups : List (List Char)) : List (List Char) := if groups == [[]] then [] else groups

/-- Eight groups, or fewer with one double colon for the missing ones. -/
def isGroupList (groups : List (List Char)) : Bool :=
  match groups.tail.dropLast.findIdx? List.isEmpty with
  | some i =>
    let shown := side (groups.take (i + 1)) ++ side (groups.drop (i + 2))
    shown.length ≤ 7 && shown.all isGroup
  | none => groups.length == 8 && groups.all isGroup

/-- An address of version 6, with or without a zone after `%`. -/
def isVersionSix (cs : List Char) : Bool :=
  let address := cs.takeWhile (· != '%')
  let zoned := match Text.cutFirst? '%' cs with
    | some (_, zone) => !zone.isEmpty && !zone.contains '%'
    | none => true
  zoned && (Text.splitAt ':' address).length ≥ 3 && isGroupList (addressGroups address)

/-- `v`, a hexadecimal version, a dot and something more. -/
def isFutureAddress (cs : List Char) : Bool :=
  match Text.cutFirst? '.' cs with
  | some ('v' :: version, rest) => version.all isHexDigit && !version.isEmpty && !rest.isEmpty
  | _ => false

def checkBracketed (host : List Char) : Except UrlDefect Unit :=
  if host.head? == some 'v' then
    if isFutureAddress host then .ok () else .error .malformedFutureAddress
  else if isVersionFour host then .error .versionFourInBrackets
  else if isVersionSix host then .ok ()
  else .error (.notAddress (String.ofList host))

/-- The text before the first `sep`, or all of it. -/
def upTo (sep : Char) (cs : List Char) : List Char := cs.takeWhile (· != sep)

/-- What follows the last at sign, or all of it. -/
def hostAndPort (authority : List Char) : List Char :=
  match Text.cutLast? '@' authority with
  | some (_, rest) => rest
  | none => authority

/-- Checks a host part that holds brackets of both kinds. -/
def checkHost (authority : List Char) : Except UrlDefect Unit :=
  let host := hostAndPort authority
  match Text.cutFirst? '[' host with
  | none => checkBracketed (upTo ':' host)
  | some (before, inside) =>
    let port := inside.drop ((upTo ']' inside).length + 1)
    if before.isEmpty && (port.isEmpty || port.head? == some ':') then checkBracketed (upTo ']' inside)
    else .error .misplacedBrackets

/-- Characters whose compatibility form holds one of the separators `/`, `?`, `#`, `@` and `:`. -/
def disguised : List Nat :=
  [0x2047, 0x2048, 0x2049, 0x2100, 0x2101, 0x2105, 0x2106, 0x2A74, 0xFE13, 0xFE16, 0xFE55, 0xFE56, 0xFE5F, 0xFE6B,
    0xFF03, 0xFF0F, 0xFF1A, 0xFF1F, 0xFF20]

def checkAuthority (authority : List Char) : Except UrlDefect Unit := do
  match authority.contains '[', authority.contains ']' with
  | true, true => checkHost authority
  | false, false => pure ()
  | _, _ => throw .misplacedBrackets
  if authority.any (fun c => disguised.contains c.toNat) then
    throw (.disguisedSeparator (String.ofList authority))

/-- The characters that count. -/
def relevant (cs : List Char) : List Char :=
  (cs.dropWhile (fun c => c.toNat ≤ 32)).filter (fun c => c != '\t' && c != '\r' && c != '\n')

def isSchemeChar (c : Char) : Bool := c.isAlphanum || c == '+' || c == '-' || c == '.'

/-- The scheme, and what follows it. A scheme starts with a letter and ends at the first colon. -/
def cutScheme (cs : List Char) : List Char × List Char :=
  match Text.cutFirst? ':' cs with
  | some (c :: scheme, rest) =>
    if c.isAlpha && scheme.all isSchemeChar then ((c :: scheme).map Char.toLower, rest) else ([], cs)
  | _ => ([], cs)

/-- The host part follows two slashes and ends before a slash, question mark or number sign. -/
def authorityOf : List Char → List Char
  | '/' :: '/' :: cs => cs.takeWhile (fun c => c != '/' && c != '?' && c != '#')
  | _ => []

def ofString (s : String) : Except UrlDefect Url := do
  let (scheme, rest) := cutScheme (relevant s.toList)
  let authority := authorityOf rest
  checkAuthority authority
  return { scheme := String.ofList scheme, authority := String.ofList authority }

def isAbsolute (u : Url) : Bool := u.scheme != "" && u.authority != ""

end Url

end SchemaForge
