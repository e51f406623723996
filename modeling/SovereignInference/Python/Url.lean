import SovereignInference.Python.IpAddress

/-!
# URLs

The scheme and the host that `urllib.parse` finds in a URL.
-/

namespace Python

/-- What is known of the characters outside ASCII. -/
structure Unicode where
  /-- `unicodedata.normalize("NFKC", s)`. -/
  nfkc : Text → Text
  /-- `str.lower`. -/
  lower : Text → Text

namespace Url

def isAsciiLetter (c : CodePoint) : Bool :=
  (0x41 ≤ c.val && c.val ≤ 0x5A) || (0x61 ≤ c.val && c.val ≤ 0x7A)

def isSchemeChar (c : CodePoint) : Bool :=
  isAsciiLetter c || (asciiDigit c).isSome || (text "+-.").contains c

/-- The part of a string after the last occurrence of a character, or the
string itself. -/
def afterLast (s : Text) (separator : CodePoint) : Text :=
  (s.reverse.takeWhile (· ≠ separator)).reverse

/-- The scheme, if the URL has one, and the rest of the URL. -/
def splitScheme (url : Text) : Text × Text :=
  let (scheme, rest) := partition url 0x3A
  if url.contains 0x3A ∧ (scheme.head?.any isAsciiLetter) ∧
      scheme.all isSchemeChar then
    (asciiLower scheme, rest)
  else ([], url)

def netlocOf (url : Text) : Text :=
  if startsWith url "//" then
    (url.drop 2).takeWhile fun c => !(text "/?#").contains c
  else []

/-- `_check_bracketed_host`: what stands in brackets is an address of
version 6 or of a future version. -/
def isBracketedHost (host : Text) : Bool :=
  if startsWith host "v" then
    let (version, address) := partition (host.drop 1) 0x2E
    version ≠ [] && version.all (fun c => (IpAddress.hexDigit c).isSome) &&
      address ≠ []
  else
    match IpAddress.parse host with
    | some (.v6 _) => true
    | _ => false

def bracketsMatch (netloc : Text) : Bool :=
  if netloc.contains 0x5B ∧ netloc.contains 0x5D then
    isBracketedHost (partition (partition netloc 0x5B).2 0x5D).1
  else !netloc.contains 0x5B && !netloc.contains 0x5D

/-- `_checknetloc`: no character stands for a separator of the URL. -/
def isNormalNetloc (U : Unicode) (netloc : Text) : Bool :=
  let n := netloc.filter fun c => !(text "@:#?").contains c
  netloc.all (·.val < 0x80) || U.nfkc n = n ||
    (text "/?#@:").all fun c => !(U.nfkc n).contains c

/-- `SplitResult.hostname`, the empty string for none. -/
def hostnameOf (U : Unicode) (netloc : Text) : Text :=
  let hostinfo := afterLast netloc 0x40
  let hostname :=
    if hostinfo.contains 0x5B then
      (partition (partition hostinfo 0x5B).2 0x5D).1
    else (partition hostinfo 0x3A).1
  U.lower (hostname.takeWhile (· ≠ 0x25)) ++ hostname.dropWhile (· ≠ 0x25)

/-- The scheme and the hostname of `urlsplit(url)`, unless it raises
`ValueError`. -/
def urlsplit (U : Unicode) (url : Text) : Option (Text × Text) :=
  let url := (url.dropWhile (·.val ≤ 0x20)).filter fun c =>
    !(text "\t\r\n").contains c
  let (scheme, rest) := splitScheme url
  let netloc := netlocOf rest
  if bracketsMatch netloc && isNormalNetloc U netloc then
    some (scheme, hostnameOf U netloc)
  else none

end Url

end Python
