import TaskRunner.Web.Host

/-!
# Addresses

Reading the addresses of resources as browsers do: tabs and line breaks do not count, known schemes take
backslashes for slashes, and every part is brought into one form.
-/

namespace TaskRunner.Web

/-- An address in its one form. -/
structure Url where
  scheme : String
  username : String
  password : String
  host : Option Host
  port : Option Nat
  path : String
  query : Option String
  fragment : Option String
deriving DecidableEq, Repr

/-- The schemes that are known, with their ports. -/
def knownSchemes : List (String × Option Nat) :=
  [("http", some 80), ("https", some 443), ("ws", some 80), ("wss", some 443), ("ftp", some 21),
    ("file", none)]

/-- Whether a scheme is known. -/
def isSpecial (scheme : String) : Bool :=
  (knownSchemes.lookup scheme).isSome

namespace Url

/-- The name and password in front of a host. -/
def credentials (u : Url) : String :=
  if u.username.isEmpty && u.password.isEmpty then ""
  else u.username ++ (if u.password.isEmpty then "" else ":" ++ u.password) ++ "@"

/-- The host with the port that is not its scheme's own. -/
def hostAndPort (u : Url) : String :=
  ((u.host.map Host.text).getD "") ++
    (match u.port with
    | some n => ":" ++ toString n
    | none => "")

/-- The path with the query, as a server is asked for it. -/
def target (u : Url) : String :=
  u.path ++ ((u.query.map ("?" ++ ·)).getD "")

/-- The address as text. -/
def text (u : Url) : String :=
  u.scheme ++ ":" ++ (if u.host.isSome then "//" ++ u.credentials ++ u.hostAndPort else "") ++
    u.target ++ ((u.fragment.map ("#" ++ ·)).getD "")

/-- Whether the address has a scheme that is fetched over the network. -/
def isHttp (u : Url) : Bool :=
  u.scheme == "http" || u.scheme == "https"

end Url

/-! ## Parts -/

/-- What counts of a text: not the control characters and blanks around it, nor tabs and line breaks. -/
def significant (text : String) : List Char :=
  let isOuter := fun (c : Char) => c.toNat ≤ 0x20
  let chars := text.toList.dropWhile isOuter
  let chars := (chars.reverse.dropWhile isOuter).reverse
  chars.filter fun c => !(c == '\t' || c == '\n' || c == '\r')

/-- The characters of a scheme after the first. -/
def isSchemeChar (c : Char) : Bool :=
  c.isAlphanum || c == '+' || c == '-' || c == '.'

/-- Splits a scheme off, in small letters. -/
def splitScheme? (chars : List Char) : Option (String × List Char) :=
  let name := chars.takeWhile isSchemeChar
  match name, chars.drop name.length with
  | first :: _, ':' :: rest =>
    if first.isAlpha then some (String.ofList (name.map Char.toLower), rest) else none
  | _, _ => none

/-- Whether a character is a slash for a scheme. -/
def isSlash (special : Bool) (c : Char) : Bool :=
  c == '/' || (special && c == '\\')

/-- Whether a character ends the part with the host. -/
def endsAuthority (special : Bool) (c : Char) : Bool :=
  isSlash special c || c == '?' || c == '#'

/-- Reads a name and a password. -/
def readCredentials (chars : List Char) : String × String :=
  let name := chars.takeWhile (· != ':')
  let encode := fun (part : List Char) => String.ofList (percentEncode userSet part)
  (encode name, encode (chars.drop (name.length + 1)))

/-- The characters of a host: up to a colon that stands in no brackets. -/
def spanHost (inBrackets : Bool) : List Char → List Char × List Char
  | [] => ([], [])
  | c :: rest =>
    if c == ':' && !inBrackets then ([], c :: rest)
    else
      let inside := if c == '[' then true else if c == ']' then false else inBrackets
      let (host, rest) := spanHost inside rest
      (c :: host, rest)

/-- Reads a port; the scheme's own one is left out. -/
def readPort? (scheme : String) (digits : List Char) : Except UrlError (Option Nat) :=
  if digits.isEmpty then .ok none
  else
    match Number.natOfDigits 10 digits with
    | some n =>
      if 65535 < n then .error .invalidPort
      else .ok (if (knownSchemes.lookup scheme).join == some n then none else some n)
    | none => .error .invalidPort

/-- Splits at the last of a character. -/
def splitAtLast (c : Char) (chars : List Char) : Option (List Char × List Char) :=
  let back := chars.reverse.takeWhile (· != c)
  if back.length == chars.length then none
  else some (chars.take (chars.length - back.length - 1), back.reverse)

/-- Reads a part with name, password, host and port. -/
def readAuthority? (u : Url) (chars : List Char) : Except UrlError Url := do
  let special := isSpecial u.scheme
  let (user, rest) := match splitAtLast '@' chars with
    | some (user, rest) => (some user, rest)
    | none => (none, chars)
  if user.isSome && rest.isEmpty then .error .emptyHost
  let (username, password) := readCredentials (user.getD [])
  let (hostChars, portChars) := spanHost false rest
  if special && hostChars.isEmpty then .error .emptyHost
  let host ← if special then Host.ofText? hostChars else Host.ofOpaqueText? hostChars
  if hostChars.isEmpty && (!portChars.isEmpty || username != "" || password != "") then
    .error .emptyHost
  let port ← readPort? u.scheme (portChars.drop 1)
  return { u with username, password, host := some host, port }

/-- Whether a piece of a path means the directory itself. -/
def isHere (piece : String) : Bool :=
  piece == "." || piece.toLower == "%2e"

/-- Whether a piece of a path means the directory above. -/
def isAbove (piece : String) : Bool :=
  ["..", ".%2e", "%2e.", "%2e%2e"].contains piece.toLower

/-- Takes one more piece of a path, `isLast` when nothing follows it. -/
def addPiece (pieces : List String) (piece : String) (isLast : Bool) : List String :=
  if isAbove piece then pieces.dropLast ++ (if isLast then [""] else [])
  else if isHere piece then pieces ++ (if isLast then [""] else [])
  else pieces ++ [piece]

/-- Takes the pieces of a path one after the other. -/
def addPieces : List String → List String → List String
  | done, [] => done
  | done, [last] => addPiece done last true
  | done, piece :: rest => addPieces (addPiece done piece false) rest

/-- Brings a path with its first slash into its one form. -/
def normalPath (special : Bool) (chars : List Char) : String :=
  let chars := chars.map fun c => if isSlash special c then '/' else c
  let pieces := (chars.drop 1).splitOn '/'
  let encoded := pieces.map fun piece => String.ofList (percentEncode pathSet piece)
  String.join ((addPieces [] encoded).map ("/" ++ ·))

/-- Splits off what follows the first of a character. -/
def splitOff (c : Char) (chars : List Char) : List Char × Option (List Char) :=
  let front := chars.takeWhile (· != c)
  (front, if front.length < chars.length then some (chars.drop (front.length + 1)) else none)

/-- Reads what follows the host of an address: the path, given its reader. -/
def readEnd (u : Url) (chars : List Char) (readPath : List Char → String) : Url :=
  let (chars, fragment) := splitOff '#' chars
  let (path, query) := splitOff '?' chars
  { u with
    path := readPath path
    query := query.map fun q => String.ofList (percentEncode (querySet (isSpecial u.scheme)) q)
    fragment := fragment.map fun f => String.ofList (percentEncode fragmentSet f) }

/-- Reads an address after its scheme and the slashes of its host. -/
def readHosted? (u : Url) (chars : List Char) : Except UrlError Url := do
  let special := isSpecial u.scheme
  let authority := chars.takeWhile fun c => !endsAuthority special c
  let u ← readAuthority? u authority
  return readEnd u (chars.drop authority.length) fun path =>
    if path.isEmpty then (if special then "/" else "") else normalPath special path

/-- Reads the address of a file after its scheme. -/
def readFile? (u : Url) (chars : List Char) : Except UrlError Url :=
  match chars with
  | a :: b :: rest =>
    if isSlash true a && isSlash true b then do
      let name := rest.takeWhile fun c => !endsAuthority true c
      let host ← if name.isEmpty then pure (Host.domain "") else Host.ofText? name
      let host := if host == .domain "localhost" then .domain "" else host
      return readEnd { u with host := some host } (rest.drop name.length) (normalPath true)
    else .ok (readEnd { u with host := some (.domain "") } chars fun path =>
      normalPath true (if path.head?.any (isSlash true) then path else '/' :: path))
  | _ => .ok (readEnd { u with host := some (.domain "") } chars fun path =>
      normalPath true (if path.head?.any (isSlash true) then path else '/' :: path))

/-- Reads an address. -/
def Url.ofText? (text : String) : Except UrlError Url :=
  match splitScheme? (significant text) with
  | none => .error .relativeWithoutBase
  | some (scheme, rest) =>
    let u : Url := ⟨scheme, "", "", none, none, "", none, none⟩
    if scheme == "file" then readFile? u rest
    else if isSpecial scheme then readHosted? u (rest.dropWhile (isSlash true))
    else
      match rest with
      | '/' :: '/' :: rest => readHosted? u rest
      | '/' :: _ => .ok (readEnd u rest (normalPath false))
      | _ => .ok (readEnd u rest fun path => String.ofList (percentEncode isControl path))

end TaskRunner.Web
