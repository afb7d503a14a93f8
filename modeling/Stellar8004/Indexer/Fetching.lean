import Stellar8004.Library.Requests
import Stellar8004.Web.DataUri

/-!
# Fetching documents

`resolveUri` of `apps/indexer/src/uri.ts`: the guard on host names, the DNS
check and the two hops of `fetchJson`.
-/

namespace Stellar8004.Indexer

open Stellar8004.Web (digitsValue)
open Stellar8004.Web.DataUri (parseDataUri startsWith MAX_RESPONSE_BYTES)

/-! ## Host names -/

/-- `text.toLowerCase()`.  A host name has only ASCII letters. -/
def lowerCase (text : List Char) : List Char :=
  text.map Char.toLower

/-- `/^\d{1,3}(\.\d{1,3}){3}$/` -/
def isDottedQuad (text : List Char) : Bool :=
  let parts := text.splitOn '.'
  parts.length = 4 && parts.all fun part =>
    1 ≤ part.length && part.length ≤ 3 && part.all Char.isDigit

/-- The checks of the four numbers of an address. -/
def isPrivateQuad (a b c d : Nat) : Bool :=
  [a, b, c, d].any (255 < ·) || a = 0 || a = 10 || a = 127 ||
    (a = 169 && b = 254) || (a = 172 && 16 ≤ b && b ≤ 31) ||
    (a = 192 && b = 168) || (a = 100 && 64 ≤ b && b ≤ 127) || 224 ≤ a

/-- The guard on a dotted quad, which is neither a name nor an IPv6
address. -/
def isPrivateIpv4 (text : List Char) : Bool :=
  isDottedQuad text &&
    match (text.splitOn '.').map digitsValue with
    | [a, b, c, d] => isPrivateQuad a b c d
    | _ => false

def isHexGroup (text : List Char) : Bool :=
  1 ≤ text.length && text.length ≤ 4 &&
    text.all fun char => char.isDigit || ('a' ≤ char && char ≤ 'f')

def hexGroupValue (text : List Char) : Nat :=
  text.foldl (fun value char =>
    16 * value + "0123456789abcdef".toList.idxOf char) 0

/-- The two groups of `/^::ffff:([0-9a-f]{1,4}):([0-9a-f]{1,4})$/`. -/
def hexMapped (text : List Char) : Option (Nat × Nat) :=
  if "::ffff:".toList.isPrefixOf text then
    match (text.drop 7).splitOn ':' with
    | [hi, lo] =>
        if isHexGroup hi ∧ isHexGroup lo then
          some (hexGroupValue hi, hexGroupValue lo)
        else none
    | _ => none
  else none

/-- The guard on what contains a colon. -/
def isPrivateIpv6 (text : List Char) : Bool :=
  text = "::1".toList || text = "::".toList ||
    (["fe8", "fe9", "fea", "feb", "fc", "fd", "ff"].any fun start =>
      start.toList.isPrefixOf text) ||
    (match text.tails.find? isDottedQuad with
      | some tail => isPrivateIpv4 tail
      | none => false) ||
    match hexMapped text with
    | some (hi, lo) =>
        isPrivateQuad (hi / 256 % 256) (hi % 256) (lo / 256 % 256) (lo % 256)
    | none => false

/-- Bare host names that point at the host machine or an internal one. -/
def isLocalName (name : List Char) : Bool :=
  name = "localhost".toList || ".localhost".toList.isSuffixOf name ||
    ".local".toList.isSuffixOf name || ".internal".toList.isSuffixOf name

def isPrivateOrLoopbackHost (hostname : String) : Bool :=
  let lower := lowerCase hostname.toList
  if lower = [] then true
  else if isLocalName lower then true
  else
    let stripped :=
      if lower.head? = some '[' ∧ lower.getLast? = some ']' then
        (lower.drop 1).dropLast
      else lower
    (stripped.contains ':' && isPrivateIpv6 stripped) || isPrivateIpv4 stripped

/-- The name without a trailing root dot. -/
def rootless (name : List Char) : List Char :=
  if name.getLast? = some '.' then name.dropLast else name

/-! ## URLs and responses -/

/-- A parsed URL.  In http and https a host that is a number is written as a
dotted quad, so none has a root dot. -/
structure Url where
  protocol : String
  hostname : String
  href : String
  numeric : protocol = "http:" ∨ protocol = "https:" →
    isDottedQuad (rootless (lowerCase hostname.toList)) = true →
      hostname.toList.getLast? ≠ some '.'

/-- `new URL(url)` and `new URL(location, url)`; nothing where they throw. -/
structure Urls where
  parse : String → Option Url
  parseAt : String → String → Option Url

/-- A content length is a finite `Number` of its header.  Nothing stands for
a body that is missing or cannot be read. -/
structure Response where
  status : Nat
  location : Option String
  contentLength : Option ℚ
  body : Option (List Bytes)

inductive DnsType where
  | A
  | AAAA
  deriving DecidableEq

/-- The requests of `fetchJson`.  A fetch is of the URL its text parses
to. -/
inductive FetchRequest where
  | hasResolveDns
  | resolveDns (hostname : String) (type : DnsType)
  | fetch (target : Url)

/-- Nothing stands for a promise that is rejected. -/
@[reducible] def FetchRequest.Answer : FetchRequest → Type
  | hasResolveDns => Bool
  | resolveDns _ _ => Option (List String)
  | fetch _ => Option Response

@[reducible] def fetchHost : Interface :=
  { Request := FetchRequest, Answer := FetchRequest.Answer, Error := Empty }

abbrev FetchTask := Program fetchHost

def FetchRequest.isFetch : FetchRequest → Bool
  | fetch _ => true
  | _ => false

namespace Fetching

def call (request : FetchRequest) : FetchTask request.Answer :=
  Program.asks request Program.returns

@[simp] theorem call_bind {α : Type} (request : FetchRequest)
    (next : request.Answer → FetchTask α) :
    (call request).bind next = Program.asks request next := rfl

/-! ## `uri.ts` -/

def hostnameResolvesToPrivate (hostname : String) : FetchTask Bool := do
  let available ← call .hasResolveDns
  if available then
    let a ← call (.resolveDns hostname .A)
    let aaaa ← call (.resolveDns hostname .AAAA)
    return (a.getD [] ++ aaaa.getD []).any isPrivateOrLoopbackHost
  else return false

/-- The checks of a hop that ask nothing. -/
def passes (target : Url) : Bool :=
  (target.protocol = "http:" || target.protocol = "https:") &&
    !isPrivateOrLoopbackHost target.hostname &&
    !(isDottedQuad target.hostname.toList ||
      target.hostname.toList.head? = some '[')

/-- The checks of a hop. -/
def admitted (target : Url) : FetchTask Bool :=
  if passes target then do
    let resolves ← hostnameResolvesToPrivate target.hostname
    return !resolves
  else return false

/-- The bytes of a body up to a limit. -/
def readBodyWithLimit (response : Response) (maxBytes : Nat) :
    Option (List UInt8) :=
  match response.contentLength with
  | some size => if (maxBytes : ℚ) < size then none else read
  | none => read
where
  read : Option (List UInt8) := do
    let chunks ← response.body
    let bytes := chunks.flatMap fun chunk => chunk.data.toList
    if maxBytes < bytes.length then none else return bytes

section

variable (urls : Urls) (parse : Utf16.Text → Option Json)

def readJson (response : Response) : Option Json := do
  let body ← readBodyWithLimit response MAX_RESPONSE_BYTES
  parse (Utf16.ofString (utf8Decoder ⟨body.toArray⟩))

/-- What is read of an answer that is no redirect. -/
def readAnswer (response : Response) : Option Json :=
  if 200 ≤ response.status ∧ response.status < 300 then
    readJson parse response
  else none

def isRedirect (response : Response) : Bool :=
  300 ≤ response.status && response.status < 400

/-- Where a redirect leads. -/
def redirectUrl (url : String) (response : Response) : Option Url := do
  let location ← response.location
  if location = "" then none else urls.parseAt location url

/-- The second hop. -/
def followRedirect (target : Url) : FetchTask (Option Json) := do
  if ← admitted target then
    let response ← call (.fetch target)
    return response.bind (readAnswer parse)
  else return none

def fetchJson (url : String) : FetchTask (Option Json) :=
  match urls.parse url with
  | none => return none
  | some parsed => do
      if ← admitted parsed then
        match ← call (.fetch parsed) with
        | none => return none
        | some response =>
            if isRedirect response then
              match redirectUrl urls url response with
              | none => return none
              | some target => followRedirect parse target
            else return readAnswer parse response
      else return none

def IPFS_GATEWAYS : List String :=
  ["https://ipfs.io/ipfs/", "https://gateway.pinata.cloud/ipfs/",
    "https://dweb.link/ipfs/"]

def normalizeIpfsPath (uri : String) : Option String :=
  let path := uri.toList.drop 7
  let path := if "ipfs/".toList.isPrefixOf path then path.drop 5 else path
  let rawPath := path.dropWhile (· = '/')
  if rawPath = [] then none else some (String.ofList rawPath)

/-- `data == null`. -/
def isMissing : Option Json → Bool
  | none => true
  | some .null => true
  | _ => false

/-- The loop over the gateways. -/
def tryAll : List String → FetchTask (Option Json)
  | [] => return none
  | url :: rest => do
      let data ← fetchJson urls parse url
      if isMissing data then tryAll rest else return data

/-- The URLs `fetchJson` is called with, one after the other. -/
def entries (uri : String) : List String :=
  if uri = "" ∨ startsWith uri "data:" then []
  else if !startsWith uri "ipfs://" then [uri]
  else
    match normalizeIpfsPath uri with
    | none => []
    | some ipfsPath => IPFS_GATEWAYS.map (· ++ ipfsPath)

def resolveUri (uri : String) : FetchTask (Option Json) :=
  if uri = "" then return none
  else if startsWith uri "data:" then return parseDataUri parse uri
  else if !startsWith uri "ipfs://" then fetchJson urls parse uri
  else
    match normalizeIpfsPath uri with
    | none => return none
    | some ipfsPath =>
        tryAll urls parse (IPFS_GATEWAYS.map (· ++ ipfsPath))

end

end Fetching

end Stellar8004.Indexer
