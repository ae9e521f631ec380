import Northstar.Network.Addresses

/-! The enforcing proxy of the loopback debug mode and its policy (loopback-debug-policy.ts,
loopback-proxy.ts). A handler is a program of lookups and connections; what it relays is its
result. The platform's URL parser and its Number are parameters. -/
namespace Northstar.Browser
open Network

structure LoopbackDebugPolicy where
  navigationUrl : JsString
  origin : JsString
  hostname : JsString
  protocol : JsString
  port : Nat
  deriving DecidableEq

def loopbackHosts : List JsString := [js "localhost",js "127.0.0.1",js "::1",js "[::1]"]

def isLoopbackHostname (hostname : JsString) : Bool :=
  let h := toLowerCase hostname
  loopbackHosts.contains h || match h.splitOn 46 with
    | [a,b,c,d] => a = js "127" && [b,c,d].all fun part => 1 ≤ part.length && part.length ≤ 3 && part.all digit
    | _ => false

def privatePrefixes : List JsString :=
  js "10." :: js "192.168." :: js "169.254." :: (List.range' 16 16).map fun n => js s!"172.{n}."

def isBlockedHostname (hostname : JsString) : Bool :=
  let h := toLowerCase hostname
  h = js "0.0.0.0" || h = js "::" || h = js "host.docker.internal" || privatePrefixes.any (·.isPrefixOf h)

def standardPort (protocol : JsString) : Nat := if protocol = https then 443 else 80

section
variable (parse : UrlParser)

def parseLoopbackDebugTarget (raw : JsString) : Option LoopbackDebugPolicy := do
  let url ← parse (trim raw) none
  if url.protocol ≠ http ∧ url.protocol ≠ https then none
  else if url.username ≠ [] ∨ url.password ≠ [] then none
  else
    let hostname := toLowerCase url.hostname
    if !isLoopbackHostname hostname || isBlockedHostname hostname then none
    else
      let port := url.portNumber (standardPort url.protocol)
      some ⟨url.origin ++ url.pathname ++ url.search,url.origin,hostname,url.protocol,port⟩

def ws : JsString := js "ws:"
def wss : JsString := js "wss:"

/- The scheme an origin is compared under. -/
def effectiveProtocol (url : Url) : Option JsString :=
  if url.protocol = ws then some http
  else if url.protocol = wss then some https
  else if url.protocol = http ∨ url.protocol = https then some url.protocol
  else none

def isAllowedLoopbackRequest (policy : LoopbackDebugPolicy) (rawUrl : JsString) : Bool :=
  match parse rawUrl none with
  | none => false
  | some url => (effectiveProtocol url).any fun protocol => protocol ++ (js "//" ++ url.host) = policy.origin

end

def isLoopbackAddress (address : JsString) : Bool :=
  address = js "::1" || ((ipv4 address).isSome && (js "127.").isPrefixOf address)

def stripBrackets (hostname : JsString) : JsString :=
  if hostname.head? = some 91 && hostname.getLast? = some 93 then hostname.tail.dropLast else hostname

/- The addresses that start pins; it fails where there are none. -/
def pinAddresses (answer : List JsString) : Option (List JsString) :=
  let pinned := answer.filter isLoopbackAddress
  if pinned = [] then none else some pinned

structure Upstream where
  ip : JsString
  port : Nat
  tls : Bool
  servername : Option JsString
  deriving DecidableEq

inductive ProxyOp where
  | lookup (hostname : JsString)
  | connect (upstream : Upstream)

/- A lookup that rejects has no answer; a connection comes about or fails. -/
abbrev ProxyReply : ProxyOp → Type
  | .lookup _ => Option (List JsString)
  | .connect _ => Bool

abbrev Proxying := Program ProxyOp ProxyReply

inductive HeaderValue where
  | one (value : JsString)
  | many (values : List JsString)
  deriving DecidableEq

abbrev IncomingHeaders := List (JsString × HeaderValue)

inductive Relayed where
  | denied (status : Nat) (message : String)
  | destroyed
  | blocked (line : String)
  | forwarded (hostname : JsString) (port : Nat) (path : JsString) (headers : IncomingHeaders)
  | upgraded (request : JsString)
  | tunnelled
  deriving DecidableEq

/- A number that is not whole is printed as its text; it is valid when it is in the range of
ports. -/
inductive ScriptNumber where
  | whole (value : Int)
  | fraction (text : JsString) (valid : Bool)
  | notFinite
  deriving DecidableEq

def ScriptNumber.isPort : ScriptNumber → Bool
  | .whole value => 1 ≤ value && value ≤ 65535
  | .fraction _ valid => valid
  | .notFinite => false

def ScriptNumber.print : ScriptNumber → JsString
  | .whole value => js (toString value)
  | .fraction text _ => text
  | .notFinite => js "NaN"

inductive ProxiedRequest where
  | http (target : JsString) (headers : IncomingHeaders)
  | upgrade (target : JsString) (headers : IncomingHeaders)
  | connect (target : JsString)
  deriving DecidableEq

def hopByHop : List JsString :=
  [js "proxy-authorization",js "proxy-connection",js "keep-alive",js "transfer-encoding",js "te",js "trailer",
   js "upgrade",js "connection",js "host"]

def stripProxyHeaders (headers : IncomingHeaders) : IncomingHeaders :=
  headers.filter fun header => !hopByHop.contains (toLowerCase header.1)

def HeaderValue.text : HeaderValue → JsString
  | .one value => value
  | .many values => (js ", ").intercalate values

/- The upgrade request as it goes upstream. -/
def upgradeText (url : Url) (port : Nat) (headers : IncomingHeaders) : JsString :=
  let host := js "Host: " ++ url.hostname ++ js s!":{port}"
  let given := headers.map fun header =>
    if header.1 = js "host" then host else header.1 ++ js ": " ++ header.2.text
  let lines := (js "GET " ++ url.pathname ++ url.search ++ js " HTTP/1.1") :: given
  let all := if lines.any (js "Host:").isPrefixOf then lines else lines ++ [host]
  (js "\r\n").intercalate all ++ js "\r\n\r\n"

/- The host and the port of a CONNECT target. -/
def connectTarget (number : JsString → ScriptNumber) (target : JsString) : Option (JsString × ScriptNumber) :=
  if target.head? = some 91 then
    if !target.contains 93 then none
    else
      let rest := (target.dropWhile (· ≠ 93)).tail
      let port := if rest.head? = some 58 then number rest.tail else .whole 443
      some ((target.takeWhile (· ≠ 93)).tail,port)
  else if target.contains 58 then
    let last := target.reverse.takeWhile (· ≠ 58)
    some ((target.reverse.drop (last.length + 1)).reverse,number last.reverse)
  else some (target,.whole 443)

def probeUrl (host : JsString) (port : ScriptNumber) : JsString :=
  let urlHost := if host.contains 58 then [91] ++ host ++ [93] else host
  js "https://" ++ urlHost ++ js ":" ++ port.print ++ js "/"

section
variable (parse : UrlParser) (number : JsString → ScriptNumber) (policy : LoopbackDebugPolicy)
  (pinned : List JsString)

def lookup (hostname : JsString) : Proxying (Option (List JsString)) :=
  Program.request (ProxyOp.lookup hostname)

def verifyAgainstPin (hostname : JsString) : Proxying (Option (List JsString)) := do
  let answer ← lookup (stripBrackets hostname)
  pure (answer.filter fun addresses => addresses ≠ [] && addresses.all pinned.contains)

/- The first of the addresses that lets itself be connected to. -/
def connectUpstream (port : Nat) (tls : Bool) (servername : Option JsString) : List JsString → Proxying Bool
  | [] => pure false
  | ip :: rest => .call (.connect ⟨ip,port,tls,servername⟩) fun connected =>
      if connected then pure true else connectUpstream port tls servername rest

/- Requests and upgrades, up to the scheme that stands for TLS and what is answered. -/
def relay (secure : JsString) (blocked invalid unpinned failed : Relayed) (relayed : Url → Nat → Relayed)
    (target : JsString) : Proxying Relayed :=
  if target = [] || !isAllowedLoopbackRequest parse policy target then pure blocked
  else match parse target none with
    | none => pure invalid
    | some url => do
        match ← verifyAgainstPin pinned url.hostname with
        | none => pure unpinned
        | some ips =>
            let tls := decide (url.protocol = secure)
            let port := url.portNumber (if tls then 443 else 80)
            let servername := if tls then some (stripBrackets url.hostname) else none
            if ← connectUpstream port tls servername ips then pure (relayed url port) else pure failed

def handleHttpRequest (target : JsString) (headers : IncomingHeaders) : Proxying Relayed :=
  relay parse policy pinned https (.denied 403 "Blocked by loopback debug policy") (.denied 400 "Invalid target URL")
    (.denied 403 "Target does not resolve to allowed origin") (.denied 502 "Upstream connection failed")
    (fun url port => .forwarded url.hostname port (url.pathname ++ url.search)
      (stripProxyHeaders headers ++ [(js "host",.one url.hostname)]))
    target

def handleUpgrade (target : JsString) (headers : IncomingHeaders) : Proxying Relayed :=
  relay parse policy pinned wss .destroyed .destroyed .destroyed .destroyed
    (fun url port => .upgraded (upgradeText url port headers)) target

/- A connection to a port that is not whole is refused by the platform. -/
def handleConnect (target : JsString) : Proxying Relayed := match connectTarget number target with
  | none => pure .destroyed
  | some (host,port) =>
      if host = [] || !port.isPort then pure .destroyed
      else if !isAllowedLoopbackRequest parse policy (probeUrl host port) then
        pure (.blocked "HTTP/1.1 403 Blocked\r\n\r\n")
      else do
        match ← verifyAgainstPin pinned host with
        | none => pure (.blocked "HTTP/1.1 403 Blocked\r\n\r\n")
        | some ips => match port with
            | .whole port =>
                if ← connectUpstream port.toNat false none ips then pure .tunnelled
                else pure (.blocked "HTTP/1.1 502 Bad Gateway\r\n\r\n")
            | _ => pure .destroyed

def serve : ProxiedRequest → Proxying Relayed
  | .http target headers => handleHttpRequest parse policy pinned target headers
  | .upgrade target headers => handleUpgrade parse policy pinned target headers
  | .connect target => handleConnect parse number policy pinned target

end
end Northstar.Browser
