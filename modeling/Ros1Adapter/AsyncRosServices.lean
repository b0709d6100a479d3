import Mathlib.Data.List.Basic
import Ros1Adapter.ActionRules
import Ros1Adapter.LittleEndian

/-!
# Asynchronous ROS services

Every call looks its service up at the ROS master, connects, exchanges TCPROS
headers, writes one request frame and reads one response frame, over sockets
that accept and deliver any number of bytes at a time. One event loop starts
and cancels calls and pumps them. What the kernel, the resolver, the clock and
the completions do is an input. The trace records what a call wrote, what it
received and when it ended.
-/

namespace Ros1Adapter.AsyncRosServices

open LittleEndian ActionRules

section Bytes

/-- Largest frame of a peer. -/
def maximumFrame : ℕ := 1024*1024

/-- Bytes of a text. -/
def ofText (value : String) : Bytes := value.toUTF8.data.toList

/-- Four bytes of a length. -/
def u32 (value : ℕ) : Bytes := wordBytes 4 value

/-- Length in the first four bytes. -/
def read32 (bytes : Bytes) : ℕ := wordValue 4 bytes

/-- Bytes behind their length. -/
def framed (bytes : Bytes) : Bytes := u32 bytes.length ++ bytes

/-- First position of some bytes. -/
def find (needle : Bytes) : Bytes → Option ℕ
  | [] => if needle=[] then some 0 else none
  | b::rest => if needle.isPrefixOf (b::rest) then some 0 else (find needle rest).map (·+1)

/-- Last position of a byte. -/
def findLast (needle : UInt8) : Bytes → Option ℕ
  | [] => none
  | b::rest =>
    match findLast needle rest with
    | some position => some (position+1)
    | none => if b=needle then some 0 else none

/-- Decimal digits. -/
def isDigit (b : UInt8) : Bool := decide (0x30 ≤ b) && decide (b ≤ 0x39)

/-- Number of some decimal digits. -/
def decimal (digits : Bytes) : ℕ := digits.foldl (fun n b => 10*n+(b.toNat-0x30)) 0

/-- Lower case of an ASCII letter. -/
def lower (b : UInt8) : UInt8 := if decide (0x41 ≤ b) && decide (b ≤ 0x5a) then b+0x20 else b

/-- Text of an XML element. -/
def xmlEscape (value : Bytes) : Bytes :=
  value.flatMap (fun c =>
    if c=0x26 then ofText "&amp;" else if c=0x3c then ofText "&lt;" else if c=0x3e then ofText "&gt;" else [c])

/-- Host, port and path of a peer. -/
structure Address where
  /-- Host name or number. -/
  host : Bytes := []
  /-- Path, at least a slash. -/
  path : Bytes := []
  /-- Port. -/
  port : ℕ := 0

/-- Host without the brackets of an IPv6 number. -/
def bareHost (host : Bytes) : Bytes :=
  if host.head?=some 0x5b ∧ host.getLast?=some 0x5d then host.tail.dropLast else host

/-- Address of a URI under its scheme. -/
def parseAddress (uri scheme : Bytes) : Option Address :=
  let lead := scheme ++ ofText "://"
  if uri.take lead.length≠lead then none
  else
    let rest := uri.drop lead.length
    let slash := find [0x2f] rest
    let authority := match slash with | some position => rest.take position | none => rest
    let path := match slash with | some position => rest.drop position | none => ofText "/"
    match findLast 0x3a authority with
    | none => none
    | some 0 => none
    | some colon =>
      let host := bareHost (authority.take colon)
      let port := authority.drop (colon+1)
      if port=[] ∨ 5<port.length ∨ port.all isDigit=false then none
      else if decimal port=0 ∨ 65535<decimal port then none
      else if host=[] ∨ 253<host.length then none
      else some ⟨host,path,decimal port⟩

end Bytes

section Calls

/-- Where a call stands. -/
inductive Stage where
  | resolveMaster
  | connectMaster
  | writeMaster
  | readMaster
  | resolveService
  | connectService
  | writeHeader
  | readHeader
  | writeRequest
  | readResponse
  deriving DecidableEq

/-- How a call ended. -/
inductive Outcome where
  | response
  | notSent
  | deadline
  | cancelled
  | unknown
  deriving DecidableEq

/-- Result of a call. -/
structure Result where
  /-- How it ended. -/
  outcome : Outcome := .notSent
  /-- Response bytes. -/
  response : Bytes := []
  /-- Explanation. -/
  detail : String := ""
  deriving DecidableEq

/-- Request of a call. -/
structure Request where
  /-- Address of the ROS master. -/
  masterUri : Bytes
  /-- Name of the caller. -/
  callerId : Bytes
  /-- Name of the service. -/
  service : Bytes
  /-- Type of the service. -/
  type : Bytes
  /-- Checksum of the type. -/
  md5 : Bytes
  /-- Request bytes. -/
  bytes : Bytes
  /-- Request of the master itself; empty for a service. -/
  masterXml : Bytes
  /-- Absolute deadline. -/
  deadline : ℕ
  deriving DecidableEq

/-- Family of a resolved address. -/
inductive Family where
  | inet
  | inet6
  | other
  deriving DecidableEq

/-- A socket address. -/
structure Sockaddr where
  /-- Family. -/
  family : Family
  /-- Number of the host. -/
  number : Bytes
  /-- Port. -/
  port : ℕ

/-- Member variables of a call. -/
structure Call where
  /-- Request. -/
  request : Request
  /-- Where the call stands. -/
  stage : Stage := .resolveMaster
  /-- Peer to reach next. -/
  address : Address := {}
  /-- A resolver channel exists. -/
  resolver : Bool := false
  /-- Open socket. -/
  fd : Option ℕ := none
  /-- Addresses of the peer. -/
  addresses : List Sockaddr := []
  /-- Addresses tried so far. -/
  nextAddress : ℕ := 0
  /-- Bytes to write. -/
  send : Bytes := []
  /-- Bytes received in this stage. -/
  received : Bytes := []
  /-- Bytes written of those to write. -/
  sent : ℕ := 0
  /-- The resolver answered. -/
  resolveDone : Bool := false
  /-- A byte of the request frame was written. -/
  requestSent : Bool := false
  /-- The call is finished. -/
  done : Bool := false
  /-- The resolver was asked for IPv6. -/
  ipv6Query : Bool := false
  /-- The master keeps its connection. -/
  masterKeepalive : Bool := false
  /-- Result. -/
  result : Result := {}

/-- What a write belongs to. -/
inductive Message where
  | lookup
  | header
  | request
  deriving DecidableEq

/-- What happened to a call. -/
inductive Event where
  /-- It was started. -/
  | started (id : ℕ) (request : Request)
  /-- A socket accepted bytes. -/
  | wrote (id : ℕ) (message : Message) (bytes : Bytes)
  /-- A socket delivered bytes. -/
  | received (id : ℕ) (bytes : Bytes)
  /-- It is finished. -/
  | finished (id : ℕ)
  /-- Its completion was invoked. -/
  | completed (id : ℕ) (result : Result)
  deriving DecidableEq

/-- A call with the connection to the master that calls share, and the trace. -/
structure Running where
  /-- Identity. -/
  id : ℕ
  /-- Call. -/
  call : Call
  /-- Kept connection to a master, with its URI. -/
  master : Option (ℕ × Bytes)
  /-- Events, newest first. -/
  trace : List Event

/-- Answer of a send; bytes are accepted one at least and those offered at most. -/
inductive Sent where
  | accepted (count : ℕ)
  | interrupted
  | failed

/-- Answer of a receive; bytes are delivered one at least. -/
inductive Received where
  | bytes (first : UInt8) (rest : Bytes)
  | interrupted
  | closed

/-- Outcome of one attempt to connect. -/
inductive Attempt where
  | noSocket
  | refused
  | started (fd : ℕ)

/-- What a resolver does when it is asked. -/
structure Resolution where
  /-- The channel can be made. -/
  channel : Bool := true
  /-- The servers are accepted. -/
  servers : Bool := true
  /-- Addresses, if it answers at once. -/
  answer : Option (List (Family × Bytes)) := none

/-- A value of the XML-RPC library. -/
inductive XmlRpcValue where
  | int (value : ℤ)
  | string (value : Bytes)
  | array (items : List XmlRpcValue)
  | other

/-- Outcome of reading an XML-RPC value. -/
inductive XmlRead where
  | value (value : XmlRpcValue)
  | failed
  | threw

/-- Functions of the system libraries. -/
structure Libraries where
  /-- Number of a numeric host. -/
  numeric : Bytes → Option (Family × Bytes)
  /-- Value at an offset of an XML text. -/
  fromXml : Bytes → ℕ → XmlRead
  /-- Resolver servers to set. -/
  resolverServers : Bool

/-- Finish a call; after a byte of the request was written only a response is certain. -/
def finish (outcome : Outcome) (detail : String) (response : Bytes) (x : Running) : Running :=
  if x.call.done then x
  else
    let given := if x.call.requestSent ∧ outcome≠.response then .unknown else outcome
    let keeps := x.call.fd.isSome ∧ outcome=.response ∧ x.call.masterKeepalive ∧ x.call.request.masterXml≠[] ∧ x.master=none
    {x with
      call := {x.call with done := true, result := ⟨given,response,detail⟩, fd := none, resolver := false},
      master := if keeps then x.call.fd.map (fun fd => (fd,x.call.request.masterUri)) else x.master,
      trace := .finished x.id::x.trace}

/-- The answer of the resolver. -/
def resolved (answer : List (Family × Bytes)) (x : Running) : Running :=
  if x.call.done then x
  else
    let found := (answer.filter (fun a => a.1≠.other)).map (fun a => (⟨a.1,a.2,x.call.address.port⟩ : Sockaddr))
    {x with call := {x.call with addresses := x.call.addresses ++ found, resolveDone := true}}

/-- Whatever the resolver answers. -/
def answered (answer : Option (List (Family × Bytes))) (x : Running) : Running :=
  match answer with
  | some found => resolved found x
  | none => x

variable (L : Libraries)

/-- Resolve the host of the next peer. -/
def resolve (master : Bool) (resolution : Resolution) (x : Running) : Running :=
  let c := {x.call with
    stage := if master then .resolveMaster else .resolveService,
    addresses := [], nextAddress := 0, resolveDone := false, ipv6Query := false}
  match L.numeric c.address.host with
  | some number =>
    {x with call := {c with addresses := [⟨number.1,number.2,c.address.port⟩], resolveDone := true}}
  | none =>
    if !resolution.channel then finish .notSent "DNS channel initialization failed" [] {x with call := c}
    else
      let opened := {x with call := {c with resolver := true}}
      if L.resolverServers && !resolution.servers then finish .notSent "invalid resolver server" [] opened
      else answered resolution.answer opened

/-- Try addresses in order until a connection starts. -/
def tryAddresses (attempts : ℕ → Attempt) (tried : ℕ) : List Sockaddr → ℕ × Option ℕ
  | [] => (tried,none)
  | _::rest =>
    match attempts tried with
    | .started fd => (tried+1,some fd)
    | _ => tryAddresses attempts (tried+1) rest

/-- Connect to the next address that allows it. -/
def connectNext (master : Bool) (attempts : ℕ → Attempt) (x : Running) : Running :=
  let found := tryAddresses attempts x.call.nextAddress (x.call.addresses.drop x.call.nextAddress)
  let c := {x.call with nextAddress := found.1, fd := found.2}
  match found.2 with
  | some _ => {x with call := {c with stage := if master then .connectMaster else .connectService}}
  | none => finish .notSent "connection failed" [] {x with call := c}

/-- Prepare bytes to write. -/
def prepareSend (bytes : Bytes) (next : Stage) (c : Call) : Call :=
  {c with send := bytes, sent := 0, received := [], stage := next}

/-- Body of a request to the master. -/
def masterBody (request : Request) : Bytes :=
  if request.masterXml≠[] then request.masterXml
  else ofText "<?xml version=\"1.0\"?><methodCall><methodName>lookupService</methodName><params>" ++
    ofText "<param><value><string>" ++ xmlEscape request.callerId ++ ofText "</string></value></param>" ++
    ofText "<param><value><string>" ++ xmlEscape request.service ++ ofText "</string></value></param>" ++
    ofText "</params></methodCall>"

/-- HTTP request to the master. -/
def masterPost (c : Call) : Bytes :=
  ofText "POST " ++ c.address.path ++ ofText " HTTP/1.1\r\nHost: " ++ c.address.host ++
    ofText "\r\nContent-Type: text/xml\r\nConnection: " ++
    ofText (if c.request.masterXml=[] then "close" else "keep-alive") ++ ofText "\r\nContent-Length: " ++
    ofText (toString (masterBody c.request).length) ++ ofText "\r\n\r\n" ++ masterBody c.request

/-- TCPROS header of a request. -/
def requestHeader (request : Request) : Bytes :=
  framed (framed (ofText "callerid=" ++ request.callerId) ++ framed (ofText "service=" ++ request.service) ++
    framed (ofText "md5sum=" ++ request.md5) ++ framed (ofText "type=" ++ request.type) ++ framed (ofText "persistent=0"))

/-- A socket became writable while it connected. -/
def connected (healthy : Bool) (attempts : ℕ → Attempt) (x : Running) : Running :=
  if !healthy then connectNext (decide (x.call.stage=.connectMaster)) attempts x
  else if x.call.stage=.connectMaster then {x with call := prepareSend (masterPost x.call) .writeMaster x.call}
  else {x with call := prepareSend (requestHeader x.call.request) .writeHeader x.call}

/-- Message of a writing stage. -/
def messageOf : Stage → Message
  | .writeMaster => .lookup
  | .writeHeader => .header
  | _ => .request

/-- Stage after everything was written. -/
def readStage : Stage → Stage
  | .writeMaster => .readMaster
  | .writeHeader => .readHeader
  | _ => .readResponse

/-- Everything was written. -/
def written (x : Running) : Running :=
  {x with call := {x.call with stage := readStage x.call.stage, send := [], received := []}}

/-- A socket accepted some bytes. -/
def accept (count : ℕ) (x : Running) : Running :=
  let offered := x.call.send.drop x.call.sent
  let bytes := offered.take (max 1 count)
  {x with
    call := {x.call with
      requestSent := x.call.requestSent || decide (x.call.stage=.writeRequest), sent := x.call.sent+bytes.length},
    trace := .wrote x.id (messageOf x.call.stage) bytes::x.trace}

/-- Write until everything is written, the socket blocks or it fails. -/
def write : List Sent → Running → Running
  | answers,x =>
    if x.call.send.length ≤ x.call.sent then written x
    else
      match answers with
      | [] => x
      | .accepted count::rest => write rest (accept count x)
      | .interrupted::rest => write rest x
      | .failed::_ => finish .notSent "socket write failed" [] x

/-- Length that the headers of a master response give. -/
def contentLength (headers : Bytes) : Option Bytes :=
  match find (ofText "\r\ncontent-length:") headers with
  | none => none
  | some position =>
    let value := (headers.drop (position+17)).dropWhile (fun b => b==0x20)
    match find (ofText "\r\n") value with
    | some stop => some (value.take stop)
    | none => some value

/-- Address that a lookup returned. -/
def lookedUp : XmlRpcValue → Option Address
  | .array [.int 1,_,.string uri] => parseAddress uri (ofText "rosrpc")
  | _ => none

/-- Body of a master response. -/
def masterReply (resolution : Resolution) (xml : Bytes) (x : Running) : Running :=
  if x.call.request.masterXml≠[] then finish .response "ROS master response" xml x
  else
    match find (ofText "<value>") xml with
    | none => finish .notSent "invalid XMLRPC response" [] x
    | some position =>
      match L.fromXml xml position with
      | .threw => finish .notSent "malformed XMLRPC response" [] x
      | .failed => finish .notSent "ROS service lookup failed" [] x
      | .value value =>
        match lookedUp value with
        | none => finish .notSent "ROS service lookup failed" [] x
        | some address =>
          resolve L false resolution {x with call := {x.call with address := address, fd := none, received := []}}

/-- Read a master response as far as it is there. -/
def parseMaster (resolution : Resolution) (x : Running) : Running :=
  match find (ofText "\r\n\r\n") x.call.received with
  | none => x
  | some stop =>
    if x.call.received.take 12≠ofText "HTTP/1.1 200" ∧ x.call.received.take 12≠ofText "HTTP/1.0 200" then
      finish .notSent "ROS master HTTP error" [] x
    else
      let headers := (x.call.received.take stop).map lower
      let keeps := decide (x.call.received.take 8=ofText "HTTP/1.1") && (find (ofText "connection: close") headers).isNone
      let x := {x with call := {x.call with masterKeepalive := keeps}}
      match contentLength headers with
      | none => finish .notSent "master response lacks length" [] x
      | some value =>
        if value=[] ∨ 7<value.length ∨ value.all isDigit=false then
          finish .notSent "invalid master response length" [] x
        else if maximumFrame<decimal value then finish .notSent "master response too large" [] x
        else if x.call.received.length<stop+4+decimal value then x
        else masterReply L resolution ((x.call.received.drop (stop+4)).take (decimal value)) x

/-- Outcome of reading the fields of a TCPROS header. -/
inductive HeaderRead where
  | truncated
  | badLength
  | badField
  | fields (fields : List (Bytes × Bytes))

/-- Read fields one after another; every field takes four bytes at least. -/
def headerFields : ℕ → Bytes → List (Bytes × Bytes) → HeaderRead
  | 0,_,fields => .fields fields
  | fuel+1,bytes,fields =>
    if bytes=[] then .fields fields
    else if bytes.length<4 then .truncated
    else
      let count := read32 bytes
      let rest := bytes.drop 4
      if rest.length<count then .badLength
      else
        let field := rest.take count
        match find [0x3d] field with
        | none => .badField
        | some position =>
          if (fields.lookup (field.take position)).isSome then .badField
          else headerFields fuel (rest.drop count) ((field.take position,field.drop (position+1))::fields)

/-- The header allows the request. -/
def headerAccepts (request : Request) (fields : List (Bytes × Bytes)) : Bool :=
  (fields.lookup (ofText "error")).isNone && decide ((fields.lookup (ofText "md5sum")).getD []=request.md5) &&
    decide ((fields.lookup (ofText "type")).getD []=request.type)

/-- Read the header of the service as far as it is there. -/
def parseHeader (x : Running) : Running :=
  if x.call.received.length<4 then x
  else
    let length := read32 x.call.received
    if maximumFrame<length then finish .notSent "TCPROS header too large" [] x
    else if x.call.received.length<length+4 then x
    else
      match headerFields (length+1) ((x.call.received.drop 4).take length) [] with
      | .truncated => finish .notSent "truncated TCPROS field" [] x
      | .badLength => finish .notSent "invalid TCPROS field length" [] x
      | .badField => finish .notSent "invalid TCPROS header field" [] x
      | .fields fields =>
        if headerAccepts x.call.request fields=false then finish .notSent "TCPROS service type/MD5 mismatch" [] x
        else {x with call := prepareSend (framed x.call.request.bytes) .writeRequest x.call}

/-- Read the response of the service as far as it is there. -/
def parseResponse (x : Running) : Running :=
  if x.call.received.length<5 then x
  else
    let length := read32 (x.call.received.drop 1)
    if maximumFrame<length then finish .unknown "TCPROS response too large" [] x
    else if x.call.received.length<length+5 then x
    else if x.call.received.head?≠some 1 then finish .unknown "native service reported an error" [] x
    else finish .response "native response" ((x.call.received.drop 5).take length) x

/-- Read what a stage expects. -/
def parse (resolution : Resolution) (x : Running) : Running :=
  if x.call.stage=.readMaster then parseMaster L resolution x
  else if x.call.stage=.readHeader then parseHeader x
  else parseResponse x

/-- A socket delivered bytes. -/
def deliver (bytes : Bytes) (x : Running) : Running :=
  {x with trace := .received x.id bytes::x.trace}

/-- Read until the stage ends, the socket blocks or it closes. -/
def read (resolution : Resolution) : List Received → Running → Running
  | [],x => x
  | .interrupted::rest,x => read resolution rest x
  | .closed::_,x => finish .notSent "socket closed before complete response" [] x
  | .bytes first more::rest,x =>
    let bytes := first::more
    let y := deliver bytes x
    if maximumFrame+16384<x.call.received.length+bytes.length then
      finish .notSent "response exceeds frame limit" [] y
    else
      let z := parse L resolution {y with call := {y.call with received := y.call.received ++ bytes}}
      if z.call.done=true ∨ z.call.stage≠x.call.stage then z else read resolution rest z

end Calls

end Ros1Adapter.AsyncRosServices
