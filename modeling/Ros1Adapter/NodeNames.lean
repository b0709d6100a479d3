import Mathlib.Data.List.Forall2
import Mathlib.Data.List.Infix

/-!
# Names of ROS nodes

A server and the tools adapter take the identity of their run and the name of
their node from the command line. The name must include the run, and is
registered with the characters of a ROS name. Texts are lists of characters, one
for each byte.
-/

namespace Ros1Adapter.NodeNames

/-- Bytes of a text. -/
abbrev Text := List Char

section Characters

/-- Letters. -/
def isAlpha (c : Char) : Bool := (decide ('a' ≤ c) && decide (c ≤ 'z')) || (decide ('A' ≤ c) && decide (c ≤ 'Z'))

/-- Decimal digits. -/
def isDigit (c : Char) : Bool := decide ('0' ≤ c) && decide (c ≤ '9')

/-- Letters and digits. -/
def isAlnum (c : Char) : Bool := isAlpha c || isDigit c

/-- Characters of an identifier. -/
def identifierCharacter (c : Char) : Bool := isAlnum c || c== '.' || c== '_' || c== ':' || c == '-'

/-- Character of a ROS name: another one becomes an underscore. -/
def rosNameCharacter (c : Char) : Char := if isAlnum c || c== '_' then c else '_'

/-- Characters of a ROS name. -/
def rosNameCharacters (text : Text) : Text := text.map rosNameCharacter

/-- Whether a text is a valid identifier. -/
def validReferenceId (value : Text) : Bool :=
  !value.isEmpty && decide (value.length ≤ 128) && value.all identifierCharacter

/-- Name a server registers. -/
def RosNodeName (nodeName : Text) : Text :=
  let name := rosNameCharacters nodeName
  match name with
  | [] => ['n']
  | c::_ => if isDigit c || c== '_' then 'n'::name else name

/-- Name the tools adapter registers. -/
def rosNodeName (name : Text) : Text :=
  let result := rosNameCharacters name
  match result with
  | [] => ['n']
  | c::_ => if !isAlpha c then 'n'::result else result

end Characters

section ServerOptions

/-- Options of a server. -/
structure ServerOptions where
  /-- Path of the socket. -/
  socketPath : Text := []
  /-- Run. -/
  runId : Text := []
  /-- Name of the node. -/
  nodeName : Text := []
  /-- Provider. -/
  provider : Text := []
  /-- Target. -/
  targetId : Text := []
  /-- Address of the master. -/
  rosMasterUri : Text := []
  /-- Own address. -/
  rosIp : Text := []
  /-- File of the network. -/
  networkBootstrap : Text := []
  deriving DecidableEq

/-- Flags of a server, as a set holds them. -/
def serverFlags : List Text :=
  ["--network-bootstrap".toList,"--node-name".toList,"--provider".toList,"--ros-ip".toList,"--ros-master-uri".toList,
    "--run-id".toList,"--socket-path".toList,"--target-id".toList]

/-- Flags whose value may be missing or empty. -/
def optionalFlag (flag : Text) : Bool := flag=="--ros-ip".toList || flag=="--network-bootstrap".toList

/-- Take the value of a flag. -/
def ServerOptions.take (options : ServerOptions) (flag value : Text) : ServerOptions :=
  if flag="--socket-path".toList then { options with socketPath := value }
  else if flag="--run-id".toList then { options with runId := value }
  else if flag="--node-name".toList then { options with nodeName := value }
  else if flag="--provider".toList then { options with provider := value }
  else if flag="--target-id".toList then { options with targetId := value }
  else if flag="--ros-master-uri".toList then { options with rosMasterUri := value }
  else if flag="--network-bootstrap".toList then { options with networkBootstrap := value }
  else { options with rosIp := value }

/-- Message about a flag. -/
def about (message : String) (flag : Text) : String := message ++ String.ofList flag

/-- Read flags and their values. -/
def readFlags (options : ServerOptions) (seen : List Text) : List Text → Except String (ServerOptions × List Text)
  | [] => .ok (options,seen)
  | flag::rest =>
    if !serverFlags.contains flag then .error (about "unknown argument: " flag)
    else if seen.contains flag then .error (about "argument occurs more than once: " flag)
    else
      match rest with
      | [] => .error (about "missing value for " flag)
      | value::rest =>
        if "--".toList.isPrefixOf value then .error (about "missing value for " flag)
        else if value.contains '\x00' || (value.isEmpty && !optionalFlag flag) then
          .error (about "empty value for " flag)
        else readFlags (options.take flag value) (flag::seen) rest

/-- Require a flag, unless its value may be missing. -/
def requireSeen (seen : List Text) : Except String Unit :=
  match serverFlags.find? (fun flag => !optionalFlag flag && !seen.contains flag) with
  | some flag => .error (about "missing required argument: " flag)
  | none => .ok ()

/-- Require a condition. -/
def require (condition : Prop) [Decidable condition] (message : String) : Except String Unit :=
  if condition then .ok () else .error message

/-- Require an identifier. -/
def requireIdentifier (flag : String) (value : Text) : Except String Unit :=
  require (validReferenceId value) (flag ++ " must be 1-128 characters of [A-Za-z0-9._:-]")

/-- Require an absolute path that fits a socket address. -/
def requireSocketPath (path : Text) : Except String Unit :=
  match path with
  | '/'::rest =>
    if path.contains '\x00' || decide (108 ≤ path.length) then .error "--socket-path must be a bounded absolute Unix path"
    else if (rest.splitOn '/').any (fun component => component==[] || component==['.'] || component==['.','.']) then
      .error "--socket-path contains an invalid component"
    else .ok ()
  | _ => .error "--socket-path must be a bounded absolute Unix path"

/-- Number of decimal digits. -/
def decimal (digits : Text) : ℕ := digits.foldl (fun n c => 10*n+(c.toNat-48)) 0

/-- Require the address of a master. -/
def requireMasterUri (uri : Text) : Except String Unit :=
  if decide (2048<uri.length) || !"http://".toList.isPrefixOf uri then .error "--ros-master-uri must be an http:// URI"
  else
    let authority := (uri.drop 7).takeWhile (· ≠ '/')
    let tail := (uri.drop 7).dropWhile (· ≠ '/')
    let port := (authority.reverse.takeWhile (· ≠ ':')).reverse
    let colon := authority.length-port.length-1
    if !authority.contains ':' || colon==0 || port.isEmpty || decide (5<port.length) || !port.all isDigit ||
        decimal port==0 || decide (65535<decimal port) || tail.any (· ≠ '/') then
      .error "--ros-master-uri must name host and port, e.g. http://127.0.0.1:11311"
    else .ok ()

/-- Require what the options promise. -/
def requireOptions (options : ServerOptions) (providers : List Text) : Except String Unit := do
  requireSocketPath options.socketPath
  requireIdentifier "--run-id" options.runId
  requireIdentifier "--target-id" options.targetId
  require (options.nodeName.length ≤ 128) "--node-name must have at most 128 characters"
  require (rosNameCharacters options.runId <:+: rosNameCharacters options.nodeName) "--node-name must include the --run-id"
  require (options.provider∈providers) (about "--provider is not served by this executable: " options.provider)
  requireMasterUri options.rosMasterUri
  require (options.rosIp.length ≤ 253) "--ros-ip is too long"
  require (options.networkBootstrap=[] ∨ (options.networkBootstrap.head?=some '/' ∧ options.networkBootstrap.length ≤ 4096))
    "--network-bootstrap must be an absolute file path"

/-- Options of a command line behind the name of the program. -/
def ParseServerOptions (arguments : List Text) (providers : List Text) : Except String ServerOptions := do
  let (options,seen) ← readFlags {} [] arguments
  requireSeen seen
  requireOptions options providers
  return options

end ServerOptions

section ToolsOptions

/-- Flags of the tools adapter, as a set holds them. -/
def toolsFlags : List Text :=
  ["--node-name".toList,"--publishers".toList,"--ros-hostname".toList,"--ros-ip".toList,"--ros-master-uri".toList,
    "--run-id".toList,"--socket-path".toList,"--target-id".toList]

/-- Whether a text is a valid identifier. -/
def validIdentifier (value : Text) : Bool :=
  if value.isEmpty || decide (128<value.length) then false
  else value.all (fun c => isAlnum c || c== '.' || c== '_' || c== ':' || c == '-')

/-- Add a value under a key that is new, keys in order. -/
def emplace (key value : Text) : List (Text × Text) → Option (List (Text × Text))
  | [] => some [(key,value)]
  | entry::rest =>
    if key=entry.1 then none
    else if key<entry.1 then some ((key,value)::entry::rest)
    else (emplace key value rest).map (entry::·)

/-- Read flags and their values. -/
def readPairs (args : List (Text × Text)) : List Text → Except String (List (Text × Text))
  | [] => .ok args
  | [_] => .error "invalid or duplicate argument"
  | flag::value::rest =>
    match emplace flag value args with
    | none => .error "invalid or duplicate argument"
    | some args => readPairs args rest

/-- Value of a flag. -/
def valueAt (args : List (Text × Text)) (flag : String) : Text := (args.lookup flag.toList).getD []

/-- Require known flags. -/
def requireKnown (args : List (Text × Text)) : Except String Unit :=
  match args.find? (fun entry => !toolsFlags.contains entry.1) with
  | some entry => .error (about "unknown argument " entry.1)
  | none => .ok ()

/-- Arguments of a command line of the tools adapter behind the name of the program. -/
def parseToolsArguments (arguments : List Text) : Except String (List (Text × Text)) := do
  let args ← readPairs [] arguments
  requireKnown args
  require (args.length=toolsFlags.length) "every argument is required"
  require (validIdentifier (valueAt args "--target-id") ∧ validIdentifier (valueAt args "--run-id") ∧
    valueAt args "--node-name"≠[] ∧ (valueAt args "--node-name").length ≤ 128) "invalid target, run or node identity"
  require (rosNameCharacters (valueAt args "--run-id") <:+: rosNameCharacters (valueAt args "--node-name"))
    "--node-name must include the --run-id"
  return args

end ToolsOptions

section Collisions

/-- Characters that look the same in a ROS name. -/
def Alike (c d : Char) : Prop := c=d ∨ (isAlnum c=false ∧ isAlnum d=false)

end Collisions

section Runs

/-- An executable. -/
inductive Executable where
  | server (providers : List Text)
  | tools

/-- Run and node of a command line. -/
structure Identity where
  /-- Run. -/
  runId : Text
  /-- Name of the node. -/
  nodeName : Text
  deriving DecidableEq

/-- Run and node of a command line that is accepted. -/
def Executable.accept : Executable → List Text → Except String Identity
  | .server providers,arguments => do
    let options ← ParseServerOptions arguments providers
    return ⟨options.runId,options.nodeName⟩
  | .tools,arguments => do
    let args ← parseToolsArguments arguments
    return ⟨valueAt args "--run-id",valueAt args "--node-name"⟩

/-- Name of a node at the master. -/
def Executable.register : Executable → Text → Text
  | .server _ => RosNodeName
  | .tools => rosNodeName

/-- What is required holds. -/
theorem require_ok {condition : Prop} [Decidable condition] {message : String} {u : Unit}
    (h : require condition message=.ok u) : condition := by
  unfold require at h
  split at h
  · assumption
  · cases h

end Runs

end Ros1Adapter.NodeNames
