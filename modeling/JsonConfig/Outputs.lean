import JsonConfig.Xml
import JsonConfig.Version
import JsonConfig.Scanf

/-!
# The outputs and the parsers of `<print>`, `<server>`, `<send>` and `<file>`

The configuration of each kind of output (`cfg_print` ... `cfg_syslog`), the collection
`outputs` they are appended to, the format flags, and the small checks of `Config.cpp`
(`check_ip`, `check_or`, `is_syslog_ascii`). Each parser of an output folds its loop body
over the children of its context, starting from its defaults, checks the result and
appends it. Per parser there is one inversion lemma for the loop body (`*Step_inv`),
and one lemma for the whole parser (`parse*_ok`) that callers use instead of unfolding.
-/

namespace JsonConfig.Outputs
open JsonConfig.Xml

def UINT16_MAX : Nat := 65535
def UINT32_MAX : Nat := 4294967295

/-- An integer type of C: its width and whether it is signed. -/
structure IntType where
  bits : Nat
  signed : Bool
deriving DecidableEq, Repr

/-- The value a variable of the type holds after it is assigned a `uint64_t` value:
    the value modulo `2^bits`, read as two's complement when the type is signed. -/
def IntType.conv (t : IntType) (v : Nat) : Int :=
  if t.signed ∧ 2 ^ (t.bits - 1) ≤ v % 2 ^ t.bits then v % 2 ^ t.bits - 2 ^ t.bits else v % 2 ^ t.bits

/-- `conv` with the arithmetic done in `Nat` before the cast. -/
theorem IntType.conv_natCast (t : IntType) (v : Nat) :
    t.conv v = if t.signed ∧ 2 ^ (t.bits - 1) ≤ v % 2 ^ t.bits then
      ((v % 2 ^ t.bits : Nat) : Int) - ((2 ^ t.bits : Nat) : Int) else ((v % 2 ^ t.bits : Nat) : Int) := by
  simp only [IntType.conv, Int.ofNat_emod, Int.natCast_pow, Nat.cast_ofNat]

/-- A value never grows when a variable of the type holds it. -/
theorem IntType.conv_le (t : IntType) (v : Nat) : t.conv v ≤ v := by
  have := Nat.mod_le v (2 ^ t.bits)
  rw [IntType.conv_natCast]
  split_ifs <;> omega

/-- What `Config.cpp` takes from outside itself: `inet_pton` of the C library for
    `AF_INET` and `AF_INET6`, `RD_KAFKA_PARTITION_UA` of librdkafka, and the type of the
    fields of `struct syslog_prority`, declared in `Config.hpp`, which is not among the
    sources. -/
structure Platform where
  inetPton4 : String → Bool
  inetPton6 : String → Bool
  rdKafkaPartitionUa : Int
  priorityField : IntType

/-! ### The configuration -/

/-- `struct cfg_format`, the format flags. -/
structure CfgFormat where
  proto : Bool
  tcpFlags : Bool
  timestamp : Bool
  whiteSpaces : Bool
  ignoreUnknown : Bool
  ignoreOptions : Bool
  octetsAsUint : Bool
  numericNames : Bool
  splitBiflow : Bool
  detailedInfo : Bool
  templateInfo : Bool
deriving DecidableEq, Repr

/-- The format flags, one for each element of `<params>` that sets one. -/
inductive Flag where
  | tcpFlags | timestamp | proto | ignoreUnknown | ignoreOptions | whiteSpaces | numericNames
  | octetsAsUint | splitBiflow | detailedInfo | templateInfo
deriving DecidableEq, Repr

/-- The node of `<params>` that sets a flag. -/
def Flag.node : Flag → Node
  | .tcpFlags => .fmtTflags
  | .timestamp => .fmtTimestamp
  | .proto => .fmtProto
  | .ignoreUnknown => .fmtUnknown
  | .ignoreOptions => .fmtOptions
  | .whiteSpaces => .fmtNonprint
  | .numericNames => .fmtNumeric
  | .octetsAsUint => .fmtOctetasuint
  | .splitBiflow => .fmtBfsplit
  | .detailedInfo => .fmtDetailedinfo
  | .templateInfo => .fmtTmpltinfo

/-- The field of `struct cfg_format` that holds a flag. -/
def CfgFormat.flag (format : CfgFormat) : Flag → Bool
  | .tcpFlags => format.tcpFlags
  | .timestamp => format.timestamp
  | .proto => format.proto
  | .ignoreUnknown => format.ignoreUnknown
  | .ignoreOptions => format.ignoreOptions
  | .whiteSpaces => format.whiteSpaces
  | .numericNames => format.numericNames
  | .octetsAsUint => format.octetsAsUint
  | .splitBiflow => format.splitBiflow
  | .detailedInfo => format.detailedInfo
  | .templateInfo => format.templateInfo

structure CfgPrint where
  name : String
deriving DecidableEq, Repr

structure CfgServer where
  name : String
  port : UInt16
  blocking : Bool
deriving DecidableEq, Repr

/-- `cfg_send::SEND_PROTO_UDP` and `cfg_send::SEND_PROTO_TCP`. -/
inductive SendProto where
  | sendProtoUdp | sendProtoTcp
deriving DecidableEq, Repr

/-- `struct cfg_send`; `parse_send` gives `blocking` no default, so it is `none` until a
    `<blocking>` child sets it. -/
structure CfgSend where
  name : String
  addr : String
  port : UInt16
  proto : SendProto
  blocking : Option Bool
deriving DecidableEq, Repr

/-- `calg::NONE` and `calg::GZIP`. -/
inductive Calg where
  | none | gzip
deriving DecidableEq, Repr

structure CfgFile where
  name : String
  pathPattern : String
  filePrefix : String
  windowSize : UInt32
  windowAlign : Bool
  mCalg : Calg
deriving DecidableEq, Repr

/-- `struct cfg_kafka`; `properties` is the `std::map` in insertion order. -/
structure CfgKafka where
  name : String
  brokers : String
  topic : String
  partition : Int
  brokerFallback : String
  blocking : Bool
  perfTuning : Bool
  properties : List (String × String)
deriving DecidableEq, Repr

/-- `struct syslog_prority`, each field as the type `Platform.priorityField` holds it. -/
structure SyslogPrority where
  facility : Int
  severity : Int
deriving DecidableEq, Repr

/-- `syslog_hostname::NONE` and `syslog_hostname::LOCAL` (`localHost`). -/
inductive SyslogHostname where
  | none | localHost
deriving DecidableEq, Repr

/-- The arguments a syslog socket is built from: `TcpSyslogSocket(hostname, port,
    blocking)` or `UdpSyslogSocket(hostname, port)`. A local that was never assigned is
    `none`: the constructor then reads an indeterminate value. -/
inductive SyslogSocket where
  | tcp (hostname : String) (port : Option UInt16) (blocking : Option Bool)
  | udp (hostname : String) (port : Option UInt16)
deriving DecidableEq, Repr

structure CfgSyslog where
  name : String
  priority : SyslogPrority
  hostname : SyslogHostname
  program : String
  procId : Bool
  transport : Option SyslogSocket
deriving DecidableEq, Repr

/-- `outputs`: the six lists, in the order the parsers appended to them. -/
structure CfgOutputs where
  prints : List CfgPrint
  servers : List CfgServer
  sends : List CfgSend
  files : List CfgFile
  kafkas : List CfgKafka
  syslogs : List CfgSyslog
deriving DecidableEq, Repr

/-- The number of outputs of all kinds. -/
def CfgOutputs.count (outputs : CfgOutputs) : Nat :=
  outputs.prints.length + outputs.servers.length + outputs.sends.length + outputs.files.length +
    outputs.kafkas.length + outputs.syslogs.length

/-- The names of the outputs of all kinds, kind by kind. -/
def CfgOutputs.names (outputs : CfgOutputs) : List String :=
  outputs.prints.map CfgPrint.name ++ outputs.servers.map CfgServer.name ++
    outputs.sends.map CfgSend.name ++ outputs.files.map CfgFile.name ++
    outputs.kafkas.map CfgKafka.name ++ outputs.syslogs.map CfgSyslog.name

/-- The outputs of all kinds as pairs of the element that gives each and its name. -/
def CfgOutputs.entries (outputs : CfgOutputs) : List (Node × String) :=
  outputs.prints.map (fun o => (.outputPrint, o.name)) ++
    outputs.servers.map (fun o => (.outputServer, o.name)) ++
    outputs.sends.map (fun o => (.outputSend, o.name)) ++
    outputs.files.map (fun o => (.outputFile, o.name)) ++
    outputs.kafkas.map (fun o => (.outputKafka, o.name)) ++
    outputs.syslogs.map (fun o => (.outputSyslog, o.name))

theorem CfgOutputs.length_entries (outputs : CfgOutputs) : outputs.entries.length = outputs.count := by
  simp only [CfgOutputs.entries, CfgOutputs.count, List.length_append, List.length_map]

theorem CfgOutputs.map_entries (outputs : CfgOutputs) : outputs.entries.map Prod.snd = outputs.names := by
  simp [CfgOutputs.entries, CfgOutputs.names, Function.comp_def]

theorem CfgOutputs.countP_entries (outputs : CfgOutputs) :
    outputs.entries.countP (fun e => e.1 = .outputPrint) = outputs.prints.length := by
  simp [CfgOutputs.entries, List.countP_append, List.countP_map, Function.comp_def]

/-- The texts an output keeps from the document. -/
def CfgPrint.texts (o : CfgPrint) : List String := [o.name]
def CfgServer.texts (o : CfgServer) : List String := [o.name]
def CfgSend.texts (o : CfgSend) : List String := [o.name, o.addr]
def CfgFile.texts (o : CfgFile) : List String := [o.name, o.pathPattern, o.filePrefix]
def CfgKafka.texts (o : CfgKafka) : List String :=
  [o.name, o.brokers, o.topic, o.brokerFallback] ++ o.properties.flatMap fun p => [p.1, p.2]

def SyslogSocket.hostname : SyslogSocket → String
  | .tcp hostname _ _ | .udp hostname _ => hostname

def CfgSyslog.texts (o : CfgSyslog) : List String :=
  [o.name, o.program] ++ (o.transport.map SyslogSocket.hostname).toList

/-- The texts the outputs of all kinds keep, kind by kind. -/
def CfgOutputs.texts (outputs : CfgOutputs) : List String :=
  outputs.prints.flatMap CfgPrint.texts ++ outputs.servers.flatMap CfgServer.texts ++
    outputs.sends.flatMap CfgSend.texts ++ outputs.files.flatMap CfgFile.texts ++
    outputs.kafkas.flatMap CfgKafka.texts ++ outputs.syslogs.flatMap CfgSyslog.texts

theorem CfgOutputs.mem_texts {outputs : CfgOutputs} {t : String} :
    t ∈ outputs.texts ↔ (∃ o ∈ outputs.prints, t ∈ o.texts) ∨ (∃ o ∈ outputs.servers, t ∈ o.texts) ∨
      (∃ o ∈ outputs.sends, t ∈ o.texts) ∨ (∃ o ∈ outputs.files, t ∈ o.texts) ∨
      (∃ o ∈ outputs.kafkas, t ∈ o.texts) ∨ ∃ o ∈ outputs.syslogs, t ∈ o.texts := by
  simp only [CfgOutputs.texts, List.mem_append, List.mem_flatMap, or_assoc]

/-! ### Checks -/

/-- `strcasecmp(a, b) == 0`: equal once ASCII capitals are lowered, which on UTF-8 text
    is the byte-wise comparison of the C library in the "C" locale. -/
def strcasecmpEq (a b : String) : Bool := a.toList.map Char.toLower == b.toList.map Char.toLower

theorem ne_empty_of_isEmpty {s : String} (h : s.isEmpty = false) : s ≠ "" := fun empty => by
  rw [(String.isEmpty_iff s).mpr empty] at h
  cases h

/-- `check_ip`: `inet_pton` accepts the text as an IPv4 or an IPv6 address. -/
def checkIp (P : Platform) (ipAddr : String) : Bool := P.inetPton4 ipAddr || P.inetPton6 ipAddr

/-- `check_or`: which of two words, ignoring case, the value is. -/
def checkOr (elem value valTrue valFalse : String) : Except Error Bool :=
  if strcasecmpEq value valTrue then .ok true
  else if strcasecmpEq value valFalse then .ok false
  else .error (.invalidArgument ("Unexpected parameter of the element <" ++ elem ++ "> (expected '" ++
    valTrue ++ "' or '" ++ valFalse ++ "')"))

/-- `check_or` returns whether the value is the first word, and only for one of the two. -/
theorem checkOr_ok {elem value valTrue valFalse : String} {b : Bool}
    (ok : checkOr elem value valTrue valFalse = .ok b) :
    b = strcasecmpEq value valTrue ∧ (strcasecmpEq value valTrue || strcasecmpEq value valFalse) = true := by
  unfold checkOr at ok
  split_ifs at ok with first second <;> cases ok <;> simp_all

/-- `check_or` throws on a value that is neither word, naming the element and both words. -/
theorem checkOr_error {elem value valTrue valFalse : String}
    (neither : (strcasecmpEq value valTrue || strcasecmpEq value valFalse) = false) :
    checkOr elem value valTrue valFalse = .error (.invalidArgument ("Unexpected parameter of the element <" ++
      elem ++ "> (expected '" ++ valTrue ++ "' or '" ++ valFalse ++ "')")) := by
  simp only [Bool.or_eq_false_iff] at neither
  simp [checkOr, neither]

/-- `is_syslog_ascii`: every byte in `33..126`, the printable characters of RFC 5424. -/
def isSyslogAscii (str : String) : Bool :=
  str.toUTF8.data.toList.all fun ch => 33 ≤ ch.toNat && ch.toNat ≤ 126

private theorem le_or_right (n m : Nat) : m ≤ n ||| m :=
  Nat.le_of_testBit fun i h => by simp [Nat.testBit_or, h]

/-- The lead byte of a UTF-8 sequence of two or more bytes is not printable ASCII. -/
private theorem lead_not_printable (x y : UInt8) (lead : 192 ≤ y.toNat) : 126 < (x ||| y).toNat := by
  have bits : (x ||| y).toNat = x.toNat ||| y.toNat := BitVec.toNat_or _ _
  have := le_or_right x.toNat y.toNat
  omega

/-- A character whose UTF-8 bytes are all printable ASCII is one byte, itself. -/
private theorem utf8EncodeChar_printable {c : Char}
    (printable : ∀ b ∈ String.utf8EncodeChar c, 33 ≤ b.toNat ∧ b.toNat ≤ 126) :
    String.utf8EncodeChar c = [c.val.toUInt8] ∧ 33 ≤ c.toNat ∧ c.toNat ≤ 126 := by
  simp only [String.utf8EncodeChar] at printable ⊢
  split_ifs at printable ⊢ with small
  · have byte : c.val.toUInt8.toNat = c.toNat := by
      have : c.val.toNat ≤ 127 := small
      have : c.toNat = c.val.toNat := rfl
      simp only [UInt32.toUInt8, Nat.toUInt8, UInt8.ofNat, UInt8.toNat, BitVec.toNat_ofNat]
      omega
    have := printable _ (List.mem_singleton_self _)
    exact ⟨rfl, by omega⟩
  all_goals exact absurd (printable _ (List.mem_cons_self _ _)).2 (Nat.not_le.mpr
    (lead_not_printable _ _ (by decide)))

/-- A string `is_syslog_ascii` accepts has one byte per character, each in `33..126`. -/
theorem isSyslogAscii_chars {str : String} (ascii : isSyslogAscii str = true) :
    str.utf8ByteSize = str.length ∧ ∀ c ∈ str.toList, 33 ≤ c.toNat ∧ c.toNat ≤ 126 := by
  have bytes : ∀ c ∈ str.data, ∀ b ∈ String.utf8EncodeChar c, 33 ≤ b.toNat ∧ b.toNat ≤ 126 := by
    simpa [isSyslogAscii, String.toUTF8] using ascii
  have single : ∀ l : List Char, (∀ c ∈ l, ∀ b ∈ String.utf8EncodeChar c, 33 ≤ b.toNat ∧ b.toNat ≤ 126) →
      (l.flatMap String.utf8EncodeChar).length = l.length := by
    intro l
    induction l with
    | nil => simp
    | cons c l ih =>
      intro all
      simp [List.flatMap_cons, (utf8EncodeChar_printable (all c (.head _))).1,
        ih fun d mem => all d (.tail _ mem)]
  refine ⟨?_, fun c mem => (utf8EncodeChar_printable (bytes c mem)).2⟩
  rw [← String.size_toUTF8, String.length, ← single str.data bytes]
  rfl

/-- The port check of `<server>`, `<send>`, `<udp>` and `<tcp>`: a value above
    `UINT16_MAX` or zero throws `message`, another is cast to `uint16_t`. -/
def checkPort (message : String) (content : Content) : Except Error UInt16 := do
  let value ← content.valUint
  if value.toNat > UINT16_MAX || value.toNat == 0 then throw (.invalidArgument message)
  return value.toUInt16

theorem checkPort_ok {message : String} {content : Content} {port : UInt16}
    (ok : checkPort message content = .ok port) :
    ∃ id v, content = .uint id v ∧ 1 ≤ v.toNat ∧ v.toNat ≤ UINT16_MAX ∧ port = v.toUInt16 ∧
      port.toNat = v.toNat := by
  cases content with
  | uint id v =>
    simp only [checkPort, Content.valUint, bind, Except.bind, pure, Except.pure] at ok
    split_ifs at ok with bad
    cases ok
    simp only [UINT16_MAX, Bool.or_eq_true, decide_eq_true_eq, beq_iff_eq, not_or] at bad
    refine ⟨id, v, rfl, by omega, by simp [UINT16_MAX]; omega, rfl, ?_⟩
    simp only [UInt64.toUInt16, Nat.toUInt16, UInt16.toNat, UInt16.ofNat]
    simp [BitVec.toNat_ofNat]; omega
  | _ => cases ok

/-- The port a `<port>` child of id `id` gives. -/
def portOf (id : Node) : Content → Option UInt16
  | .uint id' value => if id' = id then some value.toUInt16 else none
  | _ => none

/-- What a step that checks the `<port>` child `id` promises of a child it accepted: the
    port it gives is in range, and a child of that id gives one. -/
structure PortChecked (id : Node) (c : Content) : Prop where
  range : ∀ p, portOf id c = some p → 1 ≤ p.toNat ∧ p.toNat ≤ UINT16_MAX
  given : c.id = id → (portOf id c).isSome

theorem portOf_of_checked {id : Node} {c : Content} {message : String} {p : UInt16}
    (same : c.id = id) (checked : checkPort message c = .ok p) : portOf id c = some p := by
  obtain ⟨_, v, rfl, -, -, rfl, -⟩ := checkPort_ok checked
  cases same
  simp [portOf, Content.id]

theorem portChecked_of_checked {id : Node} {c : Content} {message : String} {p : UInt16}
    (same : c.id = id) (checked : checkPort message c = .ok p) : PortChecked id c := by
  have picked := portOf_of_checked same checked
  obtain ⟨_, v, rfl, lo, hi, rfl, value⟩ := checkPort_ok checked
  exact ⟨(fun q given => by rw [picked] at given; cases given; omega), (fun _ => by rw [picked]; rfl)⟩

theorem portChecked_other {id : Node} {c : Content} (other : c.id ≠ id) : PortChecked id c := by
  have none : portOf id c = none := by
    cases c with
    | uint id' v => simp only [Content.id] at other; simp [portOf, other]
    | _ => rfl
  exact ⟨(fun _ given => by rw [none] at given; cases given), (fun same => absurd same other)⟩

/-! ### The parsers of `<print>`, `<server>`, `<send>` and `<file>` -/

/-- The loop body of `parse_print`. -/
def printStep (output : CfgPrint) (content : Content) : Except Error CfgPrint :=
  match content.id with
  | .printName => do
    let name ← content.ptrString
    return { output with name }
  | _ => throw (.invalidArgument "Unexpected element within <print>!")

/-- `parse_print`: the `<print>` output its children give, appended to `prints`. -/
def parsePrint (outputs : CfgOutputs) (print : List Content) : Except Error CfgOutputs := do
  let output ← print.foldlM printStep ⟨""⟩
  if output.name.isEmpty then throw (.runtimeError "Name of a <print> output must be defined!")
  return { outputs with prints := outputs.prints ++ [output] }

/-- Only a `<name>` child sets the name of an output; it takes the child's text. -/
private theorem printStep_name {o o' : CfgPrint} {c : Content} (step : printStep o c = .ok o') :
    o'.name = (textOf .printName c).getD o.name := by
  unfold printStep at step
  split at step
  · next same =>
    obtain ⟨x, read, done⟩ := bind_ok.mp step
    cases Content.ptrString_ok same read
    cases pure_ok.mp done
    rfl
  · cases step

theorem printStep_texts {o o' : CfgPrint} {c : Content} (step : printStep o c = .ok o') :
    o'.texts ⊆ o.texts ++ c.texts := by
  rw [CfgPrint.texts, printStep_name step]
  cases c <;> simp [textOf, CfgPrint.texts, Content.texts]
  split_ifs <;> simp

/-- The loop body of `parse_server`. -/
def serverStep (output : CfgServer) (content : Content) : Except Error CfgServer :=
  match content.id with
  | .serverName => do
    let name ← content.ptrString
    return { output with name }
  | .serverPort => do
    let port ← checkPort "Invalid port number of a <server> output!" content
    return { output with port }
  | .serverBlock => do
    let blocking ← content.valBool
    return { output with blocking }
  | _ => throw (.invalidArgument "Unexpected element within <server>!")

/-- `parse_server`, with the defaults `port = 0` and `blocking = false`. -/
def parseServer (outputs : CfgOutputs) (server : List Content) : Except Error CfgOutputs := do
  let output ← server.foldlM serverStep ⟨"", 0, false⟩
  if output.name.isEmpty then throw (.runtimeError "Name of a <server> output must be defined!")
  return { outputs with servers := outputs.servers ++ [output] }

/-- A `<server>` step sets the port from a `<port>` child, checked, and keeps it otherwise. -/
private theorem serverStep_port {o o' : CfgServer} {c : Content} (step : serverStep o c = .ok o') :
    o'.port = (portOf .serverPort c).getD o.port ∧ PortChecked .serverPort c := by
  unfold serverStep at step
  split at step
  · next same =>
    obtain ⟨name, read, done⟩ := bind_ok.mp step
    rw [Content.ptrString_ok same read, ← pure_ok.mp done]
    exact ⟨rfl, portChecked_other (by simp [Content.id])⟩
  · next same =>
    obtain ⟨port, read, done⟩ := bind_ok.mp step
    rw [← pure_ok.mp done, portOf_of_checked same read]
    exact ⟨rfl, portChecked_of_checked same read⟩
  · next same =>
    obtain ⟨blocking, read, done⟩ := bind_ok.mp step
    rw [Content.valBool_ok same read, ← pure_ok.mp done]
    exact ⟨rfl, portChecked_other (by simp [Content.id])⟩
  · cases step

private theorem serverStep_name {o o' : CfgServer} {c : Content} (step : serverStep o c = .ok o') :
    o'.name = (textOf .serverName c).getD o.name := by
  unfold serverStep at step
  split at step <;> rename_i same <;> try cases step
  all_goals obtain ⟨x, read, done⟩ := bind_ok.mp step
  all_goals cases pure_ok.mp done
  · cases Content.ptrString_ok same read
    rfl
  all_goals simp only [@textOf_of_id .serverName c (by simp [same]), Option.getD_none]

theorem serverStep_texts {o o' : CfgServer} {c : Content} (step : serverStep o c = .ok o') :
    o'.texts ⊆ o.texts ++ c.texts := by
  rw [CfgServer.texts, serverStep_name step]
  cases c <;> simp [textOf, CfgServer.texts, Content.texts]
  split_ifs <;> simp

theorem parseServer_ok {outputs outputs' : CfgOutputs} {server : List Content}
    (ok : parseServer outputs server = .ok outputs') :
    ∃ output, server.foldlM serverStep ⟨"", 0, false⟩ = .ok output ∧
      output.name = lastValue (textOf .serverName) "" server ∧ output.name ≠ "" ∧
      outputs' = { outputs with servers := outputs.servers ++ [output] } := by
  obtain ⟨output, run, rest⟩ := bind_ok.mp ok
  split_ifs at rest with empty <;> cases rest
  exact ⟨output, run, foldlM_field CfgServer.name _ (fun _ _ _ s => serverStep_name s) run,
    ne_empty_of_isEmpty (by simpa using empty), rfl⟩

/-- What `parse_server` makes sure of, when the children conform to the schema. -/
structure CfgServer.Valid (output : CfgServer) : Prop where
  port : 1 ≤ output.port.toNat ∧ output.port.toNat ≤ UINT16_MAX

/-- The `<port>` the schema requires sets the port, so the default 0 never stays. -/
theorem parseServer_valid {outputs outputs' : CfgOutputs} {server : List Content}
    (level : Level argsServer server) (ok : parseServer outputs server = .ok outputs') :
    ∃ output, output.Valid ∧ outputs' = { outputs with servers := outputs.servers ++ [output] } := by
  obtain ⟨output, run, -, -, rfl⟩ := parseServer_ok ok
  obtain ⟨c, mem, port⟩ := level.present ⟨.serverPort, "port", .uint, required⟩
    (by simp [argsServer]) rfl
  exact ⟨output, ⟨foldlM_required CfgServer.port (portOf .serverPort)
    (fun p => 1 ≤ p.toNat ∧ p.toNat ≤ UINT16_MAX) (fun _ _ _ step => (serverStep_port step).1)
    (fun _ _ _ v step => (serverStep_port step).2.range v)
    ⟨c, mem, fun _ _ step => (serverStep_port step).2.given port⟩ run⟩, rfl⟩

/-- The loop body of `parse_send`. -/
def sendStep (output : CfgSend) (content : Content) : Except Error CfgSend :=
  match content.id with
  | .sendName => do
    let name ← content.ptrString
    return { output with name }
  | .sendIp => do
    let addr ← content.ptrString
    return { output with addr }
  | .sendPort => do
    let port ← checkPort "Invalid port number of a <send> output!" content
    return { output with port }
  | .sendProto => do
    let text ← content.ptrString
    let udp ← checkOr "protocol" text "UDP" "TCP"
    return { output with proto := if udp then .sendProtoUdp else .sendProtoTcp }
  | .sendBlock => do
    let blocking ← content.valBool
    return { output with blocking := some blocking }
  | _ => throw (.invalidArgument "Unexpected element within <send>!")

/-- `parse_send`, with the defaults UDP, `127.0.0.1` and port 4739; the address must
    pass `check_ip`. -/
def parseSend (P : Platform) (outputs : CfgOutputs) (send : List Content) : Except Error CfgOutputs := do
  let output ← send.foldlM sendStep ⟨"", "127.0.0.1", 4739, .sendProtoUdp, none⟩
  if output.name.isEmpty then throw (.runtimeError "Name of a <send> output must be defined!")
  if output.addr.isEmpty || !checkIp P output.addr then
    throw (.runtimeError ("Value of the element <ip> of the output <send> '" ++ output.name ++
      "' is not a valid IPv4/IPv6 address"))
  return { outputs with sends := outputs.sends ++ [output] }

/-- A `<send>` loop body keeps the port in `1..UINT16_MAX`. -/
private theorem sendStep_port {o o' : CfgSend} {c : Content} (step : sendStep o c = .ok o')
    (inRange : 1 ≤ o.port.toNat ∧ o.port.toNat ≤ UINT16_MAX) :
    1 ≤ o'.port.toNat ∧ o'.port.toNat ≤ UINT16_MAX := by
  unfold sendStep at step
  split at step <;> try cases step
  all_goals obtain ⟨x, read, done⟩ := bind_ok.mp step
  · cases pure_ok.mp done; exact inRange
  · cases pure_ok.mp done; exact inRange
  · obtain ⟨_, v, -, lo, hi, -, value⟩ := checkPort_ok read
    cases pure_ok.mp done; simp only [value]; omega
  · obtain ⟨_, -, done⟩ := bind_ok.mp done
    cases pure_ok.mp done; exact inRange
  · cases pure_ok.mp done; exact inRange

private theorem sendStep_name {o o' : CfgSend} {c : Content} (step : sendStep o c = .ok o') :
    o'.name = (textOf .sendName c).getD o.name := by
  unfold sendStep at step
  split at step <;> rename_i same <;> try cases step
  all_goals obtain ⟨x, read, done⟩ := bind_ok.mp step
  · cases Content.ptrString_ok same read
    cases pure_ok.mp done
    rfl
  all_goals simp only [@textOf_of_id .sendName c (by simp [same]), Option.getD_none]
  all_goals first
    | cases pure_ok.mp done; rfl
    | obtain ⟨_, -, done⟩ := bind_ok.mp done; cases pure_ok.mp done; rfl

theorem sendStep_texts {o o' : CfgSend} {c : Content} (step : sendStep o c = .ok o') :
    o'.texts ⊆ o.texts ++ c.texts := by
  unfold sendStep at step
  split at step <;> rename_i same <;> try cases step
  all_goals obtain ⟨x, read, done⟩ := bind_ok.mp step
  all_goals first
    | cases Content.ptrString_ok same read
      cases pure_ok.mp done
      simp [CfgSend.texts, Content.texts]
    | cases pure_ok.mp done; exact List.subset_append_left _ _
    | obtain ⟨_, -, done⟩ := bind_ok.mp done; cases pure_ok.mp done; exact List.subset_append_left _ _

theorem parseSend_ok {P : Platform} {outputs outputs' : CfgOutputs} {send : List Content}
    (ok : parseSend P outputs send = .ok outputs') :
    ∃ output, send.foldlM sendStep ⟨"", "127.0.0.1", 4739, .sendProtoUdp, none⟩ = .ok output ∧
      output.name = lastValue (textOf .sendName) "" send ∧ output.name ≠ "" ∧
      output.addr ≠ "" ∧ checkIp P output.addr = true ∧
      outputs' = { outputs with sends := outputs.sends ++ [output] } := by
  obtain ⟨output, run, rest⟩ := bind_ok.mp ok
  split_ifs at rest <;> cases rest
  rename_i bad empty
  simp only [Bool.or_eq_true, Bool.not_eq_true', not_or, Bool.not_eq_false] at bad
  exact ⟨output, run, foldlM_field CfgSend.name _ (fun _ _ _ s => sendStep_name s) run,
    ne_empty_of_isEmpty (by simpa using empty), ne_empty_of_isEmpty (by simpa using bad.1), bad.2, rfl⟩

/-- What `parse_send` makes sure of in every output it appends. -/
structure CfgSend.Valid (P : Platform) (output : CfgSend) : Prop where
  port : 1 ≤ output.port.toNat ∧ output.port.toNat ≤ UINT16_MAX
  addr : checkIp P output.addr = true

theorem parseSend_valid {P : Platform} {outputs outputs' : CfgOutputs} {send : List Content}
    (ok : parseSend P outputs send = .ok outputs') :
    ∃ output, output.Valid P ∧ outputs' = { outputs with sends := outputs.sends ++ [output] } := by
  obtain ⟨output, run, -, -, -, addr, rfl⟩ := parseSend_ok ok
  exact ⟨output, ⟨foldlM_inv (fun o : CfgSend => 1 ≤ o.port.toNat ∧ o.port.toNat ≤ UINT16_MAX)
    (by decide) (fun _ _ _ _ range step => sendStep_port step range) run, addr⟩, rfl⟩

/-- The loop body of `parse_file`. -/
def fileStep (output : CfgFile) (content : Content) : Except Error CfgFile :=
  match content.id with
  | .fileName => do
    let name ← content.ptrString
    return { output with name }
  | .filePath => do
    let pathPattern ← content.ptrString
    return { output with pathPattern }
  | .filePrefix => do
    let filePrefix ← content.ptrString
    return { output with filePrefix }
  | .fileWindow => do
    let value ← content.valUint
    if value.toNat > UINT32_MAX then
      throw (.invalidArgument ("Windows size must be between 0.." ++ toString UINT32_MAX ++ "!"))
    return { output with windowSize := value.toUInt32 }
  | .fileAlign => do
    let windowAlign ← content.valBool
    return { output with windowAlign }
  | .fileCompress => do
    let text ← content.ptrString
    if strcasecmpEq text "none" then return { output with mCalg := .none }
    else if strcasecmpEq text "gzip" then return { output with mCalg := .gzip }
    else throw (.invalidArgument ("Unknown compression algorithm '" ++ text ++ "'"))
  | _ => throw (.invalidArgument "Unexpected element within <file>!")

/-- `parse_file`, with the defaults `window_align = true`, `window_size = 300` and no
    compression; the path must be given. -/
def parseFile (outputs : CfgOutputs) (file : List Content) : Except Error CfgOutputs := do
  let output ← file.foldlM fileStep ⟨"", "", "", 300, true, .none⟩
  if output.name.isEmpty then throw (.runtimeError "Name of a <file> output must be defined!")
  if output.pathPattern.isEmpty then
    throw (.runtimeError ("Element <path> of the output '" ++ output.name ++ "' must be defined!"))
  return { outputs with files := outputs.files ++ [output] }

private theorem fileStep_name {o o' : CfgFile} {c : Content} (step : fileStep o c = .ok o') :
    o'.name = (textOf .fileName c).getD o.name := by
  unfold fileStep at step
  split at step <;> rename_i same <;> try cases step
  all_goals obtain ⟨x, read, done⟩ := bind_ok.mp step
  · cases Content.ptrString_ok same read
    cases pure_ok.mp done
    rfl
  all_goals simp only [@textOf_of_id .fileName c (by simp [same]), Option.getD_none]
  all_goals first
    | cases pure_ok.mp done; rfl
    | (try dsimp only at done); split_ifs at done <;> cases done <;> rfl

theorem fileStep_texts {o o' : CfgFile} {c : Content} (step : fileStep o c = .ok o') :
    o'.texts ⊆ o.texts ++ c.texts := by
  unfold fileStep at step
  split at step <;> rename_i same <;> try cases step
  all_goals obtain ⟨x, read, done⟩ := bind_ok.mp step
  all_goals first
    | cases Content.ptrString_ok same read
      cases pure_ok.mp done
      simp [CfgFile.texts, Content.texts]
    | cases pure_ok.mp done; exact List.subset_append_left _ _
    | (try dsimp only at done); split_ifs at done <;> cases done <;> exact List.subset_append_left _ _

theorem parseFile_ok {outputs outputs' : CfgOutputs} {file : List Content}
    (ok : parseFile outputs file = .ok outputs') :
    ∃ output, file.foldlM fileStep ⟨"", "", "", 300, true, .none⟩ = .ok output ∧
      output.name = lastValue (textOf .fileName) "" file ∧ output.name ≠ "" ∧
      output.pathPattern ≠ "" ∧
      outputs' = { outputs with files := outputs.files ++ [output] } := by
  obtain ⟨output, run, rest⟩ := bind_ok.mp ok
  split_ifs at rest <;> cases rest
  rename_i noPath noName
  exact ⟨output, run, foldlM_field CfgFile.name _ (fun _ _ _ s => fileStep_name s) run,
    ne_empty_of_isEmpty (by simpa using noName), ne_empty_of_isEmpty (by simpa using noPath), rfl⟩

/-- What `parse_file` makes sure of in every output it appends. -/
structure CfgFile.Valid (output : CfgFile) : Prop where
  pathPattern : output.pathPattern ≠ ""

theorem parseFile_valid {outputs outputs' : CfgOutputs} {file : List Content}
    (ok : parseFile outputs file = .ok outputs') :
    ∃ output, output.Valid ∧ outputs' = { outputs with files := outputs.files ++ [output] } := by
  obtain ⟨output, -, -, -, path, rfl⟩ := parseFile_ok ok
  exact ⟨output, ⟨path⟩, rfl⟩

theorem parsePrint_ok {outputs outputs' : CfgOutputs} {print : List Content}
    (ok : parsePrint outputs print = .ok outputs') :
    ∃ output, print.foldlM printStep ⟨""⟩ = .ok output ∧
      output.name = lastValue (textOf .printName) "" print ∧ output.name ≠ "" ∧
      outputs' = { outputs with prints := outputs.prints ++ [output] } := by
  obtain ⟨output, run, rest⟩ := bind_ok.mp ok
  split_ifs at rest with empty <;> cases rest
  exact ⟨output, run, foldlM_field CfgPrint.name _ (fun _ _ _ s => printStep_name s) run,
    ne_empty_of_isEmpty (by simpa using empty), rfl⟩

end JsonConfig.Outputs
