import JsonConfig.Outputs

/-!
# The parser of `<syslog>`

`parse_syslog` folds its loop body over the children of a `<syslog>` output from the
defaults facility 16, severity 6, no hostname and no process id. `<priority>` runs
`parse_syslog_priority`, which stores each value into the fields of `struct
syslog_prority` before it checks the range, so the check sees the value as that type
holds it. `<transport>` runs `parse_syslog_transport`, which takes at most one `<tcp>` or
`<udp>` child; those run `parse_syslog_tcp` and `parse_syslog_udp`, whose locals `port`
and `blocking` have no initial value, so the socket is built from whatever a child last
assigned, or from nothing. Since the socket must be set at the end and the schema allows
one `<transport>`, an accepted `<syslog>` has a `<transport>` with exactly one child
(`parseSyslog_oneTransport`).
-/

namespace JsonConfig.Syslog
open JsonConfig.Xml JsonConfig.Outputs

def SYSLOG_FACILITY_MIN : Nat := 0
def SYSLOG_FACILITY_MAX : Nat := 23
def SYSLOG_FACILITY_DEF : Nat := 16
def SYSLOG_SEVERITY_MIN : Nat := 0
def SYSLOG_SEVERITY_MAX : Nat := 7
def SYSLOG_SEVERITY_DEF : Nat := 6
def SYSLOG_APPNAME_MAX_LEN : Nat := 48

/-- The loop body of `parse_syslog_udp`, on the locals `hostname` and `port`. -/
def syslogUdpStep (locals : String × Option UInt16) (content : Content) :
    Except Error (String × Option UInt16) :=
  match content.id with
  | .syslogUdpHost => do
    let hostname ← content.ptrString
    return (hostname, locals.2)
  | .syslogUdpPort => do
    let port ← checkPort "Invalid port number of a <udp> syslog!" content
    return (locals.1, some port)
  | _ => throw (.invalidArgument "Unexpected element within <udp> syslog!")

/-- `parse_syslog_udp`: `UdpSyslogSocket(hostname, port)`. -/
def parseSyslogUdp (socket : List Content) : Except Error SyslogSocket := do
  let (hostname, port) ← socket.foldlM syslogUdpStep ("", none)
  return .udp hostname port

/-- The loop body of `parse_syslog_tcp`, on the locals `hostname`, `port` and `blocking`. -/
def syslogTcpStep (locals : String × Option UInt16 × Option Bool) (content : Content) :
    Except Error (String × Option UInt16 × Option Bool) :=
  match content.id with
  | .syslogTcpHost => do
    let hostname ← content.ptrString
    return (hostname, locals.2)
  | .syslogTcpPort => do
    let port ← checkPort "Invalid port number of a <tcp> syslog!" content
    return (locals.1, some port, locals.2.2)
  | .syslogTcpBlock => do
    let blocking ← content.valBool
    return (locals.1, locals.2.1, some blocking)
  | _ => throw (.invalidArgument "Unexpected element within <tcp> syslog!")

/-- `parse_syslog_tcp`: `TcpSyslogSocket(hostname, port, blocking)`. -/
def parseSyslogTcp (socket : List Content) : Except Error SyslogSocket := do
  let (hostname, port, blocking) ← socket.foldlM syslogTcpStep ("", none, none)
  return .tcp hostname port blocking

/-- The loop body of `parse_syslog_transport`, on the local `socket`: once it is set,
    the next child throws before its id is looked at. -/
def syslogTransportStep (socket : Option SyslogSocket) (content : Content) :
    Except Error (Option SyslogSocket) := do
  if socket.isSome then throw (.invalidArgument "Multiple syslog transport types are not allowed!")
  match content.id with
  | .syslogTcp => return some (← parseSyslogTcp (← content.ptrCtx))
  | .syslogUdp => return some (← parseSyslogUdp (← content.ptrCtx))
  | _ => throw (.invalidArgument "Unexpected element within <transport>!")

/-- `parse_syslog_transport`: the socket, or none when there was no child. -/
def parseSyslogTransport (syslog : CfgSyslog) (transport : List Content) : Except Error CfgSyslog := do
  let socket ← transport.foldlM syslogTransportStep none
  return { syslog with transport := socket }

/-- The loop body of `parse_syslog_priority`, on the local `values`, each field read
    through the type `field` of `struct syslog_prority`. A field is `some` once
    `isFacilitySet` or `isSeveritySet` is. -/
def syslogPriorityStep (field : IntType) (values : Option Int × Option Int) (content : Content) :
    Except Error (Option Int × Option Int) :=
  match content.id with
  | .syslogPriFacility => do
    let value ← content.valUint
    return (some (field.conv value.toNat), values.2)
  | .syslogPriSeverity => do
    let value ← content.valUint
    return (values.1, some (field.conv value.toNat))
  | _ => throw (.invalidArgument "Unexpected element within <priority>!")

/-- `parse_syslog_priority`: both values must be set and in range. -/
def parseSyslogPriority (field : IntType) (syslog : CfgSyslog) (priority : List Content) :
    Except Error CfgSyslog := do
  match ← priority.foldlM (syslogPriorityStep field) (none, none) with
  | (some facility, some severity) =>
    if facility > SYSLOG_FACILITY_MAX then
      throw (.invalidArgument ("Syslog facility is out of range " ++ "[" ++
        toString SYSLOG_FACILITY_MIN ++ ".." ++ toString SYSLOG_FACILITY_MAX ++ "]"))
    else if severity > SYSLOG_SEVERITY_MAX then
      throw (.invalidArgument ("Syslog severity is out of range " ++ "[" ++
        toString SYSLOG_SEVERITY_MIN ++ ".." ++ toString SYSLOG_SEVERITY_MAX ++ "]"))
    else return { syslog with priority := ⟨facility, severity⟩ }
  | _ => throw (.invalidArgument "Both syslog facility and severity must be set!")

/-- The loop body of `parse_syslog`. -/
def syslogStep (field : IntType) (output : CfgSyslog) (content : Content) : Except Error CfgSyslog :=
  match content.id with
  | .syslogName => do
    let name ← content.ptrString
    return { output with name }
  | .syslogHostname => do
    let text ← content.ptrString
    if strcasecmpEq text "none" then return { output with hostname := .none }
    else if strcasecmpEq text "local" then return { output with hostname := .localHost }
    else throw (.invalidArgument ("Unknown syslog hostname type '" ++ text ++ "'"))
  | .syslogProgram => do
    let program ← content.ptrString
    return { output with program }
  | .syslogProcid => do
    let procId ← content.valBool
    return { output with procId }
  | .syslogPri => do parseSyslogPriority field output (← content.ptrCtx)
  | .syslogTransport => do parseSyslogTransport output (← content.ptrCtx)
  | _ => throw (.invalidArgument "Unexpected element within <syslog>!")

/-- The defaults of `parse_syslog`. -/
def syslogDefaults (field : IntType) : CfgSyslog :=
  ⟨"", ⟨field.conv SYSLOG_FACILITY_DEF, field.conv SYSLOG_SEVERITY_DEF⟩, .none, "", false, none⟩

/-- `parse_syslog`: a transport must be given, and the program must be printable ASCII
    of at most `SYSLOG_APPNAME_MAX_LEN` bytes. -/
def parseSyslog (field : IntType) (outputs : CfgOutputs) (syslog : List Content) :
    Except Error CfgOutputs := do
  let output ← syslog.foldlM (syslogStep field) (syslogDefaults field)
  if output.transport.isNone then throw (.invalidArgument "Syslog transport type must be defined!")
  if !isSyslogAscii output.program then
    throw (.invalidArgument ("Invalid syslog identifier '" ++ output.name ++ "'"))
  if output.program.utf8ByteSize > SYSLOG_APPNAME_MAX_LEN then
    throw (.invalidArgument ("Too long syslog identifier '" ++ output.name ++ "'"))
  return { outputs with syslogs := outputs.syslogs ++ [output] }

/-! ### The socket and `parse_syslog_transport` -/

/-- What a `<port>` child of `<udp>` or `<tcp>` (the child id `id`) assigns to `port`. -/
def assignedPort (id : Node) (c : Content) : Option (Option UInt16) := (portOf id c).map some

/-- What a `<blocking>` child of `<tcp>` assigns to `blocking`. -/
def blockingOf : Content → Option (Option Bool)
  | .bool .syslogTcpBlock blocking => some (some blocking)
  | _ => none

/-- A port that was assigned, and is in `1..UINT16_MAX`. -/
def PortAssigned (port : Option UInt16) : Prop :=
  ∃ p, port = some p ∧ 1 ≤ p.toNat ∧ p.toNat ≤ UINT16_MAX

private theorem portAssigned_of_checked {id : Node} {c : Content} (checked : PortChecked id c)
    {port : Option UInt16} (picked : assignedPort id c = some port) : PortAssigned port := by
  unfold assignedPort at picked
  cases given : portOf id c with
  | none => rw [given] at picked; cases picked
  | some p => rw [given] at picked; cases picked; exact ⟨p, rfl, checked.range p given⟩

private theorem assignedPort_isSome {id : Node} {c : Content} (checked : PortChecked id c)
    (same : c.id = id) : (assignedPort id c).isSome := by
  simpa [assignedPort] using checked.given same

private theorem syslogUdpStep_inv {l l' : String × Option UInt16} {c : Content}
    (step : syslogUdpStep l c = .ok l') :
    l'.2 = (assignedPort .syslogUdpPort c).getD l.2 ∧ PortChecked .syslogUdpPort c := by
  unfold syslogUdpStep at step
  split at step
  · next same =>
    obtain ⟨hostname, read, done⟩ := bind_ok.mp step
    rw [Content.ptrString_ok same read, ← pure_ok.mp done]
    exact ⟨rfl, portChecked_other (by simp [Content.id])⟩
  · next same =>
    obtain ⟨port, checked, done⟩ := bind_ok.mp step
    rw [← pure_ok.mp done]
    exact ⟨by simp [assignedPort, portOf_of_checked same checked], portChecked_of_checked same checked⟩
  · cases step

private theorem syslogTcpStep_inv {l l' : String × Option UInt16 × Option Bool} {c : Content}
    (step : syslogTcpStep l c = .ok l') :
    l'.2.1 = (assignedPort .syslogTcpPort c).getD l.2.1 ∧ PortChecked .syslogTcpPort c ∧
      l'.2.2 = (blockingOf c).getD l.2.2 ∧ (c.id = .syslogTcpBlock → (blockingOf c).isSome) := by
  unfold syslogTcpStep at step
  split at step
  · next same =>
    obtain ⟨hostname, read, done⟩ := bind_ok.mp step
    rw [Content.ptrString_ok same read, ← pure_ok.mp done]
    exact ⟨rfl, portChecked_other (by simp [Content.id]), rfl, by simp [Content.id]⟩
  · next same =>
    obtain ⟨port, checked, done⟩ := bind_ok.mp step
    obtain ⟨_, v, rfl, -⟩ := checkPort_ok checked
    rw [← pure_ok.mp done]
    exact ⟨by simp [assignedPort, portOf_of_checked same checked], portChecked_of_checked same checked,
      rfl, by simp_all [Content.id]⟩
  · next same =>
    obtain ⟨blocking, read, done⟩ := bind_ok.mp step
    rw [Content.valBool_ok same read, ← pure_ok.mp done]
    exact ⟨rfl, portChecked_other (by simp [Content.id]), rfl, fun _ => rfl⟩
  · cases step

/-- `parse_syslog_udp` builds its socket from the port of the last `<port>` child, or
    from the unassigned local when there is none. -/
theorem parseSyslogUdp_ok {socket : List Content} {sock : SyslogSocket}
    (ok : parseSyslogUdp socket = .ok sock) :
    ∃ locals, socket.foldlM syslogUdpStep ("", none) = .ok locals ∧ sock = .udp locals.1 locals.2 ∧
      locals.2 = lastValue (assignedPort .syslogUdpPort) none socket := by
  obtain ⟨⟨hostname, port⟩, run, done⟩ := bind_ok.mp ok
  exact ⟨_, run, (pure_ok.mp done).symm, foldlM_field Prod.snd (assignedPort .syslogUdpPort)
    (fun _ _ _ step => (syslogUdpStep_inv step).1) run⟩

theorem parseSyslogTcp_ok {socket : List Content} {sock : SyslogSocket}
    (ok : parseSyslogTcp socket = .ok sock) :
    ∃ locals, socket.foldlM syslogTcpStep ("", none, none) = .ok locals ∧
      sock = .tcp locals.1 locals.2.1 locals.2.2 ∧
      locals.2.1 = lastValue (assignedPort .syslogTcpPort) none socket ∧
      locals.2.2 = lastValue blockingOf none socket := by
  obtain ⟨⟨hostname, port, blocking⟩, run, done⟩ := bind_ok.mp ok
  exact ⟨_, run, (pure_ok.mp done).symm,
    foldlM_field (fun l => l.2.1) (assignedPort .syslogTcpPort)
      (fun _ _ _ step => (syslogTcpStep_inv step).1) run,
    foldlM_field (fun l => l.2.2) blockingOf (fun _ _ _ step => (syslogTcpStep_inv step).2.2.1) run⟩

/-- Without a `<port>` child the UDP socket is built from the unassigned `port`, and
    without a `<blocking>` child the TCP socket from the unassigned `blocking`. -/
theorem parseSyslog_unassigned :
    parseSyslogUdp [.string .syslogUdpHost "localhost"] = .ok (.udp "localhost" none) ∧
      parseSyslogTcp [.string .syslogTcpHost "localhost", .uint .syslogTcpPort 514] =
        .ok (.tcp "localhost" (some 514) none) :=
  ⟨rfl, rfl⟩

private theorem syslogUdpStep_texts {l l' : String × Option UInt16} {c : Content}
    (step : syslogUdpStep l c = .ok l') : [l'.1] ⊆ [l.1] ++ c.texts := by
  unfold syslogUdpStep at step
  split at step <;> rename_i same <;> try cases step
  all_goals obtain ⟨x, read, done⟩ := bind_ok.mp step
  all_goals first
    | cases Content.ptrString_ok same read; cases pure_ok.mp done; simp [Content.texts]
    | cases pure_ok.mp done; exact List.subset_append_left _ _

private theorem syslogTcpStep_texts {l l' : String × Option UInt16 × Option Bool} {c : Content}
    (step : syslogTcpStep l c = .ok l') : [l'.1] ⊆ [l.1] ++ c.texts := by
  unfold syslogTcpStep at step
  split at step <;> rename_i same <;> try cases step
  all_goals obtain ⟨x, read, done⟩ := bind_ok.mp step
  all_goals first
    | cases Content.ptrString_ok same read; cases pure_ok.mp done; simp [Content.texts]
    | cases pure_ok.mp done; exact List.subset_append_left _ _

/-- The hostname of a socket is a text of the children of its element, or empty. -/
theorem parseSyslogUdp_hostname {socket : List Content} {sock : SyslogSocket}
    (ok : parseSyslogUdp socket = .ok sock) : sock.hostname ∈ "" :: textsAll socket := by
  obtain ⟨⟨hostname, port⟩, run, done⟩ := bind_ok.mp ok
  cases pure_ok.mp done
  exact foldlM_texts (fun l : String × Option UInt16 => [l.1]) []
    (fun _ _ _ step => by simpa using syslogUdpStep_texts step) run (.head _)

theorem parseSyslogTcp_hostname {socket : List Content} {sock : SyslogSocket}
    (ok : parseSyslogTcp socket = .ok sock) : sock.hostname ∈ "" :: textsAll socket := by
  obtain ⟨⟨hostname, port, blocking⟩, run, done⟩ := bind_ok.mp ok
  cases pure_ok.mp done
  exact foldlM_texts (fun l : String × Option UInt16 × Option Bool => [l.1]) []
    (fun _ _ _ step => by simpa using syslogTcpStep_texts step) run (.head _)

/-- A socket built from an assigned port in range and, for TCP, an assigned flag. -/
def SocketValid : SyslogSocket → Prop
  | .udp _ port => PortAssigned port
  | .tcp _ port blocking => PortAssigned port ∧ blocking.isSome

/-- With the `<port>` child the schema requires, the UDP socket's port is assigned. -/
theorem parseSyslogUdp_valid {socket : List Content} {sock : SyslogSocket}
    (level : Level argsSyslogUdp socket) (ok : parseSyslogUdp socket = .ok sock) : SocketValid sock := by
  obtain ⟨locals, run, rfl, -⟩ := parseSyslogUdp_ok ok
  obtain ⟨c, mem, port⟩ := level.present ⟨.syslogUdpPort, "port", .uint, required⟩
    (by simp [argsSyslogUdp]) rfl
  exact foldlM_required Prod.snd (assignedPort .syslogUdpPort) PortAssigned
    (fun _ _ _ step => (syslogUdpStep_inv step).1)
    (fun _ _ _ _ step => portAssigned_of_checked (syslogUdpStep_inv step).2)
    ⟨c, mem, fun _ _ step => assignedPort_isSome (syslogUdpStep_inv step).2 port⟩ run

/-- With the `<port>` and `<blocking>` children the schema requires, both are assigned. -/
theorem parseSyslogTcp_valid {socket : List Content} {sock : SyslogSocket}
    (level : Level argsSyslogTcp socket) (ok : parseSyslogTcp socket = .ok sock) : SocketValid sock := by
  obtain ⟨locals, run, rfl, -, -⟩ := parseSyslogTcp_ok ok
  obtain ⟨c, mem, port⟩ := level.present ⟨.syslogTcpPort, "port", .uint, required⟩
    (by simp [argsSyslogTcp]) rfl
  obtain ⟨d, mem', blocking⟩ := level.present ⟨.syslogTcpBlock, "blocking", .bool, required⟩
    (by simp [argsSyslogTcp]) rfl
  refine ⟨foldlM_required (fun l => l.2.1) (assignedPort .syslogTcpPort) PortAssigned
      (fun _ _ _ step => (syslogTcpStep_inv step).1)
      (fun _ _ _ _ step => portAssigned_of_checked (syslogTcpStep_inv step).2.1)
      ⟨c, mem, fun _ _ step => assignedPort_isSome (syslogTcpStep_inv step).2.1 port⟩ run,
    foldlM_required (fun l => l.2.2) blockingOf (fun b => b.isSome) ?_ ?_ ⟨d, mem', ?_⟩ run⟩
  · exact fun _ _ _ step => (syslogTcpStep_inv step).2.2.1
  · intro _ c _ v _ picked
    simp only [blockingOf] at picked
    split at picked <;> cases picked
    rfl
  · exact fun _ _ step => (syslogTcpStep_inv step).2.2.2 blocking

private theorem syslogTransportStep_set {sock : SyslogSocket} {c : Content} {t : Option SyslogSocket} :
    syslogTransportStep (some sock) c ≠ .ok t := by
  simp [syslogTransportStep, bind, Except.bind, throw, throwThe, MonadExceptOf.throw]

theorem syslogTransportStep_inv {c : Content} {t : Option SyslogSocket}
    (step : syslogTransportStep none c = .ok t) :
    ∃ sock, t = some sock ∧
      ((∃ ps, c = .context .syslogTcp ps ∧ parseSyslogTcp ps = .ok sock) ∨
        ∃ ps, c = .context .syslogUdp ps ∧ parseSyslogUdp ps = .ok sock) := by
  simp only [syslogTransportStep, Option.isSome_none, Bool.false_eq_true, if_false] at step
  obtain ⟨u, -, step⟩ := bind_ok.mp step
  split at step
  · next same =>
    obtain ⟨ps, read, step⟩ := bind_ok.mp step
    obtain ⟨sock, parsed, done⟩ := bind_ok.mp step
    exact ⟨sock, (pure_ok.mp done).symm, .inl ⟨ps, Content.ptrCtx_ok same read, parsed⟩⟩
  · next same =>
    obtain ⟨ps, read, step⟩ := bind_ok.mp step
    obtain ⟨sock, parsed, done⟩ := bind_ok.mp step
    exact ⟨sock, (pure_ok.mp done).symm, .inr ⟨ps, Content.ptrCtx_ok same read, parsed⟩⟩
  · cases step

/-- The transport loop takes no child, or exactly one. -/
theorem transport_run {transport : List Content} {t : Option SyslogSocket}
    (run : transport.foldlM syslogTransportStep none = .ok t) :
    transport = [] ∧ t = none ∨ ∃ c, transport = [c] ∧ syslogTransportStep none c = .ok t := by
  match transport, run with
  | [], run => exact .inl ⟨rfl, (Except.ok.inj run).symm⟩
  | c :: rest, run =>
    cases first : syslogTransportStep none c with
    | error e => rw [foldlM_cons_error first] at run; cases run
    | ok t' =>
      rw [foldlM_cons_ok first] at run
      obtain ⟨sock, rfl, -⟩ := syslogTransportStep_inv first
      cases rest with
      | nil => exact .inr ⟨c, rfl, (Except.ok.inj run) ▸ first⟩
      | cons d rest =>
        cases second : syslogTransportStep (some sock) d with
        | error e => rw [foldlM_cons_error second] at run; cases run
        | ok t'' => exact absurd second syslogTransportStep_set

/-- A loop of `parse_syslog_transport` over conforming children gives no socket or a
    valid one. -/
theorem transport_valid {transport : List Content} {t : Option SyslogSocket}
    (conform : ∀ c ∈ transport, c.conforms = true)
    (run : transport.foldlM syslogTransportStep none = .ok t) : ∀ sock, t = some sock → SocketValid sock := by
  rintro sock rfl
  rcases transport_run run with ⟨-, ⟨⟩⟩ | ⟨c, rfl, step⟩
  obtain ⟨_, ⟨⟩, ⟨ps, rfl, parsed⟩ | ⟨ps, rfl, parsed⟩⟩ := syslogTransportStep_inv step
  · exact parseSyslogTcp_valid (context_conforms (conform _ (.head _))).1 parsed
  · exact parseSyslogUdp_valid (context_conforms (conform _ (.head _))).1 parsed

/-- A loop of `parse_syslog_transport` that gives a socket took exactly one child, a
    `<tcp>` or a `<udp>`. -/
theorem transport_one {transport : List Content} {sock : SyslogSocket}
    (run : transport.foldlM syslogTransportStep none = .ok (some sock)) :
    ∃ t, transport = [t] ∧ (t.id = .syslogTcp ∨ t.id = .syslogUdp) := by
  rcases transport_run run with ⟨-, ⟨⟩⟩ | ⟨c, rfl, step⟩
  obtain ⟨_, -, ⟨ps, rfl, -⟩ | ⟨ps, rfl, -⟩⟩ := syslogTransportStep_inv step
  · exact ⟨_, rfl, .inl rfl⟩
  · exact ⟨_, rfl, .inr rfl⟩

theorem transport_hostname {transport : List Content} {sock : SyslogSocket}
    (run : transport.foldlM syslogTransportStep none = .ok (some sock)) :
    sock.hostname ∈ "" :: textsAll transport := by
  rcases transport_run run with ⟨-, ⟨⟩⟩ | ⟨c, rfl, step⟩
  obtain ⟨_, ⟨⟩, ⟨ps, rfl, parsed⟩ | ⟨ps, rfl, parsed⟩⟩ := syslogTransportStep_inv step
  · simpa [textsAll, Content.texts] using parseSyslogTcp_hostname parsed
  · simpa [textsAll, Content.texts] using parseSyslogUdp_hostname parsed

/-! ### `parse_syslog_priority` -/

/-- The facility a `<facility>` child stores, as the field type holds it. -/
def facilityOf (field : IntType) : Content → Option (Option Int)
  | .uint .syslogPriFacility value => some (some (field.conv value.toNat))
  | _ => none

/-- The severity a `<severity>` child stores, as the field type holds it. -/
def severityOf (field : IntType) : Content → Option (Option Int)
  | .uint .syslogPriSeverity value => some (some (field.conv value.toNat))
  | _ => none

theorem syslogPriorityStep_inv {field : IntType} {v v' : Option Int × Option Int} {c : Content}
    (step : syslogPriorityStep field v c = .ok v') :
    v'.1 = (facilityOf field c).getD v.1 ∧ v'.2 = (severityOf field c).getD v.2 := by
  unfold syslogPriorityStep at step
  split at step
  · next same =>
    obtain ⟨value, read, done⟩ := bind_ok.mp step
    rw [Content.valUint_ok same read, ← pure_ok.mp done]
    exact ⟨rfl, rfl⟩
  · next same =>
    obtain ⟨value, read, done⟩ := bind_ok.mp step
    rw [Content.valUint_ok same read, ← pure_ok.mp done]
    exact ⟨rfl, rfl⟩
  · cases step

/-- On a child `args_syslog_priority` declares, the step returns normally. -/
private theorem syslogPriorityStep_declared (field : IntType) (v : Option Int × Option Int) {c : Content}
    (declared : ∃ a ∈ argsSyslogPriority, a.id = c.id ∧ a.type = c.type) :
    ∃ v', syslogPriorityStep field v c = .ok v' := by
  obtain ⟨a, mem, same, type⟩ := declared
  simp only [argsSyslogPriority, List.mem_cons, List.mem_singleton, List.not_mem_nil, or_false] at mem
  rcases mem with rfl | rfl <;> cases c <;> simp only [Content.id, Content.type] at same type <;>
    first | (subst same; exact ⟨_, rfl⟩) | cases type

/-- `parse_syslog_priority` changes the priority alone. -/
theorem parseSyslogPriority_ok {field : IntType} {syslog syslog' : CfgSyslog} {priority : List Content}
    (ok : parseSyslogPriority field syslog priority = .ok syslog') :
    ∃ facility severity, syslog' = { syslog with priority := ⟨facility, severity⟩ } := by
  obtain ⟨⟨facility, severity⟩, -, rest⟩ := bind_ok.mp ok
  split at rest
  · split_ifs at rest
    cases rest
    exact ⟨_, _, rfl⟩
  · cases rest

/-- With children of the declared kinds, `parse_syslog_priority` returns normally exactly
    when the last facility and the last severity, as the field type holds them, are set
    and in range, and then it stores them. -/
theorem parseSyslogPriority_iff (field : IntType) (syslog syslog' : CfgSyslog) (priority : List Content)
    (declared : ∀ c ∈ priority, ∃ a ∈ argsSyslogPriority, a.id = c.id ∧ a.type = c.type) :
    parseSyslogPriority field syslog priority = .ok syslog' ↔
      ∃ facility severity, lastValue (facilityOf field) none priority = some facility ∧
        lastValue (severityOf field) none priority = some severity ∧
        facility ≤ SYSLOG_FACILITY_MAX ∧ severity ≤ SYSLOG_SEVERITY_MAX ∧
        syslog' = { syslog with priority := ⟨facility, severity⟩ } := by
  obtain ⟨⟨f, s⟩, run⟩ := foldlM_ok_of_each ((none, none) : Option Int × Option Int)
    fun v c mem => syslogPriorityStep_declared field v (declared c mem)
  have isFacility := foldlM_field Prod.fst (facilityOf field)
    (fun _ _ _ step => (syslogPriorityStep_inv step).1) run
  have isSeverity := foldlM_field Prod.snd (severityOf field)
    (fun _ _ _ step => (syslogPriorityStep_inv step).2) run
  simp only at isFacility isSeverity
  rw [← isFacility, ← isSeverity]
  simp only [parseSyslogPriority, run, bind, Except.bind]
  rcases f with _ | facility <;> rcases s with _ | severity <;> simp
  split_ifs with bigFacility bigSeverity
  · exact iff_of_false id fun ⟨small, _⟩ => by omega
  · exact iff_of_false id fun ⟨_, small, _⟩ => by omega
  · rw [pure_ok, eq_comm]
    exact ⟨fun same => ⟨by omega, by omega, same⟩, fun ⟨_, _, same⟩ => same⟩

/-- The value of a `<facility>` child, as a number. -/
def facilityValue : Content → Option (Option Int)
  | .uint .syslogPriFacility value => some (some value.toNat)
  | _ => none

/-- The value of a `<severity>` child, as a number. -/
def severityValue : Content → Option (Option Int)
  | .uint .syslogPriSeverity value => some (some value.toNat)
  | _ => none

/-- `uint64_t` keeps every value of `val_uint`. -/
private theorem conv_uint64 (v : UInt64) : IntType.conv ⟨64, false⟩ v.toNat = v.toNat := by
  have := v.toNat_lt
  simp only [IntType.conv, Bool.false_eq_true, false_and, if_false]
  omega

private theorem facilityOf_of_wide {field : IntType} (wide : ∀ v : UInt64, field.conv v.toNat = v.toNat) :
    facilityOf field = facilityValue := by
  funext c
  cases c with
  | uint id v => cases id <;> simp [facilityOf, facilityValue, wide]
  | _ => rfl

private theorem severityOf_of_wide {field : IntType} (wide : ∀ v : UInt64, field.conv v.toNat = v.toNat) :
    severityOf field = severityValue := by
  funext c
  cases c with
  | uint id v => cases id <;> simp [severityOf, severityValue, wide]
  | _ => rfl

/-- With a field type that keeps every 64-bit value, the checks see the children's own
    numbers. -/
theorem parseSyslogPriority_wide_iff (field : IntType) (wide : ∀ v : UInt64, field.conv v.toNat = v.toNat)
    (syslog syslog' : CfgSyslog) (priority : List Content)
    (declared : ∀ c ∈ priority, ∃ a ∈ argsSyslogPriority, a.id = c.id ∧ a.type = c.type) :
    parseSyslogPriority field syslog priority = .ok syslog' ↔
      ∃ facility severity, lastValue facilityValue none priority = some facility ∧
        lastValue severityValue none priority = some severity ∧
        facility ≤ SYSLOG_FACILITY_MAX ∧ severity ≤ SYSLOG_SEVERITY_MAX ∧
        syslog' = { syslog with priority := ⟨facility, severity⟩ } := by
  rw [← facilityOf_of_wide wide, ← severityOf_of_wide wide]
  exact parseSyslogPriority_iff field syslog syslog' priority declared

/-- With `uint64_t` fields a facility of `2^32 + 5` is rejected. -/
example : parseSyslogPriority ⟨64, false⟩ (syslogDefaults ⟨64, false⟩)
    [.uint .syslogPriFacility (2 ^ 32 + 5), .uint .syslogPriSeverity 3] ≠
    .ok { syslogDefaults ⟨64, false⟩ with priority := ⟨2 ^ 32 + 5, 3⟩ } := fun ok => by
  obtain ⟨f, s, hf, -, small, -⟩ :=
    (parseSyslogPriority_wide_iff ⟨64, false⟩ conv_uint64 _ _ _ (by decide)).mp ok
  cases hf
  exact absurd small (by decide)

/-- With `int` fields the same facility is stored as 5 and passes the check. -/
example : parseSyslogPriority ⟨32, true⟩ (syslogDefaults ⟨32, true⟩)
    [.uint .syslogPriFacility (2 ^ 32 + 5), .uint .syslogPriSeverity 3] =
    .ok { syslogDefaults ⟨32, true⟩ with priority := ⟨5, 3⟩ } := rfl

/-! ### `parse_syslog` -/

/-- What `parse_syslog` makes sure of in every `<syslog>` output it appends, when the
    children conform to the schema. -/
structure Valid (output : CfgSyslog) : Prop where
  transport : ∃ sock, output.transport = some sock ∧ SocketValid sock
  program : output.program.length ≤ SYSLOG_APPNAME_MAX_LEN ∧
    ∀ c ∈ output.program.toList, 33 ≤ c.toNat ∧ c.toNat ≤ 126

/-- Only a `<name>` child sets the name of a `<syslog>` output. -/
private theorem syslogStep_name {field : IntType} {o o' : CfgSyslog} {c : Content}
    (step : syslogStep field o c = .ok o') : o'.name = (textOf .syslogName c).getD o.name := by
  unfold syslogStep at step
  split at step <;> rename_i same <;> try cases step
  all_goals obtain ⟨x, read, done⟩ := bind_ok.mp step
  · cases Content.ptrString_ok same read
    cases pure_ok.mp done
    rfl
  all_goals simp only [@textOf_of_id .syslogName c (by simp [same]), Option.getD_none]
  all_goals first
    | cases pure_ok.mp done; rfl
    | split_ifs at done <;> cases done <;> rfl
    | obtain ⟨_, _, rfl⟩ := parseSyslogPriority_ok done; rfl
    | obtain ⟨_, -, done⟩ := bind_ok.mp done; cases pure_ok.mp done; rfl

/-- What a step of `parse_syslog` can do to the socket: keep it, or set it to what the
    loop of `parse_syslog_transport` gives on the children of a `<transport>`. -/
private theorem syslogStep_socket {field : IntType} {o o' : CfgSyslog} {c : Content}
    (step : syslogStep field o c = .ok o') :
    o'.transport = o.transport ∨
      ∃ ts, c = .context .syslogTransport ts ∧ ts.foldlM syslogTransportStep none = .ok o'.transport := by
  unfold syslogStep at step
  split at step <;> rename_i same <;> try cases step
  all_goals obtain ⟨x, read, done⟩ := bind_ok.mp step
  all_goals first
    | cases pure_ok.mp done; exact .inl rfl
    | (split_ifs at done <;> cases done) <;> exact .inl rfl
    | obtain ⟨_, _, rfl⟩ := parseSyslogPriority_ok done; exact .inl rfl
    | obtain ⟨t, run, done⟩ := bind_ok.mp done
      cases pure_ok.mp done
      exact .inr ⟨x, Content.ptrCtx_ok same read, run⟩

/-- A step on a conforming child leaves no socket or a valid one. -/
private theorem syslogStep_transport {field : IntType} {o o' : CfgSyslog} {c : Content}
    (conform : c.conforms = true) (step : syslogStep field o c = .ok o')
    (valid : ∀ sock, o.transport = some sock → SocketValid sock) :
    ∀ sock, o'.transport = some sock → SocketValid sock := by
  rcases syslogStep_socket step with same | ⟨ts, rfl, run⟩
  · exact same ▸ valid
  · exact transport_valid (context_conforms conform).2 run

/-- A step of `parse_syslog` keeps only the texts it had, texts of the child, and the empty
    hostname of a socket without one. -/
theorem syslogStep_texts {field : IntType} {o o' : CfgSyslog} {c : Content}
    (step : syslogStep field o c = .ok o') : o'.texts ⊆ o.texts ++ "" :: c.texts := by
  unfold syslogStep at step
  split at step <;> rename_i same <;> try cases step
  all_goals obtain ⟨x, read, done⟩ := bind_ok.mp step
  all_goals first
    | cases Content.ptrString_ok same read
      cases pure_ok.mp done
      clear * -
      intro t
      simp only [CfgSyslog.texts, Content.texts, List.mem_append, List.mem_cons, List.mem_singleton,
        List.not_mem_nil, or_false]
      tauto
    | cases pure_ok.mp done; exact List.subset_append_left _ _
    | (split_ifs at done <;> cases done) <;> exact List.subset_append_left _ _
    | obtain ⟨_, _, rfl⟩ := parseSyslogPriority_ok done; exact List.subset_append_left _ _
    | obtain ⟨t, run, done⟩ := bind_ok.mp done
      cases pure_ok.mp done
      rw [Content.ptrCtx_ok same read]
      intro s mem
      rcases List.mem_append.mp mem with head | socket
      · exact List.mem_append_left _ (List.mem_append_left _ head)
      · cases t with
        | none => cases socket
        | some sock =>
          obtain rfl := List.mem_singleton.mp socket
          exact List.mem_append_right _ (transport_hostname run)

theorem parseSyslog_ok {field : IntType} {outputs outputs' : CfgOutputs} {syslog : List Content}
    (ok : parseSyslog field outputs syslog = .ok outputs') :
    ∃ output, syslog.foldlM (syslogStep field) (syslogDefaults field) = .ok output ∧
      output.name = lastValue (textOf .syslogName) "" syslog ∧ output.transport.isSome ∧ isSyslogAscii output.program = true ∧
      output.program.utf8ByteSize ≤ SYSLOG_APPNAME_MAX_LEN ∧
      outputs' = { outputs with syslogs := outputs.syslogs ++ [output] } := by
  obtain ⟨output, run, rest⟩ := bind_ok.mp ok
  split_ifs at rest <;> cases rest
  rename_i short ascii hasTransport
  exact ⟨output, run, foldlM_field CfgSyslog.name _ (fun _ _ _ s => syslogStep_name s) run,
    Option.isSome_iff_ne_none.mpr (by simpa using hasTransport), by simpa using ascii,
    Nat.not_lt.mp short, rfl⟩

theorem parseSyslog_valid {field : IntType} {outputs outputs' : CfgOutputs} {syslog : List Content}
    (conform : ∀ c ∈ syslog, c.conforms = true) (ok : parseSyslog field outputs syslog = .ok outputs') :
    ∃ output, Valid output ∧ outputs' = { outputs with syslogs := outputs.syslogs ++ [output] } := by
  obtain ⟨output, run, -, hasTransport, ascii, short, rfl⟩ := parseSyslog_ok ok
  have sockets := foldlM_inv (fun o : CfgSyslog => ∀ sock, o.transport = some sock → SocketValid sock)
    (fun _ none => by cases none) (fun _ c _ mem valid step => syslogStep_transport (conform c mem) step valid) run
  obtain ⟨sock, isSock⟩ := Option.isSome_iff_exists.mp hasTransport
  obtain ⟨bytes, chars⟩ := isSyslogAscii_chars ascii
  exact ⟨output, ⟨⟨sock, isSock, sockets sock isSock⟩, by omega, chars⟩, rfl⟩

/-- In an accepted `<syslog>` element whose children conform at its level, every
    `<transport>` holds exactly one child, a `<tcp>` or a `<udp>`: the socket is set only
    by a `<transport>` whose loop took one child, it must be set at the end, and the
    schema allows one `<transport>`. -/
theorem parseSyslog_oneTransport {field : IntType} {outputs outputs' : CfgOutputs} {syslog : List Content}
    (level : Level argsSyslog syslog) (ok : parseSyslog field outputs syslog = .ok outputs') :
    ∀ ts, Content.context .syslogTransport ts ∈ syslog → ∃ t, ts = [t] ∧ (t.id = .syslogTcp ∨ t.id = .syslogUdp) := by
  obtain ⟨output, run, -, hasTransport, -⟩ := parseSyslog_ok ok
  have built := foldlM_inv (fun o : CfgSyslog => o.transport.isSome →
      ∃ t, Content.context .syslogTransport [t] ∈ syslog ∧ (t.id = .syslogTcp ∨ t.id = .syslogUdp))
    (fun none => by cases none) (fun _ c _ mem built step => ?_) run
  · obtain ⟨t, mem, kind⟩ := built hasTransport
    intro ts mem'
    cases level.unique ⟨.syslogTransport, "transport", .context, required⟩ (by simp [argsSyslog]) rfl
      mem' mem rfl rfl
    exact ⟨t, rfl, kind⟩
  · rcases syslogStep_socket step with same | ⟨ts, rfl, run⟩
    · exact same ▸ built
    · intro isSome
      obtain ⟨sock, isSock⟩ := Option.isSome_iff_exists.mp isSome
      obtain ⟨t, rfl, kind⟩ := transport_one (isSock ▸ run)
      exact ⟨t, mem, kind⟩

end JsonConfig.Syslog
