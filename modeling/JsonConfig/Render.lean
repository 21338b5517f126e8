import JsonConfig.Kept

/-!
# Every kept configuration is one the constructor returns

The converse of `JsonConfig.Kept`: a configuration whose outputs satisfy `OutputsKept`
is written back as the children of `<params>` (`render`), element by element as
`args_params` declares them, and `Config::Config` returns exactly that configuration
from the document (`ofParams_render`), which conforms to the schema whatever the
configuration (`render_conforms`) and holds only texts the XML parser can hand over
(`render_delivered`). With `ofParams_kept` this characterises the configurations the
constructor can return (`ofParams_image`).

Every value goes through the parser's own conversion: a port through the `uint64_t` of
`val_uint` and the cast to `uint16_t`, a window size through the cast to `uint32_t`, a
partition through `sscanf` and `%i` (or the word `unassigned`), a priority value through
the field type of `struct syslog_prority`, a flag set by a word through `check_or`, and
the properties of a `<kafka>` output through `emplace`, which keeps them only because
their keys are distinct.
-/

namespace JsonConfig.Render
open JsonConfig JsonConfig.Xml JsonConfig.Stream JsonConfig.Scanf JsonConfig.Version JsonConfig.Outputs
open JsonConfig.Params JsonConfig.Syslog JsonConfig.Kept

private theorem isEmpty_of_ne {s : String} (h : s ≠ "") : s.isEmpty = false :=
  Bool.eq_false_iff.mpr fun empty => h ((String.isEmpty_iff s).mp empty)

private theorem strcasecmpEq_self (s : String) : strcasecmpEq s s = true := by simp [strcasecmpEq]

private theorem toUInt16_toUInt64 (p : UInt16) : p.toUInt64.toUInt16 = p :=
  UInt16.toNat.inj (UInt16.toNat_ofNat_of_lt p.toNat_lt)

private theorem toUInt32_toUInt64 (w : UInt32) : w.toUInt64.toUInt32 = w :=
  UInt32.toNat.inj (UInt32.toNat_ofNat_of_lt w.toNat_lt)

/-- A port in range passes the port check as the `uint64_t` it widens to. -/
theorem checkPort_render (message : String) (id : Node) {p : UInt16} (pos : 1 ≤ p.toNat) :
    checkPort message (.uint id p.toUInt64) = .ok p := by
  have range : ¬ (UINT16_MAX < p.toNat ∨ p.toNat = 0) := by
    have := p.toNat_lt
    simp only [UINT16_MAX]
    omega
  simp [checkPort, Content.valUint, ok_bind, range, toUInt16_toUInt64]
  rfl

/-- `check_or` reads back the word a flag is written as, when the two words differ. -/
theorem checkOr_render (elem : String) {yes no : String} (differ : strcasecmpEq no yes = false) (b : Bool) :
    checkOr elem (if b then yes else no) yes no = .ok b := by
  cases b <;> simp [checkOr, differ, strcasecmpEq_self]

/-! ### Each output element -/

def renderPrint (o : CfgPrint) : Content :=
  .context .outputPrint [.string .printName o.name]

def renderServer (o : CfgServer) : Content :=
  .context .outputServer [.string .serverName o.name, .uint .serverPort o.port.toUInt64,
    .bool .serverBlock o.blocking]

/-- The word `check_or` reads as each protocol of `<send>`. -/
def renderProto : SendProto → String
  | .sendProtoUdp => "UDP"
  | .sendProtoTcp => "TCP"

/-- A `<send>` element; the `<blocking>` the schema requires is always written. -/
def renderSend (o : CfgSend) : Content :=
  .context .outputSend [.string .sendName o.name, .string .sendIp o.addr, .uint .sendPort o.port.toUInt64,
    .string .sendProto (renderProto o.proto), .bool .sendBlock (o.blocking.getD false)]

/-- The word `parse_file` reads as each compression algorithm. -/
def renderCalg : Calg → String
  | .none => "none"
  | .gzip => "gzip"

def renderFile (o : CfgFile) : Content :=
  .context .outputFile [.string .fileName o.name, .string .filePath o.pathPattern,
    .string .filePrefix o.filePrefix, .uint .fileWindow o.windowSize.toUInt64, .bool .fileAlign o.windowAlign,
    .string .fileCompress (renderCalg o.mCalg)]

section Outputs
variable (P : Platform) (outputs : CfgOutputs)

theorem outputsStep_renderPrint {o : CfgPrint} (kept : PrintKept o) :
    outputsStep P outputs (renderPrint o) = .ok { outputs with prints := outputs.prints ++ [o] } := by
  simp [outputsStep, renderPrint, Content.ptrCtx, ok_bind, parsePrint, printStep, Content.id,
    Content.ptrString, isEmpty_of_ne kept.name]
  rfl

theorem outputsStep_renderServer {o : CfgServer} (kept : ServerKept o) :
    outputsStep P outputs (renderServer o) = .ok { outputs with servers := outputs.servers ++ [o] } := by
  simp [outputsStep, renderServer, Content.ptrCtx, ok_bind, parseServer, serverStep, Content.id,
    Content.ptrString, Content.valBool, checkPort_render _ _ kept.valid.port.1, isEmpty_of_ne kept.name]
  rfl

theorem outputsStep_renderSend {o : CfgSend} (kept : SendKept P o) :
    outputsStep P outputs (renderSend o) = .ok { outputs with sends := outputs.sends ++ [o] } := by
  rcases o with ⟨name, addr, port, proto, _ | blocking⟩
  · cases kept.blocking
  have differ : strcasecmpEq "TCP" "UDP" = false := by decide
  cases proto <;>
  simp [outputsStep, renderSend, Content.ptrCtx, ok_bind, parseSend, sendStep, Content.id,
    Content.ptrString, Content.valBool, checkPort_render _ _ kept.valid.port.1, isEmpty_of_ne kept.name,
    isEmpty_of_ne kept.addr, kept.valid.addr, renderProto, checkOr, strcasecmpEq_self, differ]
  all_goals rfl

theorem outputsStep_renderFile {o : CfgFile} (kept : FileKept o) :
    outputsStep P outputs (renderFile o) = .ok { outputs with files := outputs.files ++ [o] } := by
  rcases o with ⟨name, path, filePrefix, window, align, calg⟩
  have fits : ¬ UINT32_MAX < window.toNat := by
    have := window.toNat_lt
    simp only [UINT32_MAX]
    omega
  have differ : strcasecmpEq "gzip" "none" = false := by decide
  cases calg <;>
  simp [outputsStep, renderFile, Content.ptrCtx, ok_bind, parseFile, fileStep, Content.id,
    Content.ptrString, Content.valBool, Content.valUint, isEmpty_of_ne kept.name,
    isEmpty_of_ne kept.valid.pathPattern, fits, toUInt32_toUInt64, renderCalg, strcasecmpEq_self, differ]
  all_goals rfl

end Outputs

private theorem isDigit_toNat {c : Char} (digit : c.isDigit = true) : 48 ≤ c.toNat ∧ c.toNat ≤ 57 := by
  simp only [Char.isDigit, Bool.and_eq_true, decide_eq_true_eq] at digit
  exact digit

private theorem digitChar_ne_zero : ∀ k < 10, 0 < k → Nat.digitChar k ≠ '0' := by decide

private theorem toDigitsCore_lead (fuel n : Nat) (ds : List Char) (enough : n < fuel) (pos : 0 < n) :
    ∃ d D, Nat.toDigitsCore 10 fuel n ds = d :: D ∧ d ≠ '0' := by
  induction fuel generalizing n ds with
  | zero => omega
  | succ fuel ih =>
    unfold Nat.toDigitsCore
    dsimp only
    split_ifs with last
    · exact ⟨_, ds, rfl, digitChar_ne_zero _ (Nat.mod_lt _ (by omega)) (by omega)⟩
    · exact ih (n / 10) _ (by omega) (by omega)

/-- `toString` writes a positive number without a leading `0`. -/
theorem toString_lead {n : Nat} (pos : 0 < n) : ∃ d D, (toString n).toList = d :: D ∧ d ≠ '0' := by
  obtain ⟨d, D, run, lead⟩ := toDigitsCore_lead (n + 1) n [] (by omega) pos
  exact ⟨d, D, by simpa [List.asString, Nat.toDigits] using run, lead⟩

private theorem baseValue_decimal {ds : List Char} (decimal : ∀ c ∈ ds, c.isDigit = true) :
    baseValue 10 ds = digitsValue ds :=
  List.foldl_ext _ _ _ fun v c mem => by simp [baseDigitValue, decimal c mem]

/-- `%i` reads back the decimal text of every number that fits in an `int`: `0` as an
    octal constant, another as a decimal one. -/
theorem sscanf_toString {v : Int} (nonneg : 0 ≤ v) (fits : v ≤ INT_MAX) :
    sscanfIntChar (toString v) = (1, some v) := by
  obtain ⟨n, rfl⟩ := Int.eq_ofNat_of_zero_le nonneg
  have value : toInt32 (max LONG_MIN (min LONG_MAX (n : Int))) = n :=
    toInt32_clamp (by simp only [INT_MIN]; omega) fits
  rcases Nat.eq_zero_or_pos n with rfl | pos
  · exact value ▸ @sscanf_cinteger ⟨[], .none, .octal, []⟩ _ ⟨by simp, by simp, by simp, by simp⟩ rfl
  · obtain ⟨-, decimal, digits⟩ := toString_digits n
    obtain ⟨d, D, text, lead⟩ := toString_lead pos
    have valid : CInteger.Valid ⟨[], .none, .decimal, (toString n).toList⟩ := by
      refine ⟨by simp, fun c mem => ?_, fun _ => ⟨d, D, text, lead⟩, by simp⟩
      have := isDigit_toNat (decimal c mem)
      simp only [isBaseDigit, Radix.base, decimal c mem]
      simp
      omega
    have read : CInteger.value ⟨[], .none, .decimal, (toString n).toList⟩ = n := by
      simp only [CInteger.value, Radix.base, baseValue_decimal decimal, digits]
      rfl
    have scan := @sscanf_cinteger _ (toString (n : Int)) valid rfl
    rwa [read, value] at scan

/-- A text that starts with a digit is not the word `unassigned`. -/
private theorem strcasecmpEq_digit {s : String} {d : Char} {D : List Char} (text : s.toList = d :: D)
    (digit : d.isDigit = true) : strcasecmpEq s "unassigned" = false := by
  have bounds := isDigit_toNat digit
  have lower : d.toLower = d := by
    simp only [Char.toLower]
    split_ifs with upper
    · simp only [ge_iff_le] at upper
      omega
    · rfl
  have ne : d ≠ 'u' := fun same => by subst same; simp at bounds
  have data : s.data = d :: D := text
  simp [strcasecmpEq, data, lower, ne]

/-- The text of a partition: the word for the unassigned partition, the number otherwise. -/
def renderPartition (rdKafkaPartitionUa partition : Int) : String :=
  if partition = rdKafkaPartitionUa then "unassigned" else toString partition

/-- Every partition `parse_kafka` keeps is read back from its text. -/
theorem partitionOf_render {ua p : Int} (range : p = ua ∨ 0 ≤ p ∧ p ≤ INT_MAX) :
    Kafka.partitionOf ua (renderPartition ua p) = .ok p := by
  unfold renderPartition
  split_ifs with same
  · simp [Kafka.partitionOf, strcasecmpEq_self, same]
  · obtain ⟨nonneg, fits⟩ := range.resolve_left same
    obtain ⟨n, rfl⟩ := Int.eq_ofNat_of_zero_le nonneg
    obtain ⟨nonempty, decimal, -⟩ := toString_digits n
    obtain ⟨d, D, text⟩ := List.exists_cons_of_ne_nil nonempty
    exact Kafka.partitionOf_ok.mpr (.inr ⟨@strcasecmpEq_digit (toString (n : Int)) d D text
      (decimal d (text ▸ .head _)), sscanf_toString nonneg fits, nonneg⟩)

private theorem emplace_absent {m : List (String × String)} {key : String} (value : String)
    (absent : key ∉ m.map Prod.fst) : Kafka.emplace m key value = m ++ [(key, value)] := by
  rw [Kafka.emplace, if_neg (by rwa [← Kafka.mem_keys_iff_lookup])]

def renderProperty (p : String × String) : Content :=
  .context .kafkaProperty [.string .kafkaPropKey p.1, .string .kafkaPropValue p.2]

theorem kafkaStep_renderProperty (ua : Int) (o : CfgKafka) {p : String × String} (key : p.1 ≠ "")
    (absent : p.1 ∉ o.properties.map Prod.fst) :
    Kafka.kafkaStep ua o (renderProperty p) = .ok { o with properties := o.properties ++ [p] } := by
  simp [Kafka.kafkaStep, renderProperty, Content.id, Content.ptrCtx, ok_bind, Kafka.parseKafkaProperty,
    Kafka.kafkaPropertyStep, Content.ptrString, isEmpty_of_ne key, emplace_absent _ absent]
  rfl

/-- Properties with keys and no key twice are all kept, in order. -/
theorem foldlM_renderProperty (ua : Int) (o : CfgKafka) {ps : List (String × String)}
    (keys : ∀ p ∈ ps, p.1 ≠ "") (distinct : ((o.properties ++ ps).map Prod.fst).Nodup) :
    (ps.map renderProperty).foldlM (Kafka.kafkaStep ua) o = .ok { o with properties := o.properties ++ ps } := by
  induction ps generalizing o with
  | nil => simp; rfl
  | cons p ps ih =>
    have absent : p.1 ∉ o.properties.map Prod.fst := by
      simp only [List.map_append, List.map_cons, List.nodup_append, List.nodup_cons] at distinct
      exact fun mem => distinct.2.2 mem (.head _)
    rw [List.map_cons, foldlM_cons_ok (kafkaStep_renderProperty ua o (keys p (.head _)) absent),
      ih _ (fun q mem => keys q (.tail _ mem)) (by simpa using distinct)]
    simp

/-- A `<kafka>` element: the fields, then one `<property>` per property. -/
def renderKafka (rdKafkaPartitionUa : Int) (o : CfgKafka) : Content :=
  .context .outputKafka ([.string .kafkaName o.name, .string .kafkaBrokers o.brokers,
    .string .kafkaTopic o.topic, .string .kafkaPartion (renderPartition rdKafkaPartitionUa o.partition),
    .string .kafkaBversion o.brokerFallback, .bool .kafkaBlocking o.blocking,
    .bool .kafkaPerfTun o.perfTuning] ++ o.properties.map renderProperty)

theorem outputsStep_renderKafka (P : Platform) (outputs : CfgOutputs) {o : CfgKafka}
    (kept : KafkaKept P.rdKafkaPartitionUa o) :
    outputsStep P outputs (renderKafka P.rdKafkaPartitionUa o) =
      .ok { outputs with kafkas := outputs.kafkas ++ [o] } := by
  have properties := foldlM_renderProperty P.rdKafkaPartitionUa { o with properties := [] } kept.valid.keys
    (by simpa using kept.distinct)
  simp only [List.nil_append] at properties
  have fallback : o.brokerFallback.isEmpty = true ∨ (parseVersion o.brokerFallback).1 = .ipxOk :=
    kept.valid.brokerFallback.imp (String.isEmpty_iff _).mpr id
  rcases fallback with fallback | fallback <;>
  simp [outputsStep, renderKafka, Content.ptrCtx, ok_bind, Kafka.parseKafka, List.foldlM_append,
    Kafka.kafkaDefaults, Kafka.kafkaStep, Content.id, Content.ptrString, Content.valBool,
    partitionOf_render kept.valid.partition, properties, isEmpty_of_ne kept.valid.brokers,
    isEmpty_of_ne kept.valid.topic, fallback]
  all_goals rfl

/-- The `uint64_t` a `<facility>` or `<severity>` element is written with for a value the
    field holds: the value modulo `2^bits`. -/
def uintOf (t : IntType) (v : Int) : UInt64 := (v % 2 ^ t.bits).toNat.toUInt64

private theorem conv_emod (t : IntType) (v : Nat) : t.conv v % 2 ^ t.bits = (v : Int) % 2 ^ t.bits := by
  unfold IntType.conv
  split_ifs <;> simp only [Int.emod_sub_cancel, Int.emod_emod]

private theorem conv_mod (t : IntType) (v : Nat) : t.conv (v % 2 ^ t.bits) = t.conv v := by
  simp only [IntType.conv, Nat.mod_mod, Int.ofNat_emod, Int.natCast_pow, Nat.cast_ofNat, Int.emod_emod]

/-- A value the field holds after a `uint64_t` was assigned to it is what `uintOf` of it
    gives once assigned again. -/
theorem conv_uintOf (t : IntType) (n : UInt64) :
    t.conv (uintOf t (t.conv n.toNat)).toNat = t.conv n.toNat := by
  have small : n.toNat % 2 ^ t.bits < 2 ^ 64 := (Nat.mod_le _ _).trans_lt n.toNat_lt
  have cast : (n.toNat : Int) % 2 ^ t.bits = ((n.toNat % 2 ^ t.bits : Nat) : Int) := by norm_cast
  rw [uintOf, conv_emod, cast, Int.toNat_natCast, Nat.toUInt64, UInt64.toNat_ofNat_of_lt small, conv_mod]

def renderPriority (field : IntType) (priority : SyslogPrority) : List Content :=
  [.uint .syslogPriFacility (uintOf field priority.facility),
   .uint .syslogPriSeverity (uintOf field priority.severity)]

theorem parseSyslogPriority_render (field : IntType) (o : CfgSyslog) {priority : SyslogPrority}
    (kept : PriorityKept field priority) :
    parseSyslogPriority field o (renderPriority field priority) = .ok { o with priority } := by
  obtain ⟨f, s, rfl, facility, severity⟩ := kept
  simp [parseSyslogPriority, renderPriority, syslogPriorityStep, Content.id, Content.valUint, ok_bind,
    conv_uintOf, not_lt.mpr facility, not_lt.mpr severity]
  rfl

/-- A `<tcp>` or `<udp>` element; the port and flag the schema requires are always
    written. -/
def renderSocket : SyslogSocket → Content
  | .tcp hostname port blocking => .context .syslogTcp [.string .syslogTcpHost hostname,
      .uint .syslogTcpPort (port.getD 0).toUInt64, .bool .syslogTcpBlock (blocking.getD false)]
  | .udp hostname port => .context .syslogUdp [.string .syslogUdpHost hostname,
      .uint .syslogUdpPort (port.getD 0).toUInt64]

theorem parseSyslogTransport_render (o : CfgSyslog) {sock : SyslogSocket} (valid : SocketValid sock) :
    parseSyslogTransport o [renderSocket sock] = .ok { o with transport := some sock } := by
  cases sock with
  | tcp hostname port blocking =>
    obtain ⟨⟨p, rfl, pos, -⟩, assigned⟩ := valid
    obtain ⟨b, rfl⟩ := Option.isSome_iff_exists.mp assigned
    simp [parseSyslogTransport, renderSocket, syslogTransportStep, Content.id, Content.ptrCtx, ok_bind,
      parseSyslogTcp, syslogTcpStep, Content.ptrString, Content.valBool, checkPort_render _ _ pos]
  | udp hostname port =>
    obtain ⟨p, rfl, pos, -⟩ := valid
    simp [parseSyslogTransport, renderSocket, syslogTransportStep, Content.id, Content.ptrCtx, ok_bind,
      parseSyslogUdp, syslogUdpStep, Content.ptrString, checkPort_render _ _ pos]

private theorem utf8EncodeChar_ascii {c : Char} (small : c.toNat ≤ 127) :
    String.utf8EncodeChar c = [c.val.toUInt8] ∧ c.val.toUInt8.toNat = c.toNat := by
  have below : c.val.toNat ≤ 127 := small
  refine ⟨if_pos below, ?_⟩
  simp only [UInt32.toUInt8, Nat.toUInt8, UInt8.ofNat, UInt8.toNat, BitVec.toNat_ofNat]
  have : c.toNat = c.val.toNat := rfl
  omega

/-- A program of printable ASCII characters passes `is_syslog_ascii`. -/
theorem isSyslogAscii_of_chars {str : String} (printable : ∀ c ∈ str.toList, 33 ≤ c.toNat ∧ c.toNat ≤ 126) :
    isSyslogAscii str = true := by
  simp only [isSyslogAscii, String.toUTF8]
  simp
  intro c mem b byte
  obtain ⟨one, value⟩ := @utf8EncodeChar_ascii c (by have := printable c mem; omega)
  rw [one, List.mem_singleton] at byte
  subst byte
  rw [value]
  exact printable c mem

/-- The word `parse_syslog` reads as each hostname type. -/
def renderHostname : SyslogHostname → String
  | .none => "none"
  | .localHost => "local"

def renderSyslog (field : IntType) (o : CfgSyslog) : Content :=
  .context .outputSyslog [.string .syslogName o.name, .string .syslogHostname (renderHostname o.hostname),
    .string .syslogProgram o.program, .bool .syslogProcid o.procId,
    .context .syslogPri (renderPriority field o.priority),
    .context .syslogTransport (o.transport.map renderSocket).toList]

theorem outputsStep_renderSyslog (P : Platform) (outputs : CfgOutputs) {o : CfgSyslog}
    (kept : SyslogKept P.priorityField o) :
    outputsStep P outputs (renderSyslog P.priorityField o) =
      .ok { outputs with syslogs := outputs.syslogs ++ [o] } := by
  obtain ⟨sock, transport, valid⟩ := kept.valid.transport
  have ascii := isSyslogAscii_of_chars kept.valid.program.2
  have short : ¬ SYSLOG_APPNAME_MAX_LEN < o.program.utf8ByteSize := by
    rw [(isSyslogAscii_chars ascii).1]
    exact not_lt.mpr kept.valid.program.1
  have differ : strcasecmpEq "local" "none" = false := by decide
  rcases o with ⟨name, priority, hostname, program, procId, transport'⟩
  cases transport
  cases hostname <;>
  simp [outputsStep, renderSyslog, Content.ptrCtx, ok_bind, parseSyslog, syslogStep, syslogDefaults,
    Content.id, Content.ptrString, Content.valBool, renderHostname, strcasecmpEq_self, differ,
    parseSyslogPriority_render _ _ kept.priority, parseSyslogTransport_render _ valid, ascii, short]
  all_goals rfl

/-! ### The whole document -/

/-- A loop whose step appends the rendered value to one list of the state, whatever the
    state, appends them all. -/
theorem foldlM_map_append {σ α : Type} {step : σ → Content → Except Error σ} (render : α → Content)
    (get : σ → List α) (set : σ → List α → σ) (get_set : ∀ s l, get (set s l) = l)
    (set_set : ∀ s l l', set (set s l) l' = set s l') (set_get : ∀ s, set s (get s) = s)
    {xs : List α} (init : σ) (each : ∀ s, ∀ x ∈ xs, step s (render x) = .ok (set s (get s ++ [x]))) :
    (xs.map render).foldlM step init = .ok (set init (get init ++ xs)) := by
  induction xs generalizing init with
  | nil => simp [set_get]; rfl
  | cons x xs ih =>
    rw [List.map_cons, foldlM_cons_ok (each init x (.head _)), ih _ fun s y mem => each s y (.tail _ mem),
      get_set, set_set, List.append_assoc, List.singleton_append]

/-- The children of `<outputs>`, kind by kind. -/
def renderOutputs (P : Platform) (outputs : CfgOutputs) : List Content :=
  outputs.prints.map renderPrint ++ outputs.servers.map renderServer ++ outputs.sends.map renderSend ++
    outputs.files.map renderFile ++ outputs.kafkas.map (renderKafka P.rdKafkaPartitionUa) ++
    outputs.syslogs.map (renderSyslog P.priorityField)

/-- `parse_outputs` gives back outputs of each kind the constructor keeps. -/
theorem parseOutputs_render (P : Platform) {outputs : CfgOutputs} (each : EachKept P outputs) :
    parseOutputs P ⟨[], [], [], [], [], []⟩ (renderOutputs P outputs) = .ok outputs := by
  have prints := fun init => foldlM_map_append renderPrint CfgOutputs.prints (fun o l => { o with prints := l })
    (fun _ _ => rfl) (fun _ _ _ => rfl) (fun _ => rfl) init
    fun s o mem => outputsStep_renderPrint P s (each.prints o mem)
  have servers := fun init => foldlM_map_append renderServer CfgOutputs.servers (fun o l => { o with servers := l })
    (fun _ _ => rfl) (fun _ _ _ => rfl) (fun _ => rfl) init
    fun s o mem => outputsStep_renderServer P s (each.servers o mem)
  have sends := fun init => foldlM_map_append renderSend CfgOutputs.sends (fun o l => { o with sends := l })
    (fun _ _ => rfl) (fun _ _ _ => rfl) (fun _ => rfl) init
    fun s o mem => outputsStep_renderSend P s (each.sends o mem)
  have files := fun init => foldlM_map_append renderFile CfgOutputs.files (fun o l => { o with files := l })
    (fun _ _ => rfl) (fun _ _ _ => rfl) (fun _ => rfl) init
    fun s o mem => outputsStep_renderFile P s (each.files o mem)
  have kafkas := fun init => foldlM_map_append (renderKafka P.rdKafkaPartitionUa) CfgOutputs.kafkas
    (fun o l => { o with kafkas := l }) (fun _ _ => rfl) (fun _ _ _ => rfl) (fun _ => rfl) init
    fun s o mem => outputsStep_renderKafka P s (each.kafkas o mem)
  have syslogs := fun init => foldlM_map_append (renderSyslog P.priorityField) CfgOutputs.syslogs
    (fun o l => { o with syslogs := l }) (fun _ _ => rfl) (fun _ _ _ => rfl) (fun _ => rfl) init
    fun s o mem => outputsStep_renderSyslog P s (each.syslogs o mem)
  simp only [parseOutputs, renderOutputs, List.foldlM_append, prints, servers, sends, files, kafkas, syslogs,
    ok_bind]
  rfl

/-- The format flags in the order `args_params` declares them. -/
def allFlags : List Flag :=
  [.tcpFlags, .timestamp, .proto, .ignoreUnknown, .ignoreOptions, .whiteSpaces, .numericNames,
   .octetsAsUint, .splitBiflow, .detailedInfo, .templateInfo]

/-- The element of a flag: one of its two words, or a boolean. -/
def renderFlag (format : CfgFormat) (f : Flag) : Content :=
  match flagWords f with
  | some (yes, no) => .string f.node (if format.flag f then yes else no)
  | none => .bool f.node (format.flag f)

/-- The children of `<params>` that give a configuration: every flag, then `<outputs>`. -/
def render (P : Platform) (cfg : Config) : List Content :=
  allFlags.map (renderFlag cfg.format) ++ [.context .outputList (renderOutputs P cfg.outputs)]

theorem parseParams_renderFlags (P : Platform) (cfg : Config) (format : CfgFormat) :
    parseParams P cfg (allFlags.map (renderFlag format)) = .ok { cfg with format } := by
  have raw := checkOr_render "tcpFlags" (by decide : strcasecmpEq "raw" "formatted" = false)
  have unix := checkOr_render "timestamp" (by decide : strcasecmpEq "unix" "formatted" = false)
  have proto := checkOr_render "protocol" (by decide : strcasecmpEq "raw" "formatted" = false)
  simp [parseParams, allFlags, renderFlag, flagWords, Flag.node, CfgFormat.flag, paramsStep, Content.id,
    Content.ptrString, Content.valBool, ok_bind, raw, unix, proto]

theorem parseParams_render (P : Platform) {cfg : Config} (each : EachKept P cfg.outputs) :
    parseParams P defaultSet (render P cfg) = .ok cfg := by
  rw [render, parseParams, List.foldlM_append, ← parseParams, parseParams_renderFlags, ok_bind]
  simp [paramsStep, Content.id, Content.ptrCtx, ok_bind, defaultSet, parseOutputs_render P each]

/-! ### The rendered document conforms and can be handed over

The element ids and types of a rendering do not depend on the values it writes, so each
level is checked by evaluation; only the lists of properties and of outputs need a lemma.
A rendering holds the texts of the configuration, the words the parsers compare with,
and the decimal text of a partition, so its texts are ones the XML parser can hand over
whenever those of the configuration are. -/

/-- Only the entry `property` of `args_kafka` counts the rendered properties. -/
private theorem countP_renderProperty (props : List (String × String)) (a : Node) :
    (props.map renderProperty).countP (fun c => c.id == a) =
      if a = .kafkaProperty then props.length else 0 := by
  induction props with
  | nil => simp
  | cons p ps ih =>
    split_ifs at ih ⊢ with h
    · simp [List.countP_cons, renderProperty, Content.id, h, ih]
    · simp [List.countP_cons, renderProperty, Content.id, Ne.symm h, ih]

theorem renderKafka_conforms (ua : Int) (o : CfgKafka) : (renderKafka ua o).conforms = true := by
  rw [renderKafka, Content.conforms]
  simp only [nestedArgs, levelConforms, conformsAll_append, List.all_append, List.countP_append,
    countP_renderProperty, Bool.and_eq_true]
  refine ⟨⟨⟨⟨rfl, List.all_eq_true.mpr fun c mem => ?_⟩, rfl⟩, rfl⟩, rfl, conformsAll_iff.mpr fun c mem => ?_⟩ <;>
  · obtain ⟨p, -, rfl⟩ := List.mem_map.mp mem
    rfl

theorem renderSyslog_conforms (field : IntType) (o : CfgSyslog) : (renderSyslog field o).conforms = true := by
  rcases o with ⟨name, priority, hostname, program, procId, _ | _ | _⟩ <;> rfl

theorem renderOutputs_conforms (P : Platform) (outputs : CfgOutputs) :
    (Content.context .outputList (renderOutputs P outputs)).conforms = true := by
  rw [Content.conforms]
  simp only [nestedArgs, levelConforms, Bool.and_eq_true]
  refine ⟨⟨⟨List.all_eq_true.mpr fun c mem => ?_, rfl⟩, rfl⟩, conformsAll_iff.mpr fun c mem => ?_⟩ <;>
  · simp only [renderOutputs, List.mem_append, List.mem_map, or_assoc] at mem
    rcases mem with ⟨o, -, rfl⟩ | ⟨o, -, rfl⟩ | ⟨o, -, rfl⟩ | ⟨o, -, rfl⟩ | ⟨o, -, rfl⟩ | ⟨o, -, rfl⟩ <;>
    first | rfl | exact renderKafka_conforms _ o | exact renderSyslog_conforms _ o

/-- The rendering of any configuration conforms to `args_params`, at every depth. -/
theorem render_conforms (P : Platform) (cfg : Config) : documentConforms (render P cfg) = true := by
  simp only [documentConforms, render, Bool.and_eq_true, conformsAll_append]
  exact ⟨rfl, rfl, by simp only [conformsAll, renderOutputs_conforms, Bool.and_self]⟩

private theorem xmlText_digits {s : String} (digits : ∀ c ∈ s.toList, c.isDigit = true) : xmlText s = true :=
  xmlText_of_chars fun c mem => by
    have := isDigit_toNat (digits c mem)
    simp only [xmlChar, xmlSpace, Bool.or_eq_true, Bool.and_eq_true, decide_eq_true_eq, Bool.or_eq_false_iff,
      decide_eq_false_iff_not]
    omega

theorem xmlText_partition {ua p : Int} (range : p = ua ∨ 0 ≤ p ∧ p ≤ INT_MAX) :
    xmlText (renderPartition ua p) = true := by
  unfold renderPartition
  split_ifs with same
  · decide
  · obtain ⟨n, rfl⟩ := Int.eq_ofNat_of_zero_le (range.resolve_left same).1
    exact xmlText_digits (toString_digits n).2.1

private theorem textsAll_renderProperty (ps : List (String × String)) :
    textsAll (ps.map renderProperty) = ps.flatMap fun p => [p.1, p.2] := by
  induction ps with
  | nil => rfl
  | cons p ps ih => simp only [List.map_cons, textsAll, ih]; rfl

theorem renderKafka_delivered (ua : Int) {o : CfgKafka} (own : ∀ t ∈ o.texts, xmlText t = true)
    (range : o.partition = ua ∨ 0 ≤ o.partition ∧ o.partition ≤ INT_MAX) :
    ∀ t ∈ (renderKafka ua o).texts, xmlText t = true := by
  simp only [CfgKafka.texts, List.forall_mem_append, List.forall_mem_cons, List.not_mem_nil, false_implies,
    implies_true, and_true] at own
  obtain ⟨⟨name, brokers, topic, fallback⟩, properties⟩ := own
  rw [renderKafka, Content.texts, textsAll_append, textsAll_renderProperty]
  exact List.forall_mem_append.mpr ⟨by simp [textsAll, Content.texts, name, brokers, topic, fallback,
    xmlText_partition range], properties⟩

theorem renderSend_delivered {o : CfgSend} (own : ∀ t ∈ o.texts, xmlText t = true) :
    ∀ t ∈ (renderSend o).texts, xmlText t = true := by
  rw [show (renderSend o).texts = o.texts ++ [renderProto o.proto] from rfl]
  exact List.forall_mem_append.mpr ⟨own, List.forall_mem_singleton.mpr (by cases o.proto <;> decide)⟩

theorem renderFile_delivered {o : CfgFile} (own : ∀ t ∈ o.texts, xmlText t = true) :
    ∀ t ∈ (renderFile o).texts, xmlText t = true := by
  rw [show (renderFile o).texts = o.texts ++ [renderCalg o.mCalg] from rfl]
  exact List.forall_mem_append.mpr ⟨own, List.forall_mem_singleton.mpr (by cases o.mCalg <;> decide)⟩

theorem renderSyslog_delivered (field : IntType) {o : CfgSyslog} (own : ∀ t ∈ o.texts, xmlText t = true) :
    ∀ t ∈ (renderSyslog field o).texts, xmlText t = true := by
  have texts : (renderSyslog field o).texts =
      [o.name, renderHostname o.hostname, o.program] ++ (o.transport.map SyslogSocket.hostname).toList := by
    rcases o with ⟨_, _, _, _, _, _ | ⟨⟩ | ⟨⟩⟩ <;> rfl
  simp only [CfgSyslog.texts, List.forall_mem_append, List.forall_mem_cons, List.not_mem_nil, false_implies,
    implies_true, and_true] at own
  obtain ⟨⟨name, program⟩, socket⟩ := own
  have word : xmlText (renderHostname o.hostname) = true := by cases o.hostname <;> decide
  rw [texts]
  exact List.forall_mem_append.mpr ⟨by simp [name, program, word], socket⟩

theorem renderFlag_delivered (format : CfgFormat) (f : Flag) :
    ∀ t ∈ (renderFlag format f).texts, xmlText t = true := by
  cases f <;> simp only [renderFlag, flagWords] <;> (try split_ifs) <;> first | decide | simp [Content.texts]

/-- The texts of the rendering of a configuration whose outputs the constructor keeps can
    all be handed over. -/
theorem render_delivered (P : Platform) {cfg : Config} (kept : OutputsKept P cfg.outputs) :
    (textsAll (render P cfg)).all xmlText = true := by
  refine List.all_eq_true.mpr fun t mem => ?_
  rw [render, textsAll_append] at mem
  rcases List.mem_append.mp mem with flag | outputs
  · obtain ⟨c, mem, rendered⟩ := mem_textsAll.mp flag
    obtain ⟨f, -, rfl⟩ := List.mem_map.mp mem
    exact renderFlag_delivered _ f t rendered
  · obtain ⟨c, single, rendered⟩ := mem_textsAll.mp outputs
    obtain rfl := List.mem_singleton.mp single
    obtain ⟨d, mem, rendered⟩ := mem_textsAll.mp rendered
    have texts := fun t mem => kept.texts t (CfgOutputs.mem_texts.mpr mem)
    simp only [renderOutputs, List.mem_append, List.mem_map, or_assoc] at mem
    rcases mem with ⟨o, mem, rfl⟩ | ⟨o, mem, rfl⟩ | ⟨o, mem, rfl⟩ | ⟨o, mem, rfl⟩ | ⟨o, mem, rfl⟩ |
      ⟨o, mem, rfl⟩
    · exact texts t (.inl ⟨o, mem, rendered⟩)
    · exact texts t (.inr (.inl ⟨o, mem, rendered⟩))
    · exact renderSend_delivered (fun t own => texts t (.inr (.inr (.inl ⟨o, mem, own⟩)))) t rendered
    · exact renderFile_delivered (fun t own => texts t (.inr (.inr (.inr (.inl ⟨o, mem, own⟩))))) t rendered
    · exact renderKafka_delivered _ (fun t own => texts t (.inr (.inr (.inr (.inr (.inl ⟨o, mem, own⟩))))))
        (kept.each.kafkas o mem).valid.partition t rendered
    · exact renderSyslog_delivered _ (fun t own => texts t (.inr (.inr (.inr (.inr (.inr ⟨o, mem, own⟩))))))
        t rendered

/-- The constructor returns every configuration it keeps from the rendering of it. -/
theorem ofParams_render (P : Platform) {cfg : Config} (kept : OutputsKept P cfg.outputs) :
    Config.ofParams P (.ok (render P cfg)) = .ok cfg :=
  ofParams_iff.mpr ⟨parseParams_render P kept.each,
    (checkValidity_ok_iff cfg.outputs).mpr ⟨kept.count, kept.print, kept.names⟩⟩

/-- The configurations `Config::Config` returns from some document that conforms to the
    schema and whose texts the XML parser can hand over are exactly those whose outputs it
    keeps. -/
theorem ofParams_image (P : Platform) (cfg : Config) :
    (∃ params, documentConforms params = true ∧ (textsAll params).all xmlText = true ∧
        Config.ofParams P (.ok params) = .ok cfg) ↔
      OutputsKept P cfg.outputs :=
  ⟨fun ⟨_, conform, delivered, ok⟩ => ofParams_kept conform delivered ok,
   fun kept => ⟨render P cfg, render_conforms P cfg, render_delivered P kept, ofParams_render P kept⟩⟩

end JsonConfig.Render
