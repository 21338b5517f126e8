import JsonConfig.Kafka
import JsonConfig.Syslog

/-!
# The configuration

`Config::Config` resets the configuration (`default_set`), folds `parse_params` over the
children of `<params>`, where `<outputs>` runs `parse_outputs` and so the parser of each
output, and then runs `check_validity`. Any exception of the parsers or of the check is
rethrown as a `runtime_error` with the prefix "Failed to parse the configuration: ".

`check_validity` shares one `std::set` of names across six loops, one per kind of
output; it returns normally exactly when there is an output, at most one `<print>`, and
no name twice among all of them (`checkValidity_spec`). When the document conforms to
the schema, every output the constructor keeps also meets the checks of its own parser,
and every `<transport>` of the document holds exactly one child (`ofParams_valid`). Each format flag it keeps is the value the last child of `<params>`
that sets it gives, or its `default_set` value (`ofParams_format`). The outputs it keeps
are those the output elements of the document give, each named by its last `<name>`
child, so it accepts exactly when `parse_params` does and the document itself meets the
conditions of `check_validity` (`ofParams_ok_iff`).
-/

namespace JsonConfig.Params
open JsonConfig.Xml JsonConfig.Outputs

/-- The configuration: the format flags and the outputs. -/
structure Config where
  format : CfgFormat
  outputs : CfgOutputs
deriving DecidableEq, Repr

/-- The loop body of `parse_outputs`: every child is a context, parsed by its kind. -/
def outputsStep (P : Platform) (outputs : CfgOutputs) (content : Content) : Except Error CfgOutputs := do
  let ctx ← content.ptrCtx
  match content.id with
  | .outputPrint => parsePrint outputs ctx
  | .outputSend => parseSend P outputs ctx
  | .outputFile => parseFile outputs ctx
  | .outputServer => parseServer outputs ctx
  | .outputKafka => Kafka.parseKafka P.rdKafkaPartitionUa outputs ctx
  | .outputSyslog => Syslog.parseSyslog P.priorityField outputs ctx
  | _ => throw (.invalidArgument "Unexpected element within <outputs>!")

def parseOutputs (P : Platform) (outputs : CfgOutputs) (ctx : List Content) : Except Error CfgOutputs :=
  ctx.foldlM (outputsStep P) outputs

/-- The loop body of `parse_params`. -/
def paramsStep (P : Platform) (cfg : Config) (content : Content) : Except Error Config :=
  match content.id with
  | .fmtTflags => do
    let tcpFlags ← checkOr "tcpFlags" (← content.ptrString) "formatted" "raw"
    return { cfg with format := { cfg.format with tcpFlags } }
  | .fmtTimestamp => do
    let timestamp ← checkOr "timestamp" (← content.ptrString) "formatted" "unix"
    return { cfg with format := { cfg.format with timestamp } }
  | .fmtProto => do
    let proto ← checkOr "protocol" (← content.ptrString) "formatted" "raw"
    return { cfg with format := { cfg.format with proto } }
  | .fmtUnknown => do
    let ignoreUnknown ← content.valBool
    return { cfg with format := { cfg.format with ignoreUnknown } }
  | .fmtOptions => do
    let ignoreOptions ← content.valBool
    return { cfg with format := { cfg.format with ignoreOptions } }
  | .fmtNonprint => do
    let whiteSpaces ← content.valBool
    return { cfg with format := { cfg.format with whiteSpaces } }
  | .fmtNumeric => do
    let numericNames ← content.valBool
    return { cfg with format := { cfg.format with numericNames } }
  | .fmtOctetasuint => do
    let octetsAsUint ← content.valBool
    return { cfg with format := { cfg.format with octetsAsUint } }
  | .fmtBfsplit => do
    let splitBiflow ← content.valBool
    return { cfg with format := { cfg.format with splitBiflow } }
  | .fmtDetailedinfo => do
    let detailedInfo ← content.valBool
    return { cfg with format := { cfg.format with detailedInfo } }
  | .fmtTmpltinfo => do
    let templateInfo ← content.valBool
    return { cfg with format := { cfg.format with templateInfo } }
  | .outputList => do
    let outputs ← parseOutputs P cfg.outputs (← content.ptrCtx)
    return { cfg with outputs }
  | _ => throw (.invalidArgument "Unexpected element within <params>!")

def parseParams (P : Platform) (cfg : Config) (params : List Content) : Except Error Config :=
  params.foldlM (paramsStep P) cfg

/-- `default_set`: the default format flags and no outputs. -/
def defaultSet : Config :=
  ⟨⟨true, true, true, true, true, true, true, false, false, false, false⟩, ⟨[], [], [], [], [], []⟩⟩

/-- `check_and_add`: a name already in the set throws, another is inserted. -/
def checkAndAdd (names : List String) (name : String) : Except Error (List String) :=
  if names.contains name then throw (.invalidArgument ("Multiple outputs with the same name '" ++ name ++ "'!"))
  else return name :: names

def checkValidity (outputs : CfgOutputs) : Except Error Unit := do
  let outputCnt := outputs.prints.length + outputs.servers.length + outputs.sends.length +
    outputs.files.length + outputs.kafkas.length + outputs.syslogs.length
  if outputCnt == 0 then throw (.invalidArgument "At least one output must be defined!")
  if outputs.prints.length > 1 then throw (.invalidArgument "Multiple <print> outputs are not allowed!")
  let names ← outputs.prints.foldlM (fun names print => checkAndAdd names print.name) []
  let names ← outputs.sends.foldlM (fun names send => checkAndAdd names send.name) names
  let names ← outputs.servers.foldlM (fun names server => checkAndAdd names server.name) names
  let names ← outputs.files.foldlM (fun names file => checkAndAdd names file.name) names
  let names ← outputs.kafkas.foldlM (fun names kafka => checkAndAdd names kafka.name) names
  let _ ← outputs.syslogs.foldlM (fun names syslog => checkAndAdd names syslog.name) names
  return ()

/-- The message of an exception the constructor rethrows; a failed `assert` aborts. -/
def rethrow : Error → Error
  | .invalidArgument what => .runtimeError ("Failed to parse the configuration: " ++ what)
  | .runtimeError what => .runtimeError ("Failed to parse the configuration: " ++ what)
  | .assertion => .assertion

/-- `Config::Config(params)`, given what `fds_xml_parse_mem` makes of `params` with
    `args_params`: the message of `fds_xml_last_err`, or the children of `<params>`. -/
def Config.ofParams (P : Platform) (params : Except String (List Content)) : Except Error Config :=
  match params with
  | .error err => .error (.runtimeError ("Failed to parse the configuration: " ++ err))
  | .ok paramsCtx =>
    match (do
        let cfg ← parseParams P defaultSet paramsCtx
        checkValidity cfg.outputs
        return cfg) with
    | .ok cfg => .ok cfg
    | .error e => .error (rethrow e)

/-! ### What `check_validity` and the constructor accept -/

private theorem foldlM_checkAndAdd (l names : List String) (nodup : names.Nodup) (r : List String) :
    l.foldlM checkAndAdd names = .ok r ↔ r = l.reverse ++ names ∧ (l.reverse ++ names).Nodup := by
  induction l generalizing names with
  | nil => exact ⟨fun run => ⟨(Except.ok.inj run).symm, nodup⟩, fun ⟨same, _⟩ => same ▸ rfl⟩
  | cons x l ih =>
    by_cases known : x ∈ names
    · have first : checkAndAdd names x =
          .error (.invalidArgument ("Multiple outputs with the same name '" ++ x ++ "'!")) := by
        simp [checkAndAdd, known]; rfl
      rw [foldlM_cons_error first]
      refine iff_of_false (by simp) fun ⟨_, nodup'⟩ => ?_
      simp only [List.reverse_cons, List.append_assoc, List.singleton_append] at nodup'
      exact (List.nodup_cons.mp (List.nodup_append.mp nodup').2.1).1 known
    · have first : checkAndAdd names x = .ok (x :: names) := by simp [checkAndAdd, known]; rfl
      rw [foldlM_cons_ok first, ih (x :: names) (List.nodup_cons.mpr ⟨known, nodup⟩)]
      simp only [List.reverse_cons, List.append_assoc, List.singleton_append]

/-- Past its two counts, `check_validity` is one loop over the names, kind by kind in
    the order of the code. -/
private theorem checkValidity_loops (outputs : CfgOutputs) (nonempty : outputs.count ≠ 0)
    (onePrint : outputs.prints.length ≤ 1) :
    checkValidity outputs = (outputs.prints.map CfgPrint.name ++ outputs.sends.map CfgSend.name ++
        outputs.servers.map CfgServer.name ++ outputs.files.map CfgFile.name ++
        outputs.kafkas.map CfgKafka.name ++ outputs.syslogs.map CfgSyslog.name).foldlM
          checkAndAdd [] >>= fun _ => pure () := by
  simp only [CfgOutputs.count] at nonempty
  simp only [checkValidity, beq_iff_eq, nonempty, if_false, gt_iff_lt, Nat.not_lt.mpr onePrint,
    List.foldlM_append, List.foldlM_map, bind_assoc, pure_bind]

/-- The names in the order of the code are the names kind by kind, `<send>` and
    `<server>` swapped. -/
private theorem code_names_perm (outputs : CfgOutputs) :
    (outputs.prints.map CfgPrint.name ++ outputs.sends.map CfgSend.name ++
      outputs.servers.map CfgServer.name ++ outputs.files.map CfgFile.name ++
      outputs.kafkas.map CfgKafka.name ++ outputs.syslogs.map CfgSyslog.name).Perm outputs.names := by
  simp only [CfgOutputs.names, List.append_assoc]
  exact List.Perm.append_left _ (List.perm_append_comm_assoc _ _ _)

theorem checkValidity_ok_iff (outputs : CfgOutputs) :
    checkValidity outputs = .ok () ↔
      1 ≤ outputs.count ∧ outputs.prints.length ≤ 1 ∧ outputs.names.Nodup := by
  by_cases empty : outputs.count = 0
  · refine iff_of_false ?_ fun ⟨positive, _⟩ => by omega
    simp only [CfgOutputs.count] at empty
    simp [checkValidity, empty, throw, throwThe, MonadExceptOf.throw, bind, Except.bind]
  by_cases many : outputs.prints.length > 1
  · refine iff_of_false ?_ fun ⟨_, one, _⟩ => by omega
    simp only [CfgOutputs.count] at empty
    simp [checkValidity, empty, many, throw, throwThe, MonadExceptOf.throw, bind, Except.bind, pure,
      Except.pure]
  rw [checkValidity_loops outputs empty (by omega), ← (code_names_perm outputs).nodup_iff,
    ← List.nodup_reverse]
  constructor
  · intro ok
    obtain ⟨r, run, -⟩ := bind_ok.mp ok
    have nodup := ((foldlM_checkAndAdd _ [] List.nodup_nil r).mp run).2
    exact ⟨by omega, by omega, by simpa using nodup⟩
  · rintro ⟨-, -, nodup⟩
    exact bind_ok.mpr ⟨_, (foldlM_checkAndAdd _ [] List.nodup_nil _).mpr ⟨rfl, by simpa using nodup⟩, rfl⟩

theorem ofParams_ok {P : Platform} {params : Except String (List Content)} {cfg : Config}
    (ok : Config.ofParams P params = .ok cfg) :
    ∃ paramsCtx, params = .ok paramsCtx ∧ parseParams P defaultSet paramsCtx = .ok cfg ∧
      checkValidity cfg.outputs = .ok () := by
  unfold Config.ofParams at ok
  split at ok
  · cases ok
  · next paramsCtx =>
    split at ok
    · next run =>
      cases ok
      obtain ⟨cfg', parsed, rest⟩ := bind_ok.mp run
      obtain ⟨u, checked, done⟩ := bind_ok.mp rest
      cases pure_ok.mp done
      exact ⟨paramsCtx, rfl, parsed, checked⟩
    · cases ok

/-- On a parsed document the constructor returns what `parse_params` returns from
    `default_set`, when `check_validity` accepts its outputs. -/
theorem ofParams_iff {P : Platform} {params : List Content} {cfg : Config} :
    Config.ofParams P (.ok params) = .ok cfg ↔
      parseParams P defaultSet params = .ok cfg ∧ checkValidity cfg.outputs = .ok () := by
  refine ⟨fun ok => ?_, fun ⟨run, valid⟩ => ?_⟩
  · obtain ⟨_, same, run, valid⟩ := ofParams_ok ok
    cases same
    exact ⟨run, valid⟩
  · simp [Config.ofParams, run, valid, bind, Except.bind, pure, Except.pure]

theorem checkValidity_spec :
    (∀ outputs : CfgOutputs, checkValidity outputs = .ok () ↔
      1 ≤ outputs.count ∧ outputs.prints.length ≤ 1 ∧ outputs.names.Nodup) ∧
    ∀ (P : Platform) (params : Except String (List Content)) (cfg : Config),
      Config.ofParams P params = .ok cfg →
        1 ≤ cfg.outputs.count ∧ cfg.outputs.prints.length ≤ 1 ∧ cfg.outputs.names.Nodup :=
  ⟨checkValidity_ok_iff, fun _ _ _ ok => by
    obtain ⟨_, -, -, checked⟩ := ofParams_ok ok
    exact (checkValidity_ok_iff _).mp checked⟩

theorem checkValidity_spec_print_kafka :
    ∃ cfg, Config.ofParams ⟨fun _ => false, fun _ => false, -1, ⟨32, true⟩⟩
      (.ok [.context .outputList [.context .outputPrint [.string .printName "print"],
        .context .outputKafka [.string .kafkaName "kafka", .string .kafkaBrokers "localhost",
          .string .kafkaTopic "ipfix"]]]) = .ok cfg ∧
      1 ≤ cfg.outputs.count ∧ cfg.outputs.prints.length ≤ 1 ∧ cfg.outputs.names.Nodup :=
  ⟨_, rfl, checkValidity_spec.2 ⟨fun _ => false, fun _ => false, -1, ⟨32, true⟩⟩
    (.ok [.context .outputList [.context .outputPrint [.string .printName "print"],
      .context .outputKafka [.string .kafkaName "kafka", .string .kafkaBrokers "localhost",
        .string .kafkaTopic "ipfix"]]]) _ rfl⟩

/-! ### What the parsers of the outputs make sure of -/

/-- Every output meets the checks of its own parser. -/
structure OutputsValid (P : Platform) (outputs : CfgOutputs) : Prop where
  servers : ∀ s ∈ outputs.servers, s.Valid
  sends : ∀ s ∈ outputs.sends, s.Valid P
  files : ∀ f ∈ outputs.files, f.Valid
  kafkas : ∀ k ∈ outputs.kafkas, Kafka.Valid P.rdKafkaPartitionUa k
  syslogs : ∀ s ∈ outputs.syslogs, Syslog.Valid s

theorem forall_mem_append_singleton {α : Type} {Q : α → Prop} {l : List α} {x : α}
    (old : ∀ y ∈ l, Q y) (new : Q x) : ∀ y ∈ l ++ [x], Q y :=
  List.forall_mem_append.mpr ⟨old, List.forall_mem_singleton.mpr new⟩

/-- A step of `parse_outputs` on a conforming child appends a valid output. -/
private theorem outputsStep_valid {P : Platform} {o o' : CfgOutputs} {c : Content}
    (conform : c.conforms = true) (step : outputsStep P o c = .ok o') (valid : OutputsValid P o) :
    OutputsValid P o' := by
  obtain ⟨ctx, read, step⟩ := bind_ok.mp step
  have shape := Content.ptrCtx_ok rfl read
  rw [shape] at conform
  obtain ⟨level, children⟩ := context_conforms conform
  split at step
  · obtain ⟨_, -, -, -, rfl⟩ := parsePrint_ok step
    exact { valid with }
  · obtain ⟨output, fine, rfl⟩ := parseSend_valid step
    exact { valid with sends := forall_mem_append_singleton valid.sends fine }
  · obtain ⟨output, fine, rfl⟩ := parseFile_valid step
    exact { valid with files := forall_mem_append_singleton valid.files fine }
  · next same =>
    rw [same] at level
    obtain ⟨output, fine, rfl⟩ := parseServer_valid level step
    exact { valid with servers := forall_mem_append_singleton valid.servers fine }
  · obtain ⟨output, fine, rfl⟩ := Kafka.parseKafka_valid step
    exact { valid with kafkas := forall_mem_append_singleton valid.kafkas fine }
  · obtain ⟨output, fine, rfl⟩ := Syslog.parseSyslog_valid children step
    exact { valid with syslogs := forall_mem_append_singleton valid.syslogs fine }
  · cases step

/-- What a step of `parse_params` can do to the outputs: keep them, or run
    `parse_outputs` on the children of `<outputs>`. -/
theorem paramsStep_outputs {P : Platform} {cfg cfg' : Config} {c : Content}
    (step : paramsStep P cfg c = .ok cfg') :
    cfg'.outputs = cfg.outputs ∨
      ∃ ctx, c = .context .outputList ctx ∧ parseOutputs P cfg.outputs ctx = .ok cfg'.outputs := by
  unfold paramsStep at step
  split at step <;> rename_i same <;> try cases step
  all_goals obtain ⟨x, read, done⟩ := bind_ok.mp step
  all_goals first
    | cases pure_ok.mp done; exact .inl rfl
    | obtain ⟨y, -, done⟩ := bind_ok.mp done; cases pure_ok.mp done; exact .inl rfl
    | obtain ⟨outputs, run, done⟩ := bind_ok.mp done
      cases pure_ok.mp done
      exact .inr ⟨x, Content.ptrCtx_ok same read, run⟩

private theorem paramsStep_outputList {P : Platform} {cfg cfg' : Config} {outputs : List Content}
    (step : paramsStep P cfg (.context .outputList outputs) = .ok cfg') :
    parseOutputs P cfg.outputs outputs = .ok cfg'.outputs := by
  obtain ⟨_, run, done⟩ := bind_ok.mp (show (parseOutputs P cfg.outputs outputs >>= fun outputs =>
    pure { cfg with outputs }) = .ok cfg' from step)
  cases pure_ok.mp done
  exact run

private theorem outputsStep_syslog {P : Platform} {o o' : CfgOutputs} {syslog : List Content}
    (step : outputsStep P o (.context .outputSyslog syslog) = .ok o') :
    Syslog.parseSyslog P.priorityField o syslog = .ok o' := step

/-- A step of `parse_params` on a conforming child keeps the outputs valid. -/
private theorem paramsStep_valid {P : Platform} {cfg cfg' : Config} {c : Content}
    (conform : c.conforms = true) (step : paramsStep P cfg c = .ok cfg')
    (valid : OutputsValid P cfg.outputs) : OutputsValid P cfg'.outputs := by
  rcases paramsStep_outputs step with same | ⟨ctx, rfl, run⟩
  · exact same ▸ valid
  · exact foldlM_inv (OutputsValid P) valid
      (fun _ d _ mem valid' step' => outputsStep_valid ((context_conforms conform).2 d mem) step' valid') run

/-- Every `<transport>` of every `<syslog>` output of the document holds exactly one
    child, a `<tcp>` or a `<udp>`. -/
def OneTransport (params : List Content) : Prop :=
  ∀ outputs, Content.context .outputList outputs ∈ params →
    ∀ syslog, Content.context .outputSyslog syslog ∈ outputs →
      ∀ ts, Content.context .syslogTransport ts ∈ syslog → ∃ t, ts = [t] ∧ (t.id = .syslogTcp ∨ t.id = .syslogUdp)

/-- Every `<syslog>` element of a conforming document that `parse_params` accepts went
    through `parse_syslog`, which lets one `<transport>` child through, itself with one
    child. -/
theorem parseParams_oneTransport {P : Platform} {cfg cfg' : Config} {params : List Content}
    (conform : ∀ c ∈ params, c.conforms = true) (run : parseParams P cfg params = .ok cfg') :
    OneTransport params := by
  intro outputs mem syslog mem'
  obtain ⟨_, _, step⟩ := foldlM_each run _ mem
  obtain ⟨_, _, step'⟩ := foldlM_each (paramsStep_outputList step) _ mem'
  exact Syslog.parseSyslog_oneTransport (context_conforms ((context_conforms (conform _ mem)).2 _ mem')).1
    (outputsStep_syslog step')

/-- Every output of a configuration the constructor returns from a conforming document
    passed the checks of its parser, and every `<transport>` of the document held one
    child. -/
theorem ofParams_valid (P : Platform) (params : List Content) (cfg : Config)
    (conform : documentConforms params = true) (ok : Config.ofParams P (.ok params) = .ok cfg) :
    OutputsValid P cfg.outputs ∧ OneTransport params := by
  obtain ⟨paramsCtx, same, run, -⟩ := ofParams_ok ok
  cases same
  simp only [documentConforms, Bool.and_eq_true, conformsAll_iff] at conform
  exact ⟨foldlM_inv (fun cfg : Config => OutputsValid P cfg.outputs)
    (by constructor <;> simp [defaultSet])
    (fun _ c _ mem valid step => paramsStep_valid (conform.2 c mem) step valid) run,
    parseParams_oneTransport conform.2 run⟩

/-- A conforming document with a `<server>` and a `<syslog>` output. -/
def serverSyslogParams : List Content :=
  [.context .outputList [
    .context .outputServer [.string .serverName "server", .uint .serverPort 4739, .bool .serverBlock false],
    .context .outputSyslog [.string .syslogName "syslog", .context .syslogTransport
      [.context .syslogUdp [.string .syslogUdpHost "localhost", .uint .syslogUdpPort 514]]]]]

theorem ofParams_valid_server_syslog :
    documentConforms serverSyslogParams = true ∧
      ∃ cfg, Config.ofParams ⟨fun _ => false, fun _ => false, -1, ⟨32, true⟩⟩ (.ok serverSyslogParams) =
        .ok cfg ∧ OutputsValid ⟨fun _ => false, fun _ => false, -1, ⟨32, true⟩⟩ cfg.outputs ∧
          OneTransport serverSyslogParams :=
  ⟨by decide, _, rfl, ofParams_valid _ serverSyslogParams _ (by decide) rfl⟩

/-- A document that conforms to the schema, with a `<kafka>` or a `<syslog>` output of an
    empty name, is accepted: unlike the other four parsers, `parse_kafka` and
    `parse_syslog` do not check the name. -/
theorem ofParams_empty_name (P : Platform) :
    (documentConforms [.context .outputList [.context .outputKafka [.string .kafkaName "",
        .string .kafkaBrokers "localhost:9092", .string .kafkaTopic "ipfix"]]] = true ∧
      ∃ cfg, Config.ofParams P (.ok [.context .outputList [.context .outputKafka [
        .string .kafkaName "", .string .kafkaBrokers "localhost:9092", .string .kafkaTopic "ipfix"]]]) =
          .ok cfg ∧ ∃ k ∈ cfg.outputs.kafkas, k.name = "") ∧
    (documentConforms [.context .outputList [.context .outputSyslog [.string .syslogName "",
        .context .syslogTransport [.context .syslogUdp [.string .syslogUdpHost "localhost",
          .uint .syslogUdpPort 514]]]]] = true ∧
      ∃ cfg, Config.ofParams P (.ok [.context .outputList [.context .outputSyslog [
        .string .syslogName "", .context .syslogTransport [.context .syslogUdp [
          .string .syslogUdpHost "localhost", .uint .syslogUdpPort 514]]]]]) = .ok cfg ∧
        ∃ s ∈ cfg.outputs.syslogs, s.name = "") :=
  ⟨⟨by decide, _, rfl, _, List.mem_singleton_self _, rfl⟩,
    ⟨by decide, _, rfl, _, List.mem_singleton_self _, rfl⟩⟩

/-! ### The format flags and the output elements of the document -/

/-- The value a child of `<params>` gives a flag: a text `check_or` reads gives whether it
    is `formatted`, a boolean gives itself. -/
def flagValue (f : Flag) : Content → Option Bool
  | .string id text => if id = f.node then some (strcasecmpEq text "formatted") else none
  | .bool id value => if id = f.node then some value else none
  | _ => none

/-- The two words `parse_params` passes to `check_or` for a flag set by a text, the one
    for true first. -/
def flagWords : Flag → Option (String × String)
  | .tcpFlags => some ("formatted", "raw")
  | .timestamp => some ("formatted", "unix")
  | .proto => some ("formatted", "raw")
  | _ => none

/-- One step of `parse_params` sets each flag to the value its child gives, if any. -/
private theorem paramsStep_flag {P : Platform} {cfg cfg' : Config} {c : Content}
    (step : paramsStep P cfg c = .ok cfg') (f : Flag) :
    cfg'.format.flag f = (flagValue f c).getD (cfg.format.flag f) := by
  unfold paramsStep at step
  split at step <;> rename_i same <;> try cases step
  all_goals obtain ⟨x, read, rest⟩ := bind_ok.mp step
  all_goals first
    | cases Content.ptrString_ok same read
      obtain ⟨b, words, done⟩ := bind_ok.mp rest
      cases pure_ok.mp done
      obtain ⟨rfl, -⟩ := checkOr_ok words
      cases f <;> rfl
    | cases Content.valBool_ok same read
      cases pure_ok.mp rest
      cases f <;> rfl
    | cases Content.ptrCtx_ok same read
      obtain ⟨outputs, -, done⟩ := bind_ok.mp rest
      cases pure_ok.mp done
      cases f <;> rfl

/-- A step of `parse_params` on a text of a flag takes only one of the flag's two words. -/
private theorem paramsStep_words {P : Platform} {cfg cfg' : Config} {f : Flag} {text yes no : String}
    (words : flagWords f = some (yes, no)) (step : paramsStep P cfg (.string f.node text) = .ok cfg') :
    (strcasecmpEq text yes || strcasecmpEq text no) = true := by
  cases f <;> cases words <;>
  · obtain ⟨x, read, rest⟩ := bind_ok.mp step
    cases read
    obtain ⟨b, ok, -⟩ := bind_ok.mp rest
    exact (checkOr_ok ok).2

/-- Each format flag of the configuration the constructor keeps is the value the last
    child of `<params>` that sets it gives, or else the value `default_set` gives it; and
    every text of a flag set by a text is one of its two words. -/
theorem ofParams_format {P : Platform} {params : List Content} {cfg : Config}
    (ok : Config.ofParams P (.ok params) = .ok cfg) (f : Flag) :
    cfg.format.flag f = lastValue (flagValue f) (defaultSet.format.flag f) params ∧
      ∀ text yes no, flagWords f = some (yes, no) → .string f.node text ∈ params →
        (strcasecmpEq text yes || strcasecmpEq text no) = true := by
  obtain ⟨_, same, run, -⟩ := ofParams_ok ok
  cases same
  refine ⟨foldlM_field (fun cfg : Config => cfg.format.flag f) (flagValue f)
    (fun _ _ _ step => paramsStep_flag step f) run, fun text yes no words mem => ?_⟩
  obtain ⟨s, s', step⟩ := foldlM_each run _ mem
  exact paramsStep_words words step

/-- A document whose `<tcpFlags>` is `RAW`, in capitals. -/
def rawFlagParams : List Content :=
  [.string .fmtTflags "RAW", .context .outputList [.context .outputPrint [.string .printName "print"]]]

/-- A `<tcpFlags>` of `RAW`, ignoring case, clears the flag. -/
theorem ofParams_format_raw :
    ∃ cfg, Config.ofParams ⟨fun _ => false, fun _ => false, -1, ⟨32, true⟩⟩ (.ok rawFlagParams) = .ok cfg ∧
      cfg.format.tcpFlags = false :=
  ⟨_, rfl, (@ofParams_format ⟨fun _ => false, fun _ => false, -1, ⟨32, true⟩⟩ rawFlagParams _ rfl .tcpFlags).1.trans rfl⟩

/-- The `<name>` element of each kind of output element. -/
def nameNode : Node → Option Node
  | .outputPrint => some .printName
  | .outputSend => some .sendName
  | .outputFile => some .fileName
  | .outputServer => some .serverName
  | .outputKafka => some .kafkaName
  | .outputSyslog => some .syslogName
  | _ => none

/-- The output an output element gives: its kind, and the name its parser keeps, the text
    of its last `<name>` child or empty. -/
def outputEntry : Content → Option (Node × String)
  | .context kind ps => (nameNode kind).map fun name => (kind, lastValue (textOf name) "" ps)
  | _ => none

/-- The outputs the output elements of a child of `<params>` give, in document order. -/
def outputEntries : Content → List (Node × String)
  | .context .outputList ctx => ctx.filterMap outputEntry
  | _ => []

/-- A step of `parse_outputs` adds the output its element gives. -/
private theorem outputsStep_entries {P : Platform} {o o' : CfgOutputs} {c : Content}
    (step : outputsStep P o c = .ok o') : o'.entries.Perm (o.entries ++ (outputEntry c).toList) := by
  obtain ⟨ctx, read, step⟩ := bind_ok.mp step
  rw [Content.ptrCtx_ok rfl read]
  split at step <;> (try cases step) <;> rename_i same <;> rw [same]
  · obtain ⟨output, -, name, -, rfl⟩ := parsePrint_ok step
    exact List.perm_iff_count.mpr fun a => by
      simp [CfgOutputs.entries, outputEntry, nameNode, name, List.count_cons]; omega
  · obtain ⟨output, -, name, -, -, -, rfl⟩ := parseSend_ok step
    exact List.perm_iff_count.mpr fun a => by
      simp [CfgOutputs.entries, outputEntry, nameNode, name, List.count_cons]; omega
  · obtain ⟨output, -, name, -, -, rfl⟩ := parseFile_ok step
    exact List.perm_iff_count.mpr fun a => by
      simp [CfgOutputs.entries, outputEntry, nameNode, name, List.count_cons]; omega
  · obtain ⟨output, -, name, -, rfl⟩ := parseServer_ok step
    exact List.perm_iff_count.mpr fun a => by
      simp [CfgOutputs.entries, outputEntry, nameNode, name, List.count_cons]; omega
  · obtain ⟨output, -, name, -, -, -, rfl⟩ := Kafka.parseKafka_ok step
    exact List.perm_iff_count.mpr fun a => by
      simp [CfgOutputs.entries, outputEntry, nameNode, name, List.count_cons]
  · obtain ⟨output, -, name, -, -, -, rfl⟩ := Syslog.parseSyslog_ok step
    exact List.perm_iff_count.mpr fun a => by
      simp [CfgOutputs.entries, outputEntry, nameNode, name, List.count_cons]

private theorem outputEntries_of_id {c : Content} (other : c.id ≠ .outputList) : outputEntries c = [] := by
  cases c with
  | context id ctx => cases id <;> simp_all [outputEntries, Content.id]
  | _ => rfl

/-- A step of `parse_params` adds the outputs the output elements of its child give. -/
private theorem paramsStep_entries {P : Platform} {cfg cfg' : Config} {c : Content}
    (step : paramsStep P cfg c = .ok cfg') :
    cfg'.outputs.entries.Perm (cfg.outputs.entries ++ outputEntries c) := by
  unfold paramsStep at step
  split at step <;> rename_i same <;> try cases step
  all_goals obtain ⟨x, read, rest⟩ := bind_ok.mp step
  all_goals first
    | cases Content.ptrCtx_ok same read
      obtain ⟨outputs, run, done⟩ := bind_ok.mp rest
      cases pure_ok.mp done
      simpa [outputEntries, List.filterMap_eq_flatMap_toList] using
        foldlM_perm CfgOutputs.entries _ (fun _ _ _ s => outputsStep_entries s) run
    | rw [@outputEntries_of_id c (by simp [same]), List.append_nil]
      first
        | cases pure_ok.mp rest; exact .refl _
        | obtain ⟨_, -, done⟩ := bind_ok.mp rest; cases pure_ok.mp done; exact .refl _

/-- The outputs `parse_params` collects from `default_set` are those the output elements
    of the document give. -/
theorem parseParams_entries {P : Platform} {params : List Content} {cfg : Config}
    (run : parseParams P defaultSet params = .ok cfg) :
    cfg.outputs.entries.Perm (params.flatMap outputEntries) := by
  simpa [defaultSet, CfgOutputs.entries] using
    foldlM_perm (fun cfg : Config => cfg.outputs.entries) outputEntries
      (fun _ _ _ s => paramsStep_entries s) run

/-- `check_validity` read on the outputs as a list of kinds and names, in any order. -/
theorem checkValidity_entries_iff {outputs : CfgOutputs} {es : List (Node × String)}
    (perm : outputs.entries.Perm es) :
    checkValidity outputs = .ok () ↔
      es ≠ [] ∧ es.countP (fun e => e.1 = .outputPrint) ≤ 1 ∧ (es.map Prod.snd).Nodup := by
  rw [checkValidity_ok_iff, ← perm.countP_eq, CfgOutputs.countP_entries,
    ← (perm.map Prod.snd).nodup_iff, CfgOutputs.map_entries, ← List.length_pos, ← perm.length_eq,
    CfgOutputs.length_entries]
  rfl

/-- The constructor keeps exactly the configurations `parse_params` builds from a document
    with an output element, at most one `<print>`, and no name twice among its output
    elements, each name the text of the element's last `<name>` child or empty. -/
theorem ofParams_ok_iff {P : Platform} {params : List Content} {cfg : Config} :
    Config.ofParams P (.ok params) = .ok cfg ↔ parseParams P defaultSet params = .ok cfg ∧
      params.flatMap outputEntries ≠ [] ∧
      (params.flatMap outputEntries).countP (fun e => e.1 = .outputPrint) ≤ 1 ∧
      ((params.flatMap outputEntries).map Prod.snd).Nodup := by
  constructor
  · intro ok
    obtain ⟨_, same, run, valid⟩ := ofParams_ok ok
    cases same
    exact ⟨run, (checkValidity_entries_iff (parseParams_entries run)).mp valid⟩
  · rintro ⟨run, document⟩
    have valid := (checkValidity_entries_iff (parseParams_entries run)).mpr document
    simp [Config.ofParams, run, valid, bind, Except.bind, pure, Except.pure]

end JsonConfig.Params
