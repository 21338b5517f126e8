import JsonConfig.Params

/-!
# The configurations the constructor keeps

What every configuration `Config::Config` returns from a document that conforms to the
schema satisfies, output by output (`OutputsKept`): the checks each parser makes after
its loop, the children the schema requires (a `<server>` and a `<send>` port, a `<send>`
and a `<tcp>` blocking flag, a `<udp>` and a `<tcp>` port), the keys `emplace` keeps
once, the priority as `struct syslog_prority` holds two `uint64_t` values, the three
conditions of `check_validity`, and texts the XML parser can hand over (`ofParams_kept`).
The last holds because every text a parser keeps is a text of the document, the empty
text a loop starts from, or the default address of `<send>` (`parseParams_texts`).
`JsonConfig.Render` shows the converse, so these are exactly the configurations the
constructor returns.
-/

namespace JsonConfig.Kept
open JsonConfig.Xml JsonConfig.Outputs JsonConfig.Params JsonConfig.Syslog

/-- A `<print>` output the constructor keeps. -/
structure PrintKept (o : CfgPrint) : Prop where
  name : o.name ≠ ""

/-- A `<server>` output the constructor keeps from a conforming document. -/
structure ServerKept (o : CfgServer) : Prop where
  name : o.name ≠ ""
  valid : o.Valid

/-- A `<send>` output the constructor keeps from a conforming document: an address, and
    the flag the schema requires set. -/
structure SendKept (P : Platform) (o : CfgSend) : Prop where
  name : o.name ≠ ""
  addr : o.addr ≠ ""
  valid : o.Valid P
  blocking : o.blocking.isSome

/-- A `<file>` output the constructor keeps. -/
structure FileKept (o : CfgFile) : Prop where
  name : o.name ≠ ""
  valid : o.Valid

/-- A `<kafka>` output the constructor keeps: each property key once. -/
structure KafkaKept (rdKafkaPartitionUa : Int) (o : CfgKafka) : Prop where
  valid : Kafka.Valid rdKafkaPartitionUa o
  distinct : (o.properties.map Prod.fst).Nodup

/-- A priority `parse_syslog` keeps: two `uint64_t` values as the field type holds them,
    within the checked bounds. -/
def PriorityKept (field : IntType) (priority : SyslogPrority) : Prop :=
  ∃ facility severity : UInt64,
    priority = ⟨field.conv facility.toNat, field.conv severity.toNat⟩ ∧
      field.conv facility.toNat ≤ SYSLOG_FACILITY_MAX ∧ field.conv severity.toNat ≤ SYSLOG_SEVERITY_MAX

/-- A `<syslog>` output the constructor keeps from a conforming document. -/
structure SyslogKept (field : IntType) (o : CfgSyslog) : Prop where
  valid : Syslog.Valid o
  priority : PriorityKept field o.priority

/-- Every output of each kind is one the constructor keeps. -/
structure EachKept (P : Platform) (outputs : CfgOutputs) : Prop where
  prints : ∀ o ∈ outputs.prints, PrintKept o
  servers : ∀ o ∈ outputs.servers, ServerKept o
  sends : ∀ o ∈ outputs.sends, SendKept P o
  files : ∀ o ∈ outputs.files, FileKept o
  kafkas : ∀ o ∈ outputs.kafkas, KafkaKept P.rdKafkaPartitionUa o
  syslogs : ∀ o ∈ outputs.syslogs, SyslogKept P.priorityField o

/-- The outputs of a configuration the constructor keeps from a conforming document whose
    texts the XML parser can hand over. -/
structure OutputsKept (P : Platform) (outputs : CfgOutputs) : Prop where
  each : EachKept P outputs
  count : 1 ≤ outputs.count
  print : outputs.prints.length ≤ 1
  names : outputs.names.Nodup
  texts : ∀ t ∈ outputs.texts, xmlText t = true

/-! ### What the loops add to the parsers' checks -/

/-- What a `<blocking>` child of `<send>` assigns. -/
def sendBlockingOf : Content → Option (Option Bool)
  | .bool .sendBlock blocking => some (some blocking)
  | _ => none

private theorem sendStep_blocking {o o' : CfgSend} {c : Content} (step : sendStep o c = .ok o') :
    o'.blocking = (sendBlockingOf c).getD o.blocking := by
  unfold sendStep at step
  split at step <;> rename_i same <;> try cases step
  all_goals obtain ⟨x, read, done⟩ := bind_ok.mp step
  all_goals first
    | obtain ⟨_, _, rfl, -⟩ := checkPort_ok read; cases pure_ok.mp done; rfl
    | cases Content.valBool_ok same read; cases pure_ok.mp done; rfl
    | cases Content.ptrString_ok same read
      first
        | cases pure_ok.mp done; rfl
        | obtain ⟨_, -, done⟩ := bind_ok.mp done; cases pure_ok.mp done; rfl

/-- With the `<blocking>` child the schema requires, `parse_send` sets the flag. -/
private theorem sendBlocking_required {send : List Content} {o : CfgSend} (level : Level argsSend send)
    (run : send.foldlM sendStep ⟨"", "127.0.0.1", 4739, .sendProtoUdp, none⟩ = .ok o) :
    o.blocking.isSome := by
  obtain ⟨c, mem, same⟩ := level.present ⟨.sendBlock, "blocking", .bool, required⟩
    (by simp [argsSend]) rfl
  refine foldlM_required CfgSend.blocking sendBlockingOf (fun b => b.isSome = true)
    (fun _ _ _ step => sendStep_blocking step) (fun _ c _ v _ picked => ?_)
    ⟨c, mem, fun _ _ step => ?_⟩ run
  · cases c with
    | bool id b => cases id <;> cases picked; rfl
    | _ => cases picked
  · unfold sendStep at step
    rw [same] at step
    obtain ⟨x, read, -⟩ := bind_ok.mp step
    cases Content.valBool_ok same read
    rfl

/-- `emplace` keeps each key once. -/
private theorem nodup_emplace {m : List (String × String)} (distinct : (m.map Prod.fst).Nodup)
    (key value : String) : ((Kafka.emplace m key value).map Prod.fst).Nodup := by
  unfold Kafka.emplace
  split
  · exact distinct
  · next absent =>
    simp only [List.map_append, List.map_cons, List.map_nil, List.nodup_append]
    refine ⟨distinct, List.nodup_singleton _, fun k mem single => absent ?_⟩
    obtain rfl := List.mem_singleton.mp single
    exact (Kafka.mem_keys_iff_lookup m k).mp mem

/-- A run of the loop of `parse_kafka` keeps each property key once. -/
private theorem kafka_distinct {ua : Int} {kafka : List Content} {o : CfgKafka}
    (run : kafka.foldlM (Kafka.kafkaStep ua) (Kafka.kafkaDefaults ua) = .ok o) :
    (o.properties.map Prod.fst).Nodup := by
  refine foldlM_inv (fun o : CfgKafka => (o.properties.map Prod.fst).Nodup)
    (by simp [Kafka.kafkaDefaults]) (fun _ c _ _ distinct step => ?_) run
  simp only at distinct ⊢
  rw [(Kafka.kafkaStep_inv step).2.1, Kafka.addProperty]
  split
  · exact nodup_emplace distinct _ _
  · exact distinct

/-- `parse_syslog_priority` stores two `uint64_t` values as the field holds them, and
    only within the bounds. -/
theorem parseSyslogPriority_kept {field : IntType} {o o' : CfgSyslog} {priority : List Content}
    (ok : parseSyslogPriority field o priority = .ok o') : PriorityKept field o'.priority := by
  obtain ⟨⟨f, s⟩, run, rest⟩ := bind_ok.mp ok
  have facility : f = lastValue (facilityOf field) none priority :=
    (foldlM_field Prod.fst (facilityOf field) (fun _ _ _ step => (syslogPriorityStep_inv step).1) run :)
  have severity : s = lastValue (severityOf field) none priority :=
    (foldlM_field Prod.snd (severityOf field) (fun _ _ _ step => (syslogPriorityStep_inv step).2) run :)
  split at rest
  · next facilityValue severityValue same =>
    cases same
    split_ifs at rest with large large'
    cases rest
    obtain ⟨c, -, read⟩ := (lastValue_mem _ _ _).resolve_left (by rw [← facility]; simp)
    obtain ⟨d, -, read'⟩ := (lastValue_mem _ _ _).resolve_left (by rw [← severity]; simp)
    rw [← facility] at read
    rw [← severity] at read'
    cases c with
    | uint id v =>
      cases d with
      | uint id' w =>
        cases id <;> cases read
        cases id' <;> cases read'
        exact ⟨v, w, rfl, by simpa using large, by simpa using large'⟩
      | _ => cases read'
    | _ => cases read
  · cases rest

/-- A step of `parse_syslog` keeps the priority one the constructor keeps. -/
private theorem syslogStep_priority {field : IntType} {o o' : CfgSyslog} {c : Content}
    (step : syslogStep field o c = .ok o') (kept : PriorityKept field o.priority) :
    PriorityKept field o'.priority := by
  unfold syslogStep at step
  split at step <;> try cases step
  all_goals obtain ⟨x, read, done⟩ := bind_ok.mp step
  all_goals first
    | cases pure_ok.mp done; exact kept
    | (split_ifs at done <;> cases done) <;> exact kept
    | exact parseSyslogPriority_kept done
    | obtain ⟨_, -, done⟩ := bind_ok.mp done; cases pure_ok.mp done; exact kept

section Parsers
variable {outputs outputs' : CfgOutputs}

theorem parsePrint_kept {print : List Content} (ok : parsePrint outputs print = .ok outputs') :
    ∃ o, PrintKept o ∧ outputs' = { outputs with prints := outputs.prints ++ [o] } := by
  obtain ⟨o, -, -, name, rfl⟩ := parsePrint_ok ok
  exact ⟨o, ⟨name⟩, rfl⟩

theorem parseServer_kept {server : List Content} (level : Level argsServer server)
    (ok : parseServer outputs server = .ok outputs') :
    ∃ o, ServerKept o ∧ outputs' = { outputs with servers := outputs.servers ++ [o] } := by
  obtain ⟨o, valid, rfl⟩ := parseServer_valid level ok
  obtain ⟨o', -, -, name, same⟩ := parseServer_ok ok
  obtain rfl : o = o' := by simpa using same
  exact ⟨o, ⟨name, valid⟩, rfl⟩

theorem parseSend_kept {P : Platform} {send : List Content} (level : Level argsSend send)
    (ok : parseSend P outputs send = .ok outputs') :
    ∃ o, SendKept P o ∧ outputs' = { outputs with sends := outputs.sends ++ [o] } := by
  obtain ⟨o, valid, rfl⟩ := parseSend_valid ok
  obtain ⟨o', run, -, name, addr, -, same⟩ := parseSend_ok ok
  obtain rfl : o = o' := by simpa using same
  exact ⟨o, ⟨name, addr, valid, sendBlocking_required level run⟩, rfl⟩

theorem parseFile_kept {file : List Content} (ok : parseFile outputs file = .ok outputs') :
    ∃ o, FileKept o ∧ outputs' = { outputs with files := outputs.files ++ [o] } := by
  obtain ⟨o, -, -, name, path, rfl⟩ := parseFile_ok ok
  exact ⟨o, ⟨name, ⟨path⟩⟩, rfl⟩

theorem parseKafka_kept {ua : Int} {kafka : List Content} (ok : Kafka.parseKafka ua outputs kafka = .ok outputs') :
    ∃ o, KafkaKept ua o ∧ outputs' = { outputs with kafkas := outputs.kafkas ++ [o] } := by
  obtain ⟨o, valid, rfl⟩ := Kafka.parseKafka_valid ok
  obtain ⟨o', run, -, -, -, -, same⟩ := Kafka.parseKafka_ok ok
  obtain rfl : o = o' := by simpa using same
  exact ⟨o, ⟨valid, kafka_distinct run⟩, rfl⟩

theorem parseSyslog_kept {field : IntType} {syslog : List Content}
    (conform : ∀ c ∈ syslog, c.conforms = true) (ok : parseSyslog field outputs syslog = .ok outputs') :
    ∃ o, SyslogKept field o ∧ outputs' = { outputs with syslogs := outputs.syslogs ++ [o] } := by
  obtain ⟨o, valid, rfl⟩ := parseSyslog_valid conform ok
  obtain ⟨o', run, -, -, -, -, same⟩ := parseSyslog_ok ok
  obtain rfl : o = o' := by simpa using same
  refine ⟨o, ⟨valid, foldlM_inv (fun o : CfgSyslog => PriorityKept field o.priority) ?_
    (fun _ _ _ _ kept step => syslogStep_priority step kept) run⟩, rfl⟩
  exact ⟨16, 6, rfl, (field.conv_le 16).trans (by decide), (field.conv_le 6).trans (by decide)⟩

end Parsers

/-- A step of `parse_outputs` on a conforming child appends an output the constructor
    keeps. -/
private theorem outputsStep_kept {P : Platform} {o o' : CfgOutputs} {c : Content}
    (conform : c.conforms = true) (step : outputsStep P o c = .ok o') (kept : EachKept P o) :
    EachKept P o' := by
  obtain ⟨ctx, read, step⟩ := bind_ok.mp step
  rw [Content.ptrCtx_ok rfl read] at conform
  obtain ⟨level, children⟩ := context_conforms conform
  split at step <;> rename_i same <;> try cases step
  all_goals rw [same] at level
  · obtain ⟨new, fine, rfl⟩ := parsePrint_kept step
    exact { kept with prints := forall_mem_append_singleton kept.prints fine }
  · obtain ⟨new, fine, rfl⟩ := parseSend_kept level step
    exact { kept with sends := forall_mem_append_singleton kept.sends fine }
  · obtain ⟨new, fine, rfl⟩ := parseFile_kept step
    exact { kept with files := forall_mem_append_singleton kept.files fine }
  · obtain ⟨new, fine, rfl⟩ := parseServer_kept level step
    exact { kept with servers := forall_mem_append_singleton kept.servers fine }
  · obtain ⟨new, fine, rfl⟩ := parseKafka_kept step
    exact { kept with kafkas := forall_mem_append_singleton kept.kafkas fine }
  · obtain ⟨new, fine, rfl⟩ := parseSyslog_kept children step
    exact { kept with syslogs := forall_mem_append_singleton kept.syslogs fine }

/-! ### Where the texts come from -/

/-- The texts the parsers of the outputs start from: the empty text, and the default
    address of `<send>`. -/
def defaultTexts : List String := ["", "127.0.0.1"]

/-- An output whose texts its loop took from defaults and from its element adds only
    those. -/
private theorem texts_appended {o o' : CfgOutputs} {texts init extra : List String} {ctx : List Content}
    (added : o'.texts.Perm (o.texts ++ texts)) (kept : texts ⊆ init ++ extra ++ textsAll ctx)
    (defaults : ∀ t ∈ init ++ extra, t ∈ defaultTexts) :
    o'.texts ⊆ o.texts ++ defaultTexts ++ textsAll ctx := fun t mem => by
  rcases List.mem_append.mp (added.subset mem) with old | new
  · exact List.mem_append_left _ (List.mem_append_left _ old)
  · rcases List.mem_append.mp (kept new) with given | given
    · exact List.mem_append_left _ (List.mem_append_right _ (defaults t given))
    · exact List.mem_append_right _ given

/-- A step of `parse_outputs` keeps only the texts it had, defaults and texts of its
    element. -/
private theorem outputsStep_texts {P : Platform} {o o' : CfgOutputs} {c : Content}
    (step : outputsStep P o c = .ok o') : o'.texts ⊆ o.texts ++ defaultTexts ++ c.texts := by
  obtain ⟨ctx, read, step⟩ := bind_ok.mp step
  rw [Content.ptrCtx_ok rfl read]
  split at step <;> (try cases step)
  · obtain ⟨output, run, -, -, rfl⟩ := parsePrint_ok step
    exact texts_appended (List.perm_iff_count.mpr fun a => by simp [CfgOutputs.texts, List.count_append]; omega)
      (foldlM_texts CfgPrint.texts [] (fun _ _ _ s => by simpa using printStep_texts s) run)
      (by simp [CfgPrint.texts, defaultTexts])
  · obtain ⟨output, run, -, -, -, -, rfl⟩ := parseSend_ok step
    exact texts_appended (List.perm_iff_count.mpr fun a => by simp [CfgOutputs.texts, List.count_append]; omega)
      (foldlM_texts CfgSend.texts [] (fun _ _ _ s => by simpa using sendStep_texts s) run)
      (by simp [CfgSend.texts, defaultTexts])
  · obtain ⟨output, run, -, -, -, rfl⟩ := parseFile_ok step
    exact texts_appended (List.perm_iff_count.mpr fun a => by simp [CfgOutputs.texts, List.count_append]; omega)
      (foldlM_texts CfgFile.texts [] (fun _ _ _ s => by simpa using fileStep_texts s) run)
      (by simp [CfgFile.texts, defaultTexts])
  · obtain ⟨output, run, -, -, rfl⟩ := parseServer_ok step
    exact texts_appended (List.perm_iff_count.mpr fun a => by simp [CfgOutputs.texts, List.count_append]; omega)
      (foldlM_texts CfgServer.texts [] (fun _ _ _ s => by simpa using serverStep_texts s) run)
      (by simp [CfgServer.texts, defaultTexts])
  · obtain ⟨output, run, -, -, -, -, rfl⟩ := Kafka.parseKafka_ok step
    exact texts_appended (List.perm_iff_count.mpr fun a => by simp [CfgOutputs.texts, List.count_append]; omega)
      (foldlM_texts CfgKafka.texts [""] (fun _ _ _ s => by simpa using Kafka.kafkaStep_texts s) run)
      (by simp [CfgKafka.texts, Kafka.kafkaDefaults, defaultTexts])
  · obtain ⟨output, run, -, -, -, -, rfl⟩ := parseSyslog_ok step
    exact texts_appended (List.perm_iff_count.mpr fun a => by simp [CfgOutputs.texts, List.count_append])
      (foldlM_texts CfgSyslog.texts [""] (fun _ _ _ s => by simpa using syslogStep_texts s) run)
      (by simp [CfgSyslog.texts, syslogDefaults, defaultTexts])

/-- What a step of `parse_params` keeps are texts the outputs had, defaults and texts of
    its child. -/
private theorem paramsStep_texts {P : Platform} {cfg cfg' : Config} {c : Content}
    (step : paramsStep P cfg c = .ok cfg') :
    cfg'.outputs.texts ⊆ cfg.outputs.texts ++ defaultTexts ++ c.texts := by
  rcases paramsStep_outputs step with same | ⟨ctx, rfl, run⟩
  · rw [same]
    exact List.subset_append_of_subset_left _ (List.subset_append_left _ _)
  · exact foldlM_texts CfgOutputs.texts defaultTexts (fun _ _ _ s => outputsStep_texts s) run

/-- Every text of the outputs `parse_params` collects from `default_set` is a default or a
    text of the document. -/
theorem parseParams_texts {P : Platform} {params : List Content} {cfg : Config}
    (run : parseParams P defaultSet params = .ok cfg) : cfg.outputs.texts ⊆ defaultTexts ++ textsAll params := by
  simpa [defaultSet, CfgOutputs.texts] using
    foldlM_texts (fun cfg : Config => cfg.outputs.texts) defaultTexts (fun _ _ _ s => paramsStep_texts s) run

/-- Every configuration the constructor returns from a conforming document of texts the
    XML parser can hand over keeps only outputs it keeps, at least one, at most one
    `<print>`, no name twice, and only such texts. -/
theorem ofParams_kept {P : Platform} {params : List Content} {cfg : Config}
    (conform : documentConforms params = true) (delivered : (textsAll params).all xmlText = true)
    (ok : Config.ofParams P (.ok params) = .ok cfg) : OutputsKept P cfg.outputs := by
  obtain ⟨_, same, run, valid⟩ := ofParams_ok ok
  cases same
  simp only [documentConforms, Bool.and_eq_true, conformsAll_iff] at conform
  obtain ⟨count, print, names⟩ := (checkValidity_ok_iff cfg.outputs).mp valid
  refine ⟨foldlM_inv (fun cfg : Config => EachKept P cfg.outputs) (by constructor <;> simp [defaultSet])
    (fun _ c _ mem kept step => ?_) run, count, print, names, fun t mem => ?_⟩
  · rcases paramsStep_outputs step with same | ⟨ctx, rfl, parsed⟩
    · exact same ▸ kept
    · have children := (context_conforms (conform.2 _ mem)).2
      exact foldlM_inv (EachKept P) kept
        (fun _ d _ mem' kept' step' => outputsStep_kept (children d mem') step' kept') parsed
  · rcases List.mem_append.mp (parseParams_texts run mem) with given | given
    · simp only [defaultTexts, List.mem_cons, List.mem_singleton, List.not_mem_nil, or_false] at given
      rcases given with rfl | rfl <;> decide
    · exact List.all_eq_true.mp delivered t given

end JsonConfig.Kept
