import Mathlib

/-!
# The document as libfds hands it over

`fds_xml_parse_mem` checks the configuration against the description tables
(`args_params` and the tables nested in it), and `fds_xml_next` then yields the
children of a context one by one, each with the id of its table entry and a value of
the entry's type. A context is the list of its children here, a child is a `Content`,
and the tables are data, so that what the schema promises (`documentConforms`) can be
assumed where a result needs it. Every parser of `Config.cpp` is a loop over the
children of one context; the lemmas at the end are the run lemmas of such loops.
-/

namespace JsonConfig.Xml

/-- The ids of the elements (`enum params_xml_nodes`). -/
inductive Node where
  | fmtTflags | fmtTimestamp | fmtProto | fmtUnknown | fmtOptions | fmtNonprint
  | fmtOctetasuint | fmtNumeric | fmtBfsplit | fmtDetailedinfo | fmtTmpltinfo
  | outputList | outputPrint | outputSend | outputServer | outputFile | outputKafka
  | outputSyslog
  | printName
  | sendName | sendIp | sendPort | sendProto | sendBlock
  | serverName | serverPort | serverBlock
  | fileName | filePath | filePrefix | fileWindow | fileAlign | fileCompress
  | kafkaName | kafkaBrokers | kafkaTopic | kafkaPartion | kafkaBversion | kafkaBlocking
  | kafkaPerfTun | kafkaProperty | kafkaPropKey | kafkaPropValue
  | syslogName | syslogPri | syslogPriFacility | syslogPriSeverity | syslogHostname
  | syslogProgram | syslogProcid | syslogTransport
  | syslogTcp | syslogTcpHost | syslogTcpPort | syslogTcpBlock
  | syslogUdp | syslogUdpHost | syslogUdpPort
deriving DecidableEq, Repr

/-- The value types of the table entries (`FDS_OPTS_T_*`); a nested entry is a context. -/
inductive OptsType where
  | string | uint | bool | context
deriving DecidableEq, Repr

/-- One element as `fds_xml_next` returns it (`struct fds_xml_cont`): the id of its
    entry and its value, `ptr_string`, `val_uint`, `val_bool` or `ptr_ctx`. -/
inductive Content where
  | string (id : Node) (text : String)
  | uint (id : Node) (value : UInt64)
  | bool (id : Node) (value : Bool)
  | context (id : Node) (children : List Content)
deriving Repr

/-- `content->id`. -/
def Content.id : Content → Node
  | .string id _ | .uint id _ | .bool id _ | .context id _ => id

/-- `content->type`. -/
def Content.type : Content → OptsType
  | .string .. => .string
  | .uint .. => .uint
  | .bool .. => .bool
  | .context .. => .context

/-- What ends a parse early: the two exception classes the parsers throw, with the
    text of `what()`, and a failed `assert`, which aborts the process instead. -/
inductive Error where
  | invalidArgument (what : String)
  | runtimeError (what : String)
  | assertion
deriving DecidableEq, Repr

/-- `assert(content->type == FDS_OPTS_T_STRING)`, then `content->ptr_string`. -/
def Content.ptrString : Content → Except Error String
  | .string _ text => .ok text
  | _ => .error .assertion

/-- `assert(content->type == FDS_OPTS_T_UINT)`, then `content->val_uint`. -/
def Content.valUint : Content → Except Error UInt64
  | .uint _ value => .ok value
  | _ => .error .assertion

/-- `assert(content->type == FDS_OPTS_T_BOOL)`, then `content->val_bool`. -/
def Content.valBool : Content → Except Error Bool
  | .bool _ value => .ok value
  | _ => .error .assertion

/-- `assert(content->type == FDS_OPTS_T_CONTEXT)`, then `content->ptr_ctx`. -/
def Content.ptrCtx : Content → Except Error (List Content)
  | .context _ children => .ok children
  | _ => .error .assertion

/-- `Except`'s bind returns normally exactly when both steps do. -/
theorem bind_ok {α β : Type} {x : Except Error α} {f : α → Except Error β} {b : β} :
    x >>= f = .ok b ↔ ∃ a, x = .ok a ∧ f a = .ok b := by
  cases x <;> simp [bind, Except.bind]

theorem pure_ok {α : Type} {a b : α} : (pure a : Except Error α) = .ok b ↔ a = b := by
  simp [pure, Except.pure]

theorem ok_bind {α β : Type} (a : α) (f : α → Except Error β) :
    (Except.ok a : Except Error α) >>= f = f a := rfl

/-- Two binds return the same value when their first steps and their continuations do. -/
theorem bind_ok_congr {α β : Type} {x y : Except Error α} {f g : α → Except Error β} {b : β}
    (first : ∀ a, x = .ok a ↔ y = .ok a) (next : ∀ a, f a = .ok b ↔ g a = .ok b) :
    x >>= f = .ok b ↔ y >>= g = .ok b := by
  simp only [bind_ok, first, next]

theorem Content.ptrString_ok {c : Content} {id : Node} {text : String} (same : c.id = id)
    (h : c.ptrString = .ok text) : c = .string id text := by
  cases c <;> simp_all [Content.ptrString, Content.id]

theorem Content.valUint_ok {c : Content} {id : Node} {value : UInt64} (same : c.id = id)
    (h : c.valUint = .ok value) : c = .uint id value := by
  cases c <;> simp_all [Content.valUint, Content.id]

theorem Content.valBool_ok {c : Content} {id : Node} {value : Bool} (same : c.id = id)
    (h : c.valBool = .ok value) : c = .bool id value := by
  cases c <;> simp_all [Content.valBool, Content.id]

theorem Content.ptrCtx_ok {c : Content} {id : Node} {children : List Content} (same : c.id = id)
    (h : c.ptrCtx = .ok children) : c = .context id children := by
  cases c <;> simp_all [Content.ptrCtx, Content.id]

/-! ### The description tables -/

/-- The flags of an entry: `FDS_OPTS_P_OPT` (may be absent) and `FDS_OPTS_P_MULTI`
    (may repeat). -/
structure Flags where
  opt : Bool
  multi : Bool
deriving DecidableEq, Repr

/-- An entry of a description table (`struct fds_xml_args`, built by `FDS_OPTS_ELEM`
    and `FDS_OPTS_NESTED`). -/
structure FdsXmlArgs where
  id : Node
  name : String
  type : OptsType
  flags : Flags
deriving Repr

/-- Flags `0`: required, at most once. -/
def required : Flags := ⟨false, false⟩
/-- `FDS_OPTS_P_OPT`. -/
def optional : Flags := ⟨true, false⟩
/-- `FDS_OPTS_P_OPT | FDS_OPTS_P_MULTI`. -/
def optionalMulti : Flags := ⟨true, true⟩

def argsPrint : List FdsXmlArgs :=
  [⟨.printName, "name", .string, required⟩]

def argsServer : List FdsXmlArgs :=
  [⟨.serverName, "name", .string, required⟩, ⟨.serverPort, "port", .uint, required⟩,
   ⟨.serverBlock, "blocking", .bool, required⟩]

def argsSend : List FdsXmlArgs :=
  [⟨.sendName, "name", .string, required⟩, ⟨.sendIp, "ip", .string, required⟩,
   ⟨.sendPort, "port", .uint, required⟩, ⟨.sendProto, "protocol", .string, required⟩,
   ⟨.sendBlock, "blocking", .bool, required⟩]

def argsFile : List FdsXmlArgs :=
  [⟨.fileName, "name", .string, required⟩, ⟨.filePath, "path", .string, required⟩,
   ⟨.filePrefix, "prefix", .string, required⟩, ⟨.fileWindow, "timeWindow", .uint, required⟩,
   ⟨.fileAlign, "timeAlignment", .bool, required⟩,
   ⟨.fileCompress, "compression", .string, optional⟩]

def argsKafkaProp : List FdsXmlArgs :=
  [⟨.kafkaPropKey, "key", .string, required⟩, ⟨.kafkaPropValue, "value", .string, required⟩]

def argsKafka : List FdsXmlArgs :=
  [⟨.kafkaName, "name", .string, required⟩, ⟨.kafkaBrokers, "brokers", .string, required⟩,
   ⟨.kafkaTopic, "topic", .string, required⟩,
   ⟨.kafkaPartion, "partition", .string, optional⟩,
   ⟨.kafkaBversion, "brokerVersion", .string, optional⟩,
   ⟨.kafkaBlocking, "blocking", .bool, optional⟩,
   ⟨.kafkaPerfTun, "performanceTuning", .bool, optional⟩,
   ⟨.kafkaProperty, "property", .context, optionalMulti⟩]

def argsSyslogPriority : List FdsXmlArgs :=
  [⟨.syslogPriFacility, "facility", .uint, required⟩,
   ⟨.syslogPriSeverity, "severity", .uint, required⟩]

def argsSyslogUdp : List FdsXmlArgs :=
  [⟨.syslogUdpHost, "hostname", .string, required⟩, ⟨.syslogUdpPort, "port", .uint, required⟩]

def argsSyslogTcp : List FdsXmlArgs :=
  [⟨.syslogTcpHost, "hostname", .string, required⟩, ⟨.syslogTcpPort, "port", .uint, required⟩,
   ⟨.syslogTcpBlock, "blocking", .bool, required⟩]

def argsSyslogTransport : List FdsXmlArgs :=
  [⟨.syslogTcp, "tcp", .context, optional⟩, ⟨.syslogUdp, "udp", .context, optional⟩]

def argsSyslog : List FdsXmlArgs :=
  [⟨.syslogName, "name", .string, required⟩,
   ⟨.syslogHostname, "hostname", .string, optional⟩,
   ⟨.syslogProgram, "program", .string, optional⟩,
   ⟨.syslogProcid, "procId", .bool, optional⟩,
   ⟨.syslogPri, "priority", .context, optional⟩,
   ⟨.syslogTransport, "transport", .context, required⟩]

def argsOutputs : List FdsXmlArgs :=
  [⟨.outputPrint, "print", .context, optionalMulti⟩,
   ⟨.outputServer, "server", .context, optionalMulti⟩,
   ⟨.outputSend, "send", .context, optionalMulti⟩,
   ⟨.outputFile, "file", .context, optionalMulti⟩,
   ⟨.outputKafka, "kafka", .context, optionalMulti⟩,
   ⟨.outputSyslog, "syslog", .context, optionalMulti⟩]

/-- The children of `<params>` (`FDS_OPTS_ROOT("params")`). -/
def argsParams : List FdsXmlArgs :=
  [⟨.fmtTflags, "tcpFlags", .string, optional⟩, ⟨.fmtTimestamp, "timestamp", .string, optional⟩,
   ⟨.fmtProto, "protocol", .string, optional⟩, ⟨.fmtUnknown, "ignoreUnknown", .bool, optional⟩,
   ⟨.fmtOptions, "ignoreOptions", .bool, optional⟩,
   ⟨.fmtNonprint, "nonPrintableChar", .bool, optional⟩,
   ⟨.fmtNumeric, "numericNames", .bool, optional⟩,
   ⟨.fmtOctetasuint, "octetArrayAsUint", .bool, optional⟩,
   ⟨.fmtBfsplit, "splitBiflow", .bool, optional⟩,
   ⟨.fmtDetailedinfo, "detailedInfo", .bool, optional⟩,
   ⟨.fmtTmpltinfo, "templateInfo", .bool, optional⟩,
   ⟨.outputList, "outputs", .context, required⟩]

/-- The table a nested entry points to, by the entry's id. -/
def nestedArgs : Node → List FdsXmlArgs
  | .outputList => argsOutputs
  | .outputPrint => argsPrint
  | .outputServer => argsServer
  | .outputSend => argsSend
  | .outputFile => argsFile
  | .outputKafka => argsKafka
  | .kafkaProperty => argsKafkaProp
  | .outputSyslog => argsSyslog
  | .syslogPri => argsSyslogPriority
  | .syslogTransport => argsSyslogTransport
  | .syslogTcp => argsSyslogTcp
  | .syslogUdp => argsSyslogUdp
  | _ => []

/-! ### What the schema promises -/

/-- One level of the check libfds makes: every child is declared with its type, every
    entry without `FDS_OPTS_P_OPT` is present, and every entry without
    `FDS_OPTS_P_MULTI` appears at most once. -/
def levelConforms (args : List FdsXmlArgs) (cs : List Content) : Bool :=
  cs.all (fun c => args.any fun a => a.id == c.id && a.type == c.type) &&
  args.all (fun a => a.flags.opt || cs.any fun c => c.id == a.id) &&
  args.all (fun a => a.flags.multi || decide (cs.countP (fun c => c.id == a.id) ≤ 1))

mutual
/-- A child conforms when, as a context, its children conform to its table. -/
def Content.conforms : Content → Bool
  | .context id cs => levelConforms (nestedArgs id) cs && conformsAll cs
  | _ => true
/-- Every child of a list conforms. -/
def conformsAll : List Content → Bool
  | [] => true
  | c :: cs => c.conforms && conformsAll cs
end

/-- The children of `<params>` conform to `args_params`, at every depth. -/
def documentConforms (cs : List Content) : Bool :=
  levelConforms argsParams cs && conformsAll cs

theorem conformsAll_iff {cs : List Content} : conformsAll cs = true ↔ ∀ c ∈ cs, c.conforms = true := by
  induction cs with
  | nil => simp [conformsAll]
  | cons c cs ih => simp [conformsAll, ih]

theorem conformsAll_append (l m : List Content) : conformsAll (l ++ m) = (conformsAll l && conformsAll m) := by
  induction l with
  | nil => rfl
  | cons c l ih => simp [conformsAll, ih, Bool.and_assoc]

/-- What one level promises, entry by entry. -/
structure Level (args : List FdsXmlArgs) (cs : List Content) : Prop where
  declared : ∀ c ∈ cs, ∃ a ∈ args, a.id = c.id ∧ a.type = c.type
  present : ∀ a ∈ args, a.flags.opt = false → ∃ c ∈ cs, c.id = a.id
  single : ∀ a ∈ args, a.flags.multi = false → cs.countP (fun c => c.id == a.id) ≤ 1

/-- Two children with the id of an entry the schema allows once are the same child. -/
theorem Level.unique {args : List FdsXmlArgs} {cs : List Content} (level : Level args cs)
    (a : FdsXmlArgs) (mem : a ∈ args) (once : a.flags.multi = false) {c d : Content}
    (hc : c ∈ cs) (hd : d ∈ cs) (ic : c.id = a.id) (id : d.id = a.id) : c = d := by
  have single := level.single a mem once
  clear level
  induction cs with
  | nil => cases hc
  | cons x xs ih =>
    rw [List.countP_cons] at single
    have first : ∀ e ∈ xs, e.id = a.id → x.id ≠ a.id := fun e he ie ix => by
      have : 0 < xs.countP (fun c => c.id == a.id) := List.countP_pos_iff.mpr ⟨e, he, by simp [ie]⟩
      simp only [ix, beq_self_eq_true, if_true] at single
      omega
    rcases List.mem_cons.mp hc with hc | hc <;> rcases List.mem_cons.mp hd with hd | hd
    · rw [hc, hd]
    · exact absurd (hc ▸ ic) (first d hd id)
    · exact absurd (hd ▸ id) (first c hc ic)
    · exact ih hc hd (by split at single <;> omega)

private theorem level_of_conforms {args : List FdsXmlArgs} {cs : List Content}
    (h : levelConforms args cs = true) : Level args cs := by
  simp only [levelConforms, Bool.and_eq_true, List.all_eq_true, List.any_eq_true, beq_iff_eq,
    Bool.or_eq_true, decide_eq_true_eq] at h
  obtain ⟨⟨declared, present⟩, single⟩ := h
  refine ⟨declared, fun a mem opt => ?_, fun a mem multi => ?_⟩
  · simpa [opt] using present a mem
  · simpa [multi] using single a mem

/-- The children of a conforming context conform to the table of its id. -/
theorem context_conforms {id : Node} {cs : List Content}
    (h : (Content.context id cs).conforms = true) :
    Level (nestedArgs id) cs ∧ ∀ c ∈ cs, c.conforms = true := by
  simp only [Content.conforms, Bool.and_eq_true, conformsAll_iff] at h
  exact ⟨level_of_conforms h.1, h.2⟩

/-- A character XML 1.0 lets a document hold (its production `Char`): no NUL, and no other
    control character but tab, line feed and carriage return. -/
def xmlChar (c : Char) : Bool :=
  c.toNat = 0x9 || c.toNat = 0xA || c.toNat = 0xD || (0x20 ≤ c.toNat && c.toNat ≤ 0xD7FF) ||
    (0xE000 ≤ c.toNat && c.toNat ≤ 0xFFFD) || 0x10000 ≤ c.toNat

/-- White space as XML 1.0 has it (its production `S`). -/
def xmlSpace (c : Char) : Bool :=
  c.toNat = 0x20 || c.toNat = 0x9 || c.toNat = 0xA || c.toNat = 0xD

/-- A text the parser can hand over as the value of an element: XML characters only, so
    a text read from a C string, and no white space at either end, which holds whether or
    not the loader trims the values. -/
def xmlText (s : String) : Bool :=
  s.toList.all xmlChar && !(s.toList.head?.any xmlSpace) && !(s.toList.getLast?.any xmlSpace)

/-- A text of XML characters none of which is white space can be handed over. -/
theorem xmlText_of_chars {s : String} (each : ∀ c ∈ s.toList, xmlChar c = true ∧ xmlSpace c = false) :
    xmlText s = true := by
  simp only [xmlText, Bool.and_eq_true, Bool.not_eq_true', List.all_eq_true]
  refine ⟨⟨fun c mem => (each c mem).1, ?_⟩, ?_⟩
  · cases head : s.toList.head? with
    | none => rfl
    | some c => simpa using (each c (List.mem_of_mem_head? head)).2
  · cases last : s.toList.getLast? with
    | none => rfl
    | some c => simpa using (each c (List.mem_of_getLast?_eq_some last)).2

mutual
/-- The texts of a child and of every child under it, in document order. -/
def Content.texts : Content → List String
  | .string _ text => [text]
  | .context _ cs => textsAll cs
  | _ => []
/-- The texts of a list of children. -/
def textsAll : List Content → List String
  | [] => []
  | c :: cs => c.texts ++ textsAll cs
end

theorem mem_textsAll {t : String} {cs : List Content} : t ∈ textsAll cs ↔ ∃ c ∈ cs, t ∈ c.texts := by
  induction cs with
  | nil => simp [textsAll]
  | cons c cs ih => simp [textsAll, ih]

theorem textsAll_append (l m : List Content) : textsAll (l ++ m) = textsAll l ++ textsAll m := by
  induction l with
  | nil => rfl
  | cons c l ih => simp [textsAll, ih]

/-! ### Loops over the children -/

section Loop
variable {σ β : Type} {step : σ → Content → Except Error σ}

/-- The value the last child picked out by `write` gives, `d` when no child is. -/
def lastValue (write : Content → Option β) (d : β) (cs : List Content) : β :=
  ((cs.filterMap write).getLast?).getD d

/-- The text of a string child with node `id`: what a `<name>` or another text element
    gives. -/
def textOf (id : Node) : Content → Option String
  | .string id' text => if id' = id then some text else none
  | _ => none

theorem textOf_of_id {id : Node} {c : Content} (other : c.id ≠ id) : textOf id c = none := by
  cases c <;> simp_all [textOf, Content.id]

@[simp] theorem lastValue_nil (write : Content → Option β) (d : β) : lastValue write d [] = d := rfl

theorem lastValue_cons (write : Content → Option β) (d : β) (c : Content) (cs : List Content) :
    lastValue write d (c :: cs) = lastValue write ((write c).getD d) cs := by
  cases picked : write c <;> simp [lastValue, List.filterMap_cons, picked, List.getLast?_cons]

/-- The last value is the default or one that some child of the list gives. -/
theorem lastValue_mem (write : Content → Option β) (d : β) (cs : List Content) :
    lastValue write d cs = d ∨ ∃ c ∈ cs, write c = some (lastValue write d cs) := by
  unfold lastValue
  cases last : (cs.filterMap write).getLast? with
  | none => exact .inl rfl
  | some v =>
    obtain ⟨c, mem, picked⟩ := List.mem_filterMap.mp (List.mem_of_getLast?_eq_some last)
    exact .inr ⟨c, mem, by simpa using picked⟩

/-- With some child picked out, the last value is one a child gives. -/
theorem lastValue_written (write : Content → Option β) (d : β) {cs : List Content}
    {c : Content} {v : β} (mem : c ∈ cs) (picked : write c = some v) :
    ∃ c ∈ cs, write c = some (lastValue write d cs) := by
  unfold lastValue
  cases last : (cs.filterMap write).getLast? with
  | none => simp_all [List.getLast?_eq_none_iff, List.filterMap_eq_nil_iff]
  | some w =>
    obtain ⟨c, mem, picked⟩ := List.mem_filterMap.mp (List.mem_of_getLast?_eq_some last)
    exact ⟨c, mem, by simpa using picked⟩

theorem foldlM_cons_ok {α : Type} {f : σ → α → Except Error σ} {s s' : σ} {c : α} {cs : List α}
    (first : f s c = .ok s') : (c :: cs).foldlM f s = cs.foldlM f s' := by
  simp [List.foldlM_cons, first, bind, Except.bind]

theorem foldlM_cons_error {α : Type} {f : σ → α → Except Error σ} {s : σ} {e : Error} {c : α}
    {cs : List α} (first : f s c = .error e) : (c :: cs).foldlM f s = .error e := by
  simp [List.foldlM_cons, first, bind, Except.bind]

/-- A loop that returns normally ran a successful step on each child. -/
theorem foldlM_each {init r : σ} {cs : List Content} (run : cs.foldlM step init = .ok r) :
    ∀ c ∈ cs, ∃ s s', step s c = .ok s' := by
  induction cs generalizing init with
  | nil => simp
  | cons c cs ih =>
    cases first : step init c with
    | error e => rw [foldlM_cons_error first] at run; cases run
    | ok s' =>
      rw [foldlM_cons_ok first] at run
      rintro c' (_ | ⟨_, mem⟩)
      · exact ⟨init, s', first⟩
      · exact ih run c' mem

/-- An invariant every step on a child of the list keeps holds after the loop. -/
theorem foldlM_inv (P : σ → Prop) {init r : σ} {cs : List Content} (start : P init)
    (keep : ∀ s c s', c ∈ cs → P s → step s c = .ok s' → P s')
    (run : cs.foldlM step init = .ok r) : P r := by
  induction cs generalizing init with
  | nil => cases run; exact start
  | cons c cs ih =>
    cases first : step init c with
    | error e => rw [foldlM_cons_error first] at run; cases run
    | ok s' =>
      rw [foldlM_cons_ok first] at run
      exact ih (keep init c s' (.head _) start first)
        (fun s c s'' mem => keep s c s'' (.tail _ mem)) run

theorem lastValue_eq_foldl (write : Content → Option β) (d : β) (cs : List Content) :
    lastValue write d cs = cs.foldl (fun v c => (write c).getD v) d := by
  induction cs generalizing d with
  | nil => rfl
  | cons c cs ih => rw [lastValue_cons, ih, List.foldl_cons]

/-- A list in the state to which each step adds the child's share, in some order, ends as
    the start and the shares of all children, up to order. -/
theorem foldlM_perm {β : Type} (f : σ → List β) (share : Content → List β) {init r : σ}
    {cs : List Content} (adds : ∀ s c s', step s c = .ok s' → (f s').Perm (f s ++ share c))
    (run : cs.foldlM step init = .ok r) : (f r).Perm (f init ++ cs.flatMap share) := by
  induction cs generalizing init with
  | nil => cases run; simp
  | cons c cs ih =>
    cases first : step init c with
    | error e => rw [foldlM_cons_error first] at run; cases run
    | ok s' =>
      rw [foldlM_cons_ok first] at run
      refine (ih run).trans ?_
      simpa [List.flatMap_cons, List.append_assoc] using (adds _ _ _ first).append_right (cs.flatMap share)

/-- A part of the state that each step updates from the child alone ends at the left
    fold of that update over the children. -/
theorem foldlM_acc (f : σ → β) (upd : β → Content → β) {init r : σ} {cs : List Content}
    (sets : ∀ s c s', step s c = .ok s' → f s' = upd (f s) c)
    (run : cs.foldlM step init = .ok r) : f r = cs.foldl upd (f init) := by
  induction cs generalizing init with
  | nil => cases run; rfl
  | cons c cs ih =>
    cases first : step init c with
    | error e => rw [foldlM_cons_error first] at run; cases run
    | ok s' =>
      rw [foldlM_cons_ok first] at run
      rw [ih run, sets init c s' first, List.foldl_cons]

/-- A field that each step sets from the child `write` picks out, and keeps on every
    other child, ends at the last picked child's value. -/
theorem foldlM_field (f : σ → β) (write : Content → Option β) {init r : σ} {cs : List Content}
    (sets : ∀ s c s', step s c = .ok s' → f s' = (write c).getD (f s))
    (run : cs.foldlM step init = .ok r) : f r = lastValue write (f init) cs :=
  (foldlM_acc f _ sets run).trans (lastValue_eq_foldl write (f init) cs).symm

/-- A field set only from picked children, each of whose values passed the step's check
    `Q`, satisfies `Q` after a loop in which some child is always picked. -/
theorem foldlM_required (f : σ → β) (write : Content → Option β) (Q : β → Prop) {init r : σ}
    {cs : List Content} (sets : ∀ s c s', step s c = .ok s' → f s' = (write c).getD (f s))
    (checks : ∀ s c s' v, step s c = .ok s' → write c = some v → Q v)
    (present : ∃ c ∈ cs, ∀ s s', step s c = .ok s' → (write c).isSome)
    (run : cs.foldlM step init = .ok r) : Q (f r) := by
  obtain ⟨c, mem, picks⟩ := present
  obtain ⟨s, s', ok⟩ := foldlM_each run c mem
  obtain ⟨v, picked⟩ := Option.isSome_iff_exists.mp (picks s s' ok)
  obtain ⟨c', mem', picked'⟩ := lastValue_written write (f init) mem picked
  obtain ⟨t, t', ok'⟩ := foldlM_each run c' mem'
  rw [foldlM_field f write sets run]
  exact checks t c' t' _ ok' picked'

/-- A loop whose steps keep only the texts they had, those of `extra` and those of the
    child keeps only the texts it started with, those of `extra` and those of the
    children. -/
theorem foldlM_texts (f : σ → List String) (extra : List String) {init r : σ} {cs : List Content}
    (keeps : ∀ s c s', step s c = .ok s' → f s' ⊆ f s ++ extra ++ c.texts)
    (run : cs.foldlM step init = .ok r) : f r ⊆ f init ++ extra ++ textsAll cs := by
  refine foldlM_inv (fun s => f s ⊆ f init ++ extra ++ textsAll cs)
    (List.subset_append_of_subset_left _ (List.subset_append_left _ _))
    (fun s c s' mem sub step t kept => ?_) run
  rcases List.mem_append.mp (keeps s c s' step kept) with old | new
  · rcases List.mem_append.mp old with old | extra
    · exact sub old
    · exact List.mem_append_left _ (List.mem_append_right _ extra)
  · exact List.mem_append_right _ (mem_textsAll.mpr ⟨c, mem, new⟩)

/-- A loop whose step returns normally on each child, from any state, returns normally. -/
theorem foldlM_ok_of_each (init : σ) {cs : List Content}
    (each : ∀ s, ∀ c ∈ cs, ∃ s', step s c = .ok s') : ∃ r, cs.foldlM step init = .ok r := by
  induction cs generalizing init with
  | nil => exact ⟨init, rfl⟩
  | cons c cs ih =>
    obtain ⟨s', first⟩ := each init c (.head _)
    rw [foldlM_cons_ok first]
    exact ih s' fun s d mem => each s d (.tail _ mem)

/-- A loop whose step fails on a child of the list never returns normally. -/
theorem foldlM_error_of_mem (init : σ) {cs : List Content} {c : Content} (mem : c ∈ cs)
    (fails : ∀ s, ∃ e, step s c = .error e) : ∃ e, cs.foldlM step init = .error e := by
  cases run : cs.foldlM step init with
  | error e => exact ⟨e, rfl⟩
  | ok r =>
    obtain ⟨s, s', ok⟩ := foldlM_each run c mem
    obtain ⟨e, err⟩ := fails s
    rw [ok] at err; cases err

end Loop

end JsonConfig.Xml
