import JsonConfig.Params

/-!
# The order of the output elements

Each parser of an output element folds over the element's own children and appends one
output to the list of its kind, so what `parse_outputs` does with an element does not
depend on the outputs collected before it (`outputsStep_ok_iff`). Two output elements
of different kinds therefore give the same outputs in either order, and swapping them
anywhere among the children of `<outputs>` changes nothing the loop returns
(`parseOutputs_swap`); only which exception is thrown first can change.
-/

namespace JsonConfig.Order
open JsonConfig.Xml JsonConfig.Outputs JsonConfig.Params

/-- No outputs of any kind. -/
def noOutputs : CfgOutputs := ⟨[], [], [], [], [], []⟩

/-- The outputs `o` with those of `e` appended, kind by kind. -/
def appendOutputs (o e : CfgOutputs) : CfgOutputs :=
  ⟨o.prints ++ e.prints, o.servers ++ e.servers, o.sends ++ e.sends, o.files ++ e.files,
    o.kafkas ++ e.kafkas, o.syslogs ++ e.syslogs⟩

/-! ### Each parser appends to whatever outputs it starts from -/

/-- Every parser of an output element has one shape: a loop from its defaults, checks on
    the result, and an append to one list of the outputs it was given. So each appends to
    whatever outputs it starts from; the proof is once over that shape. -/
theorem outputsStep_shift (P : Platform) (o : CfgOutputs) (c : Content) :
    outputsStep P o c = (outputsStep P noOutputs c).map (appendOutputs o) := by
  simp only [outputsStep]
  cases c.ptrCtx with
  | error e => rfl
  | ok ctx =>
    simp only [bind, Except.bind]
    split
    all_goals first
      | rfl
      | simp only [parsePrint, parseSend, parseFile, parseServer, Kafka.parseKafka, Syslog.parseSyslog]
        generalize @List.foldlM (Except Error) _ _ _ _ _ ctx = run
        cases run with
        | error e => rfl
        | ok x =>
          simp [appendOutputs, noOutputs, bind, Except.bind, Except.map, pure, Except.pure, throw, throwThe,
            MonadExceptOf.throw]
          split_ifs <;> simp

/-- A step of `parse_outputs` returns normally exactly when it does from no outputs, and
    then appends what it returns from there. -/
theorem outputsStep_ok_iff {P : Platform} {o o' : CfgOutputs} {c : Content} :
    outputsStep P o c = .ok o' ↔ ∃ e, outputsStep P noOutputs c = .ok e ∧ o' = appendOutputs o e := by
  rw [outputsStep_shift]
  cases outputsStep P noOutputs c <;> simp [Except.map, eq_comm]

/-- From no outputs, a step appends one output, of its element's kind. -/
private theorem outputsStep_single {P : Platform} {c : Content} {e : CfgOutputs}
    (step : outputsStep P noOutputs c = .ok e) :
    (c.id = .outputPrint ∧ ∃ x, e = { noOutputs with prints := [x] }) ∨
    (c.id = .outputServer ∧ ∃ x, e = { noOutputs with servers := [x] }) ∨
    (c.id = .outputSend ∧ ∃ x, e = { noOutputs with sends := [x] }) ∨
    (c.id = .outputFile ∧ ∃ x, e = { noOutputs with files := [x] }) ∨
    (c.id = .outputKafka ∧ ∃ x, e = { noOutputs with kafkas := [x] }) ∨
    (c.id = .outputSyslog ∧ ∃ x, e = { noOutputs with syslogs := [x] }) := by
  obtain ⟨ctx, -, step⟩ := bind_ok.mp step
  split at step <;> rename_i same <;> try cases step
  · obtain ⟨x, -, -, -, rfl⟩ := parsePrint_ok step
    exact .inl ⟨same, x, rfl⟩
  · obtain ⟨x, -, -, -, -, -, rfl⟩ := parseSend_ok step
    exact .inr (.inr (.inl ⟨same, x, rfl⟩))
  · obtain ⟨x, -, -, -, -, rfl⟩ := parseFile_ok step
    exact .inr (.inr (.inr (.inl ⟨same, x, rfl⟩)))
  · obtain ⟨x, -, -, -, rfl⟩ := parseServer_ok step
    exact .inr (.inl ⟨same, x, rfl⟩)
  · obtain ⟨x, -, -, -, -, -, rfl⟩ := Kafka.parseKafka_ok step
    exact .inr (.inr (.inr (.inr (.inl ⟨same, x, rfl⟩))))
  · obtain ⟨x, -, -, -, -, -, rfl⟩ := Syslog.parseSyslog_ok step
    exact .inr (.inr (.inr (.inr (.inr ⟨same, x, rfl⟩))))

/-- Outputs of two different kinds are appended in either order with the same result. -/
private theorem appendOutputs_comm {P : Platform} {c d : Content} {e f : CfgOutputs} (differ : c.id ≠ d.id)
    (first : outputsStep P noOutputs c = .ok e) (second : outputsStep P noOutputs d = .ok f)
    (o : CfgOutputs) : appendOutputs (appendOutputs o e) f = appendOutputs (appendOutputs o f) e := by
  rcases outputsStep_single first with ⟨kind, x, rfl⟩ | ⟨kind, x, rfl⟩ | ⟨kind, x, rfl⟩ | ⟨kind, x, rfl⟩ |
    ⟨kind, x, rfl⟩ | ⟨kind, x, rfl⟩ <;>
  rcases outputsStep_single second with ⟨kind', y, rfl⟩ | ⟨kind', y, rfl⟩ | ⟨kind', y, rfl⟩ |
    ⟨kind', y, rfl⟩ | ⟨kind', y, rfl⟩ | ⟨kind', y, rfl⟩ <;>
  first
    | exact absurd (kind.trans kind'.symm) differ
    | simp [appendOutputs, noOutputs]

/-- Two steps on elements of different kinds return the same outputs in the other order. -/
private theorem outputsStep_swap {P : Platform} {c d : Content} (differ : c.id ≠ d.id) {s r : CfgOutputs}
    (run : (outputsStep P s c >>= fun s' => outputsStep P s' d) = .ok r) :
    (outputsStep P s d >>= fun s' => outputsStep P s' c) = .ok r := by
  obtain ⟨_, stepC, stepD⟩ := bind_ok.mp run
  obtain ⟨e, first, rfl⟩ := outputsStep_ok_iff.mp stepC
  obtain ⟨f, second, rfl⟩ := outputsStep_ok_iff.mp stepD
  exact bind_ok.mpr ⟨_, outputsStep_ok_iff.mpr ⟨f, second, rfl⟩,
    outputsStep_ok_iff.mpr ⟨e, first, appendOutputs_comm differ first second s⟩⟩

/-- Swapping two neighbouring output elements of different kinds changes nothing
    `parse_outputs` returns. -/
theorem parseOutputs_swap (P : Platform) (o : CfgOutputs) (cs ds : List Content) {c d : Content}
    (differ : c.id ≠ d.id) (r : CfgOutputs) :
    parseOutputs P o (cs ++ c :: d :: ds) = .ok r ↔ parseOutputs P o (cs ++ d :: c :: ds) = .ok r := by
  have pair : ∀ a b : Content, ∀ s, (a :: b :: ds).foldlM (outputsStep P) s =
      (outputsStep P s a >>= fun s' => outputsStep P s' b) >>= ds.foldlM (outputsStep P) := by
    intro a b s
    simp only [List.foldlM_cons, bind_assoc]
  simp only [parseOutputs, List.foldlM_append, pair]
  exact bind_ok_congr (fun _ => .rfl) fun s => bind_ok_congr
    (fun _ => ⟨outputsStep_swap differ, outputsStep_swap (Ne.symm differ)⟩) fun _ => .rfl

/-- The constructor returns the same configuration when two neighbouring output elements
    of different kinds of `<outputs>` are swapped. -/
theorem ofParams_swap (P : Platform) (pre post cs ds : List Content) {c d : Content}
    (differ : c.id ≠ d.id) (cfg : Config) :
    Config.ofParams P (.ok (pre ++ .context .outputList (cs ++ c :: d :: ds) :: post)) = .ok cfg ↔
      Config.ofParams P (.ok (pre ++ .context .outputList (cs ++ d :: c :: ds) :: post)) = .ok cfg := by
  simp only [ofParams_iff, parseParams, List.foldlM_append, List.foldlM_cons]
  refine and_congr_left fun _ => bind_ok_congr (fun _ => .rfl) fun s => bind_ok_congr (fun _ => ?_) fun _ => .rfl
  simp only [paramsStep, Content.id, Content.ptrCtx, ok_bind]
  exact bind_ok_congr (parseOutputs_swap P s.outputs cs ds differ) fun _ => .rfl

theorem ofParams_swap_server_print :
    Config.ofParams ⟨fun _ => false, fun _ => false, -1, ⟨32, true⟩⟩
        (.ok [.context .outputList [.context .outputServer [.string .serverName "server",
          .uint .serverPort 4739, .bool .serverBlock false], .context .outputPrint [.string .printName "print"]]]) =
      .ok ⟨defaultSet.format, ⟨[⟨"print"⟩], [⟨"server", 4739, false⟩], [], [], [], []⟩⟩ :=
  (ofParams_swap _ [] [] [] [] (by decide) _).mp rfl

end JsonConfig.Order
