/-
# Which layer of a configuration counts

A configuration is read from data that are merged one after another.  A setting lies at
the end of a way into them, as deep as it may be, and the last layer that has anything
there gives it, whatever the layers say about the settings next to it.

Merging at the ends of ways is described for data of any shape (`Value.at?_merged`), and
readers keep to the ways (`Value.Tells`).  Here the second is carried from the fields of
each structure to the structure, the inner ones first, and from a configuration to the
layers that are merged for it (`givenBy_of_merged`).  The settings are all that there is
to a configuration (`isSetting_of_leaf`).  `last_layer_gives` says it of the files and the
environment that a configuration is loaded from.
-/

import PreconditionMining.Proofs.Config.Reading

namespace PreconditionMining

namespace SolverOptions

/-- The ways to the settings of a solver: to each field, and to whatever the free-form entries
may have in them. -/
def IsSetting (way : List String) : Prop :=
  (∃ name ∈ fieldNames, way = [name]) ∨ ∃ inner, way = "extra" :: inner

/-- **Each field of options is read from under its name.** -/
theorem decodeWith_eq_ok {keep : Value → Decoded Value} {fields : List (String × Value)}
    {o : SolverOptions} (h : decodeWith keep (.record fields) = .ok o) :
    Decode.fieldOr fields "distinct" true Decode.bool = .ok o.distinct ∧
    Decode.fieldOr fields "extra" .empty (Decode.dictionary keep) = .ok o.extra ∧
    Decode.fieldOr fields "max_attempts" 1000 Decode.word64 = .ok o.maxAttempts ∧
    Decode.fieldOr fields "max_depth" 16 Decode.word64 = .ok o.maxDepth ∧
    Decode.fieldOr fields "seed" none (Decode.optional Decode.word64) = .ok o.seed ∧
    Decode.fieldOr fields "timeout_ms" none (Decode.optional Decode.word64) = .ok o.timeoutMs := by
  rw [decodeWith, Decode.fieldwise] at h
  obtain ⟨distinct, h₁, h⟩ := exists_of_bind_eq_ok h
  obtain ⟨extra, h₂, h⟩ := exists_of_bind_eq_ok h
  obtain ⟨maxAttempts, h₃, h⟩ := exists_of_bind_eq_ok h
  obtain ⟨maxDepth, h₄, h⟩ := exists_of_bind_eq_ok h
  obtain ⟨seed, h₅, h⟩ := exists_of_bind_eq_ok h
  obtain ⟨timeoutMs, h₆, h⟩ := exists_of_bind_eq_ok h
  cases h
  exact ⟨h₁, h₂, h₃, h₄, h₅, h₆⟩

/-- **What options are read from tells each of their settings.** -/
theorem tells {given : Value} (ordered : given.Ordered) {o : SolverOptions}
    (h : decodeWith Value.kept given = .ok o) {way : List String} (setting : IsSetting way) :
    given.Tells way (o.encode.at? way) ((encode {}).at? way) := by
  have entries {inner : List String} : given.Tells ("extra" :: inner)
      (o.encode.at? ("extra" :: inner)) ((encode {}).at? ("extra" :: inner)) := by
    refine .of_record fun fields same => ?_
    subst same
    obtain ⟨-, extra, -⟩ := decodeWith_eq_ok h
    refine .of_field (fun d => (Value.ofDictionary d).at? inner) extra fun v found read => ?_
    exact .of_kept (Decode.kept_of_dictionary (ordered.part found) read) inner
  rcases setting with ⟨name, known, rfl⟩ | ⟨inner, rfl⟩
  · refine .of_record fun fields same => ?_
    subst same
    obtain ⟨distinct, -, maxAttempts, maxDepth, seed, timeoutMs⟩ := decodeWith_eq_ok h
    simp only [fieldNames, List.mem_cons, List.not_mem_nil, or_false] at known
    rcases known with rfl | rfl | rfl | rfl | rfl | rfl
    · exact (Value.Tells.of_leaf Decode.faithful_ofNat? timeoutMs :)
    · exact (Value.Tells.of_leaf Decode.faithful_word64 maxDepth :)
    · exact (Value.Tells.of_leaf Decode.faithful_word64 maxAttempts :)
    · exact (Value.Tells.of_leaf Decode.faithful_bool distinct :)
    · exact (Value.Tells.of_leaf Decode.faithful_ofNat? seed :)
    · exact entries
  · exact entries

/-- The leaves of options are settings. -/
theorem isSetting_of_leaf (o : SolverOptions) :
    ∀ way v, o.encode.at? way = some v → v.IsLeaf → IsSetting way := by
  have number (n : Option Nat) : (Value.ofNat? n).IsLeaf := by cases n <;> trivial
  have single (name : String) (known : name ∈ fieldNames) : IsSetting [name] :=
    .inl ⟨name, known, rfl⟩
  exact Value.forall_leaf_record
    ⟨Value.IsLeaf.forall_leaf trivial (single "distinct" (by decide)),
      fun way _ _ _ => .inr ⟨way, rfl⟩,
      Value.IsLeaf.forall_leaf trivial (single "max_attempts" (by decide)),
      Value.IsLeaf.forall_leaf trivial (single "max_depth" (by decide)),
      (number o.seed).forall_leaf (single "seed" (by decide)),
      (number o.timeoutMs).forall_leaf (single "timeout_ms" (by decide))⟩

/-- Every way to a setting leads through the defaults. -/
theorem leads_encode_default {way : List String} (setting : IsSetting way) :
    (encode {}).Leads way := by
  rcases setting with ⟨name, known, rfl⟩ | ⟨inner, rfl⟩
  · exact Value.leads_singleton id
  · refine ⟨id, fun v found => ?_⟩
    cases found
    exact Value.leads_empty inner

end SolverOptions

namespace SuiteSettings

/-- The ways to the settings of a suite: to each field, and to the settings of its solver. -/
def IsSetting (way : List String) : Prop :=
  (∃ name ∈ fieldNames, name ≠ "solver" ∧ way = [name]) ∨
    ∃ inner, way = "solver" :: inner ∧ SolverOptions.IsSetting inner

/-- **Each field of settings is read from under its name.** -/
theorem decodeWith_eq_ok {keep : Value → Decoded Value} {fields : List (String × Value)}
    {s : SuiteSettings} (h : decodeWith keep (.record fields) = .ok s) :
    Decode.fieldOr fields "max_learner_retries" 5 Decode.word32 = .ok s.maxLearnerRetries ∧
    Decode.fieldOr fields "num_tries" 100 Decode.word64 = .ok s.numTries ∧
    Decode.fieldOr fields "solver" {} (SolverOptions.decodeWith keep) = .ok s.solver ∧
    Decode.fieldOr fields "target_num_samples" 200 Decode.word64 = .ok s.targetNumSamples ∧
    Decode.fieldOr fields "verbose" false Decode.bool = .ok s.verbose := by
  rw [decodeWith, Decode.fieldwise] at h
  obtain ⟨maxLearnerRetries, h₁, h⟩ := exists_of_bind_eq_ok h
  obtain ⟨numTries, h₂, h⟩ := exists_of_bind_eq_ok h
  obtain ⟨solver, h₃, h⟩ := exists_of_bind_eq_ok h
  obtain ⟨targetNumSamples, h₄, h⟩ := exists_of_bind_eq_ok h
  obtain ⟨verbose, h₅, h⟩ := exists_of_bind_eq_ok h
  cases h
  exact ⟨h₁, h₂, h₃, h₄, h₅⟩

/-- **What settings are read from tells each of them.** -/
theorem tells {given : Value} (ordered : given.Ordered) {s : SuiteSettings}
    (h : decodeWith Value.kept given = .ok s) {way : List String} (setting : IsSetting way) :
    given.Tells way (s.encode.at? way) ((encode {}).at? way) := by
  rcases setting with ⟨name, known, other, rfl⟩ | ⟨inner, rfl, setting⟩ <;>
    refine .of_record fun fields same => ?_ <;> subst same <;>
    obtain ⟨maxLearnerRetries, numTries, solver, targetNumSamples, verbose⟩ := decodeWith_eq_ok h
  · simp only [fieldNames, List.mem_cons, List.not_mem_nil, or_false] at known
    rcases known with rfl | rfl | rfl | rfl | rfl
    · exact (Value.Tells.of_leaf Decode.faithful_word64 targetNumSamples :)
    · exact (Value.Tells.of_leaf Decode.faithful_word64 numTries :)
    · exact (Value.Tells.of_leaf Decode.faithful_word32 maxLearnerRetries :)
    · exact (Value.Tells.of_leaf Decode.faithful_bool verbose :)
    · exact absurd rfl other
  · exact .of_field (fun o => o.encode.at? inner) solver fun v found read =>
      SolverOptions.tells (ordered.part found) read setting

/-- The leaves of settings are settings. -/
theorem isSetting_of_leaf (s : SuiteSettings) :
    ∀ way v, s.encode.at? way = some v → v.IsLeaf → IsSetting way := by
  have single (name : String) (known : name ∈ fieldNames) (other : name ≠ "solver") :
      IsSetting [name] := .inl ⟨name, known, other, rfl⟩
  exact Value.forall_leaf_record
    ⟨Value.IsLeaf.forall_leaf trivial (single "max_learner_retries" (by decide) (by decide)),
      Value.IsLeaf.forall_leaf trivial (single "num_tries" (by decide) (by decide)),
      fun way v h leaf => .inr ⟨way, rfl, s.solver.isSetting_of_leaf way v h leaf⟩,
      Value.IsLeaf.forall_leaf trivial (single "target_num_samples" (by decide) (by decide)),
      Value.IsLeaf.forall_leaf trivial (single "verbose" (by decide) (by decide))⟩

theorem leads_encode_default {way : List String} (setting : IsSetting way) :
    (encode {}).Leads way := by
  rcases setting with ⟨name, known, other, rfl⟩ | ⟨inner, rfl, setting⟩
  · exact Value.leads_singleton id
  · refine ⟨id, fun v found => ?_⟩
    cases found
    exact SolverOptions.leads_encode_default setting

end SuiteSettings

namespace EvaluationSettings

/-- The way to the setting of an evaluation. -/
def IsSetting (way : List String) : Prop := way = ["sample_count"]

/-- **What settings are read from tells them.** -/
theorem tells {given : Value} {s : EvaluationSettings} (h : decode given = .ok s)
    {way : List String} (setting : IsSetting way) :
    given.Tells way (s.encode.at? way) ((encode {}).at? way) := by
  subst setting
  refine .of_record fun fields same => ?_
  subst same
  rw [decode, Decode.fieldwise] at h
  obtain ⟨sampleCount, read, h⟩ := exists_of_bind_eq_ok h
  cases h
  exact (Value.Tells.of_leaf Decode.faithful_word64 read :)

theorem isSetting_of_leaf (s : EvaluationSettings) :
    ∀ way v, s.encode.at? way = some v → v.IsLeaf → IsSetting way := by
  have single : IsSetting ["sample_count"] := rfl
  exact Value.forall_leaf_record (Value.IsLeaf.forall_leaf trivial single)

theorem leads_encode_default {way : List String} (setting : IsSetting way) :
    (encode {}).Leads way := by
  subst setting
  exact Value.leads_singleton id

end EvaluationSettings

namespace LogSettings

/-- The ways to the settings of a log: to each field. -/
def IsSetting (way : List String) : Prop := ∃ name ∈ fieldNames, way = [name]

/-- The settings of a log with the choices settled. -/
def settled : Value → Value :=
  Value.mapField fieldNames "format" firstChoice ∘ Value.mapField fieldNames "rotation" firstChoice

/-- **Each field of settings is read from under its name.** -/
theorem decode_eq_ok {fields : List (String × Value)} {s : LogSettings}
    (h : decode (.record fields) = .ok s) :
    Decode.fieldOr fields "enable_stdout" true Decode.bool = .ok s.enableStdout ∧
    Decode.fieldOr fields "format" .pretty (Decode.oneOf LogFormat.names) = .ok s.format ∧
    Decode.fieldOr fields "level" "info" Decode.text = .ok s.level ∧
    Decode.fieldOr fields "log_dir" none (Decode.optional Decode.text) = .ok s.logDir ∧
    Decode.fieldOr fields "rotation" .daily (Decode.oneOf RotationPolicy.names) =
      .ok s.rotation := by
  rw [decode, Decode.fieldwise] at h
  obtain ⟨enableStdout, h₁, h⟩ := exists_of_bind_eq_ok h
  obtain ⟨format, h₂, h⟩ := exists_of_bind_eq_ok h
  obtain ⟨level, h₃, h⟩ := exists_of_bind_eq_ok h
  obtain ⟨logDir, h₄, h⟩ := exists_of_bind_eq_ok h
  obtain ⟨rotation, h₅, h⟩ := exists_of_bind_eq_ok h
  cases h
  exact ⟨h₁, h₂, h₃, h₄, h₅⟩

/-- Settling choices changes no leaf. -/
theorem tells_of_settled {α : Type} {fields fields' : List (String × Value)} {name : String}
    {decode : Value → Decoded α} {write : α → Value} {a b : α}
    (same : settled (.record fields) = .record fields') (faithful : Decode.Faithful decode write)
    (read : Decode.fieldOr fields' name a decode = .ok b) :
    (Value.record fields).Tells [name] (some (write b)) (some (write a)) := by
  cases same
  rw [Decode.fieldOr_mapField, Decode.fieldOr_mapField] at read
  refine .of_leaf (faithful.comp fun v leaf => ?_) read
  have settled : firstChoice v = v := by
    cases v with
    | record fields => exact leaf.elim
    | _ => rfl
  simp only [settled, ite_self]

/-- **What settings are read from tells each of them.** -/
theorem tells {given : Value} {s : LogSettings} (h : decode (settled given) = .ok s)
    {way : List String} (setting : IsSetting way) :
    given.Tells way (s.encode.at? way) ((encode {}).at? way) := by
  obtain ⟨name, known, rfl⟩ := setting
  refine .of_record fun fields same => ?_
  subst same
  obtain ⟨enableStdout, format, level, logDir, rotation⟩ := decode_eq_ok h
  have formats : Decode.Faithful (Decode.oneOf LogFormat.names) fun f => .text f.name :=
    Decode.faithful_oneOf (by simp [LogFormat.names, LogFormat.name])
  have policies : Decode.Faithful (Decode.oneOf RotationPolicy.names) fun r => .text r.name :=
    Decode.faithful_oneOf (by simp [RotationPolicy.names, RotationPolicy.name])
  simp only [fieldNames, List.mem_cons, List.not_mem_nil, or_false] at known
  rcases known with rfl | rfl | rfl | rfl | rfl
  · exact (tells_of_settled (by rfl) Decode.faithful_text level :)
  · exact (tells_of_settled (by rfl) formats format :)
  · exact (tells_of_settled (by rfl) (Decode.faithful_optional Decode.faithful_text) logDir :)
  · exact (tells_of_settled (by rfl) Decode.faithful_bool enableStdout :)
  · exact (tells_of_settled (by rfl) policies rotation :)

/-- The leaves of settings are settings. -/
theorem isSetting_of_leaf (s : LogSettings) :
    ∀ way v, s.encode.at? way = some v → v.IsLeaf → IsSetting way := by
  have single (name : String) (known : name ∈ fieldNames) : IsSetting [name] := ⟨name, known, rfl⟩
  have logDir : (s.logDir.elim Value.null .text).IsLeaf := by cases s.logDir <;> trivial
  exact Value.forall_leaf_record
    ⟨Value.IsLeaf.forall_leaf trivial (single "enable_stdout" (by decide)),
      Value.IsLeaf.forall_leaf trivial (single "format" (by decide)),
      Value.IsLeaf.forall_leaf trivial (single "level" (by decide)),
      logDir.forall_leaf (single "log_dir" (by decide)),
      Value.IsLeaf.forall_leaf trivial (single "rotation" (by decide))⟩

theorem leads_encode_default {way : List String} (setting : IsSetting way) :
    (encode {}).Leads way := by
  obtain ⟨name, -, rfl⟩ := setting
  exact Value.leads_singleton id

end LogSettings

namespace HarnessConfig

/-- **The ways to the settings of a configuration:** to those of each of its sections. -/
def IsSetting (way : List String) : Prop :=
  (∃ inner, way = "evaluation" :: inner ∧ EvaluationSettings.IsSetting inner) ∨
    (∃ inner, way = "logging" :: inner ∧ LogSettings.IsSetting inner) ∨
      ∃ inner, way = "suite" :: inner ∧ SuiteSettings.IsSetting inner

/-- **Each section of a configuration is read from under its name.** -/
theorem decodeWith_eq_ok {keep : Value → Decoded Value} {fields : List (String × Value)}
    {c : HarnessConfig} (h : decodeWith keep (.record fields) = .ok c) :
    Decode.fieldOr fields "evaluation" {} EvaluationSettings.decode = .ok c.evaluation ∧
    Decode.fieldOr fields "logging" {} LogSettings.decode = .ok c.logging ∧
    Decode.fieldOr fields "suite" {} (SuiteSettings.decodeWith keep) = .ok c.suite := by
  rw [decodeWith, Decode.fieldwise] at h
  obtain ⟨evaluation, h₁, h⟩ := exists_of_bind_eq_ok h
  obtain ⟨logging, h₂, h⟩ := exists_of_bind_eq_ok h
  obtain ⟨suite, h₃, h⟩ := exists_of_bind_eq_ok h
  cases h
  exact ⟨h₁, h₂, h₃⟩

/-- **What a configuration is read from tells each of its settings.** -/
theorem tells {given : Value} (ordered : given.Ordered) {c : HarnessConfig}
    (h : decodeWith Value.kept (settled given) = .ok c) {way : List String}
    (setting : IsSetting way) : given.Tells way (c.encode.at? way) ((encode {}).at? way) := by
  rcases setting with ⟨inner, rfl, setting⟩ | ⟨inner, rfl, setting⟩ | ⟨inner, rfl, setting⟩ <;>
    refine .of_record fun fields same => ?_ <;> subst same <;>
    obtain ⟨evaluation, logging, suite⟩ := decodeWith_eq_ok (by exact h)
  · rw [Decode.fieldOr_mapField] at evaluation
    refine .of_field (fun s => s.encode.at? inner) evaluation fun v _ read => ?_
    rw [if_neg (by decide)] at read
    exact EvaluationSettings.tells read setting
  · rw [Decode.fieldOr_mapField] at logging
    refine .of_field (fun s => s.encode.at? inner) logging fun v _ read => ?_
    rw [if_pos rfl] at read
    exact LogSettings.tells read setting
  · rw [Decode.fieldOr_mapField] at suite
    refine .of_field (fun s => s.encode.at? inner) suite fun v found read => ?_
    rw [if_neg (by decide)] at read
    exact SuiteSettings.tells (ordered.part found) read setting

/-- **The leaves of a configuration are settings.** -/
theorem isSetting_of_leaf (c : HarnessConfig) :
    ∀ way v, c.encode.at? way = some v → v.IsLeaf → IsSetting way :=
  Value.forall_leaf_record
    ⟨fun way v h leaf => .inl ⟨way, rfl, c.evaluation.isSetting_of_leaf way v h leaf⟩,
      fun way v h leaf => .inr (.inl ⟨way, rfl, c.logging.isSetting_of_leaf way v h leaf⟩),
      fun way v h leaf => .inr (.inr ⟨way, rfl, c.suite.isSetting_of_leaf way v h leaf⟩)⟩

/-- **Every way to a setting leads through the defaults.** -/
theorem leads_encode_default {way : List String} (setting : IsSetting way) :
    (encode {}).Leads way := by
  rcases setting with ⟨inner, rfl, setting⟩ | ⟨inner, rfl, setting⟩ | ⟨inner, rfl, setting⟩ <;>
    refine ⟨id, fun v found => ?_⟩ <;> cases found
  · exact EvaluationSettings.leads_encode_default setting
  · exact LogSettings.leads_encode_default setting
  · exact SuiteSettings.leads_encode_default setting

/-- **The last source that says anything about a setting gives it,** and the setting has its default
where no source says anything. -/
def GivenBy (c : HarnessConfig) (sources : List Value) : Prop :=
  ∀ way, IsSetting way → (∀ s ∈ sources, s.Leads way) →
    Value.Accords (Value.last? way sources) (c.encode.at? way) ((encode {}).at? way)

/-- A configuration that is read from merged data is given by them. -/
theorem givenBy_of_merged {base : Value} {layers : List Value}
    (ordered : ∀ s ∈ base :: layers, s.Ordered) {c : HarnessConfig}
    (h : decodeWith Value.kept (settled (layers.foldl Value.merge base)) = .ok c) :
    c.GivenBy (base :: layers) := by
  intro way setting leads
  obtain ⟨hb, hl⟩ := List.forall_mem_cons.1 ordered
  have told := tells (Value.ordered_merged hb hl) h setting (Value.leads_merged hl leads)
  by_cases leaf : ∀ v, Value.last? way (base :: layers) = some v → v.IsLeaf
  · rwa [Value.at?_merged hl leads leaf] at told
  · -- a section is given, and no leaf
    simp only [not_forall] at leaf
    obtain ⟨v, last, section'⟩ := leaf
    rw [last]
    exact fun leaf => absurd leaf section'

theorem givenBy_of_ofLayers {layers : List Value} (ordered : ∀ s ∈ layers, s.Ordered)
    {c : HarnessConfig} (h : ofLayers layers = .ok c) : c.GivenBy (encode {} :: layers) := by
  refine givenBy_of_merged (List.forall_mem_cons.2 ⟨ordered_encode_default, ordered⟩) ?_
  rw [ofLayers] at h
  split at h
  · cases h
  · next read =>
    split at h
    · cases h
    · cases h
      exact read

/-- **In a loaded configuration the last layer that says anything about a setting gives it.**  The
layers are records in which each field has one value, and sections lie where sections belong, so
that the way to the setting leads through each of them.  What the last layer with anything at the
end of the way has there is what the configuration has there, as data are kept; this holds however
many layers there are, for each setting by itself, and for the defaults, the two settings files and
the environment in particular, where a file that is missing says nothing.  (A choice that is given
as a record with its name is no leaf.)  A single file is loaded by the same law, without an
environment.  What is loaded is valid.  A configuration has no leaves but its settings, and the ways
to all of them lead through the defaults. -/
theorem last_layer_gives :
    (∀ (base : Value) (layers : List Value) (c : HarnessConfig),
      (∀ s ∈ base :: layers, s.Ordered) →
      decodeWith Value.kept (settled (layers.foldl Value.merge base)) = .ok c →
        c.GivenBy (base :: layers)) ∧
    (∀ (layers : List Value) (c : HarnessConfig), (∀ s ∈ layers, s.Ordered) →
      ofLayers layers = .ok c → c.GivenBy (encode {} :: layers) ∧ c.validate = .ok ()) ∧
    (∀ (sources : SettingsSources) (c : HarnessConfig), load sources = .ok c →
      ∃ project localSettings, fileLayer sources.project = .ok project ∧
        fileLayer sources.localFile = .ok localSettings ∧
        c.GivenBy [encode {}, project, localSettings, Environment.settings sources.environment] ∧
        c.validate = .ok ()) ∧
    (∀ (text : Option String) (c : HarnessConfig), loadFile text = .ok c →
      ∃ file, fileLayer text = .ok file ∧ c.GivenBy [encode {}, file] ∧ c.validate = .ok ()) ∧
    (∀ (c : HarnessConfig) (way : List String) (v : Value),
      c.encode.at? way = some v → v.IsLeaf → IsSetting way) ∧
    ∀ way, IsSetting way → (encode {}).Leads way := by
  refine ⟨fun base layers c ordered => givenBy_of_merged ordered, fun layers c ordered h =>
    ⟨givenBy_of_ofLayers ordered h, validate_of_ofLayers h⟩, fun sources c h => ?_,
    fun text c h => ?_, isSetting_of_leaf, fun way => leads_encode_default⟩
  · obtain ⟨project, first, h⟩ := exists_of_bind_eq_ok h
    obtain ⟨localSettings, second, h⟩ := exists_of_bind_eq_ok h
    have ordered : ∀ s ∈ [project, localSettings, Environment.settings sources.environment],
        s.Ordered := by
      simp [ordered_fileLayer first, ordered_fileLayer second, Environment.ordered_settings]
    exact ⟨project, localSettings, first, second, givenBy_of_ofLayers ordered h,
      validate_of_ofLayers h⟩
  · obtain ⟨file, first, h⟩ := exists_of_bind_eq_ok h
    have ordered : ∀ s ∈ [file], s.Ordered := by simp [ordered_fileLayer first]
    exact ⟨file, first, givenBy_of_ofLayers ordered h, validate_of_ofLayers h⟩

/-- Two settings files and what an environment adds to the free-form entries of one of them. -/
def sampleLayers : List Value :=
  [.record [("suite", .record [("num_tries", .integer 30), ("solver", .record [("extra",
      .record [("limits", .record [("depth", .integer 3), ("width", .integer 4)])])]),
      ("target_num_samples", .integer 60)])],
    .record [("suite", .record [("num_tries", .integer 45)])],
    Environment.settings [("CONDMINE_SUITE__SOLVER__EXTRA__LIMITS__WIDTH", "7")]]

/-- The way to an entry that lies deep in the free-form entries. -/
def widthWay : List String := ["suite", "solver", "extra", "limits", "width"]

/-- The files say other things about the number of tries and about entries beside this one, and one
says something about this one; the environment, which comes last, gives it. -/
theorem last_layer_gives_nested :
    (∀ s ∈ sampleLayers, s.Ordered) ∧ (∀ s ∈ encode {} :: sampleLayers, s.Leads widthWay) ∧
    ∃ c, ofLayers sampleLayers = .ok c ∧ c.validate = .ok () ∧
      c.encode.at? widthWay = some (.integer 7) := by
  have environment : Environment.settings [("CONDMINE_SUITE__SOLVER__EXTRA__LIMITS__WIDTH", "7")] =
      Environment.nested widthWay (.integer 7) := rfl
  have number (n : Int) : (Value.integer n).Ordered := .leaf trivial
  have limits : (Value.record [("depth", .integer 3), ("width", .integer 4)]).Ordered :=
    Value.ordered_of_names (by decide) rfl ⟨number 3, number 4⟩
  have ordered : ∀ s ∈ sampleLayers, s.Ordered := by
    refine List.forall_iff_forall_mem.1 ⟨Value.ordered_singleton ?_,
      Value.ordered_singleton (Value.ordered_singleton (number 45)), Environment.ordered_settings _⟩
    exact Value.ordered_of_names (by decide) rfl
      ⟨number 30, Value.ordered_singleton (Value.ordered_singleton limits), number 60⟩
  have setting : IsSetting widthWay :=
    .inr (.inr ⟨_, rfl, .inr ⟨_, rfl, .inr ⟨_, rfl⟩⟩⟩)
  have leads : ∀ s ∈ encode {} :: sampleLayers, s.Leads widthWay := by
    refine List.forall_mem_cons.2 ⟨leads_encode_default setting, ?_⟩
    simp [sampleLayers, environment, Environment.nested, widthWay, Value.Leads, Value.part?,
      Value.field?, Dictionary.lookup, Value.IsLeaf]
  have accepted : (ofLayers sampleLayers).toOption.isSome = true := by decide +kernel
  obtain ⟨c, loaded⟩ : ∃ c, ofLayers sampleLayers = .ok c := by
    cases result : ofLayers sampleLayers with
    | error e =>
      rw [result] at accepted
      cases accepted
    | ok c => exact ⟨c, rfl⟩
  obtain ⟨given, valid⟩ := last_layer_gives.2.1 sampleLayers c ordered loaded
  have last : Value.last? widthWay (encode {} :: sampleLayers) = some (.integer 7) := by
    rw [sampleLayers, environment]
    rfl
  have told := given widthWay setting leads
  rw [last] at told
  obtain ⟨w, kept, there⟩ := told trivial
  cases kept
  exact ⟨ordered, leads, c, loaded, valid, there⟩

end HarnessConfig

end PreconditionMining
