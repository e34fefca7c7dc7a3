/-
# Settings of which a part is left out

In a configuration anything may be left out: fields of sections, fields of sections
in them, and sections as a whole; and there may be fields that nobody knows.  An
`Omission` says which fields are left out, by the ways to them, and
`Layout.Remains` what a datum may look like without them.  The readers name
the defaults of their fields themselves, while the settings have defaults of their
own, and the two have to agree.

What a reader makes of one field is the same everywhere (`Remains.fieldOr`): the
default, if the field is left out, and otherwise what is read of what remains of
it.  With the contents of single fields (`natural_written` and its companions) each
structure follows from its fields, the inner ones first.
`omitted_settings_default` says for configurations, options and overrides that
reading gives the value with the defaults in the places left out (`reset`), and
nothing else.
-/

import PreconditionMining.Data.Codec.Settings
import PreconditionMining.Proofs.Data.RoundTrip

namespace PreconditionMining

/-- Which fields are left out of a datum, by the names on the way to each. -/
def Omission : Type := List String → Bool

namespace Omission

/-- Nothing is left out. -/
def nothing : Omission := fun _ => false

/-- Whether a field of the datum itself is left out. -/
def drops (gone : Omission) (name : String) : Bool := gone [name]

/-- What is left out of a field that is there. -/
def below (gone : Omission) (name : String) : Omission := fun way => gone (name :: way)

end Omission

/-- Which parts of a datum are fields that may be left out: none of them, or the fields of a record
with some names, each with a layout of its own. -/
inductive Layout
  | whole
  | record (names : List String) (part : String → Layout)

namespace Layout

open Dictionary

/-- **What may remain of a datum:** those of its fields that are not left out, with what remains of
them, and any fields that have none of the names. -/
def Remains : Layout → Omission → Value → Value → Prop
  | record names part, gone, .record fields, w =>
    ∃ remaining, w = .record remaining ∧ ∀ name ∈ names,
      if gone.drops name then Value.field? name remaining = none
      else ∀ v, Value.field? name fields = some v →
        ∃ v', Value.field? name remaining = some v' ∧ (part name).Remains (gone.below name) v v'
  | _, _, v, w => w = v

/-- The datum itself is what remains of it when nothing is left out. -/
theorem remains_self (layout : Layout) (v : Value) : layout.Remains .nothing v v := by
  induction layout generalizing v with
  | whole => rfl
  | record names part ih =>
    cases v with
    | record fields => exact ⟨fields, rfl, fun name _ v found => ⟨v, found, ih name v⟩⟩
    | _ => rfl

/-- Takes the fields out of a datum that are left out. -/
def remove : Layout → Omission → Value → Value
  | record names part, gone, .record fields =>
    .record <| (fields.filter fun e => !(names.contains e.1 && gone.drops e.1)).map fun e =>
      (e.1, if names.contains e.1 then (part e.1).remove (gone.below e.1) e.2 else e.2)
  | _, _, v => v

/-- **What is not taken out remains.** -/
theorem remains_remove (layout : Layout) (gone : Omission) (v : Value) :
    layout.Remains gone v (layout.remove gone v) := by
  induction layout generalizing gone v with
  | whole => rfl
  | record names part ih =>
    cases v with
    | record fields =>
      refine ⟨_, rfl, fun name known => ?_⟩
      rw [Value.field?, lookup_mapKeyed fun name v =>
          if names.contains name then (part name).remove (gone.below name) v else v,
        lookup_filter fun name => !(names.contains name && gone.drops name)]
      cases dropped : gone.drops name with
      | true => simp [known]
      | false =>
        intro v found
        refine ⟨_, ?_, ih name (gone.below name) v⟩
        rw [show lookup name fields = some v from found]
        simp [known]
    | _ => rfl

/-- Fields with unknown names may be added. -/
theorem Remains.append {names : List String} {part : String → Layout} {gone : Omission}
    {fields remaining unknown : List (String × Value)}
    (h : (record names part).Remains gone (.record fields) (.record remaining))
    (other : ∀ e ∈ unknown, e.1 ∉ names) :
    (record names part).Remains gone (.record fields) (.record (remaining ++ unknown)) := by
  obtain ⟨_, ⟨⟩, each⟩ := h
  refine ⟨_, rfl, fun name known => ?_⟩
  have absent : lookup name unknown = none :=
    lookup_eq_none fun e mem same => other e mem (same ▸ known)
  have same : Value.field? name (remaining ++ unknown) = Value.field? name remaining := by
    rw [Value.field?, lookup_append, absent, Option.or_none]
    rfl
  rw [same]
  exact each name known

/-- **A field that remains is read as it was, and one that is left out as its default.** -/
theorem Remains.fieldOr {α : Type} {names : List String} {part : String → Layout} {gone : Omission}
    {fields remaining : List (String × Value)}
    (h : (record names part).Remains gone (.record fields) (.record remaining)) {name : String}
    (known : name ∈ names) {v : Value} (there : Value.field? name fields = some v)
    {decode : Value → Decoded α} {a : α}
    (reads : ∀ v', (part name).Remains (gone.below name) v v' → decode v' = .ok a) (default : α) :
    Decode.fieldOr remaining name default decode =
      .ok (if gone.drops name then default else a) := by
  obtain ⟨_, ⟨⟩, each⟩ := h
  have here := each name known
  rw [Decode.fieldOr]
  cases dropped : gone.drops name with
  | true =>
    rw [dropped, if_pos rfl] at here
    rw [here]
    rfl
  | false =>
    rw [dropped] at here
    obtain ⟨v', found, below⟩ := here v there
    rw [found]
    exact congrArg (Decode.inside name) (reads v' below)

/-- Reading goes on behind a field with what is read of it, or its default. -/
theorem Remains.bind {α β : Type} {names : List String} {part : String → Layout} {gone : Omission}
    {fields remaining : List (String × Value)}
    (h : (record names part).Remains gone (.record fields) (.record remaining)) {name : String}
    (known : name ∈ names) {v : Value} (there : Value.field? name fields = some v)
    {decode : Value → Decoded α} {a : α}
    (reads : ∀ v', (part name).Remains (gone.below name) v v' → decode v' = .ok a) {default : α}
    (next : α → Decoded β) :
    (Decode.fieldOr remaining name default decode >>= next) =
      next (if gone.drops name then default else a) := by
  rw [h.fieldOr known there reads]
  rfl

/-- The same for a field that cannot be left out in part. -/
theorem Remains.bind_whole {α β : Type} {names : List String} {part : String → Layout}
    {gone : Omission} {fields remaining : List (String × Value)}
    (h : (record names part).Remains gone (.record fields) (.record remaining)) {name : String}
    (known : name ∈ names) (single : part name = .whole) {v : Value}
    (there : Value.field? name fields = some v) {decode : Value → Decoded α} {a : α}
    (read : decode v = .ok a) {default : α} (next : α → Decoded β) :
    (Decode.fieldOr remaining name default decode >>= next) =
      next (if gone.drops name then default else a) := by
  refine h.bind known there (fun v' below => ?_) next
  rw [single] at below
  rw [show v' = v from below, read]

/-- What remains of a record is a record. -/
theorem Remains.exists_record {names : List String} {part : String → Layout} {gone : Omission}
    {fields : List (String × Value)} {w : Value}
    (h : (record names part).Remains gone (.record fields) w) : ∃ remaining, w = .record remaining :=
  h.imp fun _ found => found.1

end Layout

namespace Decode

variable {α : Type}

theorem natural_written {limit n : Nat} (h : n < limit) : natural limit (.integer n) = .ok n := by
  rw [natural, if_pos ⟨Int.natCast_nonneg n, Int.ofNat_lt.2 h⟩, Int.toNat_natCast]

/-- **What may be unset is read back,** set or not, if nothing that is set is written as nothing. -/
theorem optional_written {decode : Value → Decoded α} {write : α → Value}
    (something : ∀ a, write a ≠ .null) {o : Option α}
    (each : ∀ a, o = some a → decode (write a) = .ok a) :
    optional decode (o.elim .null write) = .ok o := by
  cases o with
  | none => rfl
  | some a =>
    have read := each a rfl
    rw [Option.elim_some, optional, read]
    · rfl
    · exact something a

theorem word64_written {n : Nat} (h : n < Nat.pow 2 64) : word64 (.integer n) = .ok n :=
  natural_written h

/-- A number that may be unset is read back if its bits suffice. -/
theorem ofNat?_written {o : Option Nat} (fits : ∀ n, o = some n → n < Nat.pow 2 64) :
    optional word64 (.ofNat? o) = .ok o := by
  have same : Value.ofNat? o = o.elim .null fun n => .integer n := by cases o <;> rfl
  rw [same]
  refine optional_written (fun n nothing => by cases nothing) fun n set => ?_
  exact word64_written (fits n set)

/-- Free-form entries are read back as they are. -/
theorem extra_written (d : Dictionary Value) : extra (.ofDictionary d) = .ok d := by
  have read : extra (.record (d.entries.map fun e => (e.1, e.2))) = .ok (.ofList d.entries) :=
    dictionary_written (fun v => v) fun _ _ => rfl
  rw [List.map_id', Dictionary.ofList_entries] at read
  exact read

/-- A set of texts is read back. -/
theorem names_written (s : NameSet) :
    (list text (.list (s.names.map .text))).map NameSet.ofNames = .ok s := by
  have same : s.names.map (·, ()) = s.entries := by
    rw [NameSet.names, Dictionary.keys, List.map_map]
    exact List.map_id' _
  rw [texts_written]
  show Except.ok (Dictionary.ofList (s.names.map (·, ()))) = _
  rw [same, Dictionary.ofList_entries]

end Decode

namespace SolverOptions

/-- The options have six fields, none of which can be left out in part. -/
def layout : Layout := .record fieldNames fun _ => .whole

/-- The numbers have at most 64 bits. -/
structure Fits (o : SolverOptions) : Prop where
  timeoutMs : ∀ n, o.timeoutMs = some n → n < Nat.pow 2 64
  maxDepth : o.maxDepth < Nat.pow 2 64
  maxAttempts : o.maxAttempts < Nat.pow 2 64
  seed : ∀ n, o.seed = some n → n < Nat.pow 2 64

/-- The options with the fields that are left out as they are by default. -/
def reset (gone : Omission) (o : SolverOptions) : SolverOptions :=
  let default : SolverOptions := {}
  { timeoutMs := if gone.drops "timeout_ms" then default.timeoutMs else o.timeoutMs
    maxDepth := if gone.drops "max_depth" then default.maxDepth else o.maxDepth
    maxAttempts := if gone.drops "max_attempts" then default.maxAttempts else o.maxAttempts
    distinct := if gone.drops "distinct" then default.distinct else o.distinct
    seed := if gone.drops "seed" then default.seed else o.seed
    extra := if gone.drops "extra" then default.extra else o.extra }

/-- **What remains of options is read as the options with the defaults of the rest.** -/
theorem decode_of_remains {o : SolverOptions} (fits : o.Fits) {gone : Omission} {w : Value}
    (h : layout.Remains gone o.encode w) : decode w = .ok (o.reset gone) := by
  obtain ⟨remaining, rfl⟩ := h.exists_record
  rw [decode, decodeWith, Decode.fieldwise]
  -- one step for each field, in the order in which the reader asks for them
  refine (h.bind_whole (by decide) rfl (by rfl) (by rfl) _).trans ?_
  refine (h.bind_whole (by decide) rfl (by rfl) (Decode.extra_written o.extra) _).trans ?_
  refine (h.bind_whole (by decide) rfl (by rfl) (Decode.word64_written fits.maxAttempts) _).trans ?_
  refine (h.bind_whole (by decide) rfl (by rfl) (Decode.word64_written fits.maxDepth) _).trans ?_
  refine (h.bind_whole (by decide) rfl (by rfl) (Decode.ofNat?_written fits.seed) _).trans ?_
  refine (h.bind_whole (by decide) rfl (by rfl) (Decode.ofNat?_written fits.timeoutMs) _).trans ?_
  -- what is left to see is that the reader's defaults are those of the options
  rfl

end SolverOptions

namespace SolverOverrides

/-- The overrides have the fields of the options. -/
def layout : Layout := SolverOptions.layout

/-- The numbers have at most 64 bits. -/
structure Fits (o : SolverOverrides) : Prop where
  timeoutMs : ∀ n, o.timeoutMs = some n → n < Nat.pow 2 64
  maxDepth : ∀ n, o.maxDepth = some n → n < Nat.pow 2 64
  maxAttempts : ∀ n, o.maxAttempts = some n → n < Nat.pow 2 64
  seed : ∀ n, o.seed = some n → n < Nat.pow 2 64

/-- The overrides with the fields that are left out as they are by default. -/
def reset (gone : Omission) (o : SolverOverrides) : SolverOverrides :=
  let default : SolverOverrides := {}
  { timeoutMs := if gone.drops "timeout_ms" then default.timeoutMs else o.timeoutMs
    maxDepth := if gone.drops "max_depth" then default.maxDepth else o.maxDepth
    maxAttempts := if gone.drops "max_attempts" then default.maxAttempts else o.maxAttempts
    distinct := if gone.drops "distinct" then default.distinct else o.distinct
    seed := if gone.drops "seed" then default.seed else o.seed
    extra := if gone.drops "extra" then default.extra else o.extra }

/-- **What remains of overrides is read as the overrides with the defaults of the rest.** -/
theorem decode_of_remains {o : SolverOverrides} (fits : o.Fits) {gone : Omission} {w : Value}
    (h : layout.Remains gone o.encode w) : decode w = .ok (o.reset gone) := by
  have bool : Decode.optional Decode.bool (o.distinct.elim .null .bool) = .ok o.distinct :=
    Decode.optional_written (fun b nothing => by cases nothing) fun _ _ => rfl
  obtain ⟨remaining, rfl⟩ := h.exists_record
  rw [decode, Decode.fieldwise]
  refine (h.bind_whole (by decide) rfl (by rfl) bool _).trans ?_
  refine (h.bind_whole (by decide) rfl (by rfl) (Decode.extra_written o.extra) _).trans ?_
  refine (h.bind_whole (by decide) rfl (by rfl) (Decode.ofNat?_written fits.maxAttempts) _).trans ?_
  refine (h.bind_whole (by decide) rfl (by rfl) (Decode.ofNat?_written fits.maxDepth) _).trans ?_
  refine (h.bind_whole (by decide) rfl (by rfl) (Decode.ofNat?_written fits.seed) _).trans ?_
  refine (h.bind_whole (by decide) rfl (by rfl) (Decode.ofNat?_written fits.timeoutMs) _).trans ?_
  rfl

end SolverOverrides

namespace LearnerOptions

/-- The options have two fields, none of which can be left out in part. -/
def layout : Layout := .record ["activated_patterns", "extra"] fun _ => .whole

/-- The options with the fields that are left out as they are by default. -/
def reset (gone : Omission) (o : LearnerOptions) : LearnerOptions :=
  let default : LearnerOptions := {}
  { activatedPatterns :=
      if gone.drops "activated_patterns" then default.activatedPatterns else o.activatedPatterns
    extra := if gone.drops "extra" then default.extra else o.extra }

/-- **What remains of options is read as the options with the defaults of the rest.** -/
theorem decode_of_remains {o : LearnerOptions} {gone : Omission} {w : Value}
    (h : layout.Remains gone o.encode w) : decode w = .ok (o.reset gone) := by
  have patterns : Decode.optional (fun v => (Decode.list Decode.text v).map NameSet.ofNames)
      (o.activatedPatterns.elim .null fun s => .list (s.names.map .text)) =
        .ok o.activatedPatterns :=
    Decode.optional_written (fun s nothing => by cases nothing) fun s _ => Decode.names_written s
  obtain ⟨remaining, rfl⟩ := h.exists_record
  rw [decode, Decode.fieldwise]
  refine (h.bind_whole (by decide) rfl (by rfl) patterns _).trans ?_
  refine (h.bind_whole (by decide) rfl (by rfl) (Decode.extra_written o.extra) _).trans ?_
  rfl

end LearnerOptions

namespace SuiteSettings

/-- The settings have five fields, of which the solver's options can be left out in part. -/
def layout : Layout :=
  .record fieldNames fun name => if name = "solver" then SolverOptions.layout else .whole

/-- The numbers have at most 64 bits, and the number of retries has at most 32. -/
structure Fits (s : SuiteSettings) : Prop where
  targetNumSamples : s.targetNumSamples < Nat.pow 2 64
  numTries : s.numTries < Nat.pow 2 64
  maxLearnerRetries : s.maxLearnerRetries < Nat.pow 2 32
  solver : s.solver.Fits

/-- The settings with the fields that are left out as they are by default. -/
def reset (gone : Omission) (s : SuiteSettings) : SuiteSettings :=
  let default : SuiteSettings := {}
  { targetNumSamples :=
      if gone.drops "target_num_samples" then default.targetNumSamples else s.targetNumSamples
    numTries := if gone.drops "num_tries" then default.numTries else s.numTries
    maxLearnerRetries :=
      if gone.drops "max_learner_retries" then default.maxLearnerRetries else s.maxLearnerRetries
    verbose := if gone.drops "verbose" then default.verbose else s.verbose
    solver :=
      if gone.drops "solver" then default.solver else s.solver.reset (gone.below "solver") }

/-- **What remains of settings is read as the settings with the defaults of the rest.** -/
theorem decode_of_remains {s : SuiteSettings} (fits : s.Fits) {gone : Omission} {w : Value}
    (h : layout.Remains gone s.encode w) : decode w = .ok (s.reset gone) := by
  have retries : Decode.word32 (.integer s.maxLearnerRetries) = .ok s.maxLearnerRetries :=
    Decode.natural_written fits.maxLearnerRetries
  obtain ⟨remaining, rfl⟩ := h.exists_record
  rw [decode, decodeWith, Decode.fieldwise]
  refine (h.bind_whole (by decide) rfl (by rfl) retries _).trans ?_
  refine (h.bind_whole (by decide) rfl (by rfl) (Decode.word64_written fits.numTries) _).trans ?_
  refine (h.bind (by decide) (by rfl)
    (by exact fun _ => SolverOptions.decode_of_remains fits.solver) _).trans ?_
  refine (h.bind_whole (by decide) rfl (by rfl) (Decode.word64_written fits.targetNumSamples)
    _).trans ?_
  refine (h.bind_whole (by decide) rfl (by rfl) (by rfl) _).trans ?_
  rfl

end SuiteSettings

namespace EvaluationSettings

/-- The settings have one field, which cannot be left out in part. -/
def layout : Layout := .record ["sample_count"] fun _ => .whole

/-- The settings with the field as it is by default if it is left out. -/
def reset (gone : Omission) (s : EvaluationSettings) : EvaluationSettings :=
  let default : EvaluationSettings := {}
  { sampleCount := if gone.drops "sample_count" then default.sampleCount else s.sampleCount }

/-- **What remains of settings is read as the settings with the default of the rest.** -/
theorem decode_of_remains {s : EvaluationSettings} (fits : s.sampleCount < Nat.pow 2 64)
    {gone : Omission} {w : Value} (h : layout.Remains gone s.encode w) :
    decode w = .ok (s.reset gone) := by
  obtain ⟨remaining, rfl⟩ := h.exists_record
  rw [decode, Decode.fieldwise]
  refine (h.bind_whole (by decide) rfl (by rfl) (Decode.word64_written fits) _).trans ?_
  rfl

end EvaluationSettings

namespace LogSettings

/-- The settings have five fields, none of which can be left out in part. -/
def layout : Layout := .record fieldNames fun _ => .whole

/-- The settings with the fields that are left out as they are by default. -/
def reset (gone : Omission) (s : LogSettings) : LogSettings :=
  let default : LogSettings := {}
  { level := if gone.drops "level" then default.level else s.level
    format := if gone.drops "format" then default.format else s.format
    logDir := if gone.drops "log_dir" then default.logDir else s.logDir
    enableStdout := if gone.drops "enable_stdout" then default.enableStdout else s.enableStdout
    rotation := if gone.drops "rotation" then default.rotation else s.rotation }

/-- **What remains of settings is read as the settings with the defaults of the rest.** -/
theorem decode_of_remains {s : LogSettings} {gone : Omission} {w : Value}
    (h : layout.Remains gone s.encode w) : decode w = .ok (s.reset gone) := by
  have format : Decode.oneOf LogFormat.names (.text s.format.name) = .ok s.format := by
    cases s.format <;> rfl
  have logDir : Decode.optional Decode.text (s.logDir.elim .null .text) = .ok s.logDir :=
    Decode.optional_written (fun d nothing => by cases nothing) fun _ _ => rfl
  have rotation : Decode.oneOf RotationPolicy.names (.text s.rotation.name) = .ok s.rotation := by
    cases s.rotation <;> rfl
  obtain ⟨remaining, rfl⟩ := h.exists_record
  rw [decode, Decode.fieldwise]
  refine (h.bind_whole (by decide) rfl (by rfl) (by rfl) _).trans ?_
  refine (h.bind_whole (by decide) rfl (by rfl) format _).trans ?_
  refine (h.bind_whole (by decide) rfl (by rfl) (by rfl) _).trans ?_
  refine (h.bind_whole (by decide) rfl (by rfl) logDir _).trans ?_
  refine (h.bind_whole (by decide) rfl (by rfl) rotation _).trans ?_
  rfl

end LogSettings

namespace HarnessConfig

/-- A configuration has three sections, each of which can be left out in part. -/
def layout : Layout :=
  .record fieldNames fun name =>
    if name = "suite" then SuiteSettings.layout
    else if name = "evaluation" then EvaluationSettings.layout
    else LogSettings.layout

/-- The numbers in the sections have no more bits than there are for them. -/
structure Fits (c : HarnessConfig) : Prop where
  suite : c.suite.Fits
  sampleCount : c.evaluation.sampleCount < Nat.pow 2 64

/-- The configuration with the sections and fields that are left out as they are by default. -/
def reset (gone : Omission) (c : HarnessConfig) : HarnessConfig :=
  let default : HarnessConfig := {}
  { suite := if gone.drops "suite" then default.suite else c.suite.reset (gone.below "suite")
    evaluation :=
      if gone.drops "evaluation" then default.evaluation
      else c.evaluation.reset (gone.below "evaluation")
    logging :=
      if gone.drops "logging" then default.logging else c.logging.reset (gone.below "logging") }

/-- **What remains of a configuration is read as the configuration with the defaults of the rest.** -/
theorem decode_of_remains {c : HarnessConfig} (fits : c.Fits) {gone : Omission} {w : Value}
    (h : layout.Remains gone c.encode w) : decode w = .ok (c.reset gone) := by
  obtain ⟨remaining, rfl⟩ := h.exists_record
  rw [decode, decodeWith, Decode.fieldwise]
  refine (h.bind (by decide) (by rfl)
    (by exact fun _ => EvaluationSettings.decode_of_remains fits.sampleCount) _).trans ?_
  refine (h.bind (by decide) (by rfl)
    (by exact fun _ => LogSettings.decode_of_remains) _).trans ?_
  refine (h.bind (by decide) (by rfl)
    (by exact fun _ => SuiteSettings.decode_of_remains fits.suite) _).trans ?_
  rfl

end HarnessConfig

/-- **What is left out of settings has its default.**  Each configuration whose numbers have no more
bits than there are for them is read back as it was written.  So are the options of solvers, the
overrides of tests and the options of learners.  And whichever sections and fields are left out of
what was written, at any depth, and whatever is added under unknown names, reading succeeds, and
gives the value in which what is left out, and nothing else, is as it is by default.  Anything that
is taken out of a datum is left out in this sense. -/
theorem omitted_settings_default :
    (∀ c : HarnessConfig, c.Fits → HarnessConfig.decode c.encode = .ok c ∧
      ∀ gone w, HarnessConfig.layout.Remains gone c.encode w →
        HarnessConfig.decode w = .ok (c.reset gone)) ∧
    (∀ o : SolverOptions, o.Fits → SolverOptions.decode o.encode = .ok o ∧
      ∀ gone w, SolverOptions.layout.Remains gone o.encode w →
        SolverOptions.decode w = .ok (o.reset gone)) ∧
    (∀ o : SolverOverrides, o.Fits → SolverOverrides.decode o.encode = .ok o ∧
      ∀ gone w, SolverOverrides.layout.Remains gone o.encode w →
        SolverOverrides.decode w = .ok (o.reset gone)) ∧
    (∀ o : LearnerOptions, LearnerOptions.decode o.encode = .ok o ∧
      ∀ gone w, LearnerOptions.layout.Remains gone o.encode w →
        LearnerOptions.decode w = .ok (o.reset gone)) ∧
    ∀ (layout : Layout) gone v, layout.Remains gone v (layout.remove gone v) := by
  refine ⟨fun c fits => ⟨?_, fun _ _ => HarnessConfig.decode_of_remains fits⟩,
    fun o fits => ⟨?_, fun _ _ => SolverOptions.decode_of_remains fits⟩,
    fun o fits => ⟨?_, fun _ _ => SolverOverrides.decode_of_remains fits⟩,
    fun o => ⟨?_, fun _ _ => LearnerOptions.decode_of_remains⟩, Layout.remains_remove⟩
  · exact HarnessConfig.decode_of_remains fits (Layout.remains_self _ _)
  · exact SolverOptions.decode_of_remains fits (Layout.remains_self _ _)
  · exact SolverOverrides.decode_of_remains fits (Layout.remains_self _ _)
  · exact LearnerOptions.decode_of_remains (Layout.remains_self _ _)

/-- With everything left out there are the defaults. -/
example : HarnessConfig.decode (.record []) = .ok {} := rfl

/-- A configuration with settings of its own in each section. -/
def tunedConfig : HarnessConfig where
  suite := { numTries := 7, verbose := true, solver := { maxDepth := 3, seed := some 5 } }
  evaluation := { sampleCount := 9 }
  logging := { level := "warn" }

/-- The section on logging is left out, a field of the one on the suite, and one of its solver. -/
def thinning : Omission := fun way =>
  [["logging"], ["suite", "verbose"], ["suite", "solver", "max_depth"]].contains way

/-- What is left of the configuration. -/
def thinnedFields : List (String × Value) :=
  [("evaluation", .record [("sample_count", .integer 9)]),
    ("suite", .record [("max_learner_retries", .integer 5), ("num_tries", .integer 7),
      ("solver", .record [("distinct", .bool true), ("extra", .record []),
        ("max_attempts", .integer 1000), ("seed", .integer 5), ("timeout_ms", .null)]),
      ("target_num_samples", .integer 200)])]

/-- With an unknown field added, what is left has the defaults in the three places left out. -/
theorem omitted_settings_default_tuned :
    tunedConfig.Fits ∧
    HarnessConfig.layout.Remains thinning tunedConfig.encode
      (.record (thinnedFields ++ [("comment", .text "tuned")])) ∧
    HarnessConfig.decode (.record (thinnedFields ++ [("comment", .text "tuned")])) =
      .ok { suite := { numTries := 7, solver := { seed := some 5 } }
            evaluation := { sampleCount := 9 } } := by
  have solver : tunedConfig.suite.solver.Fits := by
    refine ⟨nofun, by decide, by decide, fun n set => ?_⟩
    obtain rfl := Option.some.inj set
    decide
  have fits : tunedConfig.Fits := ⟨⟨by decide, by decide, by decide, solver⟩, by decide⟩
  obtain ⟨configs, -, -, -, removed⟩ := omitted_settings_default
  have left : HarnessConfig.layout.Remains thinning tunedConfig.encode (.record thinnedFields) :=
    removed _ _ _
  have remains : HarnessConfig.layout.Remains thinning tunedConfig.encode
      (.record (thinnedFields ++ [("comment", .text "tuned")])) := by
    refine left.append fun e mem => ?_
    obtain rfl := List.mem_singleton.1 mem
    decide
  exact ⟨fits, remains, (configs tunedConfig fits).2 thinning _ remains⟩

end PreconditionMining
