/-
# Loading configurations

A configuration is merged from layers, of which a later one wins wherever it says
something: the defaults, the settings file of the project, its local settings
file, and the environment.  A file that is not there says nothing.

What is merged is read as a configuration, and the configuration must be valid
(`validate_of_ofLayers`).  Layers can hold more than a configuration can.  Of a
choice that is given by several names the first one counts, and free-form entries
are kept as data in which every number is finite and no whole number has more than
64 bits (`Value.kept_of_kept`).
-/

import PreconditionMining.Config.Environment
import PreconditionMining.Config.Validation
import PreconditionMining.Data.Codec.Settings
import PreconditionMining.Yaml.Node

namespace PreconditionMining

/-- Why no configuration is loaded. -/
inductive LoadError
  /-- A settings file is not well formed. -/
  | malformed
  /-- The settings are not those of a configuration. -/
  | unsuitable (cause : DecodeError)
  /-- The configuration is not valid. -/
  | invalid (cause : ConfigError)
deriving DecidableEq

/-- Where the settings of a project lie: the texts of its settings files, and the environment. -/
structure SettingsSources where
  /-- The text of `.condmine/config.yaml`. -/
  project : Option String := none
  /-- The text of `.condmine/local.yaml`. -/
  localFile : Option String := none
  environment : List (String × String) := []

/-- The layer that a settings file is. -/
def fileLayer : Option String → Except LoadError Value
  | none => .ok (.record [])
  | some text =>
    match Yaml.settings? text with
    | none => .error .malformed
    | some settings => .ok settings

/-- A choice by the first of its names. -/
def firstChoice : Value → Value
  | .record (entry :: _) => .record [entry]
  | v => v

namespace Value

mutual

/-- A datum as it is kept among free-form entries: a number that is not finite is nothing, and a
character is a text.  A whole number that 64 bits do not hold cannot be kept. -/
def kept : Value → Decoded Value
  | number x => .ok (if x.isFinite then number x else null)
  | character c => .ok (text c.toString)
  | integer n => if Numeral.fits 64 n then .ok (integer n) else Decode.fail .tooWide
  | list items => (keptItems 0 items).map list
  | record fields => (keptFields fields).map record
  | null => .ok null
  | bool b => .ok (bool b)
  | text s => .ok (text s)

/-- Data as they are kept, numbered from `i` on. -/
def keptItems (i : Nat) : List Value → Decoded (List Value)
  | [] => .ok []
  | v :: vs =>
    match Decode.inside (toString i) (kept v) with
    | .error e => .error e
    | .ok w => (keptItems (i + 1) vs).map (w :: ·)

/-- Named data as they are kept. -/
def keptFields : List (String × Value) → Decoded (List (String × Value))
  | [] => .ok []
  | (name, v) :: rest =>
    match Decode.inside name (kept v) with
    | .error e => .error e
    | .ok w => (keptFields rest).map ((name, w) :: ·)

end

mutual

/-- **What is kept is kept as it is.** -/
theorem kept_of_kept : ∀ (v : Value) {w : Value}, kept v = .ok w → kept w = .ok w
  | number x, w, h => by
    by_cases finite : x.isFinite = true <;> simp only [kept, finite] at h <;> cases h <;>
      simp [kept, finite]
  | character c, w, h => by cases h; rfl
  | integer n, w, h => by
    by_cases narrow : Numeral.fits 64 n = true <;> simp only [kept, narrow] at h <;> cases h
    simp [kept, narrow]
  | list items, w, h => by
    rw [kept] at h
    match e : keptItems 0 items, h with
    | .ok ws, h => cases h; simp [kept, keptItems_of_keptItems items e, Except.map]
  | record fields, w, h => by
    rw [kept] at h
    match e : keptFields fields, h with
    | .ok ws, h => cases h; simp [kept, keptFields_of_keptFields fields e, Except.map]
  | null, w, h => by cases h; rfl
  | bool b, w, h => by cases h; rfl
  | text s, w, h => by cases h; rfl

theorem keptItems_of_keptItems : ∀ (vs : List Value) {i : Nat} {ws : List Value},
    keptItems i vs = .ok ws → keptItems i ws = .ok ws
  | [], i, ws, h => by cases h; rfl
  | v :: vs, i, ws, h => by
    rw [keptItems] at h
    match e : kept v, h with
    | .ok w, h =>
      match e' : keptItems (i + 1) vs, h with
      | .ok ws, h =>
        cases h
        simp [keptItems, kept_of_kept v e, keptItems_of_keptItems vs e', Decode.inside, Except.map]

theorem keptFields_of_keptFields : ∀ (fields : List (String × Value))
    {kepts : List (String × Value)}, keptFields fields = .ok kepts → keptFields kepts = .ok kepts
  | [], kepts, h => by cases h; rfl
  | (name, v) :: rest, kepts, h => by
    rw [keptFields] at h
    match e : kept v, h with
    | .ok w, h =>
      match e' : keptFields rest, h with
      | .ok kepts, h =>
        cases h
        simp [keptFields, kept_of_kept v e, keptFields_of_keptFields rest e', Decode.inside,
          Except.map]

end

end Value

namespace HarnessConfig

/-- The defaults with what further layers say. -/
def merged (layers : List Value) : Value :=
  layers.foldl Value.merge (HarnessConfig.encode {})

/-- The data of a configuration with its choices settled. -/
def settled : Value → Value :=
  Value.mapField fieldNames "logging" <|
    Value.mapField LogSettings.fieldNames "format" firstChoice ∘
      Value.mapField LogSettings.fieldNames "rotation" firstChoice

/-- The valid configuration that layers above the defaults give. -/
def ofLayers (layers : List Value) : Except LoadError HarnessConfig :=
  match decodeWith Value.kept (settled (merged layers)) with
  | .error e => .error (.unsuitable e)
  | .ok config =>
    match config.validate with
    | .error e => .error (.invalid e)
    | .ok () => .ok config

/-- **A loaded configuration is valid.** -/
theorem validate_of_ofLayers {layers : List Value} {config : HarnessConfig}
    (h : ofLayers layers = .ok config) : config.validate = .ok () := by
  unfold ofLayers at h
  split at h
  · cases h
  · split at h
    · cases h
    · cases h; assumption

/-- Loads the configuration of a project. -/
def load (sources : SettingsSources) : Except LoadError HarnessConfig := do
  let project ← fileLayer sources.project
  let localSettings ← fileLayer sources.localFile
  ofLayers [project, localSettings, Environment.settings sources.environment]

/-- Loads the configuration in one settings file. -/
def loadFile (text : Option String) : Except LoadError HarnessConfig := do
  ofLayers [← fileLayer text]

end HarnessConfig

end PreconditionMining
