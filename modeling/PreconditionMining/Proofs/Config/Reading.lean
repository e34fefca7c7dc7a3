/-
# Settings are read where they lie

A reader of settings takes each field from under its name, keeps a leaf as it is
(`Decode.Faithful`), and puts a default in no other place than where nothing is given.
So what is given at the end of a way is what is written there in the end, and this is
what it means that a datum tells a setting (`Value.Tells`).  A record tells by a field
what the field tells (`Tells.of_field`), a field with a faithful reader tells a leaf
(`Tells.of_leaf`), and free-form entries tell whatever is in them (`Tells.of_kept`).
-/

import PreconditionMining.Proofs.Config.Sources

namespace PreconditionMining

/-- What comes of two steps comes of each of them. -/
theorem exists_of_bind_eq_ok {ε α β : Type} {x : Except ε α} {f : α → Except ε β} {b : β}
    (h : x >>= f = .ok b) : ∃ a, x = .ok a ∧ f a = .ok b := by
  cases x with
  | error e => cases h
  | ok a => exact ⟨a, rfl, h⟩

/-- What comes of a changed result comes of the result. -/
theorem exists_of_map_eq_ok {ε α β : Type} {x : Except ε α} {f : α → β} {b : β}
    (h : x.map f = .ok b) : ∃ a, x = .ok a ∧ f a = b := by
  cases x with
  | error e => cases h
  | ok a => exact ⟨a, rfl, Except.ok.inj h⟩

namespace Decode

variable {α : Type}

/-- Naming the place of a failure changes no success. -/
theorem inside_eq_ok {part : String} {x : Decoded α} {a : α} (h : inside part x = .ok a) :
    x = .ok a := by
  cases x with
  | error e => cases h
  | ok b => exact h

/-- **A field that is read is missing, and has its default, or is there to be read.** -/
theorem fieldOr_eq_ok {fields : List (String × Value)} {name : String} {default a : α}
    {decode : Value → Decoded α} (h : fieldOr fields name default decode = .ok a) :
    Value.field? name fields = none ∧ a = default ∨
      ∃ v, Value.field? name fields = some v ∧ decode v = .ok a := by
  rw [fieldOr] at h
  cases found : Value.field? name fields with
  | none =>
    rw [found] at h
    cases h
    exact .inl ⟨rfl, rfl⟩
  | some v =>
    rw [found] at h
    exact .inr ⟨v, rfl, inside_eq_ok h⟩

/-- Reading a field of which a part was changed before is reading it with the change. -/
theorem fieldOr_mapField (fields : List (String × Value)) (part : String) (change : Value → Value)
    (name : String) (default : α) (decode : Value → Decoded α) :
    fieldOr (fields.map fun (k, v) => (k, if k = part then change v else v)) name default decode =
      fieldOr fields name default fun v => decode (if name = part then change v else v) := by
  have found : Value.field? name
        (fields.map fun (k, v) => (k, if k = part then change v else v)) =
      (Value.field? name fields).map fun v => if name = part then change v else v :=
    Dictionary.lookup_mapKeyed (fun k v => if k = part then change v else v) name fields
  rw [fieldOr, fieldOr, found]
  cases Value.field? name fields <;> rfl

/-- **What a reader makes of a leaf is written as the leaf is kept.** -/
def Faithful (decode : Value → Decoded α) (write : α → Value) : Prop :=
  ∀ v a, v.IsLeaf → decode v = .ok a → v.kept = .ok (write a)

/-- A reader stays faithful to leaves behind a change that leaves these alone. -/
theorem Faithful.comp {decode : Value → Decoded α} {write : α → Value} (h : Faithful decode write)
    {change : Value → Value} (fixed : ∀ v, v.IsLeaf → change v = v) :
    Faithful (fun v => decode (change v)) write := by
  intro v a leaf read
  simp only [fixed v leaf] at read
  exact h v a leaf read

/-- A number in a range of 64 bits at most is kept, and so it is written. -/
theorem faithful_natural {limit : Nat} (narrow : limit ≤ Nat.pow 2 64) :
    Faithful (natural limit) fun n => .integer n := by
  intro v a _ read
  cases v with
  | integer n =>
    rw [natural] at read
    split at read
    · next range =>
      cases read
      have fits : Numeral.fits 64 n = true := by
        have big : Nat.pow 2 64 = 18446744073709551616 := rfl
        have low : -Int.pow 2 (64 - 1) = -9223372036854775808 := rfl
        have high : Int.pow 2 64 = 18446744073709551616 := rfl
        rw [Numeral.fits, low, high, Bool.and_eq_true, decide_eq_true_iff, decide_eq_true_iff]
        omega
      rw [Value.kept, if_pos fits]
      have same : (n.toNat : Int) = n := Int.toNat_of_nonneg range.1
      simp only [same]
    · split at read <;> cases read
  | _ => cases read

/-- A number of 64 bits is written as it is kept. -/
theorem faithful_word64 : Faithful word64 fun n => .integer n := faithful_natural (Nat.le_refl _)

/-- A number of 32 bits is written as it is kept. -/
theorem faithful_word32 : Faithful word32 fun n => .integer n := faithful_natural (by decide)

/-- A truth value is written as it is kept. -/
theorem faithful_bool : Faithful bool .bool := by
  intro v a _ read
  cases v <;> cases read
  rfl

/-- A text is written as it is kept. -/
theorem faithful_text : Faithful text .text := by
  intro v a _ read
  cases v <;> cases read <;> rfl

/-- A setting that may be missing is written as null where it is, and otherwise as its reader has
it. -/
theorem faithful_optional {decode : Value → Decoded α} {write : α → Value}
    (h : Faithful decode write) : Faithful (optional decode) fun o => o.elim .null write := by
  intro v a leaf read
  have something (read : (decode v).map some = .ok a) : v.kept = .ok (a.elim .null write) := by
    obtain ⟨b, inner, rfl⟩ := exists_of_map_eq_ok read
    exact h v b leaf inner
  cases v with
  | null => cases read; rfl
  | _ => exact something read

/-- So it is with a number that may be missing. -/
theorem faithful_ofNat? : Faithful (optional word64) Value.ofNat? := by
  have same : Value.ofNat? = fun o => o.elim .null fun n => .integer n := by
    funext o
    cases o <;> rfl
  rw [same]
  exact faithful_optional faithful_word64

/-- A choice is written by its name. -/
theorem faithful_oneOf {things : List (String × α)} {write : α → String}
    (named : ∀ e ∈ things, write e.2 = e.1) : Faithful (oneOf things) fun a => .text (write a) := by
  intro v a leaf read
  cases v with
  | text name =>
    rw [oneOf] at read
    cases found : Dictionary.lookup name things with
    | none => simp [found, fail] at read
    | some b =>
      rw [found] at read
      cases read
      obtain ⟨before, after, among, _⟩ := Dictionary.lookup_eq_some_iff.1 found
      have same : write a = name := named (name, a) (by simp [among])
      simp only [same, Value.kept]
  | record fields => exact leaf.elim
  | _ => cases read

end Decode

namespace Value

/-- What is written for a setting accords with what is given for it: a leaf is written as it is
kept, and where nothing is given there is the default. -/
def Accords (given written default : Option Value) : Prop :=
  match given with
  | none => written = default
  | some v => v.IsLeaf → ∃ w, v.kept = .ok w ∧ written = some w

/-- A datum tells what is written for the setting at the end of a way. -/
def Tells (given : Value) (way : List String) (written default : Option Value) : Prop :=
  given.Leads way → Accords (given.at? way) written default

variable {α : Type} {fields : List (String × Value)} {name : String} {way : List String}
  {decode : Value → Decoded α} {a b : α}

/-- Only a record can tell anything about what is in it. -/
theorem Tells.of_record {given : Value} {written default : Option Value}
    (h : ∀ fields, given = record fields → (record fields).Tells (name :: way) written default) :
    given.Tells (name :: way) written default := by
  intro leads
  obtain ⟨fields, rfl⟩ := not_isLeaf_iff.1 leads.1
  exact h fields rfl leads

/-- **A record tells by a field what the field tells,** and the default where the field is missing. -/
theorem Tells.of_field (write : α → Option Value)
    (read : Decode.fieldOr fields name a decode = .ok b)
    (each : ∀ v, field? name fields = some v → decode v = .ok b → v.Tells way (write b) (write a)) :
    (record fields).Tells (name :: way) (write b) (write a) := by
  intro leads
  have here : (record fields).at? (name :: way) = (field? name fields).bind (at? way) := rfl
  rw [here]
  rcases Decode.fieldOr_eq_ok read with ⟨missing, rfl⟩ | ⟨v, found, decoded⟩
  · rw [missing]
    rfl
  · rw [found]
    exact each v found decoded (leads.2 v found)

/-- A field with a faithful reader tells the setting itself. -/
theorem Tells.of_leaf {write : α → Value} (faithful : Decode.Faithful decode write)
    (read : Decode.fieldOr fields name a decode = .ok b) :
    (record fields).Tells [name] (some (write b)) (some (write a)) :=
  .of_field (fun a => some (write a)) read fun v _ decoded _ leaf =>
    ⟨write b, faithful v b leaf decoded, rfl⟩

/-- Fields are kept one by one, under their names. -/
theorem exists_of_keptFields_cons {name : String} {v : Value} {rest kepts : List (String × Value)}
    (h : keptFields ((name, v) :: rest) = .ok kepts) :
    ∃ w others, kept v = .ok w ∧ keptFields rest = .ok others ∧ kepts = (name, w) :: others := by
  rw [keptFields] at h
  cases first : kept v with
  | error e =>
    rw [first] at h
    cases h
  | ok w =>
    rw [first] at h
    obtain ⟨others, further, rfl⟩ := exists_of_map_eq_ok h
    exact ⟨w, others, rfl, further, rfl⟩

/-- A field of data as they are kept is the field as it is kept. -/
theorem lookup_keptFields (name : String) {fields kepts : List (String × Value)}
    (h : keptFields fields = .ok kepts) :
    Option.Rel (fun v w => kept v = .ok w) (Dictionary.lookup name fields)
      (Dictionary.lookup name kepts) := by
  induction fields generalizing kepts with
  | nil =>
    cases h
    exact .none
  | cons e rest ih =>
    obtain ⟨w, others, first, further, rfl⟩ := exists_of_keptFields_cons h
    by_cases here : name = e.1
    · simpa [Dictionary.lookup, here] using Option.Rel.some first
    · simpa [Dictionary.lookup, here] using ih further

/-- No name is lost where fields are kept, and the names stay in order. -/
theorem names_keptFields {fields kepts : List (String × Value)} (h : keptFields fields = .ok kepts) :
    kepts.map (·.1) = fields.map (·.1) := by
  induction fields generalizing kepts with
  | nil =>
    cases h
    rfl
  | cons e rest ih =>
    obtain ⟨w, others, -, further, rfl⟩ := exists_of_keptFields_cons h
    exact congrArg (e.1 :: ·) (ih further)

/-- A part of a datum that is kept is kept, and no part is made up. -/
theorem part?_kept {v w : Value} (h : v.kept = .ok w) (name : String) :
    Option.Rel (fun v w => kept v = .ok w) (v.part? name) (w.part? name) := by
  cases v with
  | record fields =>
    rw [kept] at h
    obtain ⟨kepts, e, rfl⟩ := exists_of_map_eq_ok h
    exact lookup_keptFields name e
  | list items =>
    rw [kept] at h
    obtain ⟨ws, -, rfl⟩ := exists_of_map_eq_ok h
    exact .none
  | integer n =>
    rw [kept] at h
    split at h
    · cases h
      exact .none
    · cases h
  | number x =>
    cases h
    split <;> exact .none
  | _ =>
    cases h
    exact .none

/-- **Whatever lies at the end of a way is kept there.** -/
theorem at?_kept {v w : Value} (h : v.kept = .ok w) (way : List String) :
    Option.Rel (fun v w => kept v = .ok w) (v.at? way) (w.at? way) := by
  induction way generalizing v w with
  | nil => exact .some h
  | cons name way ih =>
    have rel := part?_kept h name
    simp only [at?]
    generalize v.part? name = a, w.part? name = b at rel ⊢
    cases rel with
    | none => exact .none
    | some below => exact ih below

/-- What is kept tells what is in it, and by default there is nothing. -/
theorem Tells.of_kept {v w : Value} (h : v.kept = .ok w) (way : List String) :
    v.Tells way (w.at? way) ((record []).at? way) := by
  intro _
  cases way with
  | nil => exact fun _ => ⟨w, h, rfl⟩
  | cons name way =>
    have rel := at?_kept h (name :: way)
    generalize v.at? (name :: way) = given, w.at? (name :: way) = written at rel ⊢
    cases rel with
    | none => rfl
    | some same => exact fun _ => ⟨_, same, rfl⟩

end Value

/-- Keeping each entry of a record is keeping the record. -/
theorem Decode.entriesOf_kept : ∀ fields : List (String × Value),
    entriesOf Value.kept fields = Value.keptFields fields
  | [] => rfl
  | (name, v) :: rest => by
    rw [entriesOf, Value.keptFields, entriesOf_kept rest]
    cases inside name v.kept <;> rfl

/-- **Free-form entries that are in order are kept as a record.** -/
theorem Decode.kept_of_dictionary {v : Value} {d : Dictionary Value} (ordered : v.Ordered)
    (read : dictionary Value.kept v = .ok d) : v.kept = .ok (.ofDictionary d) := by
  cases v with
  | record fields =>
    rw [dictionary, entriesOf_kept] at read
    obtain ⟨kepts, each, rfl⟩ := exists_of_map_eq_ok read
    have sorted : (kepts.map (·.1)).Pairwise (· < ·) := by
      rw [Value.names_keptFields each]
      exact List.pairwise_map.2 (Value.ordered_record_iff.1 ordered).1
    rw [Value.kept, each, Value.ofDictionary, Dictionary.entries_ofList (List.pairwise_map.1 sorted)]
    rfl
  | _ => cases read

end PreconditionMining
