/-
# Samples and grammars go through data unharmed

What a reader makes of a list is made of its items (`list_written`), and what it
makes of a record of its fields (`dictionary_written`): if each of them was
written and is read back, so is the whole.  Trees, formulas and pools are read
back by induction over their form, beside their readers.  A grammar is written as
its rules and read by way of `Grammar.ofRules`, which is asked here about any rules
that a datum may hold: it accepts those of a grammar and no others
(`ofRules_isOk_iff`).

`samples_round_trip` puts this together.
-/

import PreconditionMining.Data.Codec.Samples

namespace PreconditionMining

namespace Decode

variable {α : Type}

/-- Items that are each read back are read back in their order, whatever number they begin with. -/
theorem itemsFrom_written {decode : Value → Decoded α} {write : α → Value} {items : List α}
    (each : ∀ a ∈ items, decode (write a) = .ok a) (i : Nat) :
    itemsFrom decode i (items.map write) = .ok items := by
  induction items generalizing i with
  | nil => rfl
  | cons a items ih =>
    obtain ⟨first, rest⟩ := List.forall_mem_cons.1 each
    rw [List.map_cons, itemsFrom, first, ih rest]
    rfl

/-- **A list is read back when its items are.** -/
theorem list_written {decode : Value → Decoded α} (write : α → Value) {items : List α}
    (each : ∀ a ∈ items, decode (write a) = .ok a) :
    list decode (.list (items.map write)) = .ok items :=
  itemsFrom_written each 0

theorem texts_written (texts : List String) :
    list text (.list (texts.map .text)) = .ok texts :=
  list_written .text fun _ _ => rfl

/-- Fields whose contents are each read back are read back under their names. -/
theorem entriesOf_written {decode : Value → Decoded α} {write : α → Value}
    {entries : List (String × α)} (each : ∀ e ∈ entries, decode (write e.2) = .ok e.2) :
    entriesOf decode (entries.map fun e => (e.1, write e.2)) = .ok entries := by
  induction entries with
  | nil => rfl
  | cons e entries ih =>
    obtain ⟨first, rest⟩ := List.forall_mem_cons.1 each
    rw [List.map_cons, entriesOf, first, ih rest]
    rfl

/-- **A record is read as a dictionary of its fields when their contents are read back.**  Of several
fields with one name the last one counts. -/
theorem dictionary_written {decode : Value → Decoded α} (write : α → Value)
    {entries : List (String × α)} (each : ∀ e ∈ entries, decode (write e.2) = .ok e.2) :
    dictionary decode (.record (entries.map fun e => (e.1, write e.2))) =
      .ok (.ofList entries) := by
  rw [dictionary, entriesOf_written each]
  rfl

end Decode

namespace Grammar

/-- Rules are accepted as the grammar that they are the rules of. -/
theorem ofRules_eq_ok_iff {rules : Dictionary (List String)} {g : Grammar} :
    ofRules rules = .ok g ↔ g.rules = rules := by
  constructor
  · exact rules_of_ofRules
  · rintro rfl
    exact ofRules_rules g

/-- **Rules are those of a grammar when and only when there is a start symbol, and each name stands
in angle brackets and has alternatives.** -/
theorem ofRules_isOk_iff {rules : Dictionary (List String)} :
    (∃ g, ofRules rules = .ok g) ↔ rules.contains startSymbol = true ∧
      ∀ r ∈ rules.entries, isBracketed r.1 = true ∧ r.2 ≠ [] := by
  constructor
  · rintro ⟨g, accepted⟩
    obtain rfl := ofRules_eq_ok_iff.1 accepted
    exact ⟨g.hasStart, fun r mem => ⟨g.bracketed r mem, g.nonempty r mem⟩⟩
  · rintro ⟨start, sound⟩
    exact ⟨⟨rules, fun r mem => (sound r mem).1, fun r mem => (sound r mem).2, start⟩,
      ofRules_eq_ok_iff.2 rfl⟩

/-- **A datum is a grammar when and only when it holds the rules of that grammar.** -/
theorem decode_eq_ok_iff {v : Value} {g : Grammar} :
    decode v = .ok g ↔ decodeRules v = .ok g.rules := by
  rw [decode]
  cases decodeRules v with
  | error e => exact ⟨nofun, nofun⟩
  | ok rules =>
    simp only [Except.ok.injEq, eq_comm (a := rules), ← ofRules_eq_ok_iff]
    cases ofRules rules <;> simp

/-- Rules as data, whether or not they are those of a grammar: a record of lists of texts. -/
def rulesData (rules : List (String × List String)) : Value :=
  .record (rules.map fun r => (r.1, .list (r.2.map .text)))

theorem decodeRules_rulesData (rules : List (String × List String)) :
    decodeRules (rulesData rules) = .ok (.ofList rules) :=
  Decode.dictionary_written (fun alternatives : List String => .list (alternatives.map .text))
    fun r _ => Decode.texts_written r.2

/-- A record of lists of texts is read as a grammar as its rules are accepted as one. -/
theorem decode_rulesData (rules : List (String × List String)) :
    decode (rulesData rules) = (ofRules (.ofList rules)).mapError .defect := by
  rw [decode, decodeRules_rulesData]
  simp only
  cases ofRules (.ofList rules) <;> rfl

/-- **A written grammar is read back.** -/
theorem decode_encode (g : Grammar) : decode g.encode = .ok g := by
  have read : decodeRules g.encode = .ok (.ofList g.rules.entries) := decodeRules_rulesData g.rules.entries
  rw [decode_eq_ok_iff, read, Dictionary.ofList_entries]

end Grammar

/-- **Samples and grammars go through data unharmed.**  Each tree, formula, pair of pools and grammar
is read back as it was written.  A record of lists of texts is read as a grammar as its rules are
accepted as one, a later field replacing an earlier one of its name.  And whatever the datum, what is
read as a grammar has a start symbol, and each of the rules in the datum has its name in angle
brackets and has alternatives; where this is so, it is read as a grammar. -/
theorem samples_round_trip :
    (∀ t : Tree, Tree.decode t.encode = .ok t) ∧
    (∀ f : Formula, Formula.decode f.encode = .ok f) ∧
    (∀ p : Pools, Pools.decode p.encode = .ok p) ∧
    (∀ g : Grammar, Grammar.decode g.encode = .ok g) ∧
    (∀ rules : List (String × List String), Grammar.decode (Grammar.rulesData rules) =
      (Grammar.ofRules (.ofList rules)).mapError .defect) ∧
    (∀ (v : Value) (g : Grammar), Grammar.decode v = .ok g ↔ Grammar.decodeRules v = .ok g.rules) ∧
    ∀ v : Value, (∃ g, Grammar.decode v = .ok g) ↔
      ∃ rules, Grammar.decodeRules v = .ok rules ∧ rules.contains startSymbol = true ∧
        ∀ r ∈ rules.entries, isBracketed r.1 = true ∧ r.2 ≠ [] := by
  refine ⟨Tree.decode_encode, Formula.decode_encode, Pools.decode_encode, Grammar.decode_encode,
    Grammar.decode_rulesData, fun v g => Grammar.decode_eq_ok_iff, fun v => ?_⟩
  constructor
  · rintro ⟨g, read⟩
    exact ⟨g.rules, Grammar.decode_eq_ok_iff.1 read,
      Grammar.ofRules_isOk_iff.1 ⟨g, Grammar.ofRules_rules g⟩⟩
  · rintro ⟨rules, read, sound⟩
    obtain ⟨g, accepted⟩ := Grammar.ofRules_isOk_iff.2 sound
    obtain rfl := Grammar.ofRules_eq_ok_iff.1 accepted
    exact ⟨g, Grammar.decode_eq_ok_iff.2 read⟩

end PreconditionMining
