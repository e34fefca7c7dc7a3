/-
# Which lists of rules are grammars

A grammar is made from a list of rules, in which a later rule replaces an earlier one of
its name.  What the list gives for a name is said by `Gives`, without the dictionary that
is built from it (`gives_iff_mem`): a rule with the name, behind which there is no other.
Only what is given counts, so a defect that is replaced does no harm.

A rule with a defect has exactly one (`Defect`), since missing alternatives are not looked
at where the name is not in brackets.  Of the rules that are given, the one whose name has
the first bytes decides (`firstDefect_eq_some_iff`).  `ofList_judges` puts together which
lists are accepted, with which defect the others are refused, and what the grammar of an
accepted list answers.
-/

import PreconditionMining.Proofs.Data.RoundTrip
import PreconditionMining.Proofs.Text.ByteOrder

namespace PreconditionMining

/-- **A name in angle brackets** has more than two bytes, of which the first and the last character
are the brackets. -/
def Bracketed (name : String) : Prop :=
  2 < (ByteOrder.bytes name).length ∧ (∃ rest, name.toList = '<' :: rest) ∧
    ∃ front, name.toList = front ++ ['>']

theorem isBracketed_iff {name : String} : isBracketed name = true ↔ Bracketed name := by
  simp only [isBracketed, Bracketed, ByteOrder.length_bytes, Bool.and_eq_true, beq_iff_eq,
    decide_eq_true_eq, and_assoc, List.head?_eq_some_iff, List.getLast?_eq_some_iff]

namespace Grammar

/-- A list of rules gives a name the alternatives of the last rule with this name. -/
def Gives (rules : List (String × List String)) (name : String) (alternatives : List String) :
    Prop :=
  ∃ before after, rules = before ++ (name, alternatives) :: after ∧ ∀ r ∈ after, r.1 ≠ name

/-- A rule is sound when its name stands in angle brackets and it has alternatives. -/
def Sound (name : String) (alternatives : List String) : Prop :=
  Bracketed name ∧ alternatives ≠ []

/-- What is wrong with a rule.  Missing alternatives count where the name stands in brackets. -/
inductive Defect (name : String) (alternatives : List String) : GrammarError → Prop
  | unbracketed (plain : ¬ Bracketed name) : Defect name alternatives (.invalidNonterminal name)
  | empty (bracketed : Bracketed name) (none : alternatives = []) :
    Defect name alternatives (.emptyRule name)

section Rule

variable {name : String} {alternatives : List String}

/-- A sound rule has no defect. -/
theorem Defect.not_sound {e : GrammarError} (h : Defect name alternatives e) :
    ¬ Sound name alternatives := by
  rintro ⟨bracketed, some⟩
  cases h with
  | unbracketed plain => exact plain bracketed
  | empty _ none => exact some none

/-- Any other rule has one. -/
theorem exists_defect_of_not_sound (h : ¬ Sound name alternatives) :
    ∃ e, Defect name alternatives e := by
  by_cases bracketed : Bracketed name
  · exact ⟨_, .empty bracketed (Decidable.not_not.1 fun some => h ⟨bracketed, some⟩)⟩
  · exact ⟨_, .unbracketed bracketed⟩

/-- A rule has one defect at most. -/
theorem Defect.unique {e f : GrammarError} (h : Defect name alternatives e)
    (h' : Defect name alternatives f) : e = f := by
  cases h with
  | unbracketed plain =>
    cases h' with
    | unbracketed => rfl
    | empty bracketed => exact absurd bracketed plain
  | empty bracketed =>
    cases h' with
    | unbracketed plain => exact absurd bracketed plain
    | empty => rfl

end Rule

/-- A check of rules finds the defect of the first one. -/
theorem firstDefect_cons_of_defect {name : String} {alternatives : List String} {e : GrammarError}
    (h : Defect name alternatives e) (rest : List (String × List String)) :
    firstDefect ((name, alternatives) :: rest) = some e := by
  cases h with
  | unbracketed plain => simp [firstDefect, isBracketed_iff, plain]
  | empty bracketed none => simp [firstDefect, isBracketed_iff, bracketed, none]

/-- It goes on behind a sound rule. -/
theorem firstDefect_cons_of_sound {name : String} {alternatives : List String}
    (h : Sound name alternatives) (rest : List (String × List String)) :
    firstDefect ((name, alternatives) :: rest) = firstDefect rest := by
  have bracketed : isBracketed name = true := isBracketed_iff.2 h.1
  simp [firstDefect, bracketed, h.2]

/-- **The first defect is that of the least name that has one,** in rules in the order of their
names. -/
theorem firstDefect_eq_some_iff {rules : List (String × List String)}
    (sorted : rules.Pairwise fun a b => a.1 < b.1) {e : GrammarError} :
    firstDefect rules = some e ↔
      ∃ name alternatives, (name, alternatives) ∈ rules ∧ Defect name alternatives e ∧
        ∀ r ∈ rules, r.1 < name → Sound r.1 r.2 := by
  induction rules with
  | nil => simp [firstDefect]
  | cons r rest ih =>
    obtain ⟨name, alternatives⟩ := r
    obtain ⟨first, tail⟩ := List.pairwise_cons.1 sorted
    by_cases sound : Sound name alternatives
    · rw [firstDefect_cons_of_sound sound, ih tail]
      constructor
      · rintro ⟨name', alternatives', mem, defect, before⟩
        refine ⟨name', alternatives', List.mem_cons_of_mem _ mem, defect, fun r h less => ?_⟩
        rcases List.mem_cons.1 h with rfl | later
        · exact sound
        · exact before r later less
      · rintro ⟨name', alternatives', mem, defect, before⟩
        refine ⟨name', alternatives', ?_, defect, fun r h => before r (List.mem_cons_of_mem _ h)⟩
        rcases List.mem_cons.1 mem with same | later
        · cases same
          exact absurd sound defect.not_sound
        · exact later
    · obtain ⟨found, defect⟩ := exists_defect_of_not_sound sound
      rw [firstDefect_cons_of_defect defect]
      constructor
      · rintro ⟨⟩
        refine ⟨name, alternatives, List.mem_cons_self .., defect, fun r h less => ?_⟩
        rcases List.mem_cons.1 h with rfl | later
        · exact absurd less (String.lt_irrefl _)
        · exact absurd less (String.lt_asymm (first r later))
      · rintro ⟨name', alternatives', mem, defect', before⟩
        rcases List.mem_cons.1 mem with same | later
        · cases same
          rw [defect.unique defect']
        · exact absurd (before _ (List.mem_cons_self ..) (first _ later)) sound

/-- **What a list gives for a name is under it in the dictionary of the list.** -/
theorem gives_iff_find? {rules : List (String × List String)} {name : String}
    {alternatives : List String} :
    Gives rules name alternatives ↔ (Dictionary.ofList rules).find? name = some alternatives := by
  rw [Dictionary.find?_ofList, Dictionary.lookup_eq_some_iff]
  constructor
  · rintro ⟨before, after, rfl, last⟩
    exact ⟨after.reverse, before.reverse, by simp, fun r mem => last r (List.mem_reverse.1 mem)⟩
  · rintro ⟨after, before, split, last⟩
    refine ⟨before.reverse, after.reverse, ?_, fun r mem => last r (List.mem_reverse.1 mem)⟩
    have split := congrArg List.reverse split
    simpa using split

theorem gives_iff_mem {rules : List (String × List String)} {name : String}
    {alternatives : List String} :
    Gives rules name alternatives ↔ (name, alternatives) ∈ (Dictionary.ofList rules).entries :=
  gives_iff_find?.trans Dictionary.find?_eq_some_iff_mem

/-- A list gives something for each name that has a rule, and for no other. -/
theorem exists_gives_iff {rules : List (String × List String)} {name : String} :
    (∃ alternatives, Gives rules name alternatives) ↔ name ∈ rules.map (·.1) := by
  constructor
  · rintro ⟨alternatives, before, after, rfl, -⟩
    simp
  · intro mem
    induction rules with
    | nil => cases mem
    | cons r rest ih =>
      by_cases later : name ∈ rest.map (·.1)
      · obtain ⟨alternatives, before, after, rfl, last⟩ := ih later
        exact ⟨alternatives, r :: before, after, rfl, last⟩
      · obtain rfl : name = r.1 := (List.mem_cons.1 mem).resolve_right later
        exact ⟨r.2, [], rest, rfl, fun e there same => later (List.mem_map.2 ⟨e, there, same⟩)⟩

/-- **Rules are refused for the first defect,** or for want of a start symbol if there is none. -/
theorem ofRules_eq_error_iff {rules : Dictionary (List String)} {e : GrammarError} :
    ofRules rules = .error e ↔
      firstDefect rules.entries = some e ∨
        firstDefect rules.entries = none ∧ rules.contains startSymbol = false ∧
          e = .missingStart startSymbol := by
  unfold ofRules
  split
  · next found sound => simp [sound]
  · next sound =>
    by_cases start : rules.contains startSymbol = true
    · simp [sound, start]
    · simp [sound, start, eq_comm]

/-- **A list of rules is judged by what it gives.**  It is a grammar exactly when each rule it gives
is sound, and it gives one for the start symbol.  It is refused with an error exactly when that is
the defect of the rule it gives for some name, the rules it gives for names with smaller bytes being
sound; or when all are sound, there is none for the start symbol, and the error says so.  A grammar
made of a list has as the alternatives of each name what the list gives for it, and its nonterminals
are the names in the list, each once, in increasing order of their bytes. -/
theorem ofList_judges (rules : List (String × List String)) :
    ((∃ g, ofList rules = .ok g) ↔
      (∀ name alternatives, Gives rules name alternatives → Sound name alternatives) ∧
        ∃ alternatives, Gives rules "<start>" alternatives) ∧
    (∀ e, ofList rules = .error e ↔
      (∃ name alternatives, Gives rules name alternatives ∧ Defect name alternatives e ∧
        ∀ other alternatives', Gives rules other alternatives' →
          ByteOrder.bytes other < ByteOrder.bytes name → Sound other alternatives') ∨
      ((∀ name alternatives, Gives rules name alternatives → Sound name alternatives) ∧
        (¬ ∃ alternatives, Gives rules "<start>" alternatives) ∧ e = .missingStart "<start>")) ∧
    ∀ g, ofList rules = .ok g →
      (∀ name alternatives,
        g.alternatives? name = some alternatives ↔ Gives rules name alternatives) ∧
      (∀ name, name ∈ g.nonterminals ↔ name ∈ rules.map (·.1)) ∧
      g.nonterminals.Pairwise fun a b => ByteOrder.bytes a < ByteOrder.bytes b := by
  have start : (∃ alternatives, Gives rules "<start>" alternatives) ↔
      (Dictionary.ofList rules).contains startSymbol = true := by
    simp only [gives_iff_find?, Dictionary.contains, Option.isSome_iff_exists]
    rfl
  have sound : (∀ name alternatives, Gives rules name alternatives → Sound name alternatives) ↔
      ∀ r ∈ (Dictionary.ofList rules).entries, isBracketed r.1 = true ∧ r.2 ≠ [] := by
    simp only [gives_iff_mem, Prod.forall, isBracketed_iff]
    rfl
  refine ⟨?_, fun e => ?_, fun g accepted => ?_⟩
  · rw [ofList, ofRules_isOk_iff, start, sound, and_comm]
  · rw [ofList, ofRules_eq_error_iff, firstDefect_eq_some_iff (Dictionary.sorted _),
      firstDefect_eq_none_iff, start, sound, Bool.not_eq_true]
    simp only [gives_iff_mem, ByteOrder.lt_iff_bytes_lt, Prod.forall]
    rfl
  · obtain same : g.rules = .ofList rules := rules_of_ofRules accepted
    refine ⟨fun name alternatives => ?_, fun name => ?_, ?_⟩
    · rw [gives_iff_find?, alternatives?, same]
    · rw [← exists_gives_iff, nonterminals, ← Dictionary.contains_iff_mem_keys, same,
        Dictionary.contains, Option.isSome_iff_exists]
      simp only [gives_iff_find?]
    · rw [nonterminals, Dictionary.keys, List.pairwise_map]
      exact g.rules.sorted.imp ByteOrder.lt_iff_bytes_lt.1

/-- Rules of which the first has two defects, and the second one that is replaced. -/
def replacedRules : List (String × List String) := [("b", []), ("<a>", []), ("<a>", ["x"])]

/-- The replaced defect does no harm, although its name comes first; and of the two defects of `b`
it is the missing brackets that are reported, before the missing start symbol. -/
theorem ofList_judges_replaced :
    ofList replacedRules = .error (.invalidNonterminal "b") := by
  have given : Gives replacedRules "b" [] := ⟨[], _, rfl, by decide⟩
  have unbracketed : ¬ Bracketed "b" := fun h => absurd (isBracketed_iff.2 h) (by decide)
  have defect : Defect "b" [] (.invalidNonterminal "b") := .unbracketed unbracketed
  have rules : (Dictionary.ofList replacedRules).entries = [("<a>", ["x"]), ("b", [])] := by decide
  obtain ⟨-, refused, -⟩ := ofList_judges replacedRules
  refine (refused _).2 (.inl ⟨"b", [], given, defect, fun other alternatives mem less => ?_⟩)
  rw [gives_iff_mem, rules] at mem
  rcases List.mem_cons.1 mem with same | last
  · cases same
    exact ⟨isBracketed_iff.1 (by decide), by decide⟩
  · cases List.mem_singleton.1 last
    exact absurd less (List.lt_irrefl _)

end Grammar
end PreconditionMining
