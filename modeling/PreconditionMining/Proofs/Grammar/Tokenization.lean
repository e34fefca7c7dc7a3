/-
# The tokens of an expansion are determined

What the tokens of an expansion are can be said without saying how they are found
(`Reading`).  Written one after another they are the expansion; pieces of terminal
text are neither empty nor neighbours; a nonterminal is a defined name with one
`>`, at its end; and within terminal text no defined name begins.

The last condition looks past the end of a piece of terminal text: what stands
there from a `<` to the next `>` may reach into the tokens behind it.  Together the
conditions leave no choice.  At each place either a defined name begins, and then
it is the token, or none does, and then terminal text goes on; and it goes on up to
the next place at which one begins, since it may not stop before (`Reading.unique`).

The scanner keeps the conditions while it has read some terminal text and has not
written it down yet (`reading_scan`).  So the conditions say exactly what
`Grammar.tokenize` gives: `Grammar.tokenize_exact`.
-/

import PreconditionMining.Grammar.Token

namespace PreconditionMining

/-- A name in brackets: it begins with `<`, and its only `>` is its last character. -/
def IsTag (name : String) : Prop := ∃ inner, '>' ∉ inner ∧ name.toList = '<' :: (inner ++ ['>'])

theorem IsTag.ne_empty {name : String} (h : IsTag name) : name.toList ≠ [] := by
  obtain ⟨inner, -, spelled⟩ := h
  rw [spelled]
  exact List.cons_ne_nil _ _

/-- A text is cut after its first `>`. -/
theorem cutAfterClose_eq_some_iff {cs front rest : List Char} :
    cutAfterClose cs = some (front, rest) ↔
      ∃ inner, '>' ∉ inner ∧ front = inner ++ ['>'] ∧ cs = inner ++ '>' :: rest := by
  induction cs generalizing front with
  | nil => simp [cutAfterClose]
  | cons c cs ih =>
    unfold cutAfterClose
    by_cases close : c = '>'
    · subst close
      rw [if_pos rfl]
      constructor
      · intro h
        obtain ⟨rfl, rfl⟩ := Prod.mk.inj (Option.some.inj h)
        exact ⟨[], by simp, rfl, rfl⟩
      · rintro ⟨_ | ⟨d, inner⟩, fresh, rfl, same⟩
        · obtain ⟨-, rfl⟩ := List.cons.inj same
          rfl
        · obtain ⟨rfl, -⟩ := List.cons.inj same
          exact absurd List.mem_cons_self fresh
    · rw [if_neg close]
      constructor
      · intro h
        obtain ⟨⟨front', rest'⟩, cut, same⟩ := Option.map_eq_some_iff.1 h
        obtain ⟨rfl, rfl⟩ := Prod.mk.inj same
        obtain ⟨inner, fresh, rfl, rfl⟩ := ih.1 cut
        exact ⟨c :: inner, by simp [fresh, Ne.symm close], rfl, rfl⟩
      · rintro ⟨_ | ⟨d, inner⟩, fresh, rfl, same⟩
        · exact absurd (List.cons.inj same).1 close
        · obtain ⟨rfl, rfl⟩ := List.cons.inj same
          have cut := ih.2 ⟨inner, fun mem => fresh (List.mem_cons_of_mem _ mem), rfl, rfl⟩
          rw [cut]
          rfl

/-- **A name is read at the beginning of a text** when it is a defined name in brackets and the
text begins with it. -/
theorem nameAt_eq_some_iff {defined : String → Bool} {cs rest : List Char} {name : String} :
    nameAt defined cs = some (name, rest) ↔
      IsTag name ∧ defined name = true ∧ cs = name.toList ++ rest := by
  constructor
  · intro h
    obtain ⟨spelled, isDefined⟩ := nameAt_append h
    refine ⟨?_, isDefined, spelled.symm⟩
    unfold nameAt at h
    split at h
    · next cs =>
      split at h
      · next front rest' cut =>
        split at h
        · obtain ⟨rfl, rfl⟩ := Prod.mk.inj (Option.some.inj h)
          obtain ⟨inner, fresh, rfl, -⟩ := cutAfterClose_eq_some_iff.1 cut
          exact ⟨inner, fresh, by simp⟩
        · cases h
      · cases h
    · cases h
  · rintro ⟨⟨inner, fresh, spelled⟩, isDefined, rfl⟩
    have cut : cutAfterClose (inner ++ '>' :: rest) = some (inner ++ ['>'], rest) :=
      cutAfterClose_eq_some_iff.2 ⟨inner, fresh, rfl, rfl⟩
    have same : String.ofList ('<' :: (inner ++ ['>'])) = name := by
      rw [← spelled, String.ofList_toList]
    simp [spelled, nameAt, cut, same, isDefined]

/-- Within a text that others follow no defined name begins: whatever is written there from a `<`
to the next `>` is not defined. -/
def NamesNothing (defined : String → Bool) (text after : List Char) : Prop :=
  ∀ front back inner rest, text = front ++ '<' :: back → back ++ after = inner ++ '>' :: rest →
    '>' ∉ inner → defined (String.ofList ('<' :: (inner ++ ['>']))) = false

theorem namesNothing_iff {defined : String → Bool} {text after : List Char} :
    NamesNothing defined text after ↔
      ∀ front back, text = front ++ back → back ≠ [] → nameAt defined (back ++ after) = none := by
  constructor
  · intro h front back split nonempty
    rw [Option.eq_none_iff_forall_ne_some]
    rintro ⟨name, rest⟩ found
    obtain ⟨⟨inner, fresh, spelled⟩, isDefined, same⟩ := nameAt_eq_some_iff.1 found
    rw [spelled] at same
    cases back with
    | nil => exact nonempty rfl
    | cons c back =>
      obtain ⟨rfl, later⟩ := List.cons.inj same
      have undefined := h front back inner rest split (by simpa using later) fresh
      rw [← spelled, String.ofList_toList, isDefined] at undefined
      cases undefined
  · intro h front back inner rest split later fresh
    rw [Bool.eq_false_iff]
    intro isDefined
    have found : nameAt defined ('<' :: back ++ after) =
        some (String.ofList ('<' :: (inner ++ ['>'])), rest) :=
      nameAt_eq_some_iff.2 ⟨⟨inner, fresh, by simp⟩, isDefined, by simp [later]⟩
    rw [h front _ split (List.cons_ne_nil _ _)] at found
    cases found

/-- **The tokens of a text,** where some names are defined. -/
structure Reading (defined : String → Bool) (cs : List Char) (ts : List Token) : Prop where
  /-- The tokens, written one after another, are the text. -/
  spelled : Token.chars ts = cs
  /-- No piece of terminal text is empty. -/
  nonempty : .terminal "" ∉ ts
  /-- No two pieces of terminal text are neighbours. -/
  apart : ∀ a b after, ¬ .terminal a :: .terminal b :: after <:+ ts
  /-- A nonterminal is a defined name in brackets. -/
  named : ∀ name, .nonterminal name ∈ ts → IsTag name ∧ defined name = true
  /-- At no place in terminal text does a defined name begin, with what comes later read on. -/
  unnamed : ∀ text after, .terminal text :: after <:+ ts →
    NamesNothing defined text.toList (Token.chars after)

@[simp] theorem Token.chars_nil : Token.chars [] = [] := rfl

@[simp] theorem Token.chars_cons (tok : Token) (ts : List Token) :
    Token.chars (tok :: ts) = tok.text.toList ++ Token.chars ts := rfl

namespace Reading

variable {defined : String → Bool} {cs : List Char} {ts : List Token}

theorem tail {tok : Token} (h : Reading defined cs (tok :: ts)) :
    Reading defined (Token.chars ts) ts where
  spelled := rfl
  nonempty := fun mem => h.nonempty (List.mem_cons_of_mem _ mem)
  apart a b after suffix := h.apart a b after (suffix.trans (List.suffix_cons _ _))
  named name mem := h.named name (List.mem_cons_of_mem _ mem)
  unnamed text after suffix := h.unnamed text after (suffix.trans (List.suffix_cons _ _))

/-- Where a nonterminal comes first, its name is what is read there. -/
theorem nameAt_nonterminal {name : String} (h : Reading defined cs (.nonterminal name :: ts)) :
    nameAt defined cs = some (name, Token.chars ts) := by
  obtain ⟨isTag, isDefined⟩ := h.named name List.mem_cons_self
  exact nameAt_eq_some_iff.2 ⟨isTag, isDefined, h.spelled.symm⟩

theorem text_ne_nil {text : String} (h : Reading defined cs (.terminal text :: ts)) :
    text.toList ≠ [] := by
  intro empty
  have : text = "" := String.toList_inj.1 empty
  exact h.nonempty (by simp [this])

/-- Where terminal text comes first, no name is read. -/
theorem nameAt_terminal {text : String} (h : Reading defined cs (.terminal text :: ts)) :
    nameAt defined cs = none := by
  rw [← h.spelled]
  exact namesNothing_iff.1 (h.unnamed text ts (List.suffix_refl _)) [] text.toList rfl h.text_ne_nil

/-- There are no tokens of no text. -/
theorem eq_nil (h : Reading defined [] ts) : ts = [] := by
  cases ts with
  | nil => rfl
  | cons tok ts =>
    obtain ⟨empty, -⟩ := List.append_eq_nil_iff.1 h.spelled
    cases tok with
    | terminal text => exact absurd empty h.text_ne_nil
    | nonterminal name => exact absurd empty (h.named name List.mem_cons_self).1.ne_empty

/-- **Terminal text does not stop early:** where one reading ends a piece of it, another one that
goes on with it would pass over a name. -/
theorem run_ends {cs' more : List Char} {a b : String} {ts' : List Token}
    (h : Reading defined cs (.terminal a :: ts)) (h' : Reading defined cs' (.terminal b :: ts'))
    (longer : b.toList = a.toList ++ more) (later : Token.chars ts = more ++ Token.chars ts') :
    more = [] := by
  by_cases empty : more = []
  · exact empty
  exfalso
  have none := namesNothing_iff.1 (h'.unnamed b ts' (List.suffix_refl _)) _ more longer empty
  rw [← later] at none
  cases ts with
  | nil => exact empty (List.append_eq_nil_iff.1 later.symm).1
  | cons tok ts =>
    cases tok with
    | terminal text => exact h.apart a text ts (List.suffix_refl _)
    | nonterminal name =>
      rw [h.tail.nameAt_nonterminal] at none
      cases none

/-- **A text has at most one reading.** -/
theorem unique {ts' : List Token} (h : Reading defined cs ts) (h' : Reading defined cs ts') :
    ts = ts' := by
  induction ts generalizing cs ts' with
  | nil =>
    obtain rfl : [] = cs := h.spelled
    exact h'.eq_nil.symm
  | cons tok ts ih =>
    cases ts' with
    | nil =>
      obtain rfl : [] = cs := h'.spelled
      exact h.eq_nil
    | cons tok' ts' =>
      suffices same : tok = tok' by
        subst same
        have later : Token.chars ts = Token.chars ts' :=
          List.append_cancel_left (h.spelled.trans h'.spelled.symm)
        rw [ih h.tail (later ▸ h'.tail)]
      cases tok with
      | nonterminal name =>
        have found := h.nameAt_nonterminal
        cases tok' with
        | nonterminal name' =>
          rw [h'.nameAt_nonterminal] at found
          rw [(Prod.mk.inj (Option.some.inj found)).1]
        | terminal text =>
          rw [h'.nameAt_terminal] at found
          cases found
      | terminal a =>
        have none := h.nameAt_terminal
        cases tok' with
        | nonterminal name =>
          rw [h'.nameAt_nonterminal] at none
          cases none
        | terminal b =>
          have both : a.toList ++ Token.chars ts = b.toList ++ Token.chars ts' :=
            h.spelled.trans h'.spelled.symm
          rcases List.append_eq_append_iff.1 both with ⟨more, longer, later⟩ | ⟨more, longer, later⟩
          · obtain rfl := h.run_ends h' longer later
            rw [String.toList_inj.1 (longer.trans (List.append_nil _))]
          · obtain rfl := h'.run_ends h longer later
            rw [String.toList_inj.1 (longer.trans (List.append_nil _))]

theorem nil : Reading defined [] [] where
  spelled := rfl
  nonempty := List.not_mem_nil
  apart _ _ _ suffix := absurd (List.suffix_nil.1 suffix) (List.cons_ne_nil _ _)
  named _ mem := absurd mem List.not_mem_nil
  unnamed _ _ suffix := absurd (List.suffix_nil.1 suffix) (List.cons_ne_nil _ _)

/-- A defined name can be put before a reading. -/
theorem cons_nonterminal {name : String} (isTag : IsTag name) (isDefined : defined name = true)
    (h : Reading defined cs ts) :
    Reading defined (name.toList ++ cs) (.nonterminal name :: ts) where
  spelled := by rw [Token.chars_cons, h.spelled, Token.text]
  nonempty := by simpa using h.nonempty
  apart a b after suffix := by
    rcases List.suffix_cons_iff.1 suffix with same | suffix
    · cases same
    · exact h.apart a b after suffix
  named n mem := by
    rcases List.mem_cons.1 mem with same | mem
    · obtain rfl := Token.nonterminal.inj same
      exact ⟨isTag, isDefined⟩
    · exact h.named n mem
  unnamed text after suffix := by
    rcases List.suffix_cons_iff.1 suffix with same | suffix
    · cases same
    · exact h.unnamed text after suffix

/-- Terminal text in which no name begins can be put before a reading that does not begin with
terminal text. -/
theorem append_text {text : String} (plain : NamesNothing defined text.toList cs)
    (other : ∀ a after, ts ≠ .terminal a :: after) (h : Reading defined cs ts) :
    Reading defined (text.toList ++ cs) (Token.ofText text ++ ts) := by
  unfold Token.ofText
  split
  · next empty =>
    subst empty
    exact h
  · next nonempty =>
    refine ⟨by rw [List.singleton_append, Token.chars_cons, h.spelled, Token.text], ?_, ?_, ?_, ?_⟩
    · simpa [Ne.symm nonempty] using h.nonempty
    · intro a b after suffix
      rcases List.suffix_cons_iff.1 suffix with same | suffix
      · exact other b after (List.cons.inj same).2.symm
      · exact h.apart a b after suffix
    · simpa using h.named
    · intro a after suffix
      rcases List.suffix_cons_iff.1 suffix with same | suffix
      · obtain ⟨first, rfl⟩ := List.cons.inj same
        obtain rfl := Token.terminal.inj first
        rw [h.spelled]
        exact plain
      · exact h.unnamed a after suffix

end Reading

/-- Where no name is read, terminal text goes on. -/
theorem NamesNothing.push {defined : String → Bool} {text : String} {c : Char} {cs : List Char}
    (plain : NamesNothing defined text.toList (c :: cs)) (none : nameAt defined (c :: cs) = none) :
    NamesNothing defined (text.push c).toList cs := by
  rw [namesNothing_iff] at plain ⊢
  intro front back pushed nonempty
  rw [String.toList_push] at pushed
  rcases List.append_eq_append_iff.1 pushed with ⟨more, -, last⟩ | ⟨more, split, rfl⟩
  · -- the place is that of the new character
    rcases List.append_eq_singleton_iff.1 last.symm with ⟨-, rfl⟩ | ⟨-, rfl⟩
    · exact none
    · exact absurd rfl nonempty
  · cases more with
    | nil => exact none
    | cons d more => simpa using plain front (d :: more) split (List.cons_ne_nil _ _)

/-- **The scanner reads what is left of a text** behind terminal text in which no name begins. -/
theorem reading_scan (defined : String → Bool) (text : String) (cs : List Char)
    (plain : NamesNothing defined text.toList cs) :
    Reading defined (text.toList ++ cs) (scan defined text cs) := by
  fun_induction scan defined text cs with
  | case1 text => simpa using Reading.nil.append_text plain fun a after same => by cases same
  | case2 text c cs name rest found ih =>
    obtain ⟨isTag, isDefined, spelled⟩ := nameAt_eq_some_iff.1 found
    have later : Reading defined rest (scan defined "" rest) :=
      ih fun front back _ _ split => by simp at split
    rw [spelled] at plain ⊢
    refine (later.cons_nonterminal isTag isDefined).append_text plain fun a after same => ?_
    cases same
  | case3 text c cs none ih =>
    simpa using ih (plain.push none)

/-- **Tokens are exact.**  For each grammar and each expansion there is exactly one list of tokens
such that these, written one after another, are the expansion, no terminal text is empty, no two
pieces of it are neighbours, each nonterminal is a defined name in brackets whose only `>` is at its
end, and at no place within terminal text does a defined name begin, up to the next `>` of the
expansion.  It is the list that `tokenize` gives. -/
theorem Grammar.tokenize_exact (g : Grammar) (expansion : String) (ts : List Token) :
    Reading g.defines expansion.toList ts ↔ g.tokenize expansion = ts := by
  have reads : Reading g.defines expansion.toList (g.tokenize expansion) :=
    reading_scan g.defines "" expansion.toList fun front back _ _ split => by simp at split
  constructor
  · exact fun h => reads.unique h
  · rintro rfl
    exact reads

/-- A name is read that begins within a stretch that is none. -/
example : scan (· == "<b>") "" "<<a<b>".toList = [.terminal "<<a", .nonterminal "<b>"] := by
  decide +kernel

end PreconditionMining
