/-
# Dictionaries

A dictionary sends finitely many texts to values.  Its entries are kept in
strictly increasing order of their keys (texts are compared by code points), so
a dictionary has one form: `ext_find?` says that two dictionaries answering
every look-up alike are equal.

`find?_insert` and `find?_union` say what writing does to the look-ups: the
written key is replaced, the other keys stay, and in a union the second
dictionary wins.
-/

namespace PreconditionMining

/-- Values under text keys, in strictly increasing order of the keys. -/
structure Dictionary (β : Type) where
  entries : List (String × β)
  sorted : entries.Pairwise (fun a b => a.1 < b.1)

namespace Dictionary

variable {β : Type}

/-- The value of the first entry with a key. -/
def lookup (key : String) : List (String × β) → Option β
  | [] => none
  | (k, v) :: rest => if key = k then some v else lookup key rest

theorem lookup_append (key : String) (l₁ l₂ : List (String × β)) :
    lookup key (l₁ ++ l₂) = (lookup key l₁).or (lookup key l₂) := by
  induction l₁ with
  | nil => rfl
  | cons e rest ih => by_cases h : key = e.1 <;> simp [lookup, h, ih]

/-- Puts a value under a key of an ordered list of entries, in the key's place. -/
def put (key : String) (value : β) : List (String × β) → List (String × β)
  | [] => [(key, value)]
  | (k, v) :: rest =>
    if key = k then (key, value) :: rest
    else if key < k then (key, value) :: (k, v) :: rest
    else (k, v) :: put key value rest

theorem mem_put {key : String} {value : β} {e : String × β} :
    ∀ {l : List (String × β)}, e ∈ put key value l → e = (key, value) ∨ e ∈ l
  | [], h => by simpa [put] using h
  | (k, v) :: rest, h => by
    unfold put at h
    split at h
    · rcases List.mem_cons.1 h with h | h <;> simp [h]
    · split at h
      · rcases List.mem_cons.1 h with h | h
        · exact .inl h
        · exact .inr h
      · rcases List.mem_cons.1 h with h | h
        · simp [h]
        · rcases mem_put h with h | h <;> simp [h]

theorem put_sorted (key : String) (value : β) :
    ∀ {l : List (String × β)}, l.Pairwise (fun a b => a.1 < b.1) →
      (put key value l).Pairwise (fun a b => a.1 < b.1)
  | [], _ => by simp [put]
  | (k, v) :: rest, h => by
    obtain ⟨first, tail⟩ := List.pairwise_cons.1 h
    unfold put
    split
    · next same => exact List.pairwise_cons.2 ⟨fun e he => same ▸ first e he, tail⟩
    · next other =>
      split
      · next before =>
        refine List.pairwise_cons.2 ⟨fun e he => ?_, h⟩
        rcases List.mem_cons.1 he with he | he
        · exact he ▸ before
        · exact String.lt_trans before (first e he)
      · next after =>
        refine List.pairwise_cons.2 ⟨fun e he => ?_, put_sorted key value tail⟩
        rcases mem_put he with he | he
        · have le : k ≤ key := String.not_lt.1 after
          rcases String.le_total key k with ge | _
          · exact absurd (String.le_antisymm ge le) other
          · subst he
            exact String.not_le.1 fun ge => other (String.le_antisymm ge le)
        · exact first e he

/-- The dictionary without entries. -/
def empty : Dictionary β := ⟨[], .nil⟩

instance : Inhabited (Dictionary β) := ⟨empty⟩

/-- Puts a value under a key, in place of the value that the key had. -/
def insert (d : Dictionary β) (key : String) (value : β) : Dictionary β :=
  ⟨put key value d.entries, put_sorted key value d.sorted⟩

/-- The value under a key. -/
def find? (d : Dictionary β) (key : String) : Option β := lookup key d.entries

/-- Whether there is a value under a key. -/
def contains (d : Dictionary β) (key : String) : Bool := (d.find? key).isSome

/-- The keys, in increasing order. -/
def keys (d : Dictionary β) : List String := d.entries.map (·.1)

/-- Enters pairs one after another: a later pair replaces an earlier one of its key. -/
def insertAll (d : Dictionary β) (pairs : List (String × β)) : Dictionary β :=
  pairs.foldl (fun d e => d.insert e.1 e.2) d

/-- The dictionary of a list of pairs; a later pair replaces an earlier one of its key. -/
def ofList (pairs : List (String × β)) : Dictionary β := empty.insertAll pairs

/-- The entries of both, those of the second winning. -/
def union (base later : Dictionary β) : Dictionary β := base.insertAll later.entries

@[simp] theorem find?_empty (key : String) : (empty : Dictionary β).find? key = none := rfl

theorem lookup_put (key other : String) (value : β) :
    ∀ l : List (String × β),
      lookup other (put key value l) = if other = key then some value else lookup other l
  | [] => by by_cases h : other = key <;> simp [put, lookup, h]
  | (k, v) :: rest => by
    unfold put
    by_cases same : key = k
    · subst same
      by_cases h : other = key <;> simp [lookup, h]
    · by_cases before : key < k
      · by_cases h : other = key <;> simp [same, before, lookup, h]
      · simp only [same, before, if_false, lookup]
        by_cases hk : other = k
        · subst hk
          simp [Ne.symm same]
        · simp [hk, lookup_put key other value rest]

/-- **Writing one key changes the look-up of that key only.** -/
theorem find?_insert (d : Dictionary β) (key other : String) (value : β) :
    (d.insert key value).find? other = if other = key then some value else d.find? other :=
  lookup_put key other value d.entries

theorem find?_insertAll (key : String) :
    ∀ (pairs : List (String × β)) (d : Dictionary β),
      (d.insertAll pairs).find? key = (lookup key pairs.reverse).or (d.find? key)
  | [], d => by simp [insertAll, lookup]
  | (k, v) :: rest, d => by
    have step : d.insertAll ((k, v) :: rest) = (d.insert k v).insertAll rest := rfl
    rw [step, find?_insertAll key rest, find?_insert, List.reverse_cons, lookup_append]
    by_cases h : key = k <;> simp [lookup, h]

/-- What is in a dictionary after entering pairs is one of the pairs, or was there before. -/
theorem mem_entries_insertAll {e : String × β} {pairs : List (String × β)}
    {d : Dictionary β} (h : e ∈ (d.insertAll pairs).entries) : e ∈ pairs ∨ e ∈ d.entries := by
  induction pairs generalizing d with
  | nil => exact .inr h
  | cons first rest ih =>
    have later : e ∈ ((d.insert first.1 first.2).insertAll rest).entries := h
    rcases ih later with mem | mem
    · exact .inl (List.mem_cons_of_mem first mem)
    · rcases mem_put mem with rfl | mem
      · exact .inl List.mem_cons_self
      · exact .inr mem

/-- **Of several pairs with one key the last one counts.** -/
theorem find?_ofList (pairs : List (String × β)) (key : String) :
    (ofList pairs).find? key = lookup key pairs.reverse := by
  simp [ofList, find?_insertAll]

/-- What has another key is not found. -/
theorem lookup_eq_none {key : String} {l : List (String × β)} (other : ∀ e ∈ l, e.1 ≠ key) :
    lookup key l = none := by
  induction l with
  | nil => rfl
  | cons e rest ih =>
    obtain ⟨k, v⟩ := e
    obtain ⟨first, later⟩ := List.forall_mem_cons.1 other
    rw [lookup, if_neg (Ne.symm first), ih later]

/-- What is looked up is the value of the first entry with the key. -/
theorem lookup_eq_some_iff {key : String} {value : β} {l : List (String × β)} :
    lookup key l = some value ↔
      ∃ before after, l = before ++ (key, value) :: after ∧ ∀ e ∈ before, e.1 ≠ key := by
  induction l with
  | nil => simp [lookup]
  | cons e rest ih =>
    obtain ⟨k, v⟩ := e
    by_cases here : key = k
    · subst here
      constructor
      · intro found
        obtain rfl : v = value := by simpa [lookup] using found
        exact ⟨[], rest, rfl, fun _ mem => by cases mem⟩
      · rintro ⟨before, after, split, other⟩
        cases before with
        | nil =>
          cases split
          simp [lookup]
        | cons e before =>
          obtain ⟨rfl, -⟩ := List.cons.inj split
          exact absurd rfl (other _ (List.mem_cons_self ..))
    · rw [lookup, if_neg here, ih]
      constructor
      · rintro ⟨before, after, rfl, other⟩
        exact ⟨(k, v) :: before, after, rfl, List.forall_mem_cons.2 ⟨Ne.symm here, other⟩⟩
      · rintro ⟨before, after, split, other⟩
        cases before with
        | nil =>
          cases split
          exact absurd rfl here
        | cons e before =>
          obtain ⟨-, split⟩ := List.cons.inj split
          exact ⟨before, after, split, fun e mem => other e (List.mem_cons_of_mem _ mem)⟩

theorem lookup_eq_none_of_lt {key : String} {l : List (String × β)} (before : ∀ e ∈ l, key < e.1) :
    lookup key l = none :=
  lookup_eq_none fun e mem same => String.lt_irrefl key (same ▸ before e mem)

/-- In an ordered list each entry is found under its own key. -/
theorem lookup_eq_some_iff_mem {key : String} {value : β} :
    ∀ {l : List (String × β)}, l.Pairwise (fun a b => a.1 < b.1) →
      (lookup key l = some value ↔ (key, value) ∈ l)
  | [], _ => by simp [lookup]
  | (k, v) :: rest, h => by
    obtain ⟨first, tail⟩ := List.pairwise_cons.1 h
    by_cases eq : key = k
    · subst eq
      have away : (key, value) ∉ rest := fun he => String.lt_irrefl key (first _ he)
      simp [lookup, away, eq_comm]
    · simp [lookup, eq, lookup_eq_some_iff_mem tail]

theorem find?_eq_some_iff_mem {d : Dictionary β} {key : String} {value : β} :
    d.find? key = some value ↔ (key, value) ∈ d.entries :=
  lookup_eq_some_iff_mem d.sorted

theorem lookup_reverse_of_sorted {key : String} {l : List (String × β)}
    (h : l.Pairwise (fun a b => a.1 < b.1)) : lookup key l.reverse = lookup key l := by
  induction l with
  | nil => rfl
  | cons e rest ih =>
    obtain ⟨k, v⟩ := e
    obtain ⟨first, tail⟩ := List.pairwise_cons.1 h
    rw [List.reverse_cons, lookup_append, ih tail]
    by_cases eq : key = k
    · subst eq
      simp [lookup_eq_none_of_lt first, lookup]
    · cases found : lookup key rest <;> simp [lookup, eq, found]

/-- **In a union the second dictionary wins.** -/
theorem find?_union (base later : Dictionary β) (key : String) :
    (base.union later).find? key = (later.find? key).or (base.find? key) := by
  rw [union, find?_insertAll, lookup_reverse_of_sorted later.sorted]
  rfl

theorem contains_iff_mem_keys {d : Dictionary β} {key : String} :
    d.contains key = true ↔ key ∈ d.keys := by
  unfold contains keys
  rw [Option.isSome_iff_exists]
  constructor
  · rintro ⟨v, hv⟩
    exact List.mem_map.2 ⟨(key, v), find?_eq_some_iff_mem.1 hv, rfl⟩
  · intro h
    obtain ⟨⟨k, v⟩, he, rfl⟩ := List.mem_map.1 h
    exact ⟨v, find?_eq_some_iff_mem.2 he⟩

theorem sorted_ext {l₁ l₂ : List (String × β)} (h₁ : l₁.Pairwise (fun a b => a.1 < b.1))
    (h₂ : l₂.Pairwise (fun a b => a.1 < b.1)) (h : ∀ key, lookup key l₁ = lookup key l₂) :
    l₁ = l₂ := by
  induction l₁ generalizing l₂ with
  | nil =>
    cases l₂ with
    | nil => rfl
    | cons e rest => have := h e.1; simp [lookup] at this
  | cons e rest ih =>
    obtain ⟨k, v⟩ := e
    cases l₂ with
    | nil => have := h k; simp [lookup] at this
    | cons e' rest' =>
      obtain ⟨k', v'⟩ := e'
      obtain ⟨first, tail⟩ := List.pairwise_cons.1 h₁
      obtain ⟨first', tail'⟩ := List.pairwise_cons.1 h₂
      have inRight : (k, v) ∈ (k', v') :: rest' :=
        (lookup_eq_some_iff_mem h₂).1 (by rw [← h k]; simp [lookup])
      have inLeft : (k', v') ∈ (k, v) :: rest :=
        (lookup_eq_some_iff_mem h₁).1 (by rw [h k']; simp [lookup])
      have same : (k, v) = (k', v') := by
        rcases List.mem_cons.1 inRight with eq | later
        · exact eq
        · rcases List.mem_cons.1 inLeft with eq | later'
          · exact eq.symm
          · exact absurd (String.lt_trans (first' _ later) (first _ later')) (String.lt_irrefl k')
      cases same
      congr 1
      refine ih tail tail' fun key => ?_
      by_cases eq : key = k
      · subst eq
        rw [lookup_eq_none_of_lt first, lookup_eq_none_of_lt first']
      · simpa [lookup, eq] using h key

/-- **A dictionary is determined by its look-ups.** -/
theorem ext_find? {d₁ d₂ : Dictionary β} (h : ∀ key, d₁.find? key = d₂.find? key) : d₁ = d₂ := by
  cases d₁; cases d₂
  congr 1
  exact sorted_ext ‹_› ‹_› h

/-- A list that is in order is the list of entries of its dictionary. -/
theorem entries_ofList {l : List (String × β)} (h : l.Pairwise (fun a b => a.1 < b.1)) :
    (ofList l).entries = l :=
  sorted_ext (ofList l).sorted h fun key => by
    rw [← lookup_reverse_of_sorted h]
    exact find?_ofList l key

/-- What is changed according to its key is found changed. -/
theorem lookup_mapKeyed {γ : Type} (f : String → β → γ) (key : String) (l : List (String × β)) :
    lookup key (l.map fun e => (e.1, f e.1 e.2)) = (lookup key l).map (f key) := by
  induction l with
  | nil => rfl
  | cons e rest ih =>
    obtain ⟨k, v⟩ := e
    by_cases here : key = k
    · subst here
      simp [lookup]
    · simp [lookup, here, ih]

theorem lookup_map {γ : Type} (f : β → γ) (key : String) (l : List (String × β)) :
    lookup key (l.map fun e => (e.1, f e.2)) = (lookup key l).map f :=
  lookup_mapKeyed (fun _ => f) key l

/-- What is dropped by its key is not found, and all else is found as before. -/
theorem lookup_filter (keep : String → Bool) (key : String) (l : List (String × β)) :
    lookup key (l.filter fun e => keep e.1) = if keep key then lookup key l else none := by
  induction l with
  | nil => simp [lookup]
  | cons e rest ih =>
    obtain ⟨k, v⟩ := e
    by_cases here : key = k
    · subst here
      cases kept : keep key <;> simp [lookup, kept, ih]
    · cases kept : keep k <;> simp [lookup, kept, here, ih]

/-- Changing each value changes what is found under each key. -/
theorem find?_ofList_map {γ : Type} (f : β → γ) (d : Dictionary β) (key : String) :
    (ofList (d.entries.map fun e => (e.1, f e.2))).find? key = (d.find? key).map f := by
  have sorted : (d.entries.map fun e => (e.1, f e.2)).Pairwise (fun a b => a.1 < b.1) :=
    List.pairwise_map.2 d.sorted
  rw [find?_ofList, lookup_reverse_of_sorted sorted]
  exact lookup_map f key d.entries

theorem ofList_entries (d : Dictionary β) : ofList d.entries = d := by
  cases d with
  | mk entries sorted =>
    have := entries_ofList sorted
    cases h : ofList entries with
    | mk e s => simp_all

instance [DecidableEq β] : DecidableEq (Dictionary β) := fun a b =>
  decidable_of_iff (a.entries = b.entries)
    ⟨fun h => by cases a; cases b; simp_all, fun h => h ▸ rfl⟩

end Dictionary

/-- A finite set of texts, kept in increasing order. -/
abbrev NameSet := Dictionary Unit

namespace NameSet

/-- The set of the texts of a list. -/
def ofNames (names : List String) : NameSet := Dictionary.ofList (names.map (·, ()))

/-- The texts of a set, in increasing order. -/
def names (s : NameSet) : List String := s.keys

end NameSet

end PreconditionMining
