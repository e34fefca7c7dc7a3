/-
# The places of a tree

Here the places of a tree are listed together with what is there (`places`), each before those
below it and left before right.  The list is all of `get?` (`mem_places`), its paths increase
(`pairwise_places`), and it is as long as the tree is large (`size_eq_length_places`).  The
paths of the nodes and the nodes with a symbol are both read off it (`nodePaths_eq`,
`findAll_eq`), so the one is what `get?` makes of the other.

No such list is needed to find the nodes.  A walk through the tree has one path, which gets
longer by a number on the way down and shorter on the way back, and notes it at each node
(`Walk`).  It notes the same paths in the same order, and it comes back to where it began
(`walk_eq`).  `nodePaths_exact` puts these together.
-/

import Mathlib.Data.List.Lex
import PreconditionMining.Tree

namespace PreconditionMining

namespace Tree

mutual

/-- The places of a tree and what is there, each before those below it, and left before right. -/
def places : Tree → List (Path × Tree)
  | terminal text => [([], terminal text)]
  | node s cs => ([], node s cs) :: placesFrom 0 cs

/-- The places in children that are numbered from `i` on. -/
def placesFrom (i : Nat) : List Tree → List (Path × Tree)
  | [] => []
  | c :: cs => (places c).map (fun e => (i :: e.1, e.2)) ++ placesFrom (i + 1) cs

end

mutual

/-- **The places of a tree are those to which a path leads.** -/
theorem mem_places {p : Path} {s : Tree} : ∀ {t : Tree}, (p, s) ∈ t.places ↔ t.get? p = some s
  | .terminal text => by
    rw [places, List.mem_singleton]
    cases p with
    | nil =>
      constructor
      · rintro ⟨⟩
        rfl
      · rintro ⟨⟩
        rfl
    | cons i rest => simp [children]
  | .node a cs => by
    rw [places, List.mem_cons, mem_placesFrom]
    cases p with
    | nil =>
      constructor
      · rintro (⟨⟨⟩⟩ | ⟨j, rest, c, ⟨⟩, -, -⟩)
        rfl
      · rintro ⟨⟩
        exact .inl rfl
    | cons i rest =>
      rw [get?_cons, children, Option.bind_eq_some_iff]
      constructor
      · rintro (eq | ⟨j, rest', c, eq, atChild, below⟩)
        · cases eq
        · obtain ⟨rfl, rfl⟩ := List.cons.inj eq
          rw [Nat.zero_add]
          exact ⟨c, atChild, below⟩
      · rintro ⟨c, atChild, below⟩
        exact .inr ⟨i, rest, c, by rw [Nat.zero_add], atChild, below⟩

theorem mem_placesFrom {p : Path} {s : Tree} {i : Nat} :
    ∀ {cs : List Tree}, (p, s) ∈ placesFrom i cs ↔
      ∃ j rest c, p = (i + j) :: rest ∧ cs[j]? = some c ∧ c.get? rest = some s
  | [] => by simp [placesFrom]
  | c :: cs => by
    rw [placesFrom, List.mem_append, List.mem_map]
    constructor
    · rintro (⟨⟨rest, s'⟩, mem, eq⟩ | mem)
      · cases eq
        exact ⟨0, rest, c, rfl, rfl, mem_places.1 mem⟩
      · obtain ⟨j, rest, d, rfl, atChild, below⟩ := mem_placesFrom.1 mem
        exact ⟨j + 1, rest, d, by congr 1; omega, atChild, below⟩
    · rintro ⟨j, rest, d, rfl, atChild, below⟩
      cases j with
      | zero =>
        cases atChild
        exact .inl ⟨(rest, s), mem_places.2 below, rfl⟩
      | succ j =>
        exact .inr (mem_placesFrom.2 ⟨j, rest, d, by congr 1; omega, atChild, below⟩)

end

mutual

/-- **The paths of the places increase:** what is above comes before what is below, and the smaller
number before the larger one. -/
theorem pairwise_places :
    ∀ t : Tree, t.places.Pairwise fun e f => List.Lex (· < ·) e.1 f.1
  | .terminal _ => List.pairwise_singleton ..
  | .node _ cs => by
    refine List.pairwise_cons.2 ⟨fun e mem => ?_, pairwise_placesFrom 0 cs⟩
    obtain ⟨j, rest, -, path, -⟩ := mem_placesFrom.1 mem
    rw [path]
    exact .nil

theorem pairwise_placesFrom :
    ∀ (i : Nat) (cs : List Tree), (placesFrom i cs).Pairwise fun e f => List.Lex (· < ·) e.1 f.1
  | _, [] => .nil
  | i, c :: cs => by
    refine List.pairwise_append.2 ⟨List.pairwise_map.2 ((pairwise_places c).imp .cons),
      pairwise_placesFrom (i + 1) cs, fun e inFirst f later => ?_⟩
    obtain ⟨e, -, rfl⟩ := List.mem_map.1 inFirst
    obtain ⟨j, rest, -, path, -⟩ := mem_placesFrom.1 later
    rw [path]
    exact .rel (by omega)

end

mutual

theorem size_eq_length_places : ∀ t : Tree, t.size = t.places.length
  | .terminal _ => rfl
  | .node _ cs => by rw [size, places, List.length_cons, sizeAll_eq_length_placesFrom 0 cs]

theorem sizeAll_eq_length_placesFrom :
    ∀ (i : Nat) (cs : List Tree), sizeAll cs = (placesFrom i cs).length
  | _, [] => rfl
  | i, c :: cs => by
    rw [sizeAll, placesFrom, List.length_append, List.length_map, size_eq_length_places c,
      sizeAll_eq_length_placesFrom (i + 1) cs]

end

/-- The paths of the places at which there is a tree of some kind. -/
def pathsOf (kind : Tree → Bool) (t : Tree) : List Path :=
  (t.places.filter fun e => kind e.2).map (·.1)

theorem mem_pathsOf {kind : Tree → Bool} {t : Tree} {p : Path} :
    p ∈ t.pathsOf kind ↔ ∃ s, t.get? p = some s ∧ kind s = true := by
  rw [pathsOf, List.mem_map]
  constructor
  · rintro ⟨⟨p, s⟩, mem, rfl⟩
    obtain ⟨mem, ofKind⟩ := List.mem_filter.1 mem
    exact ⟨s, mem_places.1 mem, ofKind⟩
  · rintro ⟨s, here, ofKind⟩
    exact ⟨(p, s), List.mem_filter.2 ⟨mem_places.2 here, ofKind⟩, rfl⟩

theorem pairwise_pathsOf (kind : Tree → Bool) (t : Tree) :
    (t.pathsOf kind).Pairwise (List.Lex (· < ·)) :=
  List.pairwise_map.2 ((pairwise_places t).filter _)

theorem nodup_pathsOf (kind : Tree → Bool) (t : Tree) : (t.pathsOf kind).Nodup := by
  refine (pairwise_pathsOf kind t).imp fun smaller same => ?_
  exact List.lex_irrefl Nat.lt_irrefl _ (same ▸ smaller)

/-- Each place has a tree of the kind or one of the other kind. -/
theorem size_eq_add (kind : Tree → Bool) (t : Tree) :
    t.size = (t.pathsOf kind).length + (t.pathsOf fun s => !kind s).length := by
  rw [pathsOf, pathsOf, List.length_map, List.length_map, size_eq_length_places]
  exact List.length_eq_length_filter_add _

mutual

/-- **The paths of the nodes are those of the places at which there is a node.** -/
theorem nodePaths_eq : ∀ t : Tree, t.nodePaths = t.pathsOf isNode
  | .terminal _ => rfl
  | .node _ cs => by
    rw [nodePaths, pathsOf, places, List.filter_cons_of_pos (by rfl), List.map_cons,
      nodePathsFrom_eq 0 cs]

theorem nodePathsFrom_eq :
    ∀ (i : Nat) (cs : List Tree),
      nodePathsFrom i cs = ((placesFrom i cs).filter (·.2.isNode)).map (·.1)
  | _, [] => rfl
  | i, c :: cs => by
    rw [nodePathsFrom, placesFrom, List.filter_append, List.map_append, List.filter_map,
      List.map_map, nodePaths_eq c, pathsOf, List.map_map, nodePathsFrom_eq (i + 1) cs]
    rfl

end

mutual

/-- **The nodes with a symbol are what is at the places at which there is such a node.** -/
theorem findAll_eq (symbol : String) :
    ∀ t : Tree, t.findAll symbol =
      (t.places.filter fun e => e.2.isNode && e.2.symbol = symbol).map (·.2)
  | .terminal _ => rfl
  | .node s cs => by
    rw [findAll, places, findAllIn_eq symbol 0 cs, List.filter_cons]
    by_cases wanted : s = symbol <;> simp [isNode, Tree.symbol, wanted]

theorem findAllIn_eq (symbol : String) :
    ∀ (i : Nat) (cs : List Tree), findAllIn symbol cs =
      ((placesFrom i cs).filter fun e => e.2.isNode && e.2.symbol = symbol).map (·.2)
  | _, [] => rfl
  | i, c :: cs => by
    rw [findAllIn, placesFrom, List.filter_append, List.map_append, List.filter_map,
      List.map_map, findAll_eq symbol c, findAllIn_eq symbol (i + 1) cs]
    rfl

end

/-- The paths of the nodes are those that lead to a node. -/
theorem mem_nodePaths {p : Path} {t : Tree} :
    p ∈ t.nodePaths ↔ ∃ s cs, t.get? p = some (.node s cs) := by
  rw [nodePaths_eq, mem_pathsOf]
  constructor
  · rintro ⟨s, here, ofKind⟩
    cases s with
    | terminal text => cases ofKind
    | node a cs => exact ⟨a, cs, here⟩
  · rintro ⟨a, cs, here⟩
    exact ⟨.node a cs, here, rfl⟩

/-- A way that goes on from another has at least one more number. -/
theorem exists_cons_of_above {p q : Path} (above : p <+: q) (proper : p ≠ q) :
    ∃ i rest, p ++ i :: rest = q := by
  obtain ⟨rest, rfl⟩ := above
  cases rest with
  | nil => exact absurd (List.append_nil p).symm proper
  | cons i rest => exact ⟨i, rest, rfl⟩

/-- Above every place of a tree there is a node. -/
theorem exists_node_above {t s : Tree} {p q : Path} (here : t.get? q = some s) (above : p <+: q)
    (proper : p ≠ q) : ∃ a cs, t.get? p = some (.node a cs) := by
  obtain ⟨i, rest, rfl⟩ := exists_cons_of_above above proper
  rw [get?_append] at here
  obtain ⟨u, there, below⟩ := Option.bind_eq_some_iff.1 here
  cases u with
  | terminal text => simp [children] at below
  | node a cs => exact ⟨a, cs, there⟩

/-- A way is smaller than those that go on from it. -/
theorem lex_of_above {p q : Path} (above : p <+: q) (proper : p ≠ q) : List.Lex (· < ·) p q := by
  obtain ⟨i, rest, rfl⟩ := exists_cons_of_above above proper
  have longer : List.Lex (· < ·) ([] : Path) (i :: rest) := .nil
  simpa only [List.append_nil] using longer.append_left _ p

/-- **What is above a node is a node, and listed earlier.** -/
theorem mem_before_of_above {t : Tree} {p q : Path} {before after : List Path}
    (split : t.nodePaths = before ++ q :: after) (above : p <+: q) (proper : p ≠ q) :
    p ∈ before := by
  have listed : q ∈ t.nodePaths := by simp [split]
  obtain ⟨a, cs, here⟩ := mem_nodePaths.1 listed
  have mem : p ∈ before ++ q :: after :=
    split ▸ mem_nodePaths.2 (exists_node_above here above proper)
  rcases List.mem_append.1 mem with earlier | mem
  · exact earlier
  rcases List.mem_cons.1 mem with same | later
  · exact absurd same proper
  · -- what is listed later is larger, and what is above is smaller
    have ordered := pairwise_pathsOf isNode t
    rw [← nodePaths_eq, split] at ordered
    have larger : List.Lex (· < ·) q p :=
      (List.pairwise_cons.1 (List.pairwise_append.1 ordered).2.1).1 p later
    exact absurd larger (List.lex_asymm Nat.lt_asymm (lex_of_above above proper))

/-- **The nodes with a symbol are what is found at the paths of the nodes with that symbol.** -/
theorem map_some_findAll (t : Tree) (symbol : String) :
    (t.findAll symbol).map some =
      (t.nodePaths.filter fun p => (t.get? p).map Tree.symbol = some symbol).map t.get? := by
  have there : ∀ e ∈ t.places, t.get? e.1 = some e.2 := fun e mem => mem_places.1 mem
  -- at a place `get?` reads what is listed there, so both sides choose the same places
  have chosen : (t.places.filter fun e => e.2.isNode && e.2.symbol = symbol) =
      (t.places.filter (·.2.isNode)).filter
        fun e => (t.get? e.1).map Tree.symbol = some symbol := by
    rw [List.filter_filter]
    refine List.filter_congr fun e mem => ?_
    simp only [there e mem, Option.map_some, Option.some.injEq, Bool.and_comm]
  rw [findAll_eq, chosen, nodePaths_eq, pathsOf, List.filter_map, List.map_map, List.map_map]
  refine List.map_congr_left fun e mem => ?_
  exact (there e (List.mem_filter.1 (List.mem_filter.1 mem).1).1).symm

/-- **The size counts the nodes and the places of the terminals.** -/
theorem exists_terminalPaths (t : Tree) :
    ∃ leaves : List Path, leaves.Nodup ∧
      (∀ p, p ∈ leaves ↔ ∃ text, t.get? p = some (.terminal text)) ∧
      t.size = t.nodePaths.length + leaves.length := by
  refine ⟨t.pathsOf fun s => !s.isNode, nodup_pathsOf _ t, fun p => ?_, ?_⟩
  · rw [mem_pathsOf]
    constructor
    · rintro ⟨s, here, ofKind⟩
      cases s with
      | terminal text => exact ⟨text, here⟩
      | node a cs => cases ofKind
    · rintro ⟨text, here⟩
      exact ⟨.terminal text, here, rfl⟩
  · rw [nodePaths_eq]
    exact t.size_eq_add isNode

/-- A walk through a tree: the path to where it stands, and the paths of the nodes that it met. -/
structure Walk where
  current : Path
  met : List Path

mutual

/-- Walks through a tree.  At a node its path is noted, and the children come one after another:
the number of a child is added to the path on the way down and taken off on the way back. -/
def walk : Tree → Walk → Walk
  | terminal _, w => w
  | node _ cs, w => walkFrom 0 cs { w with met := w.met ++ [w.current] }

/-- Walks through children that are numbered from `i` on. -/
def walkFrom (i : Nat) : List Tree → Walk → Walk
  | [], w => w
  | c :: cs, w =>
    let below := walk c { w with current := w.current ++ [i] }
    walkFrom (i + 1) cs { below with current := below.current.dropLast }

end

mutual

/-- **A walk meets the nodes by their paths from where it began, and comes back there.** -/
theorem walk_eq :
    ∀ (t : Tree) (w : Walk),
      t.walk w = ⟨w.current, w.met ++ t.nodePaths.map (w.current ++ ·)⟩
  | .terminal _, w => by rw [walk, nodePaths, List.map_nil, List.append_nil]
  | .node _ cs, w => by
    rw [walk, walkFrom_eq 0 cs, nodePaths, List.map_cons, List.append_nil, List.append_assoc]
    rfl

theorem walkFrom_eq :
    ∀ (i : Nat) (cs : List Tree) (w : Walk),
      walkFrom i cs w = ⟨w.current, w.met ++ (nodePathsFrom i cs).map (w.current ++ ·)⟩
  | _, [], w => by rw [walkFrom, nodePathsFrom, List.map_nil, List.append_nil]
  | i, c :: cs, w => by
    have back : (w.current ++ [i]).dropLast = w.current := List.dropLast_concat
    rw [walkFrom, walk_eq c, walkFrom_eq (i + 1) cs, nodePathsFrom, List.map_append, List.map_map]
    simp only [back, List.append_assoc]
    rfl

end

/-- **The paths of the nodes are listed exactly.**  In every tree: no path is listed twice, and
those are listed that lead to a node, and no terminal's.  They increase lexicographically, and all
that is above a listed path is listed before it.  The nodes with a symbol are what is read at the
listed paths of such nodes, in that order.  The size is the number of these paths and of the places
of terminals together.  And a walk that carries one path down and up the tree notes just these
paths, in this order, and ends where it began. -/
theorem nodePaths_exact (t : Tree) :
    t.nodePaths.Nodup ∧
    (∀ p, p ∈ t.nodePaths ↔ ∃ s cs, t.get? p = some (.node s cs)) ∧
    t.nodePaths.Pairwise (List.Lex (· < ·)) ∧
    (∀ before q after, t.nodePaths = before ++ q :: after →
      ∀ p, p <+: q → p ≠ q → p ∈ before) ∧
    (∀ symbol, (t.findAll symbol).map some =
      (t.nodePaths.filter fun p => (t.get? p).map Tree.symbol = some symbol).map t.get?) ∧
    (∃ leaves : List Path, leaves.Nodup ∧
      (∀ p, p ∈ leaves ↔ ∃ text, t.get? p = some (.terminal text)) ∧
      t.size = t.nodePaths.length + leaves.length) ∧
    t.walk ⟨[], []⟩ = ⟨[], t.nodePaths⟩ := by
  refine ⟨?_, fun p => mem_nodePaths, ?_,
    fun before q after split p => mem_before_of_above split, t.map_some_findAll,
    t.exists_terminalPaths, ?_⟩
  · rw [nodePaths_eq]
    exact nodup_pathsOf isNode t
  · rw [nodePaths_eq]
    exact pairwise_pathsOf isNode t
  · rw [walk_eq, List.nil_append]
    simp only [List.nil_append, List.map_id']

/-- A node without children is listed, and a terminal is not. -/
example :
    (Tree.node "word" [.terminal "a", .node "letter" [.terminal "b"], .node "end" []]).nodePaths =
      [[], [1], [2]] := rfl

end Tree

end PreconditionMining
