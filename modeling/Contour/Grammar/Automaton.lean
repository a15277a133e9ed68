import Contour.Grammar.Basic

/-!
# The automaton of a grammar

A state of the automaton is a set of items, productions with a mark up to which they have been seen.
`Automaton.build` collects the states that can be reached from the start. A state with a completed
item reduces by it; where several are complete, the terminals that may follow tell them apart.
-/

namespace Contour.Grammar

/-- A production number and how many of its symbols have been seen. -/
abbrev Item := Nat × Nat

/-- What the automaton does in one state. -/
structure State where
  /-- Where each symbol leads. -/
  moves : Std.HashMap String Nat
  /-- Whether some terminal leads on, so that the next one has to be read. -/
  readsAhead : Bool
  /-- The productions that are complete, each with the terminals that may follow it. -/
  reductions : List (Nat × Std.HashSet String)

/-- The states, by number; the first is the start. -/
structure Automaton where
  grammar : Grammar
  states : Array State

namespace Automaton

variable (g : Grammar)

/-- The symbol after the mark of an item. -/
def next? (i : Item) : Option String := (g.production i.1).rhs[i.2]?

/-- Items together with the unseen productions of every nonterminal after a mark. The list `todo`
holds the items whose successors have not been looked at. -/
def closure : (fuel : Nat) → (seen : Std.HashSet String) → (todo : List Item) → (done : List Item) →
    List Item
  | 0, _, todo, done => done.reverse ++ todo
  | _, _, [], done => done.reverse
  | fuel + 1, seen, i :: todo, done =>
    match next? g i with
    | some s =>
      if seen.contains s then closure fuel seen todo (i :: done)
      else
        let new := (g.expansions s).map fun n => (n, 0)
        closure fuel (seen.insert s) (new ++ todo) (i :: done)
    | none => closure fuel seen todo (i :: done)

/-- Groups items by the symbol after the mark, and moves the mark over it. -/
def successors (items : List Item) : List (String × List Item) :=
  let add (groups : List (String × List Item)) (i : Item) : List (String × List Item) :=
    match next? g i with
    | none => groups
    | some s =>
      let moved := (i.1, i.2 + 1)
      if groups.any (·.1 == s) then
        groups.map fun (t, is) => if t == s then (t, moved :: is) else (t, is)
      else (s, [moved]) :: groups
  (items.foldl add []).map fun (s, is) =>
    (s, is.mergeSort fun a b => a.1 < b.1 || (a.1 == b.1 && a.2 ≤ b.2))

/-- The states found so far, with the item sets that are their names. -/
structure Work where
  states : Array State
  names : Array (List Item)
  numbers : Std.HashMap (List Item) Nat

/-- The number of the state named by an item set, which is new if it has none. -/
def Work.number (w : Work) (items : List Item) : Nat × Work :=
  match w.numbers[items]? with
  | some n => (n, w)
  | none =>
    let n := w.names.size
    (n, { w with names := w.names.push items, numbers := w.numbers.insert items n })

/-- Adds the state named by `kernel`. -/
def Work.addState (follow : Grammar.Sets) (w : Work) (kernel : List Item) : Work :=
  let items := closure g 10000 {} kernel []
  let groups := successors g items
  let (moves, w) := groups.foldl
    (fun ((moves, w) : Std.HashMap String Nat × Work) (s, items) =>
      let (n, w) := w.number items
      (moves.insert s n, w))
    ({}, w)
  let complete := items.filterMap fun i =>
    if (next? g i).isNone then
      some (i.1, follow.of (g.production i.1).lhs)
    else none
  let readsAhead := groups.any fun (s, _) => !g.isNonterminal s
  { w with states := w.states.push ⟨moves, readsAhead, complete⟩ }

/-- Adds the states that have a name but no content yet. -/
def Work.finish (follow : Grammar.Sets) : (fuel : Nat) → Work → Work
  | 0, w => w
  | fuel + 1, w =>
    match w.names[w.states.size]? with
    | none => w
    | some kernel => Work.finish follow fuel (w.addState g follow kernel)

/-- The automaton of a grammar. -/
def build (g : Grammar) : Automaton :=
  let start : List Item := [(0, 0)]
  let work : Work := ⟨#[], #[start], ({} : Std.HashMap (List Item) Nat).insert start 0⟩
  ⟨g, (Work.finish g g.follow 10000 work).states⟩

/-- The production to reduce by before the terminal `t`: the only complete one, or else the one that
`t` may follow. -/
def State.reduction? (s : State) (t : String) : Option Nat :=
  match s.reductions with
  | [] => none
  | [(n, _)] => some n
  | several => ((several.find? fun r => r.2.contains t).orElse fun _ => several.getLast?).map (·.1)

end Automaton

end Contour.Grammar
