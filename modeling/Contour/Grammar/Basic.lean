import Std.Data.HashMap
import Std.Data.HashSet

/-!
# Context-free grammars

A grammar is an array of productions over named symbols; the first production belongs to the start
symbol. `Grammar.follow` gives the terminals that may stand after a nonterminal.
-/

namespace Contour

/-- A rule that writes one symbol as a sequence of symbols. -/
structure Grammar.Production where
  lhs : String
  rhs : List String
deriving DecidableEq, Repr, Inhabited

/-- Productions grouped for quick access. -/
structure Grammar where
  productions : Array Grammar.Production
  /-- The numbers of the productions of each nonterminal. -/
  byLhs : Std.HashMap String (List Nat)

namespace Grammar

/-- The grammar with the given productions. -/
def ofList (ps : List Production) : Grammar where
  productions := ps.toArray
  byLhs := (ps.zipIdx.reverse).foldl
    (fun table (p, n) => table.insert p.lhs (n :: (table.getD p.lhs []))) {}

variable (g : Grammar)

/-- The production with a number. -/
def production (n : Nat) : Production := g.productions.getD n ⟨"", []⟩

/-- The numbers of the productions of a symbol; a terminal has none. -/
def expansions (s : String) : List Nat := g.byLhs.getD s []

/-- Whether a symbol has productions. -/
def isNonterminal (s : String) : Bool := g.byLhs.contains s

/-- Symbols that derive the empty sequence, after `rounds` rounds of closing the set. -/
def nullable : (rounds : Nat) → Std.HashSet String
  | 0 => {}
  | rounds + 1 =>
    let known := nullable rounds
    g.productions.foldl
      (fun set p => if p.rhs.all known.contains then set.insert p.lhs else set) known

/-- A set of terminals for each symbol. -/
abbrev Sets := Std.HashMap String (Std.HashSet String)

/-- The set of a symbol. -/
def Sets.of (t : Sets) (s : String) : Std.HashSet String := t.getD s {}

/-- Adds terminals to the set of a symbol. -/
def Sets.add (t : Sets) (s : String) (extra : Std.HashSet String) : Sets :=
  t.insert s (extra.fold (·.insert ·) (t.of s))

/-- The terminals that a symbol sequence may start with. -/
def firstOf (empty : Std.HashSet String) (first : Sets) : List String → Std.HashSet String
  | [] => {}
  | s :: rest =>
    if g.isNonterminal s then
      if empty.contains s then (firstOf empty first rest).fold (·.insert ·) (first.of s)
      else first.of s
    else ({} : Std.HashSet String).insert s

/-- The terminals that each nonterminal may start with, after `rounds` rounds. -/
def first (empty : Std.HashSet String) : (rounds : Nat) → Sets
  | 0 => {}
  | rounds + 1 =>
    let known := first empty rounds
    g.productions.foldl (fun t p => t.add p.lhs (g.firstOf empty known p.rhs)) known

/-- Adds what the symbols of one right side say about what follows them. -/
def followIn (empty : Std.HashSet String) (first : Sets) (lhs : String) : List String → Sets → Sets
  | [], t => t
  | s :: rest, t =>
    let t := if g.isNonterminal s then
        let t := t.add s (g.firstOf empty first rest)
        if rest.all empty.contains then t.add s (t.of lhs) else t
      else t
    followIn empty first lhs rest t

/-- The terminals that may follow each nonterminal, after `rounds` rounds. -/
def followSets (empty : Std.HashSet String) (first : Sets) : (rounds : Nat) → Sets
  | 0 => {}
  | rounds + 1 =>
    g.productions.foldl (fun t p => g.followIn empty first p.lhs p.rhs t)
      (followSets empty first rounds)

/-- How many rounds are made; sets are closed once a chain of nonterminals has been followed to its
end, and no grammar here has a longer one. -/
def rounds : Nat := 40

/-- The terminals that may follow each nonterminal. -/
def follow : Sets :=
  let empty := g.nullable rounds
  g.followSets empty (g.first empty rounds) rounds

end Grammar

end Contour
