import Contour.Outline
import Mathlib.Data.List.Basic

/-!
# String literals and comments on a line

A line is read from left to right as string literals and other characters, up to its end, to a
comment, or to a literal that is not closed (`Reads`). A literal opens with a quote, or, if
`tripled` says so, also with three of them in a row, and it ends at the next such delimiter that no
backslash protects. In either way every line is read, and in one way only (`exists_reads`,
`Reads.unique`).

`withoutComment?` reads by the rule without triple quotes (`withoutComment?_of_reads`), which takes
three quotes for an empty literal and the start of another one. What that means for the rule with
them is said by `withoutComment?_eq_cut_iff`: a line, and each beginning of it that ends between two
of its parts, is cut where it should be exactly if every literal in triple quotes can also be read
as closed literals in single quotes with other characters between them.
-/

namespace Contour.Outline

/-! ## Reading a line -/

/-- The quotes of string literals. -/
def isQuote (c : Char) : Bool := c == apostrophe || c == '"'

/-- How a literal opens at the start of a text: its delimiter, and what follows that. -/
def opening? (tripled : Bool) : List Char → Option (List Char × List Char)
  | [] => none
  | c :: rest =>
    if isQuote c then
      if tripled && [c, c].isPrefixOf rest then some ([c, c, c], rest.drop 2) else some ([c], rest)
    else none

/-- What a literal holds, and what follows its closing delimiter, which is the next one that no
backslash protects; `escaped` says that a backslash stands just before. -/
def close? (delimiter : List Char) : (escaped : Bool) → List Char → Option (List Char × List Char)
  | _, [] => none
  | true, c :: rest => (close? delimiter false rest).map (Prod.map (c :: ·) id)
  | false, c :: rest =>
    if delimiter.isPrefixOf (c :: rest) then some ([], (c :: rest).drop delimiter.length)
    else (close? delimiter (c == '\\') rest).map (Prod.map (c :: ·) id)

/-- A part of a line: a closed literal, or a character outside all literals. -/
inductive Token where
  | other (c : Char)
  | literal (delimiter body : List Char)
deriving DecidableEq, Repr

def Token.text : Token → List Char
  | other c => [c]
  | literal delimiter body => delimiter ++ (body ++ delimiter)

/-- The text of parts that follow each other. -/
def textOf (ts : List Token) : List Char := ts.flatMap Token.text

/-- How the parts of a line end: with the line, with a comment, or with a literal that is not
closed. -/
inductive Ending where
  | finish
  | comment (remark : List Char)
  | unclosed (text : List Char)
deriving DecidableEq, Repr

def Ending.text : Ending → List Char
  | finish => []
  | comment remark => '#' :: remark
  | unclosed text => text

/-- A line is made of parts and an ending. -/
inductive Reads (tripled : Bool) : List Char → List Token → Ending → Prop where
  | finish : Reads tripled [] [] .finish
  | comment {t : List Char} : Reads tripled ('#' :: t) [] (.comment t)
  | other {c : Char} {rest : List Char} {ts : List Token} {e : Ending} (hquote : isQuote c = false)
      (hhash : c ≠ '#') (h : Reads tripled rest ts e) :
      Reads tripled (c :: rest) (.other c :: ts) e
  | literal {line d rest body after : List Char} {ts : List Token} {e : Ending}
      (hopen : opening? tripled line = some (d, rest))
      (hclose : close? d false rest = some (body, after))
      (h : Reads tripled after ts e) : Reads tripled line (.literal d body :: ts) e
  | unclosed {line d rest : List Char} (hopen : opening? tripled line = some (d, rest))
      (hclose : close? d false rest = none) : Reads tripled line [] (.unclosed line)

/-- What is left of a line without its comment. There is nothing if a literal is not closed. -/
def cut (ts : List Token) : Ending → Option (List Char)
  | .finish => some (textOf ts)
  | .comment _ => some (textOf ts)
  | .unclosed _ => none

/-! ## Delimiters -/

theorem opening?_of_not_isQuote {c : Char} (h : isQuote c = false) (tripled : Bool)
    (rest : List Char) : opening? tripled (c :: rest) = none := by
  rw [opening?, h]
  rfl

/-- A literal opens with a quote, or with three of them. -/
theorem opening?_cases {tripled : Bool} {line d rest : List Char}
    (h : opening? tripled line = some (d, rest)) :
    ∃ q, isQuote q = true ∧ line = d ++ rest ∧ (d = [q] ∨ tripled = true ∧ d = [q, q, q]) := by
  cases line with
  | nil => cases h
  | cons c line =>
    rw [opening?] at h
    by_cases hquote : isQuote c = true
    · rw [if_pos hquote] at h
      split at h
      · rename_i htriple
        rw [Bool.and_eq_true, List.isPrefixOf_iff_prefix] at htriple
        obtain ⟨htripled, more, rfl⟩ := htriple
        cases h
        exact ⟨c, hquote, rfl, .inr ⟨htripled, rfl⟩⟩
      · cases h
        exact ⟨c, hquote, rfl, .inl rfl⟩
    · rw [if_neg hquote] at h
      cases h

theorem opening?_false {c : Char} (h : isQuote c = true) (rest : List Char) :
    opening? false (c :: rest) = some ([c], rest) := by
  rw [opening?, if_pos h, Bool.false_and]
  rfl

/-- A literal is what it holds and a delimiter. -/
theorem eq_append_of_close? {d s body after : List Char} {escaped : Bool}
    (h : close? d escaped s = some (body, after)) : s = body ++ (d ++ after) := by
  fun_induction close? d escaped s generalizing body after with
  | case1 => cases h
  | case2 c rest ih =>
    obtain ⟨⟨body', after'⟩, hclose, ⟨⟩⟩ := Option.map_eq_some_iff.mp h
    rw [ih hclose]
    rfl
  | case3 c rest hprefix =>
    obtain ⟨more, hmore⟩ := List.isPrefixOf_iff_prefix.mp hprefix
    rw [← hmore, List.drop_left] at h
    cases h
    rw [hmore, List.nil_append]
  | case4 c rest hprefix ih =>
    obtain ⟨⟨body', after'⟩, hclose, ⟨⟩⟩ := Option.map_eq_some_iff.mp h
    rw [ih hclose]
    rfl

theorem isPrefixOf_singleton {q c : Char} {rest : List Char} :
    [q].isPrefixOf (c :: rest) = true ↔ c = q := by
  rw [List.isPrefixOf, List.isPrefixOf_nil_left, Bool.and_true, beq_iff_eq, eq_comm]

/-- Where a literal in single quotes ends does not depend on what follows it. -/
theorem close?_of_close? {q : Char} {s body after : List Char} {escaped : Bool}
    (h : close? [q] escaped s = some (body, after)) (t : List Char) :
    close? [q] escaped (body ++ q :: t) = some (body, t) := by
  fun_induction close? [q] escaped s generalizing body after with
  | case1 => cases h
  | case2 c rest ih =>
    obtain ⟨⟨body', after'⟩, hclose, ⟨⟩⟩ := Option.map_eq_some_iff.mp h
    simp [close?, ih hclose]
  | case3 c rest hprefix =>
    cases h
    simp [close?]
  | case4 c rest hprefix ih =>
    obtain ⟨⟨body', after'⟩, hclose, ⟨⟩⟩ := Option.map_eq_some_iff.mp h
    rw [isPrefixOf_singleton] at hprefix
    simp [close?, ih hclose, Ne.symm hprefix]

theorem close?_eq_none_of_not_mem {q : Char} {s : List Char} (h : q ∉ s) (escaped : Bool) :
    close? [q] escaped s = none := by
  fun_induction close? [q] escaped s with
  | case1 => rfl
  | case2 c rest ih => rw [ih (List.not_mem_of_not_mem_cons h), Option.map_none]
  | case3 c rest hprefix =>
    rw [isPrefixOf_singleton.mp hprefix] at h
    exact absurd List.mem_cons_self h
  | case4 c rest _ ih => rw [ih (List.not_mem_of_not_mem_cons h), Option.map_none]

/-- Only a quote of its own kind closes a literal in single quotes. -/
theorem close?_append_eq_none {q : Char} {s t : List Char} {escaped : Bool} (ht : q ∉ t)
    (h : close? [q] escaped s = none) : close? [q] escaped (s ++ t) = none := by
  fun_induction close? [q] escaped s with
  | case1 => exact close?_eq_none_of_not_mem ht _
  | case2 c rest ih =>
    rw [List.cons_append, close?, ih (Option.map_eq_none_iff.mp h), Option.map_none]
  | case3 c rest hprefix => cases h
  | case4 c rest hprefix ih =>
    rw [isPrefixOf_singleton] at hprefix
    rw [List.cons_append, close?, if_neg (mt isPrefixOf_singleton.mp hprefix),
      ih (Option.map_eq_none_iff.mp h), Option.map_none]

/-! ## Every line is read in one way -/

/-- Parts and ending make up the line. -/
theorem Reads.eq_append {tripled : Bool} {line : List Char} {ts : List Token} {e : Ending}
    (h : Reads tripled line ts e) : line = textOf ts ++ e.text := by
  induction h with
  | finish => rfl
  | comment => rfl
  | other _ _ _ ih =>
    rw [ih]
    rfl
  | literal hopen hclose _ ih =>
    obtain ⟨q, -, hline, -⟩ := opening?_cases hopen
    rw [hline, eq_append_of_close? hclose, ih]
    simp [textOf, Token.text]
  | unclosed => rfl

theorem exists_reads (tripled : Bool) (line : List Char) : ∃ ts e, Reads tripled line ts e := by
  induction hn : line.length using Nat.strongRecOn generalizing line with
  | ind n ih =>
    subst hn
    cases line with
    | nil => exact ⟨[], .finish, .finish⟩
    | cons c rest =>
      by_cases hhash : c = '#'
      · subst hhash
        exact ⟨[], _, .comment⟩
      · cases hopen : opening? tripled (c :: rest) with
        | none =>
          have hquote : isQuote c = false := by
            refine Bool.eq_false_iff.mpr fun hquote => ?_
            rw [opening?, if_pos hquote] at hopen
            split at hopen <;> cases hopen
          obtain ⟨ts, e, h⟩ := ih rest.length (by simp) rest rfl
          exact ⟨_, e, .other hquote hhash h⟩
        | some found =>
          obtain ⟨d, rest'⟩ := found
          cases hclose : close? d false rest' with
          | none => exact ⟨[], _, .unclosed hopen hclose⟩
          | some closed =>
            obtain ⟨body, after⟩ := closed
            have hshorter : after.length < (c :: rest).length := by
              obtain ⟨q, -, hline, hd⟩ := opening?_cases hopen
              rw [hline, eq_append_of_close? hclose]
              rcases hd with rfl | ⟨-, rfl⟩ <;> simp <;> omega
            obtain ⟨ts, e, h⟩ := ih _ hshorter after rfl
            exact ⟨_, e, .literal hopen hclose h⟩

theorem not_opening?_hash {tripled : Bool} {t d rest : List Char} :
    opening? tripled ('#' :: t) ≠ some (d, rest) := by
  rw [opening?_of_not_isQuote (by decide)]
  simp

/-- A line that starts with a literal. -/
theorem Reads.of_opening {tripled : Bool} {line d rest : List Char} {ts : List Token} {e : Ending}
    (hopen : opening? tripled line = some (d, rest)) (h : Reads tripled line ts e) :
    (∃ body after ts', close? d false rest = some (body, after) ∧ ts = .literal d body :: ts' ∧
      Reads tripled after ts' e) ∨
      (close? d false rest = none ∧ ts = [] ∧ e = .unclosed line) := by
  cases h with
  | finish => cases hopen
  | comment => exact absurd hopen not_opening?_hash
  | other hquote => simp [opening?_of_not_isQuote hquote] at hopen
  | literal hopen' hclose h =>
    rw [hopen] at hopen'
    cases hopen'
    exact .inl ⟨_, _, _, hclose, rfl, h⟩
  | unclosed hopen' hclose =>
    rw [hopen] at hopen'
    cases hopen'
    exact .inr ⟨hclose, rfl, rfl⟩

theorem Reads.unique {tripled : Bool} {line : List Char} {ts ts' : List Token} {e e' : Ending}
    (h : Reads tripled line ts e) (h' : Reads tripled line ts' e') : ts' = ts ∧ e' = e := by
  induction h generalizing ts' e' with
  | finish =>
    cases h' with
    | finish => exact ⟨rfl, rfl⟩
    | literal hopen => cases hopen
    | unclosed hopen => cases hopen
  | comment =>
    cases h' with
    | comment => exact ⟨rfl, rfl⟩
    | other _ hhash => exact absurd rfl hhash
    | literal hopen => exact absurd hopen not_opening?_hash
    | unclosed hopen => exact absurd hopen not_opening?_hash
  | other hquote hhash _ ih =>
    cases h' with
    | comment => exact absurd rfl hhash
    | other _ _ h' =>
      obtain ⟨rfl, rfl⟩ := ih h'
      exact ⟨rfl, rfl⟩
    | literal hopen => simp [opening?_of_not_isQuote hquote] at hopen
    | unclosed hopen => simp [opening?_of_not_isQuote hquote] at hopen
  | literal hopen hclose _ ih =>
    obtain ⟨body, after, ts'', hclose', rfl, h'⟩ | ⟨hclose', -⟩ := h'.of_opening hopen
    · rw [hclose] at hclose'
      cases hclose'
      obtain ⟨rfl, rfl⟩ := ih h'
      exact ⟨rfl, rfl⟩
    · simp [hclose] at hclose'
  | unclosed hopen hclose =>
    obtain ⟨body, after, ts'', hclose', -⟩ | ⟨-, rfl, rfl⟩ := h'.of_opening hopen
    · simp [hclose] at hclose'
    · exact ⟨rfl, rfl⟩

/-! ## Without triple quotes -/

/-- Inside a literal in single quotes there is no comment. -/
theorem beforeComment_of_quote {q : Char} (hq : q ≠ '\\') (escaped : Bool) (s : List Char) :
    beforeComment (some q) escaped s =
      (close? [q] escaped s).bind fun found =>
        (withoutComment? found.2).map fun code => found.1 ++ q :: code := by
  have hpush (c : Char) (found : Option (List Char × List Char)) :
      (found.map (Prod.map (c :: ·) id)).bind (fun found =>
        (withoutComment? found.2).map fun code => found.1 ++ q :: code) =
      (found.bind fun found =>
        (withoutComment? found.2).map fun code => found.1 ++ q :: code).map (c :: ·) := by
    cases found <;> simp [Option.map_map, Function.comp_def]
  fun_induction close? [q] escaped s with
  | case1 => simp [beforeComment]
  | case2 c rest ih => rw [beforeComment, ih, hpush]
  | case3 c rest hprefix =>
    obtain rfl := isPrefixOf_singleton.mp hprefix
    rw [beforeComment, if_neg hq, if_pos rfl]
    rfl
  | case4 c rest hprefix ih =>
    have hc : c ≠ q := mt isPrefixOf_singleton.mpr hprefix
    rw [hpush, ← ih, beforeComment]
    by_cases hbackslash : c = '\\'
    · rw [if_pos hbackslash, hbackslash]
      rfl
    · rw [if_neg hbackslash, if_neg hc, beq_false_of_ne hbackslash]

theorem withoutComment?_of_isQuote {q : Char} (hq : isQuote q = true) (rest : List Char) :
    withoutComment? (q :: rest) = (beforeComment (some q) false rest).map (q :: ·) := by
  have hquote : q = apostrophe ∨ q = '"' := by simpa [isQuote] using hq
  have hhash : q ≠ '#' := by
    rintro rfl
    exact absurd hq (by decide)
  rw [withoutComment?, beforeComment, if_neg hhash, if_pos hquote]

theorem withoutComment?_of_other {c : Char} (hquote : isQuote c = false) (hhash : c ≠ '#')
    (rest : List Char) : withoutComment? (c :: rest) = (withoutComment? rest).map (c :: ·) := by
  have hc : ¬ (c = apostrophe ∨ c = '"') := by simpa [isQuote] using hquote
  rw [withoutComment?, beforeComment, if_neg hhash, if_neg hc, withoutComment?]

theorem ne_backslash_of_isQuote {q : Char} (hq : isQuote q = true) : q ≠ '\\' := by
  rintro rfl
  exact absurd hq (by decide)

/-- The comment of a line is found by the rule that knows no triple quotes. -/
theorem withoutComment?_of_reads {line : List Char} {ts : List Token} {e : Ending}
    (h : Reads false line ts e) : withoutComment? line = cut ts e := by
  have hpush (t : Token) (ts : List Token) (e : Ending) :
      (cut ts e).map (t.text ++ ·) = cut (t :: ts) e := by
    cases e <;> rfl
  induction h with
  | finish => rfl
  | comment => rfl
  | other hquote hhash _ ih =>
    rw [← hpush, ← ih, withoutComment?_of_other hquote hhash]
    rfl
  | @literal line d rest body after ts e hopen hclose _ ih =>
    obtain ⟨q, hq, rfl, rfl | ⟨htripled, -⟩⟩ := opening?_cases hopen
    · rw [List.singleton_append, withoutComment?_of_isQuote hq,
        beforeComment_of_quote (ne_backslash_of_isQuote hq), hclose, Option.bind_some, ih, ← hpush,
        Option.map_map]
      congr 1
      funext code
      simp [Token.text]
    · cases htripled
  | unclosed hopen hclose =>
    obtain ⟨q, hq, rfl, rfl | ⟨htripled, -⟩⟩ := opening?_cases hopen
    · rw [List.singleton_append, withoutComment?_of_isQuote hq,
        beforeComment_of_quote (ne_backslash_of_isQuote hq), hclose]
      rfl
    · cases htripled

theorem withoutComment?_eq_none_iff {s : List Char} :
    withoutComment? s = none ↔ ∃ ts u, Reads false s ts (.unclosed u) := by
  constructor
  · intro h
    obtain ⟨ts, e, hreads⟩ := exists_reads false s
    rw [withoutComment?_of_reads hreads] at h
    cases e with
    | finish => cases h
    | comment => cases h
    | unclosed u => exact ⟨ts, u, hreads⟩
  · rintro ⟨ts, u, h⟩
    exact withoutComment?_of_reads h

/-! ## With triple quotes -/

/-- A text that the rule without triple quotes reads as closed literals and other characters. -/
def IsPlain (s : List Char) : Prop := ∃ ts, Reads false s ts .finish

theorem isPlain_iff {s : List Char} : IsPlain s ↔ withoutComment? s = some s := by
  constructor
  · rintro ⟨ts, h⟩
    rw [withoutComment?_of_reads h, cut, ← List.append_nil (textOf ts)]
    exact congrArg some h.eq_append.symm
  · intro h
    obtain ⟨ts, e, hreads⟩ := exists_reads false s
    rw [withoutComment?_of_reads hreads] at h
    have hline := hreads.eq_append
    cases e with
    | finish => exact ⟨ts, hreads⟩
    | comment remark =>
      rw [← Option.some.inj h] at hline
      cases List.self_eq_append_right.mp hline
    | unclosed => cases h

/-- Behind a plain text a line is read as if it started there. -/
theorem IsPlain.withoutComment?_append {s : List Char} (h : IsPlain s) (t : List Char) :
    withoutComment? (s ++ t) = (withoutComment? t).map (s ++ ·) := by
  obtain ⟨ts, h⟩ := h
  generalize hfinish : Ending.finish = e at h
  induction h with
  | finish => simp
  | comment => cases hfinish
  | @other c rest _ _ hquote hhash _ ih =>
    rw [List.cons_append, withoutComment?_of_other hquote hhash, ih hfinish, Option.map_map]
    rfl
  | @literal line d rest body after _ _ hopen hclose _ ih =>
    obtain ⟨q, hq, rfl, rfl | ⟨htripled, -⟩⟩ := opening?_cases hopen
    · have hline : [q] ++ rest ++ t = q :: (body ++ q :: (after ++ t)) := by
        rw [eq_append_of_close? hclose]
        simp
      rw [hline, withoutComment?_of_isQuote hq, beforeComment_of_quote (ne_backslash_of_isQuote hq),
        close?_of_close? hclose, Option.bind_some, ih hfinish, Option.map_map, Option.map_map,
        eq_append_of_close? hclose]
      congr 1
      funext code
      simp
    · cases htripled
  | unclosed => cases hfinish

/-- Plain parts are passed over. -/
theorem withoutComment?_textOf_append {ts : List Token} (h : ∀ t ∈ ts, IsPlain t.text)
    (r : List Char) :
    withoutComment? (textOf ts ++ r) = (withoutComment? r).map (textOf ts ++ ·) := by
  induction ts with
  | nil => simp [textOf]
  | cons t ts ih =>
    rw [List.forall_mem_cons] at h
    have htext : textOf (t :: ts) = t.text ++ textOf ts := rfl
    rw [htext, List.append_assoc, h.1.withoutComment?_append, ih h.2, Option.map_map]
    simp [Function.comp_def, List.append_assoc]

theorem isPlain_textOf {ts : List Token} (h : ∀ t ∈ ts, IsPlain t.text) : IsPlain (textOf ts) := by
  have hnil := withoutComment?_textOf_append h []
  rw [List.append_nil] at hnil
  exact isPlain_iff.mpr (hnil.trans (congrArg some (List.append_nil _)))

/-- A character outside all literals is plain, and so is a literal in single quotes. -/
theorem Reads.isPlain {tripled : Bool} {line : List Char} {ts : List Token} {e : Ending}
    (h : Reads tripled line ts e) {t : Token} (ht : t ∈ ts)
    (hsingle : tripled = true → ∀ q body, t ≠ .literal [q, q, q] body) : IsPlain t.text := by
  induction h with
  | finish => cases ht
  | comment => cases ht
  | @other c _ _ _ hquote hhash _ ih =>
    rcases List.mem_cons.mp ht with rfl | ht
    · exact ⟨[.other c], .other hquote hhash .finish⟩
    · exact ih ht
  | @literal _ d _ body _ _ _ hopen hclose _ ih =>
    rcases List.mem_cons.mp ht with rfl | ht
    · obtain ⟨q, hq, -, rfl | ⟨htripled, rfl⟩⟩ := opening?_cases hopen
      · exact ⟨[.literal [q] body], .literal (opening?_false hq _) (close?_of_close? hclose [])
          .finish⟩
      · exact absurd rfl (hsingle htripled q body)
    · exact ih ht
  | unclosed => cases ht

/-- What is kept of a line is plain, and a comment follows it if anything does. -/
theorem withoutComment?_eq_some_iff {line code : List Char} :
    withoutComment? line = some code ↔
      IsPlain code ∧ (line = code ∨ ∃ remark, line = code ++ '#' :: remark) := by
  constructor
  · intro h
    obtain ⟨ts, e, hreads⟩ := exists_reads false line
    have hplain : IsPlain (textOf ts) := isPlain_textOf fun t ht => hreads.isPlain ht nofun
    have hline := hreads.eq_append
    rw [withoutComment?_of_reads hreads] at h
    cases e with
    | finish =>
      cases h
      exact ⟨hplain, .inl (by rw [hline, Ending.text, List.append_nil])⟩
    | comment remark =>
      cases h
      exact ⟨hplain, .inr ⟨remark, hline⟩⟩
    | unclosed => cases h
  · rintro ⟨hplain, rfl | ⟨remark, rfl⟩⟩
    · exact isPlain_iff.mp hplain
    · rw [hplain.withoutComment?_append]
      exact congrArg some (List.append_nil code)

/-- What a line ends in, if a literal is not closed. -/
theorem Reads.of_unclosed {tripled : Bool} {line u : List Char} {ts : List Token}
    (h : Reads tripled line ts (.unclosed u)) :
    ∃ d rest, opening? tripled u = some (d, rest) ∧ close? d false rest = none := by
  generalize hu : Ending.unclosed u = e at h
  induction h with
  | finish => cases hu
  | comment => cases hu
  | other _ _ _ ih => exact ih hu
  | literal _ _ _ ih => exact ih hu
  | unclosed hopen hclose =>
    cases hu
    exact ⟨_, _, hopen, hclose⟩

/-- The rule without triple quotes takes each part of a line for closed literals and other
characters, and a literal that is not closed for one that is not. -/
structure Regular (ts : List Token) (e : Ending) : Prop where
  parts : ∀ t ∈ ts, IsPlain t.text
  ending : ∀ u, e = .unclosed u → ∃ us v, Reads false u us (.unclosed v)

theorem Reads.withoutComment?_eq {tripled : Bool} {line : List Char} {ts : List Token} {e : Ending}
    (h : Reads tripled line ts e) (hparts : ∀ t ∈ ts, IsPlain t.text) :
    withoutComment? line = (withoutComment? e.text).map (textOf ts ++ ·) := by
  rw [h.eq_append, withoutComment?_textOf_append hparts]

/-- A regular line is cut as it should be. -/
theorem Reads.cut_of_regular {tripled : Bool} {line : List Char} {ts : List Token} {e : Ending}
    (h : Reads tripled line ts e) (hregular : Regular ts e) : withoutComment? line = cut ts e := by
  rw [h.withoutComment?_eq hregular.parts]
  cases e with
  | finish => exact congrArg some (List.append_nil _)
  | comment remark => exact congrArg some (List.append_nil _)
  | unclosed u =>
    rw [Ending.text, withoutComment?_eq_none_iff.mpr (hregular.ending u rfl)]
    rfl

/-- If a line is cut as it should be, and all its beginnings are, then it is regular. -/
theorem Reads.regular_of_cut {tripled : Bool} {line : List Char} {ts : List Token} {e : Ending}
    (h : Reads tripled line ts e) (hline : withoutComment? line = cut ts e)
    (hstarts : ∀ k, IsPlain (textOf (ts.take k))) : Regular ts e := by
  have hparts : ∀ t ∈ ts, IsPlain t.text := by
    intro t ht
    obtain ⟨k, hk, rfl⟩ := List.mem_iff_getElem.mp ht
    have hnext := isPlain_iff.mp (hstarts (k + 1))
    have htext : textOf (ts.take (k + 1)) = textOf (ts.take k) ++ ts[k].text := by
      rw [textOf, List.take_add_one, List.getElem?_eq_getElem hk, List.flatMap_append,
        Option.toList_some, List.flatMap_singleton]
      rfl
    rw [htext, (hstarts k).withoutComment?_append] at hnext
    obtain ⟨code, hcode, heq⟩ := Option.map_eq_some_iff.mp hnext
    rw [List.append_cancel_left heq] at hcode
    exact isPlain_iff.mpr hcode
  refine ⟨hparts, ?_⟩
  rintro u rfl
  rw [h.withoutComment?_eq hparts] at hline
  exact withoutComment?_eq_none_iff.mp (Option.map_eq_none_iff.mp hline)

/-- A line without triple quotes is regular. -/
theorem Reads.regular_of_single {tripled : Bool} {line : List Char} {ts : List Token} {e : Ending}
    (h : Reads tripled line ts e) (hparts : ∀ q body, .literal [q, q, q] body ∉ ts)
    (hending : ∀ q rest, e ≠ .unclosed (q :: q :: q :: rest)) : Regular ts e := by
  refine ⟨fun t ht => h.isPlain ht fun _ q body heq => hparts q body (heq ▸ ht), ?_⟩
  rintro u rfl
  obtain ⟨d, rest, hopen, hclose⟩ := h.of_unclosed
  obtain ⟨q, hq, rfl, rfl | ⟨-, rfl⟩⟩ := opening?_cases hopen
  · exact ⟨[], _, .unclosed (opening?_false hq rest) hclose⟩
  · exact absurd rfl (hending q rest)

/-- Every line is read in one way by the rule with triple quotes. It is cut where that reading says,
and so is each beginning of it that ends between two parts, exactly if it is regular: every literal
in triple quotes can also be read as closed literals in single quotes with other characters, but no
comment, between them, and one that is not closed cannot be read as closed. A line without triple
quotes is regular, so that it keeps what stands before its comment, and is refused exactly if a
literal is not closed. Without exception a line is cut where the reading without triple quotes
says. -/
theorem withoutComment?_eq_cut_iff (line : List Char) :
    ∃ ts e, Reads true line ts e ∧ (∀ ts' e', Reads true line ts' e' → ts' = ts ∧ e' = e) ∧
      (Regular ts e ↔ withoutComment? line = cut ts e ∧
        ∀ k, withoutComment? (textOf (ts.take k)) = some (textOf (ts.take k))) ∧
      ((∀ q body, .literal [q, q, q] body ∉ ts) → (∀ q rest, e ≠ .unclosed (q :: q :: q :: rest)) →
        withoutComment? line = cut ts e) ∧
      ∀ us e', Reads false line us e' → withoutComment? line = cut us e' := by
  obtain ⟨ts, e, h⟩ := exists_reads true line
  refine ⟨ts, e, h, fun ts' e' => h.unique, ⟨fun hregular => ⟨h.cut_of_regular hregular, ?_⟩, ?_⟩,
    fun hparts hending => h.cut_of_regular (h.regular_of_single hparts hending),
    fun us e' => withoutComment?_of_reads⟩
  · intro k
    exact isPlain_iff.mp (isPlain_textOf fun t ht => hregular.parts t (List.mem_of_mem_take ht))
  · rintro ⟨hline, hstarts⟩
    exact h.regular_of_cut hline fun k => isPlain_iff.mpr (hstarts k)

/-- A quote of its own kind in a literal in triple quotes: one line is cut inside the literal, the
other is refused although its literal is closed. -/
theorem withoutComment?_eq_cut_iff_quote_inside :
    (∃ ts, Reads true "\"\"\"a\" # b\"\"\"".toList ts .finish ∧
      cut ts .finish = some "\"\"\"a\" # b\"\"\"".toList ∧ ¬ Regular ts .finish ∧
      withoutComment? "\"\"\"a\" # b\"\"\"".toList = some "\"\"\"a\" ".toList) ∧
    (∃ ts, Reads true "'''it's'''".toList ts .finish ∧
      cut ts .finish = some "'''it's'''".toList ∧ ¬ Regular ts .finish ∧
      withoutComment? "'''it's'''".toList = none) := by
  constructor
  · obtain ⟨ts, e, -, hunique, hiff, -⟩ :=
      withoutComment?_eq_cut_iff "\"\"\"a\" # b\"\"\"".toList
    have hreads : Reads true "\"\"\"a\" # b\"\"\"".toList
        [.literal ['"', '"', '"'] "a\" # b".toList] .finish :=
      .literal rfl rfl .finish
    obtain ⟨rfl, rfl⟩ := hunique _ _ hreads
    exact ⟨_, hreads, by decide, fun h => absurd (hiff.mp h).1 (by decide), by decide⟩
  · obtain ⟨ts, e, -, hunique, hiff, -⟩ := withoutComment?_eq_cut_iff "'''it's'''".toList
    have hreads : Reads true "'''it's'''".toList
        [.literal [apostrophe, apostrophe, apostrophe] "it's".toList] .finish :=
      .literal rfl rfl .finish
    obtain ⟨rfl, rfl⟩ := hunique _ _ hreads
    exact ⟨_, hreads, by decide, fun h => absurd (hiff.mp h).1 (by decide), by decide⟩

end Contour.Outline
