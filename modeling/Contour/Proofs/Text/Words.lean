import Contour.Proofs.Text.Blank

/-!
# Words of a text

The words of a text are its longest runs of characters that are no blanks. A blank parts the text:
the words on its two sides are found independently (`words_append_blank`), so that what stands
between blanks, or at an end of the text, is one word of the whole whatever it is made of
(`IsWord.words_append_append`). There are no other words (`getElem?_words_eq_some_iff`).
-/

namespace Contour.Text

/-- The longest runs of characters that are no blanks, in their order. -/
def words (s : List Char) : List (List Char) := (s.splitOnP isBlank).filter (! ·.isEmpty)

/-- Some characters, none of which is a blank. -/
def IsWord (w : List Char) : Prop := w ≠ [] ∧ ∀ c ∈ w, isBlank c = false

theorem words_nil : words [] = [] := by
  rw [words, List.splitOnP_nil]
  rfl

theorem words_append_blank {c : Char} (hc : isBlank c = true) (s t : List Char) :
    words (s ++ c :: t) = words s ++ words t := by
  rw [words, List.splitOnP_append_cons s t hc, List.filter_append, words, words]

theorem words_cons_blank {c : Char} (hc : isBlank c = true) (t : List Char) :
    words (c :: t) = words t := by
  have h := words_append_blank hc [] t
  rwa [List.nil_append, words_nil, List.nil_append] at h

/-- Blanks in front of a text belong to no word. -/
theorem words_blanks_append {lead : List Char} (h : ∀ c ∈ lead, isBlank c = true) (t : List Char) :
    words (lead ++ t) = words t := by
  induction lead with
  | nil => rfl
  | cons c lead ih =>
    rw [List.forall_mem_cons] at h
    rw [List.cons_append, words_cons_blank h.1, ih h.2]

theorem IsWord.words_eq {w : List Char} (h : IsWord w) : words w = [w] := by
  rw [words, List.splitOnP_eq_singleton h.2]
  simp [h.1]

/-- A word that ends at a blank or at the end of the text. -/
theorem IsWord.words_append {w t : List Char} (h : IsWord w)
    (ht : ∀ c ∈ t.head?, isBlank c = true) : words (w ++ t) = w :: words t := by
  cases t with
  | nil => rw [List.append_nil, h.words_eq, words_nil]
  | cons c t =>
    have hc : isBlank c = true := ht c rfl
    rw [words_append_blank hc, h.words_eq, words_cons_blank hc, List.singleton_append]

/-- A word with nothing or a blank on either side. -/
theorem IsWord.words_append_append {w s t : List Char} (h : IsWord w)
    (hs : ∀ c ∈ s.getLast?, isBlank c = true) (ht : ∀ c ∈ t.head?, isBlank c = true) :
    words (s ++ (w ++ t)) = words s ++ w :: words t := by
  cases hlast : s.getLast? with
  | none =>
    rw [List.getLast?_eq_none_iff.mp hlast, List.nil_append, h.words_append ht, words_nil,
      List.nil_append]
  | some c =>
    have hc : isBlank c = true := hs c hlast
    obtain ⟨front, rfl⟩ := List.getLast?_eq_some_iff.mp hlast
    rw [List.append_assoc, List.singleton_append, words_append_blank hc, words_append_blank hc,
      words_nil, List.append_nil, h.words_append ht]

/-- A text is blanks, and perhaps a word up to the next blank and the rest from there on. -/
theorem exists_words_eq (s : List Char) :
    (∀ c ∈ s, isBlank c = true) ∧ words s = [] ∨
      ∃ lead w t, s = lead ++ (w ++ t) ∧ (∀ c ∈ lead, isBlank c = true) ∧ IsWord w ∧
        (∀ c ∈ t.head?, isBlank c = true) ∧ words s = w :: words t := by
  have hlead : ∀ c ∈ s.takeWhile isBlank, isBlank c = true := fun c hc => List.mem_takeWhile_imp hc
  have hsplit := List.takeWhile_append_dropWhile (p := isBlank) (l := s)
  cases hstart : s.dropWhile isBlank with
  | nil =>
    have hblank := List.dropWhile_eq_nil_iff.mp hstart
    have hwords := words_blanks_append hblank []
    rw [List.append_nil, words_nil] at hwords
    exact .inl ⟨hblank, hwords⟩
  | cons c start =>
    have hc : isBlank c = false := not_isBlank_of_mem_head?_dropWhile (s := s) (by rw [hstart]; rfl)
    have hword : IsWord ((c :: start).takeWhile (! isBlank ·)) := by
      refine ⟨by rw [List.takeWhile_cons_of_pos (by simp [hc])]; simp, fun d hd => ?_⟩
      simpa using List.mem_takeWhile_imp hd
    have hrest : ∀ d ∈ ((c :: start).dropWhile (! isBlank ·)).head?, isBlank d = true := by
      intro d hd
      have hhead := List.head?_dropWhile_not (! isBlank ·) (c :: start)
      rw [Option.mem_def.mp hd] at hhead
      simpa using hhead
    refine .inr ⟨s.takeWhile isBlank, _, _, ?_, hlead, hword, hrest, ?_⟩
    · rw [List.takeWhile_append_dropWhile, ← hstart, hsplit]
    · have hwords := words_blanks_append hlead (s.dropWhile isBlank)
      rw [hsplit] at hwords
      rw [hwords, hstart, ← hword.words_append hrest, List.takeWhile_append_dropWhile]

/-- The words are the longest runs: a word with nothing or a blank on either side is the word whose
number is that of the words before it, and there are no others. -/
theorem getElem?_words_eq_some_iff {input w : List Char} {k : Nat} :
    (words input)[k]? = some w ↔ IsWord w ∧ ∃ s t, input = s ++ (w ++ t) ∧
      (∀ c ∈ s.getLast?, isBlank c = true) ∧ (∀ c ∈ t.head?, isBlank c = true) ∧
      (words s).length = k := by
  constructor
  · intro h
    induction k generalizing input with
    | zero =>
      rcases exists_words_eq input with ⟨-, hnone⟩ | ⟨lead, w', t, rfl, hlead, hw, ht, hwords⟩
      · simp [hnone] at h
      · rw [hwords] at h
        cases h
        have hfront := words_blanks_append hlead []
        rw [List.append_nil, words_nil] at hfront
        exact ⟨hw, lead, t, rfl, fun c hc => hlead c (List.mem_of_mem_getLast? hc), ht,
          by rw [hfront]; rfl⟩
    | succ k ih =>
      rcases exists_words_eq input with
        ⟨-, hnone⟩ | ⟨lead, w', rest, rfl, hlead, hw', hrest, hwords⟩
      · simp [hnone] at h
      · rw [hwords, List.getElem?_cons_succ] at h
        obtain ⟨hw, s, t, rfl, hs, ht, rfl⟩ := ih h
        -- What stands between the two words is not empty, since it starts with a blank.
        have hgap : s ≠ [] := by
          rintro rfl
          obtain ⟨d, w, rfl⟩ := List.exists_cons_of_ne_nil hw.1
          have hblank := hrest d rfl
          rw [hw.2 d List.mem_cons_self] at hblank
          cases hblank
        have hfront : words (lead ++ (w' ++ s)) = w' :: words s := by
          rw [words_blanks_append hlead, hw'.words_append fun c hc => hrest c ?_]
          rw [List.head?_append_of_ne_nil _ hgap]
          exact hc
        have hlast : (lead ++ (w' ++ s)).getLast? = s.getLast? := by
          rw [List.getLast?_append_of_ne_nil _ (by simp [hgap]),
            List.getLast?_append_of_ne_nil _ hgap]
        exact ⟨hw, lead ++ (w' ++ s), t, by simp, hlast ▸ hs, ht, by rw [hfront]; rfl⟩
  · rintro ⟨hw, s, t, rfl, hs, ht, rfl⟩
    rw [hw.words_append_append hs ht]
    simp

end Contour.Text
