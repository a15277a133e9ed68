import Contour.Proofs.Canonical

/-!
# Listings as assembly

A listing is made to be assembled again: all that is not an instruction is behind a comment marker.
Its lines are read back as the instructions of the stream (`ofLine?_listingBody`), and the line with
the counts as none.

The name is written into the title as it is. If there is a line feed in it, what follows stands on
lines of their own, without a marker (`continuation`), and these are read as well. Hence a listing
is assembly for its stream exactly if none of them holds an instruction (`listing_reads_back_iff`).
-/

namespace Contour.Stream

open Assembly (ofLine? ofLines ofLinesFrom parse)
open Text (pieces unifyLineEnds)

/-! ## The lines of a listing -/

/-- The comment behind an instruction: its position and its first delta. -/
def note (ds : List Delta) (i : Instruction) : List Char :=
  ';' :: ' ' :: (Decimal.zeroPadded 4 (Decimal.nat i.offset) ++
    ' ' :: ((ds[i.offset]?).getD ⟨0, 0⟩).text.toList)

/-- The line for an instruction, without its end. -/
def listingBody (ds : List Delta) (i : Instruction) : List Char :=
  i.text.toList ++ (List.replicate (16 - i.text.toList.length + 1) ' ' ++ note ds i)

/-- The line with the counts, without its end. -/
def summary (ds : List Delta) : String :=
  "; Fython assembly: " ++ Decimal.text ds.length ++ " deltas, " ++
    Decimal.text (decode ds).length ++ " instructions"

/-- The lines below the title. -/
def belowTitle (ds : List Delta) : List (List Char) :=
  (summary ds).toList :: [] :: (decode ds).map (listingBody ds)

theorem toList_listingLine (ds : List Delta) (i : Instruction) :
    (listingLine ds i).toList = listingBody ds i ++ ['\n'] := by
  simp [listingLine, listingBody, note, Decimal.spacePadded, List.replicate_succ']

theorem toList_listing (name : String) (ds : List Delta) :
    (listing name ds).toList =
      (if name = "" then [] else "; === ".toList ++ (name.toList ++ " ===".toList) ++ ['\n']) ++
        (belowTitle ds).flatMap (· ++ ['\n']) := by
  have htitle : (if name = "" then "" else "; === " ++ name ++ " ===\n").toList =
      if name = "" then [] else "; === ".toList ++ (name.toList ++ " ===".toList) ++ ['\n'] := by
    split <;> simp
  have hlines (is : List Instruction) : (String.join (is.map (listingLine ds))).toList =
      (is.map (listingBody ds)).flatMap (· ++ ['\n']) := by
    rw [String.toList_join, List.flatMap_map, List.flatMap_map]
    exact List.flatMap_congr fun i _ => toList_listingLine ds i
  have hend : " instructions\n\n".toList = " instructions".toList ++ ['\n', '\n'] := by decide
  unfold listing belowTitle summary
  -- the text is put together in the same way from any instructions
  generalize decode ds = is
  simp only [String.toList_append, htitle, hlines, hend, List.flatMap_cons, List.append_assoc,
    List.cons_append, List.nil_append]

theorem exists_summary_eq (ds : List Delta) : ∃ rest, (summary ds).toList = ';' :: rest := by
  unfold summary
  simp only [String.toList_append, List.append_assoc]
  exact ⟨_, rfl⟩

theorem head?_listing (name : String) (ds : List Delta) :
    (listing name ds).toList.head? = some ';' := by
  obtain ⟨rest, hsummary⟩ := exists_summary_eq ds
  rw [toList_listing, belowTitle, hsummary]
  split <;> rfl

/-- No number has control characters. -/
theorem le_toNat_of_mem_int {n : Int} {c : Char} (h : c ∈ Decimal.int n) : 32 ≤ c.toNat := by
  have := Assembly.toNat_of_mem_int h
  omega

theorem le_toNat_of_mem_summary {ds : List Delta} {c : Char} (h : c ∈ (summary ds).toList) :
    32 ≤ c.toNat := by
  have hnumber (n : Int) (hc : c ∈ (Decimal.text n).toList) : 32 ≤ c.toNat :=
    le_toNat_of_mem_int (by simpa [Decimal.text] using hc)
  have hwords : ∀ c ∈ "; Fython assembly: ".toList ++ " deltas, ".toList ++ " instructions".toList,
      32 ≤ c.toNat := by simp
  unfold summary at h
  simp only [String.toList_append, List.mem_append] at h hwords
  rcases h with (((h | h) | h) | h) | h
  · exact hwords c (.inl (.inl h))
  · exact hnumber _ h
  · exact hwords c (.inl (.inr h))
  · exact hnumber _ h
  · exact hwords c (.inr h)

theorem le_toNat_of_mem_note {ds : List Delta} {i : Instruction} {c : Char} (h : c ∈ note ds i) :
    32 ≤ c.toNat := by
  have hoffset (hc : c ∈ Decimal.zeroPadded 4 (Decimal.nat i.offset)) : 32 ≤ c.toNat := by
    rcases List.mem_append.mp hc with hc | hc
    · rw [List.eq_of_mem_replicate hc]
      decide
    · have := Assembly.toNat_of_isDigit (Decimal.isDigit_of_mem_nat hc)
      omega
  have hdelta (d : Delta) (hc : c ∈ d.text.toList) : 32 ≤ c.toNat := by
    have hsigns : ∀ c ∈ "(".toList ++ ", ".toList ++ ")".toList, 32 ≤ c.toNat := by simp
    simp only [Delta.text, Decimal.text, String.toList_append, String.toList_ofList,
      List.mem_append] at hc hsigns
    rcases hc with (((hc | hc) | hc) | hc) | hc
    · exact hsigns c (.inl (.inl hc))
    · exact le_toNat_of_mem_int hc
    · exact hsigns c (.inl (.inr hc))
    · exact le_toNat_of_mem_int hc
    · exact hsigns c (.inr hc)
  simp only [note, List.mem_cons, List.mem_append] at h
  rcases h with rfl | rfl | h | rfl | h
  · decide
  · decide
  · exact hoffset h
  · decide
  · exact hdelta _ h

theorem le_toNat_of_mem_listingBody {ds : List Delta} {i : Instruction} (hi : i ∈ decode ds)
    {c : Char} (h : c ∈ listingBody ds i) : 32 ≤ c.toNat := by
  rw [listingBody, List.mem_append, List.mem_append] at h
  rcases h with h | h | h
  · have := Assembly.toNat_of_mem_text (isRead_of_mem_decode hi).isSpelled h
    omega
  · rw [List.eq_of_mem_replicate h]
    decide
  · exact le_toNat_of_mem_note h

theorem le_toNat_of_mem_belowTitle {ds : List Delta} {line : List Char}
    (hline : line ∈ belowTitle ds) {c : Char} (hc : c ∈ line) : 32 ≤ c.toNat := by
  rw [belowTitle, List.mem_cons, List.mem_cons] at hline
  rcases hline with rfl | rfl | hline
  · exact le_toNat_of_mem_summary hc
  · cases hc
  · obtain ⟨i, hi, rfl⟩ := List.mem_map.mp hline
    exact le_toNat_of_mem_listingBody hi hc

/-! ## Reading a listing -/

theorem ofLine?_of_marker (rest : List Char) : ofLine? (';' :: rest) = none := rfl

theorem ofLine?_listingBody {ds : List Delta} {i : Instruction} (h : i ∈ decode ds) :
    ofLine? (listingBody ds i) = some { mnemonic := i.mnemonic, argument := i.argument } :=
  @Assembly.ofLine?_text_margins i (isRead_of_mem_decode h).isSpelled [] _ _ (by simp)
    (fun _ hc => List.eq_of_mem_replicate hc ▸ rfl) rfl

/-- The lines on which a name goes on in the title, after a line feed in it. -/
def continuation (name : String) : List (List Char) :=
  (pieces '\n' (unifyLineEnds (name.toList ++ " ===".toList))).tail

theorem continuation_eq_nil_iff {name : String} : continuation name = [] ↔ '\n' ∉ name.toList := by
  rw [continuation, Text.tail_pieces_eq_nil_iff, Text.mem_unifyLineEnds]
  simp

theorem exists_pieces_title (name : String) :
    ∃ first, pieces '\n' (unifyLineEnds ("; === ".toList ++ (name.toList ++ " ===".toList))) =
      (';' :: first) :: continuation name := by
  obtain ⟨first, rest, hpieces⟩ := List.exists_cons_of_ne_nil
    (Text.pieces_ne_nil '\n' (unifyLineEnds (name.toList ++ " ===".toList)))
  refine ⟨" === ".toList ++ first, ?_⟩
  rw [Text.unifyLineEnds_append (by decide), Text.unifyLineEnds_eq_self (by decide),
    Text.pieces_append_of_not_mem (by decide), continuation, hpieces]
  rfl

/-- The lines below the title are read as the instructions of the stream. -/
theorem ofLinesFrom_belowTitle (n : Nat) (ds : List Delta) :
    ofLinesFrom n (belowTitle ds ++ [[]]) =
      ofLinesFrom (n + 2) ((decode ds).map (listingBody ds)) := by
  have hempty : ofLine? [] = none := rfl
  obtain ⟨rest, hsummary⟩ := exists_summary_eq ds
  rw [Assembly.ofLinesFrom_concat_nil, belowTitle, hsummary]
  simp only [ofLinesFrom, ofLine?_of_marker, hempty]

/-- A listing is read as the rest of its name, and then its stream. -/
theorem exists_parse_listing (name : String) (ds : List Delta) :
    ∃ n, parse (listing name ds).toList =
      ofLinesFrom 2 (continuation name) ++ ofLinesFrom n ((decode ds).map (listingBody ds)) := by
  have hbelow := Text.pieces_unifyLineEnds_flatMap fun l hl c hc =>
    @le_toNat_of_mem_belowTitle ds l hl c hc
  rw [Assembly.parse_eq_ofLines_pieces, toList_listing, ofLines]
  by_cases hname : name = ""
  · subst hname
    refine ⟨3, ?_⟩
    rw [if_pos rfl, List.nil_append, hbelow, ofLinesFrom_belowTitle]
    rfl
  · obtain ⟨first, htitle⟩ := exists_pieces_title name
    refine ⟨2 + (continuation name).length + 2, ?_⟩
    rw [if_neg hname, List.append_assoc, List.singleton_append,
      Text.pieces_unifyLineEnds_append (by simp [List.getLast?_cons]), htitle, hbelow,
      List.cons_append, ofLinesFrom, ofLine?_of_marker, Assembly.ofLinesFrom_append,
      ofLinesFrom_belowTitle]

/-! ## Listings that are assembly for their stream -/

theorem length_pos_of_encode {i : Instruction} {ds : List Delta} (h : encode i = .ok ds) :
    0 < ds.length := by
  unfold encode at h
  split at h
  · cases h
  · split at h <;> cases h <;> simp

/-- Every instruction in front adds deltas. -/
theorem length_add_le_of_assemble {is js : List Instruction} {ds ds' : List Delta}
    (hjs : assemble js = .ok ds) (h : assemble (is ++ js) = .ok ds') :
    is.length + ds.length ≤ ds'.length := by
  induction is generalizing ds' with
  | nil =>
    rw [List.nil_append, hjs] at h
    cases h
    simp
  | cons i is ih =>
    rw [List.cons_append, assemble] at h
    cases hhead : encode i with
    | error e => rw [hhead] at h; cases h
    | ok head =>
      cases htail : assemble (is ++ js) with
      | error e => rw [hhead, htail] at h; cases h
      | ok tail =>
        rw [hhead, htail] at h
        cases h
        have := length_pos_of_encode hhead
        have := ih htail
        simp only [List.length_cons, List.length_append]
        omega

/-- A listing is read as what its name brings along, and then as its stream. It is read as its
stream and nothing else, and assembled like the disassembled stream, exactly if no line on which the
name goes on holds an instruction; a name without a line feed has no such lines. -/
theorem listing_reads_back_iff (name : String) (ds : List Delta) :
    let read := parse (listing name ds).toList
    (∃ own, read = ofLinesFrom 2 (continuation name) ++ own ∧
      List.Forall₂ SameWords (decode ds) own) ∧
    (List.Forall₂ SameWords (decode ds) read ↔
      ∀ line ∈ continuation name, ofLine? line = none) ∧
    (assemble read = assemble (ofLines ((disassemble ds).map String.toList)) ↔
      ∀ line ∈ continuation name, ofLine? line = none) ∧
    (continuation name = [] ↔ '\n' ∉ name.toList) := by
  intro read
  obtain ⟨n, hread⟩ : ∃ n, read =
      ofLinesFrom 2 (continuation name) ++ ofLinesFrom n ((decode ds).map (listingBody ds)) :=
    exists_parse_listing name ds
  have hown := forall₂_sameWords_ofLinesFrom (fun i => @ofLine?_listingBody ds i) n
  generalize ofLinesFrom n ((decode ds).map (listingBody ds)) = own at hread hown
  have hassemble : assemble own = .ok ((decode ds).flatMap blockOf) :=
    assemble_of_sameWords hown fun i hi => (isRead_of_mem_decode hi).isSome
  clear_value read
  subst hread
  refine ⟨⟨own, rfl, hown⟩, ?_, ?_, continuation_eq_nil_iff⟩
  · rw [← Assembly.ofLinesFrom_eq_nil_iff (n := 2)]
    refine ⟨fun h => ?_, fun h => by rwa [h, List.nil_append]⟩
    have hlength := hown.length_eq.symm.trans h.length_eq
    rw [List.length_append] at hlength
    exact List.eq_nil_of_length_eq_zero (by omega)
  · rw [← Assembly.ofLinesFrom_eq_nil_iff (n := 2), assemble_ofLines_disassemble]
    refine ⟨fun h => ?_, fun h => by rwa [h, List.nil_append]⟩
    have hlength := length_add_le_of_assemble hassemble h
    exact List.eq_nil_of_length_eq_zero (by omega)

/-- A name of two lines, the second of which is an instruction. -/
theorem listing_reads_back_iff_second_line :
    continuation "a\npush 7;" = ["push 7; ===".toList] ∧
    (parse (listing "a\npush 7;" [⟨1, 2⟩]).toList).map Instruction.text = ["push 7", "add"] ∧
    ¬ List.Forall₂ SameWords (decode [⟨1, 2⟩]) (parse (listing "a\npush 7;" [⟨1, 2⟩]).toList) ∧
    assemble (parse (listing "a\npush 7;" [⟨1, 2⟩]).toList) ≠
      assemble (ofLines ((disassemble [⟨1, 2⟩]).map String.toList)) := by
  have hsecond : continuation "a\npush 7;" = ["push 7; ===".toList] := by decide +kernel
  have hinstruction : ¬ ∀ line ∈ continuation "a\npush 7;", ofLine? line = none := by decide +kernel
  obtain ⟨-, hwords, hassemble, -⟩ := listing_reads_back_iff "a\npush 7;" [⟨1, 2⟩]
  exact ⟨hsecond, by decide +kernel, mt hwords.mp hinstruction, mt hassemble.mp hinstruction⟩

end Contour.Stream
