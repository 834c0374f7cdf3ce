import Gleaner.Proofs.Line.Cutting
import Mathlib.Data.String.Basic

/-!
# The places of the words of a line

The words of a line lie in it one behind the other, with blanks between them and around them and
nothing else, and each of them can be cut out: its part of the line, taken alone, is a line of that
one word. Lines can also be put together, as long as a blank parts them; the words of the second
line are then the same words further on.
-/

namespace Gleaner

/-! ### Bytes of a line -/

theorem byteLength_eq_utf8Len (text : List Char) : byteLength text = String.utf8Len text := by
  induction text with
  | nil => rfl
  | cons c rest ih => rw [byteLength_cons, String.utf8Len_cons, ih, Nat.add_comm]

theorem byteLength_toList (line : String) : byteLength line.toList = line.utf8ByteSize := by
  rw [byteLength_eq_utf8Len, String.utf8Len_toList]

namespace Span

/-- The part of a line that lies in a span. -/
def slice (span : Span) (line : String) : String :=
  String.Pos.Raw.extract line ⟨span.start⟩ ⟨span.stop⟩

/-- A span holds a part of the line that is not empty, and divides no character. -/
structure Within (span : Span) (line : String) : Prop where
  nonempty : span.start < span.stop
  inside : span.stop ≤ line.utf8ByteSize
  start_valid : String.Pos.Raw.IsValid line ⟨span.start⟩
  stop_valid : String.Pos.Raw.IsValid line ⟨span.stop⟩

end Span

section Parts

variable {line : String} {before part behind : List Char}
  (parts : line.toList = before ++ (part ++ behind))

include parts

theorem slice_eq :
    Span.slice ⟨byteLength before, byteLength before + byteLength part⟩ line =
      String.ofList part := by
  have whole : line = String.ofList (before ++ part ++ behind) := by
    rw [List.append_assoc, ← parts, String.ofList_toList]
  rw [Span.slice, whole, byteLength_eq_utf8Len, byteLength_eq_utf8Len]
  exact String.extract_of_valid before part behind

theorem isValid_byteLength : String.Pos.Raw.IsValid line ⟨byteLength before⟩ := by
  rw [String.Pos.Raw.isValid_iff_exists_append]
  refine ⟨String.ofList before, String.ofList (part ++ behind), ?_, ?_⟩
  · rw [← String.ofList_append, ← parts, String.ofList_toList]
  · rw [String.rawEndPos_ofList, byteLength_eq_utf8Len]

theorem within_of_append (some : part ≠ []) :
    Span.Within ⟨byteLength before, byteLength before + byteLength part⟩ line := by
  have part_pos := Word.byteLength_pos some
  have parts' : line.toList = (before ++ part) ++ (behind ++ []) := by simp [parts]
  have stop := isValid_byteLength parts'
  rw [byteLength_append] at stop
  exact ⟨by simpa using part_pos, stop.le_utf8ByteSize, isValid_byteLength parts, stop⟩

end Parts

namespace Word

theorem length_utf8 (text : List Char) :
    (text.flatMap String.utf8EncodeChar).length = byteLength text := by
  induction text with
  | nil => rfl
  | cons c rest ih =>
    rw [List.flatMap_cons, List.length_append, String.length_utf8EncodeChar, ih, byteLength_cons]

theorem toByteArray_data (line : String) :
    line.toByteArray.data = (line.toList.flatMap String.utf8EncodeChar).toArray := by
  have encoded := String.toByteArray_ofList (l := line.toList)
  rw [String.ofList_toList] at encoded
  rw [encoded, List.utf8Encode, List.data_toByteArray]

theorem mem_blankBytes {gap : List Char} (blank : gap ⊆ blanks) {byte : UInt8}
    (member : byte ∈ gap.flatMap String.utf8EncodeChar) : byte ∈ [0x20, 0x09, 0x0D, 0x0A] := by
  have encoded : blanks.flatMap String.utf8EncodeChar = [0x20, 0x09, 0x0D, 0x0A] := by rfl
  obtain ⟨c, inGap, inChar⟩ := List.mem_flatMap.mp member
  rw [← encoded]
  exact List.mem_flatMap.mpr ⟨c, blank inGap, inChar⟩

/-- The same word in a line that begins `distance` bytes further on. -/
def shift (distance : Nat) (word : Word) : Word :=
  ⟨word.text, ⟨word.span.start + distance, word.span.stop + distance⟩⟩

/-- Words that make up a line together with the blanks between them. -/
structure Partition (line : String) (words : List Word) : Prop where
  /-- Every word has a place in the line. -/
  within : ∀ word ∈ words, word.span.Within line
  /-- The words lie one behind the other, with something between them. -/
  apart : words.Pairwise fun first second => first.span.stop < second.span.start
  /-- Bytes outside of the words are blanks: space, tab, carriage return and line feed. -/
  blank : ∀ i byte, line.toByteArray.data[i]? = some byte →
    (∀ word ∈ words, i < word.span.start ∨ word.span.stop ≤ i) → byte ∈ [0x20, 0x09, 0x0D, 0x0A]
  /-- The part of the line that a word takes is that word and nothing else. -/
  alone : ∀ word ∈ words, split (word.span.slice line) =
    .ok [⟨word.text, ⟨0, (word.span.slice line).utf8ByteSize⟩⟩]

namespace Laid

variable {offset : Nat} {words : List Word} {text : List Char}

theorem pairwise (laid : Laid offset words text) :
    words.Pairwise fun first second => first.span.stop < second.span.start := by
  induction laid with
  | none => exact .nil
  | word _ _ _ _ apart others ih => exact .cons (others.lt_start apart) ih

/-- A byte that no word holds belongs to a blank. -/
theorem blank_of_outside (laid : Laid offset words text) {i : Nat} {byte : UInt8}
    (here : (text.flatMap String.utf8EncodeChar)[i]? = some byte)
    (outside : ∀ word ∈ words, offset + i < word.span.start ∨ word.span.stop ≤ offset + i) :
    byte ∈ [0x20, 0x09, 0x0D, 0x0A] := by
  induction laid generalizing i with
  | none blank => exact mem_blankBytes blank (List.mem_of_getElem? here)
  | @word offset start stop gap text written rest words blank begins _ ends _ _ ih =>
    rw [List.flatMap_append, List.flatMap_append] at here
    by_cases inGap : i < byteLength gap
    · rw [List.getElem?_append_left (by rwa [length_utf8])] at here
      exact mem_blankBytes blank (List.mem_of_getElem? here)
    -- Behind the gap comes the word, which holds its bytes, and behind it the rest.
    obtain ⟨aside, others⟩ := List.forall_mem_cons.mp outside
    simp only at aside
    rw [List.getElem?_append_right (by rw [length_utf8]; omega),
      List.getElem?_append_right (by simp only [length_utf8]; omega), length_utf8,
      length_utf8] at here
    refine ih here fun word member => ?_
    have := others word member
    omega

theorem shift (laid : Laid offset words text) (distance : Nat) :
    Laid (offset + distance) (words.map (Word.shift distance)) text := by
  induction laid with
  | none blank => exact .none blank
  | @word offset start stop gap text written rest words blank begins form ends apart _ ih =>
    change Laid _ (⟨text, ⟨start + distance, stop + distance⟩⟩ :: words.map _) _
    exact .word blank (by omega) form (by omega) apart ih

/-- Two texts that a blank parts can be put together. -/
theorem append (laid : Laid offset words text) {gap behind : List Char} {others : List Word}
    (some : gap ≠ []) (blank : gap ⊆ blanks)
    (laid' : Laid (offset + byteLength text + byteLength gap) others behind) :
    Laid offset (words ++ others) (text ++ (gap ++ behind)) := by
  induction laid with
  | none blank' => exact (laid'.gap_append blank).gap_append blank'
  | @word offset start stop gap' text written rest words blank' begins form ends apart _ ih =>
    rw [List.append_assoc, List.append_assoc, List.cons_append]
    refine .word blank' begins form ends (fun c first => ?_) (ih ?_)
    -- Behind the last word of the first text there is the gap, behind the others their own.
    · cases rest with
      | nil =>
        rw [List.nil_append, List.head?_append_of_ne_nil gap some] at first
        exact blank (List.mem_of_mem_head? first)
      | cons d rest => exact apart c first
    · simp only [byteLength_append] at laid'
      convert laid' using 1
      omega

/-- A written form alone is a line of one word. -/
theorem sole {word written : List Char} (form : Written word written) :
    Laid 0 [⟨word, ⟨0, byteLength written⟩⟩] written := by
  have laid := Laid.first form (Nat.zero_add _).symm (by simp) (.none (List.nil_subset blanks))
  rwa [List.append_nil] at laid

end Laid

theorem partition_of_split {line : String} {words : List Word} (split_eq : split line = .ok words) :
    Partition line words := by
  have laid := split_eq_ok_iff.mp split_eq
  -- The words are laid in the line, so each has a place with its written form.
  have placed : ∀ word ∈ words, ∃ before written behind,
      line.toList = before ++ (written ++ behind) ∧ Written word.text written ∧
        word.span = ⟨byteLength before, byteLength before + byteLength written⟩ := by
    intro word member
    simpa using laid.exists_written member
  refine ⟨fun word member => ?_, laid.pairwise, fun i byte here outside => ?_,
    fun word member => ?_⟩
  · obtain ⟨before, written, behind, parts, form, place⟩ := placed word member
    rw [place]
    exact within_of_append parts form.ne_nil
  · refine laid.blank_of_outside ?_ (by simpa using outside)
    rwa [toByteArray_data, List.getElem?_toArray] at here
  · obtain ⟨before, written, behind, parts, form, place⟩ := placed word member
    rw [place, slice_eq parts, split_eq_ok_iff, ← byteLength_toList, String.toList_ofList]
    exact .sole form

theorem split_append {first second gap : String} {words others : List Word}
    (split_eq : split first = .ok words) (split_eq' : split second = .ok others) (some : gap ≠ "")
    (blank : gap.toList ⊆ blanks) :
    split (first ++ gap ++ second) =
      .ok (words ++ others.map (shift (first ++ gap).utf8ByteSize)) := by
  have laid := split_eq_ok_iff.mp split_eq
  have laid' := (split_eq_ok_iff.mp split_eq').shift (first ++ gap).utf8ByteSize
  rw [split_eq_ok_iff, String.toList_append, String.toList_append, List.append_assoc]
  refine laid.append (by simpa using some) blank ?_
  simpa [byteLength_toList] using laid'

/-- The words of a line make it up together with blanks, each of them is a line of its own, and
lines that a blank parts have the words of both. -/
theorem split_partitions :
    (∀ line words, split line = .ok words → Partition line words) ∧
      ∀ first second gap words others, split first = .ok words → split second = .ok others →
        gap ≠ "" → gap.toList ⊆ blanks →
          split (first ++ gap ++ second) =
            .ok (words ++ others.map (shift (first ++ gap).utf8ByteSize)) := by
  constructor
  · exact fun line words => partition_of_split
  · exact fun first second gap words others => split_append

/-- A word that holds a blank, a character of two bytes and a single quote that has no like. -/
theorem split_partitions_quoted :
    split "a\"é \x27\" b" = .ok [⟨"aé \x27".toList, ⟨0, 7⟩⟩, ⟨"b".toList, ⟨8, 9⟩⟩] ∧
      split "\n\\ c" = .ok [⟨" c".toList, ⟨1, 4⟩⟩] ∧
      Partition "a\"é \x27\" b" [⟨"aé \x27".toList, ⟨0, 7⟩⟩, ⟨"b".toList, ⟨8, 9⟩⟩] ∧
      split "a\"é \x27\" b\t\n\\ c" = .ok [⟨"aé \x27".toList, ⟨0, 7⟩⟩, ⟨"b".toList, ⟨8, 9⟩⟩,
        ⟨" c".toList, ⟨11, 14⟩⟩] := by
  have first : split "a\"é \x27\" b" =
      .ok [⟨"aé \x27".toList, ⟨0, 7⟩⟩, ⟨"b".toList, ⟨8, 9⟩⟩] := by decide +kernel
  have second : split "\n\\ c" = .ok [⟨" c".toList, ⟨1, 4⟩⟩] := by decide +kernel
  obtain ⟨partition, together⟩ := split_partitions
  have joined := together _ _ "\t" _ _ first second (by decide) (by decide)
  exact ⟨first, second, partition _ _ first, joined⟩

end Word

end Gleaner
