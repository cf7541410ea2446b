import Edi.Proofs.Segment.Draft

namespace Edi

/-- Every draft that can be written is read back, tag and values, whatever blanks come before it
and whatever comes after it. -/
theorem Scanner.segment_write {t : Scanner} {draft : Draft} {blanks rest : List Char}
    (hd : t.delimiters.Unambiguous) (hw : draft.Writable t.delimiters t.maxElementLength)
    (htrims : t.trims = false) (hb : Text.IsBlank blanks)
    (ht : t.cursor.Holds (blanks ++ (draft.write t.delimiters ++ rest)))
    (hl : t.cursor.last ≠ .endOfInput) :
    ∃ s u, t.segment = (.ok (some s), u) ∧ s.tag = draft.tag ∧
      s.fields.map Field.entry = Entry.ofElements draft.elements ∧
      s.span = ⟨t.offset + blanks.length, u.offset⟩ ∧
      u.lastSegmentText.toList = draft.write t.delimiters ∧ u.cursor.Holds rest ∧
      u.cursor.last ≠ .endOfInput := by
  have hread := Segment.answers_write hd hw
  obtain ⟨s, ha, htag, hf, hspan⟩ := hread (t.offset + blanks.length) (t.offset + blanks.length)
  obtain ⟨c, cs, hc⟩ := List.exists_cons_of_ne_nil hw.tag_ne_nil
  have hblank := (hd.letter (hw.letter c (by simp [hc]))).blank
  rw [Draft.write, hc, List.append_assoc] at ht
  rw [hc, ← htrims] at ha
  obtain ⟨u, hu, htext, ho, hlast, hrest⟩ := segment_of_answers hb hblank ht hl ha
  refine ⟨s, u, hu, htag, hf, ?_, ?_, hrest, hlast⟩
  · rw [hspan, ho, Draft.write, hc]
    rfl
  · rw [lastSegmentText, String.toList_ofList, htext, List.reverse_reverse, Draft.write, hc]
    rfl

/-- A released terminator, a repeated element, both kinds of separators below it and an empty last
element, with blanks before the segment and another one after it. -/
theorem Scanner.segment_write_released :
    let d : Delimiters :=
      { Delimiters.tradacoms with subSubElement := some '&', repetition := some '*' }
    let draft : Draft :=
      ⟨"AB", [[.simple "a'b", .simple ""], [.composite [["x", "?"], [""]]], [.simple ""]]⟩
    let t := ofRemainder d { trims := false, maxElementLength := 3 }
      { source := .text "\n AB+a?'b*+x&??:+'CD'".toList }
    draft.write d = "AB+a?'b*+x&??:+'".toList ∧
    ∃ s u, t.segment = (.ok (some s), u) ∧ s.tag = draft.tag ∧
      s.fields.map Field.entry =
        [⟨1, false, .simple "a'b"⟩, ⟨1, true, .simple ""⟩,
          ⟨2, false, .composite [["x", "?"], [""]]⟩, ⟨3, false, .simple ""⟩] ∧
      s.span = ⟨2, u.offset⟩ ∧ u.lastSegmentText.toList = draft.write d ∧
      u.cursor.Holds "CD'".toList ∧ u.cursor.last ≠ .endOfInput := by
  intro d draft t
  have hd : d.Unambiguous := by
    have hc : d.configured.all (!Segment.isTagLetter ·) := by decide
    exact ⟨by decide, by simpa using hc, rfl⟩
  have hw : draft.Writable d 3 := by
    refine ⟨by decide, by decide, List.all_eq_true.1 (by decide), by decide, by decide, ?_⟩
    have hsimple (text : String) (h : text.length ≤ 3) : (Value.simple text).Writable d 3 :=
      ⟨trivial, trivial, h⟩
    have hcomposite : (Value.composite [["x", "?"], [""]]).Writable d 3 :=
      ⟨⟨by decide, by decide⟩, ⟨by decide, by decide⟩, by decide⟩
    simp [draft, hcomposite, hsimple _ (show "a'b".length ≤ 3 by decide), hsimple]
  have hwrite : draft.write d = "AB+a?'b*+x&??:+'".toList := by decide
  have hentries : Entry.ofElements draft.elements =
      [⟨1, false, .simple "a'b"⟩, ⟨1, true, .simple ""⟩,
        ⟨2, false, .composite [["x", "?"], [""]]⟩, ⟨3, false, .simple ""⟩] := by decide
  have hb : Text.IsBlank "\n ".toList := List.all_eq_true.1 (by decide)
  have ht : t.cursor.Holds ("\n ".toList ++ (draft.write d ++ "CD'".toList)) := by
    have htext : "\n ".toList ++ (draft.write d ++ "CD'".toList) =
        "\n AB+a?'b*+x&??:+'CD'".toList := by decide
    rw [htext]
    exact (Cursor.within_start _ _).2.holds
  obtain ⟨s, u, hu, htag, hf, hspan, htext, hrest⟩ := segment_write hd hw rfl hb ht (by decide)
  exact ⟨hwrite, s, u, hu, htag, hf.trans hentries, hspan, htext, hrest⟩

end Edi
