import Edi.Proofs.Reader.Renaming
import Edi.Proofs.Stream

namespace Edi

variable {policy : Policy} {options : Options} {c : Closing}

theorem Reader.begins_of_resume {a : Remainder} {r : Reader} {bs cs : List Char} {b : Char}
    (hr : resume options a = .ok (some r)) (hbs : Text.IsBlank bs)
    (hb : Text.isBlankChar b = false) (ha : a.Holds (bs ++ b :: cs)) :
    r.scanner.cursor.Holds (b :: cs) ∧ r.standard.AnnouncedBy (b :: cs) := by
  obtain ⟨t, preview, ht, hp, hd, -⟩ := resume_eq_some hr
  obtain ⟨u, hu, hh, -⟩ := Scanner.skipBlank_of_not_isBlank hbs hb
    (t := .ofRemainder { field := '*', terminator := '~' } options.toLimits a)
    (Cursor.holds_ofRemainder ha _) (by simp [Scanner.ofRemainder, Cursor.ofRemainder])
  obtain ⟨-, rfl⟩ := Prod.mk.inj (ht.symm.trans hu)
  obtain ⟨k, hk, hkh, -⟩ := hh.peek Source.holds_forecast Standard.quotedLength
  simp only [Scanner.peek, hk, Prod.mk.injEq, Except.ok.injEq] at hp
  obtain ⟨rfl, hscanner⟩ := hp
  exact ⟨hscanner ▸ hkh,
    (Standard.announcedBy_take_iff _ _).1 (Standard.detect_eq_ok_iff.1 hd)⟩

/-- The text begins with a header that shows the marks, none of which stands in an element before
the last. -/
def Marks.Head (m : Marks) (text : List Char) : Prop :=
  ∃ blanks values rest, text = blanks ++ (m.header values ++ rest) ∧ Text.IsBlank blanks ∧
    values.length = 15 ∧ ∀ v ∈ values, m.Absent v

/-- What is read of an X12 interchange does not depend on the characters that delimit it. -/
theorem parseStream_redelimited {m m' : Marks} {text : List Char} {source source' : Source}
    (htext : m.Head text) (hm : m.Plain) (hm' : m'.Plain) (hd : m'.all.Nodup)
    (hnew : m'.Absent text) (hs : source.Holds text)
    (hs' : source'.Holds (text.map (m.rename m')))
    (hok : (parseStream policy options source).result = .ok [c]) :
    parseStream policy options source' = parseStream policy options source := by
  obtain ⟨blanks, values, rest, rfl, hb, hl, hv⟩ := htext
  have he : m.Exchange m' values := by
    refine ⟨hm, hm', hd, hl, fun v hv' ↦ ⟨hv v hv', fun c hc' hc ↦ hnew c hc' ?_⟩⟩
    have hf : c ∈ values.flatMap (· ++ [m.field]) :=
      List.mem_flatMap.2 ⟨v, hv', List.mem_append_left _ hc⟩
    simp [Marks.header, hf]
  have ha : (⟨[], 0, source⟩ : Remainder).Holds (blanks ++ (m.header values ++ rest)) :=
    ⟨_, hs, rfl⟩
  have hren : (⟨[], 0, source⟩ : Remainder).Renamed he.toRenaming ⟨[], 0, source'⟩ :=
    ⟨⟨_, ha, ⟨_, hs', rfl⟩, fun c hc hc' ↦ hnew c hc' hc⟩, rfl⟩
  simp only [parseStream, Reader.open?] at hok ⊢
  rcases ho : Reader.resume options { source } with e | _ | r
  · simp [ho] at hok
  · simp [ho, Reading.framed] at hok
  · simp only [ho, Reading.framed_result] at hok
    obtain ⟨o, hs, hrs⟩ := hren.resume ho
    cases hrs with
    | @some _ s hrs =>
      obtain ⟨hc, hbegins⟩ := Reader.begins_of_resume ho hb (by decide) ha
      obtain ⟨hr, hlast⟩ := Reader.parseAll_eq_singleton hok
      obtain ⟨hreading, hrest⟩ :=
        hrs.parse he (Reader.resume_envelope ho) hbegins.eq_x12 hc hr
      obtain ⟨o, hlast', hnone⟩ := hrest.remainder.resume hlast
      cases hnone
      simp only [hs, Reader.parseAll_of_ok hr, Reader.parseAll_of_ok (hreading ▸ hr), hlast,
        hlast', hreading]

/-- Elements, sub-elements, a repetition, and a control number that is too short. -/
theorem parseStream_redelimited_dollar :
    let text := "ISA******A**B***^*00501*1***:~GS*PO*S*R***7~ST*850*1~REF*C:D^E~SE*3*1~" ++
      "GE*1*7~IEA*1*1~"
    let text' := "ISA||||||A||B|||^|00501|1|||>$GS|PO|S|R|||7$ST|850|1$REF|C>D^E$SE|3|1$" ++
      "GE|1|7$IEA|1|1$"
    let m : Marks := ⟨'*', ':', '~'⟩
    let m' : Marks := ⟨'|', '>', '$'⟩
    let c : Closing :=
      { standard := .x12
        sender := ⟨"A", ""⟩
        receiver := ⟨"B", ""⟩
        interchangeControl := "1"
        groupControl := none
        documentControl := none
        documentType := none
        version := some "00501"
        timestamp := none }
    m.Head text.toList ∧ m.Plain ∧ m'.Plain ∧ m'.all.Nodup ∧ m'.Absent text.toList ∧
      (parseText .lenient {} text).result = .ok [c] ∧
      parseText .lenient {} text' = parseText .lenient {} text := by
  intro text text' m m' c
  have htext : m.Head text.toList := by
    refine ⟨[], ["", "", "", "", "", "A", "", "B", "", "", "^", "00501", "1", "", ""].map
      String.toList, text.toList.drop 30, ?_, ?_, ?_, ?_⟩
    · decide +kernel
    · simp [Text.IsBlank]
    · rfl
    · decide
  have hm : m.Plain := by decide +kernel
  have hm' : m'.Plain := by decide +kernel
  have hnew : m'.Absent text.toList := by decide +kernel
  have hmap : text'.toList = text.toList.map (m.rename m') := by decide +kernel
  have hc : (parseText .lenient {} text).result = .ok [c] := by decide +kernel
  exact ⟨htext, hm, hm', by decide, hnew, hc,
    parseStream_redelimited htext hm hm' (by decide) hnew rfl hmap hc⟩

end Edi
