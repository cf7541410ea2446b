import Edi.Proofs.Causality

namespace Edi

open Emission

variable {options : Options} {text text' blanks : List Char} {closings closings' : List Closing}

theorem Remainder.parseAll_of_isBlank {policy : Policy} {earlier : List Problem} {a : Remainder}
    (h : a.Holds blanks) (hb : Text.IsBlank blanks) :
    a.parseAll policy options earlier = { result := .ok [] } := by
  simp only [Remainder.parseAll, Reader.resume_of_isBlank h hb]

theorem parseStream_of_ok {policy : Policy} {source : Source}
    (h : (parseStream policy options source).result = .ok closings) :
    (Remainder.parseAll policy options [] { source }).result = .ok closings ∧
      parseStream policy options source =
        (Remainder.parseAll policy options [] { source }).framed := by
  cases ho : Reader.open? options source with
  | error e => simp [parseStream, ho] at h
  | ok o =>
    have hs : parseStream policy options source = _ := parseStream_of_open ho
    rw [hs] at h
    exact ⟨h, hs⟩

theorem parseStream_of_parseAll {policy : Policy} {source : Source}
    (h : (Remainder.parseAll policy options [] { source }).result = .ok closings) :
    parseStream policy options source =
      (Remainder.parseAll policy options [] { source }).framed := by
  cases ho : Reader.open? options source with
  | error e =>
    have hr : Reader.resume options { source } = .error e := ho
    simp [Remainder.parseAll, hr] at h
  | ok o => exact parseStream_of_open ho

theorem parseAll_append
    (h : (Remainder.parseAll .lenient options [] { source := .text text }).result = .ok closings)
    (h' : (Remainder.parseAll .lenient options [] { source := .text text' }).result = .ok closings')
    (hb : Text.IsBlank blanks) :
    let x := Remainder.parseAll .lenient options [] { source := .text text }
    let y := Remainder.parseAll .lenient options [] { source := .text text' }
    Remainder.parseAll .lenient options [] { source := .text (text ++ (blanks ++ text')) } =
      { emissions := x.emissions ++ y.emissions
        offers := x.offers ++ y.offers.map (·.shift (text.length + blanks.length))
        result := .ok (closings ++ closings') } := by
  intro x y
  rcases (Remainder.follows_append text (blanks ++ text')).parseAll options
    (Policy.relocates_lenient [] []) with
    ⟨cs, z, bs, hx, hbs, hz, ho, hg⟩ | ⟨e, hx, -⟩
  · obtain rfl := Except.ok.inj (h.symm.trans hx)
    have hf : Remainder.Follows (text.length + blanks.length) [] text'.length
        { source := .text text' } z := by
      refine ⟨bs ++ blanks, text', ?_, ⟨text', rfl, rfl⟩, ?_, ?_, by simp⟩
      · exact List.forall_mem_append.2 ⟨hbs, hb⟩
      · simpa using hz
      · rw [List.length_append, Nat.zero_add]
        omega
    rcases hf.parseAll options (Policy.relocates_lenient [] _) with
      ⟨cs', z', bs', hy, hbs', hz', -, hg'⟩ | ⟨e, hy, -⟩
    · obtain rfl := Except.ok.inj (h'.symm.trans hy)
      rw [hg, hg', Remainder.parseAll_of_isBlank hz' (by simpa using hbs')]
      simp [Reading.behind, Reading.after, Except.map, x, y]
    · exact absurd (h'.symm.trans hy) (by simp)
  · exact absurd (h.symm.trans hx) (by simp)

/-- Streams that are read well may be put one after the other, with blanks in between. -/
theorem parseStream_append_blanks_append
    (h : (parseStream .lenient options (.text text)).result = .ok closings)
    (h' : (parseStream .lenient options (.text text')).result = .ok closings')
    (hb : Text.IsBlank blanks) :
    let x := parseStream .lenient options (.text text)
    let y := parseStream .lenient options (.text text')
    let r := parseStream .lenient options (.text (text ++ blanks ++ text'))
    r.result = .ok (closings ++ closings') ∧
      (∃ body body', x.emissions = documentOpening ++ body ++ documentClosing ∧
        y.emissions = documentOpening ++ body' ++ documentClosing ∧
        r.emissions = documentOpening ++ (body ++ body') ++ documentClosing) ∧
      r.offers = x.offers ++ y.offers.map (·.shift (text.length + blanks.length)) := by
  obtain ⟨hx, hxf⟩ := parseStream_of_ok h
  obtain ⟨hy, hyf⟩ := parseStream_of_ok h'
  have hr := parseAll_append hx hy hb
  rw [← List.append_assoc] at hr
  have hres : (Remainder.parseAll .lenient options []
      { source := .text (text ++ blanks ++ text') }).result = .ok (closings ++ closings') := by
    rw [hr]
  simp only [hxf, hyf, parseStream_of_parseAll hres, Reading.framed_result, Reading.framed_offers]
  refine ⟨hres,
    ⟨_, _, Reading.framed_emissions_of_ok hx, Reading.framed_emissions_of_ok hy, ?_⟩, ?_⟩
  · rw [Reading.framed_emissions_of_ok hres, hr]
  · rw [hr]

/-- Interchanges of two standards, each with a wrong count. -/
theorem parseStream_append_blanks_append_mixed :
    let text := "UNB+UNOC:3+A+B+240101:1200+1'UNZ+9+1'".toList
    let text' := "STX=ANA:1+A+B+240101+R'END=7'".toList
    let blanks := [' ', '\n', '\uFEFF']
    let x := parseStream .lenient {} (.text text)
    let y := parseStream .lenient {} (.text text')
    let r := parseStream .lenient {} (.text (text ++ blanks ++ text'))
    ∃ closings closings', x.result = .ok closings ∧ y.result = .ok closings' ∧
      Text.IsBlank blanks ∧ r.result = .ok (closings ++ closings') ∧
      r.offers = x.offers ++ y.offers.map (·.shift (text.length + blanks.length)) ∧
      r.offers.map (·.problem.offset) = [29, 63] := by
  intro text text' blanks x y r
  have hb : Text.IsBlank blanks := by simp [Text.IsBlank, Text.isBlankChar, Text.isWhite, blanks]
  have hxok : x.result.toBool := by decide +kernel
  have hyok : y.result.toBool := by decide +kernel
  cases hx : x.result with
  | error e => simp [hx, Except.toBool] at hxok
  | ok closings =>
    cases hy : y.result with
    | error e => simp [hy, Except.toBool] at hyok
    | ok closings' =>
      obtain ⟨hr, -, ho⟩ := parseStream_append_blanks_append hx hy hb
      exact ⟨closings, closings', rfl, rfl, hb, hr, ho, by decide +kernel⟩

end Edi
