import Edi.Proofs.Relocation
import Edi.Proofs.Validation.Stream

namespace Edi

open Text

def Preamble.defaultAdvice : List Char := ['U', 'N', 'A', ':', '+', '.', '?', ' ', '\'']

variable {t : Scanner} {cs rest : List Char} {standard : Standard} {options : Options}
  {policy : Policy} {earlier earlier' : List Problem}

namespace Scanner

theorem peek_of_holds (n : Nat) (h : t.cursor.Holds cs) : ∃ u, t.peek n = (.ok (cs.take n), u) ∧
    u.cursor.Holds cs ∧ u.offset = t.offset ∧ u.cursor.last = t.cursor.last ∧ t.SameRules u := by
  obtain ⟨k, hk, hh, ho, hl, -⟩ := h.peek Source.holds_forecast n
  exact ⟨{ t with cursor := k }, by simp only [peek, hk], hh, ho, hl, rfl, rfl, rfl⟩

theorem pass_of_holds (h : t.cursor.Holds (cs ++ rest)) (hl : t.cursor.Readable) : ∃ u,
    pass cs.length t = (.ok (), u) ∧ u.cursor.Holds rest ∧ u.offset = t.offset + cs.length ∧
      u.cursor.Readable ∧ t.SameRules u := by
  induction cs generalizing t with
  | nil => exact ⟨t, rfl, h, rfl, hl, rfl, rfl, rfl⟩
  | cons c cs ih =>
    obtain ⟨v, hv, hvh, hvo, hvl, -⟩ := next_of_holds_cons h
    obtain ⟨u, hu, huh, huo, hul, hur⟩ := ih hvh (by simp [Cursor.Readable, hvl])
    refine ⟨u, ?_, huh, ?_, hul, (rules_of_next hv).trans hur⟩
    · simp only [List.length_cons, pass, hv, hu]
    · rw [huo, hvo, List.length_cons]
      omega

theorem passSegment_of_holds (h : t.cursor.Holds (cs ++ rest)) (hl : t.cursor.Readable) : ∃ u,
    t.passSegment cs.length = (.ok (), u) ∧ u.cursor.Holds rest ∧
      u.offset = t.offset + cs.length ∧ u.cursor.Readable ∧ t.SameRules u := by
  obtain ⟨u, hu, huh, huo, hul, hr⟩ := pass_of_holds (t := { t with segmentText := [] }) h hl
  refine ⟨{ u with segmentCount := u.segmentCount + 1 }, ?_, huh, huo, hul, hr.delimiters, hr.trims,
    hr.maxElementLength⟩
  simp only [passSegment, hu]

end Scanner

namespace Reader

/-- A reader that has found where the next interchange begins and has read nothing of it yet. -/
structure Opened (options : Options) (standard : Standard) (offset : Nat) (cs : List Char)
    (r : Reader) : Prop where
  standard : r.standard = standard
  tables : r.tables = options.tables
  advised : r.advised = false
  envelope : r.envelope = none
  holds : r.scanner.cursor.Holds cs
  offset : r.scanner.offset = offset
  readable : r.scanner.cursor.Readable
  trims : r.scanner.trims = options.trims
  maxElementLength : r.scanner.maxElementLength = options.maxElementLength

theorem resume_of_announcedBy (options : Options) {a : Remainder} (ha : a.Holds cs)
    (hb : standard.AnnouncedBy cs) :
    ∃ r, resume options a = .ok (some r) ∧ r.Opened options standard a.offset cs := by
  obtain ⟨c, rest, rfl, hc⟩ : ∃ c rest, cs = c :: rest ∧ isBlankChar c = false := by
    cases hb <;> exact ⟨_, _, rfl, by decide⟩
  have hbs : IsBlank ([] : List Char) := by simp [IsBlank]
  obtain ⟨t, ht, hth, hto, htl, htr⟩ := Scanner.skipBlank_of_not_isBlank hbs hc
    (t := Scanner.ofRemainder { field := '*', terminator := '~' } options.toLimits a)
    (Cursor.holds_ofRemainder ha _) (by simp [Scanner.ofRemainder, Cursor.ofRemainder])
  obtain ⟨u, hu, huh, huo, hul, hur⟩ := Scanner.peek_of_holds Standard.quotedLength hth
  have hd := Standard.detect_eq_ok_iff.2 ((Standard.announcedBy_take_iff _ _).2 hb)
  refine ⟨{ standard, scanner := u, tables := options.tables }, ?_, rfl, rfl, rfl, rfl, huh,
    huo.trans hto, ?_, hur.trims.trans htr.trims,
    hur.maxElementLength.trans htr.maxElementLength⟩
  · simp only [resume, ht, hu, hd, Except.map, Option.map_some]
  · simp [Cursor.Readable, hul, htl]

theorem run_advised (advised : Bool) (policy : Policy) (earlier : List Problem) (tr : Transition)
    (r : Reader) : ({ r with advised } : Reader).run policy earlier tr =
      ((r.run policy earlier tr).1, { (r.run policy earlier tr).2 with advised }) := by
  induction hb : r.scanner.bound using Nat.strongRecOn generalizing earlier tr r with
  | ind n ih =>
    rw [run_eq policy earlier tr r, run_eq policy earlier tr { r with advised }]
    dsimp only
    split
    · rfl
    · split
      · rfl
      · rcases hs : r.scanner.segment with ⟨e | _ | s, u⟩
        · rfl
        · rfl
        · dsimp only
          cases hn : (tr.settle policy earlier).envelope.step r.tables s with
          | error e => rfl
          | ok next =>
            have hrest := ih _ (hb ▸ Scanner.segment_lt hs)
              (earlier ++ (tr.settle policy earlier).offers.map (·.problem)) next
              { r with
                scanner := u
                envelope := some (tr.settle policy earlier).envelope
                recovered := r.recovered ++
                  (tr.settle policy earlier).offers.filterMap Offer.accepted? } rfl
            simp only at hrest ⊢
            rw [hrest]

variable {r s : Reader} {offset : Nat}

/-- The header behind the default advice is read as it is without one, and the same delimiters are
in force after it unless a header of syntax version 4 brings its own without the advice. -/
theorem Opened.readHeader_advised
    (hr : r.Opened options .edifact offset ('U' :: 'N' :: 'B' :: rest))
    (hs : s.Opened options .edifact offset
      (Preamble.defaultAdvice ++ 'U' :: 'N' :: 'B' :: rest)) :
    (∃ e r₀ s₀, r.readHeader = (.error e, r₀) ∧ s.readHeader = (.error (e.relocate 9), s₀)) ∨
      ∃ header r₀ s₀, r.readHeader = (.ok header, r₀) ∧
        s.readHeader = (.ok (header.shift 9), s₀) ∧
        (header.component 1 2 ≠ "4" → Agree 9 { r₀ with advised := true } s₀) := by
  obtain ⟨t, ht, hth, hto, htl, htr⟩ := Scanner.peek_of_holds r.standard.previewLength hr.holds
  obtain ⟨u, hu, huh, huo, hul, hur⟩ := Scanner.peek_of_holds s.standard.previewLength hs.holds
  have hp : r.standard.preamble t.trims
      (('U' :: 'N' :: 'B' :: rest).take r.standard.previewLength) = .ok (.implied .edifact) := by
    rw [hr.standard]
    rfl
  have hp' : s.standard.preamble u.trims
      ((Preamble.defaultAdvice ++ 'U' :: 'N' :: 'B' :: rest).take s.standard.previewLength) =
        .ok (.advised .edifact 9) := by
    rw [hs.standard]
    rfl
  -- Behind the advice stands the same text as where there is none.
  obtain ⟨v, hv, hvh, hvo, hvl, hvr⟩ := Scanner.passSegment_of_holds
    (t := { u with delimiters := .edifact }) huh (by rw [Cursor.Readable, hul]; exact hs.readable)
  have ho : v.offset = t.offset + 9 := by
    rw [hvo, hto, hr.offset, ← hs.offset, ← huo]
    rfl
  have htrims : v.trims = t.trims := by
    rw [hvr.trims, htr.trims, hr.trims, ← hs.trims, ← hur.trims]
  have hmax : v.maxElementLength = t.maxElementLength := by
    rw [hvr.maxElementLength, htr.maxElementLength, hr.maxElementLength, ← hs.maxElementLength,
      ← hur.maxElementLength]
  have htl : ({ t with delimiters := .edifact } : Scanner).cursor.Readable := by
    rw [Cursor.Readable, htl]
    exact hr.readable
  obtain ⟨answer, t', u', ht', hu', h'⟩ := readHeaderSegment_of_segment .edifact r.scanner.offset
    s.scanner.offset .edifact .edifact
    (Scanner.segment_of_holds (t := { t with delimiters := .edifact }) hth hvh htl hvl ho
      ⟨hvr.delimiters, htrims, hmax⟩)
  have hu' : readHeaderSegment .edifact s.scanner.offset (.advised .edifact 9)
      { u with delimiters := .edifact } =
        (Error.shiftOr 9 (·.shift 9) answer, u') := by
    have hv9 : ({ u with delimiters := .edifact } : Scanner).passSegment 9 = (.ok (), v) := hv
    rw [← hu']
    simp only [readHeaderSegment, hv9]
  rw [readHeader_of_preamble ht hp, readHeader_of_preamble hu hp']
  simp only [hr.standard, hs.standard, Preamble.delimiters, ht', hu']
  rcases readHeaderSegment_answered htl ht' with ⟨e, rfl, hf⟩ | ⟨header, rfl, -⟩
  · have he : e.relocate 9 = e.shift 9 :=
      Error.relocate_of_shift (Fault.countsFromHeader (r := { r with scanner := t' }) (.scanner hf))
    exact .inl ⟨e, _, _, rfl, by rw [he]; rfl⟩
  · simp only [Error.shiftOr, Segment.shift_tag]
    by_cases hrole : Standard.edifact.role header.tag = .interchangeHeader
    · simp only [hrole, ne_eq, not_true_eq_false, ↓reduceIte]
      refine .inr ⟨header, _, _, rfl, rfl, fun hversion ↦ ?_⟩
      refine ⟨⟨h'.cursor, ?_, h'.rules.trims, h'.rules.maxElementLength⟩, rfl,
        hs.tables.trans hr.tables.symm, by simp [Preamble.isAdvised],
        hs.envelope.trans hr.envelope.symm⟩
      simp [Standard.refine, Segment.component_shift, Preamble.isAdvised, hversion]
    · simp only [hrole, ne_eq, not_false_eq_true, ↓reduceIte]
      exact .inl ⟨_, _, _, rfl, rfl⟩

theorem Opened.parse_advised
    (hr : r.Opened options .edifact offset ('U' :: 'N' :: 'B' :: rest))
    (hs : s.Opened options .edifact offset
      (Preamble.defaultAdvice ++ 'U' :: 'N' :: 'B' :: rest))
    (hversion : ∀ header r₀, r.readHeader = (.ok header, r₀) → header.component 1 2 ≠ "4")
    (hp : policy.Relocates 9 earlier earlier') : ∃ one r' s',
      r.parse policy earlier = (one, r') ∧ s.parse policy earlier' = (one.relocate 9, s') ∧
        ∀ c, one.result = .ok c → ∃ stop, r'.remainder.Follows 9 [] stop s'.remainder := by
  rcases hr.readHeader_advised hs with ⟨e, r₀, s₀, hr₀, hs₀⟩ | ⟨header, r₀, s₀, hr₀, hs₀, h⟩
  · refine ⟨_, _, _, parse_of_readHeader_error policy earlier hr.envelope hr₀,
      parse_of_readHeader_error policy earlier' hs.envelope hs₀, ?_⟩
    simp
  · obtain ⟨one, r', s', hx, hy, h'⟩ :=
      (h (hversion header r₀ hr₀)).run hp (Envelope.start .edifact header)
    obtain ⟨hone, hr'⟩ := Prod.mk.inj ((run_advised true policy earlier _ r₀).symm.trans hx)
    have hf : ∀ e, one.result = .error e → e.countsFromHeader = false := by
      intro e he
      rcases readHeader_answered hr.readable hr₀ with ⟨_, h, -⟩ | ⟨_, -, hr₀⟩
      · simp at h
      · rw [← hone] at he
        exact (run_fault _ (Envelope.start_settled _ _) hr₀ he).countsFromHeader
    let r' := (r₀.run policy earlier (Envelope.start .edifact header)).2
    refine ⟨one, r', s', ?_, ?_, fun c _ ↦ ?_⟩
    · rw [parse_of_readHeader policy earlier hr.envelope hr₀, hr.standard, ← hone]
    · rw [parse_of_readHeader policy earlier' hs.envelope hs₀, hs.standard, Envelope.start_shift,
        hy, Reading.relocate_of_shift hf]
    · obtain ⟨stop, hstop⟩ := h'.remainder
      exact ⟨stop, by rwa [← hr'] at hstop⟩

end Reader

/-- A service string that declares the delimiters in force without one changes nothing of what is
read, except that all offsets count it, unless the header is of syntax version 4 and brings in a
repetition separator where there is no service string. -/
theorem parseStream_advised (options : Options) {text : List Char}
    (hunb : ['U', 'N', 'B'] <+: text)
    (hversion : ∀ i ∈ (interchanges options (.text text)).head?, i.header.component 1 2 ≠ "4") :
    let x := parseStream .lenient options (.text text)
    let y := parseStream .lenient options (.text (Preamble.defaultAdvice ++ text))
    y = x.relocate 9 ∧
      ∀ closings, x.result = .ok closings →
        y.result = .ok closings ∧ y.emissions = x.emissions ∧
          y.offers = x.offers.map (·.shift 9) := by
  intro x y
  have hy : y = x.relocate 9 := by
    obtain ⟨rest, rfl⟩ := hunb
    obtain ⟨r, hr, hro⟩ := Reader.resume_of_announcedBy options
      (a := { source := .text (['U', 'N', 'B'] ++ rest) }) ⟨_, rfl, rfl⟩ (.edifact rest)
    obtain ⟨s, hs, hso⟩ := Reader.resume_of_announcedBy options
      (a := { source := .text (Preamble.defaultAdvice ++ (['U', 'N', 'B'] ++ rest)) })
      ⟨_, rfl, rfl⟩ (.advised _)
    have hfirst : ∀ header r₀, r.readHeader = (.ok header, r₀) → header.component 1 2 ≠ "4" := by
      intro header r₀ hh
      refine hversion ⟨r.standard, header, r.standard.inPlace r₀.scanner.segments⟩ ?_
      have hi : interchanges options (.text (['U', 'N', 'B'] ++ rest)) =
          r.interchanges options := by
        simp only [interchanges, Reader.open?, hr]
      exact hi ▸ Reader.interchanges_of_ok hh ▸ rfl
    have hp : Policy.lenient.Relocates 9 [] [] := Policy.relocates_lenient [] []
    obtain ⟨one, r', s', hone, hone', hrest⟩ := hro.parse_advised hso hfirst hp
    have hall := Reader.parseAll_relocate options options hone hone' fun c hc ↦ by
      obtain ⟨stop, hf⟩ := hrest c hc
      exact hf.parseAll_relocate options options.bufferCapacity options.retainsText
        (hp.append (one.offers.map (·.problem)))
    have hx : x = (r.parseAll .lenient options []).framed := by
      simp only [x, parseStream, Reader.open?, hr]
    have hy : y = (s.parseAll .lenient options []).framed := by
      simp only [y, parseStream, Reader.open?, hs]
    rw [hx, hy, hall, Reading.relocate_framed]
  refine ⟨hy, fun closings hx ↦ ?_⟩
  rw [hy]
  exact ⟨by simp [Reading.relocate, hx, Error.relocateOr], rfl, rfl⟩

/-- A wrong count, and then an interchange of syntax version 4. -/
theorem parseStream_advised_twice :
    let text := ("UNB+UNOC:3+A+B+240101:1200+1'UNZ+9+1'" ++
      "UNB+UNOC:4+C+D+240101:1200+2'UNH+1+ORDERS:D:96A:UN'FTX+A*B'UNT+3+1'UNZ+1+2'").toList
    let x := parseStream .lenient {} (.text text)
    let y := parseStream .lenient {} (.text (Preamble.defaultAdvice ++ text))
    ['U', 'N', 'B'] <+: text ∧ x.offers.map (·.problem.offset) = [29] ∧
      y.offers.map (·.problem.offset) = [38] ∧ y.emissions = x.emissions ∧
      ∃ closings, y.result = .ok closings ∧ closings.length = 2 := by
  intro text x y
  have hunb : ['U', 'N', 'B'] <+: text := by decide +kernel
  have hversion : ∀ i ∈ (interchanges {} (.text text)).head?, i.header.component 1 2 ≠ "4" := by
    decide +kernel
  obtain ⟨-, hok⟩ := parseStream_advised {} hunb hversion
  have ho : x.offers.map (·.problem.offset) = [29] := by decide +kernel
  have hl : x.result.toOption.map List.length = some 2 := by decide +kernel
  cases hx : x.result with
  | error e => simp [hx, Except.toOption] at hl
  | ok closings =>
    obtain ⟨hy, he, hos⟩ := hok closings hx
    refine ⟨hunb, ho, ?_, he, closings, hy, ?_⟩
    · rw [hos]
      decide +kernel
    · simpa [hx, Except.toOption] using hl

end Edi
