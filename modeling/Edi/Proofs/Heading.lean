import Edi.Proofs.Envelope.Language
import Edi.Proofs.Envelope.Placed
import Edi.Proofs.Envelope.Surroundings
import Edi.Proofs.Reader.Resume
import Edi.Proofs.Reader.Run
import Edi.Proofs.Readings
import Edi.Proofs.Scanner.Ahead

namespace Edi

namespace Event

variable {name : String} {es us : List Event}

@[simp] theorem starts_append : starts name (us ++ es) = starts name us ++ starts name es :=
  List.filterMap_append

theorem starts_eq_nil (h : ∀ e ∈ es, e.name? ≠ some name) : starts name es = [] := by
  refine List.filterMap_eq_nil_iff.2 fun e he ↦ ?_
  have hn := h e he
  cases e with
  | elementStart n a => simpa [name?] using hn
  | _ => rfl

end Event

open Event (starts)

namespace Envelope

variable {tables : LoopTables} {s : Segment} {e : Envelope} {t : Transition} {role : Role}

theorem Passes.starts_announced (h : Passes tables s e role t) :
    starts ElementName.interchange t.announced = [] :=
  Event.starts_eq_nil fun _ he ↦ h.name_ne_of_announced he

theorem Passes.starts_completed (h : Passes tables s e role t) :
    starts ElementName.interchange (Emission.events t.completed) = [] := by
  cases h with
  | documentTrailer d hd =>
    have hl : starts ElementName.interchange (LoopNesting.endEvents d.loops.frames) = [] :=
      Event.starts_eq_nil fun _ he ↦
        name_ne_of_unlooped (LoopNesting.unlooped_endEvents d.loops.frames) he
    simpa [documentClosed, LoopNesting.closeAll, Emission.events, starts] using hl
  | _ => rfl

theorem starts_stable (starting : List Attributes) :
    Stable fun w _ ↦ starts ElementName.interchange (Emission.events w) = starting := by
  intro tables s e role t w hw hp h
  constructor
  · exact h.halted_phase hp
  · simp [hw, h.starts_announced]
  · simp [hw, h.starts_announced, h.starts_completed]

def startAttributes (standard : Standard) (header : Segment) : Attributes :=
  (Attributes.ofList [("Standard", standard.name)]).extend
    (InterchangeHeader.ofSegment standard header).value.attributes.entries

theorem start_keeps (standard : Standard) (header : Segment) : (start standard header).Keeps
    (fun w _ ↦ starts ElementName.interchange (Emission.events w) =
      [startAttributes standard header]) [] := by
  have hs : starts ElementName.interchange (start standard header).announced =
      [startAttributes standard header] := by
    simp [start, starts, startAttributes, Party.events, ElementName.interchange,
      ElementName.sender, ElementName.receiver, ElementName.address]
  constructor
  · simp [start]
  · simpa using hs
  · simpa [start, Emission.events] using hs

end Envelope

theorem Scanner.eq_take_of_peek {t u : Scanner} {n : Nat} {cs : List Char}
    (h : t.peek n = (.ok cs, u)) : cs = u.cursor.ahead.take n := by
  simp only [peek, Cursor.peek] at h
  split at h
  · simp at h
  · obtain ⟨hc, rfl⟩ := Prod.mk.inj h
    exact (Except.ok.inj hc).symm

theorem Preamble.ofEdifact_implied {preview : List Char} {p : Preamble}
    (h : ofEdifact preview = .ok p) (hp : p.isAdvised = false) :
    ∃ cs, preview = 'U' :: 'N' :: 'B' :: cs ∧ p = .implied .edifact := by
  simp only [ofEdifact] at h
  split at h
  · exact ⟨_, rfl, (Except.ok.inj h).symm⟩
  · obtain rfl := Except.ok.inj h
    simp [isAdvised] at hp
  · simp at h
  · simp at h

theorem Delimiters.edifact_letter {c : Char} (hc : c ∈ ['U', 'N', 'B']) :
    Delimiters.edifact.Letter c := by
  obtain rfl | rfl | rfl : c = 'U' ∨ c = 'N' ∨ c = 'B' := by simpa using hc
  · exact ⟨by decide, by decide, by decide, by decide⟩
  · exact ⟨by decide, by decide, by decide, by decide⟩
  · exact ⟨by decide, by decide, by decide, by decide⟩

namespace Reader

variable {policy : Policy} {options : Options} {earlier : List Problem} {r : Reader}
  {p : Preamble} {s : Segment}

/-- The segment `s` stands in the place of the header, where the interchange begins as `p` says. -/
def HeadedBy (r : Reader) (p : Preamble) (s : Segment) : Prop :=
  ∃ preview t u, r.scanner.peek r.standard.previewLength = (.ok preview, t) ∧
    r.standard.preamble t.trims preview = .ok p ∧
    readHeaderSegment r.standard r.scanner.offset p { t with delimiters := p.delimiters } =
      (.ok s, u)

theorem HeadedBy.unb (h : r.HeadedBy p s) (hs : r.standard = .edifact)
    (hp : p.isAdvised = false) : ['U', 'N', 'B'] <+: s.tag.toList := by
  obtain ⟨preview, t, u, hk, hpre, hh⟩ := h
  rw [hs] at hpre
  obtain ⟨cs, rfl, rfl⟩ := Preamble.ofEdifact_implied hpre hp
  obtain ⟨rest, hrest⟩ : ∃ rest, t.cursor.ahead = ['U', 'N', 'B'] ++ rest := by
    have ha := List.take_append_drop r.standard.previewLength t.cursor.ahead
    rw [← Scanner.eq_take_of_peek hk] at ha
    exact ⟨cs ++ t.cursor.ahead.drop r.standard.previewLength, ha.symm⟩
  simp only [readHeaderSegment] at hh
  split at hh
  · simp at hh
  · simp at hh
  · next s' v hv =>
    obtain ⟨he, -⟩ := Prod.mk.inj hh
    obtain rfl := Except.ok.inj he
    exact Scanner.segment_tag_begins (t := { t with delimiters := .edifact }) hrest
      (fun c hc ↦ Delimiters.edifact_letter hc) (by decide) (by decide) hv

theorem HeadedBy.role_iff (h : r.HeadedBy p s) :
    r.standard.role s.tag = .interchangeHeader ↔
      s.tag = r.standard.headerTag ∨ r.standard = .edifact ∧ p.isAdvised ∧ s.tag = "UNA" := by
  rw [Standard.role_eq_interchangeHeader]
  cases hs : r.standard with
  | x12 => simp [Standard.envelopeTags, Standard.headerTag]
  | tradacoms => simp [Standard.envelopeTags, Standard.headerTag]
  | edifact =>
    -- Without a service string the tag begins with the letters that the preview has shown.
    have hu : s.tag = "UNA" → p.isAdvised = true := by
      intro ht
      by_contra hp
      have hb := h.unb hs (by simpa using hp)
      rw [ht] at hb
      exact absurd hb (by decide)
    simp only [Standard.envelopeTags, Standard.headerTag, List.mem_cons, List.not_mem_nil,
      or_false, true_and]
    tauto

/-- How the reading `x` of an interchange begins: with a header of the right tag, and then the
interchange starts once, with the attributes of this header; or it fails with nothing handed out, if
another segment stands in the place of the header because of this. -/
inductive Headed (r : Reader) (x : Reading Closing) : Prop
  | begun (p : Preamble) (s : Segment) (hs : r.HeadedBy p s)
      (ht : s.tag = r.standard.headerTag ∨
        r.standard = .edifact ∧ p.isAdvised ∧ s.tag = "UNA")
      (hx : starts ElementName.interchange (Emission.events x.emissions) =
        [Envelope.startAttributes r.standard s]) : Headed r x
  | failed (e : Error) (hx : x.emissions = []) (ho : x.offers = []) (hr : x.result = .error e)
      (hs : ∀ p s, r.HeadedBy p s → s.tag ≠ r.standard.headerTag ∧
        e = .missingHeader r.standard.headerTag s.tag) : Headed r x

theorem headedBy_of_readHeader {r₀ : Reader} (h : r.readHeader = (.ok s, r₀)) :
    ∃ p, r.HeadedBy p s ∧ r.standard.role s.tag = .interchangeHeader := by
  obtain ⟨preview, t, p, u, hk, hp, hs, hr, -⟩ := readHeader_eq_ok h
  exact ⟨p, ⟨preview, t, u, hk, hp, hs⟩, hr⟩

theorem HeadedBy.readHeader_error {r₀ : Reader} {e : Error} (h : r.HeadedBy p s)
    (hr : r.readHeader = (.error e, r₀)) : r.standard.role s.tag ≠ .interchangeHeader ∧
      e = .missingHeader r.standard.headerTag s.tag := by
  obtain ⟨preview, t, u, hk, hp, hs⟩ := h
  rw [readHeader_of_preamble hk hp] at hr
  simp only [hs] at hr
  split at hr
  · next hrole =>
    obtain ⟨he, -⟩ := Prod.mk.inj hr
    exact ⟨hrole, (Except.error.inj he).symm⟩
  · simp at hr

theorem parse_headed (policy : Policy) (earlier : List Problem) (h : r.envelope = none) :
    r.Headed (r.parse policy earlier).1 := by
  rcases hh : r.readHeader with ⟨e | s, r₀⟩
  · rw [parse_of_readHeader_error policy earlier h hh]
    refine .failed e rfl rfl rfl fun p s hs ↦ ?_
    obtain ⟨hrole, he⟩ := hs.readHeader_error hh
    exact ⟨fun ht ↦ hrole (hs.role_iff.2 (.inl ht)), he⟩
  · obtain ⟨p, hp, hrole⟩ := headedBy_of_readHeader hh
    obtain ⟨e, -, hl, -⟩ := run_leftAt (Envelope.starts_stable _) policy earlier
      (Envelope.start r.standard s) r₀ (Envelope.start_keeps r.standard s)
    rw [parse_of_readHeader policy earlier h hh]
    exact .begun p s hp (hp.role_iff.1 hrole) hl

end Reader

theorem Reading.starts_framed (x : Reading (List Closing)) :
    starts ElementName.interchange (Emission.events x.framed.emissions) =
      starts ElementName.interchange (Emission.events x.emissions) := by
  have hd : starts ElementName.interchange (Emission.events Emission.documentOpening) = [] := by
    decide
  have hc : starts ElementName.interchange (Emission.events Emission.documentClosing) = [] := by
    decide
  cases h : x.result with
  | ok cs => simp [framed_emissions_of_ok h, hd, hc]
  | error e => simp [framed_emissions_of_error h, hd]

theorem starts_parseStream (policy : Policy) (options : Options) (source : Source) :
    starts ElementName.interchange
        (Emission.events (parseStream policy options source).emissions) =
      (readings policy options source).flatMap fun y ↦
        starts ElementName.interchange (Emission.events y.1.emissions) := by
  simp only [parseStream, readings]
  rcases hr : Reader.open? options source with e | _ | r
  · rfl
  · rw [Reading.starts_framed]
    rfl
  · rw [Reading.starts_framed]
    dsimp only
    rw [r.parseAll_emissions policy options []]
    generalize r.readings policy options [] = xs
    induction xs with
    | nil => rfl
    | cons x xs ih => simp [ih]

/-- Every interchange that a stream starts has its header: `ISA`, `UNB` or `STX`, or else a segment
`UNA` where a service string advice has promised a `UNB`. Where another segment stands in this
place, the reading fails because of it and hands out nothing. -/
theorem interchanges_headed (policy : Policy) (options : Options) (source : Source) :
    starts ElementName.interchange
        (Emission.events (parseStream policy options source).emissions) =
      ((readings policy options source).flatMap fun y ↦
        starts ElementName.interchange (Emission.events y.1.emissions)) ∧
    (∀ y ∈ readings policy options source, ∃ rest r earlier,
      Reader.resume options rest = .ok (some r) ∧ y = r.parse policy earlier ∧ r.Headed y.1) ∧
    ∀ r : Reader, r.envelope = none → ∀ earlier, r.Headed (r.parse policy earlier).1 := by
  refine ⟨starts_parseStream policy options source, ?_, ?_⟩
  · intro y hy
    obtain ⟨rest, r, earlier, hr, rfl⟩ := eq_parse_of_mem_readings hy
    exact ⟨rest, r, earlier, hr, rfl, r.parse_headed policy earlier (Reader.resume_envelope hr)⟩
  · intro r hr earlier
    exact r.parse_headed policy earlier hr

/-- After the service string comes a segment that is no header. -/
theorem interchanges_headed_foreign :
    let text := "UNA:+.? 'UNC+UNOC:3+A+B+240101:1200+1'UNZ+0+1'".toList
    let r : Reader :=
      { standard := .edifact
        scanner := ((Scanner.ofRemainder { field := '*', terminator := '~' } {}
          { source := .text text }).skipBlank.2.peek Standard.quotedLength).2
        tables := {} }
    let x := (r.parse .lenient []).1
    Reader.open? {} (.text text) = .ok (some r) ∧ r.Headed x ∧ x.emissions = [] ∧
      x.result = .error (.missingHeader "UNB" "UNC") := by
  intro text r x
  refine ⟨by decide +kernel, ?_, by decide +kernel, by decide +kernel⟩
  exact (interchanges_headed .lenient {} (.text text)).2.2 r rfl []

/-- After the service string comes another segment `UNA`, and there is no `UNB`. -/
theorem interchanges_headed_twice_advised :
    let text := "UNA:+.? 'UNA+UNOC:3+A+B+240101:1200+1'UNZ+0+1'".toList
    let r : Reader :=
      { standard := .edifact
        scanner := ((Scanner.ofRemainder { field := '*', terminator := '~' } {}
          { source := .text text }).skipBlank.2.peek Standard.quotedLength).2
        tables := {} }
    let x := parseStream .lenient {} (.text text)
    Reader.open? {} (.text text) = .ok (some r) ∧
      r.readHeader.1.toOption.map (·.tag) = some "UNA" ∧
      (starts ElementName.interchange (Emission.events x.emissions)).length = 1 ∧
      x.result ≠ .error (.missingHeader "UNB" "UNA") := by
  decide +kernel

end Edi
