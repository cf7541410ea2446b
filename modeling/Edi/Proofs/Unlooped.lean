import Edi.Proofs.Envelope.Unlooped
import Edi.Proofs.Reader.Resume
import Edi.Proofs.Readings

namespace Edi

def Reading.unlooped {α : Type} (x : Reading α) : Reading α :=
  { x with emissions := Emission.unlooped x.emissions }

def Settlement.unlooped (s : Settlement) : Settlement :=
  { s with emissions := Emission.unlooped s.emissions, envelope := s.envelope.unlooped }

namespace Settlement

@[simp] theorem unlooped_refused (s : Settlement) : s.unlooped.refused = s.refused := rfl

@[simp] theorem unlooped_offers (s : Settlement) : s.unlooped.offers = s.offers := rfl

@[simp] theorem unlooped_envelope (s : Settlement) :
    s.unlooped.envelope = s.envelope.unlooped := rfl

end Settlement

variable {policy : Policy} {options : Options} {earlier : List Problem}

theorem Reading.unlooped_after {α : Type} (emissions : List Emission) (offers : List Offer)
    (x : Reading α) : (x.after emissions offers).unlooped =
      x.unlooped.after (Emission.unlooped emissions) offers := by
  simp [unlooped, after]

theorem Transition.settle_unlooped (t : Transition) :
    t.unlooped.settle policy earlier = (t.settle policy earlier).unlooped := by
  simp only [settle, unlooped]
  split <;> simp [Settlement.unlooped, Emission.unlooped_map_event]

namespace Reader

def unlooped (r : Reader) : Reader :=
  { r with tables := {}, envelope := r.envelope.map Envelope.unlooped }

theorem readHeader_unlooped (r : Reader) :
    r.unlooped.readHeader = (r.readHeader.1, r.readHeader.2.unlooped) := by
  simp only [readHeader, unlooped]
  rcases r.scanner.peek r.standard.previewLength with ⟨e | preview, t⟩
  · rfl
  · dsimp only
    cases r.standard.preamble t.trims preview with
    | error e => rfl
    | ok p =>
      dsimp only
      rcases readHeaderSegment r.standard r.scanner.offset p { t with delimiters := p.delimiters }
        with ⟨e | header, u⟩
      · rfl
      · by_cases hr : r.standard.role header.tag = .interchangeHeader <;>
          simp only [hr, ne_eq, not_true_eq_false, not_false_eq_true, ↓reduceIte]

theorem run_unlooped (policy : Policy) (earlier : List Problem) (t : Transition) (r : Reader) :
    r.unlooped.run policy earlier t.unlooped =
      ((r.run policy earlier t).1.unlooped, (r.run policy earlier t).2.unlooped) := by
  induction hb : r.scanner.bound using Nat.strongRecOn generalizing earlier t r with
  | ind n ih =>
    have hs : r.unlooped.scanner.segment = r.scanner.segment := rfl
    have ht : r.unlooped.tables = {} := rfl
    rw [run_eq policy earlier t.unlooped r.unlooped, run_eq policy earlier t r,
      Transition.settle_unlooped]
    generalize t.settle policy earlier = x
    simp only [Settlement.unlooped_refused, Settlement.unlooped_envelope,
      Settlement.unlooped_offers, Envelope.unlooped_phase, hs, ht]
    cases hr : x.refused with
    | some p => rfl
    | none =>
      by_cases hdone : x.envelope.phase = .done
      · simp only [hdone, ↓reduceIte]
        rfl
      · simp only [hdone, ↓reduceIte]
        rcases hsu : r.scanner.segment with ⟨e | _ | s, u⟩
        · rfl
        · simp only [Envelope.unlooped_missingTrailer]
          rfl
        · simp only [← Envelope.step_unlooped r.tables]
          cases hn : x.envelope.step r.tables s with
          | error e => rfl
          | ok next =>
            have hrest := ih _ (hb ▸ Scanner.segment_lt hsu)
              (earlier ++ x.offers.map (·.problem)) next
              { r with
                scanner := u
                envelope := some x.envelope
                recovered := r.recovered ++ x.offers.filterMap Offer.accepted? } rfl
            simp only [Except.map]
            exact Prod.ext ((congrArg (Reading.after _ _ ·.1) hrest).trans
              (Reading.unlooped_after _ _ _).symm) (congrArg (·.2) hrest)

theorem parse_unlooped (policy : Policy) (earlier : List Problem) (r : Reader) :
    r.unlooped.parse policy earlier =
      ((r.parse policy earlier).1.unlooped, (r.parse policy earlier).2.unlooped) := by
  cases he : r.envelope with
  | some e => simp [parse, he, unlooped, Reading.unlooped, Emission.unlooped]
  | none =>
    have he' : r.unlooped.envelope = none := by simp [unlooped, he]
    simp only [parse, he, he', readHeader_unlooped]
    rcases r.readHeader with ⟨e | header, u⟩
    · rfl
    · dsimp only
      rw [← Envelope.start_unlooped u.standard header, ← run_unlooped]
      rfl

theorem result_unlooped (policy : Policy) (earlier : List Problem) (r : Reader) :
    (r.unlooped.parse policy earlier).1.result = (r.parse policy earlier).1.result := by
  rw [parse_unlooped]
  rfl

theorem remainder_unlooped (r : Reader) : r.unlooped.remainder = r.remainder := rfl

theorem resume_unlooped (options : Options) (rest : Remainder) :
    resume { options with tables := {} } rest =
      (resume options rest).map (Option.map unlooped) := by
  simp only [resume]
  split
  · rfl
  · rfl
  · split
    · rfl
    · next preview t _ =>
      rcases Standard.detect preview with _ | _ | standard <;> rfl

theorem parseAll_unlooped (policy : Policy) (options : Options) (earlier : List Problem)
    (r : Reader) : r.unlooped.parseAll policy { options with tables := {} } earlier =
      (r.parseAll policy options earlier).unlooped := by
  fun_induction parseAll policy options earlier r with
  | case1 earlier r one e h =>
    rw [parseAll_of_error ((result_unlooped ..).trans h), parse_unlooped]
    rfl
  | case2 earlier r one c h e hr | case3 earlier r one c h hr =>
    rw [parseAll_of_ok ((result_unlooped ..).trans h), parse_unlooped]
    simp only [remainder_unlooped, resume_unlooped, one, hr, Except.map]
    rfl
  | case4 earlier r one c h next hr rest _ ih =>
    rw [parseAll_of_ok ((result_unlooped ..).trans h), parse_unlooped]
    simp only [remainder_unlooped, resume_unlooped, one, hr, Except.map, Option.map_some]
    have ih' : next.unlooped.parseAll policy { options with tables := {} }
      (earlier ++ (r.parse policy earlier).1.offers.map (·.problem)) = rest.unlooped := ih
    simp only [Reading.unlooped, Reading.after, ih']
    rw [← Emission.unlooped_append]
    rfl

theorem readings_unlooped (policy : Policy) (options : Options) (earlier : List Problem)
    (r : Reader) : r.unlooped.readings policy { options with tables := {} } earlier =
      (r.readings policy options earlier).map fun (x, u) ↦ (x.unlooped, u.unlooped) := by
  induction earlier, r using readings.induct policy options with
  | case1 earlier r one ih =>
    cases h : one.1.result with
    | error e =>
      rw [readings_of_error h, readings_of_error ((result_unlooped ..).trans h), parse_unlooped]
      rfl
    | ok c =>
      rw [readings_of_ok h, readings_of_ok ((result_unlooped ..).trans h), parse_unlooped]
      simp only [remainder_unlooped, resume_unlooped]
      rcases hr : resume options one.2.remainder with e | _ | next
      · rfl
      · rfl
      · simpa [one, hr, Except.map, Reading.unlooped] using ih c h next hr

end Reader

theorem Reading.unlooped_framed (x : Reading (List Closing)) :
    x.framed.unlooped = x.unlooped.framed := by
  cases h : x.result <;>
    simp [framed, unlooped, Emission.unlooped, h, Event.isLoop, Event.name?, ElementName.root,
      ElementName.loop]

theorem readings_unlooped (policy : Policy) (options : Options) (source : Source) :
    readings policy { options with tables := {} } source =
      (readings policy options source).map fun (x, u) ↦ (x.unlooped, u.unlooped) := by
  simp only [readings, Reader.open?, Reader.resume_unlooped]
  rcases Reader.resume options { source } with e | _ | r
  · rfl
  · rfl
  · exact r.readings_unlooped policy options []

theorem parseStream_eq_unlooped (policy : Policy) (options : Options) (source : Source) :
    parseStream policy { options with tables := {} } source =
      (parseStream policy options source).unlooped := by
  simp only [parseStream, Reader.open?, Reader.resume_unlooped]
  rcases Reader.resume options { source } with e | _ | r
  · rfl
  · rfl
  · simp only [Except.map, Option.map_some, Reader.parseAll_unlooped, Reading.unlooped_framed]

/-- Loop tables put loops around the segments and do nothing else: neither the other events, the
notices, the problems and the outcome nor the way through the stream depend on them. -/
theorem tables_noninterference (policy : Policy) (options : Options) (source : Source) :
    let x := parseStream policy options source
    let y := parseStream policy { options with tables := {} } source
    (Emission.events x.emissions).filter (!·.isLoop) = Emission.events y.emissions ∧
      y.result = x.result ∧ y.offers = x.offers ∧
      Emission.closings y.emissions = Emission.closings x.emissions ∧
      Emission.unlooped x.emissions = y.emissions ∧
      (readings policy { options with tables := {} } source).map (·.2.scanner) =
        (readings policy options source).map (·.2.scanner) := by
  simp only [parseStream_eq_unlooped, readings_unlooped, List.map_map]
  exact ⟨(Emission.events_unlooped _).symm, rfl, rfl, Emission.closings_unlooped _, rfl, rfl⟩

end Edi
