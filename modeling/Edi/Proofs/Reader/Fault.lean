import Edi.Proofs.Envelope.Standing
import Edi.Proofs.Policy
import Edi.Proofs.Reader.Header
import Edi.Proofs.Reader.Resume
import Edi.Proofs.Scanner.Fault

namespace Edi

variable {policy : Policy} {options : Options} {earlier : List Problem} {e : Error}

namespace Reader

/-- Why the reading of an interchange breaks off once it is clear how it begins, and how the reader
is left. -/
inductive Fault (r : Reader) : Error → Prop
  | scanner {e : Error} (h : r.scanner.Fault e) : Fault r e
  | misheaded (found : String) : Fault r (.missingHeader r.standard.headerTag found)
  | outOfPlace (s : Segment) (place : String) : Fault r (s.outOfPlace place)
  | aborted (p : Problem) : Fault r (.aborted p)

variable {r r' : Reader} {t u : Scanner}

theorem Fault.not_internal {message : String} : ¬r.Fault (.internal message) := by
  intro h
  cases h with
  | scanner h =>
    cases h with
    | malformed h => cases h

theorem Fault.countsFromHeader (h : r.Fault e) : e.countsFromHeader = false := by
  cases h with
  | scanner h =>
    cases h with
    | io => rfl
    | ended offset he =>
      simpa only [Error.countsFromHeader, List.contains_eq_mem, decide_eq_false_iff_not] using he
    | malformed h => exact h.countsFromHeader
  | misheaded | outOfPlace | aborted => rfl

theorem Fault.exhausted {offset : Nat} {expected : String}
    (h : r.Fault (.unexpectedEnd offset expected)) : r.scanner.cursor.exhausted := by
  cases h with
  | scanner h =>
    cases h with
    | ended _ _ hu => exact hu
    | malformed h => cases h

theorem readHeaderSegment_answered {standard : Standard} {start : Nat} {p : Preamble}
    {answer : Except Error Segment} (ht : t.cursor.Readable)
    (h : readHeaderSegment standard start p t = (answer, u)) :
    (∃ e, answer = .error e ∧ u.Fault e) ∨ ∃ s, answer = .ok s ∧ u.cursor.Readable := by
  -- After a service string the header is read as where there is none.
  have hs {t : Scanner} (ht : t.cursor.Readable)
      (h : readHeaderSegment standard start (.implied p.delimiters) t = (answer, u)) :
      (∃ e, answer = .error e ∧ u.Fault e) ∨ ∃ s, answer = .ok s ∧ u.cursor.Readable := by
    simp only [readHeaderSegment] at h
    rcases hg : t.segment with ⟨x, v⟩
    rw [hg] at h
    rcases Scanner.segment_answered ht hg with ⟨e, rfl, hv⟩ | ⟨s, rfl, hv⟩ | ⟨rfl, hv⟩ <;>
      obtain ⟨rfl, rfl⟩ := Prod.mk.inj h
    · exact .inl ⟨e, rfl, hv⟩
    · exact .inr ⟨s, rfl, hv⟩
    · exact .inl ⟨_, rfl, .ended _ standard.headerTag_notMem hv⟩
  cases p with
  | implied d => exact hs ht h
  | decoded d n header =>
    simp only [readHeaderSegment] at h
    rcases hp : t.passSegment n with ⟨x, v⟩
    rw [hp] at h
    rcases Scanner.passSegment_answered ht hp with ⟨e, rfl, hv⟩ | ⟨rfl, hv⟩ <;>
      obtain ⟨rfl, rfl⟩ := Prod.mk.inj h
    · exact .inl ⟨e, rfl, hv⟩
    · exact .inr ⟨_, rfl, hv⟩
  | advised d n =>
    simp only [readHeaderSegment] at h
    rcases hp : t.passSegment n with ⟨x, v⟩
    rw [hp] at h
    rcases Scanner.passSegment_answered ht hp with ⟨e, rfl, hv⟩ | ⟨rfl, hv⟩
    · obtain ⟨rfl, rfl⟩ := Prod.mk.inj h
      exact .inl ⟨e, rfl, hv⟩
    · exact hs hv h

/-- How the interchange begins cannot be seen from a preview of it, and the reader is left as it
was but for what it has taken from the source. -/
def Puzzled (r : Reader) (e : Error) (r' : Reader) : Prop :=
  ∃ preview t, r.scanner.peek r.standard.previewLength = (.ok preview, t) ∧
    (preview.length < r.standard.previewLength → t.cursor.exhausted) ∧
    Preamble.Fault r.standard preview e ∧ r' = { r with scanner := t }

theorem readHeader_answered {answer : Except Error Segment} (hr : r.scanner.cursor.Readable)
    (h : r.readHeader = (answer, r')) :
    (∃ e, answer = .error e ∧ (r.Puzzled e r' ∨ r'.Fault e)) ∨
      ∃ s, answer = .ok s ∧ r'.scanner.cursor.Readable := by
  rcases hk : r.scanner.peek r.standard.previewLength with ⟨x, t⟩
  rcases Scanner.peek_answered hr hk with ⟨message, rfl⟩ | ⟨preview, rfl, ht, hx⟩
  · simp only [readHeader, hk] at h
    obtain ⟨rfl, rfl⟩ := Prod.mk.inj h
    exact .inl ⟨_, rfl, .inr (.scanner (.io message))⟩
  · cases hp : r.standard.preamble t.trims preview with
    | error e =>
      simp only [readHeader, hk, hp] at h
      obtain ⟨rfl, rfl⟩ := Prod.mk.inj h
      exact .inl ⟨e, rfl, .inl ⟨preview, t, hk, hx, Standard.preamble_eq_error hp, rfl⟩⟩
    | ok p =>
      rw [readHeader_of_preamble hk hp] at h
      have hd : ({ t with delimiters := p.delimiters } : Scanner).cursor.Readable := ht
      rcases hs : readHeaderSegment r.standard r.scanner.offset p
        { t with delimiters := p.delimiters } with ⟨y, u⟩
      rcases readHeaderSegment_answered hd hs with ⟨e, rfl, hu⟩ | ⟨header, rfl, hu⟩
      · simp only [hs] at h
        obtain ⟨rfl, rfl⟩ := Prod.mk.inj h
        exact .inl ⟨e, rfl, .inr (.scanner hu)⟩
      · simp only [hs] at h
        split at h <;> obtain ⟨rfl, rfl⟩ := Prod.mk.inj h
        · exact .inl ⟨_, rfl, .inr (.misheaded header.tag)⟩
        · exact .inr ⟨header, rfl, hu⟩

/-- A run fails only by a fault: its envelope is settled between any two segments, so that the
trailer of the interchange never comes before the header. -/
theorem run_fault (tr : Transition) (hn : tr.next.Settled) (hr : r.scanner.cursor.Readable)
    (h : (r.run policy earlier tr).1.result = .error e) :
    (r.run policy earlier tr).2.Fault e := by
  fun_induction run policy earlier tr r with
  | case1 earlier tr r s r' stop p =>
    obtain rfl := Except.error.inj h
    exact .aborted p
  | case2 => simp [*] at h
  | case3 earlier tr r s r' stop hs hd err u hu =>
    obtain rfl := Except.error.inj h
    obtain ⟨e, he, hf⟩ | ⟨s, hn, -⟩ | ⟨hn, -⟩ := Scanner.segment_answered hr hu
    · exact .scanner (Except.error.inj he ▸ hf)
    · simp at hn
    · simp at hn
  | case4 earlier tr r s r' stop hs hd u hu =>
    obtain rfl := Except.error.inj h
    obtain ⟨e, he, -⟩ | ⟨s, hn, -⟩ | ⟨-, hx⟩ := Scanner.segment_answered hr hu
    · simp at he
    · simp at hn
    · exact .scanner (.ended _ s.envelope.missingTrailer_notMem hx)
  | case5 earlier tr r s r' stop hs hd segment u hu err ht =>
    obtain rfl := Except.error.inj h
    obtain ⟨-, he⟩ := Transition.settle_passed hs
    obtain ⟨place, rfl⟩ := Envelope.step_eq_error ((he ▸ hn).pending hd) ht
    exact .outOfPlace segment place
  | case6 earlier tr r s r' hs hd segment u hu next ht rest ih =>
    obtain ⟨-, he⟩ := Transition.settle_passed hs
    obtain ⟨e, hn, -⟩ | ⟨s, -, hx⟩ | ⟨hn, -⟩ := Scanner.segment_answered hr hu
    · simp at hn
    · exact ih ((Envelope.step_eq_ok ht).settled (he ▸ hn) hd) hx h
    · simp at hn

/-- A first reading fails because the beginning of the interchange cannot be understood, or by a
fault. -/
theorem parse_fault (he : r.envelope = none) (hr : r.scanner.cursor.Readable)
    (h : (r.parse policy earlier).1.result = .error e) :
    r.Puzzled e (r.parse policy earlier).2 ∨ (r.parse policy earlier).2.Fault e := by
  simp only [parse, he] at h ⊢
  rcases hh : r.readHeader with ⟨answer, r₀⟩
  rcases readHeader_answered hr hh with ⟨err, rfl, hf⟩ | ⟨header, rfl, hr₀⟩
  · simp only [hh] at h ⊢
    obtain rfl := Except.error.inj h
    exact hf
  · simp only [hh] at h ⊢
    exact .inr (run_fault _ (Envelope.start_settled _ _) hr₀ h)

theorem readable_ofRemainder (delimiters : Delimiters) (limits : Limits) (rest : Remainder) :
    (Scanner.ofRemainder delimiters limits rest).cursor.Readable := LastRead.noConfusion

/-- Looking for an interchange fails because of the source, or because none is recognized. -/
theorem resume_eq_error {rest : Remainder} (h : resume options rest = .error e) :
    (∃ message, e = .io message) ∨ ∃ found, e = .unsupportedDialect found := by
  rcases hb : (Scanner.ofRemainder { field := '*', terminator := '~' } options.toLimits
    rest).skipBlank with ⟨x, t⟩
  rcases Scanner.skipBlank_answered (readable_ofRemainder _ _ _) hb with
    ⟨message, rfl⟩ | ⟨rfl, ht⟩ | ⟨rfl, -⟩
  · simp only [resume, hb] at h
    exact .inl ⟨message, (Except.error.inj h).symm⟩
  · rcases hk : t.peek Standard.quotedLength with ⟨y, u⟩
    rcases Scanner.peek_answered ht hk with ⟨message, rfl⟩ | ⟨preview, rfl, -⟩
    · simp only [resume, hb, hk] at h
      exact .inl ⟨message, (Except.error.inj h).symm⟩
    · simp only [resume, hb, hk] at h
      cases hd : Standard.detect preview with
      | ok o => simp [hd, Except.map] at h
      | error err =>
        simp only [hd, Except.map] at h
        obtain rfl := Except.error.inj h
        exact .inr (Standard.detect_eq_error hd)
  · simp [resume, hb] at h

theorem resume_readable {rest : Remainder} (h : resume options rest = .ok (some r)) :
    r.scanner.cursor.Readable := by
  obtain ⟨t, preview, hb, hk, -⟩ := resume_eq_some h
  obtain ⟨message, hn⟩ | ⟨-, ht⟩ | ⟨hn, -⟩ :=
    Scanner.skipBlank_answered (readable_ofRemainder _ _ _) hb
  · simp at hn
  · obtain ⟨message, hn⟩ | ⟨-, -, hr, -⟩ := Scanner.peek_answered ht hk
    · simp at hn
    · exact hr
  · simp at hn

end Reader

end Edi
