import Edi.Proofs.Ending
import Edi.Proofs.Faults
import Edi.Proofs.Reader.State
import Edi.Proofs.Refusal

namespace Edi.Reader

variable {policy : Policy} {options : Options} {earlier : List Problem} {rest : Remainder}
  {r : Reader}

/-- Asks a reader for its interchange several times, each time with a policy and with the problems
that this has seen before. -/
def parses : List (Policy × List Problem) → Reader → List (Reading Closing) × Reader
  | [], r => ([], r)
  | (policy, earlier) :: calls, r =>
    let x := r.parse policy earlier
    let xs := x.2.parses calls
    (x.1 :: xs.1, xs.2)

def tooLate : Reading Closing := { result := .error (.internal "interchange already parsed") }

theorem parses_of_parsed (h : r.envelope.isSome) (calls : List (Policy × List Problem)) :
    r.parses calls = (calls.map fun _ ↦ tooLate, r) := by
  obtain ⟨e, he⟩ := Option.isSome_iff_exists.1 h
  induction calls with
  | nil => rfl
  | cons call calls ih =>
    have hp : r.parse call.1 call.2 = (tooLate, r) := by simp only [parse, he, tooLate]
    simp only [parses, hp, ih, List.map_cons]

/-- A first reading hands out something, or fails without a trace in the header. -/
theorem parse_begins_or_fails (policy : Policy) (earlier : List Problem) (h : r.envelope = none) :
    ((r.parse policy earlier).1.emissions ≠ [] ∧ (r.parse policy earlier).2.envelope.isSome) ∨
      ∃ e, (r.parse policy earlier).1 = { result := .error e } ∧
        (r.parse policy earlier).2.envelope = none ∧
        (r.parse policy earlier).2.recovered = r.recovered := by
  rcases hh : r.readHeader with ⟨e | header, r₀⟩
  · have he : r₀.envelope = none := by rw [← h, ← r.readHeader_envelope, hh]
    have hr : r₀.recovered = r.recovered := by rw [← r.readHeader_recovered, hh]
    rw [parse_of_readHeader_error policy earlier h hh]
    exact .inr ⟨e, rfl, he, hr⟩
  · obtain ⟨e, he, hx, -⟩ := run_leftAt Envelope.emitted_stable policy earlier
      (Envelope.start r.standard header) r₀ (Envelope.Emitted.start r.standard header)
    rw [parse_of_readHeader policy earlier h hh, he]
    refine .inl ⟨fun hn ↦ hx.nonempty ?_, rfl⟩
    simp [hn, Emission.events]

theorem parse_ne_internal_of_settled (hs : r.scanner.cursor.Settled) (h : r.envelope = none)
    (message : String) : (r.parse policy earlier).1.result ≠ .error (.internal message) := by
  intro he
  by_cases hk : r.scanner.cursor.Readable
  · rcases parse_fault h hk he with hp | hf
    · exact hp.not_internal
    · exact hf.not_internal
  · have hh := readHeader_of_settled hs hk
    rcases hrh : r.readHeader with ⟨answer, r₀⟩
    rw [hrh] at hh
    obtain rfl : answer = _ := hh
    simp [parse, h, hrh] at he

theorem parses_unbegun (hs : r.scanner.cursor.Settled) (h : r.envelope = none)
    (calls : List (Policy × List Problem)) (hx : ∀ x ∈ (r.parses calls).1, x.emissions = []) :
    (∀ x ∈ (r.parses calls).1, ∃ e, x = { result := .error e }) ∧
      (r.parses calls).2.scanner.cursor.Settled ∧ (r.parses calls).2.envelope = none ∧
      (r.parses calls).2.recovered = r.recovered := by
  induction calls generalizing r with
  | nil => exact ⟨by simp [parses], hs, h, rfl⟩
  | cons call calls ih =>
    obtain ⟨policy, earlier⟩ := call
    simp only [parses, List.forall_mem_cons] at hx ⊢
    obtain ⟨hn, -⟩ | ⟨e, he, hr, hrec⟩ := parse_begins_or_fails policy earlier h
    · exact absurd hx.1 hn
    · obtain ⟨hes, hcs, hers, hrecs⟩ :=
        ih (Cursor.settled_invariant.parse policy earlier hs) hr hx.2
      exact ⟨⟨⟨e, he⟩, hes⟩, hcs, hers, hrecs.trans hrec⟩

theorem parses_begun (h : r.envelope = none) (calls : List (Policy × List Problem))
    (hx : ∃ x ∈ (r.parses calls).1, x.emissions ≠ []) : (r.parses calls).2.envelope.isSome := by
  induction calls generalizing r with
  | nil => simp [parses] at hx
  | cons call calls ih =>
    obtain ⟨policy, earlier⟩ := call
    simp only [parses, List.mem_cons, exists_eq_or_imp] at hx ⊢
    obtain ⟨-, hr⟩ | ⟨e, he, hr, -⟩ := parse_begins_or_fails policy earlier h
    · rwa [parses_of_parsed hr calls]
    · refine ih hr (hx.resolve_left ?_)
      simp [he]

/-- A reader parses once, if this means to come past the header: after a call that has handed out
anything, however it ended, every call is answered by the same error and changes nothing. Calls
before that have failed in the header and left nothing behind but the place that they came to, and
the next one tries again from there. -/
theorem parses_once (h : resume options rest = .ok (some r))
    (calls : List (Policy × List Problem)) :
    let xs := (r.parses calls).1
    let r' := (r.parses calls).2
    ((∃ x ∈ xs, x.emissions ≠ []) →
      ∀ later, r'.parses later = (later.map fun _ ↦ tooLate, r')) ∧
    ((∀ x ∈ xs, x.emissions = []) →
      (∀ x ∈ xs, ∃ e, x = { result := .error e }) ∧ r'.phase = .beforeInterchange ∧
        r'.recovered = [] ∧
        ∀ policy earlier message,
          (r'.parse policy earlier).1.result ≠ .error (.internal message)) := by
  intro xs r'
  have hs : r.scanner.cursor.Settled :=
    Cursor.settled_invariant.resume (Cursor.settled_ofRemainder _ _) h
  constructor
  · exact fun hx ↦ parses_of_parsed (parses_begun (resume_envelope h) calls hx)
  · intro hx
    obtain ⟨he, hc, hr, hrec⟩ := parses_unbegun hs (resume_envelope h) calls hx
    refine ⟨he, by simp [r', phase, hr], hrec.trans (resume_recovered h), ?_⟩
    exact fun policy earlier message ↦ parse_ne_internal_of_settled hc hr message

/-- The header is found at the second call, which a refusal ends. -/
theorem parses_once_refused :
    let text := "UNBX+A'UNB+UNOC:3+A+B+240101:1200+1'UNZ+7+1'".toList
    let rest : Remainder := { source := .text text }
    let r : Reader :=
      { standard := .edifact
        scanner := ((Scanner.ofRemainder { field := '*', terminator := '~' } {}
          rest).skipBlank.2.peek Standard.quotedLength).2
        tables := {} }
    let r' := (r.parses [(.strict, []), (.strict, [])]).2
    resume {} rest = .ok (some r) ∧
      (∃ x ∈ (r.parses [(.strict, []), (.strict, [])]).1, x.emissions ≠ []) ∧
      r'.parses [(.lenient, []), (.lenient, [])] = ([tooLate, tooLate], r') := by
  intro text rest r r'
  have hr : resume {} rest = .ok (some r) := by decide +kernel
  have hx : ∃ x ∈ (r.parses [(.strict, []), (.strict, [])]).1, x.emissions ≠ [] := by
    decide +kernel
  exact ⟨hr, hx, (parses_once hr _).1 hx _⟩

/-- After a segment that is no header the same reader parses the interchange that follows. -/
theorem parses_once_misheaded :
    let text := "UNBX+A'UNB+UNOC:3+A+B+240101:1200+1'UNZ+0+1'".toList
    let rest : Remainder := { source := .text text }
    let r : Reader :=
      { standard := .edifact
        scanner := ((Scanner.ofRemainder { field := '*', terminator := '~' } {}
          rest).skipBlank.2.peek Standard.quotedLength).2
        tables := {} }
    let first := r.parse .lenient []
    let second := first.2.parse .lenient []
    resume {} rest = .ok (some r) ∧
      first.1.result = .error (.missingHeader "UNB" "UNBX") ∧
      second.1.result.toBool ∧ second.1.emissions.length = 11 ∧
      second.2.scanner.offset = 44 ∧ second.2.phase = .done := by
  decide +kernel

end Edi.Reader
