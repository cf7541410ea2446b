import Edi.Proofs.Delimiters
import Edi.Proofs.Envelope.Standing
import Edi.Proofs.Reader.Accepted
import Edi.Proofs.Reader.Header
import Edi.Proofs.Reader.Invariant
import Edi.Proofs.Scanner.Conservation
import Edi.Proofs.Scanner.Frame
import Edi.Proofs.Scanner.Segments
import Edi.Proofs.Segment.Feed
import Mathlib.Data.List.Basic

namespace Edi

theorem Segment.recognizer_feed_ok {d : Delimiters} {trims : Bool} {maxLength start offset : Nat}
    {p : Part} {c : Char} {k : CharClass} {s : Segment}
    (h : (recognizer d trims maxLength start).feed p offset c k = .take (.ok s)) :
    k = .terminator ∧ s.span.stop = offset := by
  cases recognizer_feed_eq_take h with
  | tag hk => exact ⟨hk, rfl⟩
  | body ho => exact ⟨Occurrence.step_ended ho, rfl⟩

structure Scanner.EndsAt (s : Segment) (terminator : Char) (t : Scanner) : Prop where
  offset : t.offset = s.span.stop
  last : t.cursor.last = .character
  behind : t.cursor.behind.head? = some terminator

theorem Scanner.segment_endsAt {t u : Scanner} {s : Segment} (h : t.segment = (.ok (some s), u)) :
    u.EndsAt s t.delimiters.terminator := by
  simp only [segment] at h
  split at h
  · simp at h
  · simp at h
  · next v hv =>
    have hd : v.delimiters = t.delimiters := by rw [← t.skipBlank_delimiters, hv]
    split at h
    · simp at h
    · next w hr =>
      obtain ⟨hs, rfl⟩ := Prod.mk.inj h
      obtain rfl := Option.some.inj (Except.ok.inj hs)
      obtain ⟨x, c, p, hx, hm⟩ := recognize_taken (Segment.recognizer_feed_ne_leave _ _ _ _)
        (Segment.recognizer_finish_ne_ok _ _ _ _) hr
      obtain ⟨hk, ho⟩ := Segment.recognizer_feed_ok hm
      have hc : some v.delimiters.terminator = some c :=
        Delimiters.character?_of_classify hk (by simp)
      obtain rfl := hd ▸ Option.some.inj hc
      have hb := next_behind hx
      exact ⟨ho.symm, (next_eq_some hx).2, hb⟩

theorem Envelope.Passes.phase_done_iff {tables : LoopTables} {s : Segment} {e : Envelope}
    {role : Role} {t : Transition} (hp : e.phase ≠ .done) (h : Passes tables s e role t) :
    t.next.phase = .done ↔ role = .interchangeTrailer := by
  cases h with
  | data d role hr hd => rcases hr with rfl | rfl <;> simp [dataMet, Transition.plain]
  | groupHeader => simp [groupOpened]
  | groupTrailer => simp [groupClosed]
  | documentHeader => simp [documentOpened]
  | documentTrailer => simp [documentClosed]
  | interchangeTrailer => simp [interchangeClosed]
  | interchangeData => simpa [Transition.plain] using hp

/-- The first of the segments still to be read that is the trailer of an interchange. -/
def Scanner.trailer? (standard : Standard) (t : Scanner) : Option Segment :=
  t.segments.find? (standard.role ·.tag = .interchangeTrailer)

namespace Reader

variable {policy : Policy} {earlier : List Problem} {tr : Transition} {r : Reader} {c : Closing}

theorem accepts_of_run (h : (r.run policy earlier tr).1.result = .ok c) :
    policy.Accepts earlier tr.problems := by
  rcases Policy.accepts_or_refuses policy earlier tr.problems with ha | ⟨ps, p, qs, ht, ha, hp⟩
  · exact ha
  · rw [run_eq, Transition.settle_of_refuses ht ha hp] at h
    simp at h

theorem run_endsAt (hd : tr.next.phase ≠ .done)
    (h : (r.run policy earlier tr).1.result = .ok c) :
    ∃ s, r.scanner.trailer? tr.next.standard = some s ∧
      (r.run policy earlier tr).2.scanner.EndsAt s r.scanner.delimiters.terminator := by
  induction hb : r.scanner.bound using Nat.strongRecOn generalizing earlier tr r with
  | ind n ih =>
    have hr := run_of_accepts (accepts_of_run h) r
    simp only [hd, ↓reduceIte] at hr
    rcases hs : r.scanner.segment with ⟨e | _ | s, u⟩ <;> simp only [hs] at hr
    · simp [hr] at h
    · simp [hr] at h
    · cases hn : tr.next.step r.tables s with
      | error e => simp [hr, hn] at h
      | ok next =>
        simp only [hn] at hr
        rw [hr] at h ⊢
        have hp := Envelope.step_eq_ok hn
        have hu : u.delimiters = r.scanner.delimiters := by
          rw [← r.scanner.segment_delimiters, hs]
        rw [Scanner.trailer?, Scanner.segments_of_segment hs]
        by_cases hx : next.next.phase = .done
        · have hl := run_of_accepts (accepts_of_run h)
          simp only [hx, ↓reduceIte] at hl
          refine ⟨s, ?_, ?_⟩
          · simp [(hp.phase_done_iff hd).1 hx]
          · rw [hl]
            exact Scanner.segment_endsAt hs
        · obtain ⟨s', hs', he⟩ := ih _ (hb ▸ Scanner.segment_lt hs) hx h rfl
          refine ⟨s', ?_, hu ▸ he⟩
          rw [hp.standard] at hs'
          simpa [Scanner.trailer?, mt (hp.phase_done_iff hd).2 hx] using hs'

theorem parse_endsAt (h : (r.parse policy earlier).1.result = .ok c) :
    ∃ header r₀ s, r.readHeader = (.ok header, r₀) ∧
      r₀.scanner.trailer? r.standard = some s ∧
      (r.parse policy earlier).2.scanner.EndsAt s r₀.scanner.delimiters.terminator := by
  simp only [parse] at h ⊢
  split at h
  · simp at h
  · rcases hh : r.readHeader with ⟨e | header, r₀⟩ <;> simp only [hh] at h
    · simp at h
    · have hd : (Envelope.start r₀.standard header).next.phase ≠ .done := by simp [Envelope.start]
      obtain ⟨s, hs, he⟩ := run_endsAt hd h
      refine ⟨header, r₀, s, rfl, ?_, he⟩
      rw [← standard_of_readHeader hh]
      exact hs

/-- The readers that reading a text may come to, by opening it, by reading interchanges whether or
not this succeeds, and by looking for another interchange in what a reader leaves. -/
inductive Reached (text : List Char) : Reader → Prop
  | opened (options : Options) {r : Reader} (h : open? options (.text text) = .ok (some r)) :
      Reached text r
  | parsed (policy : Policy) (earlier : List Problem) {r : Reader} (h : Reached text r) :
      Reached text (r.parse policy earlier).2
  | resumed (options : Options) {r r' : Reader} (h : Reached text r)
      (hr : resume options r.remainder = .ok (some r')) : Reached text r'

theorem Reached.within {text : List Char} (h : Reached text r) :
    r.scanner.cursor.ReadsText ∧ r.scanner.cursor.Within text := by
  have hp := Cursor.within_invariant text
  induction h with
  | opened options h => exact hp.resume (Cursor.within_start text _) h
  | parsed policy earlier h ih => exact hp.parse policy earlier ih
  | resumed options h hr ih => exact hp.resume (Cursor.within_ofRemainder ih.1 ih.2 _) hr

end Reader

/-- No character of a text is lost or read twice, neither by a scanner, whatever is done with it,
nor by readers, and an interchange that is read well ends just after the terminator of its
trailer. -/
theorem characters_conserved (text : List Char) :
    (∀ delimiters limits (ops : List Scanner.Operation),
      (ops.foldl Scanner.perform
        (.ofRemainder delimiters limits { source := .text text })).Conserves text) ∧
    (∀ r, Reader.Reached text r → r.scanner.Conserves text) ∧
    ∀ r, Reader.Reached text r → ∀ policy earlier c,
      (r.parse policy earlier).1.result = .ok c →
      ∃ header r₀ s n, r.readHeader = (.ok header, r₀) ∧
        r₀.scanner.trailer? r.standard = some s ∧
        (r.parse policy earlier).2.scanner.offset = s.span.stop ∧ s.span.stop = n + 1 ∧
        text[n]? = some r₀.scanner.delimiters.terminator := by
  refine ⟨?_, ?_, ?_⟩
  · intro delimiters limits ops
    obtain ⟨hs, hw⟩ := Scanner.foldl_perform_within ops
      (t := .ofRemainder delimiters limits { source := .text text }) (Cursor.within_start text _)
    exact Scanner.conserves_of_within hs hw
  · intro r hr
    exact Scanner.conserves_of_within hr.within.1 hr.within.2
  · intro r hr policy earlier c hc
    obtain ⟨header, r₀, s, hh, hs, he⟩ := Reader.parse_endsAt hc
    obtain ⟨n, d, hn, hd, ht⟩ := (hr.parsed policy earlier).within.2.behind he.last
    obtain rfl := Option.some.inj (he.behind.symm.trans hd)
    exact ⟨header, r₀, s, n, hh, hs, he.offset, he.offset ▸ hn, ht⟩

/-- Two interchanges of different standards, and a third that breaks off. -/
theorem characters_conserved_thrice :
    let text := "UNB+UNOC:3+A+B+240101:1200+1'UNZ+0+1' STX=ANA:1+A+B+240101+R'END=0'\nUNB+".toList
    let reader (standard : Standard) (rest : Remainder) : Reader :=
      { standard
        scanner :=
          ((Scanner.ofRemainder { field := '*', terminator := '~' } {} rest).skipBlank.2.peek
            Standard.quotedLength).2
        tables := {} }
    let r₁ := reader .edifact { source := .text text }
    let r₂ := reader .tradacoms (r₁.parse .strict []).2.remainder
    let r₃ := reader .edifact (r₂.parse .strict []).2.remainder
    Reader.Reached text r₃ ∧ r₃.scanner.offset = 68 ∧ r₃.scanner.Conserves text ∧
      (r₃.parse .strict []).2.scanner.Conserves text ∧
      ∃ header r₀ s n, r₂.readHeader = (.ok header, r₀) ∧
        r₀.scanner.trailer? .tradacoms = some s ∧
        (r₂.parse .strict []).2.scanner.offset = s.span.stop ∧ s.span.stop = n + 1 ∧
        text[n]? = some r₀.scanner.delimiters.terminator := by
  intro text reader r₁ r₂ r₃
  have h₁ : Reader.Reached text r₁ := .opened {} (by decide +kernel)
  have h₂ : Reader.Reached text r₂ := (h₁.parsed .strict []).resumed {} (by decide +kernel)
  have h₃ : Reader.Reached text r₃ := (h₂.parsed .strict []).resumed {} (by decide +kernel)
  obtain ⟨-, hc, he⟩ := characters_conserved text
  refine ⟨h₃, by decide +kernel, hc _ h₃, hc _ (h₃.parsed .strict []), ?_⟩
  have hok : (r₂.parse .strict []).1.result.toBool := by decide +kernel
  cases hr : (r₂.parse .strict []).1.result with
  | error e => simp [hr, Except.toBool] at hok
  | ok c => exact he r₂ h₂ .strict [] c hr

end Edi
