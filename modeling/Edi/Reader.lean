import Edi.Envelope.Preamble
import Edi.Envelope.Step
import Edi.Policy

namespace Edi

structure Options extends Limits where
  tables : LoopTables := {}
  deriving DecidableEq, Repr

/-- What a reading hands out, the problems it offered, and how it ended. -/
structure Reading (α : Type) where
  emissions : List Emission := []
  offers : List Offer := []
  result : Except Error α

namespace Reading

variable {α : Type}

def after (emissions : List Emission) (offers : List Offer) (r : Reading α) : Reading α :=
  { emissions := emissions ++ r.emissions, offers := offers ++ r.offers, result := r.result }

end Reading

structure Settlement where
  emissions : List Emission
  offers : List Offer
  envelope : Envelope
  refused : Option Problem

def Transition.settle (policy : Policy) (earlier : List Problem) (t : Transition) : Settlement :=
  let offers := policy.judge earlier t.problems
  match offers.findSome? Offer.refused? with
  | some p =>
    { emissions := t.announced.map .event, offers, envelope := t.halted, refused := some p }
  | none =>
    { emissions := t.announced.map .event ++ t.completed, offers, envelope := t.next,
      refused := none }

structure Reader where
  standard : Standard
  scanner : Scanner
  tables : LoopTables
  advised : Bool := false
  envelope : Option Envelope := none
  recovered : List Problem := []
  deriving DecidableEq, Repr

namespace Reader

def phase (r : Reader) : Phase := (r.envelope.map (·.phase)).getD .beforeInterchange

def loopPath (r : Reader) : String := (r.envelope.map (·.loopPath)).getD LoopRule.rootPath

def remainder (r : Reader) : Remainder := r.scanner.remainder

/-- Finds the next interchange, if there is one. The star and the tilde stand in for delimiters
that its header is yet to fix. -/
def resume (options : Options) (rest : Remainder) : Except Error (Option Reader) :=
  match (Scanner.ofRemainder { field := '*', terminator := '~' } options.toLimits rest).skipBlank
  with
  | (.error e, _) => .error e
  | (.ok false, _) => .ok none
  | (.ok true, t) =>
    match t.peek Standard.quotedLength with
    | (.error e, _) => .error e
    | (.ok preview, t) =>
      (Standard.detect preview).map fun standard ↦
        standard.map fun standard ↦ { standard, scanner := t, tables := options.tables }

def open? (options : Options) (source : Source) : Except Error (Option Reader) :=
  resume options { source }

def readHeaderSegment (standard : Standard) (start : Nat) (p : Preamble) (t : Scanner) :
    Except Error Segment × Scanner :=
  let segment (t : Scanner) : Except Error Segment × Scanner :=
    match t.segment with
    | (.error e, t) => (.error e, t)
    | (.ok none, t) => (.error (.unexpectedEnd t.offset standard.headerTag), t)
    | (.ok (some s), t) => (.ok s, t)
  match p with
  | .decoded _ length s =>
    match t.passSegment length with
    | (.error e, t) => (.error e, t)
    | (.ok (), t) => (.ok (s.shift start), t)
  | .advised _ length =>
    match t.passSegment length with
    | (.error e, t) => (.error e, t)
    | (.ok (), t) => segment t
  | .implied _ => segment t

/-- Reads the header of the interchange and brings its delimiters into force. -/
def readHeader (r : Reader) : Except Error Segment × Reader :=
  match r.scanner.peek r.standard.previewLength with
  | (.error e, t) => (.error e, { r with scanner := t })
  | (.ok preview, t) =>
    match r.standard.preamble t.trims preview with
    | .error e => (.error e, { r with scanner := t })
    | .ok p =>
      let advised := r.advised || p matches .advised ..
      match readHeaderSegment r.standard r.scanner.offset p { t with delimiters := p.delimiters }
      with
      | (.error e, t) => (.error e, { r with scanner := t, advised })
      | (.ok header, t) =>
        if r.standard.role header.tag ≠ .interchangeHeader then
          (.error (.missingHeader r.standard.headerTag header.tag),
            { r with scanner := t, advised })
        else
          (.ok header,
            { r with
              scanner :=
                { t with delimiters := r.standard.refine advised header p.delimiters }
              advised })

/-- Goes on from a transition: settles it, and reads segment after segment until one ends the
interchange or cannot be passed. -/
def run (policy : Policy) (earlier : List Problem) (transition : Transition) (r : Reader) :
    Reading Closing × Reader :=
  let s := transition.settle policy earlier
  let r := { r with
    envelope := some s.envelope
    recovered := r.recovered ++ s.offers.filterMap Offer.accepted? }
  let stop (result : Except Error Closing) : Reading Closing :=
    { emissions := s.emissions, offers := s.offers, result }
  match s.refused with
  | some p => (stop (.error (.aborted p)), r)
  | none =>
    if s.envelope.phase = .done then (stop (.ok (s.envelope.closing none)), r)
    else match _h : r.scanner.segment with
      | (.error e, t) => (stop (.error e), { r with scanner := t })
      | (.ok none, t) =>
        (stop (.error (.unexpectedEnd t.offset s.envelope.missingTrailer)),
          { r with scanner := t })
      | (.ok (some segment), t) =>
        match s.envelope.step r.tables segment with
        | .error e => (stop (.error e), { r with scanner := t })
        | .ok next =>
          let rest := run policy (earlier ++ s.offers.map (·.problem)) next
            { r with scanner := t }
          (rest.1.after s.emissions s.offers, rest.2)
termination_by r.scanner.bound
decreasing_by exact Scanner.segment_lt _h

theorem run_eq (policy : Policy) (earlier : List Problem) (transition : Transition) (r : Reader) :
    r.run policy earlier transition =
      let s := transition.settle policy earlier
      let r := { r with
        envelope := some s.envelope
        recovered := r.recovered ++ s.offers.filterMap Offer.accepted? }
      let stop (result : Except Error Closing) : Reading Closing :=
        { emissions := s.emissions, offers := s.offers, result }
      match s.refused with
      | some p => (stop (.error (.aborted p)), r)
      | none =>
        if s.envelope.phase = .done then (stop (.ok (s.envelope.closing none)), r)
        else match r.scanner.segment with
          | (.error e, t) => (stop (.error e), { r with scanner := t })
          | (.ok none, t) =>
            (stop (.error (.unexpectedEnd t.offset s.envelope.missingTrailer)),
              { r with scanner := t })
          | (.ok (some segment), t) =>
            match s.envelope.step r.tables segment with
            | .error e => (stop (.error e), { r with scanner := t })
            | .ok next =>
              let rest := run policy (earlier ++ s.offers.map (·.problem)) next
                { r with scanner := t }
              (rest.1.after s.emissions s.offers, rest.2) := by
  rw [run]
  dsimp only
  split
  · rfl
  · split
    · rfl
    · split <;> next h => simp only [h]

/-- Reads the interchange through its trailer. The problems offered `earlier` are what the policy
has seen before. -/
def parse (policy : Policy) (earlier : List Problem) (r : Reader) : Reading Closing × Reader :=
  match r.envelope with
  | some _ => ({ result := .error (.internal "interchange already parsed") }, r)
  | none =>
    match r.readHeader with
    | (.error e, r) => ({ result := .error e }, r)
    | (.ok header, r) => r.run policy earlier (Envelope.start r.standard header)

theorem run_bound (policy : Policy) (earlier : List Problem) (transition : Transition)
    (r : Reader) :
    (r.run policy earlier transition).2.scanner.bound ≤ r.scanner.bound := by
  fun_induction run policy earlier transition r with
  | case1 => exact Nat.le_refl _
  | case2 => exact Nat.le_refl _
  | case3 earlier transition r _ _ _ _ _ e t h =>
    have hs : r.scanner.segment = (.error e, t) := h
    simpa [hs] using r.scanner.segment_bound
  | case4 earlier transition r _ _ _ _ _ t h =>
    have hs : r.scanner.segment = (.ok none, t) := h
    simpa [hs] using r.scanner.segment_bound
  | case5 earlier transition r _ _ _ _ _ segment t h =>
    exact Nat.le_of_lt (Scanner.segment_lt h)
  | case6 earlier transition r _ _ _ _ segment t h next _ rest ih =>
    exact Nat.le_trans ih (Nat.le_of_lt (Scanner.segment_lt h))

theorem run_lt {policy : Policy} {earlier : List Problem} {transition : Transition} {r : Reader}
    (h : (transition.settle policy earlier).envelope.phase ≠ .done) {c : Closing}
    (hc : (r.run policy earlier transition).1.result = .ok c) :
    (r.run policy earlier transition).2.scanner.bound < r.scanner.bound := by
  fun_induction run policy earlier transition r with
  | case1 => simp_all
  | case2 => contradiction
  | case3 => simp_all
  | case4 => simp_all
  | case5 => simp_all
  | case6 earlier transition r _ _ _ _ segment t hs next _ rest ih =>
    exact Nat.lt_of_le_of_lt (run_bound ..) (Scanner.segment_lt hs)

theorem start_phase (standard : Standard) (header : Segment) (policy : Policy)
    (earlier : List Problem) :
    ((Envelope.start standard header).settle policy earlier).envelope.phase ≠ .done := by
  simp only [Transition.settle]
  split <;> simp [Envelope.start]

theorem readHeaderSegment_bound (standard : Standard) (start : Nat) (p : Preamble) (t : Scanner) :
    (readHeaderSegment standard start p t).2.bound ≤ t.bound := by
  have hp (n : Nat) := t.passSegment_bound n
  cases p with
  | decoded d n s =>
    have := hp n
    simp only [readHeaderSegment]
    split <;> simp_all
  | advised d n =>
    have := hp n
    simp only [readHeaderSegment]
    split
    · simp_all
    · next u h =>
      have := u.segment_bound
      split <;> simp_all <;> omega
  | implied d =>
    have := t.segment_bound
    simp only [readHeaderSegment]
    split <;> simp_all

theorem readHeader_bound (r : Reader) : r.readHeader.2.scanner.bound ≤ r.scanner.bound := by
  have hp := r.scanner.peek_bound r.standard.previewLength
  simp only [readHeader]
  split
  · simp_all
  · next preview t h =>
    rw [h] at hp
    split
    · exact hp
    · next p _ =>
      have hs : (readHeaderSegment r.standard r.scanner.offset p
          { t with delimiters := p.delimiters }).2.bound ≤ t.bound := readHeaderSegment_bound ..
      split
      · next hr => exact Nat.le_trans (by simpa [hr] using hs) hp
      · next header u hr =>
        have hu : u.bound ≤ t.bound := by simpa [hr] using hs
        split <;> exact Nat.le_trans hu hp

theorem parse_lt {policy : Policy} {earlier : List Problem} {r : Reader} {c : Closing}
    (h : (r.parse policy earlier).1.result = .ok c) :
    (r.parse policy earlier).2.scanner.bound < r.scanner.bound := by
  have hr := r.readHeader_bound
  simp only [parse] at h ⊢
  split
  · simp_all
  · split
    · simp_all
    · next header r' hh =>
      simp_all only
      exact Nat.lt_of_lt_of_le (run_lt (start_phase _ _ _ _) h) hr

theorem resume_bound {options : Options} {rest : Remainder} {r : Reader}
    (h : resume options rest = .ok (some r)) :
    r.scanner.bound ≤ rest.source.bound + rest.leftover.length := by
  have hs := (Scanner.ofRemainder { field := '*', terminator := '~' } options.toLimits
    rest).skipBlank_bound
  simp only [resume] at h
  split at h
  · simp at h
  · simp at h
  · next t ht =>
    rw [ht] at hs
    have hp := t.peek_bound Standard.quotedLength
    split at h
    · simp at h
    · next preview u hu =>
      rw [hu] at hp
      cases hd : Standard.detect preview with
      | error e => simp [hd, Except.map] at h
      | ok o =>
        cases o with
        | none => simp [hd, Except.map] at h
        | some standard =>
          simp only [hd, Except.map, Option.map_some, Except.ok.injEq, Option.some.injEq] at h
          rw [← h]
          exact Nat.le_trans hp hs

end Reader

end Edi
