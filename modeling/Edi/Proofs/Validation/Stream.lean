import Edi.Proofs.Reader.Header
import Edi.Proofs.Reader.Accepted
import Edi.Proofs.Reader.Resume
import Edi.Proofs.Scanner.Segments
import Edi.Proofs.Stream
import Edi.Proofs.Validation.Exact

namespace Edi

variable {t u : Scanner} {standard : Standard} {s header : Segment} {past : List Segment}

theorem Scanner.after_lt {n : Nat} (hn : 0 < n) (hl : n ≤ t.segments.length) :
    (t.after n).bound < t.bound := by
  induction n generalizing t with
  | zero => omega
  | succ n ih =>
    obtain ⟨s, ss, hss⟩ := List.exists_cons_of_length_pos (Nat.lt_of_lt_of_le hn hl)
    obtain ⟨u, hs, rfl⟩ := segment_of_segments_cons hss
    have hu : t.after (n + 1) = u.after n := by simp [after, hs]
    rw [hu]
    rw [hss, List.length_cons] at hl
    cases n with
    | zero => exact segment_lt hs
    | succ n => exact Nat.lt_trans (ih (Nat.succ_pos n) (by omega)) (segment_lt hs)

def Interchange.isComplete (i : Interchange) : Bool :=
  i.body.any fun s ↦ i.standard.role s.tag = .interchangeTrailer

theorem Standard.inPlace_length (standard : Standard) (ss : List Segment) :
    (standard.inPlace ss).length ≤ ss.length := by
  obtain ⟨rest, hr⟩ := Standing.inPlace_prefix standard (.outside .undecided) ss
  have hl := congrArg List.length hr
  rw [List.length_append] at hl
  exact Nat.le.intro hl.symm

namespace Reader

/-- The interchanges that `r` comes to, one after the other. Another is looked for only after one
that is complete. -/
def interchanges (options : Options) (r : Reader) : List Interchange :=
  match _h : r.readHeader with
  | (.error _, _) => []
  | (.ok header, r₀) =>
    let i : Interchange := ⟨r.standard, header, r.standard.inPlace r₀.scanner.segments⟩
    i :: if _hc : i.isComplete then
        match _hr : resume options (r₀.scanner.after i.body.length).remainder with
        | .ok (some next) => next.interchanges options
        | _ => []
      else []
termination_by r.scanner.bound
decreasing_by
  have hp : 0 < i.body.length := by
    obtain ⟨s, hs, -⟩ := List.any_eq_true.1 _hc
    exact List.length_pos_of_mem hs
  have hb := r.readHeader_bound
  rw [_h] at hb
  exact Nat.lt_of_le_of_lt (resume_bound _hr)
    (Nat.lt_of_lt_of_le (Scanner.after_lt hp (Standard.inPlace_length _ _)) hb)

end Reader

theorem Standing.next_eq_finished {q : Standing} {role : Role} {q' : Standing}
    (h : q.next standard role = some q') : q' = .finished ↔ role = .interchangeTrailer := by
  cases q with
  | outside grouping => cases grouping <;> cases role <;> simp_all [Standing.next] <;> simp [← h]
  | group filled => cases role <;> simp_all [Standing.next] <;> simp [← h]
  | document grouped => cases grouped <;> cases role <;> simp_all [Standing.next] <;> simp [← h]
  | finished => simp [Standing.next] at h

theorem Envelope.standing_next_of_step_error {tables : LoopTables} {e : Envelope} {err : Error}
    (hs : e.Settled) (hp : e.phase ≠ .done) (h : e.step tables s = .error err) :
    e.standing.next e.standard (e.standard.role s.tag) = none := by
  cases hq : e.standing.next e.standard (e.standard.role s.tag) with
  | none => rfl
  | some q =>
    obtain ⟨tr, ht⟩ := exists_passes tables s hp (hs.pending hp) hq
    rw [ht.step] at h
    simp at h

/-- A reading of the segments of `t` from a standing on that offers the problems of those in place
and ends well if the trailer is among them. -/
structure Validates (standard : Standard) (q : Standing) (problems : List Problem) (t : Scanner)
    (reading : Reading Closing) (t' : Scanner) : Prop where
  offers : reading.offers = problems.map (⟨·, true⟩)
  complete : (∃ c, reading.result = .ok c) ↔ q = .finished ∨
    ∃ s ∈ q.inPlace standard t.segments, standard.role s.tag = .interchangeTrailer
  after : (∃ c, reading.result = .ok c) → t' = t.after (q.inPlace standard t.segments).length

namespace Validates

variable {q q' : Standing} {problems problems' : List Problem} {t' : Scanner}
  {emissions : List Emission}

theorem finished (t : Scanner) (c : Closing) : Validates standard .finished problems t
    { emissions, offers := problems.map (⟨·, true⟩), result := .ok c } t := by
  constructor
  · rfl
  · exact ⟨fun _ ↦ .inl rfl, fun _ ↦ ⟨c, rfl⟩⟩
  · intro _
    rw [Standing.inPlace_finished]
    rfl

theorem stopped (hq : q ≠ .finished) (hb : q.inPlace standard t.segments = []) (e : Error) :
    Validates standard q problems t
      { emissions, offers := problems.map (⟨·, true⟩), result := .error e } t' := by
  constructor
  · rfl
  · simp [hq, hb]
  · simp

theorem cons {reading : Reading Closing} (h : t.segment = (.ok (some s), u)) (hq : q ≠ .finished)
    (hn : q.next standard (standard.role s.tag) = some q')
    (hv : Validates standard q' problems' u reading t') :
    Validates standard q (problems ++ problems') t
      (reading.after emissions (problems.map (⟨·, true⟩))) t' := by
  have hb : q.inPlace standard t.segments = s :: q'.inPlace standard u.segments := by
    rw [Scanner.segments_of_segment h, Standing.inPlace_cons hn]
  constructor
  · simp [Reading.after, hv.offers]
  · rw [hb]
    simpa [Reading.after, hq, ← Standing.next_eq_finished hn] using hv.complete
  · intro hc
    rw [hb, List.length_cons, hv.after hc]
    simp [Scanner.after, h]

end Validates

namespace Reader

open Envelope

theorem run_lenient_validates (earlier : List Problem) (tr : Transition) (r : Reader)
    (hn : tr.next.Settled) (ht : Tracks standard header past tr.next) :
    Validates standard tr.next.standing (tr.problems ++
        Interchange.problemsAfter standard header past
          (tr.next.standing.inPlace standard r.scanner.segments))
      r.scanner (r.run .lenient earlier tr).1 (r.run .lenient earlier tr).2.scanner := by
  have hrun := r.run_lenient earlier tr
  generalize r.scanner = t, (r.run .lenient earlier tr).1 = reading,
    (r.run .lenient earlier tr).2.scanner = t' at hrun ⊢
  induction hrun generalizing past with
  | finished hd =>
    rw [standing_eq_finished hd, Standing.inPlace_finished, Interchange.problemsAfter,
      List.append_nil]
    exact .finished _ _
  | @failed tr x _ _ hd hs | @ended tr x _ hd hs =>
    have hb : tr.next.standing.inPlace standard x.segments = [] := by
      rw [Scanner.segments_of_ne (by simp [hs])]
      rfl
    rw [hb, Interchange.problemsAfter, List.append_nil]
    exact .stopped (standing_ne_finished hd) hb _
  | @turnedAway tr x _ _ _ hd hs hst =>
    obtain rfl := ht.standard_eq
    have hb : tr.next.standing.inPlace tr.next.standard x.segments = [] := by
      rw [Scanner.segments_of_segment hs,
        Standing.inPlace_cons_of_none (standing_next_of_step_error hn hd hst)]
    rw [hb, Interchange.problemsAfter, List.append_nil]
    exact .stopped (standing_ne_finished hd) hb _
  | step hd hs hst _ ih =>
    obtain rfl := ht.standard_eq
    have hp := step_eq_ok hst
    have hq := hp.standing_next hn.toCoherent hd
    have hv := ih (hp.settled hn hd) (hp.tracks rfl ht)
    rw [hp.problems_eq rfl ht (hn.pending hd)] at hv
    rw [Scanner.segments_of_segment hs, Standing.inPlace_cons hq, Interchange.problemsAfter]
    exact .cons hs (standing_ne_finished hd) hq hv

theorem compositeProblems_of_simple {level : Level} (position : Nat)
    (h : ∀ f ∈ s.fields, ∃ text, f.value = .simple text) :
    s.compositeProblems level position = [] := by
  cases hf : s.fields.find? (·.position = position) with
  | none => simp [Segment.compositeProblems, Segment.element?, hf]
  | some f =>
    obtain ⟨text, ht⟩ := h f (List.mem_of_find?_eq_some hf)
    simp [Segment.compositeProblems, Segment.element?, hf, ht]

theorem parse_lenient_validates (earlier : List Problem) {r r₀ : Reader} (hr : r.envelope = none)
    (hh : r.readHeader = (.ok header, r₀)) :
    Validates r.standard (.outside .undecided)
      (Interchange.problems ⟨r.standard, header, r.standard.inPlace r₀.scanner.segments⟩)
      r₀.scanner (r.parse .lenient earlier).1 (r.parse .lenient earlier).2.scanner := by
  have hx (hs : r.standard = .x12) : header.compositeProblems .interchange 13 = [] :=
    compositeProblems_of_simple 13 fun f hf ↦ simple_of_readHeader hh hs hf
  have hv := run_lenient_validates earlier (start r.standard header) r₀ (start_settled _ _)
    (start_tracks _ _)
  have hp : (start r.standard header).problems = header.headerProblems r.standard .interchange ++
      header.lengthProblems r.standard := InterchangeHeader.ofSegment_problems hx
  rw [hp] at hv
  rw [parse_of_readHeader .lenient earlier hr hh]
  exact hv

theorem interchanges_of_error {options : Options} {r r₀ : Reader} {e : Error}
    (h : r.readHeader = (.error e, r₀)) : r.interchanges options = [] := by
  rw [interchanges]
  split
  · rfl
  · next h' => simp [h] at h'

theorem interchanges_of_ok {options : Options} {r r₀ : Reader}
    (h : r.readHeader = (.ok header, r₀)) :
    r.interchanges options =
      let i : Interchange := ⟨r.standard, header, r.standard.inPlace r₀.scanner.segments⟩
      i :: if i.isComplete then
          match resume options (r₀.scanner.after i.body.length).remainder with
          | .ok (some next) => next.interchanges options
          | _ => []
        else [] := by
  rw [interchanges]
  split
  · next h' => simp [h] at h'
  · next header' r₀' h' =>
    obtain ⟨hh, rfl⟩ := Prod.mk.inj (h.symm.trans h')
    obtain rfl := Except.ok.inj hh
    simp only [dite_eq_ite]
    split
    · split <;> simp_all
    · rfl

theorem parseAll_lenient_of_ok (options : Options) (earlier : List Problem) {r r₀ : Reader}
    (hr : r.envelope = none) (hh : r.readHeader = (.ok header, r₀)) :
    let i : Interchange := ⟨r.standard, header, r.standard.inPlace r₀.scanner.segments⟩
    let one := (r.parse .lenient earlier).1
    (r.interchanges options = [i] ∧ ∃ result,
        r.parseAll .lenient options earlier = { one with result } ∧
          ∀ cs, result = .ok cs → i.isComplete ∧ cs.length = 1) ∨
      ∃ (next : Reader) (earlier' : List Problem) (result : _), next.envelope = none ∧
        next.scanner.bound < r.scanner.bound ∧
        r.interchanges options = i :: next.interchanges options ∧
        r.parseAll .lenient options earlier =
          { (next.parseAll .lenient options earlier').after one.emissions one.offers with
            result } ∧
        ∀ cs, result = .ok cs → i.isComplete ∧
          ∃ cs', (next.parseAll .lenient options earlier').result = .ok cs' ∧
            cs.length = cs'.length + 1 := by
  intro i one
  have hv := parse_lenient_validates earlier hr hh
  have hi : i.isComplete = true ↔ ∃ c, one.result = .ok c := by
    rw [hv.complete]
    simp [Interchange.isComplete, i, Standard.inPlace]
  rw [interchanges_of_ok hh]
  cases hres : one.result with
  | error e =>
    have hc : i.isComplete = false := by simp [← Bool.not_eq_true, hi, hres]
    rw [parseAll_of_error hres]
    exact .inl ⟨by simp [i, hc], _, rfl, nofun⟩
  | ok c =>
    have hc : i.isComplete = true := hi.2 ⟨c, hres⟩
    have ht : (r.parse .lenient earlier).2.remainder =
        (r₀.scanner.after i.body.length).remainder :=
      congrArg Scanner.remainder (hv.after ⟨c, hres⟩)
    rw [parseAll_of_ok hres]
    simp only [ht]
    cases hn : resume options (r₀.scanner.after i.body.length).remainder with
    | error e => exact .inl ⟨by simp [i, hc], _, rfl, nofun⟩
    | ok o =>
      cases o with
      | none =>
        exact .inl ⟨by simp [i, hc], _, rfl, fun cs h ↦ ⟨hc, by simp_all [← Except.ok.inj h]⟩⟩
      | some next =>
        have hrem : resume options (r.parse .lenient earlier).2.remainder = .ok (some next) := by
          rw [ht, hn]
        have hlt : next.scanner.bound < r.scanner.bound :=
          Nat.lt_of_le_of_lt (resume_bound hrem) (parse_lt hres)
        refine .inr ⟨next, _, _, resume_envelope hn, hlt, by simp [i, hc], rfl, fun cs h ↦ ⟨hc, ?_⟩⟩
        cases hrest : (next.parseAll .lenient options
          (earlier ++ (r.parse .lenient earlier).1.offers.map (·.problem))).result with
        | error e => simp [hrest, Except.map] at h
        | ok cs' =>
          simp only [hrest, Except.map, Except.ok.injEq] at h
          exact ⟨cs', rfl, by simp [← h]⟩

theorem parseAll_lenient_of_error (options : Options) (earlier : List Problem) {r r₀ : Reader}
    {e : Error} (hr : r.envelope = none) (hh : r.readHeader = (.error e, r₀)) :
    r.parseAll .lenient options earlier = { result := .error e } := by
  have hp := parse_of_readHeader_error .lenient earlier hr hh
  have he : (r.parse .lenient earlier).1.result = .error e := by rw [hp]
  rw [parseAll_of_error he, hp]

/-- Reading lists every problem there is, and no other, in order. -/
theorem parseAll_lenient_offers (options : Options) (earlier : List Problem) (r : Reader)
    (hr : r.envelope = none) : (r.parseAll .lenient options earlier).offers =
      ((r.interchanges options).flatMap Interchange.problems).map (⟨·, true⟩) := by
  induction hb : r.scanner.bound using Nat.strongRecOn generalizing earlier r with
  | ind n ih =>
    rcases hh : r.readHeader with ⟨e | header, r₀⟩
    · rw [parseAll_lenient_of_error options earlier hr hh, interchanges_of_error hh]
      rfl
    · have hone := (parse_lenient_validates earlier hr hh).offers
      rcases parseAll_lenient_of_ok options earlier hr hh with
        ⟨hi, result, hp, -⟩ | ⟨next, earlier', result, hn, hlt, hi, hp, -⟩
      · rw [hi, hp, hone]
        simp
      · rw [hi, hp, Reading.after, hone, ih _ (hb ▸ hlt) earlier' next hn rfl]
        simp

theorem parseAll_lenient_complete (options : Options) (earlier : List Problem) (r : Reader)
    (hr : r.envelope = none) {closings : List Closing}
    (h : (r.parseAll .lenient options earlier).result = .ok closings) :
    (r.interchanges options).length = closings.length ∧
      ∀ i ∈ r.interchanges options, i.isComplete := by
  induction hb : r.scanner.bound using Nat.strongRecOn generalizing earlier r closings with
  | ind n ih =>
    rcases hh : r.readHeader with ⟨e | header, r₀⟩
    · rw [parseAll_lenient_of_error options earlier hr hh] at h
      simp at h
    · rcases parseAll_lenient_of_ok options earlier hr hh with
        ⟨hi, result, hp, hok⟩ | ⟨next, earlier', result, hn, hlt, hi, hp, hok⟩
      · rw [hp] at h
        obtain ⟨hc, hl⟩ := hok closings h
        rw [hi, hl]
        exact ⟨rfl, List.forall_mem_singleton.2 hc⟩
      · rw [hp] at h
        obtain ⟨hc, cs, hcs, hl⟩ := hok closings h
        obtain ⟨hlen, hall⟩ := ih _ (hb ▸ hlt) earlier' next hn hcs rfl
        rw [hi, List.length_cons, hlen, hl]
        exact ⟨rfl, List.forall_mem_cons.2 ⟨hc, hall⟩⟩

end Reader

def interchanges (options : Options) (source : Source) : List Interchange :=
  match Reader.open? options source with
  | .ok (some r) => r.interchanges options
  | _ => []

/-- What is offered to a policy that always goes on are the problems of the interchanges, all of
them and no others. -/
theorem parseStream_lenient_offers (options : Options) (source : Source) :
    (parseStream .lenient options source).offers =
      ((interchanges options source).flatMap Interchange.problems).map (⟨·, true⟩) := by
  simp only [parseStream, interchanges]
  cases h : Reader.open? options source with
  | error e => rfl
  | ok o =>
    cases o with
    | none => rfl
    | some r => exact r.parseAll_lenient_offers options [] (Reader.resume_envelope h)

end Edi
